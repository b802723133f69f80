import IPv8Plus.Tunnel.DataPlane

/-!
# Shard workers

`ipv8-tunnel/src/flow.rs`: the data plane of a split engine. Each worker has the keys of one shard, its own
reassembler and its own fragment ids; packets are dispatched by a hash of their flow, frames by the epoch in their
KeyID. Every worker takes its tasks from a queue, so it sees them one after the other; a task is modelled at the
time at which its worker gets to it.
-/

namespace IPv8Plus.Tunnel
open Lib Codec

/-- The counters of a worker; those of a tunnel are their sums. -/
structure ShardStats where
  sealed : UInt64 := 0
  delivered : UInt64 := 0
  dropped : UInt64 := 0
  fragmentsSent : UInt64 := 0
  fragmentsReassembled : UInt64 := 0
  deriving DecidableEq, Repr

/-- The state of `worker_loop`. -/
structure Worker where
  keys : TunnelKeys
  localAddr : IPv8Address
  peerAddr : IPv8Address
  mtu : Nat
  reasm : Reassembler
  fragId : UInt32
  stats : ShardStats

/-- Encapsulate packets and hand out their frames, up to the first error. -/
def emitAll (A : Aead) (clock : Nat → Nat) (keys : TunnelKeys) :
    List Bytes → TunnelKeys × List Bytes × Outcome FrameError Unit
  | [] => (keys, [], .ok ())
  | packet :: packets =>
    match encapsulate A keys (clock 0) packet with
    | (keys, .err e) => (keys, [], .err e)
    | (keys, .panic) => (keys, [], .panic)
    | (keys, .ok frame) =>
      let (keys, frames, x) := emitAll A (fun i => clock (i + 1)) keys packets
      (keys, frame :: frames, x)

namespace Worker

/-- A worker starts its fragment ids at the number of its shard. -/
def new (keys : TunnelKeys) (localAddr peerAddr : IPv8Address) (mtu : Nat) : Worker where
  keys := keys
  localAddr := localAddr
  peerAddr := peerAddr
  mtu := mtu
  reasm := .new
  fragId := keys.shard.toUInt32
  stats := {}

def drop (w : Worker) : Worker := { w with stats := { w.stats with dropped := w.stats.dropped + 1 } }

def deliver (w : Worker) (d : Decoded) : Worker × Outcome Empty Verdict :=
  ({ w with stats := { w.stats with delivered := w.stats.delivered + 1 } }, .ok (.delivered d))

/-- A rebuilt packet is decoded again and delivered. -/
def deliverWhole (w : Worker) (whole : Bytes) : Worker × Outcome Empty Verdict :=
  let w := { w with stats := { w.stats with fragmentsReassembled := w.stats.fragmentsReassembled + 1 } }
  match decode whole with
  | .ok d => w.deliver d
  | .err _ => (w.drop, .ok .dropped)
  | .panic => (w, .panic)

/-- What happens to an opened packet. -/
def receive (w : Worker) (instant : Nat) (pkt : Bytes) : Worker × Outcome Empty Verdict :=
  match decode pkt with
  | .err _ => (w.drop, .ok .dropped)
  | .panic => (w, .panic)
  | .ok d =>
    if d.header.nextHeader = ExtType.routeTrace.wire then (w.drop, .ok .dropped)
    else if d.header.flags &&& flags.fragment ≠ 0 then
      let (r, x) := w.reasm.insert instant d.header d.payload
      let w := { w with reasm := r }
      match x with
      | .ok (some whole) => w.deliverWhole whole
      | .ok none => (w, .ok .waiting)
      | .err _ => (w.drop, .ok .dropped)
      | .panic => (w, .panic)
    else w.deliver d

variable (A : Aead)

/-- A data task. -/
def data (w : Worker) (instant : Nat) (frame : Bytes) : Worker × Outcome Empty Verdict :=
  match decapsulate A w.keys frame with
  | (keys, .err _) => ({ w with keys }.drop, .ok .dropped)
  | (keys, .panic) => ({ w with keys }, .panic)
  | (keys, .ok pkt) => { w with keys }.receive instant pkt

/-- A seal task, and the frames it hands out. -/
def «seal» (w : Worker) (clock : Nat → Nat) (inner : Bytes) : Worker × Outcome Empty (List Bytes) :=
  match encode (IPv8Header.new w.localAddr w.peerAddr (UInt16.ofNat inner.length)) inner with
  | .err _ => (w.drop, .ok [])
  | .panic => (w, .panic)
  | .ok whole =>
    match fragmentPacket whole w.mtu w.fragId with
    | .err _ => (w.drop, .ok [])
    | .panic => (w, .panic)
    | .ok packets =>
      let n := UInt64.ofNat packets.length
      match emitAll A clock w.keys packets with
      | (keys, frames, .err _) => ({ w with keys, fragId := w.fragId + 1 }.drop, .ok frames)
      | (keys, _, .panic) => ({ w with keys, fragId := w.fragId + 1 }, .panic)
      | (keys, frames, .ok _) =>
        ({ w with
            keys
            fragId := w.fragId + 1
            stats := { w.stats with
              sealed := w.stats.sealed + n
              fragmentsSent := w.stats.fragmentsSent + satSub n 1 } }, .ok frames)

end Worker

/-- The bytes that tell the flows of IPv4 and IPv6 packets apart: addresses, ports and protocol. -/
def flowBytes (innerIp : Bytes) : Bytes :=
  let at' := fun i => innerIp.getD i 0
  let part := fun a b => (innerIp.drop a).take (b - a)
  if innerIp.isEmpty then []
  else if at' 0 >>> 4 = 4 ∧ 20 ≤ innerIp.length then
    let proto := at' 9
    let ihl := (at' 0 &&& 0x0F).toNat * 4
    let ihl := if 6 ≤ ihl ∧ ihl ≤ 60 ∧ ihl ≤ innerIp.length then ihl else 20
    let ports := if (proto = 6 ∨ proto = 17) ∧ ihl + 4 ≤ innerIp.length then part ihl (ihl + 4) else []
    part 12 20 ++ ports ++ [proto]
  else if at' 0 >>> 4 = 6 ∧ 40 ≤ innerIp.length then
    let nh := at' 6
    let ports := if (nh = 6 ∨ nh = 17) ∧ 44 ≤ innerIp.length then part 40 44 else []
    part 8 40 ++ ports ++ [nh]
  else innerIp.take 16

/-- FNV-1a over the flow, folded to 32 bits. The buffer of the source has 40 bytes. -/
def hashFlow (innerIp : Bytes) : UInt32 :=
  let h := ((flowBytes innerIp).take 40).foldl
    (fun h b => (h ^^^ b.toUInt64) * 0x100000001B3) (0xCBF29CE484222325 : UInt64)
  (h >>> 32 ^^^ h).toUInt32

/-- The workers of a tunnel; `ok` until they are shut down. -/
structure FlowShards where
  workers : List Worker
  ok : Bool

namespace FlowShards

/-- One worker for the keys of each shard; the assertion of the source is a panic. -/
def new (shards : List TunnelKeys) (localAddr peerAddr : IPv8Address) (mtu : Nat) : Outcome Empty FlowShards :=
  if shards.isEmpty then .panic
  else .ok { workers := shards.map fun keys => Worker.new keys localAddr peerAddr mtu, ok := true }

def shutdown (f : FlowShards) : FlowShards := { f with ok := false }

variable (A : Aead)

/-- The frames that a packet goes out in. -/
def sealDispatch (f : FlowShards) (clock : Nat → Nat) (innerIp : Bytes) :
    FlowShards × Outcome EngineError (List Bytes) :=
  if !f.ok then (f, .err .notEstablished)
  else
    let k := (hashFlow innerIp).toNat % f.workers.length
    match f.workers[k]? with
    | none => (f, .panic)
    | some w =>
      match w.seal A clock innerIp with
      | (w, .ok frames) => ({ f with workers := f.workers.set k w }, .ok frames)
      | (w, _) => ({ f with workers := f.workers.set k w }, .panic)

/-- The worker for a KeyID: the epoch without the byte of the suite, modulo the number of workers. -/
def shardOf (f : FlowShards) (keyId : KeyId) : Nat :=
  (ofBe64 (0 :: keyId.val.drop 1)).toNat % f.workers.length

/-- Route a data frame; `none` is the answer `false`. -/
def handleInbound (f : FlowShards) (instant : Nat) (frame : Bytes) :
    FlowShards × Option (Outcome Empty Verdict) :=
  if !f.ok then (f, none)
  else
    match parseHead frame with
    | .err _ => (f, none)
    | .panic => (f, some .panic)
    | .ok head =>
      if head.frameType ≠ .data then (f, none)
      else
        match f.workers[f.shardOf head.keyId]? with
        | none => (f, some .panic)
        | some w =>
          let (w, x) := w.data A instant frame
          ({ f with workers := f.workers.set (f.shardOf head.keyId) w }, some x)

end FlowShards

end IPv8Plus.Tunnel
