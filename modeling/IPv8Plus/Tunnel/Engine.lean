import IPv8Plus.Codec.Fragment
import IPv8Plus.Tunnel.Encapsulate

/-!
# The sending side of the engine

The sealing calls of `ipv8-tunnel/src/engine.rs` and the split into shards. Handshakes and incoming frames
are left out: `install` is what every handshake does with the keys it made.
-/

namespace IPv8Plus.Tunnel
open Lib Codec

/-- Where the handshake stands. -/
inductive State where
  | idle
  | initiating
  | responding
  | established
  deriving DecidableEq, Repr

inductive EngineError where
  | notEstablished
  | needsFragmentation (n : Nat)
  | frame (e : FrameError)
  deriving DecidableEq, Repr

structure Engine where
  state : State
  keys : Option TunnelKeys
  cipherSuite : CipherSuite
  localAddr : IPv8Address
  peerAddr : IPv8Address
  mtu : Nat
  fragId : UInt32
  sealedOutbound : UInt64
  fragmentsSent : UInt64
  sharded : Bool

/-- How `seal_frames` passes on an error of the fragmenter. -/
def frameErrFromFragment : FragmentError → EngineError
  | .mtuTooSmall m => .frame (.tooShort m)
  | _ => .frame .bodyTooShort

/-- Encapsulate packets one after the other, up to the first error; one clock reading for each. -/
def encapsulateAll (A : Aead) (clock : Nat → Nat) (keys : TunnelKeys) :
    List Bytes → TunnelKeys × Outcome FrameError (List Bytes)
  | [] => (keys, .ok [])
  | packet :: packets =>
    match encapsulate A keys (clock 0) packet with
    | (keys, .err e) => (keys, .err e)
    | (keys, .panic) => (keys, .panic)
    | (keys, .ok frame) =>
      let (keys, x) := encapsulateAll A (fun i => clock (i + 1)) keys packets
      (keys, (frame :: ·) <$> x)

namespace Engine

/-- The end of a handshake: new keys, with the configured suite. -/
def install (e : Engine) (keys : TunnelKeys) : Engine :=
  { e with state := .established, keys := some (keys.setSuite e.cipherSuite).1, sharded := false }

def buildIpv8Packet (e : Engine) (innerIp : Bytes) : Outcome EngineError Bytes :=
  (encode (IPv8Header.new e.localAddr e.peerAddr (UInt16.ofNat innerIp.length)) innerIp).expect

variable (A : Aead)

/-- Encapsulate one packet and count it. -/
def sealPacket (e : Engine) (keys : TunnelKeys) (now : Nat) (packet : Bytes) :
    Engine × Outcome EngineError Bytes :=
  if e.mtu < packet.length then (e, .err (.needsFragmentation packet.length))
  else
    match encapsulate A keys now packet with
    | (keys, .ok frame) => ({ e with keys := some keys, sealedOutbound := e.sealedOutbound + 1 }, .ok frame)
    | (keys, .err x) => ({ e with keys := some keys }, .err (.frame x))
    | (keys, .panic) => ({ e with keys := some keys }, .panic)

def sealPrebuilt (e : Engine) (now : Nat) (packet : Bytes) : Engine × Outcome EngineError Bytes :=
  match e.keys with
  | none => (e, .err .notEstablished)
  | some keys => e.sealPacket A keys now packet

def sealFrame (e : Engine) (now : Nat) (innerIp : Bytes) : Engine × Outcome EngineError Bytes :=
  match e.keys with
  | none => (e, .err .notEstablished)
  | some keys =>
    match e.buildIpv8Packet innerIp with
    | .err x => (e, .err x)
    | .panic => (e, .panic)
    | .ok whole => e.sealPacket A keys now whole

def sealFrames (e : Engine) (clock : Nat → Nat) (innerIp : Bytes) :
    Engine × Outcome EngineError (List Bytes) :=
  match e.keys with
  | none => (e, .err .notEstablished)
  | some keys =>
    match e.buildIpv8Packet innerIp with
    | .err x => (e, .err x)
    | .panic => (e, .panic)
    | .ok whole =>
      let id := e.fragId
      let e := { e with fragId := e.fragId + 1 }
      match (fragmentPacket whole e.mtu id).mapErr frameErrFromFragment with
      | .err x => (e, .err x)
      | .panic => (e, .panic)
      | .ok packets =>
        let n := UInt64.ofNat packets.length
        match encapsulateAll A clock keys packets with
        | (keys, .err x) => ({ e with keys := some keys }, .err (.frame x))
        | (keys, .panic) => ({ e with keys := some keys }, .panic)
        | (keys, .ok frames) =>
          ({ e with
              keys := some keys
              sealedOutbound := e.sealedOutbound + n
              fragmentsSent := e.fragmentsSent + satSub n 1 }, .ok frames)

def sealReceipt (e : Engine) (now : Nat) (report : Bytes) : Engine × Option Bytes :=
  match e.keys with
  | none => (e, none)
  | some keys =>
    let (keys, keyId, body) := keys.sealReceipt A now report
    ({ e with keys := some keys }, some (writeHead [] .receipt keyId ++ body))

/-- Hand the keys over to `n` shards; the engine keeps none. -/
def splitShards (e : Engine) (now : Nat) (n : UInt64) :
    Engine × Outcome EngineError (List TunnelKeys × IPv8Address × IPv8Address × Nat) :=
  if n = 0 ∨ e.state ≠ .established ∨ e.sharded then (e, .err .notEstablished)
  else
    match e.keys with
    | none => (e, .err .notEstablished)
    | some base =>
      match (List.range n.toNat).mapM (fun k => base.deriveShard now (UInt64.ofNat k) n) with
      | .err x => (e, .err x)
      | .panic => ({ e with keys := none }, .panic)
      | .ok shards =>
        ({ e with keys := none, sharded := true }, .ok (shards, e.localAddr, e.peerAddr, e.mtu))

/-- The sealing calls. -/
inductive Call where
  | sealFrame (now : Nat) (innerIp : Bytes)
  | sealFrames (clock : Nat → Nat) (innerIp : Bytes)
  | sealPrebuilt (now : Nat) (packet : Bytes)
  | sealReceipt (now : Nat) (report : Bytes)

/-- The engine after a call, and the frames it hands out if it succeeds. -/
def step (e : Engine) : Call → Engine × Option (List Bytes)
  | .sealFrame now innerIp =>
    let (e, x) := e.sealFrame A now innerIp
    (e, x.toOption.map ([·]))
  | .sealFrames clock innerIp =>
    let (e, x) := e.sealFrames A clock innerIp
    (e, x.toOption)
  | .sealPrebuilt now packet =>
    let (e, x) := e.sealPrebuilt A now packet
    (e, x.toOption.map ([·]))
  | .sealReceipt now report =>
    let (e, x) := e.sealReceipt A now report
    (e, x.map ([·]))

/-- The keys of shard `i` of `n`. -/
def shardKeys (base : TunnelKeys) (now : Nat) (n : UInt64) (i : Nat) : TunnelKeys :=
  { base with
    shard := UInt64.ofNat i
    stride := n
    sendEpoch := UInt64.ofNat i
    epochCreated := now
    epochBytes := 0
    txCounter := 0
    txReceiptCounter := 0
    rx := ∅
    rxReceipt := ∅
    sendCipher := none
    rxCiphers := ∅
    history := [] }

variable {A} {e : Engine} {P : TunnelKeys → Prop}

/-- A split succeeds exactly in an established engine that still has its keys: no assertion fails. -/
theorem splitShards_cases (e : Engine) (now : Nat) (n : UInt64) :
    e.splitShards now n = (e, .err .notEstablished) ∨
      ∃ base, e.keys = some base ∧ n ≠ 0 ∧
        e.splitShards now n = ({ e with keys := none, sharded := true },
          .ok ((List.range n.toNat).map (shardKeys base now n), e.localAddr, e.peerAddr, e.mtu)) := by
  unfold splitShards
  split
  · exact .inl rfl
  next hno =>
  split
  · exact .inl rfl
  next base hbase =>
  have hn : n ≠ 0 := fun h0 => hno (.inl h0)
  have hpos : 1 ≤ n := by
    rw [UInt64.le_iff_toNat_le]
    exact Nat.pos_of_ne_zero fun h0 => hn (UInt64.toNat_inj.mp h0)
  have hshards : ∀ i ∈ List.range n.toNat,
      (base.deriveShard now (UInt64.ofNat i) n : Outcome EngineError TunnelKeys) =
        .ok (shardKeys base now n i) := by
    intro i hi
    have hlt : UInt64.ofNat i < n := by
      have hin := List.mem_range.mp hi
      rw [UInt64.lt_iff_toNat_lt, UInt64.toNat_ofNat_of_lt' (hin.trans n.toNat_lt)]
      exact hin
    exact if_pos ⟨hpos, hlt⟩
  refine .inr ⟨base, hbase, hn, ?_⟩
  rw [Outcome.mapM_eq_ok hshards]

/-- What sealing keeps, encapsulating packets keeps. -/
lemma encapsulateAll_keys (hseal : ∀ k now kind aad plaintext, P k → P (k.sealWith A kind now aad plaintext).1)
    (clock : Nat → Nat) {keys : TunnelKeys} (h : P keys) (packets : List Bytes) :
    P (encapsulateAll A clock keys packets).1 := by
  induction packets generalizing clock keys with
  | nil => exact h
  | cons packet packets ih =>
    have hone : P (encapsulate A keys (clock 0) packet).1 := encapsulate_keys h fun _ _ => hseal _ _ _ _ _ h
    unfold encapsulateAll
    split
    · next e => rw [e] at hone; exact hone
    · next e => rw [e] at hone; exact hone
    · next e => rw [e] at hone; exact ih _ hone

lemma sealPacket_keys (hseal : ∀ k now kind aad plaintext, P k → P (k.sealWith A kind now aad plaintext).1)
    {keys : TunnelKeys} {now : Nat} {packet : Bytes} (h : P keys) (he : ∀ k ∈ e.keys, P k) :
    ∀ k ∈ (e.sealPacket A keys now packet).1.keys, P k := by
  have hone : P (encapsulate A keys now packet).1 := encapsulate_keys h fun _ _ => hseal _ _ _ _ _ h
  unfold sealPacket
  split
  · exact he
  split
  all_goals
    next e =>
    rw [e] at hone
    rintro k ⟨⟩
    exact hone

/-- What sealing keeps, every call keeps of the keys. -/
theorem step_keys (hseal : ∀ k now kind aad plaintext, P k → P (k.sealWith A kind now aad plaintext).1)
    (he : ∀ k ∈ e.keys, P k) (c : Call) : ∀ k ∈ (e.step A c).1.keys, P k := by
  cases c with
  | sealFrame now innerIp =>
    show ∀ k ∈ (e.sealFrame A now innerIp).1.keys, P k
    unfold sealFrame
    split
    · exact he
    next keys hkeys =>
    split
    · exact he
    · exact he
    · exact sealPacket_keys hseal (he keys hkeys) he
  | sealFrames clock innerIp =>
    show ∀ k ∈ (e.sealFrames A clock innerIp).1.keys, P k
    unfold sealFrames
    split
    · exact he
    next keys hkeys =>
    split
    · exact he
    · exact he
    dsimp only
    split
    · exact he
    · exact he
    next packets _ =>
    have hall := encapsulateAll_keys hseal clock (he keys hkeys) packets
    split
    all_goals
      next e =>
      rw [e] at hall
      rintro k ⟨⟩
      exact hall
  | sealPrebuilt now packet =>
    show ∀ k ∈ (e.sealPrebuilt A now packet).1.keys, P k
    unfold sealPrebuilt
    split
    · exact he
    next keys hkeys =>
    exact sealPacket_keys hseal (he keys hkeys) he
  | sealReceipt now report =>
    show ∀ k ∈ (e.sealReceipt A now report).1.keys, P k
    unfold sealReceipt
    split
    · exact he
    next keys hkeys =>
    rintro k ⟨⟩
    exact hseal keys now .receipt [] report (he keys hkeys)

end Engine

end IPv8Plus.Tunnel
