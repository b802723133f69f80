import IPv8Plus.Codec.Reassembler
import IPv8Plus.Tunnel.Auth
import IPv8Plus.Tunnel.Engine

/-!
# The receiving side of the engine

What `ipv8-tunnel/src/engine.rs` does with the data frames it gets: it opens them, collects fragments, and
delivers the payload, or passes a multi-hop packet on to the next hop. Also the call that seals a multi-hop
packet at its source. The engine reads two clocks: `instant` is the one of the reassembler, `now` the wall clock
for certificates.
-/

namespace IPv8Plus.Tunnel
open Lib Codec Routing

variable (S : SigScheme)

/-- The engine with what it has received. -/
structure DataPlane extends Engine where
  auth : Option (HostIdentity S)
  delivered : Option Bytes
  reassembler : Reassembler
  deliveredInbound : UInt64
  droppedInbound : UInt64
  fragmentsReassembled : UInt64
  fwd : Option PublicKey
  forwardOut : List (IPv8Address × Bytes)
  forwarded : UInt64
  fwdRejected : UInt64

/-- What becomes of a frame: the packet it brings is delivered, passed on or rejected, or there is none. -/
inductive Verdict where
  | delivered (d : Decoded)
  | forwarded (d : Decoded) (next : IPv8Address) (packet : Bytes)
  | rejected
  | dropped
  | waiting
  | ignored
  deriving DecidableEq

variable {S}

namespace DataPlane

/-- An engine that has received nothing. -/
def new (e : Engine) (auth : Option (HostIdentity S)) : DataPlane S where
  toEngine := e
  auth := auth
  delivered := none
  reassembler := .new
  deliveredInbound := 0
  droppedInbound := 0
  fragmentsReassembled := 0
  fwd := none
  forwardOut := []
  forwarded := 0
  fwdRejected := 0

def enableForwarding (e : DataPlane S) (anchorPub : PublicKey) : DataPlane S := { e with fwd := some anchorPub }

def takeForwardPacket (e : DataPlane S) : DataPlane S × Option (IPv8Address × Bytes) :=
  ({ e with forwardOut := e.forwardOut.tail }, e.forwardOut.head?)

def takeDelivered (e : DataPlane S) : DataPlane S × Option Bytes := ({ e with delivered := none }, e.delivered)

def deliver (e : DataPlane S) (d : Decoded) : DataPlane S × Outcome Empty Verdict :=
  ({ e with delivered := some d.payload, deliveredInbound := e.deliveredInbound + 1 }, .ok (.delivered d))

def drop (e : DataPlane S) : DataPlane S × Outcome Empty Verdict :=
  ({ e with droppedInbound := e.droppedInbound + 1 }, .ok .dropped)

def reject (e : DataPlane S) : DataPlane S × Outcome Empty Verdict :=
  ({ e with fwdRejected := e.fwdRejected + 1 }, .ok .rejected)

/-- The check of a multi-hop packet; the `None` of the source is the error. -/
def routeDecision (e : DataPlane S) (d : Decoded) (pkt : Bytes) (now : UInt64) : Outcome Unit Decision :=
  match e.fwd with
  | none => .err ()
  | some anchorPub => do
    let head7 ← slice pkt 0 7
    match frozenHead head7 with
    | none => .err ()
    | some head7 =>
      let first ← idx d.header.extHeaders 0
      let trace ← (RouteTrace.fromPayload first.payload).mapErr fun _ => ()
      match d.header.extHeaders.find? fun x => x.extType = .identityToken with
      | none => .err ()
      | some idtok =>
        if idtok.payload.length ≠ certLen then .err ()
        else
          match verifyForNextHop S
            { localAddr := e.localAddr
              trace
              head7
              srcAddr := d.header.srcAddr
              dstAddr := d.header.dstAddr
              currentHopLimit := d.header.hopLimit
              certWire := idtok.payload
              anchorPub
              now } with
          | .ok decision => .ok decision
          | .error _ => .err ()

/-- Pass the packet on with its hop limit one lower, unless none is left. -/
def forward (e : DataPlane S) (d : Decoded) (next : IPv8Address) : DataPlane S × Outcome Empty Verdict :=
  if d.header.hopLimit = 0 ∨ d.header.hopLimit - 1 = 0 then e.reject
  else
    match encode { d.header with hopLimit := d.header.hopLimit - 1 } d.payload with
    | .ok packet =>
      ({ e with forwarded := e.forwarded + 1, forwardOut := e.forwardOut ++ [(next, packet)] },
        .ok (.forwarded d next packet))
    | .err _ => e.reject
    | .panic => (e, .panic)

/-- `ingest_ipv8_packet`: a packet that does not start with RouteTrace is delivered, another one is checked. -/
def ingest (e : DataPlane S) (pkt : Bytes) (now : UInt64) : DataPlane S × Outcome Empty Verdict :=
  match decode pkt with
  | .err _ => e.drop
  | .panic => (e, .panic)
  | .ok d =>
    if d.header.nextHeader ≠ ExtType.routeTrace.wire then e.deliver d
    else
      match e.routeDecision d pkt now with
      | .ok .deliver => if d.header.dstAddr = e.localAddr then e.deliver d else e.reject
      | .ok (.forwardTo next _) => e.forward d next
      | .err _ => e.reject
      | .panic => (e, .panic)

variable (A : Aead)

/-- Open a frame with the keys, if there are any. -/
def openFrame (e : DataPlane S) (frame : Bytes) : DataPlane S × Outcome Empty (Option Bytes) :=
  match e.keys with
  | none => (e, .ok none)
  | some keys =>
    match decapsulate A keys frame with
    | (keys, .ok pkt) => ({ e with keys := some keys }, .ok (some pkt))
    | (keys, .err _) => ({ e with keys := some keys }, .ok none)
    | (keys, .panic) => ({ e with keys := some keys }, .panic)

/-- What happens to an opened packet: fragments are collected, other packets taken in. -/
def receive (e : DataPlane S) (instant : Nat) (now : UInt64) (pkt : Bytes) : DataPlane S × Outcome Empty Verdict :=
  match decode pkt with
  | .err _ => e.drop
  | .panic => (e, .panic)
  | .ok d =>
    if d.header.flags &&& flags.fragment ≠ 0 then
      let (r, x) := e.reassembler.insert instant d.header d.payload
      let e := { e with reassembler := r }
      match x with
      | .ok (some whole) => { e with fragmentsReassembled := e.fragmentsReassembled + 1 }.ingest whole now
      | .ok none => (e, .ok .waiting)
      | .err _ => e.drop
      | .panic => (e, .panic)
    else e.ingest pkt now

/-- The Data arm of `handle_frame_at`. -/
def handleData (e : DataPlane S) (instant : Nat) (now : UInt64) (frame : Bytes) :
    DataPlane S × Outcome Empty Verdict :=
  match e.openFrame A frame with
  | (e, .ok (some pkt)) => e.receive instant now pkt
  | (e, .ok none) => e.drop
  | (e, .err x) => (e, .err x)
  | (e, .panic) => (e, .panic)

/-- `handle_frame_at`, without the arms of the handshake: they do nothing to what was received. -/
def handleFrameAt (e : DataPlane S) (instant : Nat) (now : UInt64) (frame : Bytes) :
    DataPlane S × Outcome Empty Verdict :=
  match parseHead frame with
  | .err _ => (e, .ok .ignored)
  | .panic => (e, .panic)
  | .ok head => if head.frameType = .data then e.handleData A instant now frame else (e, .ok .ignored)

/-- How `seal_multihop` passes on what goes wrong with the trace. -/
def badTrace : EngineError := .frame (.badType 5)

/-- The header of a multi-hop packet: route and certificate are its chain. -/
def multihopHeader (e : DataPlane S) (host : HostIdentity S) (dst : IPv8Address) (payloadLen : UInt16)
    (initHopLimit : UInt8) (trace : RouteTrace) : Outcome EngineError IPv8Header :=
  match trace.toPayload with
  | .error _ => .err (.frame .bodyTooShort)
  | .ok tracePayload =>
    match ExtensionHeader.new .routeTrace tracePayload, ExtensionHeader.new .identityToken host.cert.toWire with
    | some route, some token =>
      let hdr := { IPv8Header.new e.localAddr dst payloadLen with hopLimit := initHopLimit, flags := flags.encrypted }
      .ok (hdr.attachExtHeaders [route, token])
    | _, _ => .err (.frame .bodyTooShort)

/-- The packet that `seal_multihop` makes of a payload. -/
def multihopPacket (e : DataPlane S) (host : HostIdentity S) (innerIp : Bytes) (dst : IPv8Address)
    (hops : List IPv8Address) (initHopLimit : UInt8) : Outcome EngineError Bytes :=
  if hops.isEmpty ∨ hops.getLast? ≠ some dst then .err badTrace
  else
    let plen := UInt16.ofNat innerIp.length
    match buildRouteTrace
      { srcAddr := e.localAddr
        dstAddr := dst
        minCompatVer := 0
        flags := flags.encrypted ||| flags.hasExtension
        payloadLen := plen
        initHopLimit
        hops
        srcPubkey := host.publicEdKey } host.sign with
    | .error _ => .err badTrace
    | .ok trace => do
      let hdr ← e.multihopHeader host dst plen initHopLimit trace
      (encode hdr innerIp).mapErr fun _ => .frame .bodyTooShort

/-- Seal a packet for a source route: sign, fragment, and encapsulate every piece for the first hop. -/
def sealMultihop (e : DataPlane S) (clock : Nat → Nat) (innerIp : Bytes) (dst : IPv8Address)
    (hops : List IPv8Address) (initHopLimit : UInt8) : DataPlane S × Outcome EngineError (List Bytes) :=
  match e.auth, e.keys with
  | none, _ => (e, .err .notEstablished)
  | some _, none => (e, .err .notEstablished)
  | some host, some keys =>
    match e.multihopPacket host innerIp dst hops initHopLimit with
    | .err x => (e, .err x)
    | .panic => (e, .panic)
    | .ok whole =>
      let id := e.fragId
      let e := { e with fragId := e.fragId + 1 }
      match (fragmentPacket whole e.mtu id).mapErr fun _ => EngineError.needsFragmentation whole.length with
      | .err x => (e, .err x)
      | .panic => (e, .panic)
      | .ok packets =>
        let n := UInt64.ofNat packets.length
        match encapsulateAll A clock keys packets with
        | (keys, .err x) => ({ e with keys := some keys }, .err (.frame x))
        | (keys, .panic) => ({ e with keys := some keys }, .panic)
        | (keys, .ok frames) =>
          ({ e with
              keys := some keys
              sealedOutbound := e.sealedOutbound + n
              fragmentsSent := e.fragmentsSent + satSub n 1 }, .ok frames)

end DataPlane

end IPv8Plus.Tunnel
