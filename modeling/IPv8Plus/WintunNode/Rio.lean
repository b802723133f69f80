import IPv8Plus.Lib.BigEndian

/-!
# Registered I/O

`wintun-node/src/rio.rs`: the slots of the registered buffers, the calls of `send_to` from any number of threads, and the
thread that dequeues completions, with the event loop of `main.rs` and the self-check of `create` in front of it. What
threads do one after the other between two accesses to shared state is one step, so a swap of the table is a step, and so
are the copy into a slot, a request to Winsock and every turn of a loop. Winsock completes accepted requests in any order,
each one once and with its context; it may refuse any request.
-/

namespace IPv8Plus.WintunNode
open Lib

def slotCap : Nat := 65507

def addrCap : Nat := 32

def dequeueBatch : Nat := 64

def ctxSendBit : UInt64 := 0x8000000000000000

/-- The size of a registered buffer, unless it overflows. -/
def checkedRegion (n : Nat) : Option Nat :=
  if n * slotCap + n * addrCap < 2 ^ 64 then some (n * slotCap + n * addrCap) else none

/-- The address is that of IPv4 or IPv6 by its length. -/
structure SocketAddr where
  ip : Bytes
  port : UInt16
  deriving DecidableEq, Repr

def afInet : UInt16 := 2

def afInet6 : UInt16 := 23

/-- The family is in the order of the machine, which has the low byte first. -/
def decodeSockaddr (buf : Bytes) : Option SocketAddr :=
  match buf with
  | f₀ :: f₁ :: p₀ :: p₁ :: _ =>
    let family := f₁.toUInt16 <<< 8 ||| f₀.toUInt16
    let port := p₀.toUInt16 <<< 8 ||| p₁.toUInt16
    if family = afInet ∧ 8 ≤ buf.length then some ⟨(buf.drop 4).take 4, port⟩
    else if family = afInet6 ∧ 24 ≤ buf.length then some ⟨(buf.drop 8).take 16, port⟩
    else none
  | _ => none

/-- One flag for each send slot. -/
structure SlotTable where
  used : List Bool
  deriving DecidableEq, Repr

namespace SlotTable

def new (n : Nat) : SlotTable := ⟨List.replicate n false⟩

/-- Set a flag, and what it was. -/
def swap (t : SlotTable) (slot : Nat) (b : Bool) : SlotTable × Bool := (⟨t.used.set slot b⟩, t.used.getD slot false)

end SlotTable

/-- A request that Winsock has accepted: the slot of its descriptors, and its context. -/
structure RioRequest where
  send : Bool
  slot : Nat
  context : UInt64
  deriving DecidableEq, Repr

structure RioResult where
  status : Nat
  bytesTransferred : Nat
  requestContext : UInt64
  deriving DecidableEq, Repr

structure RioPacket where
  slot : Nat
  len : Nat
  «from» : SocketAddr
  deriving DecidableEq, Repr

/-- A call of `send_to` in progress: `alloc` is at slot `i`; a slot is taken; the frame stands in it; `RIOSendEx` has failed. -/
inductive SendCall where
  | scanning (buf : Bytes) (dest : SocketAddr) (i : Nat)
  | copying (buf : Bytes) (dest : SocketAddr) (slot : Nat)
  | submitting (slot : Nat)
  | failing (slot : Nat)
  deriving DecidableEq, Repr

inductive SendError where
  | invalidInput (len : Nat)
  | wouldBlock
  | rioSendEx
  deriving DecidableEq, Repr

/-- Where the thread of the completions is: before `RIODequeueCompletion`; in the loop of `dequeue`, with the results still to
come and `out`; in the event loop, with the packets still to be handled, and then to be posted again; in the loop of the
self-check. -/
inductive Drain where
  | ready
  | dequeuing (results : List RioResult) (out : List RioPacket)
  | handling (todo packets : List RioPacket)
  | reposting (todo : List RioPacket)
  | probing (todo : List RioPacket)
  | stopped
  deriving DecidableEq, Repr

/-- The runtime, the calls in progress, and what Winsock has. `checking` is on until the self-check has passed. A flag that
`free` finds cleared is noted in `freedTwice`: the assertion of `free` is on it. -/
structure Rio where
  nRecv : Nat
  nSend : Nat
  sendSlots : SlotTable
  sendBuf : List (Bytes × SocketAddr)
  recvData : List Bytes
  recvAddr : List Bytes
  sendCompleted : UInt64 := 0
  calls : List SendCall := []
  outstanding : List RioRequest := []
  completions : List RioResult := []
  drain : Drain := .ready
  checking : Bool := true
  freedTwice : Bool := false
  deriving DecidableEq, Repr

/-- `k` is the place of a call or of a request in its list. `ok` is what Winsock answers to a request that is made in the
step. -/
inductive RioAct where
  | sendTo (buf : Bytes) (dest : SocketAddr)
  | turn (k : Nat) (ok : Bool)
  | complete (k status bytesTransferred : Nat) (data addr : Bytes)
  | dequeue (n : Nat)
  | advance (ok : Bool)
  | fail
  deriving DecidableEq, Repr

def recvContext (slot : Nat) : UInt64 := UInt64.ofNat slot

def sendContext (slot : Nat) : UInt64 := ctxSendBit ||| UInt64.ofNat slot

namespace Rio

def free (s : Rio) (slot : Nat) : Rio :=
  let (t, wasUsed) := s.sendSlots.swap slot false
  { s with sendSlots := t, freedTwice := s.freedTwice || !wasUsed }

def readRemoteAddr (s : Rio) (slot : Nat) : Option SocketAddr := decodeSockaddr (s.recvAddr.getD slot [])

def packetData (s : Rio) (pkt : RioPacket) : Bytes := (s.recvData.getD pkt.slot []).take pkt.len

/-- `RIOReceiveEx`; if it fails the thread stops, else it goes on. -/
def postRecv (s : Rio) (slot : Nat) (ok : Bool) (next : Drain) : Rio :=
  if ok then
    { s with
      outstanding := s.outstanding ++ [{ send := false, slot, context := recvContext slot }]
      drain := next }
  else { s with drain := .stopped }

/-- A call is over. In the self-check, an error of the call is one of `create`. -/
def finish (s : Rio) (k : Nat) (x : Except SendError Unit) : Rio × Option (Except SendError Unit) :=
  let s := { s with calls := s.calls.eraseIdx k }
  match x with
  | .ok _ => (s, some x)
  | .error _ => (if s.checking then { s with drain := .stopped } else s, some x)

/-- The next step of a call of `send_to`. -/
def turn (s : Rio) (k : Nat) (ok : Bool) : Rio × Option (Except SendError Unit) :=
  match s.calls[k]? with
  | none => (s, none)
  | some (.scanning buf dest i) =>
    if i < s.sendSlots.used.length then
      let (t, wasUsed) := s.sendSlots.swap i true
      let call : SendCall := if wasUsed then .scanning buf dest (i + 1) else .copying buf dest i
      ({ s with sendSlots := t, calls := s.calls.set k call }, none)
    else s.finish k (.error .wouldBlock)
  | some (.copying buf dest slot) =>
    ({ s with sendBuf := s.sendBuf.set slot (buf, dest), calls := s.calls.set k (.submitting slot) }, none)
  | some (.submitting slot) =>
    if ok then
      let s : Rio := { s with outstanding := s.outstanding ++ [{ send := true, slot, context := sendContext slot }] }
      s.finish k (.ok ())
    else ({ s with calls := s.calls.set k (.failing slot) }, none)
  | some (.failing slot) => (s.free slot).finish k (.error .rioSendEx)

/-- Winsock completes a request. A receive has filled the slot of its descriptors. -/
def complete (s : Rio) (k status bytesTransferred : Nat) (data addr : Bytes) : Rio :=
  match s.outstanding[k]? with
  | none => s
  | some r =>
    let s := { s with
      outstanding := s.outstanding.eraseIdx k
      completions := s.completions ++ [{ status, bytesTransferred, requestContext := r.context }] }
    if r.send then s
    else
      let fill := fun (area : List Bytes) written => area.set r.slot (written ++ (area.getD r.slot []).drop written.length)
      { s with recvData := fill s.recvData data, recvAddr := fill s.recvAddr addr }

/-- The loop of `dequeue` takes a result. -/
def take (s : Rio) (r : RioResult) (results : List RioResult) (out : List RioPacket) (ok : Bool) : Rio :=
  let ctx := r.requestContext
  if ctx &&& ctxSendBit ≠ 0 then
    let s := s.free (ctx &&& ~~~ctxSendBit).toNat
    { s with sendCompleted := s.sendCompleted + 1, drain := .dequeuing results out }
  else
    let slot := ctx.toNat
    if r.status ≠ 0 ∨ r.bytesTransferred = 0 then s.postRecv slot ok (.dequeuing results out)
    else
      match s.readRemoteAddr slot with
      | some «from» =>
        if r.bytesTransferred ≤ slotCap then
          { s with drain := .dequeuing results (out ++ [{ slot, len := r.bytesTransferred, «from» }]) }
        else s.postRecv slot ok (.dequeuing results out)
      | none => s.postRecv slot ok (.dequeuing results out)

def probe : Bytes := "IPV8-RIO-SELFCHECK".toList.map fun c => UInt8.ofNat c.toNat

/-- The next step of the thread that dequeues. -/
def advance (s : Rio) (ok : Bool) : Rio :=
  match s.drain with
  | .ready => s
  | .dequeuing [] out => { s with drain := if s.checking then .probing out else .handling out out }
  | .dequeuing (r :: results) out => s.take r results out ok
  | .handling [] packets => { s with drain := .reposting packets }
  | .handling (_ :: todo) packets => { s with drain := .handling todo packets }
  | .reposting [] => { s with drain := .ready }
  | .reposting (pkt :: todo) => s.postRecv pkt.slot ok (.reposting todo)
  | .probing [] => { s with drain := .ready }
  | .probing (pkt :: todo) =>
    let matched := s.packetData pkt = probe
    let s := s.postRecv pkt.slot ok (.probing todo)
    -- the check returns from inside its loop over the packets
    if ok ∧ matched ∧ 1 ≤ s.sendCompleted then { s with drain := .ready, checking := false } else s
  | .stopped => s

/-- What `plane.handle_inbound` sends is a call like any other. The self-check runs before other threads have the runtime, and
it waits for its one call. An error of `RIODequeueCompletion`, of the waiting or of the other side of the loop ends the
thread. -/
def step (s : Rio) : RioAct → Rio × Option (Except SendError Unit)
  | .sendTo buf dest =>
    if s.checking then (s, none)
    else if slotCap < buf.length then (s, some (.error (.invalidInput buf.length)))
    else ({ s with calls := s.calls ++ [.scanning buf dest 0] }, none)
  | .turn k ok => s.turn k ok
  | .complete k status bytesTransferred data addr => (s.complete k status bytesTransferred data addr, none)
  | .dequeue n =>
    if s.drain = .ready ∧ n ≤ dequeueBatch ∧ (s.checking → s.calls = []) then
      ({ s with completions := s.completions.drop n, drain := .dequeuing (s.completions.take n) [] }, none)
    else (s, none)
  | .advance ok => (s.advance ok, none)
  | .fail => ({ s with drain := .stopped }, none)

/-- `create`, once every receive slot is posted, as it calls `send_to` for the self-check. -/
def create (nRecv nSend : Nat) (target : SocketAddr) : Rio where
  nRecv := nRecv
  nSend := nSend
  sendSlots := .new nSend
  sendBuf := List.replicate nSend ([], ⟨[], 0⟩)
  recvData := List.replicate nRecv (List.replicate slotCap 0)
  recvAddr := List.replicate nRecv (List.replicate addrCap 0)
  calls := [.scanning probe target 0]
  outstanding := (List.range nRecv).map fun slot => { send := false, slot, context := recvContext slot }

end Rio

end IPv8Plus.WintunNode
