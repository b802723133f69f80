import IPv8Plus.Lib.Buffer
import IPv8Plus.Lib.Outcome
import IPv8Plus.Lib.Run

/-!
# The receive channel of the driver

`driver-ctl.c` and `driver.c`: user mode reads frames with RECV requests. A frame that comes in is handed to a
waiting request or queued, a request takes a queued frame or waits. Any number of calls run at the same time;
one step of the model is what a call does in one section under `FrameLock`, with the work on its own request or
frame that follows. Calls between two sections are part of the state. The counters of the bindings are left out.
-/

namespace IPv8Plus.Driver
open Lib

def ioctlMagic : UInt32 := 0xFB14

def ethHeaderLen : Nat := 14

def frameMin : Nat := 60

def frameMax : Nat := 1514

def frameHdrLen : Nat := 16

def recvInLen : Nat := 16

def rxQueueNodes : Nat := 128

def ifIndexAny : UInt32 := 0xFFFFFFFF

inductive NtStatus where
  | success
  | bufferTooSmall
  | invalidParameter
  | dataError
  | cancelled
  | deviceDoesNotExist
  | deviceBusy
  | insufficientResources
  | deviceRemoved
  | unsuccessful
  deriving DecidableEq, Repr

structure FrameNode where
  ifIndex : UInt32
  frame : Bytes
  deriving DecidableEq, Repr

/-- A RECV request. Its buffer holds the input and takes the output. `ifIndex` is what it waits for. -/
structure Irp where
  fileObject : Nat
  inputBufferLength : Nat
  outputBufferLength : Nat
  systemBuffer : Bytes
  size : systemBuffer.length = max inputBufferLength outputBufferLength
  ifIndex : UInt32 := 0
  deriving DecidableEq, Repr

/-- A request that is done. `written` is where the last byte written to the buffer ends, and there is no buffer left
if that was past its end. -/
structure Completed where
  irp : Irp
  status : NtStatus
  information : Nat
  written : Nat
  systemBuffer : Option Bytes
  deriving DecidableEq, Repr

/-- A network card; the address is known once the card has told it. -/
structure Binding where
  ifIndex : UInt32
  bound : Bool := true
  currentMac : Option (Arr UInt8 6) := none
  deriving DecidableEq, Repr

/-- What to look for among the waiting requests. -/
inductive CsqMatch where
  | byIfIndex (ifIndex : UInt32)
  | byFileObject (fileObject : Nat)
  deriving DecidableEq, Repr

/-- The channel. Of the calls in progress, `returning` have taken a frame, `inserting` have found none, `arriving` are
frames that nobody waited for, and `placing` those among them that have got a node. -/
structure Channel where
  bindings : List Binding
  frameQueue : List FrameNode := []
  freeRxNodes : Nat := rxQueueNodes
  pendingReads : List Irp := []
  returning : List (Irp × FrameNode) := []
  inserting : List Irp := []
  arriving : List FrameNode := []
  placing : List FrameNode := []
  deriving DecidableEq, Repr

/-! ## Requests -/

def frameHdr (ifIndex : UInt32) (frameLen : Nat) : Bytes :=
  le32 ioctlMagic ++ le32 ifIndex ++ le32 (UInt32.ofNat frameLen) ++ le32 0

namespace Irp

/-- The input of a RECV for an interface, in the buffer that is shared with the output. -/
def ofRecv (fileObject : Nat) (ifIndex : UInt32) (outputBufferLength : Nat) : Irp where
  fileObject := fileObject
  inputBufferLength := recvInLen
  outputBufferLength := outputBufferLength
  systemBuffer := le32 ioctlMagic ++ le32 ifIndex ++ le32 0 ++ le32 0 ++ List.replicate (outputBufferLength - recvInLen) 0
  size := by
    rw [List.length_append, List.length_append, List.length_append, List.length_append, length_le32, length_le32,
      length_le32, List.length_replicate, recvInLen]
    omega

/-- The checks of a RECV, and the interface it asks for. -/
def recvIn (irp : Irp) : Except NtStatus UInt32 :=
  if irp.inputBufferLength < recvInLen ∨ irp.outputBufferLength < frameHdrLen + ethHeaderLen then .error .bufferTooSmall
  else if wordAt irp.systemBuffer 0 ≠ ioctlMagic then .error .invalidParameter
  else if wordAt irp.systemBuffer 8 ≠ 0 ∨ wordAt irp.systemBuffer 12 ≠ 0 then .error .invalidParameter
  else .ok (wordAt irp.systemBuffer 4)

/-- Done without a frame. -/
def fail (irp : Irp) (status : NtStatus) : Completed := ⟨irp, status, 0, 0, some irp.systemBuffer⟩

/-- Copy a frame into the buffer, behind its header. -/
def fill (irp : Irp) (node : FrameNode) : Completed where
  irp := irp
  status := .success
  information := frameHdrLen + node.frame.length
  written := frameHdrLen + node.frame.length
  systemBuffer := do
    let buf ← writeAt irp.systemBuffer frameHdrLen node.frame
    writeAt buf 0 (frameHdr node.ifIndex node.frame.length)

end Irp

/-! ## Queues -/

/-- The first frame of the interface, and the rest. -/
def frameDequeueLocked (queue : List FrameNode) (ifIndex : UInt32) : Option (FrameNode × List FrameNode) :=
  let wanted (node : FrameNode) : Bool := ifIndex = ifIndexAny ∨ node.ifIndex = ifIndex
  (queue.find? wanted).map fun node => (node, queue.eraseP wanted)

def CsqMatch.takes : CsqMatch → Irp → Bool
  | .byIfIndex ifIndex, irp => ifIndex = ifIndexAny ∨ irp.ifIndex = ifIndex
  | .byFileObject fileObject, irp => irp.fileObject = fileObject

/-- The first waiting request that matches, and the rest. -/
def csqRemoveNextIrp (pending : List Irp) (m : CsqMatch) : Option (Irp × List Irp) :=
  (pending.find? m.takes).map fun irp => (irp, pending.eraseP m.takes)

def lookupBinding (bindings : List Binding) (ifIndex : UInt32) : Option Binding :=
  bindings.find? fun ctx => ctx.bound ∧ ctx.ifIndex = ifIndex

/-! ## Steps -/

/-- `mapped` says if the data of the network buffer can be made contiguous, its header and all of it. -/
inductive Action where
  | recv (irp : Irp)
  | recvReturn (k : Nat)
  | recvInsert (k : Nat)
  | indicate (ifIndex : UInt32) (frame : Bytes) (hdrMapped mapped : Bool)
  | inject (ifIndex : UInt32) (frame : Bytes)
  | takeNode (k : Nat)
  | putNode (k : Nat)
  | dropNode (k : Nat)
  | cancel (k : Nat)
  | cleanup (fileObject : Nat)
  deriving DecidableEq, Repr

namespace Channel

/-- `IPv8IoctlRecv`: a queued frame is taken, or the request is to be inserted. -/
def recv (s : Channel) (irp : Irp) : Channel × Option Completed :=
  match irp.recvIn with
  | .error status => (s, some (irp.fail status))
  | .ok ifIndex =>
    match frameDequeueLocked s.frameQueue ifIndex with
    | some (node, queue) => ({ s with frameQueue := queue, returning := s.returning ++ [(irp, node)] }, none)
    | none => ({ s with inserting := s.inserting ++ [{ irp with ifIndex }] }, none)

/-- The frame has been copied, its node goes back to the free ones. -/
def recvReturn (s : Channel) (k : Nat) : Channel × Option Completed :=
  match s.returning[k]? with
  | some (irp, node) =>
    ({ s with returning := s.returning.eraseIdx k, freeRxNodes := s.freeRxNodes + 1 }, some (irp.fill node))
  | none => (s, none)

def recvInsert (s : Channel) (k : Nat) : Channel × Option Completed :=
  match s.inserting[k]? with
  | some irp => ({ s with inserting := s.inserting.eraseIdx k, pendingReads := s.pendingReads ++ [irp] }, none)
  | none => (s, none)

/-- A frame meets a waiting request. -/
def handOver (irp : Irp) (node : FrameNode) (mapped : Bool) : Completed :=
  if irp.outputBufferLength < frameHdrLen + node.frame.length then irp.fail .bufferTooSmall
  else if ¬ mapped then irp.fail .dataError
  else irp.fill node

/-- A frame is handed to a waiting request, or it is to be queued. -/
def accept (s : Channel) (node : FrameNode) (mapped : Bool) : Channel × Option Completed :=
  match csqRemoveNextIrp s.pendingReads (.byIfIndex node.ifIndex) with
  | some (irp, rest) => ({ s with pendingReads := rest }, some (handOver irp node mapped))
  | none => ({ s with arriving := s.arriving ++ [node] }, none)

/-- The lengths that a frame may have. -/
def FrameFits (frame : Bytes) : Prop := ethHeaderLen ≤ frame.length ∧ frame.length ≤ frameMax

instance (frame : Bytes) : Decidable (FrameFits frame) := inferInstanceAs (Decidable (_ ∧ _))

/-- `IPv8IndicateOneFrame` -/
def indicate (s : Channel) (ifIndex : UInt32) (frame : Bytes) (hdrMapped mapped : Bool) : Channel × Option Completed :=
  if ¬ FrameFits frame then (s, none)
  else if ¬ hdrMapped ∨ frame.getD 12 0 ≠ 0xFB ∨ frame.getD 13 0 ≠ 0x14 then (s, none)
  else s.accept ⟨ifIndex, frame⟩ mapped

/-- `IPv8InjectRx` -/
def inject (s : Channel) (ifIndex : UInt32) (frame : Bytes) : Channel × Option Completed :=
  if ¬ FrameFits frame then (s, none)
  else if lookupBinding s.bindings ifIndex = none then (s, none)
  else s.accept ⟨ifIndex, frame⟩ true

/-- A free node for a frame; without one the frame is dropped. -/
def takeNode (s : Channel) (k : Nat) : Channel × Option Completed :=
  match s.arriving[k]? with
  | some node =>
    let s := { s with arriving := s.arriving.eraseIdx k }
    if s.freeRxNodes = 0 then (s, none)
    else ({ s with freeRxNodes := s.freeRxNodes - 1, placing := s.placing ++ [node] }, none)
  | none => (s, none)

def putNode (s : Channel) (k : Nat) : Channel × Option Completed :=
  match s.placing[k]? with
  | some node => ({ s with placing := s.placing.eraseIdx k, frameQueue := s.frameQueue ++ [node] }, none)
  | none => (s, none)

/-- The frame could not be copied. -/
def dropNode (s : Channel) (k : Nat) : Channel × Option Completed :=
  match s.placing[k]? with
  | some _ => ({ s with placing := s.placing.eraseIdx k, freeRxNodes := s.freeRxNodes + 1 }, none)
  | none => (s, none)

def cancel (s : Channel) (k : Nat) : Channel × Option Completed :=
  match s.pendingReads[k]? with
  | some irp => ({ s with pendingReads := s.pendingReads.eraseIdx k }, some (irp.fail .cancelled))
  | none => (s, none)

/-- One round of the loop of CLEANUP. -/
def cleanup (s : Channel) (fileObject : Nat) : Channel × Option Completed :=
  match csqRemoveNextIrp s.pendingReads (.byFileObject fileObject) with
  | some (irp, rest) => ({ s with pendingReads := rest }, some (irp.fail .cancelled))
  | none => (s, none)

def step (s : Channel) : Action → Channel × Option Completed
  | .recv irp => s.recv irp
  | .recvReturn k => s.recvReturn k
  | .recvInsert k => s.recvInsert k
  | .indicate ifIndex frame hdrMapped mapped => s.indicate ifIndex frame hdrMapped mapped
  | .inject ifIndex frame => s.inject ifIndex frame
  | .takeNode k => s.takeNode k
  | .putNode k => s.putNode k
  | .dropNode k => s.dropNode k
  | .cancel k => s.cancel k
  | .cleanup fileObject => s.cleanup fileObject

end Channel

end IPv8Plus.Driver
