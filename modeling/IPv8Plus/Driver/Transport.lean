import IPv8Plus.Driver.Capacity
import IPv8Plus.Driver.Waiting

/-!
# Transport over the driver

`L2Io` of `rio.rs` above the driver: a payload is put into an Ethernet frame and sent, comes in unchanged at
another machine, and is read there. `transport` says which payloads come out: the buffer that `L2Io` reads with
has the length of the longest frame, without room for the header that stands before it.
-/

namespace IPv8Plus.Driver
open Lib

/-! ## Sending -/

def etherType : Bytes := [0xFB, 0x14]

/-- `l2_build_send_frame`: the header of the driver, the header of the frame and the payload. -/
def l2BuildSendFrame (ifIndex : UInt32) (dstMac : Arr UInt8 6) (payload : Bytes) : Bytes :=
  le32 ioctlMagic ++ le32 ifIndex ++ le32 (UInt32.ofNat (ethHeaderLen + payload.length)) ++ le32 0 ++
    (dstMac.val ++ List.replicate 6 0 ++ etherType ++ payload)

/-- Zeros up to the least length of a frame. -/
def pad (frame : Bytes) (len : Nat) : Bytes := frame ++ List.replicate (len - frame.length) 0

/-- The address of the card in place of the sender's. -/
def setSource (frame : Bytes) : Option (Arr UInt8 6) → Bytes
  | some mac => frame.take 6 ++ mac.val ++ frame.drop 12
  | none => frame

/-- `IPv8SubmitSend`: what goes out on the wire. `allocated` says if there is memory for the buffer list. -/
def submitSend (bindings : List Binding) (freeTxNodes : Nat) (allocated : Bool) (ifIndex : UInt32) (frame : Bytes) :
    Except NtStatus Bytes :=
  if frame.length < ethHeaderLen ∨ frameMax < frame.length then .error .invalidParameter
  else if frame.getD 12 0 ≠ 0xFB ∨ frame.getD 13 0 ≠ 0x14 then .error .invalidParameter
  else
    match lookupBinding bindings ifIndex with
    | none => .error .deviceDoesNotExist
    | some ctx =>
      if freeTxNodes = 0 then .error .deviceBusy
      else if ¬ allocated then .error .insufficientResources
      else .ok (setSource (pad frame frameMin) ctx.currentMac)

/-- `IPv8IoctlSend` -/
def ioctlSend (bindings : List Binding) (freeTxNodes : Nat) (allocated : Bool) (systemBuffer : Bytes) : Except NtStatus Bytes :=
  let frameLen := (wordAt systemBuffer 8).toNat
  if systemBuffer.length < frameHdrLen + ethHeaderLen then .error .bufferTooSmall
  else if wordAt systemBuffer 0 ≠ ioctlMagic then .error .invalidParameter
  else if frameLen < ethHeaderLen ∨ frameMax < frameLen then .error .invalidParameter
  else if systemBuffer.length < frameHdrLen + frameLen then .error .bufferTooSmall
  else submitSend bindings freeTxNodes allocated (wordAt systemBuffer 4) ((systemBuffer.drop frameHdrLen).take frameLen)

inductive L2Error where
  | tooLong
  | ioctl (status : NtStatus)
  | tooShort
  | badEtherType
  deriving DecidableEq, Repr

/-- `L2Io::send_to_mac` -/
def sendToMac (bindings : List Binding) (freeTxNodes : Nat) (allocated : Bool) (ifIndex : UInt32) (dstMac : Arr UInt8 6)
    (payload : Bytes) : Except L2Error Bytes :=
  if frameMax - ethHeaderLen < payload.length then .error .tooLong
  else
    match ioctlSend bindings freeTxNodes allocated (l2BuildSendFrame ifIndex dstMac payload) with
    | .ok wire => .ok wire
    | .error status => .error (.ioctl status)

/-! ## Receiving -/

/-- The request of `L2Io::recv`. -/
def recvRequest (fileObject : Nat) (ifIndex : UInt32) : Irp := .ofRecv fileObject ifIndex frameMax

/-- What `L2Io::recv` makes of the answer: payload and sender. The first bytes of the buffer come back to user mode;
nothing can be said once the driver has written past its end. -/
def recvResult (c : Completed) : Outcome L2Error (Bytes × Bytes) :=
  if c.status ≠ .success then .err (.ioctl c.status)
  else
    match c.systemBuffer with
    | none => .panic
    | some buf =>
      if c.information < frameHdrLen + ethHeaderLen then .err .tooShort
      else
        let ethFrame := (buf.take c.information).drop frameHdrLen
        if ethFrame.getD 12 0 ≠ 0xFB ∨ ethFrame.getD 13 0 ≠ 0x14 then .err .badEtherType
        else .ok (ethFrame.drop ethHeaderLen, (ethFrame.drop 6).take 6)

/-- The request waits, and then the frame comes in. -/
def readFirst (s : Channel) (fileObject : Nat) (ifIndex : UInt32) (wire : Bytes) : List Action := [
  .recv (recvRequest fileObject ifIndex), .recvInsert s.inserting.length, .indicate ifIndex wire true true]

/-- The frame is queued, and then the request comes. -/
def frameFirst (s : Channel) (fileObject : Nat) (ifIndex : UInt32) (wire : Bytes) : List Action := [
  .indicate ifIndex wire true true, .takeNode s.arriving.length, .putNode s.placing.length,
  .recv (recvRequest fileObject ifIndex), .recvReturn s.returning.length]

/-- The last answer is a read that returns the payload, with zeros up to the least length of a frame. -/
def Reads (s : Channel) (actions : List Action) (payload : Bytes) : Prop :=
  ∃ c src, (run Channel.step s actions).2.getLast? = some (some c) ∧
    recvResult c = .ok (pad payload (frameMin - ethHeaderLen), src)

section
variable {s : Channel} {fileObject : Nat} {ifIndex : UInt32} {dstMac : Arr UInt8 6} {payload wire frame : Bytes}
  {bindings : List Binding} {freeTxNodes : Nat} {ctx : Binding}

/-! ## The frame on the wire -/

/-- A frame with the type of the protocol, and the payload padded. -/
structure Carries (wire payload : Bytes) : Prop where
  front : ∃ macs : Bytes, macs.length = 12 ∧ wire = macs ++ (etherType ++ pad payload (frameMin - ethHeaderLen))

lemma length_pad (frame : Bytes) (len : Nat) : (pad frame len).length = max frame.length len := by
  rw [pad, List.length_append, List.length_replicate]
  omega

lemma Carries.length (h : Carries wire payload) : wire.length = ethHeaderLen + max payload.length (frameMin - ethHeaderLen) := by
  obtain ⟨macs, hlen, rfl⟩ := h.front
  rw [List.length_append, List.length_append, length_pad, hlen, etherType, List.length_cons, List.length_cons, List.length_nil,
    ethHeaderLen, frameMin]
  omega

lemma getD_etherType {macs : Bytes} (hlen : macs.length = 12) (rest : Bytes) :
    (macs ++ (etherType ++ rest)).getD 12 0 = 0xFB ∧ (macs ++ (etherType ++ rest)).getD 13 0 = 0x14 := by
  have hlast : macs.length ≤ 13 := hlen.le.trans (by decide)
  refine ⟨?_, ?_⟩
  · rw [List.getD_append_right _ _ _ _ hlen.le, hlen]
    rfl
  · rw [List.getD_append_right _ _ _ _ hlast, hlen]
    rfl

lemma Carries.getD_etherType (h : Carries wire payload) : wire.getD 12 0 = 0xFB ∧ wire.getD 13 0 = 0x14 := by
  obtain ⟨macs, hlen, rfl⟩ := h.front
  exact Driver.getD_etherType hlen _

lemma Carries.drop (h : Carries wire payload) : wire.drop ethHeaderLen = pad payload (frameMin - ethHeaderLen) := by
  obtain ⟨macs, hlen, rfl⟩ := h.front
  have hfront : (macs ++ etherType).length = ethHeaderLen := by
    rw [List.length_append, hlen]
    rfl
  rw [← List.append_assoc, List.drop_left' hfront]

/-- The frame that user mode builds, behind the header of the driver. -/
def userFrame (dstMac : Arr UInt8 6) (payload : Bytes) : Bytes := dstMac.val ++ List.replicate 6 0 ++ etherType ++ payload

lemma length_userFrame : (userFrame dstMac payload).length = ethHeaderLen + payload.length := by
  rw [userFrame, List.length_append, List.length_append, List.length_append, dstMac.property, List.length_replicate]
  rfl

lemma length_macs : (dstMac.val ++ List.replicate 6 (0 : UInt8)).length = 12 := by
  rw [List.length_append, dstMac.property, List.length_replicate]

/-- Padding keeps the header of a frame, and the address of the card takes the place of the sender's. -/
lemma carries_setSource (mac : Option (Arr UInt8 6)) : Carries (setSource (pad (userFrame dstMac payload) frameMin) mac) payload := by
  have hpad : pad (userFrame dstMac payload) frameMin =
      (dstMac.val ++ List.replicate 6 0) ++ (etherType ++ pad payload (frameMin - ethHeaderLen)) := by
    have hzeros : frameMin - (ethHeaderLen + payload.length) = frameMin - ethHeaderLen - payload.length := Nat.sub_add_eq _ _ _
    rw [pad, pad, length_userFrame, hzeros, userFrame]
    simp only [List.append_assoc]
  rw [hpad]
  cases mac with
  | none => exact ⟨_, length_macs, rfl⟩
  | some mac =>
    refine ⟨dstMac.val ++ mac.val, ?_, ?_⟩
    · rw [List.length_append, dstMac.property, mac.property]
    · rw [setSource, List.drop_left' length_macs, List.append_assoc, List.append_assoc, List.take_left' dstMac.property,
        List.append_assoc]

/-- The driver finds what user mode has put into the header. -/
lemma l2BuildSendFrame_words : let buf := l2BuildSendFrame ifIndex dstMac payload
    wordAt buf 0 = ioctlMagic ∧ wordAt buf 4 = ifIndex ∧ wordAt buf 8 = UInt32.ofNat (ethHeaderLen + payload.length) ∧
      buf.drop frameHdrLen = userFrame dstMac payload ∧ buf.length = frameHdrLen + (ethHeaderLen + payload.length) := by
  have hhdr : (le32 ioctlMagic ++ le32 ifIndex ++ le32 (UInt32.ofNat (ethHeaderLen + payload.length)) ++ le32 0).length = frameHdrLen := by
    rw [List.length_append, List.length_append, List.length_append, length_le32, length_le32, length_le32, length_le32]
    rfl
  obtain ⟨hmagic, hif, hlen, -⟩ := wordAt_four ioctlMagic ifIndex (UInt32.ofNat (ethHeaderLen + payload.length)) 0
    (userFrame dstMac payload)
  refine ⟨hmagic, hif, hlen, List.drop_left' hhdr, ?_⟩
  exact List.length_append.trans (congrArg₂ (· + ·) hhdr length_userFrame)

lemma submitSend_carries (hlen : payload.length ≤ frameMax - ethHeaderLen) (hbound : lookupBinding bindings ifIndex = some ctx)
    (hfree : 0 < freeTxNodes) :
    ∃ wire, submitSend bindings freeTxNodes true ifIndex (userFrame dstMac payload) = .ok wire ∧ Carries wire payload := by
  have hfits : ¬ ((userFrame dstMac payload).length < ethHeaderLen ∨ frameMax < (userFrame dstMac payload).length) := by
    rw [length_userFrame, not_or, not_lt, not_lt]
    exact ⟨Nat.le_add_right _ _, Nat.add_le_of_le_sub' (by decide) hlen⟩
  have htype : ¬ ((userFrame dstMac payload).getD 12 0 ≠ 0xFB ∨ (userFrame dstMac payload).getD 13 0 ≠ 0x14) := by
    rw [userFrame, List.append_assoc _ etherType, not_or, not_not, not_not]
    exact getD_etherType length_macs payload
  have hcarries : Carries (setSource (pad (userFrame dstMac payload) frameMin) ctx.currentMac) payload := carries_setSource ctx.currentMac
  refine ⟨_, ?_, hcarries⟩
  rw [submitSend, if_neg hfits, if_neg htype, hbound]
  dsimp only
  rw [if_neg hfree.ne', if_neg (not_not.mpr rfl)]

/-- A payload that is not too long goes out in a frame of its own. -/
lemma sendToMac_carries (hlen : payload.length ≤ frameMax - ethHeaderLen) (hbound : lookupBinding bindings ifIndex = some ctx)
    (hfree : 0 < freeTxNodes) : ∃ wire, sendToMac bindings freeTxNodes true ifIndex dstMac payload = .ok wire ∧ Carries wire payload := by
  obtain ⟨wire, hsubmit, hcarries⟩ := @submitSend_carries _ dstMac _ _ _ _ hlen hbound hfree
  obtain ⟨hmagic, hif, hword, hdrop, hbuf⟩ := @l2BuildSendFrame_words ifIndex dstMac payload
  have hmax : ethHeaderLen + payload.length ≤ frameMax := Nat.add_le_of_le_sub' (by decide) hlen
  have hframeLen : (wordAt (l2BuildSendFrame ifIndex dstMac payload) 8).toNat = ethHeaderLen + payload.length := by
    rw [hword, UInt32.toNat_ofNat']
    exact Nat.mod_eq_of_lt (hmax.trans_lt (by decide))
  have htake : (userFrame dstMac payload).take (ethHeaderLen + payload.length) = userFrame dstMac payload :=
    List.take_of_length_le length_userFrame.le
  have hioctl : ioctlSend bindings freeTxNodes true (l2BuildSendFrame ifIndex dstMac payload) = .ok wire := by
    rw [ioctlSend, hframeLen, hbuf, hmagic, hif, hdrop, htake, if_neg, if_neg, if_neg, if_neg, hsubmit]
    · exact lt_irrefl _
    · exact not_or.mpr ⟨Nat.not_lt.mpr (Nat.le_add_right _ _), Nat.not_lt.mpr hmax⟩
    · exact not_not.mpr rfl
    · omega
  refine ⟨wire, ?_, hcarries⟩
  rw [sendToMac, if_neg (Nat.not_lt.mpr hlen), hioctl]

/-! ## The read -/

lemma recvIn_recvRequest : (recvRequest fileObject ifIndex).recvIn = .ok ifIndex := by
  obtain ⟨hmagic, hif, hlen, hreserved⟩ := wordAt_four ioctlMagic ifIndex 0 0 (List.replicate (frameMax - recvInLen) 0)
  rw [Irp.recvIn, if_neg, if_neg, if_neg]
  · exact congrArg Except.ok hif
  · exact not_or.mpr ⟨not_not.mpr hlen, not_not.mpr hreserved⟩
  · exact not_not.mpr hmagic
  · exact (by decide : ¬ (recvInLen < recvInLen ∨ frameMax < frameHdrLen + ethHeaderLen))

/-- A frame that fits into the buffer comes out of it, and what does not fit makes it useless. -/
lemma recvResult_fill {irp : Irp} (hsize : irp.inputBufferLength ≤ irp.outputBufferLength) (h : Carries wire payload) :
    (∃ src, recvResult (irp.fill ⟨ifIndex, wire⟩) = .ok (pad payload (frameMin - ethHeaderLen), src)) ↔ irp.Holds wire := by
  constructor
  · rintro ⟨src, hresult⟩
    by_contra hsmall
    have hfull : irp.systemBuffer.length < frameHdrLen + wire.length := by
      rw [irp.size, max_eq_right hsize]
      exact Nat.not_le.mp hsmall
    have hnone : (irp.fill ⟨ifIndex, wire⟩).systemBuffer = none := by
      rw [Irp.fill, writeAt_eq_none.mpr hfull]
      rfl
    rw [recvResult, hnone] at hresult
    cases hresult
  · intro hholds
    obtain ⟨buf, hbuf, htake⟩ := @Irp.fill_systemBuffer irp ⟨ifIndex, wire⟩ hholds
    have hframe : (buf.take (irp.fill ⟨ifIndex, wire⟩).information).drop frameHdrLen = wire := by
      rw [Irp.fill, htake, List.drop_left' (Irp.length_frameHdr _ _)]
    have hstatus : (irp.fill ⟨ifIndex, wire⟩).status = .success := rfl
    have hheader : ethHeaderLen ≤ wire.length := by
      rw [h.length]
      exact Nat.le_add_right _ _
    have hlong : ¬ (irp.fill ⟨ifIndex, wire⟩).information < frameHdrLen + ethHeaderLen :=
      Nat.not_lt.mpr (Nat.add_le_add_left hheader _)
    obtain ⟨hfb, h14⟩ := h.getD_etherType
    refine ⟨(wire.drop 6).take 6, ?_⟩
    rw [recvResult, hstatus, if_neg (not_not.mpr rfl), hbuf]
    dsimp only
    rw [hframe, h.drop, if_neg hlong, if_neg (not_or.mpr ⟨not_not.mpr hfb, not_not.mpr h14⟩)]

/-- What the read of `L2Io` has room for. -/
lemma holds_recvRequest (h : Carries wire payload) : (recvRequest fileObject ifIndex).Holds wire ↔ payload.length ≤ 1484 := by
  rw [Irp.Holds, h.length]
  exact ⟨fun hroom => (le_max_left _ _).trans (Nat.le_of_add_le_add_left (Nat.le_of_add_le_add_left hroom)), fun hlen => by
    have hmax : max payload.length (frameMin - ethHeaderLen) ≤ 1484 := max_le hlen (by decide)
    exact Nat.add_le_add_left (Nat.add_le_add_left hmax _) _⟩

/-- What the receiver waits in: no frame is queued for the read, and no read waits before it. -/
structure Idle (s : Channel) (ifIndex : UInt32) : Prop where
  queue : frameDequeueLocked s.frameQueue ifIndex = none
  pending : csqRemoveNextIrp s.pendingReads (.byIfIndex ifIndex) = none

lemma Carries.fits (h : Carries wire payload) (hlen : payload.length ≤ frameMax - ethHeaderLen) : Channel.FrameFits wire := by
  rw [Channel.FrameFits, h.length]
  exact ⟨Nat.le_add_right _ _, Nat.add_le_of_le_sub' (by decide) (max_le hlen (by decide))⟩

lemma indicate_carries (h : Carries wire payload) (hlen : payload.length ≤ frameMax - ethHeaderLen) :
    s.indicate ifIndex wire true true = s.accept ⟨ifIndex, wire⟩ true := by
  obtain ⟨hfb, h14⟩ := h.getD_etherType
  rw [Channel.indicate, if_neg (not_not.mpr (h.fits hlen)), if_neg]
  exact not_or.mpr ⟨not_not.mpr rfl, not_or.mpr ⟨not_not.mpr hfb, not_not.mpr h14⟩⟩

lemma find_last {α : Type} {p : α → Bool} {xs : List α} {x : α} (h : xs.find? p = none) (hx : p x = true) :
    (xs ++ [x]).find? p = some x ∧ (xs ++ [x]).eraseP p = xs := by
  have hnone := List.find?_eq_none.mp h
  refine ⟨?_, ?_⟩
  · rw [List.find?_append, h, List.find?_singleton, if_pos hx]
    rfl
  · rw [List.eraseP_append_right [x] hnone, List.eraseP_cons_of_pos hx, List.append_nil]

/-- The last request is the first one to be found where none waited for the interface. -/
lemma csqRemoveNext_append {pending : List Irp} {irp : Irp} (h : csqRemoveNextIrp pending (.byIfIndex ifIndex) = none)
    (hif : irp.ifIndex = ifIndex) : csqRemoveNextIrp (pending ++ [irp]) (.byIfIndex ifIndex) = some (irp, pending) := by
  obtain ⟨hfind, herase⟩ := find_last (Option.map_eq_none_iff.mp h) (decide_eq_true (.inr hif))
  rw [csqRemoveNextIrp, hfind, herase]
  rfl

lemma dequeue_append {queue : List FrameNode} {node : FrameNode} (h : frameDequeueLocked queue ifIndex = none)
    (hif : node.ifIndex = ifIndex) : frameDequeueLocked (queue ++ [node]) ifIndex = some (node, queue) := by
  obtain ⟨hfind, herase⟩ := find_last (Option.map_eq_none_iff.mp h) (decide_eq_true (.inr hif))
  rw [frameDequeueLocked, hfind, herase]
  rfl

lemma eraseIdx_last {α : Type} (xs : List α) (x : α) : (xs ++ [x]).eraseIdx xs.length = xs := by
  rw [List.eraseIdx_append_of_length_le le_rfl, Nat.sub_self, List.eraseIdx_cons_zero, List.append_nil]

lemma reads_iff {actions : List Action} {c : Completed} (h : (run Channel.step s actions).2.getLast? = some (some c)) :
    Reads s actions payload ↔ ∃ src, recvResult c = .ok (pad payload (frameMin - ethHeaderLen), src) := by
  constructor
  · rintro ⟨c', src, hlast, hresult⟩
    cases Option.some.inj (Option.some.inj (h.symm.trans hlast))
    exact ⟨src, hresult⟩
  · rintro ⟨src, hresult⟩
    exact ⟨c, src, h, hresult⟩

/-- The request as it waits. -/
def waiting (fileObject : Nat) (ifIndex : UInt32) : Irp := { recvRequest fileObject ifIndex with ifIndex }

/-- A read that waits gets the frame, if there is room for it. -/
lemma reads_readFirst (hidle : Idle s ifIndex) (h : Carries wire payload) (hlen : payload.length ≤ frameMax - ethHeaderLen) :
    Reads s (readFirst s fileObject ifIndex wire) payload ↔ payload.length ≤ 1484 := by
  have hrecv : s.recv (recvRequest fileObject ifIndex) =
      ({ s with inserting := s.inserting ++ [waiting fileObject ifIndex] }, none) := by
    rw [Channel.recv, recvIn_recvRequest]
    dsimp only
    rw [hidle.queue]
    rfl
  have hinsert : Channel.recvInsert { s with inserting := s.inserting ++ [waiting fileObject ifIndex] } s.inserting.length =
      ({ s with pendingReads := s.pendingReads ++ [waiting fileObject ifIndex] }, none) := by
    rw [Channel.recvInsert, List.getElem?_concat_length]
    dsimp only
    rw [eraseIdx_last]
  have hindicate : Channel.indicate { s with pendingReads := s.pendingReads ++ [waiting fileObject ifIndex] } ifIndex wire true true =
      (s, some (Channel.handOver (waiting fileObject ifIndex) ⟨ifIndex, wire⟩ true)) := by
    rw [indicate_carries h hlen, Channel.accept, csqRemoveNext_append hidle.pending rfl]
  have hanswer : (run Channel.step s (readFirst s fileObject ifIndex wire)).2.getLast? =
      some (some (Channel.handOver (waiting fileObject ifIndex) ⟨ifIndex, wire⟩ true)) := by
    rw [readFirst, run_cons, run_cons, run_cons]
    simp only [Channel.step, hrecv, hinsert, hindicate]
    rfl
  rw [reads_iff hanswer, ← @holds_recvRequest fileObject ifIndex _ _ h, Channel.handOver]
  split
  · next hsmall =>
    refine iff_of_false ?_ (Nat.not_le.mpr hsmall)
    rintro ⟨src, hresult⟩
    cases hresult
  · next hroom => exact @recvResult_fill ifIndex payload wire (waiting fileObject ifIndex) (by decide : recvInLen ≤ frameMax) h

/-- A read that finds the frame in the queue gets it, if there is room for it. -/
lemma reads_frameFirst (hidle : Idle s ifIndex) (hfree : 0 < s.freeRxNodes) (h : Carries wire payload)
    (hlen : payload.length ≤ frameMax - ethHeaderLen) :
    Reads s (frameFirst s fileObject ifIndex wire) payload ↔ payload.length ≤ 1484 := by
  have hindicate : s.indicate ifIndex wire true true = ({ s with arriving := s.arriving ++ [⟨ifIndex, wire⟩] }, none) := by
    rw [indicate_carries h hlen, Channel.accept, hidle.pending]
  have htake : Channel.takeNode { s with arriving := s.arriving ++ [⟨ifIndex, wire⟩] } s.arriving.length =
      ({ s with freeRxNodes := s.freeRxNodes - 1, placing := s.placing ++ [⟨ifIndex, wire⟩] }, none) := by
    rw [Channel.takeNode, List.getElem?_concat_length]
    dsimp only
    rw [if_neg hfree.ne', eraseIdx_last]
  have hput : Channel.putNode { s with freeRxNodes := s.freeRxNodes - 1, placing := s.placing ++ [⟨ifIndex, wire⟩] } s.placing.length =
      ({ s with freeRxNodes := s.freeRxNodes - 1, frameQueue := s.frameQueue ++ [⟨ifIndex, wire⟩] }, none) := by
    rw [Channel.putNode, List.getElem?_concat_length]
    dsimp only
    rw [eraseIdx_last]
  have hrecv : Channel.recv { s with freeRxNodes := s.freeRxNodes - 1, frameQueue := s.frameQueue ++ [⟨ifIndex, wire⟩] }
      (recvRequest fileObject ifIndex) =
        ({ s with
            freeRxNodes := s.freeRxNodes - 1
            returning := s.returning ++ [(recvRequest fileObject ifIndex, ⟨ifIndex, wire⟩)] }, none) := by
    rw [Channel.recv, recvIn_recvRequest]
    dsimp only
    rw [dequeue_append hidle.queue rfl]
  have hanswer : (run Channel.step s (frameFirst s fileObject ifIndex wire)).2.getLast? =
      some (some ((recvRequest fileObject ifIndex).fill ⟨ifIndex, wire⟩)) := by
    rw [frameFirst, run_cons, run_cons, run_cons, run_cons, run_cons]
    simp only [Channel.step, hindicate, htake, hput, hrecv, Channel.recvReturn, List.getElem?_concat_length]
    rfl
  rw [reads_iff hanswer, ← @holds_recvRequest fileObject ifIndex _ _ h]
  exact @recvResult_fill ifIndex payload wire (recvRequest fileObject ifIndex) (by decide : recvInLen ≤ frameMax) h

/-- Every payload that is not too long to be sent is read on both ways, the read first or the frame first, if and only
if it has at most 1484 bytes. -/
theorem transport {rxIfIndex : UInt32}
    (hsent : sendToMac bindings freeTxNodes true ifIndex dstMac payload ≠ .error .tooLong)
    (hbound : lookupBinding bindings ifIndex = some ctx) (hfreeTx : 0 < freeTxNodes) (hidle : Idle s rxIfIndex)
    (hfreeRx : 0 < s.freeRxNodes) :
    ∃ wire, sendToMac bindings freeTxNodes true ifIndex dstMac payload = .ok wire ∧
      (Reads s (readFirst s fileObject rxIfIndex wire) payload ↔ payload.length ≤ 1484) ∧
      (Reads s (frameFirst s fileObject rxIfIndex wire) payload ↔ payload.length ≤ 1484) := by
  have hlen : payload.length ≤ frameMax - ethHeaderLen := by
    by_contra hlong
    exact hsent (if_pos (Nat.not_le.mp hlong))
  obtain ⟨wire, hwire, hcarries⟩ := @sendToMac_carries _ dstMac _ _ _ _ hlen hbound hfreeTx
  exact ⟨wire, hwire, reads_readFirst hidle hcarries hlen, reads_frameFirst hidle hfreeRx hcarries hlen⟩

end

/-- A channel on which nothing has happened, and one network card. -/
def fresh : Channel := { bindings := [{ ifIndex := 1 }] }

def broadcast : Arr UInt8 6 := ⟨List.replicate 6 0xFF, rfl⟩

/-- A payload of 1485 bytes is sent. The read that waits fails, and the one that finds the frame in the queue has its buffer
overrun. -/
theorem transport_lost : ∃ wire, sendToMac fresh.bindings 1 true 1 broadcast (List.replicate 1485 7) = .ok wire ∧
    ¬ Reads fresh (readFirst fresh 0 1 wire) (List.replicate 1485 7) ∧
    ¬ Reads fresh (frameFirst fresh 0 1 wire) (List.replicate 1485 7) := by
  have hlen : (List.replicate 1485 (7 : UInt8)).length = 1485 := List.length_replicate
  have hidle : Idle fresh 1 := ⟨rfl, rfl⟩
  obtain ⟨wire, hwire, hcarries⟩ := @sendToMac_carries 1 broadcast (List.replicate 1485 7) fresh.bindings 1 _
    (hlen.le.trans (by decide)) rfl Nat.one_pos
  have hmax : (List.replicate 1485 (7 : UInt8)).length ≤ frameMax - ethHeaderLen := hlen.le.trans (by decide)
  have hsmall : ¬ (List.replicate 1485 (7 : UInt8)).length ≤ 1484 := by
    rw [hlen]
    decide
  exact ⟨wire, hwire, fun h => hsmall ((reads_readFirst hidle hcarries hmax).mp h),
    fun h => hsmall ((reads_frameFirst hidle (by decide) hcarries hmax).mp h)⟩

theorem transport_sample : ∃ wire, sendToMac fresh.bindings 1 true 1 broadcast [1, 2, 3] = .ok wire ∧
    (Reads fresh (readFirst fresh 0 1 wire) [1, 2, 3] ↔ [1, 2, 3].length ≤ 1484) ∧
    (Reads fresh (frameFirst fresh 0 1 wire) [1, 2, 3] ↔ [1, 2, 3].length ≤ 1484) :=
  transport (by decide) rfl Nat.one_pos ⟨rfl, rfl⟩ (by decide)

end IPv8Plus.Driver
