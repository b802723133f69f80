import IPv8Plus.Driver.Channel

/-!
# Frames and the buffers of requests

A frame must fit into the buffer of the request that gets it. The check is made where a frame meets a waiting
request, and not where a request takes a queued frame. `channel_sound` says what follows from that.
-/

namespace IPv8Plus.Driver
open Lib

namespace Irp

variable {irp : Irp} {node : FrameNode}

/-- There is room for the frame behind its header. -/
def Holds (irp : Irp) (frame : Bytes) : Prop := frameHdrLen + frame.length ≤ irp.outputBufferLength

instance (irp : Irp) (frame : Bytes) : Decidable (irp.Holds frame) := inferInstanceAs (Decidable (_ ≤ _))

lemma length_frameHdr (ifIndex : UInt32) (frameLen : Nat) : (frameHdr ifIndex frameLen).length = frameHdrLen := by
  rw [frameHdr, List.length_append, List.length_append, List.length_append, length_le32, length_le32, length_le32, length_le32]
  rfl

/-- A frame that fits is written behind its header, at the start of the buffer. -/
lemma fill_systemBuffer (h : irp.Holds node.frame) : ∃ buf, (irp.fill node).systemBuffer = some buf ∧
    buf.take (frameHdrLen + node.frame.length) = frameHdr node.ifIndex node.frame.length ++ node.frame := by
  have hroom : (frameHdr node.ifIndex node.frame.length).length + node.frame.length ≤ irp.systemBuffer.length := by
    rw [length_frameHdr, irp.size]
    exact h.trans (le_max_right _ _)
  have hwrite := take_writeAt_writeAt hroom
  rw [length_frameHdr] at hwrite
  exact hwrite

end Irp

namespace Channel

variable {s : Channel} {a : Action} {c : Completed} {irp : Irp} {node : FrameNode} {frame : Bytes}

/-- The request and the frame that meet. -/
def meets (s : Channel) : Action → Option (Irp × Bytes)
  | .recvReturn k => (s.returning[k]?).map fun (irp, node) => (irp, node.frame)
  | .indicate ifIndex frame _ _ => (csqRemoveNextIrp s.pendingReads (.byIfIndex ifIndex)).map fun (irp, _) => (irp, frame)
  | .inject ifIndex frame => (csqRemoveNextIrp s.pendingReads (.byIfIndex ifIndex)).map fun (irp, _) => (irp, frame)
  | _ => none

/-- A request that succeeds has got a frame that fits, and nothing is written past its output buffer; where a frame
does not fit, the request fails and its buffer is left alone. -/
structure Sound (s : Channel) (a : Action) (c : Completed) : Prop where
  success : c.status = .success → ∃ frame, s.meets a = some (c.irp, frame) ∧ c.information = frameHdrLen + frame.length ∧
    c.information ≤ c.irp.outputBufferLength ∧ c.written ≤ c.irp.outputBufferLength ∧ c.systemBuffer ≠ none
  small : ∀ irp frame, s.meets a = some (irp, frame) → ¬ irp.Holds frame → c = irp.fail .bufferTooSmall

/-- No request takes a queued frame that does not fit. -/
def TakesFitting (s : Channel) : Action → Prop
  | .recvReturn k => ∀ irp node, s.returning[k]? = some (irp, node) → irp.Holds node.frame
  | _ => True

lemma sound_fail {status : NtStatus} (hstatus : status ≠ .success) (hmeets : s.meets a = none) : s.Sound a (irp.fail status) where
  success hsuccess := absurd hsuccess hstatus
  small irp' frame hfound := by
    rw [hmeets] at hfound
    cases hfound

lemma sound_fill (hmeets : s.meets a = some (irp, node.frame)) (h : irp.Holds node.frame) : s.Sound a (irp.fill node) where
  success _ := by
    obtain ⟨buf, hbuf, -⟩ := Irp.fill_systemBuffer h
    refine ⟨node.frame, hmeets, rfl, h, h, ?_⟩
    rw [hbuf]
    exact Option.some_ne_none buf
  small irp' frame hfound hsmall := by
    rw [hmeets] at hfound
    cases hfound
    exact absurd h hsmall

/-- Where a frame meets a waiting request, its length is checked. -/
lemma sound_handOver {mapped : Bool} (hmeets : s.meets a = some (irp, node.frame)) : s.Sound a (handOver irp node mapped) := by
  unfold handOver
  split
  · next hsmall =>
    refine ⟨fun hsuccess => ?_, fun irp' frame hfound _ => ?_⟩
    · cases hsuccess
    · rw [hmeets] at hfound
      cases hfound
      rfl
  · next hroom =>
    have hholds : irp.Holds node.frame := Nat.not_lt.mp hroom
    split
    · refine ⟨fun hsuccess => ?_, fun irp' frame hfound hsmall => ?_⟩
      · cases hsuccess
      · rw [hmeets] at hfound
        cases hfound
        exact absurd hholds hsmall
    · exact sound_fill hmeets hholds

lemma sound_accept {mapped : Bool}
    (hmeets : s.meets a = (csqRemoveNextIrp s.pendingReads (.byIfIndex node.ifIndex)).map fun (irp, _) => (irp, node.frame))
    (h : (s.accept node mapped).2 = some c) : s.Sound a c := by
  unfold accept at h
  cases hfound : csqRemoveNextIrp s.pendingReads (.byIfIndex node.ifIndex) with
  | none =>
    rw [hfound] at h
    cases h
  | some found =>
    rw [hfound] at h hmeets
    cases h
    exact sound_handOver hmeets

lemma recvReturn_answer (s : Channel) (k : Nat) :
    (s.recvReturn k).2 = (s.returning[k]?).map fun (irp, node) => irp.fill node := by
  unfold recvReturn
  cases s.returning[k]? with
  | none => rfl
  | some found => rfl

/-- A request that fails its checks, is cancelled or cleaned up has got no frame. -/
lemma recvIn_ne_success {status : NtStatus} (h : irp.recvIn = .error status) : status ≠ .success := by
  unfold Irp.recvIn at h
  split at h
  · cases h
    decide
  · split at h
    · cases h
      decide
    · split at h
      · cases h
        decide
      · cases h

lemma recv_answer (h : (s.recv irp).2 = some c) : ∃ status, status ≠ .success ∧ c = irp.fail status := by
  unfold recv at h
  split at h
  · next status hstatus =>
    cases h
    exact ⟨status, recvIn_ne_success hstatus, rfl⟩
  · split at h
    · cases h
    · cases h

lemma cancel_answer {k : Nat} (h : (s.cancel k).2 = some c) : ∃ irp, c = Irp.fail irp .cancelled := by
  unfold cancel at h
  split at h
  · cases h
    exact ⟨_, rfl⟩
  · cases h

lemma cleanup_answer {fileObject : Nat} (h : (s.cleanup fileObject).2 = some c) : ∃ irp, c = Irp.fail irp .cancelled := by
  unfold cleanup at h
  split at h
  · cases h
    exact ⟨_, rfl⟩
  · cases h

/-- The steps on nodes, and the one that inserts a request, answer nothing. -/
lemma no_answer (k : Nat) : (s.recvInsert k).2 = none ∧ (s.takeNode k).2 = none ∧ (s.putNode k).2 = none ∧
    (s.dropNode k).2 = none := by
  refine ⟨?_, ?_, ?_, ?_⟩
  · unfold recvInsert
    split
    · rfl
    · rfl
  · unfold takeNode
    split
    · dsimp only
      split
      · rfl
      · rfl
    · rfl
  · unfold putNode
    split
    · rfl
    · rfl
  · unfold dropNode
    split
    · rfl
    · rfl

/-- A queued frame is copied without a check. -/
lemma sound_recvReturn {k : Nat} : (∀ c, (s.recvReturn k).2 = some c → s.Sound (.recvReturn k) c) ↔
    s.TakesFitting (.recvReturn k) := by
  rw [recvReturn_answer]
  constructor
  · intro hsound irp node hget
    obtain ⟨frame, -, -, hle, -⟩ := (hsound (irp.fill node) (by rw [hget]; rfl)).success rfl
    exact hle
  · intro hfits c hc
    obtain ⟨⟨irp, node⟩, hget, rfl⟩ := Option.map_eq_some_iff.mp hc
    have hmeets : s.meets (.recvReturn k) = some (irp, node.frame) := by
      rw [meets, hget]
      rfl
    exact sound_fill hmeets (hfits irp node hget)

/-- What one step answers is sound, if and only if it gives no request a queued frame that does not fit. -/
lemma sound_iff : (∀ c, (s.step a).2 = some c → s.Sound a c) ↔ s.TakesFitting a := by
  cases a with
  | recvReturn k => exact sound_recvReturn
  | recv irp =>
    refine iff_of_true ?_ trivial
    intro c hc
    obtain ⟨status, hstatus, rfl⟩ := recv_answer hc
    exact sound_fail hstatus rfl
  | recvInsert k => exact iff_of_true (fun c hc => absurd ((no_answer k).1.symm.trans hc) (Option.some_ne_none c).symm) trivial
  | indicate ifIndex frame hdrMapped mapped =>
    refine iff_of_true ?_ trivial
    intro c hc
    unfold step indicate at hc
    dsimp only at hc
    split at hc
    · cases hc
    · split at hc
      · cases hc
      · exact sound_accept rfl hc
  | inject ifIndex frame =>
    refine iff_of_true ?_ trivial
    intro c hc
    unfold step inject at hc
    dsimp only at hc
    split at hc
    · cases hc
    · split at hc
      · cases hc
      · exact sound_accept rfl hc
  | takeNode k => exact iff_of_true (fun c hc => absurd ((no_answer k).2.1.symm.trans hc) (Option.some_ne_none c).symm) trivial
  | putNode k => exact iff_of_true (fun c hc => absurd ((no_answer k).2.2.1.symm.trans hc) (Option.some_ne_none c).symm) trivial
  | dropNode k => exact iff_of_true (fun c hc => absurd ((no_answer k).2.2.2.symm.trans hc) (Option.some_ne_none c).symm) trivial
  | cancel k =>
    refine iff_of_true ?_ trivial
    intro c hc
    obtain ⟨irp, rfl⟩ := cancel_answer hc
    exact sound_fail (by decide) rfl
  | cleanup fileObject =>
    refine iff_of_true ?_ trivial
    intro c hc
    obtain ⟨irp, rfl⟩ := cleanup_answer hc
    exact sound_fail (by decide) rfl

/-- In every run every answer is sound, if and only if no request takes a queued frame that does not fit. -/
theorem channel_sound {actions : List Action} :
    Along step (fun s a => ∀ c, (s.step a).2 = some c → s.Sound a c) s actions ↔ Along step TakesFitting s actions :=
  along_congr (I := fun _ => True) (along_of_forall (P := fun _ => True) fun _ _ => trivial) (fun _ _ _ _ _ => trivial)
    (fun _ _ _ _ => sound_iff) trivial

/-- A frame of 15 bytes is queued, and a request with room for 30 takes it. -/
def smallRead : List Action := [
  .indicate 1 (List.replicate 12 0 ++ [0xFB, 0x14, 7]) true true, .takeNode 0, .putNode 0, .recv (.ofRecv 0 1 30),
  .recvReturn 0]

/-- The request succeeds with 31 bytes, and the last one is written behind the end of its buffer. -/
theorem channel_overflow :
    ¬ Along step (fun s a => ∀ c, (s.step a).2 = some c → s.Sound a c) { bindings := [] } smallRead ∧
      (run step { bindings := [] } smallRead).2.getLast? =
        some (some ⟨.ofRecv 0 1 30, .success, 31, 31, none⟩) := by
  have hanswer : (run step { bindings := [] } smallRead).2.getLast? = some (some ⟨.ofRecv 0 1 30, .success, 31, 31, none⟩) := by
    decide +kernel
  refine ⟨?_, hanswer⟩
  rintro ⟨-, -, -, -, hsound, -⟩
  obtain ⟨frame, -, -, hle, -⟩ := (hsound _ (Option.some.inj hanswer)).success rfl
  exact absurd hle (by decide)

end Channel

end IPv8Plus.Driver
