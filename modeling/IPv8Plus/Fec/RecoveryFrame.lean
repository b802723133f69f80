import IPv8Plus.Fec.Rx

/-!
# Recovery frames

What the receiver reads of a recovery frame, for bytes of any form: `recoveryFields_cases` and `memberTable_cases` say that a
frame is refused, or has the right form and is read as it stands.
-/

namespace IPv8Plus.Fec
open Lib

variable {frame : Bytes}

/-- The group number in a recovery frame. -/
def groupSeqOf (recovery : Bytes) : UInt64 := ofBe64 ((recovery.drop 10).take 8)

def groupSize (frame : Bytes) : Nat := (byteAt frame 18).toNat

def memberCounters (frame : Bytes) : List UInt64 :=
  (List.range (groupSize frame)).map fun i => ofBe64 ((frame.drop (fixedEnd + i * 8)).take 8)

def memberLens (frame : Bytes) : List Nat :=
  (List.range (groupSize frame)).map fun i => (ofBe16 ((frame.drop (fixedEnd + groupSize frame * 8 + i * 2)).take 2)).toNat

/-- The fixed part of a recovery frame, with room for the table that it announces. -/
structure FixedPart (frame : Bytes) : Prop where
  length : fixedEnd ≤ frame.length
  version : frame[0]? = some tunnelVersion
  type : frame[1]? = some fecFrameType
  size : fecMinK ≤ groupSize frame ∧ groupSize frame ≤ fecMaxK
  table : fixedEnd + groupSize frame * 10 ≤ frame.length

/-- A recovery frame of the right form: the sum is as long as the longest member, and no member is too short. -/
structure WellFormed (frame : Bytes) : Prop where
  fixed : FixedPart frame
  sum : frame.length - (fixedEnd + groupSize frame * 10) = (memberLens frame).max?.getD 0
  lens : ∀ l ∈ memberLens frame, dataMinFrame ≤ l

lemma idx_byteAt {i : Nat} (h : i < frame.length) : (idx frame i : Outcome FecError UInt8) = .ok (byteAt frame i) := by
  apply idx_of_getElem?
  rw [byteAt, List.getD_eq_getElem _ _ h, List.getElem?_eq_getElem]

/-- A field inside the frame is read. -/
lemma read_field {β : Type} {a b n : Nat} {f : Arr UInt8 n → Outcome FecError β} (hab : a + n = b) (hb : b ≤ frame.length) :
    (do f (← copyFromSlice n (← slice frame a b))) =
      f ⟨(frame.drop a).take n, List.length_take_of_le (by rw [List.length_drop]; omega)⟩ := by
  obtain rfl := hab
  rw [slice_of_le (Nat.le_add_right a n) hb, Nat.add_sub_cancel_left, Outcome.ok_bind, copyFromSlice, dif_pos, Outcome.ok_bind]

/-- The fixed part is refused, or it is as it should be. -/
lemma recoveryFields_cases (frame : Bytes) : (¬ FixedPart frame ∧ ∃ e, recoveryFields frame = .err e) ∨
    FixedPart frame ∧ recoveryFields frame = .ok (groupSeqOf frame, groupSize frame) := by
  have hend : fixedEnd = 22 := rfl
  by_cases hlen : frame.length < fixedEnd
  · exact .inl ⟨fun h => absurd h.length (Nat.not_le.mpr hlen), _, if_pos hlen⟩
  have hget : ∀ i, i < 22 → frame[i]? = some (byteAt frame i) := fun i hi => idx_eq_ok.mp (idx_byteAt (by omega))
  rw [recoveryFields, if_neg hlen, idx_byteAt (by omega), Outcome.ok_bind, idx_byteAt (by omega), Outcome.ok_bind]
  by_cases hhead : byteAt frame 0 ≠ tunnelVersion ∨ byteAt frame 1 ≠ fecFrameType
  · refine .inl ⟨fun h => ?_, _, if_pos hhead⟩
    have hversion := h.version
    have htype := h.type
    rw [hget 0 (by omega), Option.some_inj] at hversion
    rw [hget 1 (by omega), Option.some_inj] at htype
    exact hhead.elim (absurd hversion) (absurd htype)
  obtain ⟨hversion, htype⟩ := not_or.mp hhead
  rw [if_neg hhead, read_field (show 10 + 8 = 18 from rfl) (by omega), idx_byteAt (by omega), Outcome.ok_bind]
  by_cases hsize : fecMinK ≤ groupSize frame ∧ groupSize frame ≤ fecMaxK
  · by_cases htable : frame.length < fixedEnd + groupSize frame * 10
    · exact .inl ⟨fun h => absurd h.table (Nat.not_le.mpr htable), _, (if_neg (not_not_intro hsize)).trans (if_pos htable)⟩
    · refine .inr ⟨⟨Nat.not_lt.mp hlen, ?_, ?_, hsize, Nat.not_lt.mp htable⟩, (if_neg (not_not_intro hsize)).trans (if_neg htable)⟩
      · rw [hget 0 (by omega), not_not.mp hversion]
      · rw [hget 1 (by omega), not_not.mp htype]
  · exact .inl ⟨fun h => hsize h.size, _, if_pos hsize⟩

/-- The table is refused, or it is that of a frame of the right form. -/
lemma memberTable_cases (h : FixedPart frame) : (¬ WellFormed frame ∧ ∃ e, memberTable frame (groupSize frame) = .err e) ∨
    WellFormed frame ∧ memberTable frame (groupSize frame) = .ok (memberCounters frame, memberLens frame) := by
  have hend : fixedEnd = 22 := rfl
  have htable := h.table
  have hcounters : (List.range (groupSize frame)).mapM (fun i => do
      let b ← copyFromSlice 8 (← slice frame (fixedEnd + i * 8) (fixedEnd + i * 8 + 8))
      return ofBe64 b.val) = (.ok (memberCounters frame) : Outcome FecError (List UInt64)) := by
    refine Outcome.mapM_eq_ok fun i hi => ?_
    have hi := List.mem_range.mp hi
    rw [read_field rfl (by omega)]
    rfl
  have hlens : (List.range (groupSize frame)).mapM (fun i => do
      let b ← copyFromSlice 2 (← slice frame (fixedEnd + groupSize frame * 8 + i * 2) (fixedEnd + groupSize frame * 8 + i * 2 + 2))
      return (ofBe16 b.val).toNat) = (.ok (memberLens frame) : Outcome FecError (List Nat)) := by
    refine Outcome.mapM_eq_ok fun i hi => ?_
    have hi := List.mem_range.mp hi
    rw [read_field rfl (by omega)]
    rfl
  rw [memberTable, hcounters, Outcome.ok_bind, hlens, Outcome.ok_bind]
  by_cases hsum : frame.length - (fixedEnd + groupSize frame * 10) = (memberLens frame).max?.getD 0
  · rw [if_neg (not_not_intro hsum)]
    cases hfind : (memberLens frame).find? (· < dataMinFrame) with
    | some l =>
      have hshort := List.find?_some hfind
      exact .inl ⟨fun hform => absurd (hform.lens l (List.mem_of_find?_eq_some hfind)) (Nat.not_le.mpr (of_decide_eq_true hshort)), _, rfl⟩
    | none =>
      refine .inr ⟨⟨h, hsum, fun l hl => Nat.not_lt.mp fun hshort => ?_⟩, rfl⟩
      exact List.find?_eq_none.mp hfind l hl (decide_eq_true hshort)
  · exact .inl ⟨fun hform => hsum hform.sum, _, if_pos hsum⟩

lemma WellFormed.fields (h : WellFormed frame) : recoveryFields frame = .ok (groupSeqOf frame, groupSize frame) := by
  rcases recoveryFields_cases frame with ⟨hfixed, -⟩ | ⟨-, heq⟩
  · exact absurd h.fixed hfixed
  · exact heq

lemma WellFormed.table (h : WellFormed frame) : memberTable frame (groupSize frame) = .ok (memberCounters frame, memberLens frame) := by
  rcases memberTable_cases h.fixed with ⟨hform, -⟩ | ⟨-, heq⟩
  · exact absurd h hform
  · exact heq

end IPv8Plus.Fec
