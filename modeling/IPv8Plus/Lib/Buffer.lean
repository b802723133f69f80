import IPv8Plus.Lib.BigEndian
import IPv8Plus.Lib.Outcome

/-!
# Buffers

Words of 32 bits in little-endian order, and writes into a buffer of a fixed length. A write that would go past
the end of the buffer has no result.
-/

namespace Lib

/-- The bytes of a word, the lowest one first. -/
def le32 (x : UInt32) : Bytes := (be32 x).reverse

def ofLe32 (bs : Bytes) : UInt32 := ofBe32 bs.reverse

@[simp] lemma length_le32 (x : UInt32) : (le32 x).length = 4 := by
  rw [le32, List.length_reverse, length_be32]

@[simp] lemma ofLe32_le32 (x : UInt32) : ofLe32 (le32 x) = x := by
  rw [ofLe32, le32, List.reverse_reverse, ofBe32_be32]

lemma le32_ofLe32 {bs : Bytes} (h : bs.length = 4) : le32 (ofLe32 bs) = bs := by
  rw [le32, ofLe32, be32_ofBe32 ((List.length_reverse).trans h), List.reverse_reverse]

/-- The word at an offset. -/
def wordAt (bs : Bytes) (i : Nat) : UInt32 := ofLe32 ((bs.drop i).take 4)

lemma wordAt_left (x : UInt32) (rest : Bytes) : wordAt (le32 x ++ rest) 0 = x := by
  rw [wordAt, List.drop_zero, List.take_left' (length_le32 x), ofLe32_le32]

lemma wordAt_right {front : Bytes} {n : Nat} (rest : Bytes) (i : Nat) (h : front.length = n) :
    wordAt (front ++ rest) (n + i) = wordAt rest i := by
  rw [wordAt, ← List.drop_drop, List.drop_left' h, wordAt]

/-- Four words in a row. -/
lemma wordAt_four (w0 w1 w2 w3 : UInt32) (rest : Bytes) : let bs := le32 w0 ++ le32 w1 ++ le32 w2 ++ le32 w3 ++ rest
    wordAt bs 0 = w0 ∧ wordAt bs 4 = w1 ∧ wordAt bs 8 = w2 ∧ wordAt bs 12 = w3 := by
  dsimp only
  rw [List.append_assoc, List.append_assoc, List.append_assoc]
  refine ⟨wordAt_left _ _, ?_, ?_, ?_⟩
  · exact (wordAt_right _ 0 (length_le32 w0)).trans (wordAt_left _ _)
  · exact (wordAt_right _ 4 (length_le32 w0)).trans ((wordAt_right _ 0 (length_le32 w1)).trans (wordAt_left _ _))
  · exact (wordAt_right _ 8 (length_le32 w0)).trans ((wordAt_right _ 4 (length_le32 w1)).trans
      ((wordAt_right _ 0 (length_le32 w2)).trans (wordAt_left _ _)))

/-- Write into a buffer. -/
def writeAt (buf : Bytes) (off : Nat) (data : Bytes) : Option Bytes :=
  if off + data.length ≤ buf.length then some (buf.take off ++ data ++ buf.drop (off + data.length)) else none

variable {buf buf' head data : Bytes} {off : Nat}

lemma writeAt_eq_some (h : off + data.length ≤ buf.length) :
    writeAt buf off data = some (buf.take off ++ data ++ buf.drop (off + data.length)) := if_pos h

lemma writeAt_eq_none : writeAt buf off data = none ↔ buf.length < off + data.length := by
  unfold writeAt
  split
  · next h => exact iff_of_false (Option.some_ne_none _) (Nat.not_lt.mpr h)
  · next h => exact iff_of_true rfl (Nat.not_le.mp h)

lemma length_writeAt (h : writeAt buf off data = some buf') : buf'.length = buf.length := by
  unfold writeAt at h
  split at h
  · next hle =>
    cases h
    rw [List.length_append, List.length_append, List.length_take, List.length_drop]
    omega
  · cases h

/-- A header written before data that stands right behind it. -/
lemma take_writeAt_writeAt (h : head.length + data.length ≤ buf.length) :
    ∃ b, (writeAt buf head.length data >>= fun b => writeAt b 0 head) = some b ∧
      b.take (head.length + data.length) = head ++ data := by
  have hfirst := writeAt_eq_some h
  have hlen := length_writeAt hfirst
  have hsecond : 0 + head.length ≤ (buf.take head.length ++ data ++ buf.drop (head.length + data.length)).length := by
    rw [hlen, Nat.zero_add]
    exact (Nat.le_add_right _ _).trans h
  have htake : (buf.take head.length).length = head.length := by
    rw [List.length_take]
    exact Nat.min_eq_left ((Nat.le_add_right _ _).trans h)
  refine ⟨head ++ (data ++ buf.drop (head.length + data.length)), ?_, ?_⟩
  · rw [hfirst]
    refine (writeAt_eq_some hsecond).trans (congrArg some ?_)
    rw [List.take_zero, List.nil_append, Nat.zero_add, List.append_assoc, List.drop_left' htake]
  · rw [← List.append_assoc]
    exact List.take_left' List.length_append

/-- Data in the place of other data. -/
lemma writeAt_mid {pre old post : Bytes} (hpre : pre.length = off) (hold : old.length = data.length) :
    writeAt (pre ++ (old ++ post)) off data = some (pre ++ (data ++ post)) := by
  have hroom : off + data.length ≤ (pre ++ (old ++ post)).length := by
    rw [List.length_append, List.length_append, hpre, hold]
    omega
  have hdrop : (pre ++ (old ++ post)).drop (off + data.length) = post := by
    rw [← List.append_assoc, List.drop_left']
    rw [List.length_append, hpre, hold]
  rw [writeAt_eq_some hroom, List.take_left' hpre, hdrop, List.append_assoc]

/-- Every place for data in a buffer. -/
lemma exists_mid (hroom : off + data.length ≤ buf.length) :
    ∃ pre old post, buf = pre ++ (old ++ post) ∧ pre.length = off ∧ old.length = data.length := by
  refine ⟨buf.take off, (buf.drop off).take data.length, (buf.drop off).drop data.length, ?_, ?_, ?_⟩
  · rw [List.take_append_drop, List.take_append_drop]
  · exact List.length_take_of_le (by omega)
  · rw [List.length_take, List.length_drop]
    omega

/-- Two writes, the second one right behind the first. -/
lemma writeAt_behind {off' : Nat} {data' : Bytes} (h : off' = off + data.length) :
    (writeAt buf off data >>= fun b => writeAt b off' data') = writeAt buf off (data ++ data') := by
  subst h
  by_cases hroom : off + (data ++ data').length ≤ buf.length
  · obtain ⟨pre, old, post, rfl, hpre, hold⟩ := exists_mid hroom
    obtain ⟨front, back, rfl, hback⟩ := exists_arr_append data'.length (hold.trans List.length_append)
    have hfirst : writeAt (pre ++ (front.val ++ back ++ post)) off data = some (pre ++ data ++ (back ++ post)) := by
      rw [List.append_assoc front.val, writeAt_mid hpre front.property, List.append_assoc]
    rw [hfirst, writeAt_mid hpre hold]
    refine (writeAt_mid ?_ hback).trans ?_
    · rw [List.length_append, hpre]
    · rw [List.append_assoc, List.append_assoc data]
  · have hnone : writeAt buf off (data ++ data') = none := writeAt_eq_none.mpr (Nat.not_le.mp hroom)
    rw [hnone]
    rw [List.length_append] at hroom
    cases hfirst : writeAt buf off data with
    | none => rfl
    | some b =>
      refine writeAt_eq_none.mpr ?_
      rw [length_writeAt hfirst]
      omega

/-- Two writes, the second one right before the first. -/
lemma writeAt_before {off' : Nat} {data' : Bytes} (h : off = off' + data'.length) :
    (writeAt buf off data >>= fun b => writeAt b off' data') = writeAt buf off' (data' ++ data) := by
  subst h
  by_cases hroom : off' + (data' ++ data).length ≤ buf.length
  · obtain ⟨pre, old, post, rfl, hpre, hold⟩ := exists_mid hroom
    obtain ⟨front, back, rfl, hback⟩ := exists_arr_append data.length (hold.trans List.length_append)
    have hfront : (pre ++ front.val).length = off' + data'.length := by
      rw [List.length_append, hpre, front.property]
    have hfirst : writeAt (pre ++ (front.val ++ back ++ post)) (off' + data'.length) data =
        some (pre ++ (front.val ++ (data ++ post))) := by
      rw [List.append_assoc front.val, ← List.append_assoc pre, writeAt_mid hfront hback, List.append_assoc]
    rw [hfirst, writeAt_mid hpre hold]
    refine (writeAt_mid hpre front.property).trans ?_
    rw [List.append_assoc]
  · have hnone : writeAt buf off' (data' ++ data) = none := writeAt_eq_none.mpr (Nat.not_le.mp hroom)
    rw [List.length_append] at hroom
    have hfirst : writeAt buf (off' + data'.length) data = none := writeAt_eq_none.mpr (by omega)
    rw [hnone, hfirst]
    rfl

end Lib
