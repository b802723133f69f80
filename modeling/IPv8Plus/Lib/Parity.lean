import IPv8Plus.Lib.BigEndian

/-!
# Parity of byte strings

Byte strings of different lengths are added byte by byte, as if the shorter ones went on with zeros. The
parity of a list of strings is their sum; a string is the parity of a list that it belongs to plus the parity
of the others.
-/

namespace Lib

/-- The byte at an index, zero behind the end. -/
def byteAt (b : Bytes) (i : Nat) : UInt8 := b.getD i 0

/-- The sum of the bytes at an index. -/
def parity (bs : List Bytes) (i : Nat) : UInt8 := (bs.map (byteAt · i)).foldr (· ^^^ ·) 0

/-- The length of the longest string. -/
def maxLength (bs : List Bytes) : Nat := (bs.map List.length).foldr max 0

variable {a b : Bytes} {bs cs : List Bytes} {i n : Nat}

lemma byteAt_of_le (h : b.length ≤ i) : byteAt b i = 0 := by
  rw [byteAt, List.getD_eq_default _ _ h]

/-- Strings of one length with the same bytes are equal. -/
lemma eq_of_byteAt (hlen : a.length = b.length) (h : ∀ i < a.length, byteAt a i = byteAt b i) : a = b := by
  apply List.ext_getElem hlen
  intro i ha hb
  have hi := h i ha
  rw [byteAt, byteAt, List.getD_eq_getElem _ _ ha, List.getD_eq_getElem _ _ hb] at hi
  exact hi

lemma byteAt_take (h : i < n) : byteAt (b.take n) i = byteAt b i := by
  rw [byteAt, byteAt, List.getD_eq_getElem?_getD, List.getElem?_take_of_lt h, ← List.getD_eq_getElem?_getD]

/-- Zeros at the end change nothing. -/
lemma byteAt_append_zeros : byteAt (b ++ List.replicate n 0) i = byteAt b i := by
  by_cases hi : i < b.length
  · rw [byteAt, byteAt, List.getD_append _ _ _ _ hi]
  · rw [byteAt, List.getD_append_right _ _ _ _ (Nat.le_of_not_lt hi), byteAt_of_le (Nat.le_of_not_lt hi),
      List.getD_eq_getElem?_getD, List.getElem?_replicate]
    split
    · rfl
    · rfl

@[simp] lemma parity_nil : parity [] i = 0 := rfl

@[simp] lemma parity_cons : parity (b :: bs) i = byteAt b i ^^^ parity bs i := rfl

lemma parity_append : parity (bs ++ cs) i = parity bs i ^^^ parity cs i := by
  induction bs with
  | nil => rw [List.nil_append, parity_nil, UInt8.zero_xor]
  | cons b bs ih => rw [List.cons_append, parity_cons, ih, parity_cons, UInt8.xor_assoc]

/-- The sum of all strings and all but one is that one. -/
theorem parity_cancel : parity (bs ++ b :: cs) i ^^^ parity (bs ++ cs) i = byteAt b i := by
  have hsame : parity bs i ^^^ (parity bs i ^^^ parity cs i) = parity cs i := by
    rw [← UInt8.xor_assoc, UInt8.xor_self, UInt8.zero_xor]
  rw [parity_append, parity_append, parity_cons, UInt8.xor_comm (parity bs i), UInt8.xor_assoc, hsame, UInt8.xor_assoc,
    UInt8.xor_self, UInt8.xor_zero]

lemma le_maxLength (h : b ∈ bs) : b.length ≤ maxLength bs := by
  induction bs with
  | nil => exact absurd h List.not_mem_nil
  | cons c cs ih =>
    cases h with
    | head => exact Nat.le_max_left _ _
    | tail _ h => exact (ih h).trans (Nat.le_max_right _ _)

lemma maxLength_append : maxLength (bs ++ [b]) = max (maxLength bs) b.length := by
  induction bs with
  | nil => exact (Nat.max_zero _).trans (Nat.zero_max _).symm
  | cons c cs ih =>
    show max c.length (maxLength (cs ++ [b])) = max (max c.length (maxLength cs)) b.length
    rw [ih, Nat.max_assoc]

lemma parity_of_le (h : maxLength bs ≤ i) : parity bs i = 0 := by
  induction bs with
  | nil => rfl
  | cons b bs ih =>
    obtain ⟨hb, hbs⟩ := Nat.max_le.mp (show max b.length (maxLength bs) ≤ i from h)
    rw [parity_cons, byteAt_of_le hb, ih hbs, UInt8.xor_zero]

end Lib
