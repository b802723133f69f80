import IPv8Plus.Lib.Reader

/-!
# The length of text

The bytes of a text are those of its characters, one to four for each. What is read back from the front of a text's bytes
is at most a few replaced characters longer than these.
-/

namespace Lib

variable {l : List Char} {s : String} {bs : Bytes}

/-- The bytes of the characters. -/
def charBytes (l : List Char) : Bytes := l.flatMap String.utf8EncodeChar

lemma utf8_ofList (l : List Char) : utf8 (.ofList l) = charBytes l := by
  exact List.toList_data_toByteArray

lemma utf8_eq (s : String) : utf8 s = charBytes s.toList := by
  rw [← utf8_ofList, String.ofList_toList]

lemma length_charBytes (l : List Char) : (charBytes l).length = (l.map Char.utf8Size).sum := by
  rw [charBytes, List.length_flatMap]
  simp only [String.length_utf8EncodeChar]

/-- A byte for each character of ASCII. -/
lemma length_utf8_of_ascii (h : ∀ c ∈ s.toList, c.toNat < 0x80) : (utf8 s).length = s.toList.length := by
  have hone : s.toList.map Char.utf8Size = s.toList.map fun _ => 1 := by
    apply List.map_congr_left
    intro c hc
    rw [Char.utf8Size_eq_one_iff, UInt32.le_iff_toNat_le]
    exact Nat.le_of_lt_succ (h c hc)
  rw [utf8_eq, length_charBytes, hone, List.map_const', List.sum_replicate, smul_eq_mul, mul_one]

lemma brokenLength_pos (bs : Bytes) : 0 < brokenLength bs := by
  unfold brokenLength
  split
  · dsimp only
    split_ifs <;> decide
  · decide

/-- At most a character for each byte. -/
lemma length_lossyChars_le (n : ℕ) (bs : Bytes) : (lossyChars n bs).length ≤ bs.length := by
  induction n generalizing bs with
  | zero => exact Nat.zero_le _
  | succ n ih =>
    cases bs with
    | nil => exact Nat.zero_le _
    | cons b bs =>
      have hdrop : ∀ k, 0 < k → (lossyChars n ((b :: bs).drop k)).length ≤ bs.length := by
        intro k hk
        have hrest := ih ((b :: bs).drop k)
        rw [List.length_drop, List.length_cons] at hrest
        omega
      rw [lossyChars]
      split
      · next c hc => exact Nat.succ_le_succ (hdrop _ c.utf8Size_pos)
      · exact Nat.succ_le_succ (hdrop _ (brokenLength_pos _))

lemma length_charBytes_le (l : List Char) : (charBytes l).length ≤ 4 * l.length := by
  induction l with
  | nil => exact Nat.zero_le _
  | cons c l ih =>
    have hc := c.utf8Size_le_four
    rw [length_charBytes] at ih ⊢
    rw [List.map_cons, List.sum_cons, List.length_cons]
    omega

/-- A whole character at the front comes back. -/
lemma lossyChars_char (n : ℕ) (c : Char) (rest : Bytes) :
    lossyChars (n + 1) (String.utf8EncodeChar c ++ rest) = c :: lossyChars n rest := by
  have hdecode : ByteArray.utf8DecodeChar? ⟨(String.utf8EncodeChar c ++ rest).toArray⟩ 0 = some c := by
    have happend : (⟨(String.utf8EncodeChar c ++ rest).toArray⟩ : ByteArray) =
        (String.utf8EncodeChar c).toByteArray ++ rest.toByteArray := by
      rw [← List.toByteArray_append]
      exact ByteArray.ext List.data_toByteArray.symm
    rw [happend, ByteArray.utf8DecodeChar?_utf8EncodeChar_append]
  have hdrop : (String.utf8EncodeChar c ++ rest).drop c.utf8Size = rest := List.drop_left' (String.length_utf8EncodeChar c)
  obtain ⟨b, bs, hcons⟩ := List.exists_cons_of_ne_nil (List.append_ne_nil_of_left_ne_nil (@String.utf8EncodeChar_ne_nil c) rest)
  rw [hcons] at hdecode hdrop ⊢
  rw [lossyChars, hdecode]
  dsimp only
  rw [hdrop]

/-- Whole characters come back as they are; of the one that is cut off, at most three bytes are left. -/
lemma length_lossyChars_take (n k : ℕ) (l : List Char) : (charBytes (lossyChars n ((charBytes l).take k))).length ≤ k + 12 := by
  induction l generalizing n k with
  | nil =>
    have hnil : (charBytes []).take k = [] := List.take_nil
    rw [hnil]
    cases n with
    | zero => exact Nat.zero_le _
    | succ n => exact Nat.zero_le _
  | cons c l ih =>
    have hlen := String.length_utf8EncodeChar c
    by_cases hc : c.utf8Size ≤ k
    · cases n with
      | zero => exact Nat.zero_le _
      | succ n =>
        have htake : (charBytes (c :: l)).take k = String.utf8EncodeChar c ++ (charBytes l).take (k - c.utf8Size) := by
          have hroom : (String.utf8EncodeChar c).length ≤ k := hlen ▸ hc
          rw [charBytes, List.flatMap_cons, List.take_append, hlen, List.take_of_length_le hroom, charBytes]
        have hrest := ih n (k - c.utf8Size)
        rw [htake, lossyChars_char, charBytes, List.flatMap_cons, List.length_append, hlen]
        rw [charBytes] at hrest
        omega
    · have hshort : ((charBytes (c :: l)).take k).length ≤ 3 := by
        have hfour := c.utf8Size_le_four
        rw [List.length_take]
        omega
      have hchars := length_lossyChars_le n ((charBytes (c :: l)).take k)
      have hbytes := length_charBytes_le (lossyChars n ((charBytes (c :: l)).take k))
      omega

/-- Text read back from the front of a text's bytes is hardly longer than what is read. -/
lemma length_fromUtf8Lossy_take (s : String) (k : ℕ) : (utf8 (fromUtf8Lossy ((utf8 s).take k))).length ≤ k + 12 := by
  unfold fromUtf8Lossy
  split
  · next t ht =>
    have hbytes : utf8 t = (utf8 s).take k := by
      rw [String.fromUTF8?] at ht
      split at ht
      · cases ht
        rfl
      · cases ht
    rw [hbytes, List.length_take]
    omega
  · rw [utf8_ofList, utf8_eq s]
    exact length_lossyChars_take _ k s.toList

end Lib
