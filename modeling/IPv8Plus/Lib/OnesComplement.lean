import IPv8Plus.Lib.IpPacket

/-!
# One's complement sums

The internet checksum: words of 16 bits are added, and the carries are added back in. Such sums are numbers modulo 65535 in
which zero has two forms; a checksum is what is missing from a sum to 65535. A word at an even offset can be taken out of a
sum and put into it.
-/

namespace Lib

/-- The sum of the words of a byte string; a last byte without a partner is the high byte of its word. -/
def sum16 : Bytes → Nat
  | a :: b :: rest => a.toNat * 256 + b.toNat + sum16 rest
  | [a] => a.toNat * 256
  | [] => 0

/-- A number with its carries folded in: the number of the same residue in 1 to 65535, and zero for zero. -/
def folded (n : Nat) : Nat := if n = 0 then 0 else (n - 1) % 65535 + 1

/-- What is missing from a sum. -/
def complement (n : Nat) : UInt16 := ~~~ UInt16.ofNat (folded n)

/-- A word written in place. -/
def putWord (p : Bytes) (i : Nat) (w : UInt16) : Bytes := (p.set i (w >>> 8).toUInt8).set (i + 1) w.toUInt8

variable {p q : Bytes} {i j n m : Nat} {w : UInt16}

/-! ## Folding -/

lemma folded_le (n : Nat) : folded n ≤ 65535 := by
  unfold folded
  split_ifs <;> omega

lemma folded_of_le (h : n ≤ 65535) : folded n = n := by
  unfold folded
  split_ifs <;> omega

/-- One turn of folding does not change what is folded. -/
lemma folded_turn (n : Nat) : folded (n % 65536 + n / 65536) = folded n := by
  unfold folded
  split_ifs <;> omega

lemma folded_add_left (n m : Nat) : folded (folded n + m) = folded (n + m) := by
  unfold folded
  split_ifs <;> omega

lemma folded_add (n m : Nat) : folded (folded n + folded m) = folded (n + m) := by
  rw [folded_add_left, Nat.add_comm, folded_add_left, Nat.add_comm]

lemma toNat_complement (n : Nat) : (complement n).toNat = 65535 - folded n := by
  have hle := folded_le n
  have hnat : (UInt16.ofNat (folded n)).toNat = folded n := UInt16.toNat_ofNat_of_lt' (Nat.lt_succ_of_le hle)
  rw [complement, UInt16.toNat_not, hnat]
  rfl

/-- A sum and its complement make 65535. -/
lemma folded_add_complement (n : Nat) : folded (n + (complement n).toNat) = 65535 := by
  rw [toNat_complement]
  unfold folded
  split_ifs <;> omega

lemma complement_folded_add (n m : Nat) : complement (folded n + folded m) = complement (n + m) := by
  rw [complement, folded_add, complement]

/-! ## Sums of byte strings -/

lemma sum16_le (p : Bytes) : sum16 p ≤ 65535 * ((p.length + 1) / 2) := by
  induction p using sum16.induct with
  | case1 a b rest ih =>
    have ha := a.toNat_lt
    have hb := b.toNat_lt
    rw [sum16, List.length_cons, List.length_cons]
    omega
  | case2 a =>
    have ha := a.toNat_lt
    rw [sum16, List.length_singleton]
    omega
  | case3 => exact Nat.zero_le _

lemma toNat_ofBe16_pair (a b : UInt8) : (ofBe16 [a, b]).toNat = a.toNat * 256 + b.toNat := by
  have ha := a.toNat_lt
  have hb := b.toNat_lt
  have hvalue : ofBe [a, b] = a.toNat * 256 + b.toNat := by simp [ofBe]
  rw [ofBe16, hvalue]
  exact UInt16.toNat_ofNat_of_lt' (by rw [UInt16.size]; omega)

lemma toNat_word (p : Bytes) (i : Nat) : (word p i).toNat = (octet p i).toNat * 256 + (octet p (i + 1)).toNat :=
  toNat_ofBe16_pair _ _

/-! ## Words in place -/

@[simp] lemma length_putWord : (putWord p i w).length = p.length := by
  rw [putWord, List.length_set, List.length_set]

lemma octet_set (h : i < p.length) (b : UInt8) : octet (p.set i b) i = b := by
  rw [octet, List.getD_eq_getElem?_getD, List.getElem?_set_self h]
  rfl

lemma octet_set_ne (h : i ≠ j) (b : UInt8) : octet (p.set i b) j = octet p j := by
  rw [octet, octet, List.getD_eq_getElem?_getD, List.getD_eq_getElem?_getD, List.getElem?_set_ne h]

lemma octet_putWord_high (h : i + 1 < p.length) : octet (putWord p i w) i = (w >>> 8).toUInt8 := by
  rw [putWord, octet_set_ne (Nat.succ_ne_self i), octet_set (Nat.lt_of_succ_lt h)]

lemma octet_putWord_low (h : i + 1 < p.length) : octet (putWord p i w) (i + 1) = w.toUInt8 := by
  rw [putWord, octet_set]
  rwa [List.length_set]

lemma octet_putWord_ne (h : j ≠ i) (h' : j ≠ i + 1) : octet (putWord p i w) j = octet p j := by
  rw [putWord, octet_set_ne h'.symm, octet_set_ne h.symm]

lemma halves (w : UInt16) : (w >>> 8).toUInt8.toNat * 256 + w.toUInt8.toNat = w.toNat := by
  have hlt := w.toNat_lt
  rw [UInt16.toNat_toUInt8, UInt16.toNat_toUInt8, UInt16.toNat_shiftRight, Nat.shiftRight_eq_div_pow]
  change w.toNat / 256 % 256 * 256 + w.toNat % 256 = w.toNat
  omega

lemma word_putWord (h : i + 1 < p.length) : word (putWord p i w) i = w := by
  apply UInt16.toNat_inj.mp
  rw [toNat_word, octet_putWord_high h, octet_putWord_low h, halves]

lemma word_putWord_ne (h : j + 1 < i ∨ i + 1 < j) : word (putWord p i w) j = word p j := by
  rw [word, word, octet_putWord_ne (by omega) (by omega), octet_putWord_ne (by omega) (by omega)]

lemma putWord_cons_cons (a b : UInt8) (rest : Bytes) : putWord (a :: b :: rest) (i + 2) w = a :: b :: putWord rest i w := rfl

lemma word_cons_cons (a b : UInt8) (rest : Bytes) : word (a :: b :: rest) (i + 2) = word rest i := rfl

/-- A word at an even offset of a sum gives way to another. -/
lemma sum16_putWord (h : i + 1 < p.length) (heven : i % 2 = 0) : sum16 (putWord p i w) + (word p i).toNat = sum16 p + w.toNat := by
  induction p using sum16.induct generalizing i with
  | case1 a b rest ih =>
    match i with
    | 0 =>
      rw [toNat_word, show putWord (a :: b :: rest) 0 w = (w >>> 8).toUInt8 :: w.toUInt8 :: rest from rfl, sum16, sum16, halves]
      change w.toNat + sum16 rest + (a.toNat * 256 + b.toNat) = a.toNat * 256 + b.toNat + sum16 rest + w.toNat
      omega
    | 1 => cases heven
    | i + 2 =>
      rw [List.length_cons, List.length_cons] at h
      have hrest := ih (i := i) (by omega) (by omega)
      rw [putWord_cons_cons, word_cons_cons, sum16, sum16]
      omega
  | case2 a => exact absurd h (by rw [List.length_singleton]; omega)
  | case3 => exact absurd h (Nat.not_lt_zero _)

lemma putWord_putWord (w' : UInt16) : putWord (putWord p i w) i w' = putWord p i w' := by
  rw [putWord, putWord, List.set_comm _ _ (Nat.succ_ne_self i), List.set_set, List.set_set, putWord]

lemma drop_putWord (h : j + 1 < i) : (putWord p j w).drop i = p.drop i := by
  rw [putWord, List.drop_set_of_lt h, List.drop_set_of_lt (Nat.lt_of_succ_lt h)]

lemma drop_putWord_add (p : Bytes) (i j : Nat) (w : UInt16) : (putWord p (i + j) w).drop i = putWord (p.drop i) j w := by
  rw [putWord, List.drop_set, if_neg (by omega), List.drop_set, if_neg (by omega), putWord]
  congr 2 <;> omega

lemma take_putWord (h : i ≤ j) : (putWord p j w).take i = p.take i := by
  rw [putWord, List.take_set_of_le (Nat.le_succ_of_le h), List.take_set_of_le h]

lemma take_putWord_of_lt (w : UInt16) : (putWord p j w).take i = putWord (p.take i) j w := by
  rw [putWord, List.take_set, List.take_set, putWord]

lemma putWord_take_append_drop (h : i + 1 < j) : putWord (p.take j) i w ++ p.drop j = putWord p i w := by
  rw [← take_putWord_of_lt, ← drop_putWord (p := p) (w := w) h, List.take_append_drop]

/-- **A checksum makes the sum whole.** It is the complement of the sum without it, at an even offset. -/
theorem folded_checksum (base : Nat) (h : i + 1 < p.length) (heven : i % 2 = 0) :
    folded (base + sum16 (putWord p i (complement (base + sum16 (putWord p i 0))))) = 65535 := by
  have hzero := sum16_putWord (w := 0) h heven
  have hput := sum16_putWord (w := complement (base + sum16 (putWord p i 0))) h heven
  rw [UInt16.toNat_zero] at hzero
  rw [show sum16 (putWord p i (complement (base + sum16 (putWord p i 0)))) =
    sum16 (putWord p i 0) + (complement (base + sum16 (putWord p i 0))).toNat by omega, ← Nat.add_assoc]
  exact folded_add_complement _

end Lib
