import IPv8Plus.Lib.BigEndian

/-!
# Words of 64 bits

Saturating arithmetic, and the top bit and the top byte of a word: what `c ||| 2 ^ 63` and
`c &&& (2 ^ 56 - 1)` are as numbers, and where the two show in the big-endian bytes.
-/

namespace Lib

/-- `u64::saturating_add`, `u64::saturating_sub` and `u64::saturating_mul`. -/
def satAdd (a b : UInt64) : UInt64 := UInt64.ofNat (min (a.toNat + b.toNat) (2 ^ 64 - 1))

@[inherit_doc satAdd] def satSub (a b : UInt64) : UInt64 := UInt64.ofNat (a.toNat - b.toNat)

@[inherit_doc satAdd] def satMul (a b : UInt64) : UInt64 := UInt64.ofNat (min (a.toNat * b.toNat) (2 ^ 64 - 1))

/-- The top bit of a word. -/
def topBit : UInt64 := 0x8000000000000000

instance lawfulOrderMax : Std.LawfulOrderMax UInt64 where
  max_le_iff := by
    intro a b c
    show (if a ≤ b then b else a) ≤ c ↔ _
    split
    · next h => exact ⟨fun hb => ⟨UInt64.le_trans h hb, hb⟩, And.right⟩
    · next h => exact ⟨fun ha => ⟨ha, UInt64.le_trans (UInt64.le_of_lt (UInt64.not_le.mp h)) ha⟩, And.left⟩
  max_eq_or := by
    intro a b
    show (if a ≤ b then b else a) = a ∨ (if a ≤ b then b else a) = b
    split
    · exact .inr rfl
    · exact .inl rfl

variable {a b c : UInt64}

lemma toNat_satAdd : (satAdd a b).toNat = min (a.toNat + b.toNat) (2 ^ 64 - 1) := by
  apply UInt64.toNat_ofNat_of_lt'
  exact Nat.lt_of_le_of_lt (Nat.min_le_right _ _) (by decide)

lemma toNat_satSub : (satSub a b).toNat = a.toNat - b.toNat := by
  apply UInt64.toNat_ofNat_of_lt'
  exact Nat.lt_of_le_of_lt (Nat.sub_le _ _) a.toNat_lt

@[simp] lemma satMul_one : satMul 1 a = a := by
  have h := a.toNat_lt
  have e : min ((1 : UInt64).toNat * a.toNat) (2 ^ 64 - 1) = a.toNat := by
    rw [UInt64.toNat_one, Nat.one_mul]
    omega
  rw [satMul, e, UInt64.ofNat_toNat]

/-- `b` is above `a + s`, saturated, exactly when it is above the sum. -/
lemma satAdd_lt {s : UInt64} : satAdd a s < b ↔ a.toNat + s.toNat < b.toNat := by
  have h := b.toNat_lt
  rw [UInt64.lt_iff_toNat_lt, toNat_satAdd]
  omega

/-- `a` is at least `b - s`, saturated, exactly when `b` is at most the sum. -/
lemma satSub_le {s : UInt64} : satSub b s ≤ a ↔ b.toNat ≤ a.toNat + s.toNat := by
  rw [UInt64.le_iff_toNat_le, toNat_satSub]
  omega

lemma toNat_max (a b : UInt64) : (max a b).toNat = max a.toNat b.toNat := by
  show (if a ≤ b then b else a).toNat = _
  split
  · next h => exact (max_eq_right (UInt64.le_iff_toNat_le.mp h)).symm
  · next h => exact (max_eq_left (UInt64.le_iff_toNat_le.mp (UInt64.le_of_lt (UInt64.not_le.mp h)))).symm

lemma toNat_min (a b : UInt64) : (min a b).toNat = min a.toNat b.toNat := by
  show (if a ≤ b then a else b).toNat = _
  split
  · next h => exact (min_eq_left (UInt64.le_iff_toNat_le.mp h)).symm
  · next h => exact (min_eq_right (UInt64.le_iff_toNat_le.mp (UInt64.le_of_lt (UInt64.not_le.mp h)))).symm

/-- Setting the top bit keeps the others. -/
lemma toNat_or_topBit : (c ||| topBit).toNat = c.toNat % 2 ^ 63 + 2 ^ 63 := by
  have hm : (c.toNat ||| 2 ^ 63) % 2 ^ 63 = c.toNat % 2 ^ 63 := by
    rw [Nat.or_mod_two_pow, Nat.mod_self, Nat.or_zero]
  have hd : (c.toNat ||| 2 ^ 63) / 2 ^ 63 = 1 := by
    have hc : c.toNat / 2 ^ 63 = 0 ∨ c.toNat / 2 ^ 63 = 1 := by
      have := c.toNat_lt
      omega
    rw [Nat.or_div_two_pow, Nat.div_self (by decide)]
    rcases hc with e | e
    · rw [e]; rfl
    · rw [e]; rfl
  have h := Nat.div_add_mod (c.toNat ||| 2 ^ 63) (2 ^ 63)
  rw [hm, hd] at h
  rw [UInt64.toNat_or, show topBit.toNat = 2 ^ 63 from rfl]
  omega

/-- The lower seven bytes of a word. -/
lemma toNat_and_lowBytes : (c &&& 0x00FFFFFFFFFFFFFF).toNat = c.toNat % 2 ^ 56 := by
  rw [UInt64.toNat_and]
  exact Nat.and_two_pow_sub_one_eq_mod c.toNat 56

/-- The first byte of the big-endian form, and the others. -/
lemma be64_eq_cons (c : UInt64) : be64 c = UInt8.ofNat (c.toNat / 2 ^ 56) :: toBe 7 c.toNat := rfl

/-- Setting the top bit shows in the first byte alone. -/
lemma be64_or_topBit (c : UInt64) :
    be64 (c ||| topBit) = (UInt8.ofNat (c.toNat / 2 ^ 56) ||| 0x80) :: toBe 7 c.toNat := by
  rw [be64_eq_cons]
  congr 1
  · apply UInt8.toNat_inj.mp
    rw [UInt8.toNat_or, UInt8.toNat_ofNat', UInt8.toNat_ofNat', UInt64.toNat_or, Nat.or_div_two_pow,
      Nat.or_mod_two_pow]
    rfl
  · rw [← toBe_mod 7 7 _ le_rfl, UInt64.toNat_or, show (256 : Nat) ^ 7 = 2 ^ 56 by norm_num,
      Nat.or_mod_two_pow, show topBit.toNat % 2 ^ 56 = 0 from rfl, Nat.or_zero,
      show (2 : Nat) ^ 56 = 256 ^ 7 by norm_num, toBe_mod 7 7 _ le_rfl]

/-- What a word reads as once its first byte is replaced and masked away. -/
lemma ofBe64_mask_cons (b : UInt8) (c : UInt64) :
    (ofBe64 (b :: toBe 7 c.toNat) &&& 0x00FFFFFFFFFFFFFF).toNat = c.toNat % 2 ^ 56 := by
  have hlow : ofBe (toBe 7 c.toNat) = c.toNat % 2 ^ 56 := ofBe_toBe_mod 7 c.toNat
  have h64 : ofBe (b :: toBe 7 c.toNat) < 2 ^ 64 := by
    have := ofBe_lt (b :: toBe 7 c.toNat)
    rw [List.length_cons, length_toBe] at this
    exact this
  rw [toNat_and_lowBytes, ofBe64, UInt64.toNat_ofNat_of_lt' h64, ofBe, length_toBe, hlow,
    show (256 : Nat) ^ 7 = 2 ^ 56 by norm_num, Nat.add_comm, Nat.add_mul_mod_self_right, Nat.mod_mod]

/-- Also a counter of 32 bits that wraps moves with every step. -/
lemma succ_ne_self (x : UInt32) : x + 1 ≠ x := by
  intro h
  exact absurd (UInt32.add_eq_left.mp h) (by decide)

end Lib
