import Mathlib

/-!
# Big-endian integers

`toBe n x` writes the low `n` bytes of `x`, most significant byte first, and `ofBe` reads a byte string
back. The two are inverse to each other on numbers below `256 ^ n` and on strings of `n` bytes; every
fixed-width integer of a wire format is an instance.
-/

namespace Lib

abbrev Bytes := List UInt8

/-- The low `n` bytes of `x`, most significant first. -/
def toBe : Nat → Nat → Bytes
  | 0, _ => []
  | n + 1, x => UInt8.ofNat (x / 256 ^ n) :: toBe n x

/-- The number a byte string denotes, most significant byte first. -/
def ofBe : Bytes → Nat
  | [] => 0
  | b :: bs => b.toNat * 256 ^ bs.length + ofBe bs

@[simp] lemma length_toBe (n x : Nat) : (toBe n x).length = n := by
  induction n with
  | zero => rfl
  | succ n ih => simp [toBe, ih]

/-- Only the low bytes matter. -/
lemma toBe_mod (n m x : Nat) (h : n ≤ m) : toBe n (x % 256 ^ m) = toBe n x := by
  induction n with
  | zero => rfl
  | succ n ih =>
    have e : (256 : Nat) ^ m = 256 ^ n * 256 ^ (m - n) := by rw [← pow_add]; congr 1; omega
    have hd : (256 : Nat) ∣ 256 ^ (m - n) := dvd_pow_self 256 (by omega)
    simp only [toBe, ih (by omega), List.cons.injEq, and_true]
    apply UInt8.toNat_inj.mp
    rw [UInt8.toNat_ofNat', UInt8.toNat_ofNat', e, Nat.mod_mul_right_div_self]
    exact Nat.mod_mod_of_dvd _ hd

/-- A byte string denotes a number below `256` to its length. -/
lemma ofBe_lt (bs : Bytes) : ofBe bs < 256 ^ bs.length := by
  induction bs with
  | nil => simp [ofBe]
  | cons b bs ih =>
    have hb : b.toNat ≤ 255 := by have := b.toNat_lt; omega
    simp only [ofBe, List.length_cons, pow_succ]
    nlinarith

/-- Reading what was written gives the number's low bytes. -/
lemma ofBe_toBe_mod (n x : Nat) : ofBe (toBe n x) = x % 256 ^ n := by
  induction n with
  | zero => simp [toBe, ofBe, Nat.mod_one]
  | succ n ih =>
    have e : (UInt8.ofNat (x / 256 ^ n)).toNat = x / 256 ^ n % 256 := UInt8.toNat_ofNat'
    simp only [toBe, ofBe, length_toBe, ih, e]
    rw [pow_succ, Nat.mod_mul, Nat.mul_comm, Nat.add_comm]

/-- Reading what was written is the identity on numbers that fit. -/
lemma ofBe_toBe {n x : Nat} (h : x < 256 ^ n) : ofBe (toBe n x) = x := by
  rw [ofBe_toBe_mod, Nat.mod_eq_of_lt h]

/-- Writing what was read is the identity. -/
lemma toBe_ofBe (bs : Bytes) : toBe bs.length (ofBe bs) = bs := by
  induction bs with
  | nil => rfl
  | cons b bs ih =>
    have hlt := ofBe_lt bs
    have hd : (b.toNat * 256 ^ bs.length + ofBe bs) / 256 ^ bs.length = b.toNat := by
      rw [Nat.add_comm, Nat.add_mul_div_right _ _ (by positivity), Nat.div_eq_of_lt hlt, Nat.zero_add]
    have hm : toBe bs.length (b.toNat * 256 ^ bs.length + ofBe bs) = toBe bs.length (ofBe bs) := by
      rw [← toBe_mod _ _ _ le_rfl, Nat.add_comm, Nat.add_mul_mod_self_right, Nat.mod_eq_of_lt hlt]
    simp only [List.length_cons, toBe, ofBe, hd, hm, ih, UInt8.ofNat_toNat]

section
variable (bs : Bytes)

/-- `u16::to_be_bytes`, `u32::to_be_bytes` and `u64::to_be_bytes`. -/
def be16 (x : UInt16) : Bytes := toBe 2 x.toNat

@[inherit_doc be16] def be32 (x : UInt32) : Bytes := toBe 4 x.toNat

@[inherit_doc be16] def be64 (x : UInt64) : Bytes := toBe 8 x.toNat

/-- `u16::from_be_bytes`, `u32::from_be_bytes` and `u64::from_be_bytes`. -/
def ofBe16 : UInt16 := UInt16.ofNat (ofBe bs)

@[inherit_doc ofBe16] def ofBe32 : UInt32 := UInt32.ofNat (ofBe bs)

@[inherit_doc ofBe16] def ofBe64 : UInt64 := UInt64.ofNat (ofBe bs)

@[simp] lemma length_be16 (x : UInt16) : (be16 x).length = 2 := length_toBe _ _

@[simp] lemma length_be32 (x : UInt32) : (be32 x).length = 4 := length_toBe _ _

@[simp] lemma length_be64 (x : UInt64) : (be64 x).length = 8 := length_toBe _ _

@[simp] lemma ofBe16_be16 (x : UInt16) : ofBe16 (be16 x) = x := by
  rw [ofBe16, be16, ofBe_toBe x.toNat_lt, UInt16.ofNat_toNat]

@[simp] lemma ofBe32_be32 (x : UInt32) : ofBe32 (be32 x) = x := by
  rw [ofBe32, be32, ofBe_toBe x.toNat_lt, UInt32.ofNat_toNat]

@[simp] lemma ofBe64_be64 (x : UInt64) : ofBe64 (be64 x) = x := by
  rw [ofBe64, be64, ofBe_toBe x.toNat_lt, UInt64.ofNat_toNat]

variable {bs}

lemma be16_ofBe16 (h : bs.length = 2) : be16 (ofBe16 bs) = bs := by
  have hlt := ofBe_lt bs
  rw [h] at hlt
  have e : (UInt16.ofNat (ofBe bs)).toNat = ofBe bs := UInt16.toNat_ofNat_of_lt' hlt
  rw [be16, ofBe16, e, ← h, toBe_ofBe]

lemma be32_ofBe32 (h : bs.length = 4) : be32 (ofBe32 bs) = bs := by
  have hlt := ofBe_lt bs
  rw [h] at hlt
  have e : (UInt32.ofNat (ofBe bs)).toNat = ofBe bs := UInt32.toNat_ofNat_of_lt' hlt
  rw [be32, ofBe32, e, ← h, toBe_ofBe]

lemma be64_ofBe64 (h : bs.length = 8) : be64 (ofBe64 bs) = bs := by
  have hlt := ofBe_lt bs
  rw [h] at hlt
  have e : (UInt64.ofNat (ofBe bs)).toNat = ofBe bs := UInt64.toNat_ofNat_of_lt' hlt
  rw [be64, ofBe64, e, ← h, toBe_ofBe]

lemma be16_injective : Function.Injective be16 := Function.LeftInverse.injective ofBe16_be16

lemma be64_injective : Function.Injective be64 := Function.LeftInverse.injective ofBe64_be64

end

end Lib
