import Mathlib

/-!
# Flag words and masks

A flag word is a `UInt16`; `f &&& m` reads the bits of the mask `m`, `f ||| m` sets them and
`f &&& ~~~m` clears them. These are the rules for reading one mask after another one was set or cleared.
-/

namespace Lib

variable (f m n : UInt16)

lemma and_or_distrib : (f ||| m) &&& n = f &&& n ||| m &&& n := by
  apply UInt16.toBitVec_inj.mp
  simp only [UInt16.toBitVec_and, UInt16.toBitVec_or]
  ext i hi
  simp [Bool.and_or_distrib_right]

/-- Clearing some bits and keeping only them gives back the word. -/
lemma clear_or_read : f &&& ~~~m ||| f &&& m = f := by
  apply UInt16.toBitVec_inj.mp
  simp only [UInt16.toBitVec_and, UInt16.toBitVec_or, UInt16.toBitVec_not]
  ext i hi
  simp only [BitVec.getElem_or, BitVec.getElem_and, BitVec.getElem_not]
  cases f.toBitVec[i] <;> cases m.toBitVec[i] <;> rfl

variable {f m n}

/-- Clearing bits that are clear changes nothing. -/
lemma clear_of_read_eq_zero (h : f &&& m = 0) : f &&& ~~~m = f := by
  have e := clear_or_read f m
  rwa [h, UInt16.or_zero] at e

/-- A mask that avoids the cleared bits reads what it read before. -/
lemma read_clear_of_disjoint (h : ~~~m &&& n = n) : (f &&& ~~~m) &&& n = f &&& n := by
  rw [UInt16.and_assoc, h]

/-- A mask inside the cleared bits reads zero. -/
lemma read_clear_of_subset (h : ~~~m &&& n = 0) : (f &&& ~~~m) &&& n = 0 := by
  rw [UInt16.and_assoc, h, UInt16.and_zero]

/-- A mask that avoids the set bits reads what it read before. -/
lemma read_set_of_disjoint (h : m &&& n = 0) : (f ||| m) &&& n = f &&& n := by
  rw [and_or_distrib, h, UInt16.or_zero]

/-- A mask that meets the set bits does not read zero. -/
lemma read_set_ne_zero (h : m &&& n ≠ 0) : (f ||| m) &&& n ≠ 0 := by
  intro e
  rw [and_or_distrib, UInt16.or_eq_zero_iff] at e
  exact h e.2

/-- A one-bit mask reads zero or itself. -/
lemma read_bit (i : Nat) (h : m.toBitVec = BitVec.twoPow 16 i) (hf : f &&& m ≠ 0) : f &&& m = m := by
  rw [Ne, ← UInt16.toBitVec_inj, UInt16.toBitVec_and, h, BitVec.and_twoPow] at hf
  rw [← UInt16.toBitVec_inj, UInt16.toBitVec_and, h, BitVec.and_twoPow]
  split at hf
  · rw [if_pos ‹_›]
  · exact absurd rfl hf

end Lib
