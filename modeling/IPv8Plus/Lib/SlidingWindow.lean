import Mathlib

/-!
# Sliding windows

Replay protection with bounded memory. `Admits width seen c` is the policy: a number is let in if it was
not seen before and is less than `width` below every number seen so far. `Represents width top mask seen`
says that the largest number seen and a bit mask of the numbers below it carry enough of `seen` to decide
the policy. The rules cover the three things a window does: start empty, move up to a new largest number,
and mark a number inside the window.
-/

namespace Lib

/-- The policy: not seen before, and less than `width` below everything seen. -/
def Admits (width : Nat) (seen : Set Nat) (c : Nat) : Prop :=
  c ∉ seen ∧ ∀ a ∈ seen, a < c + width

/-- `top` is the largest number seen, 0 if none was, and bit `k` of `mask` says whether `top - k` was. -/
structure Represents {w : Nat} (width top : Nat) (mask : BitVec w) (seen : Set Nat) : Prop where
  pos : 0 ∉ seen
  le_top : ∀ c ∈ seen, c ≤ top
  top_mem : 0 < top → top ∈ seen
  bit : ∀ k < width, mask.getLsbD k = true ↔ k ≤ top ∧ top - k ∈ seen

variable {w width top c : Nat} {mask : BitVec w} {seen : Set Nat}

lemma represents_empty : Represents width 0 (0 : BitVec w) ∅ where
  pos := id
  le_top := nofun
  top_mem := nofun
  bit := by
    intro k _
    simp

/-- A number above the largest one is let in. -/
lemma Represents.admits_above (h : Represents width top mask seen) (hc : top < c) :
    Admits width seen c := by
  constructor
  · intro hmem
    exact absurd (h.le_top c hmem) (Nat.not_le.mpr hc)
  · intro a ha
    have hle := h.le_top a ha
    omega

/-- A number that is not above is let in if it is inside the window and not marked. -/
lemma Represents.admits_below (h : Represents width top mask seen) (h0 : 0 < c) (hc : c ≤ top) :
    Admits width seen c ↔ top - c < width ∧ mask.getLsbD (top - c) = false := by
  have hback : top - (top - c) = c := Nat.sub_sub_self hc
  have htop : top ∈ seen := h.top_mem (Nat.lt_of_lt_of_le h0 hc)
  constructor
  · rintro ⟨hnew, hnear⟩
    have hw : top - c < width := by
      have := hnear top htop
      omega
    refine ⟨hw, ?_⟩
    cases e : mask.getLsbD (top - c) with
    | false => rfl
    | true =>
      have hold := ((h.bit _ hw).mp e).2
      rw [hback] at hold
      exact absurd hold hnew
  · rintro ⟨hw, e⟩
    constructor
    · intro hmem
      have e' := (h.bit _ hw).mpr ⟨Nat.sub_le _ _, by rw [hback]; exact hmem⟩
      rw [e] at e'
      cases e'
    · intro a ha
      have hle := h.le_top a ha
      omega

lemma getLsbD_one_iff {k : Nat} (hw : 0 < w) : (1 : BitVec w).getLsbD k = true ↔ k = 0 := by
  rw [show (1 : BitVec w) = 1#w from rfl, BitVec.getLsbD_one]
  simp [hw]

lemma getLsbD_bit_iff {d k : Nat} (hk : k < w) : ((1 : BitVec w) <<< d).getLsbD k = true ↔ k = d := by
  rw [BitVec.getLsbD_shiftLeft, Bool.and_eq_true, getLsbD_one_iff (Nat.zero_lt_of_lt hk)]
  simp only [hk, decide_true, Bool.true_and, Bool.not_eq_true', decide_eq_false_iff_not]
  omega

/-- Testing a bit with a mask. -/
lemma and_bit_ne_zero {d : Nat} (hd : d < w) : mask &&& (1 : BitVec w) <<< d ≠ 0 ↔ mask.getLsbD d = true := by
  constructor
  · intro h
    by_contra hbit
    apply h
    apply BitVec.eq_of_getLsbD_eq
    intro k hk
    rw [BitVec.getLsbD_and, show (0 : BitVec w) = 0#w from rfl, BitVec.getLsbD_zero, Bool.and_eq_false_iff]
    by_cases e : k = d
    · exact .inl (e ▸ Bool.eq_false_iff.mpr hbit)
    · exact .inr (Bool.eq_false_iff.mpr fun h1 => e ((getLsbD_bit_iff hk).mp h1))
  · intro hbit e
    have h := congrArg (BitVec.getLsbD · d) e
    simp only [BitVec.getLsbD_and, hbit, (getLsbD_bit_iff hd).mpr rfl] at h
    simp at h

/-- The bits of a mask that was moved by `d` and marked at 0. -/
lemma getLsbD_moved {d k : Nat} (hk : k < w) :
    (if width ≤ d then 1 else mask <<< d ||| 1 : BitVec w).getLsbD k = true ↔
      k = 0 ∨ d < width ∧ d ≤ k ∧ mask.getLsbD (k - d) = true := by
  have hone : (1 : BitVec w).getLsbD k = true ↔ k = 0 := getLsbD_one_iff (Nat.zero_lt_of_lt hk)
  split
  · next hd => rw [hone, iff_self_or]; exact fun h => absurd h.1 (Nat.not_lt.mpr hd)
  · next hd =>
    rw [BitVec.getLsbD_or, BitVec.getLsbD_shiftLeft, Bool.or_eq_true, hone]
    simp only [hk, Nat.lt_of_not_le hd, decide_true, Bool.true_and, Bool.and_eq_true, Bool.not_eq_true',
      decide_eq_false_iff_not, Nat.not_lt, true_and]
    exact or_comm

/-- Move the window up to a new largest number: the old marks move away from it. -/
lemma Represents.advance (h : Represents width top mask seen) (hw : width ≤ w) (hc : top < c) :
    Represents width c (if width ≤ c - top then 1 else mask <<< (c - top) ||| 1) (insert c seen) where
  pos := by
    rintro (e | hmem)
    · omega
    · exact h.pos hmem
  le_top := by
    rintro a (rfl | ha)
    · exact le_rfl
    · exact (h.le_top a ha).trans hc.le
  top_mem := fun _ => Set.mem_insert _ _
  bit := by
    intro k hk
    rw [getLsbD_moved (Nat.lt_of_lt_of_le hk hw)]
    constructor
    · rintro (rfl | ⟨hd, hle, hbit⟩)
      · exact ⟨Nat.zero_le _, .inl rfl⟩
      · obtain ⟨hle', hmem⟩ := (h.bit _ (by omega)).mp hbit
        have e : c - k = top - (k - (c - top)) := by omega
        exact ⟨by omega, .inr (e ▸ hmem)⟩
    · rintro ⟨hle, e | hmem⟩
      · exact .inl (by omega)
      · -- an old number in the window: it is not 0, so it is not below the old window
        have hk' := h.le_top _ hmem
        have hck : c - k ≠ 0 := fun e0 => h.pos (e0 ▸ hmem)
        have e : c - k = top - (k - (c - top)) := by omega
        exact .inr ⟨by omega, by omega, (h.bit _ (by omega)).mpr ⟨by omega, e ▸ hmem⟩⟩

/-- Mark a number inside the window. -/
lemma Represents.mark (h : Represents width top mask seen) (hw : width ≤ w) (h0 : 0 < c) (hc : c ≤ top)
    (hback : top - c < width) : Represents width top (mask ||| (1 : BitVec w) <<< (top - c)) (insert c seen) where
  pos := by
    rintro (e | hmem)
    · omega
    · exact h.pos hmem
  le_top := by
    rintro a (rfl | ha)
    · exact hc
    · exact h.le_top a ha
  top_mem := fun ht => .inr (h.top_mem ht)
  bit := by
    intro k hk
    have hkw : k < w := Nat.lt_of_lt_of_le hk hw
    rw [BitVec.getLsbD_or, Bool.or_eq_true, h.bit k hk, getLsbD_bit_iff hkw]
    constructor
    · rintro (⟨hle, hmem⟩ | rfl)
      · exact ⟨hle, .inr hmem⟩
      · exact ⟨Nat.sub_le _ _, .inl (Nat.sub_sub_self hc)⟩
    · rintro ⟨hle, e | hmem⟩
      · exact .inr (by omega)
      · exact .inl ⟨hle, hmem⟩

end Lib
