import Mathlib

/-!
# Rankings

Values are sorted by a comparison. If no two of them compare as equal, they stand in strict order afterwards, in the only
one there is: in whatever order they are given.
-/

namespace Lib

variable {α : Type} (cmp : α → α → Ordering)

/-- The values by their rank. -/
def ranked (l : List α) : List α := l.mergeSort fun x y => (cmp x y).isLE

variable {cmp} {l l' : List α}

lemma ranked_perm : (ranked cmp l).Perm l := List.mergeSort_perm _ _

variable [Std.TransCmp cmp]

lemma compare_ne_eq_symm {x y : α} (h : cmp x y ≠ .eq) : cmp y x ≠ .eq := fun hyx => h (Std.OrientedCmp.eq_comm.mp hyx)

lemma pairwise_ranked : (ranked cmp l).Pairwise fun x y => (cmp x y).isLE = true := by
  apply List.pairwise_mergeSort
  · intro x y z hxy hyz
    exact Std.TransCmp.isLE_trans hxy hyz
  · intro x y
    have hswap : cmp y x = (cmp x y).swap := Std.OrientedCmp.eq_swap
    rw [hswap, Bool.or_eq_true]
    cases cmp x y with
    | lt => exact .inl rfl
    | eq => exact .inl rfl
    | gt => exact .inr rfl

/-- Values of different rank stand in strict order. -/
lemma pairwise_ranked_lt (h : l.Pairwise fun x y => cmp x y ≠ .eq) : (ranked cmp l).Pairwise fun x y => cmp x y = .lt := by
  have hne : (ranked cmp l).Pairwise fun x y => cmp x y ≠ .eq :=
    (ranked_perm.pairwise_iff compare_ne_eq_symm).mpr h
  refine (pairwise_ranked.and hne).imp ?_
  rintro x y ⟨hle, hxy⟩
  cases hcmp : cmp x y with
  | lt => rfl
  | eq => exact absurd hcmp hxy
  | gt =>
    rw [hcmp] at hle
    cases hle

/-- In whatever order they are given. -/
lemma ranked_eq_of_perm (hperm : l.Perm l') (h : l.Pairwise fun x y => cmp x y ≠ .eq) : ranked cmp l = ranked cmp l' := by
  have hne : l'.Pairwise fun x y => cmp x y ≠ .eq := (hperm.symm.pairwise_iff compare_ne_eq_symm).mpr h
  have hsame : (ranked cmp l).Perm (ranked cmp l') := ranked_perm.trans (hperm.trans ranked_perm.symm)
  refine List.Perm.eq_of_pairwise ?_ (pairwise_ranked_lt h) (pairwise_ranked_lt hne) hsame
  intro x y _ _ hxy hyx
  have hswap : cmp y x = (cmp x y).swap := Std.OrientedCmp.eq_swap
  rw [hyx, hxy] at hswap
  cases hswap

end Lib
