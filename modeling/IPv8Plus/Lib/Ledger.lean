import Mathlib

/-!
# Copies that are passed on

Items are passed on: an item is used up, and the one that comes out of it is in flight from then on. An item that is
not in flight when it is passed on has entered from outside. If passing on keeps a key and raises a rank by one, then
no more items of a key are passed on at one rank than have entered (`passed_le_entered`).
-/

namespace Lib

structure Ledger (π : Type) where
  flying : List π
  entered : List π
  passed : List π

namespace Ledger

variable {π κ : Type}

def empty : Ledger π := ⟨[], [], []⟩

/-- The item `a` is passed on as `b`. -/
def pass [DecidableEq π] (l : Ledger π) (a b : π) : Ledger π where
  flying := b :: l.flying.erase a
  entered := if a ∈ l.flying then l.entered else a :: l.entered
  passed := a :: l.passed

variable [DecidableEq κ] (key : π → κ) (rank : π → Nat)

/-- What entered under a key covers what was passed on at a rank, and what is in flight up to this rank. -/
def Covered (l : Ledger π) : Prop :=
  ∀ x p, l.passed.countP (fun a => key a = x ∧ rank a = p) + l.flying.countP (fun a => key a = x ∧ rank a ≤ p) ≤
    l.entered.countP (fun a => key a = x)

variable {key rank} {l : Ledger π} {a b : π}

lemma covered_empty : (empty : Ledger π).Covered key rank := fun _ _ => Nat.le_refl 0

/-- An item in flight is counted. -/
lemma countP_erase [DecidableEq π] {P : π → Prop} [DecidablePred P] {items : List π} (h : a ∈ items) :
    items.countP P = (if P a then 1 else 0) + (items.erase a).countP P := by
  rw [(List.perm_cons_erase h).countP_eq, List.countP_cons, Nat.add_comm]
  by_cases ha : P a
  · rw [if_pos ha, if_pos (decide_eq_true ha)]
  · rw [if_neg ha, if_neg (by rw [decide_eq_true_eq]; exact ha)]

theorem Covered.pass [DecidableEq π] (h : l.Covered key rank) (hkey : key b = key a) (hrank : rank b = rank a + 1) :
    (l.pass a b).Covered key rank := by
  intro x p
  have hold := h x p
  by_cases hx : key a = x
  · by_cases hin : a ∈ l.flying
    · have hfly := countP_erase (P := fun a => key a = x ∧ rank a ≤ p) hin
      simp only [Ledger.pass, List.countP_cons, if_pos hin, hkey, hrank, hx, true_and, decide_eq_true_eq] at hfly ⊢
      split_ifs at hfly ⊢ <;> omega
    · have hfly : (l.flying.erase a) = l.flying := List.erase_of_not_mem hin
      simp only [Ledger.pass, List.countP_cons, if_neg hin, hfly, hkey, hrank, hx, true_and, decide_eq_true_eq, if_true]
      split_ifs <;> omega
  · have hfly : (l.flying.erase a).countP (fun a => key a = x ∧ rank a ≤ p) =
        l.flying.countP (fun a => key a = x ∧ rank a ≤ p) := by
      by_cases hin : a ∈ l.flying
      · have hcount := countP_erase (P := fun a => key a = x ∧ rank a ≤ p) hin
        rw [if_neg fun hp => hx hp.1, Nat.zero_add] at hcount
        exact hcount.symm
      · rw [List.erase_of_not_mem hin]
    have hentered : (if a ∈ l.flying then l.entered else a :: l.entered).countP (fun a => key a = x) =
        l.entered.countP (fun a => key a = x) := by
      split
      · rfl
      · exact List.countP_cons_of_neg (by rw [decide_eq_true_eq]; exact hx)
    simp only [Ledger.pass, List.countP_cons, hfly, hentered, hkey, hx, false_and, decide_false, Bool.false_eq_true,
      if_false]
    omega

/-- As many items of a key enter as are passed on at any one rank. -/
lemma Covered.passed_le_entered (h : l.Covered key rank) (x : κ) (p : Nat) :
    l.passed.countP (fun a => key a = x ∧ rank a = p) ≤ l.entered.countP (fun a => key a = x) :=
  (Nat.le_add_right _ _).trans (h x p)

/-- Items of a key that are passed on at ranks below `n` only. -/
theorem Covered.passed_le_mul (h : l.Covered key rank) {x : κ} {n : Nat}
    (hbelow : ∀ a ∈ l.passed, key a = x → rank a < n) :
    l.passed.countP (fun a => key a = x) ≤ n * l.entered.countP (fun a => key a = x) := by
  have hsum : ∀ items : List π, (∀ a ∈ items, key a = x → rank a < n) →
      items.countP (fun a => key a = x) =
        ∑ p ∈ Finset.range n, items.countP (fun a => key a = x ∧ rank a = p) := by
    intro items
    induction items with
    | nil => exact fun _ => by simp
    | cons a items ih =>
      intro hb
      rw [List.forall_mem_cons] at hb
      simp only [List.countP_cons, Finset.sum_add_distrib, ← ih hb.2, decide_eq_true_eq]
      by_cases hx : key a = x
      · have hmem : rank a ∈ Finset.range n := Finset.mem_range.mpr (hb.1 hx)
        simp only [hx, true_and, if_true, Finset.sum_ite_eq, if_pos hmem]
      · simp only [hx, false_and, if_false, Finset.sum_const_zero]
  rw [hsum l.passed hbelow]
  calc ∑ p ∈ Finset.range n, l.passed.countP (fun a => key a = x ∧ rank a = p)
      ≤ ∑ _p ∈ Finset.range n, l.entered.countP (fun a => key a = x) :=
        Finset.sum_le_sum fun p _ => h.passed_le_entered x p
    _ = n * l.entered.countP (fun a => key a = x) := by
        rw [Finset.sum_const, Finset.card_range, smul_eq_mul]

end Ledger

end Lib
