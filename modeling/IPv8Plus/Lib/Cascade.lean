import Mathlib

/-!
# Cascades

Alternatives are tried in order. Each of them is left when its budget of failures is spent, or at once after a hard
failure; when the last one is left, the cascade is down for some time, and then begins again with the first.
-/

namespace Lib

/-- The failures that an alternative may have before it is left, and for how long a cascade is down. -/
structure Cascade (α : Type) where
  entries : List α
  retries : Nat
  cooldown : Nat

namespace Cascade

/-- The alternative that is tried, and its failures; or since when the cascade is down, and whether it has failed
again. -/
inductive Stage where
  | trying (i spent : Nat)
  | down (again : Bool) (since : Nat)
  deriving DecidableEq, Repr

variable {α : Type} (C : Cascade α)

def fail (hard : Bool) (now : Nat) : Stage → Stage
  | .trying i spent =>
    if hard = true ∨ C.retries ≤ spent then
      if i + 1 < C.entries.length then .trying (i + 1) 0 else .down false now
    else .trying i (spent + 1)
  | .down _ since => .down true since

/-- The time is over when somebody asks. -/
def ask (now : Nat) : Stage → Stage
  | .trying i spent => .trying i spent
  | .down again since => if now - since < C.cooldown then .down again since else .trying 0 0

/-- Failures that an alternative is left after: the budget is spent, or the last one is hard. -/
def Exhausts (retries : Nat) (failures : List Bool) : Prop :=
  failures = List.replicate (retries + 1) false ∨ ∃ n ≤ retries, failures = List.replicate n false ++ [true]

variable {C} {i spent : Nat} {now : Nat}

/-- The entry after this one. -/
def next (C : Cascade α) (i now : Nat) : Stage := if i + 1 < C.entries.length then .trying (i + 1) 0 else .down false now

/-- Failures with their times. -/
def failAll (C : Cascade α) (s : Stage) (failures : List (Bool × Nat)) : Stage := failures.foldl (fun s f => C.fail f.1 f.2 s) s

lemma failAll_append {s : Stage} {failures failures' : List (Bool × Nat)} :
    C.failAll s (failures ++ failures') = C.failAll (C.failAll s failures) failures' := List.foldl_append

/-- Failures within the budget. -/
lemma failAll_within {failures : List (Bool × Nat)} (hsoft : ∀ f ∈ failures, f.1 = false)
    (h : spent + failures.length ≤ C.retries) : C.failAll (.trying i spent) failures = .trying i (spent + failures.length) := by
  induction failures generalizing spent with
  | nil => rfl
  | cons f failures ih =>
    rw [List.length_cons] at h ⊢
    have hroom : ¬ (f.1 = true ∨ C.retries ≤ spent) := by
      rintro (hhard | hspent)
      · rw [hsoft f List.mem_cons_self] at hhard
        cases hhard
      · omega
    have hstay : C.fail f.1 f.2 (.trying i spent) = .trying i (spent + 1) := if_neg hroom
    have hrest := @ih (spent + 1) (fun g hg => hsoft g (List.mem_cons_of_mem _ hg)) (by omega)
    rw [failAll, List.foldl_cons, hstay]
    refine hrest.trans (congrArg _ ?_)
    omega

/-- An alternative is left after failures that exhaust it, and not before. -/
lemma failAll_exhausts {failures : List (Bool × Nat)} (h : Exhausts C.retries (failures.map Prod.fst)) :
    ∃ now, C.failAll (.trying i 0) failures = C.next i now := by
  have hlast : ∀ (before : List (Bool × Nat)) (f : Bool × Nat), failures = before ++ [f] → (∀ g ∈ before, g.1 = false) →
      before.length ≤ C.retries → (f.1 = true ∨ C.retries ≤ before.length) →
      C.failAll (.trying i 0) failures = C.next i f.2 := by
    rintro before f rfl hsoft hlen hleave
    rw [failAll_append, failAll_within hsoft (by omega), Nat.zero_add]
    exact if_pos hleave
  rcases h with hspent | ⟨n, hn, hhard⟩
  · obtain ⟨before, f, rfl⟩ := List.eq_nil_or_concat' failures |>.resolve_left (by
      rintro rfl
      cases hspent)
    rw [List.replicate_succ', List.map_append] at hspent
    obtain ⟨hbefore, hf⟩ := List.append_inj' hspent rfl
    have hlen : before.length = C.retries := by
      rw [← List.length_map (f := Prod.fst), hbefore, List.length_replicate]
    refine ⟨_, hlast before f rfl (fun g hg => ?_) hlen.le (.inr hlen.ge)⟩
    exact List.eq_of_mem_replicate (hbefore ▸ List.mem_map_of_mem hg)
  · obtain ⟨before, f, rfl⟩ := List.eq_nil_or_concat' failures |>.resolve_left (by
      rintro rfl
      exact absurd hhard.symm (List.append_ne_nil_of_right_ne_nil _ (List.cons_ne_nil _ _)))
    rw [List.map_append] at hhard
    obtain ⟨hbefore, hf⟩ := List.append_inj' hhard rfl
    have hlen : before.length = n := by
      rw [← List.length_map (f := Prod.fst), hbefore, List.length_replicate]
    refine ⟨_, hlast before f rfl (fun g hg => ?_) (hlen.trans_le hn) (.inl (List.head_eq_of_cons_eq hf))⟩
    exact List.eq_of_mem_replicate (hbefore ▸ List.mem_map_of_mem hg)

/-- After failures that exhaust the first entries one after the other, and some within the budget of the next, this is
tried. -/
theorem failAll_order {segments : List (List (Bool × Nat))} {rest : List (Bool × Nat)}
    (hsegments : ∀ segment ∈ segments, Exhausts C.retries (segment.map Prod.fst)) (hsoft : ∀ f ∈ rest, f.1 = false)
    (hrest : rest.length ≤ C.retries) (hlen : i + segments.length < C.entries.length) :
    C.failAll (.trying i 0) (segments.flatten ++ rest) = .trying (i + segments.length) rest.length := by
  induction segments generalizing i with
  | nil =>
    rw [List.flatten_nil, List.nil_append, failAll_within hsoft (by omega), Nat.zero_add]
    rfl
  | cons segment segments ih =>
    rw [List.length_cons] at hlen
    obtain ⟨now, hleft⟩ := @failAll_exhausts _ C i segment (hsegments segment List.mem_cons_self)
    have hnext : C.next i now = .trying (i + 1) 0 := if_pos (by omega)
    rw [List.flatten_cons, List.append_assoc, failAll_append, hleft, hnext,
      ih (fun s hs => hsegments s (List.mem_cons_of_mem _ hs)) (by omega), List.length_cons]
    congr 1
    omega

end Cascade

end Lib
