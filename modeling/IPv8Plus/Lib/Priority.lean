import Mathlib

/-!
# Bounded queues in strict priority

Every class has a queue of bounded length. What is taken is the first item of the highest class that has one. A class gives
out what it accepted, each item once and in the order of their arrival (`Steps.ledger`).
-/

namespace Lib.Priority

inductive Call (κ T : Type) where
  | push (level : κ) (item : T)
  | take

inductive Answer (κ T : Type) where
  | accepted
  | refused (item : T)
  | took (level : κ) (item : T)
  | idle

variable {κ T : Type} [LinearOrder κ]

/-- One call on the queues, and what they are afterwards. -/
inductive Step (cap : ℕ) (q : κ → List T) : Call κ T → Answer κ T → (κ → List T) → Prop where
  | accept {c : κ} {x : T} (hroom : (q c).length < cap) : Step cap q (.push c x) .accepted (Function.update q c (q c ++ [x]))
  | refuse {c : κ} {x : T} (hfull : (q c).length = cap) : Step cap q (.push c x) (.refused x) q
  | take {c : κ} {x : T} {rest : List T} (hfirst : q c = x :: rest) (hhigher : ∀ d, c < d → q d = []) :
      Step cap q .take (.took c x) (Function.update q c rest)
  | idle (hempty : ∀ c, q c = []) : Step cap q .take .idle q

/-- Calls with their answers, one after another. -/
inductive Steps (cap : ℕ) (q : κ → List T) : List (Call κ T × Answer κ T) → (κ → List T) → Prop where
  | nil : Steps cap q [] q
  | snoc {trace : List (Call κ T × Answer κ T)} {q' q'' : κ → List T} {c : Call κ T} {a : Answer κ T} (steps : Steps cap q trace q')
      (step : Step cap q' c a q'') : Steps cap q (trace ++ [(c, a)]) q''

/-- The item that a call put into the class. -/
def enters (k : κ) (e : Call κ T × Answer κ T) : Option T :=
  match e.1, e.2 with
  | .push c x, .accepted => if c = k then some x else none
  | _, _ => none

/-- The item that a call took from the class. -/
def leaves (k : κ) (e : Call κ T × Answer κ T) : Option T :=
  match e.2 with
  | .took c x => if c = k then some x else none
  | _ => none

/-- What a class accepted, in order. -/
def accepted (trace : List (Call κ T × Answer κ T)) (k : κ) : List T := trace.filterMap (enters k)

/-- What was taken from a class, in order. -/
def taken (trace : List (Call κ T × Answer κ T)) (k : κ) : List T := trace.filterMap (leaves k)

variable {cap : ℕ} {q q' : κ → List T} {trace : List (Call κ T × Answer κ T)} {c : Call κ T} {a : Answer κ T}

/-- A call moves at most one item, in at the end or out at the front. -/
lemma Step.ledger (h : Step cap q c a q') (k : κ) : q k ++ (enters k (c, a)).toList = (leaves k (c, a)).toList ++ q' k := by
  cases h with
  | @accept c x hroom =>
    change q k ++ (if c = k then some x else none).toList = Function.update q c (q c ++ [x]) k
    rw [Function.update_apply]
    by_cases hk : c = k
    · rw [if_pos hk, if_pos hk.symm, hk]
      rfl
    · rw [if_neg hk, if_neg (Ne.symm hk)]
      exact List.append_nil _
  | refuse hfull => exact List.append_nil _
  | @take c x rest hfirst hhigher =>
    change q k ++ [] = (if c = k then some x else none).toList ++ Function.update q c rest k
    rw [Function.update_apply, List.append_nil]
    by_cases hk : c = k
    · rw [if_pos hk, if_pos hk.symm, ← hk, hfirst]
      rfl
    · rw [if_neg hk, if_neg (Ne.symm hk)]
      rfl
  | idle hempty => exact List.append_nil _

/-- What was accepted is what was taken and then what is still there. -/
theorem Steps.ledger (h : Steps cap (fun _ => []) trace q) (k : κ) : accepted trace k = taken trace k ++ q k := by
  induction h with
  | nil => rfl
  | @snoc trace q' q'' c a steps step ih =>
    have hone : ∀ f : Call κ T × Answer κ T → Option T, [(c, a)].filterMap f = (f (c, a)).toList := by
      intro f
      rw [List.filterMap_cons]
      cases f (c, a) with
      | none => rfl
      | some x => rfl
    rw [accepted, taken, List.filterMap_append, List.filterMap_append, ← accepted, ← taken, hone, hone, ih, List.append_assoc,
      List.append_assoc, step.ledger]

/-! ## Taking everything out -/

section
variable [Fintype κ]

/-- The number of items in the queues. -/
def total (q : κ → List T) : ℕ := ∑ k, (q k).length

/-- A take makes the queues shorter by one, unless they are empty. -/
lemma Step.total_take (h : Step cap q .take a q') : total q' = total q - 1 := by
  cases h with
  | @take c x rest hfirst hhigher =>
    have hsame : ∑ k ∈ Finset.univ.erase c, (Function.update q c rest k).length = ∑ k ∈ Finset.univ.erase c, (q k).length :=
      Finset.sum_congr rfl fun k hk => by rw [Function.update_of_ne (Finset.ne_of_mem_erase hk)]
    rw [total, total, ← Finset.add_sum_erase _ _ (Finset.mem_univ c), ← Finset.add_sum_erase _ (fun k => (q k).length) (Finset.mem_univ c),
      hsame, Function.update_self, hfirst, List.length_cons]
    omega
  | idle hempty =>
    have hzero : total q = 0 := Finset.sum_eq_zero fun k _ => by rw [hempty k, List.length_nil]
    rw [hzero]

omit [LinearOrder κ] in
lemma eq_nil_of_total (h : total q = 0) (k : κ) : q k = [] :=
  List.length_eq_zero_iff.mp (Finset.sum_eq_zero_iff.mp h k (Finset.mem_univ k))

end

end Lib.Priority
