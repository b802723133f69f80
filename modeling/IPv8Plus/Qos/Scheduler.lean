import IPv8Plus.Lib.Priority
import IPv8Plus.Lib.Run

/-!
# The priority scheduler

`ipv8-qos/src/scheduler.rs`: four queues, a count for each of them, and a counter of what was refused. Counts and capacity are
machine words. The scheduler does what bounded queues in strict priority do (`scheduler_refines`); its counter of refusals has
64 bits.
-/

namespace IPv8Plus.Qos
open Lib

abbrev numClasses : Nat := 4

structure PriorityScheduler (T : Type) where
  queues : Fin numClasses → List T
  counts : Fin numClasses → UInt64
  cap : UInt64
  dropped : UInt64

inductive Call (T : Type) where
  | push (level : Nat) (item : T)
  | takeNext

/-- A class that does not exist is the highest one. -/
def clamp (level : Nat) : Fin numClasses := Fin.ofNat numClasses (min level (numClasses - 1))

namespace PriorityScheduler

variable {T : Type}

/-- There is room for one item at least. -/
def new (cap : UInt64) : PriorityScheduler T where
  queues _ := []
  counts _ := 0
  cap := max cap 1
  dropped := 0

/-- An item that finds no room is handed back. -/
def push (s : PriorityScheduler T) (level : Nat) (item : T) : PriorityScheduler T × Option T :=
  let c := clamp level
  if s.cap ≤ s.counts c then ({ s with dropped := s.dropped + 1 }, some item)
  else
    ({ s with
        queues := Function.update s.queues c (s.queues c ++ [item])
        counts := Function.update s.counts c (s.counts c + 1) }, none)

/-- The loop of `take_next` over these classes. -/
def takeFrom (s : PriorityScheduler T) : List (Fin numClasses) → PriorityScheduler T × Option T
  | [] => (s, none)
  | c :: cs =>
    match s.queues c with
    | [] => s.takeFrom cs
    | item :: rest =>
      ({ s with
          queues := Function.update s.queues c rest
          counts := Function.update s.counts c (s.counts c - 1) }, some item)

def takeNext (s : PriorityScheduler T) : PriorityScheduler T × Option T := s.takeFrom (List.finRange numClasses).reverse

def step (s : PriorityScheduler T) : Call T → PriorityScheduler T × Option T
  | .push level item => s.push level item
  | .takeNext => s.takeNext

end PriorityScheduler

variable {T : Type}

/-! ## The scheduler as queues -/

/-- The call on the queues. -/
def Call.abstract : Call T → Priority.Call (Fin numClasses) T
  | .push level item => .push (clamp level) item
  | .takeNext => .take

/-- What the caller sees of an answer. -/
def seen : Priority.Answer (Fin numClasses) T → Option T
  | .accepted => none
  | .refused item => some item
  | .took _ item => some item
  | .idle => none

/-- A push that was handed its item back. -/
def isRefusal (e : Call T × Option T) : Bool :=
  match e.1 with
  | .push _ _ => e.2.isSome
  | .takeNext => false

def refusals (calls : List (Call T)) (outs : List (Option T)) : Nat := (calls.zip outs).countP isRefusal

namespace PriorityScheduler

/-- The counts are those of the queues, and no queue is too long. -/
structure Counted (s : PriorityScheduler T) : Prop where
  counts : ∀ c, (s.counts c).toNat = (s.queues c).length
  bound : ∀ c, (s.queues c).length ≤ s.cap.toNat

variable {s : PriorityScheduler T}

lemma counted_new (cap : UInt64) : (new cap : PriorityScheduler T).Counted := ⟨fun _ => rfl, fun _ => Nat.zero_le _⟩

/-- A push is one on the queues. -/
lemma push_step (h : s.Counted) (level : Nat) (item : T) :
    ∃ a, Priority.Step s.cap.toNat s.queues (.push (clamp level) item) a (s.push level item).1.queues ∧ seen a = (s.push level item).2 ∧
      (s.push level item).1.Counted ∧ (s.push level item).1.cap = s.cap ∧
      (s.push level item).1.dropped = s.dropped + if (s.push level item).2.isSome then 1 else 0 := by
  have hcount := h.counts (clamp level)
  have hbound := h.bound (clamp level)
  rw [push]
  split
  · next hfull =>
    rw [UInt64.le_iff_toNat_le, hcount] at hfull
    exact ⟨.refused item, .refuse (Nat.le_antisymm hbound hfull), rfl, ⟨h.counts, h.bound⟩, rfl, rfl⟩
  · next hroom =>
    rw [UInt64.le_iff_toNat_le, hcount, Nat.not_le] at hroom
    have hcap := s.cap.toNat_lt
    refine ⟨.accepted, .accept hroom, rfl, ⟨fun c => ?_, fun c => ?_⟩, rfl, (UInt64.add_zero _).symm⟩
    · dsimp only
      rw [Function.update_apply, Function.update_apply]
      split
      · rw [UInt64.toNat_add, hcount, List.length_append, List.length_singleton, UInt64.toNat_one, Nat.mod_eq_of_lt (by omega)]
      · exact h.counts c
    · dsimp only
      rw [Function.update_apply]
      split
      · rw [List.length_append, List.length_singleton]
        exact hroom
      · exact h.bound c

/-- The loop finds the first of the classes that has an item. -/
lemma takeFrom_cases (s : PriorityScheduler T) {cs : List (Fin numClasses)} (hcs : cs.Pairwise (· > ·)) :
    ((∀ c ∈ cs, s.queues c = []) ∧ s.takeFrom cs = (s, none)) ∨
      ∃ c item rest, s.queues c = item :: rest ∧ (∀ d ∈ cs, c < d → s.queues d = []) ∧ s.takeFrom cs =
        ({ s with queues := Function.update s.queues c rest, counts := Function.update s.counts c (s.counts c - 1) }, some item) := by
  induction cs with
  | nil => exact .inl ⟨nofun, rfl⟩
  | cons c cs ih =>
    obtain ⟨hlower, hcs⟩ := List.pairwise_cons.mp hcs
    cases hq : s.queues c with
    | nil =>
      have hskip : s.takeFrom (c :: cs) = s.takeFrom cs := by rw [takeFrom, hq]
      rw [hskip]
      rcases ih hcs with ⟨hempty, htake⟩ | ⟨c', item, rest, hfirst, hhigher, htake⟩
      · exact .inl ⟨List.forall_mem_cons.mpr ⟨hq, hempty⟩, htake⟩
      · exact .inr ⟨c', item, rest, hfirst, List.forall_mem_cons.mpr ⟨fun _ => hq, hhigher⟩, htake⟩
    | cons item rest =>
      refine .inr ⟨c, item, rest, hq, ?_, by rw [takeFrom, hq]⟩
      exact List.forall_mem_cons.mpr ⟨fun h => absurd h (lt_irrefl c), fun d hd h => absurd h (hlower d hd).not_gt⟩

/-- A take is one on the queues. -/
lemma takeNext_step (h : s.Counted) :
    ∃ a, Priority.Step s.cap.toNat s.queues .take a s.takeNext.1.queues ∧ seen a = s.takeNext.2 ∧
      s.takeNext.1.Counted ∧ s.takeNext.1.cap = s.cap ∧ s.takeNext.1.dropped = s.dropped := by
  have hall : ∀ c : Fin numClasses, c ∈ (List.finRange numClasses).reverse := fun c => List.mem_reverse.mpr (List.mem_finRange c)
  have hdescending : (List.finRange numClasses).reverse.Pairwise (· > ·) := by decide
  rw [takeNext]
  rcases s.takeFrom_cases hdescending with ⟨hempty, htake⟩ | ⟨c, item, rest, hfirst, hhigher, htake⟩
  · rw [htake]
    exact ⟨.idle, .idle fun c => hempty c (hall c), rfl, h, rfl, rfl⟩
  · rw [htake]
    have hcount := h.counts c
    have hbound := h.bound c
    rw [hfirst, List.length_cons] at hcount hbound
    have hone : (1 : UInt64) ≤ s.counts c := by
      rw [UInt64.le_iff_toNat_le, UInt64.toNat_one, hcount]
      omega
    refine ⟨.took c item, .take hfirst fun d => hhigher d (hall d), rfl, ⟨fun d => ?_, fun d => ?_⟩, rfl, rfl⟩
    · dsimp only
      rw [Function.update_apply, Function.update_apply]
      split
      · rw [UInt64.toNat_sub_of_le _ _ hone, hcount, UInt64.toNat_one, Nat.add_sub_cancel]
      · exact h.counts d
    · dsimp only
      rw [Function.update_apply]
      split
      · omega
      · exact h.bound d

/-- Every call is one on the queues. -/
lemma step_refines (h : s.Counted) (call : Call T) :
    ∃ a, Priority.Step s.cap.toNat s.queues call.abstract a (s.step call).1.queues ∧ seen a = (s.step call).2 ∧
      (s.step call).1.Counted ∧ (s.step call).1.cap = s.cap ∧
      (s.step call).1.dropped = s.dropped + if isRefusal (call, (s.step call).2) then 1 else 0 := by
  cases call with
  | push level item => exact push_step h level item
  | takeNext =>
    obtain ⟨a, hstep, hseen, hcounted, hcap, hdropped⟩ := takeNext_step h
    exact ⟨a, hstep, hseen, hcounted, hcap, hdropped.trans (UInt64.add_zero _).symm⟩

/-! ## Runs -/

/-- Calls, what they returned and the state they led to are those of bounded queues that gave these answers. -/
structure AsQueues (cap : Nat) (calls : List (Call T)) (outs : List (Option T)) (answers : List (Priority.Answer (Fin numClasses) T))
    (s : PriorityScheduler T) : Prop where
  returned : answers.map seen = outs
  steps : Priority.Steps cap (fun _ => []) ((calls.map Call.abstract).zip answers) s.queues
  counts : ∀ c, (s.counts c).toNat = (s.queues c).length
  dropped : s.dropped = UInt64.ofNat (refusals calls outs)

/-- A run is one of the queues. -/
lemma run_refines (cap : UInt64) (calls : List (Call T)) :
    (run step (new cap) calls).1.Counted ∧ (run step (new cap : PriorityScheduler T) calls).1.cap = max cap 1 ∧
      ∃ answers, AsQueues (max cap 1).toNat calls (run step (new cap) calls).2 answers (run step (new cap) calls).1 := by
  induction calls using List.reverseRecOn with
  | nil => exact ⟨counted_new cap, rfl, [], rfl, .nil, fun _ => rfl, rfl⟩
  | append_singleton calls call ih =>
    obtain ⟨hcounted, hcap, answers, hq⟩ := ih
    obtain ⟨a, hstep, hseen, hcounted', hcap', hdropped⟩ := step_refines hcounted call
    have hlen : calls.length = answers.length := by
      rw [← length_run step (new cap) calls, ← hq.returned, List.length_map]
    rw [run_append, answers_append]
    refine ⟨hcounted', hcap'.trans hcap, answers ++ [a], ?_, ?_, hcounted'.counts, ?_⟩
    · rw [List.map_append, hq.returned, List.map_singleton, hseen]
      rfl
    · rw [List.map_append, List.zip_append (by rw [List.length_map, hlen])]
      rw [hcap] at hstep
      exact hq.steps.snoc hstep
    · have hcalls : calls.length = (run step (new cap) calls).2.length := (length_run step (new cap) calls).symm
      change (step _ call).1.dropped = _
      rw [hdropped, hq.dropped, refusals, refusals, List.zip_append hcalls, List.countP_append, UInt64.ofNat_add]
      refine congrArg (_ + ·) ?_
      change _ = UInt64.ofNat ([(call, (step (run step (new cap) calls).1 call).2)].countP isRefusal)
      rw [List.countP_singleton]
      split
      · rfl
      · rfl

/-- Takes make the queues shorter. -/
lemma total_takes (h : s.Counted) (n : Nat) :
    Priority.total (run step s (List.replicate n .takeNext)).1.queues = Priority.total s.queues - n := by
  induction n generalizing s with
  | zero => rfl
  | succ n ih =>
    obtain ⟨a, hstep, -, hcounted, -, -⟩ := takeNext_step h
    rw [List.replicate_succ, run_cons]
    refine (ih hcounted).trans ?_
    rw [hstep.total_take, Nat.sub_sub, Nat.add_comm]

/-- **The scheduler is bounded queues in strict priority.** -/
theorem scheduler_refines (cap : UInt64) (calls : List (Call T)) :
    let r := run step (new cap) calls
    ∃ answers, AsQueues (max cap 1).toNat calls r.2 answers r.1 ∧
      (∀ c, Priority.accepted ((calls.map Call.abstract).zip answers) c =
        Priority.taken ((calls.map Call.abstract).zip answers) c ++ r.1.queues c) ∧
      ∀ n, Priority.total r.1.queues ≤ n → ∀ c, (run step r.1 (List.replicate n .takeNext)).1.queues c = [] := by
  intro r
  obtain ⟨hcounted, -, answers, hq⟩ := run_refines cap calls
  refine ⟨answers, hq, hq.steps.ledger, fun n hn => Priority.eq_nil_of_total ?_⟩
  rw [total_takes hcounted, Nat.sub_eq_zero_of_le hn]

/-- A class that is full stays full under pushes. -/
lemma run_pushes_full {level : Nat} {item : T} (h : s.cap ≤ s.counts (clamp level)) (n : Nat) :
    (run step s (List.replicate n (.push level item))).2 = List.replicate n (some item) := by
  induction n generalizing s with
  | zero => rfl
  | succ n ih =>
    have hpush : s.step (.push level item) = ({ s with dropped := s.dropped + 1 }, some item) := if_pos h
    rw [List.replicate_succ, run_cons, hpush, List.replicate_succ]
    exact congrArg (some item :: ·) (ih h)

/-- After 2^64 refusals the counter is at zero. -/
theorem dropped_wraps : ¬ ∀ (cap : UInt64) (calls : List (Call Unit)), (run step (new cap) calls).1.dropped.toNat =
    refusals calls (run step (new cap : PriorityScheduler Unit) calls).2 := by
  intro h
  let push : Call Unit := .push 0 ()
  have hrefused : refusals (push :: List.replicate (2 ^ 64) push) (run step (new 1) (push :: List.replicate (2 ^ 64) push)).2 = 2 ^ 64 := by
    have hfull : (step (new 1) push).1.cap ≤ (step (new 1) push).1.counts (clamp 0) := by decide
    rw [run_cons, run_pushes_full hfull, refusals, List.zip_cons_cons, List.countP_cons_of_neg (by decide), List.zip_replicate',
      List.countP_replicate]
    exact if_pos rfl
  have hcount := h 1 (push :: List.replicate (2 ^ 64) push)
  rw [hrefused] at hcount
  exact absurd hcount (UInt64.toNat_lt _).ne

end PriorityScheduler

end IPv8Plus.Qos
