import Mathlib

/-!
# Runs of a state machine

A component is a step function from a state and a call to a new state and an answer. A run feeds it a list
of calls. `Along P` says that a condition on state and call holds at every step of a run; the rules below
turn facts about one step into facts about whole runs.
-/

namespace Lib

variable {σ ω ρ : Type} (step : σ → ω → σ × ρ)

/-- The state a run ends in, and the answers it gave. -/
def run : σ → List ω → σ × List ρ
  | s, [] => (s, [])
  | s, o :: os =>
    let (s', x) := step s o
    let (s'', xs) := run s' os
    (s'', x :: xs)

/-- A condition on the state before a call and the call holds at every step of the run. -/
def Along (P : σ → ω → Prop) : σ → List ω → Prop
  | _, [] => True
  | s, o :: os => P s o ∧ Along P (step s o).1 os

instance Along.decidable {P : σ → ω → Prop} [∀ s o, Decidable (P s o)] :
    ∀ (s : σ) (os : List ω), Decidable (Along step P s os)
  | _, [] => isTrue trivial
  | s, o :: os =>
    @instDecidableAnd _ _ (inferInstance : Decidable (P s o)) (Along.decidable (step s o).1 os)

@[simp] lemma run_nil (s : σ) : run step s [] = (s, []) := rfl

@[simp] lemma run_cons (s : σ) (o : ω) (os : List ω) :
    run step s (o :: os) = ((run step (step s o).1 os).1, (step s o).2 :: (run step (step s o).1 os).2) := rfl

lemma length_run (s : σ) (os : List ω) : (run step s os).2.length = os.length := by
  induction os generalizing s with
  | nil => rfl
  | cons o os ih => exact congrArg (· + 1) (ih _)

/-- A run without answers is one without calls. -/
lemma eq_nil_of_run {s : σ} {os : List ω} (h : (run step s os).2 = []) : os = [] := by
  have hlen := length_run step s os
  rw [h] at hlen
  exact List.eq_nil_of_length_eq_zero hlen.symm

@[simp] lemma along_nil (P : σ → ω → Prop) (s : σ) : Along step P s [] := trivial

@[simp] lemma along_cons (P : σ → ω → Prop) (s : σ) (o : ω) (os : List ω) :
    Along step P s (o :: os) ↔ P s o ∧ Along step P (step s o).1 os := Iff.rfl

variable {step} {P Q : σ → ω → Prop} {I : σ → Prop} {s : σ} {os : List ω}

/-- A condition on the answers. -/
lemma along_answer {P : ρ → Prop} :
    Along step (fun s o => P (step s o).2) s os ↔ ∀ x ∈ (run step s os).2, P x := by
  induction os generalizing s with
  | nil => simp
  | cons o os ih => rw [along_cons, ih, run_cons, List.forall_mem_cons]

/-- What every call answers. -/
lemma along_answer_eq {f : ω → ρ} : Along step (fun s o => (step s o).2 = f o) s os ↔ (run step s os).2 = os.map f := by
  induction os generalizing s with
  | nil => exact ⟨fun _ => rfl, fun _ => trivial⟩
  | cons o os ih => rw [along_cons, ih, run_cons, List.map_cons, List.cons.injEq]

/-- A condition on a part of the state that steps on its own. -/
lemma along_map {τ ρ' : Type} {step' : τ → ω → τ × ρ'} {P : τ → ω → Prop} (π : σ → τ)
    (h : ∀ s o, (step' (π s) o).1 = π (step s o).1) :
    Along step' P (π s) os ↔ Along step (fun s o => P (π s) o) s os := by
  induction os generalizing s with
  | nil => exact Iff.rfl
  | cons o os ih => rw [along_cons, along_cons, h, ih]

/-- Conditions on the calls alone. -/
lemma along_of_forall {P : ω → Prop} (h : ∀ o ∈ os, P o) : Along step (fun _ o => P o) s os := by
  induction os generalizing s with
  | nil => trivial
  | cons o os ih => exact ⟨h o List.mem_cons_self, ih fun x hx => h x (List.mem_cons_of_mem _ hx)⟩

lemma along_and : Along step (fun s o => P s o ∧ Q s o) s os ↔ Along step P s os ∧ Along step Q s os := by
  induction os generalizing s with
  | nil => exact ⟨fun _ => ⟨trivial, trivial⟩, fun _ => trivial⟩
  | cons o os ih => rw [along_cons, along_cons, along_cons, ih, and_and_and_comm]

/-- What every step keeps under a condition holds after every run along which the condition holds. -/
theorem invariant_run (hstep : ∀ s o, I s → P s o → I (step s o).1) (h0 : I s) (hp : Along step P s os) :
    I (run step s os).1 := by
  induction os generalizing s with
  | nil => exact h0
  | cons o os ih => exact ih (hstep s o h0 hp.1) hp.2

/-- What every step keeps holds after every run. -/
theorem invariant_run_all (hstep : ∀ s o, I s → I (step s o).1) (h0 : I s) (os : List ω) : I (run step s os).1 := by
  induction os generalizing s with
  | nil => exact h0
  | cons o os ih => exact ih (hstep s o h0)

/-- What every step keeps under a condition about the state and the calls and answers so far holds after every run along
which the condition holds. -/
theorem invariant_history_along {I : σ → List (ω × ρ) → Prop} {hist : List (ω × ρ)}
    (hstep : ∀ s hist o, I s hist → P s o → I (step s o).1 (hist ++ [(o, (step s o).2)])) (h0 : I s hist)
    (hp : Along step P s os) : I (run step s os).1 (hist ++ os.zip (run step s os).2) := by
  induction os generalizing s hist with
  | nil =>
    rw [List.zip_nil_left, List.append_nil]
    exact h0
  | cons o os ih =>
    have hnext := ih (hstep s hist o h0 hp.1) hp.2
    rw [List.append_assoc] at hnext
    exact hnext

/-- The same for runs whose calls are in order. -/
theorem invariant_history_pairwise {I : σ → List (ω × ρ) → Prop} {R : ω → ω → Prop} {hist : List (ω × ρ)}
    (hstep : ∀ s hist o, I s hist → P s o → (∀ x ∈ hist, R x.1 o) → I (step s o).1 (hist ++ [(o, (step s o).2)]))
    (h0 : I s hist) (hp : Along step P s os) (hpast : ∀ x ∈ hist, ∀ o ∈ os, R x.1 o) (hos : os.Pairwise R) :
    I (run step s os).1 (hist ++ os.zip (run step s os).2) := by
  induction os generalizing s hist with
  | nil =>
    rw [List.zip_nil_left, List.append_nil]
    exact h0
  | cons o os ih =>
    obtain ⟨hfirst, hrest⟩ := List.pairwise_cons.mp hos
    have hpast' : ∀ x ∈ hist ++ [(o, (step s o).2)], ∀ o' ∈ os, R x.1 o' := by
      intro x hx o' ho'
      rcases List.mem_append.mp hx with hx | hx
      · exact hpast x hx o' (List.mem_cons_of_mem _ ho')
      · cases List.mem_singleton.mp hx
        exact hfirst o' ho'
    have hnext := ih (hstep s hist o h0 hp.1 fun x hx => hpast x hx o List.mem_cons_self) hp.2 hpast' hrest
    rw [List.append_assoc] at hnext
    exact hnext

/-- What every step keeps about the state and the calls and answers so far holds after every run. -/
theorem invariant_history {I : σ → List (ω × ρ) → Prop} {hist : List (ω × ρ)}
    (hstep : ∀ s hist o, I s hist → I (step s o).1 (hist ++ [(o, (step s o).2)])) (h0 : I s hist) (os : List ω) :
    I (run step s os).1 (hist ++ os.zip (run step s os).2) :=
  invariant_history_along (P := fun _ _ => True) (fun s hist o h _ => hstep s hist o h) h0 (along_of_forall fun _ _ => trivial)

/-- An invariant may be used at every step of a run. -/
theorem Along.of_invariant (hstep : ∀ s o, I s → P s o → I (step s o).1)
    (hq : ∀ s o, I s → P s o → Q s o) (h0 : I s) (hp : Along step P s os) : Along step Q s os := by
  induction os generalizing s with
  | nil => trivial
  | cons o os ih => exact ⟨hq s o h0 hp.1, ih (hstep s o h0 hp.1) hp.2⟩

lemma Along.mono (hp : Along step P s os) (h : ∀ s o, P s o → Q s o) : Along step Q s os := by
  induction os generalizing s with
  | nil => trivial
  | cons o os ih => exact ⟨h s o hp.1, ih hp.2⟩

/-- Two conditions that agree where an invariant holds, and keep it, hold along the same runs. -/
theorem along_congr {D : σ → ω → Prop} (hd : Along step D s os)
    (hstep : ∀ s o, I s → D s o → P s o → I (step s o).1)
    (hiff : ∀ s o, I s → D s o → (P s o ↔ Q s o)) (h0 : I s) : Along step P s os ↔ Along step Q s os := by
  induction os generalizing s with
  | nil => exact Iff.rfl
  | cons o os ih =>
    rw [along_cons, along_cons, ← hiff s o h0 hd.1]
    exact and_congr_right fun hp => ih hd.2 (hstep s o h0 hd.1 hp)

/-- A condition on every state that a run reaches, step by step. -/
theorem forall_prefix_iff :
    (∀ pre, pre <+: os → I (run step s pre).1) ↔ I s ∧ Along step (fun s o => I (step s o).1) s os := by
  induction os generalizing s with
  | nil =>
    refine ⟨fun h => ⟨h [] List.prefix_rfl, trivial⟩, fun h pre hpre => ?_⟩
    rw [List.prefix_nil.mp hpre]
    exact h.1
  | cons o os ih =>
    rw [along_cons]
    constructor
    · intro h
      exact ⟨h [] List.nil_prefix, ih.mp fun pre hpre => h (o :: pre) (List.cons_prefix_cons.mpr ⟨rfl, hpre⟩)⟩
    · rintro ⟨hs, hrest⟩ pre hpre
      cases pre with
      | nil => exact hs
      | cons o' pre =>
        obtain ⟨rfl, htail⟩ := List.cons_prefix_cons.mp hpre
        exact ih.mpr hrest pre htail

lemma run_append (s : σ) (os os' : List ω) : (run step s (os ++ os')).1 = (run step (run step s os).1 os').1 := by
  induction os generalizing s with
  | nil => rfl
  | cons o os ih => exact ih _

lemma answers_append (s : σ) (os os' : List ω) :
    (run step s (os ++ os')).2 = (run step s os).2 ++ (run step (run step s os).1 os').2 := by
  induction os generalizing s with
  | nil => rfl
  | cons o os ih => exact congrArg ((step s o).2 :: ·) (ih _)

lemma along_append {os' : List ω} : Along step P s (os ++ os') ↔ Along step P s os ∧ Along step P (run step s os).1 os' := by
  induction os generalizing s with
  | nil => exact (and_iff_right trivial).symm
  | cons o os ih => rw [List.cons_append, along_cons, along_cons, ih, and_assoc, run_cons]

/-- What every step keeps about the calls so far and the state they lead to holds after every run along which the condition
holds. -/
theorem invariant_prefix {I : List ω → σ → Prop} (h0 : I [] s)
    (hstep : ∀ os o, I os (run step s os).1 → P (run step s os).1 o → I (os ++ [o]) (step (run step s os).1 o).1)
    (hp : Along step P s os) : I os (run step s os).1 := by
  induction os using List.reverseRecOn with
  | nil => exact h0
  | append_singleton os o ih =>
    obtain ⟨hos, ho⟩ := along_append.mp hp
    rw [run_append]
    exact hstep os o (ih hos) ho.1

lemma run_map {τ : Type} (f : τ → ω) (l : List τ) (s : σ) :
    (run step s (l.map f)).1 = l.foldl (fun s x => (step s (f x)).1) s := by
  induction l generalizing s with
  | nil => rfl
  | cons x l ih => exact ih _

/-- What a call brings about, and every call keeps, holds at the end of every run with this call in it. -/
theorem run_of_mem {C : ω → Prop} {Q : σ → Prop} {o : ω} (hstep : ∀ s o, I s → C o → I (step s o).1)
    (hkeep : ∀ s o, I s → Q s → C o → Q (step s o).1) (hmake : ∀ s, I s → Q (step s o).1) (h0 : I s) (hos : ∀ x ∈ os, C x)
    (hmem : o ∈ os) : Q (run step s os).1 := by
  induction os generalizing s with
  | nil => cases hmem
  | cons x os ih =>
    obtain ⟨hx, hrest⟩ := List.forall_mem_cons.mp hos
    have hi := hstep s x h0 hx
    rcases List.mem_cons.mp hmem with rfl | hmem
    · exact (invariant_run (I := fun s => I s ∧ Q s) (fun s o hs ho => ⟨hstep s o hs.1 ho, hkeep s o hs.1 hs.2 ho⟩)
        ⟨hi, hmake s h0⟩ (along_of_forall hrest)).2
    · exact ih hi hrest hmem

end Lib
