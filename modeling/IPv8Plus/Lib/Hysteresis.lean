import Mathlib.Data.List.DropRight

/-!
# Switches with hysteresis

A switch turns on at the event that completes `rise` events in a row of one kind, and off at the event that
completes `fall` in a row of another, each counted since the switch last turned. The specification keeps the events
themselves; an implementation keeps the length of the run they end with, and `Switch.Tracks` says that it does.
-/

namespace Lib

variable {α : Type}

/-- How many events of a kind a history ends with. -/
def trailing (p : α → Bool) (xs : List α) : Nat := (xs.rtakeWhile p).length

section
variable {p : α → Bool} {xs : List α} {x : α}

@[simp] lemma trailing_nil : trailing p [] = 0 := rfl

lemma trailing_concat_pos (h : p x = true) : trailing p (xs ++ [x]) = trailing p xs + 1 := by
  unfold trailing
  rw [List.rtakeWhile_concat_pos _ _ _ h, List.length_append, List.length_singleton]

lemma trailing_concat_neg (h : p x = false) : trailing p (xs ++ [x]) = 0 := by
  unfold trailing
  rw [List.rtakeWhile_concat_neg _ _ _ (Bool.eq_false_iff.mp h), List.length_nil]

end

/-- What turns a switch on and off, and how many events in a row it takes. -/
structure Switch (α : Type) where
  up : α → Bool
  down : α → Bool
  rise : Nat
  fall : Nat

namespace Switch

/-- Whether the switch is on, and the events since it last turned. -/
structure State (α : Type) where
  on : Bool := false
  since : List α := []

/-- The events that turn the switch from where it is. -/
def kind (w : Switch α) : Bool → α → Bool
  | false => w.up
  | true => w.down

/-- How many of them in a row. -/
def windows (w : Switch α) : Bool → Nat
  | false => w.rise
  | true => w.fall

def step (w : Switch α) (s : State α) (x : α) : State α :=
  if w.windows s.on ≤ trailing (w.kind s.on) (s.since ++ [x]) then { on := !s.on }
  else { s with since := s.since ++ [x] }

def after (w : Switch α) (xs : List α) : State α := xs.foldl w.step {}

/-- A position and a count that say where the switch is and how long the current run is. -/
structure Tracks (w : Switch α) (s : State α) (on : Bool) (count : Nat) : Prop where
  on_eq : s.on = on
  count_eq : trailing (w.kind on) s.since = count
  lt : count < w.windows on

variable {w : Switch α} {s : State α} {on : Bool} {k : Nat} {x : α}

lemma after_concat (xs : List α) : w.after (xs ++ [x]) = w.step (w.after xs) x := List.foldl_concat _ _ _ _

/-- The switch starts off, without events. -/
lemma Tracks.start (h : 0 < w.rise) : w.Tracks {} false 0 := ⟨rfl, rfl, h⟩

/-- An event of another kind ends the run, -/
lemma Tracks.other (h : w.Tracks s on k) (hx : w.kind on x = false) : w.Tracks (w.step s x) on 0 := by
  obtain ⟨rfl, rfl, hlt⟩ := h
  have hcount : trailing (w.kind s.on) (s.since ++ [x]) = 0 := trailing_concat_neg hx
  have hstep : w.step s x = { s with since := s.since ++ [x] } := by
    apply if_neg
    rw [hcount]
    exact Nat.not_le_of_lt (Nat.zero_lt_of_lt hlt)
  rw [hstep]
  exact ⟨rfl, hcount, Nat.zero_lt_of_lt hlt⟩

/-- one of this kind makes it longer, -/
lemma Tracks.more (h : w.Tracks s on k) (hx : w.kind on x = true) (hk : k + 1 < w.windows on) :
    w.Tracks (w.step s x) on (k + 1) := by
  obtain ⟨rfl, rfl, -⟩ := h
  have hcount : trailing (w.kind s.on) (s.since ++ [x]) = trailing (w.kind s.on) s.since + 1 := trailing_concat_pos hx
  have hstep : w.step s x = { s with since := s.since ++ [x] } := by
    apply if_neg
    rw [hcount]
    exact Nat.not_le_of_lt hk
  rw [hstep]
  exact ⟨rfl, hcount, hk⟩

/-- and the one that completes it turns the switch. -/
lemma Tracks.turn (h : w.Tracks s on k) (hx : w.kind on x = true) (hk : k + 1 = w.windows on)
    (hpos : 0 < w.windows !on) : w.Tracks (w.step s x) (!on) 0 := by
  obtain ⟨rfl, rfl, -⟩ := h
  have hstep : w.step s x = { on := !s.on } := by
    apply if_pos
    rw [trailing_concat_pos hx, hk]
  rw [hstep]
  exact ⟨rfl, rfl, hpos⟩

/-- The switch turns exactly at the event that completes a run. -/
lemma Tracks.turns_iff (h : w.Tracks s on k) :
    (w.step s x).on = !on ↔ trailing (w.kind on) (s.since ++ [x]) = w.windows on := by
  obtain ⟨rfl, rfl, hlt⟩ := h
  have hle : trailing (w.kind s.on) (s.since ++ [x]) ≤ w.windows s.on := by
    cases hx : w.kind s.on x with
    | true =>
      rw [trailing_concat_pos hx]
      exact hlt
    | false =>
      rw [trailing_concat_neg hx]
      exact Nat.zero_le _
  unfold step
  split
  · next hge => exact iff_of_true rfl (Nat.le_antisymm hle hge)
  · next hnot =>
    constructor
    · intro e
      exact absurd e (by cases s.on <;> decide)
    · intro e
      exact absurd e.ge hnot

/-- Whatever tracks the switch through an event turns exactly where the run is complete. -/
lemma Tracks.turns {on' : Bool} {k' : Nat} (h : w.Tracks s on k) (hnext : w.Tracks (w.step s x) on' k') :
    (on = false → (on' = true ↔ trailing w.up (s.since ++ [x]) = w.rise)) ∧
      (on = true → (on' = false ↔ trailing w.down (s.since ++ [x]) = w.fall)) := by
  have hturn := h.turns_iff (x := x)
  rw [hnext.on_eq] at hturn
  constructor
  · rintro rfl
    exact hturn
  · rintro rfl
    exact hturn

end Switch

end Lib
