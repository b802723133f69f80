import Mathlib

/-!
# Outcomes of fallible code

A call of a function that returns a `Result` ends in one of three ways: with a value, with an error, or
by panicking. `Outcome ε α` keeps the three apart, so that "never panics" is a statement about the model
and not an assumption of it. Slice indexing and `expect` are the operations that introduce panics.
-/

namespace Lib

/-- How a call of fallible code ends. -/
inductive Outcome (ε α : Type) where
  | ok (a : α)
  | err (e : ε)
  | panic
  deriving DecidableEq, Repr

namespace Outcome

variable {ε ε' α β : Type}

/-- Run `f` on the value of a call that returned one. -/
def bind (x : Outcome ε α) (f : α → Outcome ε β) : Outcome ε β :=
  match x with
  | .ok a => f a
  | .err e => .err e
  | .panic => .panic

instance : Monad (Outcome ε) where
  pure := .ok
  bind := Outcome.bind

instance : LawfulMonad (Outcome ε) :=
  LawfulMonad.mk' (Outcome ε) (by rintro α (a | e | _) <;> rfl) (by intros; rfl)
    (by rintro α β γ (a | e | _) f g <;> rfl)

/-- Translate the error of a call, as `map_err` does. -/
def mapErr (f : ε → ε') (x : Outcome ε α) : Outcome ε' α :=
  match x with
  | .ok a => .ok a
  | .err e => .err (f e)
  | .panic => .panic

/-- Take the value of a call that must not fail: an error becomes a panic. -/
def expect (x : Outcome ε α) : Outcome ε' α :=
  match x with
  | .ok a => .ok a
  | .err _ => .panic
  | .panic => .panic

/-- The value, if there is one. -/
def toOption (x : Outcome ε α) : Option α :=
  match x with
  | .ok a => some a
  | .err _ => none
  | .panic => none

@[simp] lemma pure_def (a : α) : (pure a : Outcome ε α) = .ok a := rfl

@[simp] lemma ok_bind (a : α) (f : α → Outcome ε β) : (Outcome.ok a >>= f) = f a := rfl

@[simp] lemma err_bind (e : ε) (f : α → Outcome ε β) : (Outcome.err e >>= f) = .err e := rfl

@[simp] lemma panic_bind (f : α → Outcome ε β) : ((Outcome.panic : Outcome ε α) >>= f) = .panic := rfl

@[simp] lemma mapErr_ok (f : ε → ε') (a : α) : (Outcome.ok a).mapErr f = .ok a := rfl

@[simp] lemma mapErr_err (f : ε → ε') (e : ε) : (Outcome.err e : Outcome ε α).mapErr f = .err (f e) :=
  rfl

@[simp] lemma mapErr_panic (f : ε → ε') : (Outcome.panic : Outcome ε α).mapErr f = .panic := rfl

@[simp] lemma expect_ok (a : α) : ((Outcome.ok a : Outcome ε α).expect : Outcome ε' α) = .ok a := rfl

@[simp] lemma map_ok (f : α → β) (a : α) : f <$> (Outcome.ok a : Outcome ε α) = .ok (f a) := rfl

/-- A function on the value does not introduce panics. -/
@[simp] lemma map_eq_panic {f : α → β} {x : Outcome ε α} : f <$> x = .panic ↔ x = .panic := by
  cases x with
  | ok a => exact ⟨nofun, nofun⟩
  | err e => exact ⟨nofun, nofun⟩
  | panic => exact ⟨fun _ => rfl, fun _ => rfl⟩

lemma map_eq_ok {f : α → β} {x : Outcome ε α} {b : β} : f <$> x = .ok b ↔ ∃ a, x = .ok a ∧ f a = b := by
  cases x with
  | ok a =>
    rw [map_ok]
    constructor
    · intro h
      exact ⟨a, rfl, Outcome.ok.inj h⟩
    · rintro ⟨_, h, rfl⟩
      cases h
      rfl
  | err e =>
    constructor
    · intro h
      cases h
    · rintro ⟨_, h, -⟩
      cases h
  | panic =>
    constructor
    · intro h
      cases h
    · rintro ⟨_, h, -⟩
      cases h

lemma mem_toOption {x : Outcome ε α} {a : α} : a ∈ x.toOption ↔ x = .ok a := by
  cases x with
  | ok b => exact Option.some_inj.trans ⟨fun h => by rw [h], fun h => by cases h; rfl⟩
  | err e => exact ⟨nofun, nofun⟩
  | panic => exact ⟨nofun, nofun⟩

/-- Inversion for a sequence that ends with a value. -/
lemma bind_eq_ok {x : Outcome ε α} {f : α → Outcome ε β} {b : β} :
    (x >>= f) = .ok b ↔ ∃ a, x = .ok a ∧ f a = .ok b := by
  cases x with
  | ok a =>
    constructor
    · intro h
      exact ⟨a, rfl, h⟩
    · rintro ⟨a', e, h⟩
      cases e
      exact h
  | err e => simp
  | panic => simp

/-- A pass over a list that succeeds at every element. -/
lemma mapM_eq_ok {f : α → Outcome ε β} {g : α → β} {l : List α} (h : ∀ a ∈ l, f a = .ok (g a)) :
    l.mapM f = .ok (l.map g) := by
  induction l with
  | nil => rfl
  | cons a l ih =>
    rw [List.mapM_cons, h a List.mem_cons_self, ok_bind, ih fun b hb => h b (List.mem_cons_of_mem _ hb)]
    rfl

/-- Translating errors does not change values. -/
@[simp] lemma mapErr_eq_ok {f : ε → ε'} {x : Outcome ε α} {a : α} : x.mapErr f = .ok a ↔ x = .ok a := by
  cases x <;> simp

/-- Translating errors does not introduce panics. -/
@[simp] lemma mapErr_eq_panic {f : ε → ε'} {x : Outcome ε α} : x.mapErr f = .panic ↔ x = .panic := by
  cases x <;> simp

end Outcome

/-- Index a slice; out of range panics. -/
def idx {ε α : Type} (l : List α) (i : Nat) : Outcome ε α :=
  match l[i]? with
  | some a => .ok a
  | none => .panic

/-- Take the subslice `l[a..b]`; a range that is not inside the slice panics. -/
def slice {ε α : Type} (l : List α) (a b : Nat) : Outcome ε (List α) :=
  if a ≤ b ∧ b ≤ l.length then .ok ((l.drop a).take (b - a)) else .panic

section
variable {ε α : Type} {l : List α} {a b i : Nat}

/-- Indexing inside the slice returns the element. -/
lemma idx_of_getElem? {x : α} (h : l[i]? = some x) : (idx l i : Outcome ε α) = .ok x := by
  simp [idx, h]

lemma idx_eq_ok {x : α} : (idx l i : Outcome ε α) = .ok x ↔ l[i]? = some x := by
  refine ⟨fun h => ?_, idx_of_getElem?⟩
  rw [idx] at h
  cases hget : l[i]? with
  | none =>
    rw [hget] at h
    cases h
  | some y =>
    rw [hget] at h
    cases h
    rfl

/-- A subslice inside the slice is returned. -/
lemma slice_of_le (hab : a ≤ b) (hb : b ≤ l.length) :
    (slice l a b : Outcome ε (List α)) = .ok ((l.drop a).take (b - a)) := by
  simp [slice, hab, hb]

/-- The part between what stands in front of it and what stands behind it. -/
lemma slice_mid {pre mid post : List α} (hpre : pre.length = a) (hmid : a + mid.length = b) :
    (slice (pre ++ (mid ++ post)) a b : Outcome ε (List α)) = .ok mid := by
  rw [slice_of_le (by omega) (by rw [List.length_append, List.length_append]; omega), List.drop_left' hpre,
    List.take_left' (by omega)]

end

/-- An array of fixed size. -/
abbrev Arr (α : Type) (n : Nat) := { l : List α // l.length = n }

section
variable {ε α : Type} {n : Nat}

/-- The element of an array at an index in range. -/
def Arr.at (a : Arr α n) (i : Fin n) : α := a.val.get (i.cast a.property.symm)

/-- Copy a slice into an array; a slice of another length panics. -/
def copyFromSlice (n : Nat) (l : List α) : Outcome ε (Arr α n) :=
  if h : l.length = n then .ok ⟨l, h⟩ else .panic

/-- Cut an array off the front. -/
lemma exists_arr_append (m : Nat) {l : List α} (h : l.length = n + m) :
    ∃ (a : Arr α n) (rest : List α), l = a.val ++ rest ∧ rest.length = m := by
  refine ⟨⟨l.take n, ?_⟩, l.drop n, (List.take_append_drop n l).symm, ?_⟩
  · exact List.length_take_of_le (h ▸ Nat.le_add_right n m)
  · rw [List.length_drop, h, Nat.add_sub_cancel_left]

/-- A slice of the right length is copied. -/
lemma copyFromSlice_val (a : Arr α n) : (copyFromSlice n a.val : Outcome ε (Arr α n)) = .ok a := by
  simp [copyFromSlice, a.property]

end

end Lib
