import IPv8Plus.Lib.BigEndian
import IPv8Plus.Lib.Outcome

/-!
# Blocks

Byte strings that are made of blocks of one length, and loops over the indices of a list.
-/

namespace Lib

variable {ε α β : Type} {f : α → Bytes} {n k : Nat} {xs : List α}

/-- The part that begins with a known element. -/
lemma take_drop_succ {l : List α} {i : Nat} {x : α} (h : l[i]? = some x) : (l.drop i).take (n + 1) = x :: (l.drop (i + 1)).take n := by
  obtain ⟨hi, rfl⟩ := List.getElem?_eq_some_iff.mp h
  rw [List.drop_eq_getElem_cons hi, List.take_succ_cons]

lemma length_blocks (hf : ∀ x, (f x).length = n) : (xs.flatMap f).length = xs.length * n := by
  induction xs with
  | nil => exact (Nat.zero_mul n).symm
  | cons x xs ih => rw [List.flatMap_cons, List.length_append, hf, ih, List.length_cons, Nat.succ_mul, Nat.add_comm]

/-- What stands before a block of a table, and behind it. -/
lemma exists_around (hf : ∀ x, (f x).length = n) (before after : Bytes) {i : Nat} {x : α} (h : xs[i]? = some x) :
    ∃ pre post, before ++ (xs.flatMap f ++ after) = pre ++ (f x ++ post) ∧ pre.length = before.length + i * n := by
  obtain ⟨hi, hx⟩ := List.getElem?_eq_some_iff.mp h
  have hsplit : xs = xs.take i ++ x :: xs.drop (i + 1) := by
    rw [← hx, ← List.drop_eq_getElem_cons hi, List.take_append_drop]
  refine ⟨before ++ (xs.take i).flatMap f, (xs.drop (i + 1)).flatMap f ++ after, ?_, ?_⟩
  · conv_lhs => rw [hsplit]
    rw [List.flatMap_append, List.flatMap_cons, List.append_assoc, List.append_assoc, List.append_assoc]
  · rw [List.length_append, length_blocks hf, List.length_take, Nat.min_eq_left hi.le]

/-- One block of a table. -/
lemma slice_blocks (hf : ∀ x, (f x).length = n) (before after : Bytes) {i : Nat} {x : α} (h : xs[i]? = some x) :
    (slice (before ++ (xs.flatMap f ++ after)) (before.length + i * n) (before.length + i * n + n) : Outcome ε Bytes) = .ok (f x) := by
  obtain ⟨pre, post, htable, hpre⟩ := exists_around hf before after h
  rw [htable]
  exact slice_mid hpre (congrArg (before.length + i * n + ·) (hf x))

/-- All blocks of a table, read one after the other. -/
lemma map_range_blocks (xs : List α) (hf : ∀ x, (f x).length = n) (before after : Bytes) (g : Bytes → β) :
    (List.range xs.length).map (fun i => g (((before ++ (xs.flatMap f ++ after)).drop (before.length + i * n)).take n)) =
      xs.map fun x => g (f x) := by
  refine List.ext_getElem (by rw [List.length_map, List.length_map, List.length_range]) fun i hi _ => ?_
  rw [List.length_map, List.length_range] at hi
  obtain ⟨pre, post, htable, hpre⟩ := exists_around hf before after (List.getElem?_eq_getElem hi)
  rw [List.getElem_map, List.getElem_map, List.getElem_range, htable, List.drop_left' hpre, List.take_left' (hf _)]

lemma append_eq_append_iff_of_length {a b c d : Bytes} (h : a.length = c.length) : a ++ b = c ++ d ↔ a = c ∧ b = d := by
  refine ⟨fun heq => List.append_inj heq h, ?_⟩
  rintro ⟨rfl, rfl⟩
  rfl

/-- Tables of one length are equal if their blocks are. -/
lemma flatMap_eq_iff {ys : List α} (hf : ∀ x, (f x).length = n) (hlen : xs.length = ys.length) :
    xs.flatMap f = ys.flatMap f ↔ ∀ (i : Nat) x y, xs[i]? = some x → ys[i]? = some y → f x = f y := by
  induction xs generalizing ys with
  | nil =>
    rw [List.length_eq_zero_iff.mp hlen.symm]
    refine iff_of_true rfl fun i x y hx => ?_
    cases hx
  | cons x xs ih =>
    cases ys with
    | nil => cases hlen
    | cons y ys =>
      rw [List.flatMap_cons, List.flatMap_cons, append_eq_append_iff_of_length ((hf x).trans (hf y).symm), ih (Nat.succ_injective hlen)]
      constructor
      · rintro ⟨hhead, htail⟩ i x' y' hx hy
        cases i with
        | zero =>
          cases hx
          cases hy
          exact hhead
        | succ i => exact htail i x' y' hx hy
      · intro h
        exact ⟨h 0 x y rfl rfl, fun i x' y' hx hy => h (i + 1) x' y' hx hy⟩

/-- A string of such a length is made of blocks, if every string of the length of a block is one. -/
lemma exists_blocks (hf : ∀ b : Bytes, b.length = n → ∃ x, f x = b) {b : Bytes} (h : b.length = k * n) :
    ∃ xs : List α, xs.length = k ∧ xs.flatMap f = b := by
  induction k generalizing b with
  | zero => exact ⟨[], rfl, (List.length_eq_zero_iff.mp (h.trans (Nat.zero_mul n))).symm⟩
  | succ k ih =>
    rw [Nat.succ_mul, Nat.add_comm] at h
    obtain ⟨block, rest, rfl, hrest⟩ := exists_arr_append (k * n) h
    obtain ⟨x, hx⟩ := hf block.val block.property
    obtain ⟨xs, hlen, hxs⟩ := ih hrest
    exact ⟨x :: xs, by rw [List.length_cons, hlen], by rw [List.flatMap_cons, hx, hxs]⟩

/-! ## Loops -/

/-- A pass over the indices of a list that returns its elements. -/
lemma mapM_range {g : Nat → Outcome ε α} (h : ∀ i x, xs[i]? = some x → g i = .ok x) : (List.range xs.length).mapM g = .ok xs := by
  induction xs using List.reverseRecOn with
  | nil => rfl
  | append_singleton xs x ih =>
    have hlast := h xs.length x (by rw [List.getElem?_append_right le_rfl, Nat.sub_self]; rfl)
    have hfront := ih fun i y hy => h i y (by rw [List.getElem?_append_left (List.getElem?_eq_some_iff.mp hy).1]; exact hy)
    rw [List.length_append, List.length_singleton, List.range_succ, List.mapM_append, hfront, List.mapM_cons, hlast]
    rfl

/-- A loop over the indices of a list that uses its elements. -/
lemma foldlM_range {g : β → Nat → Outcome ε β} {step : β → α → β} {b : β} (h : ∀ c i x, xs[i]? = some x → g c i = .ok (step c x)) :
    (List.range xs.length).foldlM g b = .ok (xs.foldl step b) := by
  induction xs using List.reverseRecOn with
  | nil => rfl
  | append_singleton xs x ih =>
    have hlast := fun c => h c xs.length x (by rw [List.getElem?_append_right le_rfl, Nat.sub_self]; rfl)
    have hfront := ih fun c i y hy => h c i y (by rw [List.getElem?_append_left (List.getElem?_eq_some_iff.mp hy).1]; exact hy)
    rw [List.length_append, List.length_singleton, List.range_succ, List.foldlM_append, hfront, List.foldl_concat]
    exact (Outcome.ok_bind _ _).trans ((List.foldlM_cons ..).trans (by rw [hlast]; rfl))

end Lib
