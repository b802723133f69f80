import Mathlib

/-!
# Items that change places

A component keeps its items in several lists, and a step moves some of them from one list to another. Where the items
are is the sum of the lists as multisets: what is put at the end of a list is added (`coe_concat`), what is taken out of
it is subtracted (`coe_eraseIdx`, `coe_eraseP`). If always the first item that fits is taken, then the items of one kind
leave in the order in which they came (`filter_eraseP`).
-/

namespace Lib

variable {α β : Type} {l : List α} {a : α} {p q : α → Bool} {k : Nat}

lemma coe_concat (l : List α) (a : α) : ((l ++ [a] : List α) : Multiset α) = l + {a} := by
  rw [← Multiset.coe_add, Multiset.coe_singleton]

lemma coe_map_concat (f : α → β) (l : List α) (a : α) : (((l ++ [a]).map f : List β) : Multiset β) = l.map f + {f a} := by
  rw [List.map_append, ← coe_concat]
  rfl

/-- The item at an index is taken out. -/
lemma coe_eraseIdx (h : l[k]? = some a) : (l : Multiset α) = {a} + (l.eraseIdx k : List α) := by
  rw [Multiset.singleton_add, Multiset.cons_coe, Multiset.coe_eq_coe]
  obtain ⟨hlt, rfl⟩ := List.getElem?_eq_some_iff.mp h
  exact (List.getElem_cons_eraseIdx_perm hlt).symm

lemma coe_map_eraseIdx (f : α → β) (h : l[k]? = some a) :
    ((l.map f : List β) : Multiset β) = {f a} + ((l.eraseIdx k).map f : List β) := by
  rw [← Multiset.map_coe, coe_eraseIdx h, Multiset.map_add, Multiset.map_singleton, Multiset.map_coe]

/-- An item is replaced. -/
lemma coe_set (h : l[k]? = some a) (b : α) : ((l.set k b : List α) : Multiset α) = {b} + (l.eraseIdx k : List α) := by
  obtain ⟨hlt, -⟩ := List.getElem?_eq_some_iff.mp h
  have hset : (l.set k b)[k]? = some b := List.getElem?_set_self hlt
  rw [coe_eraseIdx hset, List.eraseIdx_set_eq]

lemma filterMap_singleton (f : α → Option β) (a : α) :
    Multiset.filterMap f {a} = (((f a).toList : List β) : Multiset β) := by
  cases h : f a with
  | none => exact Multiset.filterMap_cons_none a 0 h
  | some b => exact Multiset.filterMap_cons_some f a 0 h

/-- Only some of the items count. -/
lemma coe_filterMap_concat (f : α → Option β) (l : List α) (a : α) :
    (((l ++ [a]).filterMap f : List β) : Multiset β) = l.filterMap f + (((f a).toList : List β) : Multiset β) := by
  rw [← Multiset.filterMap_coe, coe_concat, Multiset.filterMap_add, filterMap_singleton, Multiset.filterMap_coe]

lemma coe_filterMap_eraseIdx (f : α → Option β) (h : l[k]? = some a) :
    ((l.filterMap f : List β) : Multiset β) = (((f a).toList : List β) : Multiset β) + (l.eraseIdx k).filterMap f := by
  rw [← Multiset.filterMap_coe, coe_eraseIdx h, Multiset.filterMap_add, filterMap_singleton, Multiset.filterMap_coe]

lemma coe_filterMap_set (f : α → Option β) (h : l[k]? = some a) (b : α) :
    (((l.set k b).filterMap f : List β) : Multiset β) = (((f b).toList : List β) : Multiset β) + (l.eraseIdx k).filterMap f := by
  rw [← Multiset.filterMap_coe, coe_set h, Multiset.filterMap_add, filterMap_singleton, Multiset.filterMap_coe]

/-- Every item is of one of two kinds. -/
lemma length_filterMap_add {f g : α → Option β} (h : ∀ a, (g a).isSome = !(f a).isSome) (l : List α) :
    (l.filterMap f).length + (l.filterMap g).length = l.length := by
  induction l with
  | nil => rfl
  | cons a l ih =>
    have ha := h a
    rw [List.filterMap_cons, List.filterMap_cons, List.length_cons, ← ih]
    cases hf : f a with
    | none =>
      rw [hf] at ha
      obtain ⟨b, hg⟩ := Option.isSome_iff_exists.mp ha
      rw [hg]
      exact (Nat.add_assoc _ _ 1).symm
    | some b =>
      rw [hf] at ha
      rw [Option.not_isSome_iff_eq_none.mp (Bool.eq_false_iff.mp ha)]
      exact Nat.add_right_comm _ 1 _

/-- The first item that fits is taken out. -/
lemma coe_eraseP (h : l.find? p = some a) : (l : Multiset α) = {a} + (l.eraseP p : List α) := by
  induction l with
  | nil => cases h
  | cons x l ih =>
    cases hx : p x with
    | true =>
      rw [List.find?_cons_of_pos hx] at h
      cases h
      rw [List.eraseP_cons_of_pos hx]
      rfl
    | false =>
      have hneg : ¬ p x = true := Bool.eq_false_iff.mp hx
      rw [List.find?_cons_of_neg hneg] at h
      rw [List.eraseP_cons_of_neg hneg, ← Multiset.cons_coe, ← Multiset.cons_coe, ih h, Multiset.add_cons]

lemma coe_map_eraseP (f : α → β) (h : l.find? p = some a) :
    ((l.map f : List β) : Multiset β) = {f a} + ((l.eraseP p).map f : List β) := by
  rw [← Multiset.map_coe, coe_eraseP h, Multiset.map_add, Multiset.map_singleton, Multiset.map_coe]

/-- An item that is taken as the first that fits is the first of its kind, if all of the kind fit. -/
lemma filter_eraseP (h : l.find? p = some a) (hkind : q a = true → ∀ x, q x = true → p x = true) :
    l.filter q = [a].filter q ++ (l.eraseP p).filter q := by
  induction l with
  | nil => cases h
  | cons x l ih =>
    cases hx : p x with
    | true =>
      rw [List.find?_cons_of_pos hx] at h
      cases h
      rw [List.eraseP_cons_of_pos hx, ← List.filter_append]
      rfl
    | false =>
      have hneg : ¬ p x = true := Bool.eq_false_iff.mp hx
      rw [List.find?_cons_of_neg hneg] at h
      rw [List.eraseP_cons_of_neg hneg]
      cases hqx : q x with
      | false => rw [List.filter_cons_of_neg (Bool.eq_false_iff.mp hqx), List.filter_cons_of_neg (Bool.eq_false_iff.mp hqx), ih h]
      | true =>
        -- then the one that is taken is of another kind
        have hqa : ¬ q a = true := fun hqa => hneg (hkind hqa x hqx)
        rw [List.filter_cons_of_pos hqx, List.filter_cons_of_pos hqx, ih h, List.filter_cons_of_neg hqa, List.filter_nil,
          List.nil_append, List.nil_append]

/-- A test that the first item passes anyway does not change which one it is. -/
lemma find?_and (h : ∀ y, l.find? p = some y → q y = true) :
    l.find? (fun y => p y && q y) = l.find? p := by
  induction l with
  | nil => rfl
  | cons y l ih =>
    cases hp : p y with
    | true =>
      have hq : q y = true := h y (List.find?_cons_of_pos hp)
      rw [List.find?_cons_of_pos hp, List.find?_cons_of_pos (by rw [hp, hq]; rfl)]
    | false =>
      have hneg : ¬ p y = true := Bool.eq_false_iff.mp hp
      rw [List.find?_cons_of_neg hneg, List.find?_cons_of_neg (by rw [hp]; exact Bool.false_ne_true)]
      exact ih fun z hz => h z ((List.find?_cons_of_neg hneg).trans hz)

end Lib
