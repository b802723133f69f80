import Mathlib

/-!
# Maps with a queue of their keys

A cache that drops its oldest entries has a queue of its keys. While every key of the map is in the queue once, both have
the same size, and the key at the front is one that can be dropped.
-/

namespace Lib

variable {α β : Type} {cmp : α → α → Ordering} [Std.TransCmp cmp] [Std.LawfulEqCmp cmp] {t : Std.ExtTreeMap α β cmp}
  {order : List α} {a : α} {v : β}

/-- The queue has the keys of the map, each once. -/
structure KeyQueue (t : Std.ExtTreeMap α β cmp) (order : List α) : Prop where
  nodup : order.Nodup
  mem : ∀ a, a ∈ order ↔ a ∈ t

namespace KeyQueue

omit [Std.LawfulEqCmp cmp] in
lemma empty : KeyQueue (∅ : Std.ExtTreeMap α β cmp) [] :=
  ⟨List.nodup_nil, fun _ => iff_of_false List.not_mem_nil Std.ExtTreeMap.not_mem_empty⟩

lemma perm (h : KeyQueue t order) : order.Perm t.keys :=
  (List.perm_ext_iff_of_nodup h.nodup t.nodup_keys).mpr fun a => (h.mem a).trans Std.ExtTreeMap.mem_keys.symm

lemma size_eq (h : KeyQueue t order) : t.size = order.length := by
  rw [h.perm.length_eq, Std.ExtTreeMap.length_keys]

/-- A new value under a key of the map. -/
lemma replace (h : KeyQueue t order) (ha : a ∈ t) : KeyQueue (t.insert a v) order := by
  refine ⟨h.nodup, fun b => ?_⟩
  rw [h.mem, Std.ExtTreeMap.mem_insert, Std.LawfulEqCmp.compare_eq_iff_eq]
  constructor
  · exact .inr
  · rintro (rfl | hb)
    · exact ha
    · exact hb

/-- A new key goes to the end. -/
lemma push (h : KeyQueue t order) (ha : a ∉ t) : KeyQueue (t.insert a v) (order ++ [a]) := by
  refine ⟨List.nodup_append.mpr ⟨h.nodup, List.nodup_singleton a, fun b hb c hc heq => ?_⟩, fun b => ?_⟩
  · rw [heq, List.mem_singleton.mp hc, h.mem] at hb
    exact ha hb
  · rw [List.mem_append, List.mem_singleton, h.mem, Std.ExtTreeMap.mem_insert, Std.LawfulEqCmp.compare_eq_iff_eq, or_comm, eq_comm]

/-- The front of the queue is dropped. -/
lemma pop (h : KeyQueue t (a :: order)) : KeyQueue (t.erase a) order := by
  obtain ⟨ha, hnodup⟩ := List.nodup_cons.mp h.nodup
  refine ⟨hnodup, fun b => ?_⟩
  rw [Std.ExtTreeMap.mem_erase, ← h.mem, List.mem_cons, Ne, Std.LawfulEqCmp.compare_eq_iff_eq]
  constructor
  · intro hb
    refine ⟨?_, .inr hb⟩
    rintro rfl
    exact ha hb
  · rintro ⟨hne, hb⟩
    exact hb.resolve_left fun heq => hne heq.symm

end KeyQueue

end Lib
