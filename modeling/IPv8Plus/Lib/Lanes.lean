import Mathlib

/-!
# Lanes

Items go to a receiver over several lanes. Every lane keeps their order, but the lanes are not synchronised: what the
receiver has got of each is a first part of what was sent on it. All that the receiver has got can then be matched with
items that were sent (`exists_matching`), and the items of a class that uses one lane have come in order
(`inOrder_of_lane`).
-/

namespace Lib

variable {α β γ κ : Type} [DecidableEq κ] [DecidableEq γ] {lane : α → κ} {kind : α → γ} {content : α → β} {sent matched : List α}

/-- What was sent on the lane. -/
def onLane (lane : α → κ) (k : κ) (items : List α) : List α := items.filter fun a => lane a = k

lemma onLane_concat_self (items : List α) (a : α) : onLane lane (lane a) (items ++ [a]) = onLane lane (lane a) items ++ [a] := by
  simp [onLane]

lemma onLane_concat_of_ne {k : κ} {a : α} (h : lane a ≠ k) (items : List α) : onLane lane k (items ++ [a]) = onLane lane k items := by
  simp [onLane, h]

lemma map_onLane_append (received : List (κ × β)) (k : κ) (items : List β) :
    (onLane Prod.fst k (received ++ items.map (Prod.mk k))).map (·.2) = (onLane Prod.fst k received).map (·.2) ++ items := by
  simp [onLane, List.filter_map, Function.comp_def]

lemma onLane_append_of_ne {j k : κ} (h : k ≠ j) (received : List (κ × β)) (items : List β) :
    onLane Prod.fst j (received ++ items.map (Prod.mk k)) = onLane Prod.fst j received := by
  simp [onLane, List.filter_map, Function.comp_def, h]

lemma map_onLane_map (items : List α) (k : κ) :
    (onLane Prod.fst k (items.map fun a => (lane a, content a))).map (·.2) = (onLane lane k items).map content := by
  rw [onLane, onLane, List.filter_map, List.map_map]
  rfl

/-- What comes out of the lanes are items that were sent, on every lane in the order in which they were sent. -/
theorem exists_matching {received : List (κ × β)}
    (h : ∀ k, (onLane Prod.fst k received).map (·.2) <+: (onLane lane k sent).map content) :
    ∃ matched : List α, received = matched.map (fun a => (lane a, content a)) ∧
      ∀ k, onLane lane k matched <+: onLane lane k sent := by
  induction received using List.reverseRecOn with
  | nil => exact ⟨[], rfl, fun k => List.nil_prefix⟩
  | append_singleton received x ih =>
    obtain ⟨k, b⟩ := x
    have hold : ∀ j, (onLane Prod.fst j received).map (·.2) <+: (onLane lane j sent).map content := by
      intro j
      apply List.IsPrefix.trans _ (h j)
      rw [onLane, onLane, List.filter_append, List.map_append]
      exact List.prefix_append _ _
    obtain ⟨matched, hmatched, hlanes⟩ := ih hold
    have hcount : (onLane Prod.fst k received).map (·.2) = (onLane lane k matched).map content := by
      rw [hmatched, map_onLane_map]
    obtain ⟨rest, hrest⟩ := hlanes k
    have hnext := h k
    rw [@onLane_concat_self _ _ _ Prod.fst received (k, b), List.map_append, hcount, ← hrest, List.map_append,
      List.prefix_append_right_inj] at hnext
    obtain ⟨a, rest, rfl⟩ : ∃ a rest', rest = a :: rest' := by
      cases rest with
      | nil => exact absurd (List.prefix_nil.mp hnext) (List.cons_ne_nil _ _)
      | cons a rest => exact ⟨a, rest, rfl⟩
    have hb : b = content a := (List.cons_prefix_cons.mp hnext).1
    have hk : lane a = k := by
      have hmem : a ∈ onLane lane k sent := by
        rw [← hrest]
        exact List.mem_append_right _ List.mem_cons_self
      exact of_decide_eq_true (List.mem_filter.mp hmem).2
    refine ⟨matched ++ [a], ?_, fun j => ?_⟩
    · rw [hmatched, List.map_append, hb, ← hk]
      rfl
    · by_cases hj : lane a = j
      · rw [← hj, onLane_concat_self, hk, ← hrest, List.prefix_append_right_inj]
        exact List.cons_prefix_cons.mpr ⟨rfl, List.nil_prefix⟩
      · rw [onLane_concat_of_ne hj]
        exact hlanes j

/-- All items of the class are on the lane. -/
lemma filter_onLane {items : List α} {c : γ} {k : κ} (h : ∀ a ∈ items, kind a = c → lane a = k) :
    (onLane lane k items).filter (fun a => kind a = c) = items.filter fun a => kind a = c := by
  rw [onLane, List.filter_filter]
  apply List.filter_congr
  intro a ha
  by_cases hc : kind a = c
  · simp [hc, h a ha hc]
  · simp [hc]

/-- The items of a class that uses one lane come out in order, and all of them if the lanes are empty. -/
theorem inOrder_of_lane {c : γ} {k : κ} (hsent : ∀ a ∈ sent, kind a = c → lane a = k)
    (hlanes : ∀ j, onLane lane j matched <+: onLane lane j sent) :
    matched.filter (fun a => kind a = c) <+: sent.filter (fun a => kind a = c) ∧
      (onLane lane k matched = onLane lane k sent →
        matched.filter (fun a => kind a = c) = sent.filter fun a => kind a = c) := by
  have hmatched : ∀ a ∈ matched, kind a = c → lane a = k := by
    intro a ha
    have hon : a ∈ onLane lane (lane a) matched := List.mem_filter.mpr ⟨ha, decide_eq_true rfl⟩
    exact hsent a (List.mem_filter.mp ((hlanes (lane a)).subset hon)).1
  rw [← filter_onLane hmatched, ← filter_onLane hsent]
  exact ⟨(hlanes k).filter _, fun hall => by rw [hall]⟩

end Lib
