import Mathlib

/-!
# Lists by key

A table as a list: a value whose key is known takes the place of the one before it, a value with a new key goes to the end.
Whatever is put into an empty table, every key is in it once, at the place of its first value and with its last one.
-/

namespace Lib

variable {α κ : Type} [DecidableEq κ] (key : α → κ)

/-- Put a value into a table. -/
def putBy (x : α) : List α → List α
  | [] => [x]
  | y :: ys => if key y = key x then x :: ys else y :: putBy x ys

/-- Put values into an empty table, one after another. -/
def putAll (xs : List α) : List α := xs.foldl (fun l x => putBy key x l) []

variable {key} {x y : α} {l xs : List α}

lemma putBy_of_notMem (h : key x ∉ l.map key) : putBy key x l = l ++ [x] := by
  induction l with
  | nil => rfl
  | cons y l ih =>
    rw [List.map_cons, List.mem_cons, not_or] at h
    rw [putBy, if_neg (Ne.symm h.1), ih h.2, List.cons_append]

/-- Keys keep their places. -/
lemma map_putBy : (putBy key x l).map key = if key x ∈ l.map key then l.map key else l.map key ++ [key x] := by
  induction l with
  | nil => rfl
  | cons y l ih =>
    rw [putBy, List.map_cons]
    split
    · next heq =>
      rw [if_pos (List.mem_cons.mpr (.inl heq.symm)), List.map_cons, heq]
    · next hne =>
      rw [List.map_cons, ih]
      by_cases hmem : key x ∈ l.map key
      · rw [if_pos hmem, if_pos (List.mem_cons_of_mem _ hmem)]
      · rw [if_neg hmem, if_neg, List.cons_append]
        exact fun h => (List.mem_cons.mp h).elim (fun heq => hne heq.symm) hmem

lemma nodup_putBy (h : (l.map key).Nodup) : ((putBy key x l).map key).Nodup := by
  rw [map_putBy]
  split
  · exact h
  · next hnot =>
    rw [← List.concat_eq_append]
    exact h.concat hnot

/-- The value is in the table, and of the others those with other keys. -/
lemma mem_putBy (h : (l.map key).Nodup) : y ∈ putBy key x l ↔ y = x ∨ y ∈ l ∧ key y ≠ key x := by
  induction l with
  | nil =>
    rw [putBy, List.mem_singleton]
    exact ⟨.inl, fun hy => hy.resolve_right fun hl => List.not_mem_nil hl.1⟩
  | cons z l ih =>
    obtain ⟨hz, hl⟩ := List.nodup_cons.mp h
    rw [putBy]
    split
    · next heq =>
      rw [List.mem_cons, List.mem_cons]
      constructor
      · rintro (rfl | hy)
        · exact .inl rfl
        · exact .inr ⟨.inr hy, fun hkey => hz (heq ▸ hkey ▸ List.mem_map_of_mem hy)⟩
      · rintro (rfl | ⟨rfl | hy, hne⟩)
        · exact .inl rfl
        · exact absurd heq hne
        · exact .inr hy
    · next hne =>
      rw [List.mem_cons, List.mem_cons, ih hl]
      constructor
      · rintro (rfl | rfl | ⟨hy, hkey⟩)
        · exact .inr ⟨.inl rfl, hne⟩
        · exact .inl rfl
        · exact .inr ⟨.inr hy, hkey⟩
      · rintro (rfl | ⟨rfl | hy, hkey⟩)
        · exact .inr (.inl rfl)
        · exact .inl rfl
        · exact .inr (.inr ⟨hy, hkey⟩)

/-- The value of a known key takes the place of the one before it. -/
lemma putBy_set {i : Nat} (h : (l.map key).Nodup) (hi : l[i]? = some y) (hkey : key y = key x) : putBy key x l = l.set i x := by
  induction l generalizing i with
  | nil => cases hi
  | cons z l ih =>
    obtain ⟨hz, hl⟩ := List.nodup_cons.mp h
    cases i with
    | zero =>
      cases hi
      rw [putBy, if_pos hkey, List.set_cons_zero]
    | succ i =>
      rw [List.getElem?_cons_succ] at hi
      have hne : key z ≠ key x := fun heq => hz (heq ▸ hkey ▸ List.mem_map_of_mem (List.mem_of_getElem? hi))
      rw [putBy, if_neg hne, ih hl hi, List.set_cons_succ]

/-- By the place of the first value with the key. -/
lemma putBy_findIdx? : putBy key x l = match l.findIdx? fun y => key y = key x with
    | some i => l.set i x
    | none => l ++ [x] := by
  induction l with
  | nil => rfl
  | cons y l ih =>
    rw [putBy, List.findIdx?_cons]
    by_cases heq : key y = key x
    · rw [if_pos heq, if_pos (decide_eq_true heq)]
      rfl
    · rw [if_neg heq, if_neg (by simpa using heq), ih]
      cases l.findIdx? fun y => key y = key x with
      | none => rfl
      | some i => rfl

/-! ## Many values -/

lemma putAll_concat : putAll key (xs ++ [x]) = putBy key x (putAll key xs) := List.foldl_concat ..

lemma nodup_putAll : ((putAll key xs).map key).Nodup := by
  induction xs using List.reverseRecOn with
  | nil => exact List.nodup_nil
  | append_singleton xs x ih =>
    rw [putAll_concat]
    exact nodup_putBy ih

/-- The keys in the order of their first values. -/
lemma map_putAll [BEq κ] [LawfulBEq κ] : (putAll key xs).map key = (xs.map key).eraseDups := by
  induction xs using List.reverseRecOn with
  | nil => rfl
  | append_singleton xs x ih =>
    rw [putAll_concat, map_putBy, ih, List.map_append, List.eraseDups_append, List.map_singleton]
    by_cases hmem : key x ∈ xs.map key
    · rw [if_pos (List.mem_eraseDups.mpr hmem)]
      have hnone : [key x].removeAll (xs.map key) = [] := by
        rw [List.removeAll, List.filter_cons_of_neg (by simpa using hmem), List.filter_nil]
      rw [hnone, List.eraseDups_nil, List.append_nil]
    · rw [if_neg fun h => hmem (List.mem_eraseDups.mp h)]
      have hone : [key x].removeAll (xs.map key) = [key x] := by
        rw [List.removeAll, List.filter_cons_of_pos (by simpa using hmem), List.filter_nil]
      rw [hone, List.eraseDups_cons, List.filter_nil, List.eraseDups_nil]

/-- Of every key the last value is there. -/
lemma mem_putAll : y ∈ putAll key xs ↔ ∃ before after, xs = before ++ y :: after ∧ ∀ z ∈ after, key z ≠ key y := by
  induction xs using List.reverseRecOn with
  | nil =>
    refine iff_of_false List.not_mem_nil ?_
    rintro ⟨before, after, h, -⟩
    exact List.append_ne_nil_of_right_ne_nil before (List.cons_ne_nil y after) h.symm
  | append_singleton xs x ih =>
    rw [putAll_concat, mem_putBy nodup_putAll, ih]
    constructor
    · rintro (rfl | ⟨⟨before, after, rfl, hlast⟩, hne⟩)
      · exact ⟨xs, [], rfl, nofun⟩
      · refine ⟨before, after ++ [x], by rw [List.append_assoc, List.cons_append], ?_⟩
        intro z hz
        rcases List.mem_append.mp hz with hz | hz
        · exact hlast z hz
        · rw [List.mem_singleton.mp hz]
          exact hne.symm
    · rintro ⟨before, after, hsplit, hlast⟩
      cases after using List.reverseRecOn with
      | nil => exact .inl (List.append_inj_right' hsplit rfl |> List.head_eq_of_cons_eq).symm
      | append_singleton after z =>
        rw [← List.cons_append, ← List.append_assoc] at hsplit
        obtain ⟨rfl, hz⟩ := List.append_inj' hsplit rfl
        cases hz
        refine .inr ⟨⟨before, after, rfl, fun w hw => hlast w (List.mem_append_left _ hw)⟩, ?_⟩
        exact (hlast x (List.mem_append_right _ (List.mem_singleton_self x))).symm

/-- Values of distinct keys are the table. -/
lemma putAll_of_nodup (h : (xs.map key).Nodup) : putAll key xs = xs := by
  induction xs using List.reverseRecOn with
  | nil => rfl
  | append_singleton xs x ih =>
    rw [List.map_append, List.map_singleton, List.nodup_append] at h
    obtain ⟨hxs, -, hdisj⟩ := h
    rw [putAll_concat, ih hxs, putBy_of_notMem]
    exact fun hmem => hdisj _ hmem _ (List.mem_singleton_self _) rfl

end Lib
