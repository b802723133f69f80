import Mathlib

/-!
# Reassembling a string from pieces

Pieces of a string arrive in any order, each with the position of its first element. Pieces ahead of the
contiguous prefix wait in a backlog; `drain` moves the pieces that continue the prefix out of it. Three
things are shown about `drain`: pieces that do not overlap stay so, no element is lost or counted twice,
and on the pieces of one tiling the prefix is always a prefix of the tiled string.
-/

namespace Lib

variable {α : Type}

/-- The pieces that wait, by their start. -/
abbrev Backlog (α : Type) := Std.ExtTreeMap Nat (List α)

/-- Move pieces from the backlog to the prefix while one starts where the prefix ends. -/
def drain (chunks : Backlog α) (pos : Nat) (payload : List α) : Backlog α × Nat × List α :=
  match _h : chunks[pos]? with
  | none => (chunks, pos, payload)
  | some bytes => drain (chunks.erase pos) (pos + bytes.length) (payload ++ bytes)
termination_by chunks.size
decreasing_by
  have hm : chunks.contains pos = true := by
    rw [Std.ExtTreeMap.contains_eq_isSome_getElem?, _h]
    rfl
  have hpos : chunks.size ≠ 0 := by
    intro e
    rw [Std.ExtTreeMap.eq_empty_iff_size_eq_zero.mpr e] at hm
    simp at hm
  rw [Std.ExtTreeMap.size_erase, if_pos hm]
  omega

/-- Whatever each move keeps, the whole `drain` keeps. -/
theorem drain_induction {P : Backlog α → Nat → List α → Prop}
    (hstep : ∀ chunks pos payload bytes, P chunks pos payload → chunks[pos]? = some bytes →
      P (chunks.erase pos) (pos + bytes.length) (payload ++ bytes))
    {chunks : Backlog α} {pos : Nat} {payload : List α} (h : P chunks pos payload) :
    P (drain chunks pos payload).1 (drain chunks pos payload).2.1 (drain chunks pos payload).2.2 := by
  fun_induction drain chunks pos payload with
  | case1 chunks pos payload e => exact h
  | case2 chunks pos payload bytes e ih => exact ih (hstep _ _ _ _ h e)

/-- `drain` stops where no piece continues the prefix. -/
lemma drain_stuck (chunks : Backlog α) (pos : Nat) (payload : List α) :
    (drain chunks pos payload).1[(drain chunks pos payload).2.1]? = none := by
  fun_induction drain chunks pos payload with
  | case1 chunks pos payload e => exact e
  | case2 chunks pos payload bytes e ih => exact ih

/-- A waiting piece is one of the others after a removal. -/
lemma getElem?_erase_eq_some {chunks : Backlog α} {pos s : Nat} {b : List α} :
    (chunks.erase pos)[s]? = some b ↔ pos ≠ s ∧ chunks[s]? = some b := by
  rw [Std.ExtTreeMap.getElem?_erase]
  by_cases h : pos = s
  · simp [h]
  · simp [h]

lemma getElem?_insert_eq_some {chunks : Backlog α} {pos s : Nat} {a b : List α} :
    (chunks.insert pos a)[s]? = some b ↔ pos = s ∧ a = b ∨ pos ≠ s ∧ chunks[s]? = some b := by
  rw [Std.ExtTreeMap.getElem?_insert]
  by_cases h : pos = s
  · simp [h]
  · simp [h]

/-- Waiting pieces follow one another without a gap from the first position to the second. -/
inductive Reaches (chunks : Backlog α) : Nat → Nat → Prop
  | refl (pos : Nat) : Reaches chunks pos pos
  | step {pos t : Nat} {b : List α} : chunks[pos]? = some b → b ≠ [] → Reaches chunks (pos + b.length) t →
      Reaches chunks pos t

/-- Pieces behind a position do not matter for what follows it. -/
lemma reaches_erase {chunks : Backlog α} {k pos t : Nat} (hk : k < pos) :
    Reaches (chunks.erase k) pos t ↔ Reaches chunks pos t := by
  constructor
  · intro h
    induction h with
    | refl pos => exact .refl pos
    | step e hb _ ih => exact .step (getElem?_erase_eq_some.mp e).2 hb (ih (Nat.lt_add_right _ hk))
  · intro h
    induction h with
    | refl pos => exact .refl pos
    | step e hb _ ih =>
      exact .step (getElem?_erase_eq_some.mpr ⟨Nat.ne_of_lt hk, e⟩) hb (ih (Nat.lt_add_right _ hk))

lemma Reaches.le {chunks : Backlog α} {pos t : Nat} (h : Reaches chunks pos t) : pos ≤ t := by
  induction h with
  | refl pos => exact le_rfl
  | step _ _ _ ih => exact le_trans (Nat.le_add_right _ _) ih

/-- `drain` stops at the end of the pieces that follow one another. -/
theorem drain_end_iff {chunks : Backlog α} {pos t : Nat} {payload : List α} :
    (drain chunks pos payload).2.1 = t ↔ Reaches chunks pos t ∧ ∀ b, chunks[t]? = some b → b = [] := by
  fun_induction drain chunks pos payload with
  | case1 chunks pos payload e =>
    constructor
    · rintro rfl
      exact ⟨.refl pos, fun b hb => by rw [e] at hb; cases hb⟩
    · intro ⟨h, _⟩
      cases h with
      | refl => rfl
      | step e' _ _ => rw [e] at e'; cases e'
  | case2 chunks pos payload bytes e ih =>
    rw [ih]
    cases bytes with
    | nil =>
      -- an empty piece is dropped, and nothing else starts there
      have hstuck : ∀ t, Reaches (chunks.erase pos) (pos + ([] : List α).length) t → t = pos := by
        intro t h
        cases h with
        | refl => rfl
        | step e' _ _ => exact absurd rfl (getElem?_erase_eq_some.mp e').1
      have hstuck' : Reaches chunks pos t → t = pos := by
        intro h
        cases h with
        | refl => rfl
        | step e' hb _ =>
          rw [e] at e'
          cases e'
          exact absurd rfl hb
      constructor
      · intro ⟨h, _⟩
        rw [hstuck t h]
        exact ⟨.refl pos, fun b hb => by rw [e] at hb; cases hb; rfl⟩
      · intro ⟨h, _⟩
        rw [hstuck' h]
        exact ⟨.refl pos, fun b hb => absurd rfl (getElem?_erase_eq_some.mp hb).1⟩
    | cons x xs =>
      have hlt : pos < pos + (x :: xs).length := Nat.lt_add_of_pos_right (Nat.succ_pos _)
      rw [reaches_erase hlt]
      constructor
      · intro ⟨h, hend⟩
        refine ⟨.step e (List.cons_ne_nil x xs) h, fun b hb => hend b ?_⟩
        exact getElem?_erase_eq_some.mpr ⟨Nat.ne_of_lt (lt_of_lt_of_le hlt h.le), hb⟩
      · intro ⟨h, hend⟩
        cases h with
        | refl => exact absurd (hend _ e) (List.cons_ne_nil x xs)
        | step e' _ h =>
          rw [e] at e'
          cases e'
          exact ⟨h, fun b hb => hend b (getElem?_erase_eq_some.mp hb).2⟩

/-! ## Pieces that do not overlap -/

/-- The positions a piece covers. -/
def span (s : Nat) (b : List α) : Set Nat := Set.Ico s (s + b.length)

/-- The waiting pieces cover positions from `pos` on, each at most once. -/
structure Packed (chunks : Backlog α) (pos : Nat) : Prop where
  ahead : ∀ s b, chunks[s]? = some b → ∀ i ∈ span s b, pos ≤ i
  disjoint : ∀ s b s' b', chunks[s]? = some b → chunks[s']? = some b' → s ≠ s' →
    Disjoint (span s b) (span s' b')

/-- All positions the waiting pieces cover are below `t`. -/
def Within (chunks : Backlog α) (t : Nat) : Prop :=
  ∀ s b, chunks[s]? = some b → ∀ i ∈ span s b, i < t

lemma packed_empty (pos : Nat) : Packed (∅ : Backlog α) pos :=
  ⟨fun s b h => by simp at h, fun s b s' b' h => by simp at h⟩

lemma mem_span {s i : Nat} {b : List α} : i ∈ span s b ↔ s ≤ i ∧ i < s + b.length := Iff.rfl

/-- A piece that avoids the others can be added. -/
lemma Packed.insert {chunks : Backlog α} {pos s : Nat} {b : List α} (hp : Packed chunks pos) (hs : pos ≤ s)
    (hd : ∀ s' b', chunks[s']? = some b' → s ≠ s' → Disjoint (span s b) (span s' b')) :
    Packed (chunks.insert s b) pos := by
  constructor
  · intro s' b' h i hi
    rw [getElem?_insert_eq_some] at h
    cases h with
    | inl h =>
      obtain ⟨rfl, rfl⟩ := h
      exact le_trans hs (mem_span.mp hi).1
    | inr h => exact hp.ahead s' b' h.2 i hi
  · intro s₁ b₁ s₂ b₂ h₁ h₂ hne
    rw [getElem?_insert_eq_some] at h₁ h₂
    cases h₁ with
    | inl h₁ =>
      obtain ⟨rfl, rfl⟩ := h₁
      cases h₂ with
      | inl h₂ => exact absurd h₂.1 hne
      | inr h₂ => exact hd s₂ b₂ h₂.2 h₂.1
    | inr h₁ =>
      cases h₂ with
      | inl h₂ =>
        obtain ⟨rfl, rfl⟩ := h₂
        exact (hd s₁ b₁ h₁.2 h₁.1).symm
      | inr h₂ => exact hp.disjoint s₁ b₁ s₂ b₂ h₁.2 h₂.2 hne

lemma Within.insert {chunks : Backlog α} {t s : Nat} {b : List α} (hw : Within chunks t)
    (hs : s + b.length ≤ t) : Within (chunks.insert s b) t := by
  intro s' b' h i hi
  rw [getElem?_insert_eq_some] at h
  cases h with
  | inl h =>
    obtain ⟨rfl, rfl⟩ := h
    exact lt_of_lt_of_le (mem_span.mp hi).2 hs
  | inr h => exact hw s' b' h.2 i hi

/-- Moving a piece to the prefix leaves the others ahead of it. -/
lemma Packed.erase {chunks : Backlog α} {pos : Nat} {bytes : List α} (hp : Packed chunks pos)
    (h : chunks[pos]? = some bytes) : Packed (chunks.erase pos) (pos + bytes.length) := by
  constructor
  · intro s b hb i hi
    obtain ⟨hne, hb⟩ := getElem?_erase_eq_some.mp hb
    have hge := hp.ahead s b hb i hi
    by_contra hlt
    have hm : i ∈ span pos bytes := ⟨hge, not_le.mp hlt⟩
    exact Set.disjoint_left.mp (hp.disjoint pos bytes s b h hb hne) hm hi
  · intro s b s' b' hb hb'
    exact hp.disjoint s b s' b' (getElem?_erase_eq_some.mp hb).2 (getElem?_erase_eq_some.mp hb').2

theorem drain_packed {chunks : Backlog α} {pos : Nat} {payload : List α} (hp : Packed chunks pos) :
    Packed (drain chunks pos payload).1 (drain chunks pos payload).2.1 :=
  drain_induction (P := fun c p _ => Packed c p) (fun _ _ _ _ h e => h.erase e) hp

/-- If every piece ends by `t`, so does the prefix after `drain`. -/
theorem drain_within {chunks : Backlog α} {pos t : Nat} {payload : List α} (hw : Within chunks t)
    (hpos : pos ≤ t) :
    Within (drain chunks pos payload).1 t ∧ (drain chunks pos payload).2.1 ≤ t := by
  apply drain_induction (P := fun c p _ => Within c t ∧ p ≤ t) _ ⟨hw, hpos⟩
  intro chunks pos payload bytes ⟨hw, hpos⟩ e
  refine ⟨fun s b h => hw s b (getElem?_erase_eq_some.mp h).2, ?_⟩
  cases bytes with
  | nil => exact hpos
  | cons x xs =>
    have hi : pos + xs.length ∈ span pos (x :: xs) := ⟨Nat.le_add_right _ _, by simp⟩
    have hlt := hw pos (x :: xs) e _ hi
    rw [List.length_cons]
    omega

lemma le_drain_end (chunks : Backlog α) (pos : Nat) (payload : List α) :
    pos ≤ (drain chunks pos payload).2.1 := by
  fun_induction drain chunks pos payload with
  | case1 chunks pos payload e => exact le_rfl
  | case2 chunks pos payload bytes e ih => exact le_trans (Nat.le_add_right _ _) ih

/-- If the prefix and what waits end by `t` after `drain`, every piece ended by `t` before it. -/
theorem within_of_drain {chunks : Backlog α} {pos t : Nat} {payload : List α}
    (hw : Within (drain chunks pos payload).1 t) (hend : (drain chunks pos payload).2.1 ≤ t) :
    Within chunks t := by
  fun_induction drain chunks pos payload with
  | case1 chunks pos payload e => exact hw
  | case2 chunks pos payload bytes e ih =>
    intro s b hb i hi
    cases Nat.decEq pos s with
    | isTrue h =>
      subst h
      rw [e] at hb
      cases hb
      have hle := le_drain_end (chunks.erase pos) (pos + bytes.length) (payload ++ bytes)
      exact lt_of_lt_of_le (mem_span.mp hi).2 (le_trans hle hend)
    | isFalse h => exact ih hw hend s b (getElem?_erase_eq_some.mpr ⟨h, hb⟩) i hi

/-! ## Counting -/

/-- The number of elements that wait. -/
def stored (chunks : Backlog α) : Nat := (chunks.toList.map (·.2.length)).sum

@[simp] lemma stored_empty : stored (∅ : Backlog α) = 0 := by
  have e : (∅ : Backlog α).toList = [] := by simp
  rw [stored, e]
  rfl

lemma nodup_toList (chunks : Backlog α) : chunks.toList.Nodup := by
  apply List.Pairwise.imp _ chunks.distinct_keys_toList
  intro a b h e
  exact h (by rw [e]; exact Std.ReflCmp.compare_self)

lemma toList_insert_perm (chunks : Backlog α) (s : Nat) (b : List α) :
    ((chunks.insert s b).toList).Perm ((s, b) :: (chunks.erase s).toList) := by
  have hn : ((s, b) :: (chunks.erase s).toList).Nodup := by
    rw [List.nodup_cons]
    refine ⟨?_, nodup_toList _⟩
    intro h
    rw [Std.ExtTreeMap.mem_toList_iff_getElem?_eq_some] at h
    exact (getElem?_erase_eq_some.mp h).1 rfl
  apply (List.perm_ext_iff_of_nodup (nodup_toList _) hn).mpr
  intro ⟨k, v⟩
  rw [List.mem_cons, Std.ExtTreeMap.mem_toList_iff_getElem?_eq_some,
    Std.ExtTreeMap.mem_toList_iff_getElem?_eq_some, getElem?_insert_eq_some, getElem?_erase_eq_some]
  simp only [Prod.mk.injEq, eq_comm]

/-- A new piece replaces the one that starts where it does. -/
lemma stored_insert (chunks : Backlog α) (s : Nat) (b : List α) :
    stored (chunks.insert s b) = b.length + stored (chunks.erase s) := by
  rw [stored, ((toList_insert_perm chunks s b).map _).sum_nat, List.map_cons, List.sum_cons, stored]

lemma stored_erase {chunks : Backlog α} {s : Nat} {b : List α} (h : chunks[s]? = some b) :
    stored chunks = b.length + stored (chunks.erase s) := by
  have e : chunks.insert s b = chunks := by
    apply Std.ExtTreeMap.ext_getElem?
    intro k
    rw [Std.ExtTreeMap.getElem?_insert]
    split
    · rename_i hk
      rw [← Std.LawfulEqCmp.eq_of_compare hk, h]
    · rfl
  rw [← stored_insert, e]

/-- `drain` moves elements and keeps their number. -/
theorem drain_stored {chunks : Backlog α} {pos : Nat} {payload : List α} (h : payload.length = pos) :
    (drain chunks pos payload).2.2.length = (drain chunks pos payload).2.1 ∧
      (drain chunks pos payload).2.1 + stored (drain chunks pos payload).1 = pos + stored chunks := by
  apply drain_induction
    (P := fun c p l => l.length = p ∧ p + stored c = pos + stored chunks) _ ⟨h, rfl⟩
  intro c p l bytes ⟨hl, hs⟩ e
  rw [List.length_append, hl, ← hs, stored_erase e]
  exact ⟨rfl, by omega⟩

/-! ## Pieces of one string -/

/-- The pieces of length `n` of a string, the last one possibly shorter. -/
def tiles (n : Nat) (data : List α) : Set (Nat × List α) :=
  {p | n ∣ p.1 ∧ p.1 < data.length ∧ p.2 = (data.drop p.1).take n}

section
variable {n : Nat} {data : List α}

lemma tiles_length {p : Nat × List α} (h : p ∈ tiles n data) :
    p.2.length = min n (data.length - p.1) := by
  rw [h.2.2, List.length_take, List.length_drop]

/-- Two pieces with the same start are the same piece. -/
lemma tiles_unique {s : Nat} {b b' : List α} (h : (s, b) ∈ tiles n data) (h' : (s, b') ∈ tiles n data) :
    b = b' :=
  h.2.2.trans h'.2.2.symm

/-- Behind a piece the string ends or the next piece starts. -/
lemma tiles_next {s : Nat} {b : List α} (h : (s, b) ∈ tiles n data) :
    s + b.length = data.length ∨ s + b.length < data.length ∧ n ∣ s + b.length := by
  have hlen : b.length = min n (data.length - s) := tiles_length h
  have hlt : s < data.length := h.2.1
  obtain hle | hle := Nat.le_total n (data.length - s)
  · rw [Nat.min_eq_left hle] at hlen
    rw [hlen]
    cases Nat.lt_or_ge (s + n) data.length with
    | inl hl => exact .inr ⟨hl, Nat.dvd_add h.1 (Nat.dvd_refl n)⟩
    | inr hl => exact .inl (by omega)
  · rw [Nat.min_eq_right hle] at hlen
    exact .inl (by omega)

/-- A piece ends before any later one starts. -/
lemma tiles_apart {s s' : Nat} {b b' : List α} (h : (s, b) ∈ tiles n data) (h' : (s', b') ∈ tiles n data)
    (hlt : s < s') : s + b.length ≤ s' := by
  have hlen : b.length = min n (data.length - s) := tiles_length h
  have hd : n ∣ s' - s := Nat.dvd_sub h'.1 h.1
  have hle : n ≤ s' - s := Nat.le_of_dvd (by omega) hd
  omega

/-- The first piece starts at zero. -/
lemma zero_mem_tiles (h : data ≠ []) : (0, data.take n) ∈ tiles n data :=
  ⟨Nat.dvd_zero n, List.length_pos_of_ne_nil h, rfl⟩

/-- Some piece ends where the string ends. -/
lemma exists_last_tile (hn : 0 < n) (h : data ≠ []) :
    ∃ p ∈ tiles n data, p.1 + p.2.length = data.length := by
  have hpos := List.length_pos_of_ne_nil h
  have hlt : (data.length - 1) / n * n < data.length := by
    have hle := Nat.div_mul_le_self (data.length - 1) n
    omega
  have ht : ((data.length - 1) / n * n, (data.drop ((data.length - 1) / n * n)).take n) ∈ tiles n data :=
    ⟨Nat.dvd_mul_left n _, hlt, rfl⟩
  refine ⟨_, ht, ?_⟩
  have hlen := tiles_length ht
  have hge : data.length - 1 < (data.length - 1) / n * n + n := Nat.lt_div_mul_add hn
  rw [hlen]
  dsimp only
  omega

/-- A prefix that ends where a piece starts is continued by that piece. -/
lemma take_append_tile {s : Nat} {b : List α} (h : (s, b) ∈ tiles n data) :
    data.take s ++ b = data.take (s + b.length) := by
  have hlen : b.length = min n (data.length - s) := tiles_length h
  have hb : b = (data.drop s).take b.length := by
    have e : b = (data.drop s).take n := h.2.2
    rw [hlen, List.take_eq_take_min, List.length_drop] at *
    rw [min_eq_left (Nat.min_le_right n _)]
    exact e
  rw [List.take_add, ← hb]

end

/-- Cut a string that starts at `pos` into pieces of length `n`, in order. -/
def cut (n : Nat) (hn : 0 < n) (pos : Nat) (data : List α) : List (Nat × List α) :=
  match data with
  | [] => []
  | x :: xs => (pos, (x :: xs).take n) :: cut n hn (pos + n) ((x :: xs).drop n)
termination_by data.length
decreasing_by
  rw [List.length_drop, List.length_cons]
  omega

/-- The pieces follow one another from `pos` on and spell the string. -/
def Tile : Nat → List α → List (Nat × List α) → Prop
  | _, data, [] => data = []
  | pos, data, (s, b) :: rest => s = pos ∧ b ≠ [] ∧ ∃ data', data = b ++ data' ∧ Tile (pos + b.length) data' rest

section
variable {n : Nat} {hn : 0 < n} {data : List α}

lemma cut_nil (pos : Nat) : cut n hn pos ([] : List α) = [] := by
  rw [cut]

lemma cut_of_ne_nil {pos : Nat} (h : data ≠ []) :
    cut n hn pos data = (pos, data.take n) :: cut n hn (pos + n) (data.drop n) := by
  cases data with
  | nil => exact absurd rfl h
  | cons x xs => rw [cut]

lemma mem_cut {pos s : Nat} {b : List α} :
    (s, b) ∈ cut n hn pos data ↔
      ∃ k, s = pos + k * n ∧ k * n < data.length ∧ b = (data.drop (k * n)).take n := by
  fun_induction cut n hn pos data with
  | case1 pos => simp
  | case2 pos x xs ih =>
    rw [List.mem_cons, ih]
    constructor
    · intro h
      cases h with
      | inl h =>
        cases h
        exact ⟨0, by simp, by simp, by simp⟩
      | inr h =>
        obtain ⟨k, rfl, hk, rfl⟩ := h
        rw [List.length_drop] at hk
        refine ⟨k + 1, by rw [Nat.succ_mul]; omega, by rw [Nat.succ_mul]; omega, ?_⟩
        rw [List.drop_drop, Nat.succ_mul, Nat.add_comm n]
    · rintro ⟨k, rfl, hk, rfl⟩
      cases k with
      | zero => exact .inl (by simp)
      | succ k =>
        rw [Nat.succ_mul] at hk
        refine .inr ⟨k, by rw [Nat.succ_mul]; omega, by rw [List.length_drop]; omega, ?_⟩
        rw [List.drop_drop, Nat.succ_mul, Nat.add_comm n]

/-- The pieces of the list are the tiles of the string. -/
lemma mem_cut_zero {p : Nat × List α} : p ∈ cut n hn 0 data ↔ p ∈ tiles n data := by
  obtain ⟨s, b⟩ := p
  rw [mem_cut]
  constructor
  · rintro ⟨k, rfl, hk, rfl⟩
    rw [Nat.zero_add]
    exact ⟨Nat.dvd_mul_left n k, hk, rfl⟩
  · intro ⟨⟨k, hs⟩, hlt, hb⟩
    have hs : s = k * n := by rw [Nat.mul_comm]; exact hs
    subst hs
    exact ⟨k, (Nat.zero_add _).symm, hlt, hb⟩

lemma nodup_cut (pos : Nat) : (cut n hn pos data).Nodup := by
  fun_induction cut n hn pos data with
  | case1 pos => exact List.nodup_nil
  | case2 pos x xs ih =>
    rw [List.nodup_cons]
    refine ⟨fun h => ?_, ih⟩
    obtain ⟨k, hk, -⟩ := mem_cut.mp h
    omega

lemma tile_cut (pos : Nat) : Tile pos data (cut n hn pos data) := by
  fun_induction cut n hn pos data with
  | case1 pos => rfl
  | case2 pos x xs ih =>
    refine ⟨rfl, ?_, (x :: xs).drop n, (List.take_append_drop n _).symm, ?_⟩
    · intro e
      rw [List.take_eq_nil_iff] at e
      cases e with
      | inl e => omega
      | inr e => cases e
    · obtain h | h := Nat.le_total n (x :: xs).length
      · rwa [List.length_take, Nat.min_eq_left h]
      · rw [List.drop_eq_nil_of_le h, cut_nil]
        rfl

end

/-- The pieces `R` of a tiled string have arrived: the prefix is a prefix of the string, and what waits are
the pieces from there on. -/
structure Received (n : Nat) (data : List α) (R : Set (Nat × List α)) (chunks : Backlog α) (pos : Nat)
    (payload : List α) : Prop where
  unit : 0 < n
  sub : R ⊆ tiles n data
  payload : payload = data.take pos
  border : pos = data.length ∨ pos < data.length ∧ n ∣ pos
  behind : ∀ p ∈ tiles n data, p.1 < pos → p ∈ R
  backlog : ∀ s b, chunks[s]? = some b ↔ (s, b) ∈ R ∧ pos ≤ s

section
variable {n : Nat} {data : List α} {R : Set (Nat × List α)} {chunks : Backlog α} {pos : Nat}
  {payload : List α}

lemma received_empty (hn : 0 < n) (h : data ≠ []) : Received n data ∅ (∅ : Backlog α) 0 [] := by
  refine ⟨hn, Set.empty_subset _, rfl, .inr ⟨List.length_pos_of_ne_nil h, Nat.dvd_zero n⟩, ?_, ?_⟩
  · exact fun p _ hp => absurd hp (Nat.not_lt_zero _)
  · intro s b
    simp

/-- A piece that arrives for the first time lies ahead of the prefix and is put to the others. -/
lemma Received.insert (hr : Received n data R chunks pos payload) {s : Nat} {b : List α}
    (ht : (s, b) ∈ tiles n data) (hn : (s, b) ∉ R) :
    pos ≤ s ∧ chunks[s]? = none ∧ Received n data (insert (s, b) R) (chunks.insert s b) pos payload := by
  have hs : pos ≤ s := by
    by_contra hlt
    exact hn (hr.behind (s, b) ht (not_le.mp hlt))
  refine ⟨hs, ?_, hr.unit, ?_, hr.payload, hr.border, ?_, ?_⟩
  · cases e : chunks[s]? with
    | none => rfl
    | some b' =>
      obtain ⟨hb', -⟩ := (hr.backlog s b').mp e
      rw [tiles_unique ht (hr.sub hb')] at hn
      exact absurd hb' hn
  · exact Set.insert_subset ht hr.sub
  · exact fun p hp hlt => Set.mem_insert_of_mem _ (hr.behind p hp hlt)
  · intro s' b'
    rw [getElem?_insert_eq_some, hr.backlog, Set.mem_insert_iff, Prod.mk.injEq]
    constructor
    · intro h
      cases h with
      | inl h => exact ⟨.inl ⟨h.1.symm, h.2.symm⟩, h.1 ▸ hs⟩
      | inr h => exact ⟨.inr h.2.1, h.2.2⟩
    · intro ⟨h, hp⟩
      cases h with
      | inl h => exact .inl ⟨h.1.symm, h.2.symm⟩
      | inr h =>
        refine .inr ⟨?_, h, hp⟩
        intro e
        subst e
        rw [tiles_unique ht (hr.sub h)] at hn
        exact hn h

/-- Moving a piece to the prefix. -/
lemma Received.erase (hr : Received n data R chunks pos payload) {b : List α}
    (h : chunks[pos]? = some b) :
    Received n data R (chunks.erase pos) (pos + b.length) (payload ++ b) := by
  obtain ⟨hb, -⟩ := (hr.backlog pos b).mp h
  have ht := hr.sub hb
  refine ⟨hr.unit, hr.sub, ?_, tiles_next ht, ?_, ?_⟩
  · rw [hr.payload, take_append_tile ht]
  · intro p hp hlt
    cases Nat.lt_or_ge p.1 pos with
    | inl hl => exact hr.behind p hp hl
    | inr hl =>
      -- the piece at `pos` is the only one that starts before its end
      cases Nat.eq_or_lt_of_le hl with
      | inl e =>
        obtain ⟨s, b'⟩ := p
        cases e
        rwa [tiles_unique hp ht]
      | inr hgt => exact absurd (tiles_apart ht hp hgt) (not_le.mpr hlt)
  · intro s b'
    rw [getElem?_erase_eq_some, hr.backlog]
    constructor
    · intro ⟨hne, hb', hs⟩
      exact ⟨hb', tiles_apart ht (hr.sub hb') (lt_of_le_of_ne hs hne)⟩
    · intro ⟨hb', hs⟩
      have hpos : 0 < b.length := by
        have hlen : b.length = min n (data.length - pos) := tiles_length ht
        have hlt : pos < data.length := ht.2.1
        have hn := hr.unit
        omega
      exact ⟨by omega, hb', by omega⟩

theorem drain_received (hr : Received n data R chunks pos payload) :
    Received n data R (drain chunks pos payload).1 (drain chunks pos payload).2.1
      (drain chunks pos payload).2.2 :=
  drain_induction (P := Received n data R) (fun _ _ _ _ h e => h.erase e) hr

/-- Once nothing continues the prefix, it is the whole string exactly when all pieces have arrived. -/
theorem Received.complete (hr : Received n data R chunks pos payload) (hstuck : chunks[pos]? = none) :
    pos = data.length ↔ R = tiles n data := by
  constructor
  · intro h
    refine Set.Subset.antisymm hr.sub fun p hp => hr.behind p hp ?_
    rw [h]
    exact hp.2.1
  · intro h
    cases hr.border with
    | inl e => exact e
    | inr hb =>
      have ht : (pos, (data.drop pos).take n) ∈ tiles n data := ⟨hb.2, hb.1, rfl⟩
      have e := (hr.backlog _ _).mpr ⟨h ▸ ht, le_rfl⟩
      rw [hstuck] at e
      cases e

end

/-! ## Pieces of any cut of a string -/

/-- All that has been collected stands in the string at its place. -/
structure Spells (data : List α) (chunks : Backlog α) (pos : Nat) (payload : List α) : Prop where
  front : payload <+: data
  length : payload.length = pos
  backlog : ∀ s b, chunks[s]? = some b → b <+: data.drop s

section
variable {data : List α} {chunks : Backlog α} {pos : Nat} {payload : List α}

lemma spells_empty (data : List α) : Spells data (∅ : Backlog α) 0 [] := by
  refine ⟨List.nil_prefix, rfl, fun s b h => ?_⟩
  simp at h

lemma Spells.insert (h : Spells data chunks pos payload) {s : Nat} {b : List α} (hb : b <+: data.drop s) :
    Spells data (chunks.insert s b) pos payload := by
  refine ⟨h.front, h.length, fun s' b' h' => ?_⟩
  cases getElem?_insert_eq_some.mp h' with
  | inl e =>
    obtain ⟨rfl, rfl⟩ := e
    exact hb
  | inr e => exact h.backlog s' b' e.2

/-- Moving a piece to the prefix. -/
lemma Spells.erase (h : Spells data chunks pos payload) {b : List α} (hb : chunks[pos]? = some b) :
    Spells data (chunks.erase pos) (pos + b.length) (payload ++ b) := by
  refine ⟨?_, ?_, fun s b' h' => h.backlog s b' (getElem?_erase_eq_some.mp h').2⟩
  · obtain ⟨rest, rfl⟩ := h.front
    have hnext := h.backlog pos b hb
    rw [← h.length, List.drop_left] at hnext
    exact List.prefix_append_right_inj payload |>.mpr hnext
  · rw [List.length_append, h.length]

theorem drain_spells (h : Spells data chunks pos payload) :
    Spells data (drain chunks pos payload).1 (drain chunks pos payload).2.1 (drain chunks pos payload).2.2 :=
  drain_induction (P := Spells data) (fun _ _ _ _ h e => h.erase e) h

/-- A prefix that ends where the string ends is the string. -/
lemma Spells.full (h : Spells data chunks pos payload) (hpos : pos = data.length) : payload = data :=
  h.front.eq_of_length (h.length.trans hpos)

end

end Lib
