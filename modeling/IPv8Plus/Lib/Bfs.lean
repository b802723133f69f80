import Mathlib

/-!
# Breadth-first search

Distances from a source in a graph that is given by the neighbours of each node, and what a breadth-first search keeps: a tree
of parents, each one step closer to the source, and a queue of two layers. The rules say how the search begins, finds a
neighbour, is done with a node, goes on to the next layer and ends; the tree leads back from a node to the source by a
shortest path.
-/

namespace Lib.Bfs

variable {α : Type} (nbrs : α → List α) (s : α)

/-- A node is reached from the source in so many steps. -/
inductive Steps : α → Nat → Prop
  | start : Steps s 0
  | step {a b : α} {n : Nat} (h : Steps a n) (hb : b ∈ nbrs a) : Steps b (n + 1)

/-- The distance of a node from the source. -/
structure DistIs (a : α) (d : Nat) : Prop where
  steps : Steps nbrs s a d
  least : ∀ n, Steps nbrs s a n → d ≤ n

/-- Parents that are one step closer to the source. -/
structure Tree (prev : α → Option α) : Prop where
  root : prev s = some s
  known : ∀ a p, prev a = some p → (prev p).isSome
  parent : ∀ a p, prev a = some p → a ≠ s → a ∈ nbrs p ∧ ∃ d, DistIs nbrs s p d ∧ DistIs nbrs s a (d + 1)

/-- The search at a distance: the nodes of that distance that are still to be looked at, and those found one step further. -/
structure Layers (prev : α → Option α) (near far : List α) (d : Nat) : Prop where
  tree : Tree nbrs s prev
  near_dist : ∀ a ∈ near, DistIs nbrs s a d
  far_dist : ∀ a ∈ far, DistIs nbrs s a (d + 1)
  seen : ∀ a, a ∈ near ∨ a ∈ far → (prev a).isSome
  full : ∀ a n, Steps nbrs s a n → n ≤ d → (prev a).isSome
  closed : ∀ a, (prev a).isSome → a ∉ near → a ∉ far → ∀ b ∈ nbrs a, (prev b).isSome

/-- A shortest path back to the source, the source itself left out. -/
inductive Descent : List α → Nat → Prop
  | one {a : α} (hlink : a ∈ nbrs s) (hdist : DistIs nbrs s a 1) : Descent [a] 1
  | cons {a p : α} {l : List α} {d : Nat} (hlink : a ∈ nbrs p) (hdist : DistIs nbrs s a (d + 1)) (hrest : Descent (p :: l) d) :
      Descent (a :: p :: l) (d + 1)

variable {nbrs s} {prev : α → Option α} {near far l : List α} {a b p cur : α} {d e n : Nat}

lemma DistIs.unique (h : DistIs nbrs s a d) (h' : DistIs nbrs s a e) : d = e :=
  Nat.le_antisymm (h.least e h'.steps) (h'.least d h.steps)

lemma distIs_source : DistIs nbrs s s 0 := ⟨.start, fun _ _ => Nat.zero_le _⟩

lemma DistIs.eq_source (h : DistIs nbrs s a 0) : a = s := by
  cases h.steps with
  | start => rfl

lemma DistIs.ne_source (h : DistIs nbrs s a (d + 1)) : a ≠ s := by
  rintro rfl
  cases h.unique distIs_source

section Search
variable [DecidableEq α]

lemma layers_init : Layers nbrs s (fun a => if a = s then some s else none) [s] [] 0 := by
  have hsome : ∀ {a}, ((fun a => if a = s then some s else none) a : Option α).isSome → a = s := by
    intro a h
    by_contra hne
    dsimp only at h
    rw [if_neg hne] at h
    cases h
  refine ⟨⟨if_pos rfl, fun a p h => ?_, fun a p h hne => ?_⟩, fun a h => ?_, nofun, fun a h => ?_, fun a n h hn => ?_, fun a h hnear => ?_⟩
  · obtain rfl := hsome (Option.isSome_of_mem h)
    rw [if_pos rfl] at h
    cases h
    rw [if_pos rfl]
    rfl
  · exact absurd (hsome (Option.isSome_of_mem h)) hne
  · obtain rfl := List.mem_singleton.mp h
    exact distIs_source
  · obtain rfl := List.mem_singleton.mp (h.resolve_right List.not_mem_nil)
    rw [if_pos rfl]
    rfl
  · obtain rfl := Nat.le_zero.mp hn
    cases h with
    | start =>
      rw [if_pos rfl]
      rfl
  · exact absurd (List.mem_singleton.mpr (hsome h)) hnear

/-- A neighbour that is not known yet is one step further, and its parent is the node that is looked at. -/
lemma Layers.find (h : Layers nbrs s prev (cur :: near) far d) (hb : b ∈ nbrs cur) (hnew : prev b = none) :
    Layers nbrs s (fun a => if a = b then some cur else prev a) (cur :: near) (far ++ [b]) d := by
  have hcur := h.near_dist cur List.mem_cons_self
  have hdist : DistIs nbrs s b (d + 1) := by
    refine ⟨.step hcur.steps hb, fun n hn => ?_⟩
    by_contra hlt
    have hsome := h.full b n hn (by omega)
    rw [hnew] at hsome
    cases hsome
  have hmono : ∀ a, (prev a).isSome → (if a = b then some cur else prev a).isSome := by
    intro a ha
    split_ifs
    · rfl
    · exact ha
  refine ⟨⟨?_, fun a p hp => ?_, fun a p hp hne => ?_⟩, h.near_dist, fun a ha => ?_, fun a ha => ?_, fun a n hn hle => hmono a (h.full a n hn hle),
    fun a ha hnear hfar c hc => ?_⟩
  · rw [if_neg hdist.ne_source.symm]
    exact h.tree.root
  · refine hmono p ?_
    split_ifs at hp with hab
    · cases hp
      exact h.seen cur (.inl List.mem_cons_self)
    · exact h.tree.known a p hp
  · split_ifs at hp with hab
    · cases hp
      subst hab
      exact ⟨hb, d, hcur, hdist⟩
    · exact h.tree.parent a p hp hne
  · rcases List.mem_append.mp ha with ha | ha
    · exact h.far_dist a ha
    · obtain rfl := List.mem_singleton.mp ha
      exact hdist
  · rcases ha with ha | ha
    · exact hmono a (h.seen a (.inl ha))
    · rcases List.mem_append.mp ha with ha | ha
      · exact hmono a (h.seen a (.inr ha))
      · rw [if_pos (List.mem_singleton.mp ha)]
        rfl
  · refine hmono c (h.closed a ?_ hnear (fun ha' => hfar (List.mem_append_left _ ha')) c hc)
    rwa [if_neg fun hab : a = b => hfar (List.mem_append_right _ (List.mem_singleton.mpr hab))] at ha

end Search

/-- A node whose neighbours are known is done with. -/
lemma Layers.done (h : Layers nbrs s prev (cur :: near) far d) (hknown : ∀ b ∈ nbrs cur, (prev b).isSome) :
    Layers nbrs s prev near far d := by
  refine ⟨h.tree, fun a ha => h.near_dist a (List.mem_cons_of_mem _ ha), h.far_dist, fun a ha => ?_, h.full, fun a ha hnear hfar => ?_⟩
  · exact h.seen a (ha.imp_left (List.mem_cons_of_mem _))
  · by_cases hcur : a = cur
    · exact hcur ▸ hknown
    · exact h.closed a ha (fun hmem => (List.mem_cons.mp hmem).elim hcur hnear) hfar

/-- The next layer is complete when this one is done with. -/
lemma Layers.next (h : Layers nbrs s prev [] far d) : Layers nbrs s prev far [] (d + 1) := by
  refine ⟨h.tree, h.far_dist, nofun, fun a ha => h.seen a ha.symm, fun a n hn hle => ?_, fun a ha hnear _ => h.closed a ha List.not_mem_nil hnear⟩
  rcases Nat.le_succ_iff.mp hle with hle | rfl
  · exact h.full a n hn hle
  · cases hn with
    | step hparent hlink =>
      refine h.closed _ (h.full _ d hparent le_rfl) List.not_mem_nil (fun hmem => ?_) a hlink
      have hleast := (h.far_dist _ hmem).least d hparent
      omega

/-- The queue is near to far: its head is always of the layer that is looked at. -/
lemma Layers.pop {queue : List α} (h : Layers nbrs s prev near far d) (hqueue : near ++ far = cur :: queue) :
    ∃ near' far' d', Layers nbrs s prev (cur :: near') far' d' ∧ queue = near' ++ far' := by
  cases near with
  | nil =>
    obtain rfl : far = cur :: queue := hqueue
    exact ⟨queue, [], d + 1, h.next, (List.append_nil queue).symm⟩
  | cons a near =>
    obtain ⟨rfl, rfl⟩ := List.cons.inj hqueue
    exact ⟨near, far, d, h, rfl⟩

/-- When the queue is empty, all that can be reached is known. -/
lemma Layers.complete (h : Layers nbrs s prev [] [] d) (hreach : Steps nbrs s a n) : (prev a).isSome := by
  induction hreach with
  | start =>
    rw [h.tree.root]
    rfl
  | step _ hb ih => exact h.closed _ ih List.not_mem_nil List.not_mem_nil _ hb

/-! ## The way back -/

lemma Tree.dist (h : Tree nbrs s prev) (hp : prev a = some p) : ∃ d, DistIs nbrs s a d := by
  by_cases hne : a = s
  · exact ⟨0, hne ▸ distIs_source⟩
  · obtain ⟨-, d, -, hdist⟩ := h.parent a p hp hne
    exact ⟨d + 1, hdist⟩

/-- A parent is one step closer. -/
lemma Tree.parent_dist (h : Tree nbrs s prev) (hp : prev a = some p) (hdist : DistIs nbrs s a (d + 1)) :
    a ∈ nbrs p ∧ DistIs nbrs s p d := by
  obtain ⟨hlink, e, hparent, hdist'⟩ := h.parent a p hp hdist.ne_source
  obtain rfl := Nat.succ.inj (hdist.unique hdist')
  exact ⟨hlink, hparent⟩

lemma Descent.length_eq (h : Descent nbrs s l d) : l.length = d := by
  induction h with
  | one => rfl
  | cons _ _ _ ih => rw [List.length_cons, ih]

/-- The nodes of the way back have the distances below that of its start. -/
lemma Descent.mem_dist (h : Descent nbrs s l d) (ha : a ∈ l) : ∃ e, e < d ∧ DistIs nbrs s a (e + 1) := by
  induction h with
  | one _ hdist =>
    obtain rfl := List.mem_singleton.mp ha
    exact ⟨0, Nat.zero_lt_one, hdist⟩
  | cons _ hdist _ ih =>
    rcases List.mem_cons.mp ha with rfl | ha
    · exact ⟨_, Nat.lt_succ_self _, hdist⟩
    · obtain ⟨e, hlt, he⟩ := ih ha
      exact ⟨e, Nat.lt_succ_of_lt hlt, he⟩

lemma Descent.source_not_mem (h : Descent nbrs s l d) : s ∉ l := by
  intro hmem
  obtain ⟨e, -, hdist⟩ := h.mem_dist hmem
  exact hdist.ne_source rfl

lemma Descent.nodup (h : Descent nbrs s l d) : l.Nodup := by
  induction h with
  | one => exact List.nodup_singleton _
  | cons _ hdist hrest ih =>
    refine List.nodup_cons.mpr ⟨fun hmem => ?_, ih⟩
    obtain ⟨e, hlt, he⟩ := hrest.mem_dist hmem
    have heq := hdist.unique he
    omega

/-- Each node of the way is linked to the one before it, the first to the source. -/
lemma Descent.chain (h : Descent nbrs s l d) : List.IsChain (fun a b => b ∈ nbrs a) (s :: l.reverse) := by
  induction h with
  | one hlink => exact .cons_cons hlink (.singleton _)
  | @cons a p l d hlink _ _ ih =>
    rw [List.reverse_cons, ← List.cons_append]
    refine ih.append (.singleton a) fun x hx y hy => ?_
    rw [List.reverse_cons, ← List.cons_append, List.getLast?_concat] at hx
    cases hx
    cases hy
    exact hlink

end Lib.Bfs
