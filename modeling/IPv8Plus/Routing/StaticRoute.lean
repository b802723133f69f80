import IPv8Plus.Cloud.Store
import IPv8Plus.Lib.Bfs

/-!
# Static source routes

`ipv8-routing/src/static_route.rs`: a table of links, and shortest paths over it by breadth-first search with parents. The
loops are given turns: a path is returned when enough turns give it. The path is one of the shortest, and simple.
-/

namespace IPv8Plus.Routing
open Lib Lib.Bfs Codec Cloud

structure StaticRouter where
  self : IPv8Address
  links : AddrMap (List IPv8Address)
  maxHops : Nat

namespace StaticRouter

def new (self : IPv8Address) : StaticRouter := ⟨self, ∅, 8⟩

def withMaxHops (r : StaticRouter) (n : Nat) : StaticRouter := { r with maxHops := max n 1 }

/-- `links.entry(a).or_default().push(b)`. -/
def push (links : AddrMap (List IPv8Address)) (a b : IPv8Address) : AddrMap (List IPv8Address) :=
  links.insert a (links[a]?.getD [] ++ [b])

def addLink (r : StaticRouter) (a b : IPv8Address) : StaticRouter := { r with links := push (push r.links a b) b a }

def neighbors (r : StaticRouter) (a : IPv8Address) : List IPv8Address := r.links[a]?.getD []

/-- A neighbour of the node that is looked at gets it as its parent, if it has none yet. -/
def visit (cur : IPv8Address) (st : AddrMap IPv8Address × List IPv8Address) (nb : IPv8Address) : AddrMap IPv8Address × List IPv8Address :=
  if nb ∈ st.1 then st else (st.1.insert nb cur, st.2 ++ [nb])

/-- The loop over the queue; nothing when it is not over after so many turns. -/
def search (r : StaticRouter) (dst : IPv8Address) : Nat → AddrMap IPv8Address → List IPv8Address → Option (AddrMap IPv8Address)
  | _, prev, [] => some prev
  | 0, _, _ :: _ => none
  | turns + 1, prev, cur :: queue =>
    if cur = dst then some prev
    else
      let st := (r.neighbors cur).foldl (visit cur) (prev, queue)
      search r dst turns st.1 st.2

/-- The loop along the parents; nothing when it is not over after so many turns. A node without a parent has no path. -/
def backtrack (self : IPv8Address) (prev : AddrMap IPv8Address) : Nat → IPv8Address → List IPv8Address → Option (Option (List IPv8Address))
  | 0, _, _ => none
  | turns + 1, cur, rev =>
    match prev[cur]? with
    | none => some none
    | some p => if p = self then some (some rev) else backtrack self prev turns p (rev ++ [p])

/-- The path to a destination, when each loop is over after so many turns. -/
def pathTo (r : StaticRouter) (turns : Nat) (dst : IPv8Address) : Option (Option (List IPv8Address)) :=
  if dst = r.self then some none
  else
    match search r dst turns ((∅ : AddrMap IPv8Address).insert r.self r.self) [r.self] with
    | none => none
    | some prev =>
      if dst ∉ prev then some none
      else
        match backtrack r.self prev turns dst [dst] with
        | none => none
        | some none => some none
        | some (some rev) => if r.maxHops < rev.length then some none else some (some rev.reverse)

variable {r : StaticRouter} {prev prev' : AddrMap IPv8Address} {cur dst a b : IPv8Address} {near far queue rev : List IPv8Address}
  {d turns turns' : Nat}

/-! ## The search -/

/-- The parents as a function. -/
def parents (prev : AddrMap IPv8Address) (a : IPv8Address) : Option IPv8Address := prev[a]?

lemma parents_insert : parents (prev.insert b cur) = fun a => if a = b then some cur else parents prev a := by
  funext a
  rw [parents, getElem?_insert_ite, parents]
  exact if_congr eq_comm rfl rfl

lemma mem_iff_parents : a ∈ prev ↔ (parents prev a).isSome := by rw [parents, Std.ExtTreeMap.isSome_getElem?_iff_mem]

/-- The turns over the neighbours of a node: those that were not known are at the back of the queue. -/
lemma layers_visits (bs : List IPv8Address) (hsub : ∀ b ∈ bs, b ∈ r.neighbors cur)
    (h : Layers r.neighbors r.self (parents prev) (cur :: near) far d) :
    ∃ prev' far', bs.foldl (visit cur) (prev, near ++ far) = (prev', near ++ far') ∧
      Layers r.neighbors r.self (parents prev') (cur :: near) far' d ∧ (∀ a ∈ prev, a ∈ prev') ∧ ∀ b ∈ bs, b ∈ prev' := by
  induction bs generalizing prev far with
  | nil => exact ⟨prev, far, rfl, h, fun _ ha => ha, nofun⟩
  | cons b bs ih =>
    have hrest : ∀ c ∈ bs, c ∈ r.neighbors cur := fun c hc => hsub c (List.mem_cons_of_mem _ hc)
    rw [List.foldl_cons, visit]
    by_cases hb : b ∈ prev
    · obtain ⟨prev', far', heq, hlayers, hmono, hall⟩ := ih hrest h
      rw [if_pos hb]
      refine ⟨prev', far', heq, hlayers, hmono, fun c hc => ?_⟩
      rcases List.mem_cons.mp hc with rfl | hc
      · exact hmono c hb
      · exact hall c hc
    · have hnew : parents prev b = none := by
        rw [mem_iff_parents, Option.not_isSome_iff_eq_none] at hb
        exact hb
      have hfound := h.find (hsub b List.mem_cons_self) hnew
      rw [← parents_insert] at hfound
      obtain ⟨prev', far', heq, hlayers, hmono, hall⟩ := ih hrest hfound
      rw [if_neg hb]
      dsimp only
      rw [List.append_assoc]
      refine ⟨prev', far', heq, hlayers, fun c hc => hmono c (Std.ExtTreeMap.mem_insert.mpr (.inr hc)), fun c hc => ?_⟩
      rcases List.mem_cons.mp hc with rfl | hc
      · exact hmono c Std.ExtTreeMap.mem_insert_self
      · exact hall c hc

/-- All nodes that have a link. -/
def nodes (r : StaticRouter) : Finset IPv8Address := (r.links.toList.flatMap Prod.snd).toFinset

lemma mem_nodes (h : b ∈ r.neighbors a) : b ∈ r.nodes := by
  rw [neighbors] at h
  cases hlinks : r.links[a]? with
  | none =>
    rw [hlinks] at h
    cases h
  | some l =>
    rw [hlinks] at h
    refine List.mem_toFinset.mpr (List.mem_flatMap.mpr ⟨(a, l), ?_, h⟩)
    exact Std.ExtTreeMap.mem_toList_iff_getElem?_eq_some.mpr hlinks

/-- What is left to do: the nodes that are not known, and those in the queue. -/
def pending (r : StaticRouter) (st : AddrMap IPv8Address × List IPv8Address) : Nat := (r.nodes.filter (· ∉ st.1)).card + st.2.length

/-- A node that is found moves from the one to the other. -/
lemma pending_visit {st : AddrMap IPv8Address × List IPv8Address} (h : b ∈ r.nodes) : r.pending (visit cur st b) = r.pending st := by
  rw [visit]
  split_ifs with hb
  · rfl
  · have herase : r.nodes.filter (· ∉ st.1.insert b cur) = (r.nodes.filter (· ∉ st.1)).erase b := by
      ext c
      rw [Finset.mem_filter, Finset.mem_erase, Finset.mem_filter, mem_iff_parents, parents_insert, mem_iff_parents]
      by_cases hc : c = b
      · simp [hc]
      · simp [hc]
    have hmem : b ∈ r.nodes.filter (· ∉ st.1) := Finset.mem_filter.mpr ⟨h, hb⟩
    have hcard := Finset.card_pos.mpr ⟨b, hmem⟩
    rw [pending, pending, herase, Finset.card_erase_of_mem hmem, List.length_append, List.length_singleton]
    omega

lemma pending_visits (bs : List IPv8Address) (st : AddrMap IPv8Address × List IPv8Address) (h : ∀ b ∈ bs, b ∈ r.nodes) :
    r.pending (bs.foldl (visit cur) st) = r.pending st := by
  induction bs generalizing st with
  | nil => rfl
  | cons b bs ih =>
    rw [List.foldl_cons, ih _ fun c hc => h c (List.mem_cons_of_mem _ hc), pending_visit (h b List.mem_cons_self)]

lemma pending_pop : r.pending (prev, cur :: queue) = r.pending (prev, queue) + 1 := by
  rw [pending, pending, List.length_cons, Nat.add_assoc]

lemma search_done (turns : Nat) (dst : IPv8Address) (h : Layers r.neighbors r.self (parents prev) [] [] d) :
    search r dst turns prev [] = some prev ∧ ∀ n, Steps r.neighbors r.self dst n → dst ∈ prev := by
  refine ⟨?_, fun n hn => mem_iff_parents.mpr (h.complete hn)⟩
  cases turns with
  | zero => rfl
  | succ turns => rfl

/-- The search is over when nothing can be left to do, and has found the destination if it can be reached. -/
lemma search_spec (dst : IPv8Address) (h : Layers r.neighbors r.self (parents prev) near far d) (hqueue : queue = near ++ far)
    (hturns : r.pending (prev, queue) ≤ turns) : ∃ prev', search r dst turns prev queue = some prev' ∧
      Tree r.neighbors r.self (parents prev') ∧ ∀ n, Steps r.neighbors r.self dst n → dst ∈ prev' := by
  induction turns generalizing prev queue near far d with
  | zero =>
    cases queue with
    | nil =>
      obtain ⟨rfl, rfl⟩ := List.append_eq_nil_iff.mp hqueue.symm
      obtain ⟨hsearch, hfound⟩ := search_done 0 dst h
      exact ⟨prev, hsearch, h.tree, hfound⟩
    | cons cur queue => exact absurd (pending_pop ▸ hturns) (Nat.not_succ_le_zero _)
  | succ turns ih =>
    cases queue with
    | nil =>
      obtain ⟨rfl, rfl⟩ := List.append_eq_nil_iff.mp hqueue.symm
      obtain ⟨hsearch, hfound⟩ := search_done (turns + 1) dst h
      exact ⟨prev, hsearch, h.tree, hfound⟩
    | cons cur queue =>
      obtain ⟨near', far', d', hlayers, rfl⟩ := h.pop hqueue.symm
      rw [search]
      split_ifs with hcur
      · refine ⟨prev, rfl, h.tree, fun _ _ => mem_iff_parents.mpr ?_⟩
        exact hcur ▸ hlayers.seen cur (.inl List.mem_cons_self)
      · obtain ⟨prev', far'', heq, hvisited, hmono, hall⟩ := layers_visits (r.neighbors cur) (fun _ hb => hb) hlayers
        have hleft : r.pending (prev', near' ++ far'') ≤ turns := by
          rw [pending_pop] at hturns
          rw [← heq, pending_visits _ _ fun b hb => mem_nodes hb]
          exact Nat.le_of_succ_le_succ hturns
        rw [heq]
        exact ih (hvisited.done fun b hb => mem_iff_parents.mp (hall b hb)) rfl hleft

lemma search_mono (h : search r dst turns prev queue = some prev') (hle : turns ≤ turns') : search r dst turns' prev queue = some prev' := by
  induction turns generalizing prev queue turns' with
  | zero =>
    cases queue with
    | nil =>
      cases turns' with
      | zero => exact h
      | succ turns' => exact h
    | cons cur queue => cases h
  | succ turns ih =>
    obtain ⟨turns', rfl⟩ := Nat.exists_eq_add_of_le' (Nat.le_of_add_left_le hle)
    cases queue with
    | nil => exact h
    | cons cur queue =>
      rw [search] at h ⊢
      split_ifs at h ⊢ with hcur
      · exact h
      · exact ih h (Nat.le_of_succ_le_succ hle)

/-! ## The way back -/

/-- The way back from a node takes one turn for each step of its distance. -/
lemma backtrack_spec (rev : List IPv8Address) (htree : Tree r.neighbors r.self (parents prev)) (hcur : cur ∈ prev) (hdist : DistIs r.neighbors r.self cur (d + 1))
    (hturns : d < turns) : ∃ tail, backtrack r.self prev turns cur rev = some (some (rev ++ tail)) ∧
      Descent r.neighbors r.self (cur :: tail) (d + 1) := by
  induction d generalizing cur rev turns with
  | zero =>
    obtain ⟨turns, rfl⟩ := Nat.exists_eq_add_of_le' hturns
    obtain ⟨p, hp⟩ := Option.isSome_iff_exists.mp (mem_iff_parents.mp hcur)
    obtain ⟨hlink, hparent⟩ := htree.parent_dist hp hdist
    obtain rfl := hparent.eq_source
    refine ⟨[], ?_, .one hlink hdist⟩
    rw [backtrack, show prev[cur]? = some r.self from hp, List.append_nil]
    exact if_pos rfl
  | succ d ih =>
    obtain ⟨turns, rfl⟩ := Nat.exists_eq_add_of_le' (Nat.lt_of_lt_of_le (Nat.succ_pos d) (Nat.le_of_lt hturns))
    obtain ⟨p, hp⟩ := Option.isSome_iff_exists.mp (mem_iff_parents.mp hcur)
    obtain ⟨hlink, hparent⟩ := htree.parent_dist hp hdist
    have hknown : p ∈ prev := mem_iff_parents.mpr (htree.known cur p hp)
    obtain ⟨tail, hback, hrest⟩ := ih (rev ++ [p]) hknown hparent (Nat.lt_of_succ_lt_succ hturns)
    refine ⟨p :: tail, ?_, .cons hlink hdist hrest⟩
    rw [backtrack, show prev[cur]? = some p from hp]
    dsimp only
    rw [if_neg hparent.ne_source, hback, List.append_assoc]
    rfl

lemma backtrack_mono {found : Option (List IPv8Address)} (h : backtrack a prev turns cur rev = some found) (hle : turns ≤ turns') :
    backtrack a prev turns' cur rev = some found := by
  induction turns generalizing cur rev turns' with
  | zero => cases h
  | succ turns ih =>
    obtain ⟨turns', rfl⟩ := Nat.exists_eq_add_of_le' (Nat.le_of_add_left_le hle)
    rw [backtrack] at h ⊢
    cases hp : prev[cur]? with
    | none =>
      rw [hp] at h
      exact h
    | some p =>
      rw [hp] at h
      dsimp only at h ⊢
      split_ifs at h ⊢ with hself
      · exact h
      · exact ih h (Nat.le_of_succ_le_succ hle)

/-! ## Paths -/

/-- The call returns, and says so from some number of turns on. -/
def Returns (r : StaticRouter) (dst : IPv8Address) (result : Option (List IPv8Address)) : Prop :=
  ∃ enough, ∀ turns, enough ≤ turns → r.pathTo turns dst = some result

/-- A shortest path to a destination, along links, through each node once and not through us. -/
structure IsRoute (r : StaticRouter) (dst : IPv8Address) (path : List IPv8Address) : Prop where
  shortest : DistIs r.neighbors r.self dst path.length
  last : path.getLast? = some dst
  self_not_mem : r.self ∉ path
  nodup : path.Nodup
  linked : List.IsChain (fun a b => b ∈ r.neighbors a) (r.self :: path)

/-- A destination other than us, at most so many hops away. -/
def InReach (r : StaticRouter) (dst : IPv8Address) : Prop := dst ≠ r.self ∧ ∃ d, DistIs r.neighbors r.self dst d ∧ d ≤ r.maxHops

lemma isRoute_of_descent {tail : List IPv8Address} (h : Descent r.neighbors r.self (dst :: tail) (d + 1)) (hdist : DistIs r.neighbors r.self dst (d + 1)) :
    IsRoute r dst (dst :: tail).reverse := by
  refine ⟨?_, ?_, ?_, ?_, h.chain⟩
  · rw [List.length_reverse, h.length_eq]
    exact hdist
  · rw [List.getLast?_reverse]
    rfl
  · rw [List.mem_reverse]
    exact h.source_not_mem
  · rw [List.nodup_reverse]
    exact h.nodup

lemma returns_none (h : ¬ InReach r dst) {result : Option (List IPv8Address)} (hreturns : Returns r dst result) (hnone : result = none) :
    Returns r dst result ∧ (result.isSome ↔ InReach r dst) ∧ ∀ path, result = some path → IsRoute r dst path := by
  subst hnone
  exact ⟨hreturns, iff_of_false nofun h, nofun⟩

lemma pathTo_spec (r : StaticRouter) (dst : IPv8Address) : ∃ result, Returns r dst result ∧ (result.isSome ↔ InReach r dst) ∧
    ∀ path, result = some path → IsRoute r dst path := by
  by_cases hself : dst = r.self
  · exact ⟨none, returns_none (fun h => h.1 hself) ⟨0, fun _ _ => if_pos hself⟩ rfl⟩
  · have hinit : parents ((∅ : AddrMap IPv8Address).insert r.self r.self) = fun a => if a = r.self then some r.self else none := by
      rw [parents_insert]
      funext a
      rw [parents, Std.ExtTreeMap.getElem?_empty]
    obtain ⟨prev, hsearch, htree, hfound⟩ := search_spec dst (hinit ▸ layers_init) (List.append_nil [r.self]).symm le_rfl
    generalize r.pending ((∅ : AddrMap IPv8Address).insert r.self r.self, [r.self]) = enough at hsearch
    by_cases hmem : dst ∈ prev
    · obtain ⟨p, hp⟩ := Option.isSome_iff_exists.mp (mem_iff_parents.mp hmem)
      obtain ⟨e, hdist⟩ := htree.dist hp
      obtain ⟨d, rfl⟩ : ∃ d, e = d + 1 := Nat.exists_eq_succ_of_ne_zero fun h0 => hself (h0 ▸ hdist).eq_source
      obtain ⟨tail, hback, hdescent⟩ := backtrack_spec [dst] htree hmem hdist (Nat.lt_succ_self d)
      have hlength := hdescent.length_eq
      have hpath : ∀ turns, max enough (d + 1) ≤ turns →
          r.pathTo turns dst = some (if r.maxHops < d + 1 then none else some (dst :: tail).reverse) := by
        intro turns hturns
        rw [pathTo, if_neg hself, search_mono hsearch ((Nat.le_max_left _ _).trans hturns)]
        dsimp only
        rw [if_neg (not_not.mpr hmem), backtrack_mono hback ((Nat.le_max_right _ _).trans hturns)]
        dsimp only
        rw [List.singleton_append, hlength]
        split_ifs <;> rfl
      by_cases hfar : r.maxHops < d + 1
      · refine ⟨none, returns_none ?_ ⟨_, fun turns hturns => (hpath turns hturns).trans (congrArg some (if_pos hfar))⟩ rfl⟩
        rintro ⟨-, e, hdist', hle⟩
        rw [hdist'.unique hdist] at hle
        omega
      · refine ⟨some (dst :: tail).reverse, ⟨_, fun turns hturns => (hpath turns hturns).trans (congrArg some (if_neg hfar))⟩, ?_, ?_⟩
        · exact iff_of_true rfl ⟨hself, d + 1, hdist, Nat.not_lt.mp hfar⟩
        · rintro _ ⟨⟩
          exact isRoute_of_descent hdescent hdist
    · have hnone : Returns r dst none := by
        refine ⟨enough, fun turns hturns => ?_⟩
        rw [pathTo, if_neg hself, search_mono hsearch hturns]
        exact if_pos hmem
      refine ⟨none, returns_none ?_ hnone rfl⟩
      rintro ⟨-, d, hdist, -⟩
      exact hmem (hfound d hdist.steps)

/-! ## Routers that have been built -/

/-- What is done to a router. -/
inductive Setup where
  | withMaxHops (n : Nat)
  | addLink (a b : IPv8Address)

def setup (r : StaticRouter) : Setup → StaticRouter
  | .withMaxHops n => r.withMaxHops n
  | .addLink a b => r.addLink a b

lemma mem_push {links : AddrMap (List IPv8Address)} {x y : IPv8Address} :
    y ∈ (push links a b)[x]?.getD [] ↔ y ∈ links[x]?.getD [] ∨ x = a ∧ y = b := by
  rw [push, getElem?_insert_ite]
  by_cases hx : a = x
  · subst hx
    rw [if_pos rfl, Option.getD_some, List.mem_append, List.mem_singleton, eq_self, true_and]
  · rw [if_neg hx]
    exact (or_iff_left fun h => hx h.1.symm).symm

lemma mem_neighbors_setup (c : Setup) {x y : IPv8Address} :
    y ∈ (r.setup c).neighbors x ↔ y ∈ r.neighbors x ∨ c = .addLink x y ∨ c = .addLink y x := by
  cases c with
  | withMaxHops n => exact (or_iff_left (by rintro (h | h) <;> cases h)).symm
  | addLink a b =>
    rw [setup, addLink, neighbors, mem_push, mem_push, neighbors, or_assoc]
    refine or_congr_right (or_congr ?_ ?_)
    · rw [Setup.addLink.injEq, @eq_comm _ a, @eq_comm _ b]
    · rw [Setup.addLink.injEq, @eq_comm _ a, @eq_comm _ b, and_comm]

/-- The links are those that have been added, in both directions. -/
lemma mem_neighbors_run (cs : List Setup) (r : StaticRouter) {x y : IPv8Address} :
    y ∈ (cs.foldl setup r).neighbors x ↔ y ∈ r.neighbors x ∨ .addLink x y ∈ cs ∨ .addLink y x ∈ cs := by
  induction cs generalizing r with
  | nil => exact (or_iff_left (by rintro (h | h) <;> cases h)).symm
  | cons c cs ih =>
    rw [List.foldl_cons, ih, mem_neighbors_setup, or_assoc, List.mem_cons, List.mem_cons, @eq_comm _ c, @eq_comm _ c]
    tauto

lemma self_run (cs : List Setup) (r : StaticRouter) : (cs.foldl setup r).self = r.self := by
  induction cs generalizing r with
  | nil => rfl
  | cons c cs ih =>
    rw [List.foldl_cons, ih]
    cases c with
    | withMaxHops n => rfl
    | addLink a b => rfl

/-- **Static routes are shortest simple paths.** In a router with any links, the call for a path returns: a path when the
destination is in reach, which is then one of the shortest, and nothing otherwise. -/
theorem pathTo_shortest (self : IPv8Address) (cs : List Setup) (dst : IPv8Address) :
    let r := cs.foldl setup (new self)
    r.self = self ∧ (∀ x y, y ∈ r.neighbors x ↔ .addLink x y ∈ cs ∨ .addLink y x ∈ cs) ∧
      ∃ result, Returns r dst result ∧ (result.isSome ↔ InReach r dst) ∧ ∀ path, result = some path → IsRoute r dst path := by
  refine ⟨?_, fun x y => ?_, pathTo_spec _ dst⟩
  · exact self_run cs (new self)
  · rw [mem_neighbors_run, neighbors, new]
    exact or_iff_right (by rw [Std.ExtTreeMap.getElem?_empty]; exact List.not_mem_nil)

end StaticRouter

end IPv8Plus.Routing
