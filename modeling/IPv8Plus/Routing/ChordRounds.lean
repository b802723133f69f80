import IPv8Plus.Routing.ChordUpkeep

/-!
# The ring becomes right

When no more nodes come and every node stabilises again and again, all successors and predecessors become right. Once
no pointer leads past a node, the node before it tells it so in one round, and in the next all others that point to it
move on: from the founder backwards, two rounds settle one node. In a ring of no more nodes than a lookup has hops the
lookups agree from then on, and the fingers become right too, unless a finger starts at the very id of a node.
-/

namespace IPv8Plus.Routing
open Lib Lib.Clockwise

namespace InProcessRpc

/-- Every node stabilises, with any other upkeep in between. -/
structure Round (r : InProcessRpc) (os : List Op) : Prop where
  upkeep : ∀ o ∈ os, Upkeep o
  all : ∀ n ∈ r.ids, .stabilize n ∈ os

/-- The ring after so many rounds. -/
def after (r : InProcessRpc) (rounds : ℕ → List Op) : ℕ → InProcessRpc
  | 0 => r
  | t + 1 => (run step (r.after rounds t) (rounds t)).1

/-- `f` takes `p` for its predecessor. -/
def Behind (r : InProcessRpc) (f p : NodeId) : Prop := ∃ node x, r.getNode f = some node ∧ node.predecessor = some x ∧ x.id = p

/-- A ring of the nodes `S` with no pointer past `f`. -/
structure Sparing (S : Set NodeId) (f : NodeId) (r : InProcessRpc) : Prop where
  linked : r.Linked
  ids : r.ids = S
  spares : Spares S r.next f

variable {r r' : InProcessRpc} {n m k p f z : NodeId} {node : ChordNode} {s x : NodeInfo} {o : Op} {a b os : List Op} {left t : ℕ}
  {rounds : ℕ → List Op} {S : Set NodeId}

namespace Sparing

lemma tightens (h : Sparing S f r) (ht : r.Tightens r') : Sparing S f r' := by
  have hids : r'.ids = S := ht.ids.trans h.ids
  have hsp := ht.spares h.linked (h.ids.symm ▸ h.spares)
  exact ⟨ht.linked h.linked, hids, hids ▸ hsp⟩

lemma step (h : Sparing S f r) (ho : Upkeep o) : Sparing S f (step r o).1 := h.tightens (.step h.linked ho)

lemma run (h : Sparing S f r) (hos : ∀ o ∈ os, Upkeep o) : Sparing S f (run InProcessRpc.step r os).1 :=
  invariant_run (I := Sparing S f) (P := fun _ o => Upkeep o) (fun _ _ hs ho => hs.step ho) h (along_of_forall hos)

/-- A node that does not point to `f` never comes to. -/
lemma next_ne (h : Sparing S f r) (ht : r.Tightens r') (hn : n ∈ S) (hnext : r.next n ≠ f) : r'.next n ≠ f :=
  h.spares.ne_of_nearer hn hnext (ht.next_cases h.linked (h.ids.symm ▸ hn))

end Sparing

section Pair

variable (hf : IsFirst S (p + 1) f) (hp : p ∈ S) (hne : p ≠ f) (h : Sparing S f r)
include hf hp hne

/-- Seen from elsewhere, `p` is in front of `f`. -/
lemma between_pair (hn : n ∈ S) (hnp : n ≠ p) (hnf : n ≠ f) : Between n p f :=
  ⟨arc_pos hnp, by have := arc_split' (hf.nearest (by decide) hp hne hn hnf); omega⟩

/-- No node is between the two. -/
lemma not_between_pair (hn : n ∈ S) (hnf : n ≠ f) : ¬ Between p n f := by
  rintro ⟨hpos, hle⟩
  have hsplit := arc_split hle
  have hnear := hf.nearest (by decide) hp hne hn hnf
  have hpos' := arc_pos hnf
  omega

include h

lemma Behind.tightens (ht : r.Tightens r') (hb : r.Behind f p) : r'.Behind f p := by
  obtain ⟨node, x, hnode, hx, rfl⟩ := hb
  obtain ⟨node', hnode', htight⟩ := ht.nodes hnode
  rcases htight.predecessor with he | ⟨c, hc, hknows, hcf, hup⟩
  · exact ⟨node', x, hnode', he.trans hx, rfl⟩
  · rw [ChordNode.needUpdate, hx] at hup
    dsimp only at hup
    rw [h.linked.id hnode] at hup hcf
    rw [inOpenInterval_iff] at hup
    exact absurd (hup.resolve_left hne) (not_between_pair hf hp hne (h.ids ▸ hknows.mem) hcf)

/-- When `p` stabilises it tells `f`. -/
lemma Behind.stabilize : (r.stabilize p).Behind f p := by
  obtain ⟨node, s, hnode, hs, hknows, hnext⟩ := h.linked.exists_next (h.ids.symm ▸ hp)
  have hid := h.linked.id hnode
  -- no pointer from in front of `f` passes it
  have hsf : s.id = f := by
    by_contra hsf
    have hbetween := h.spares p hp hne
    rw [hnext] at hbetween
    exact not_between_pair hf hp hne (h.ids ▸ hknows.mem) hsf hbetween
  obtain ⟨node', hnode'⟩ := exists_node (h.ids.symm ▸ hf.1 : f ∈ r.ids)
  have hget := getNode_stabilize (m := f) hnode hid hs
  rw [if_neg hne, if_pos hsf, hnode', Option.map_some] at hget
  by_cases hup : node'.needUpdate node.info = true
  · refine ⟨_, node.info, hget, ?_, hid⟩
    rw [ChordNode.notified_predecessor, if_pos hup]
  · cases hx : node'.predecessor with
    | none =>
      rw [ChordNode.needUpdate, hx] at hup
      exact absurd rfl hup
    | some x =>
      refine ⟨_, x, hget, ?_, ?_⟩
      · rw [ChordNode.notified_predecessor, if_neg hup, hx]
      · rw [ChordNode.needUpdate, hx] at hup
        dsimp only at hup
        have hinfo : node.info.id = p := hid
        rw [inOpenInterval_iff, hinfo, h.linked.id hnode'] at hup
        push Not at hup
        by_contra hxp
        have hmem := (h.linked.predecessor hnode' hx).mem
        exact hup.2 (between_pair hf hp hne (h.ids ▸ hmem) hxp hup.1)

/-- Any other node that stabilises then gets to know of `p`. -/
lemma next_stabilize (hb : r.Behind f p) (hn : n ∈ S) (hnp : n ≠ p) : (r.stabilize n).next n ≠ f := by
  by_cases hnext : r.next n = f
  · obtain ⟨node, s, hnode, hs, -, he⟩ := h.linked.exists_next (h.ids.symm ▸ hn)
    obtain ⟨node', x, hnode', hx, hxp⟩ := hb
    have hid := h.linked.id hnode
    have hsf : s.id = f := he.symm.trans hnext
    have hpred : node.predOfSucc r.getPredecessor s = some x := by
      rw [ChordNode.predOfSucc, hid, hsf]
      split
      · next hfn =>
        cases hnode.symm.trans (hfn ▸ hnode')
        exact hx
      · rw [getPredecessor, hnode', Option.bind_some, hx]
    have hin : inOpenInterval x.id node.id s.id = true := by
      rw [inOpenInterval_iff, hid, hsf, hxp]
      by_cases hnf : n = f
      · exact .inl hnf
      · exact .inr (between_pair hf hp hne hn hnp hnf)
    have hget := getNode_stabilize (m := n) hnode hid hs
    rw [if_pos rfl] at hget
    rcases ChordNode.stabilize_cases r.getPredecessor hs with ⟨y, hy, -, -, hstab⟩ | ⟨hstay, -⟩
    · cases hpred.symm.trans hy
      rw [hstab] at hget
      rw [next_eq hget rfl, hxp]
      exact hne
    · have hout := hstay x hpred (by rw [hxp, hsf]; exact hne)
      rw [hin] at hout
      cases hout
  · exact h.next_ne (.stabilize h.linked) hn hnext

/-- After a round `f` has heard of `p`. -/
lemma behind_round (hall : .stabilize p ∈ os) (hos : ∀ o ∈ os, Upkeep o) : (run step r os).1.Behind f p :=
  run_of_mem (I := Sparing S f) (C := Upkeep) (Q := fun s => s.Behind f p) (o := .stabilize p) (fun _ _ hs ho => hs.step ho)
    (fun _ _ hs hb ho => hb.tightens hf hp hne hs (.step hs.linked ho)) (fun _ hs => .stabilize hf hp hne hs) h hos hall

/-- After another one nobody else points to `f`. -/
lemma next_round (hb : r.Behind f p) (hn : n ∈ S) (hnp : n ≠ p) (hall : .stabilize n ∈ os) (hos : ∀ o ∈ os, Upkeep o) :
    (run step r os).1.next n ≠ f :=
  run_of_mem (I := fun s => Sparing S f s ∧ s.Behind f p) (C := Upkeep) (Q := fun s => s.next n ≠ f) (o := .stabilize n)
    (fun _ _ hs ho => ⟨hs.1.step ho, hs.2.tightens hf hp hne hs.1 (.step hs.1.linked ho)⟩)
    (fun _ _ hs hnext ho => hs.1.next_ne (.step hs.1.linked ho) hn hnext)
    (fun _ hs => next_stabilize hf hp hne hs.1 hs.2 hn hnp) ⟨h, hb⟩ hos hall

/-- Two rounds after no pointer leads past `f`, none leads past the node in front of it. -/
lemma sparing_rounds (ha : ∀ o ∈ a, Upkeep o) (hb : ∀ o ∈ b, Upkeep o) (hall : ∀ n ∈ S, .stabilize n ∈ a ∧ .stabilize n ∈ b) :
    Sparing S p (run step (run step r a).1 b).1 := by
  have hmid := h.run ha
  have hend := hmid.run hb
  have hbehind := behind_round hf hp hne h (hall p hp).1 ha
  refine ⟨hend.linked, hend.ids, hend.spares.before (by decide) hp hf hne (fun n hn => ?_) fun n hn hnp => ?_⟩
  · have hmem := hend.linked.next_mem (n := n)
    rw [hend.ids] at hmem
    exact hmem hn
  · exact next_round hf hp hne hmid hbehind hn hnp (hall n hn).2 hb

end Pair

namespace Founded

variable (h : Founded z r) (hr : ∀ t, r.Round (rounds t))
include h

lemma run (hos : ∀ o ∈ os, Upkeep o) : Founded z (run step r os).1 :=
  invariant_run (P := fun _ o => Upkeep o) (fun _ _ hs ho => hs.tightens (.step hs.linked ho)) h (along_of_forall hos)

include hr

lemma after (t : ℕ) : Founded z (r.after rounds t) := by
  induction t with
  | zero => exact h
  | succ t ih => exact ih.run (hr t).upkeep

omit h in
lemma sparing_after {u : ℕ} (hs : Sparing S f (r.after rounds u)) (hle : u ≤ t) : Sparing S f (r.after rounds t) := by
  induction t, hle using Nat.le_induction with
  | base => exact hs
  | succ t _ ih => exact ih.run (hr t).upkeep

lemma ids_after (t : ℕ) : (r.after rounds t).ids = r.ids :=
  (sparing_after (S := r.ids) (f := z) (u := 0) hr ⟨h.linked, rfl, h.spares⟩ (Nat.zero_le t)).ids

/-- From the founder backwards, two rounds for every node. -/
lemma sparing_all (hn : n ∈ r.ids) (ht : 2 * (r.ids.ncard - 1) ≤ t) : Sparing r.ids n (r.after rounds t) := by
  refine sparing_after hr (backwards (P := fun d p => Sparing r.ids p (r.after rounds (2 * d))) r.ids.toFinite (by decide) h.mem
    ⟨h.linked, rfl, h.spares⟩ (fun d p hp => ?_) (fun d p f hp hne hf hs => ?_) hn) ht
  · exact (hp.run (hr _).upkeep).run (hr _).upkeep
  · exact sparing_rounds hf hp hne hs (hr _).upkeep (hr _).upkeep fun n hn => ⟨(hr _).all n hn, (hr _).all n hn⟩

end Founded

lemma ringed_after (h : Grown z r) (hr : ∀ t, r.Round (rounds t)) (ht : 2 * r.ids.ncard ≤ t + 1) :
    (r.after rounds t).Ringed := by
  have hpos : 0 < r.ids.ncard := (Set.ncard_pos r.ids.toFinite).mpr ⟨z, h.founded.mem⟩
  obtain ⟨t, rfl⟩ : ∃ u, t = u + 1 := ⟨t - 1, by omega⟩
  have hbefore : ∀ n ∈ r.ids, Sparing r.ids n (r.after rounds t) := fun n hn => h.founded.sparing_all hr hn (by omega)
  have hend : ∀ n ∈ r.ids, Sparing r.ids n (r.after rounds (t + 1)) := fun n hn => (hbefore n hn).run (hr t).upkeep
  have hfounded := h.founded.after hr (t + 1)
  have hl := hfounded.linked
  have hids : (r.after rounds (t + 1)).ids = r.ids := (hend z h.founded.mem).ids
  refine ⟨⟨z, hfounded.mem⟩, hl.id, fun {n node} hnode => ?_, fun {n node} hnode => ?_⟩
  · obtain ⟨node', s, hnode', hs, hknows, hnext⟩ := hl.exists_next (mem_ids hnode)
    cases hnode.symm.trans hnode'
    refine ⟨s, hs, hknows, ?_⟩
    rw [← hnext]
    refine isFirst_of_spares (by decide) (hl.next_mem (mem_ids hnode)) (mem_ids hnode) fun p hp => ?_
    rw [hids]
    exact (hend p (hids ▸ hp)).spares
  · have hn : n ∈ r.ids := hids ▸ mem_ids hnode
    obtain ⟨p, hp, hf⟩ := exists_before (S := r.ids) (by decide) hn
    by_cases hpn : p = n
    · -- the founder is alone
      have honly : ∀ m ∈ r.ids, m = n := by
        intro m hm
        rw [hpn] at hf
        rcases hf.cases_shift hn (d := 1) (by decide) with ⟨-, hall⟩ | ⟨hfar, -⟩
        · exact (eq_of_arc n m (by have := hall m hm; omega)).symm
        · rw [arc_self] at hfar
          cases hfar
      obtain ⟨node', q, hnode', hq⟩ := hfounded.first
      cases honly z h.founded.mem
      cases hnode.symm.trans hnode'
      have hknows := hl.predecessor hnode hq
      have hqz := honly q.id (hids ▸ hknows.mem)
      refine ⟨q, hq, hknows, ?_⟩
      rw [hids, hqz, ← hpn]
      exact hpn ▸ hf
    · obtain ⟨node', q, hnode', hq, hqp⟩ := behind_round hf hp hpn (hbefore n hn) ((hr t).all p hp) (hr t).upkeep
      cases hnode.symm.trans hnode'
      refine ⟨q, hq, hl.predecessor hnode hq, ?_⟩
      rw [hids, hqp]
      exact hf

/-- However the nodes have come, and whatever else they do, two rounds for every node but one and one more make all
successors and predecessors right. -/
theorem stabilized (h : Grown z r) (hr : ∀ t, r.Round (rounds t)) (ht : 2 * r.ids.ncard ≤ t + 1) :
    (r.after rounds t).Ringed := ringed_after h hr ht

lemma round_freshPair : freshPair.Round [.stabilize 0, .stabilize 5] := by
  refine ⟨fun o ho => ?_, fun n hn => ?_⟩
  · rcases List.mem_pair.mp ho with rfl | rfl
    · exact trivial
    · exact trivial
  · rcases mem_freshPair hn with rfl | rfl
    · exact List.mem_cons_self
    · exact List.mem_cons_of_mem _ List.mem_cons_self

theorem stabilized_sample : (freshPair.after (fun _ => [.stabilize 0, .stabilize 5]) 3).Ringed :=
  stabilized grown_freshPair (fun _ => round_freshPair) (by rw [ncard_freshPair])

namespace Ringed

variable (hr : r.Ringed) (hl : r.Linked)
include hr

/-- The node that answers a lookup is right. -/
lemma answer (hnode : r.getNode n = some node) (hs : node.successor = some s) (hk : k ∉ r.ids ∨ r.ids.Subsingleton)
    (hin : inClosedInterval k node.id s.id = true) : r.Points k s := by
  obtain ⟨s', hs', hknows, hfirst⟩ := hr.successor hnode
  cases hs.symm.trans hs'
  have hn := mem_ids hnode
  refine ⟨hknows, (isFirst_iff_of_next hn (by decide) hfirst).mpr ?_⟩
  rw [hr.id hnode, inClosedInterval_iff] at hin
  rcases hin with rfl | he | hb
  · exact .inl (hk.elim (absurd hn) fun honly => honly hn hknows.mem)
  · exact .inl he
  · exact .inr (.inl hb)

/-- Pointers that are right stay. -/
lemma tightens (ht : r.Tightens r') (hl : r.Linked) : r'.Ringed := by
  have hpoints : ∀ {k x}, r.Points k x → r'.Points k x := fun hx => ⟨ht.knows hx.1, ht.ids.symm ▸ hx.2⟩
  refine ⟨ht.ids.symm ▸ hr.nonempty, (ht.linked hl).id, fun {n node'} hnode' => ?_, fun {n node'} hnode' => ?_⟩
  · obtain ⟨node, hnode, htight⟩ := ht.back hnode'
    obtain ⟨s, hs, hx⟩ := hr.successor hnode
    rcases htight.successor with he | ⟨s', x, hs', -, hknows, hne, hin⟩
    · exact ⟨s, he.trans hs, hpoints hx⟩
    · cases hs.symm.trans hs'
      rw [inOpenInterval_iff, hr.id hnode] at hin
      rcases hx.2.cases_shift (mem_ids hnode) (d := 1) (by decide) with ⟨he, hall⟩ | ⟨hfar, hmin⟩
      · have hxn := eq_of_arc n x.id (by have := hall _ hknows.mem; omega)
        exact absurd (hxn.symm.trans he.symm) hne
      · rcases hin with he | ⟨hpos, hle⟩
        · rw [← he, arc_self] at hfar
          cases hfar
        · exact absurd (arc_right_inj (Nat.le_antisymm hle (hmin _ hknows.mem hpos))) hne
  · obtain ⟨node, hnode, htight⟩ := ht.back hnode'
    obtain ⟨p, hp, hknows, hf⟩ := hr.predecessor hnode
    rcases htight.predecessor with he | ⟨c, -, hc, hcn, hup⟩
    · exact ⟨p, he.trans hp, ht.knows hknows, ht.ids.symm ▸ hf⟩
    · rw [ChordNode.needUpdate, hp] at hup
      dsimp only at hup
      rw [inOpenInterval_iff, hr.id hnode] at hup
      rw [hr.id hnode] at hcn
      by_cases hpn : p.id = n
      · rcases hf.cases_shift hknows.mem (d := 1) (by decide) with ⟨-, hall⟩ | ⟨hfar, -⟩
        · have hcp := eq_of_arc p.id c.id (by have := hall _ hc.mem; omega)
          exact absurd (hcp.symm.trans hpn) hcn
        · rw [hpn, arc_self] at hfar
          cases hfar
      · exact absurd (hup.resolve_left hpn) (not_between_pair hf hknows.mem hpn hc.mem hcn)

include hl

variable (hk : k ∉ r.ids ∨ r.ids.Subsingleton) (hx : r.Points k x)
include hk hx

/-- A node finds the owner when those that are nearer to the key do. -/
lemma find {ask : NodeId → NodeId → Option NodeInfo} (hnode : r.getNode n = some node)
    (hask : ∀ f ∈ r.ids, arc f k < arc n k → ask f k = some x) : node.findSuccessor ask k = some x := by
  obtain ⟨s, hs, -⟩ := hl.successor hnode
  rcases hl.hop hnode hs k with hin | ⟨hin, -, f, hf, hfn, hknows, hnear⟩
  · rw [ChordNode.findSuccessor_answer hs hin, (hr.answer hnode hs hk hin).unique hx]
  · rw [ChordNode.findSuccessor_next hs hin hf ((hl.id hnode).symm ▸ hfn)]
    exact hask f.id hknows.mem hnear

lemma hops (hn : n ∈ r.ids) (hleft : rank r.ids k n < left) : r.hops k left n = some x := by
  induction left generalizing n with
  | zero => cases hleft
  | succ left ih =>
    obtain ⟨node, hnode⟩ := exists_node hn
    obtain ⟨s, hs, -⟩ := hl.successor hnode
    rcases hl.hop hnode hs k with hin | ⟨hin, hsn, f, hf, hfn, hknows, hnear⟩
    · rw [hops_answer hnode hs hin, (hr.answer hnode hs hk hin).unique hx]
    · rw [hops_next hnode hs hin hf hsn hfn]
      have hlt := rank_lt r.ids.toFinite hknows.mem hnear
      exact ih hknows.mem (by omega)

lemma recursive {depth : ℕ} (hn : n ∈ r.ids) (hdepth : rank r.ids k n < depth) :
    r.recursiveFindSuccessor depth n k = some x := by
  induction depth generalizing n with
  | zero => cases hdepth
  | succ depth ih =>
    obtain ⟨node, hnode⟩ := exists_node hn
    rw [recursiveFindSuccessor, hnode]
    refine hr.find hl hk hx hnode fun f hf hnear => ih hf ?_
    have hlt := rank_lt r.ids.toFinite hf hnear
    omega

lemma agrees (hfew : r.ids.ncard ≤ fingerCount) : r.AgreesOn k x := by
  have hrank : ∀ n ∈ r.ids, rank r.ids k n < fingerCount := fun n hn => (rank_lt_ncard r.ids.toFinite hn).trans_le hfew
  have hiter : ∀ start ∈ r.ids, r.iterativeFindSuccessor start k = some x := fun start hstart =>
    hr.hops hl hk hx hstart (hrank start hstart)
  refine ⟨hx.1, hr.responsible_points hx, hiter, fun depth hdepth start hstart => ?_, fun hnode => ?_, fun a ha b hb =>
    get_put hx.1 hiter ha hb⟩
  · exact hr.recursive hl hk hx hstart ((hrank start hstart).trans_le hdepth)
  · exact hr.find hl hk hx hnode fun f hf _ => hiter f hf

end Ringed

/-- With no more nodes than hops, the lookups of a key agree after these rounds, whatever the fingers are, unless the key is
the id of one of several nodes. -/
theorem lookups_settle (h : Grown z r) (hr : ∀ t, r.Round (rounds t)) (ht : 2 * r.ids.ncard ≤ t + 1)
    (hfew : r.ids.ncard ≤ fingerCount) (hk : k ∉ r.ids ∨ r.ids.Subsingleton) :
    ∃ owner, (r.after rounds t).AgreesOn k owner := by
  have hringed := ringed_after h hr ht
  have hl := (h.founded.after hr t).linked
  have hids := h.founded.ids_after hr t
  obtain ⟨owner, hx⟩ := hringed.exists_points k
  exact ⟨owner, hringed.agrees hl (hids.symm ▸ hk) hx (hids.symm ▸ hfew)⟩

theorem lookups_settle_sample : ∃ owner, (freshPair.after (fun _ => [.stabilize 0, .stabilize 5]) 3).AgreesOn 6 owner :=
  lookups_settle grown_freshPair (fun _ => round_freshPair) (by rw [ncard_freshPair]) (by rw [ncard_freshPair]; decide)
    (.inl fun h => (mem_freshPair h).elim (by decide) (by decide))

lemma one_shiftLeft (i : Fin fingerCount) : (1 : UInt64) <<< UInt64.ofNat i.val = UInt64.ofNat (2 ^ i.val) := by
  revert i
  decide +kernel

/-- One round of `converge`: the nodes stabilise, and then each refreshes one finger after the other. -/
def sweep (r : InProcessRpc) (ids : List NodeId) : InProcessRpc :=
  (List.range fingerCount).foldl (fun r _ => ids.foldl fixFingers r) (ids.foldl stabilize r)

/-- `converge` takes a new snapshot of the ids in every round, in any order. -/
def converge (r : InProcessRpc) (allIds : ℕ → List NodeId) : ℕ → InProcessRpc
  | 0 => r
  | t + 1 => (r.converge allIds t).sweep (allIds t)

/-- The calls of a round. -/
def sweepOps (ids : List NodeId) : List Op := ids.map .stabilize ++ (List.range fingerCount).flatMap fun _ => ids.map .fixFingers

lemma run_sweepOps {ids : List NodeId} : (run step r (sweepOps ids)).1 = r.sweep ids := by
  have hfix : ∀ l : List ℕ, ∀ r : InProcessRpc,
      (run step r (l.flatMap fun _ => ids.map .fixFingers)).1 = l.foldl (fun r _ => ids.foldl fixFingers r) r := by
    intro l
    induction l with
    | nil => exact fun _ => rfl
    | cons i l ih =>
      intro r
      rw [List.flatMap_cons, run_append, ih, run_map, List.foldl_cons]
      rfl
  rw [sweepOps, run_append, hfix, run_map]
  rfl

lemma round_sweepOps {ids : List NodeId} (hids : ∀ n ∈ r.ids, n ∈ ids) : r.Round (sweepOps ids) := by
  refine ⟨fun o ho => ?_, fun n hn => List.mem_append_left _ (List.mem_map_of_mem (hids n hn))⟩
  rcases List.mem_append.mp ho with ho | ho
  · obtain ⟨n, -, rfl⟩ := List.mem_map.mp ho
    exact trivial
  · obtain ⟨i, -, ho⟩ := List.mem_flatMap.mp ho
    obtain ⟨n, -, rfl⟩ := List.mem_map.mp ho
    exact trivial

lemma converge_eq {allIds : ℕ → List NodeId} : r.converge allIds t = r.after (fun t => sweepOps (allIds t)) t := by
  induction t with
  | zero => rfl
  | succ t ih => rw [converge, after, ih, run_sweepOps]

/-- The finger of `n` in slot `i` starts at the first node from its distance on. -/
def Fixed (r : InProcessRpc) (n : NodeId) (node : ChordNode) (i : ℕ) : Prop :=
  ∃ f, node.fingers[i]? = some (some f) ∧ r.Points (n + UInt64.ofNat (2 ^ i)) f

/-- The last so many refreshed fingers of `n` are right. -/
def Fresh (n : NodeId) (c : ℕ) (r : InProcessRpc) : Prop :=
  ∃ node, r.getNode n = some node ∧
    ∀ i < fingerCount, (node.nextFix.val + fingerCount - 1 - i) % fingerCount < c → r.Fixed n node i

/-- A right ring of the nodes `S`, no more than a lookup has hops. -/
structure Small (S : Set NodeId) (r : InProcessRpc) : Prop where
  ringed : r.Ringed
  linked : r.Linked
  ids : r.ids = S
  few : S.ncard ≤ fingerCount

/-- No finger starts at the id of a node. -/
def Apart (S : Set NodeId) : Prop := ∀ n ∈ S, ∀ i < fingerCount, n + UInt64.ofNat (2 ^ i) ∉ S

namespace Small

variable {c : ℕ} (h : Small S r)
include h

lemma tightens (ht : r.Tightens r') : Small S r' :=
  ⟨h.ringed.tightens ht h.linked, ht.linked h.linked, ht.ids.trans h.ids, h.few⟩

/-- A refreshed finger is right. -/
lemma findSuccessor (hnode : r.getNode n = some node) (hk : k ∉ S) :
    ∃ x, node.findSuccessor r.iterativeFindSuccessor k = some x ∧ r.Points k x := by
  obtain ⟨x, hx⟩ := h.ringed.exists_points k
  have hk' : k ∉ r.ids ∨ r.ids.Subsingleton := .inl (h.ids.symm ▸ hk)
  exact ⟨x, (h.ringed.agrees h.linked hk' hx (h.ids.symm ▸ h.few)).find hnode, hx⟩

lemma fixFingers : Small S (r.fixFingers m) := h.tightens (.fixFingers h.linked)

omit h in
lemma fresh_mono {c' : ℕ} (hf : Fresh n c r) (hle : c' ≤ c) : Fresh n c' r := by
  obtain ⟨node, hnode, hfixed⟩ := hf
  exact ⟨node, hnode, fun i hi hage => hfixed i hi (hage.trans_le hle)⟩

/-- A refresh of another node keeps them. -/
lemma fresh_other (hmn : m ≠ n) (hf : Fresh n c r) : Fresh n c (r.fixFingers m) := by
  obtain ⟨node, hnode, hfixed⟩ := hf
  have ht : r.Tightens (r.fixFingers m) := .fixFingers h.linked
  refine ⟨node, ?_, fun i hi hage => ?_⟩
  · rw [InProcessRpc.fixFingers, getNode_write, if_neg hmn]
    exact hnode
  · obtain ⟨f, hf, hx⟩ := hfixed i hi hage
    exact ⟨f, hf, ht.knows hx.1, ht.ids.symm ▸ hx.2⟩

/-- A refresh of the node itself adds one. -/
lemma fresh_self (hap : Apart S) (hn : n ∈ S) (hf : Fresh n c r) : Fresh n (c + 1) (r.fixFingers n) := by
  obtain ⟨node, hnode, hfixed⟩ := hf
  have ht : r.Tightens (r.fixFingers n) := .fixFingers h.linked
  obtain ⟨x, hfind, hx⟩ := h.findSuccessor hnode (hap n hn node.nextFix node.nextFix.isLt)
  have hstart : node.id + ((1 : UInt64) <<< UInt64.ofNat node.nextFix.val) = n + UInt64.ofNat (2 ^ node.nextFix.val) := by
    rw [h.linked.id hnode, one_shiftLeft]
  have hfix : node.fixFingers r.iterativeFindSuccessor = { node with
      fingers := node.fingers.set node.nextFix.val (some x) node.nextFix.isLt
      nextFix := ⟨(node.nextFix.val + 1) % fingerCount, Nat.mod_lt _ fingerCount_pos⟩ } := by
    rw [ChordNode.fixFingers, hstart, hfind]
  refine ⟨node.fixFingers r.iterativeFindSuccessor, ?_, fun i hi hage => ?_⟩
  · rw [InProcessRpc.fixFingers, getNode_write, if_pos rfl, hnode, Option.map_some]
  · rw [hfix] at hage ⊢
    by_cases hin : i = node.nextFix.val
    · subst hin
      refine ⟨x, ?_, ht.knows hx.1, ht.ids.symm ▸ hx.2⟩
      exact Vector.getElem?_set_self hi
    · have hold : (node.nextFix.val + fingerCount - 1 - i) % fingerCount < c := by
        have hnext : node.nextFix.val < 64 := node.nextFix.isLt
        have hi' : i < 64 := hi
        have hage' : ((node.nextFix.val + 1) % 64 + 64 - 1 - i) % 64 < c + 1 := hage
        change (node.nextFix.val + 64 - 1 - i) % 64 < c
        omega
      obtain ⟨f, hf, hx⟩ := hfixed i hi hold
      refine ⟨f, ?_, ht.knows hx.1, ht.ids.symm ▸ hx.2⟩
      exact (Vector.getElem?_set_ne node.nextFix.isLt (Ne.symm hin)).trans hf

/-- Refreshes of all nodes add one for each of them. -/
lemma fresh_all {ids : List NodeId} (hap : Apart S) (hn : n ∈ S) (hmem : n ∈ ids) (hf : Fresh n c r) :
    Fresh n (c + 1) (ids.foldl InProcessRpc.fixFingers r) := by
  have hkeep : ∀ (m : NodeId) (s : InProcessRpc) c, Small S s → Fresh n c s → Fresh n c (s.fixFingers m) := by
    intro m s c hs hf
    by_cases hmn : m = n
    · rw [hmn]
      exact fresh_mono (hs.fresh_self hap hn hf) (Nat.le_succ c)
    · exact hs.fresh_other hmn hf
  have hrun : Fresh n (c + 1) (run step r (ids.map .fixFingers)).1 :=
    run_of_mem (I := fun s => Small S s ∧ Fresh n c s) (C := fun o => ∃ m, o = .fixFingers m) (o := .fixFingers n)
      (by rintro s _ ⟨hs, hf⟩ ⟨m, rfl⟩; exact ⟨hs.fixFingers, hkeep m s c hs hf⟩)
      (by rintro s _ ⟨hs, -⟩ hf ⟨m, rfl⟩; exact hkeep m s (c + 1) hs hf)
      (fun s hs => hs.1.fresh_self hap hn hs.2) ⟨h, hf⟩
      (fun o ho => by obtain ⟨m, -, rfl⟩ := List.mem_map.mp ho; exact ⟨m, rfl⟩) (List.mem_map_of_mem hmem)
  rw [run_map] at hrun
  exact hrun

end Small

/-- A round of `converge` in a right ring makes all fingers right. -/
lemma Small.sweep {ids : List NodeId} (h : Small S r) (hap : Apart S) (hids : ∀ n ∈ S, n ∈ ids) : (r.sweep ids).Converged := by
  have hup : ∀ (os : List Op) {s : InProcessRpc}, Small S s → (∀ o ∈ os, Upkeep o) → Small S (run step s os).1 := fun os _ hs hos =>
    invariant_run (P := fun _ o => Upkeep o) (fun _ _ hs ho => hs.tightens (.step hs.linked ho)) hs (along_of_forall hos)
  have hstab : Small S (ids.foldl stabilize r) := by
    have hrun := hup (ids.map .stabilize) h fun o ho => by
      obtain ⟨m, -, rfl⟩ := List.mem_map.mp ho
      exact trivial
    rw [run_map] at hrun
    exact hrun
  have hfix : ∀ c, Small S ((List.range c).foldl (fun r _ => ids.foldl InProcessRpc.fixFingers r) (ids.foldl stabilize r)) ∧
      ∀ n ∈ S, Fresh n c ((List.range c).foldl (fun r _ => ids.foldl InProcessRpc.fixFingers r) (ids.foldl stabilize r)) := by
    intro c
    induction c with
    | zero =>
      refine ⟨hstab, fun n hn => ?_⟩
      obtain ⟨node, hnode⟩ := exists_node (hstab.ids.symm ▸ hn : n ∈ (ids.foldl stabilize r).ids)
      exact ⟨node, hnode, fun i hi hage => by cases hage⟩
    | succ c ih =>
      rw [List.range_succ, List.foldl_append]
      refine ⟨?_, fun n hn => ih.1.fresh_all hap hn (hids n hn) (ih.2 n hn)⟩
      have hrun := hup (ids.map .fixFingers) ih.1 fun o ho => by
        obtain ⟨m, -, rfl⟩ := List.mem_map.mp ho
        exact trivial
      rw [run_map] at hrun
      exact hrun
  obtain ⟨hend, hfresh⟩ := hfix fingerCount
  refine ⟨hend.ringed.nonempty, hend.ringed.id, hend.ringed.successor, hend.ringed.predecessor, fun {n node} hnode i hi => ?_⟩
  obtain ⟨node', hnode', hfixed⟩ := hfresh n (hend.ids ▸ mem_ids hnode)
  cases hnode.symm.trans hnode'
  exact hfixed i hi (Nat.mod_lt _ fingerCount_pos)

/-- In a ring of no more nodes than a lookup has hops, `converge` with two rounds for every node makes all pointers right if no
finger starts at the id of a node. -/
theorem converge_converged (h : Grown z r) {allIds : ℕ → List NodeId} (hids : ∀ t, ∀ n ∈ r.ids, n ∈ allIds t)
    (hfew : r.ids.ncard ≤ fingerCount) (hap : Apart r.ids) (ht : 2 * r.ids.ncard ≤ t) : (r.converge allIds t).Converged := by
  have hr : ∀ t, r.Round (sweepOps (allIds t)) := fun t => round_sweepOps (hids t)
  have hpos : 0 < r.ids.ncard := (Set.ncard_pos r.ids.toFinite).mpr ⟨z, h.founded.mem⟩
  obtain ⟨t, rfl⟩ : ∃ u, t = u + 1 := ⟨t - 1, by omega⟩
  rw [converge, converge_eq]
  have hsmall : Small r.ids (r.after (fun t => sweepOps (allIds t)) t) :=
    ⟨ringed_after h hr (by omega), (h.founded.after hr t).linked, h.founded.ids_after hr t, hfew⟩
  exact hsmall.sweep hap (hids t)

lemma apart_freshPair : Apart freshPair.ids := by
  have hapart : ∀ i : Fin fingerCount, ((0 : NodeId) + UInt64.ofNat (2 ^ i.val) ≠ 0 ∧ (0 : NodeId) + UInt64.ofNat (2 ^ i.val) ≠ 5) ∧
      (5 : NodeId) + UInt64.ofNat (2 ^ i.val) ≠ 0 ∧ (5 : NodeId) + UInt64.ofNat (2 ^ i.val) ≠ 5 := by decide +kernel
  intro n hn i hi hin
  obtain ⟨⟨h00, h05⟩, h50, h55⟩ := hapart ⟨i, hi⟩
  rcases mem_freshPair hn with rfl | rfl
  · exact (mem_freshPair hin).elim h00 h05
  · exact (mem_freshPair hin).elim h50 h55

theorem converge_converged_sample : (freshPair.converge (fun _ => [5, 0]) 4).Converged := by
  refine converge_converged grown_freshPair (fun _ n hn => ?_) ?_ apart_freshPair ?_
  · rcases mem_freshPair hn with rfl | rfl
    · exact List.mem_cons_of_mem _ List.mem_cons_self
    · exact List.mem_cons_self
  · rw [ncard_freshPair]
    decide
  · rw [ncard_freshPair]

end InProcessRpc

end IPv8Plus.Routing
