import IPv8Plus.Routing.Chord

/-!
# Lookups in a converged ring

In a converged ring every pointer is right. Away from node ids every lookup ends at the one node that holds itself
responsible for the key: as long as the lookup is not at the last node before the key, the farthest finger halves the
way to this node, and 64 hops are just enough. A node that is asked for its own id answers its successor.
-/

namespace IPv8Plus.Routing
open Lib Lib.Clockwise

namespace InProcessRpc

def ids (r : InProcessRpc) : Set NodeId := {n | (r.getNode n).isSome}

instance {r : InProcessRpc} {n : NodeId} : Decidable (n ∈ r.ids) := inferInstanceAs (Decidable ((r.getNode n).isSome = true))

/-- `x` describes a node. -/
def Knows (r : InProcessRpc) (x : NodeInfo) : Prop := ∃ node, r.getNode x.id = some node ∧ node.info = x

/-- `x` describes the first node at or after `k`. -/
def Points (r : InProcessRpc) (k : NodeId) (x : NodeInfo) : Prop := r.Knows x ∧ IsFirst r.ids k x.id

/-- Every node has its successor, its predecessor and all fingers right. -/
structure Converged (r : InProcessRpc) : Prop where
  nonempty : r.ids.Nonempty
  id : ∀ {n node}, r.getNode n = some node → node.id = n
  successor : ∀ {n node}, r.getNode n = some node → ∃ s, node.successor = some s ∧ r.Points (n + 1) s
  predecessor : ∀ {n node}, r.getNode n = some node →
    ∃ p, node.predecessor = some p ∧ r.Knows p ∧ IsFirst r.ids (p.id + 1) n
  fingers : ∀ {n node}, r.getNode n = some node → ∀ i < fingerCount,
    ∃ f, node.fingers[i]? = some (some f) ∧ r.Points (n + UInt64.ofNat (2 ^ i)) f

/-- Every node has its successor and its predecessor right. -/
structure Ringed (r : InProcessRpc) : Prop where
  nonempty : r.ids.Nonempty
  id : ∀ {n node}, r.getNode n = some node → node.id = n
  successor : ∀ {n node}, r.getNode n = some node → ∃ s, node.successor = some s ∧ r.Points (n + 1) s
  predecessor : ∀ {n node}, r.getNode n = some node →
    ∃ p, node.predecessor = some p ∧ r.Knows p ∧ IsFirst r.ids (p.id + 1) n

variable {r : InProcessRpc} {k n m p : NodeId} {node : ChordNode} {s x : NodeInfo}

lemma mem_ids (h : r.getNode n = some node) : n ∈ r.ids := Option.isSome_of_mem h

lemma exists_node (h : n ∈ r.ids) : ∃ node, r.getNode n = some node := Option.isSome_iff_exists.mp h

lemma Knows.mem (h : r.Knows x) : x.id ∈ r.ids := by
  obtain ⟨node, hnode, -⟩ := h
  exact mem_ids hnode

lemma Knows.ext {y : NodeInfo} (hx : r.Knows x) (hy : r.Knows y) (h : x.id = y.id) : x = y := by
  obtain ⟨node, hnode, rfl⟩ := hx
  obtain ⟨node', hnode', rfl⟩ := hy
  rw [h, hnode'] at hnode
  cases hnode
  rfl

lemma Points.unique {y : NodeInfo} (hx : r.Points k x) (hy : r.Points k y) : x = y := hx.1.ext hy.1 (hx.2.unique hy.2)

namespace Ringed

variable (hc : r.Ringed)
include hc

lemma exists_points (k : NodeId) : ∃ x, r.Points k x := by
  obtain ⟨n, hn⟩ := exists_isFirst hc.nonempty k
  obtain ⟨node, hnode⟩ := exists_node hn.1
  have hid : node.info.id = n := hc.id hnode
  refine ⟨node.info, ⟨node, ?_, rfl⟩, ?_⟩
  · rw [hid]
    exact hnode
  · rw [hid]
    exact hn

/-- A node holds itself responsible for the keys it is the first node at or after. -/
lemma responsible_iff (hnode : r.getNode n = some node) : node.iAmResponsibleFor k = true ↔ IsFirst r.ids k n := by
  obtain ⟨p, hp, hknows, hfirst⟩ := hc.predecessor hnode
  rw [ChordNode.iAmResponsibleFor, hp, hc.id hnode, Bool.or_eq_true, inOpenInterval_iff, beq_iff_eq, or_assoc]
  exact (isFirst_iff_of_next hknows.mem (by decide) hfirst).symm

lemma responsible_points (hx : r.Points k x) (hnode : r.getNode n = some node) :
    node.iAmResponsibleFor k = true ↔ n = x.id := by
  rw [hc.responsible_iff hnode]
  refine ⟨fun h => h.unique hx.2, ?_⟩
  rintro rfl
  exact hx.2

end Ringed

namespace Converged

variable (hc : r.Converged)
include hc

lemma ringed : r.Ringed := ⟨hc.nonempty, hc.id, hc.successor, hc.predecessor⟩

lemma exists_points (k : NodeId) : ∃ x, r.Points k x := hc.ringed.exists_points k

/-- A node holds itself responsible for the keys it is the first node at or after. -/
lemma responsible_iff (hnode : r.getNode n = some node) : node.iAmResponsibleFor k = true ↔ IsFirst r.ids k n :=
  hc.ringed.responsible_iff hnode

section Away

variable (hp : IsLast r.ids k p) (hk : k ∉ r.ids)
include hp hk

/-- The last node before the key answers. -/
lemma at_last (hnode : r.getNode p = some node) :
    ∃ s, node.successor = some s ∧ inClosedInterval k node.id s.id = true ∧ r.Points k s := by
  obtain ⟨s, hs, hknows, hfirst⟩ := hc.successor hnode
  obtain ⟨hpoints, hwhere⟩ := hp.next hk (by decide) hfirst
  refine ⟨s, hs, ?_, hknows, hpoints⟩
  rw [hc.id hnode, inClosedInterval_iff]
  rcases hwhere with he | hb
  · exact .inr (.inl he.symm)
  · exact .inr (.inr hb)

/-- Every other node knows one that is at least half the way closer. -/
lemma at_other (hnode : r.getNode n = some node) (hne : n ≠ p) :
    ∃ s f, node.successor = some s ∧ inClosedInterval k node.id s.id = false ∧ s.id ≠ n ∧
      node.closestPrecedingFinger k = some f ∧ f.id ∈ r.ids ∧ f.id ≠ n ∧
      ∀ left, arc n p + 2 ≤ 2 ^ (left + 1) → arc f.id p + 2 ≤ 2 ^ left := by
  have hn : n ∈ r.ids := mem_ids hnode
  have hid := hc.id hnode
  obtain ⟨s, hs, hknows, hfirst⟩ := hc.successor hnode
  obtain ⟨hns, hnot⟩ := hp.not_next hk (by decide) hn hne hfirst
  choose finger hfinger hpoints using hc.fingers hnode
  obtain ⟨j, hj, hb, hover, hlow, hhigh, hleft⟩ := @IsLast.hop _ _ _ _ _ _ hp hk
    (fun i => if h : i < fingerCount then (finger i h).id else n) hn hne fingerCount rfl fun i hi => by
      rw [dif_pos hi]
      exact (hpoints i hi).2
  rw [dif_pos hj] at hb hleft
  refine ⟨s, finger j hj, hs, ?_, hns.symm, ?_, (hpoints j hj).1.mem, ?_, fun left h => left_lt h hlow hhigh hleft⟩
  · rw [hid, ← Bool.not_eq_true, inClosedInterval_iff]
    rintro (rfl | he | hin)
    · exact hk hn
    · exact hns he
    · exact hnot hin
  · apply ChordNode.closestPrecedingFinger_eq (hfinger j hj)
    · rw [hid, inOpenInterval_iff]
      exact .inr hb
    · intro i g hji hg
      have hi : i < fingerCount := by
        rcases Nat.lt_or_ge i fingerCount with h | h
        · exact h
        · rw [Vector.getElem?_eq_none h] at hg
          cases hg
      have hbeyond := hover i hi hji
      rw [hfinger i hi] at hg
      cases hg
      rw [dif_pos hi] at hbeyond
      rw [hid, ← Bool.not_eq_true, inOpenInterval_iff]
      rintro (rfl | hin)
      · exact hk hn
      · exact hbeyond hin
  · rintro he
    have h0 := hb.1
    rw [he, arc_self] at h0
    cases h0

omit hc in
/-- From any node less than the whole circle lies before the key. -/
lemma way_lt (hn : n ∈ r.ids) : arc n p + 2 ≤ 2 ^ fingerCount := by
  have hlt := hp.arc_lt hk hn
  have hsize : arc n k < 2 ^ fingerCount := arc_lt n k
  omega

lemma hops_away (left : Nat) (hn : n ∈ r.ids) (hway : arc n p + 2 ≤ 2 ^ left) (hx : r.Points k x) :
    r.hops k left n = some x := by
  induction left generalizing n with
  | zero => omega
  | succ left ih =>
    obtain ⟨node, hnode⟩ := exists_node hn
    by_cases hnp : n = p
    · obtain ⟨s, hs, hin, hpoints⟩ := hc.at_last hp hk (hnp ▸ hnode)
      rw [hops_answer hnode hs hin, hpoints.unique hx]
    · obtain ⟨s, f, hs, hin, hsn, hclosest, hf, hfn, hhalf⟩ := hc.at_other hp hk hnode hnp
      rw [hops_next hnode hs hin hclosest hsn hfn]
      exact ih hf (hhalf left hway)

/-- A node finds the owner when those that are closer to the key do. -/
lemma find_away {ask : NodeId → NodeId → Option NodeInfo} (hnode : r.getNode n = some node) (hx : r.Points k x)
    (hask : ∀ f ∈ r.ids, (∀ left, arc n p + 2 ≤ 2 ^ (left + 1) → arc f p + 2 ≤ 2 ^ left) → ask f k = some x) :
    node.findSuccessor ask k = some x := by
  by_cases hnp : n = p
  · obtain ⟨s, hs, hin, hpoints⟩ := hc.at_last hp hk (hnp ▸ hnode)
    rw [ChordNode.findSuccessor_answer hs hin, hpoints.unique hx]
  · obtain ⟨s, f, hs, hin, -, hclosest, hf, hfn, hhalf⟩ := hc.at_other hp hk hnode hnp
    rw [ChordNode.findSuccessor_next hs hin hclosest ((hc.id hnode).symm ▸ hfn)]
    exact hask f.id hf hhalf

lemma recursive_away (depth : Nat) (hn : n ∈ r.ids) (hway : arc n p + 2 ≤ 2 ^ depth) (hx : r.Points k x) :
    r.recursiveFindSuccessor depth n k = some x := by
  induction depth generalizing n with
  | zero => omega
  | succ depth ih =>
    obtain ⟨node, hnode⟩ := exists_node hn
    rw [recursiveFindSuccessor, hnode]
    exact hc.find_away hp hk hnode hx fun f hf hhalf => ih hf (hhalf depth hway)

end Away

/-- A single node answers itself. -/
lemma at_only (h : r.ids.Subsingleton) (hnode : r.getNode n = some node) :
    ∃ s, node.successor = some s ∧ inClosedInterval k node.id s.id = true ∧ r.Points k s := by
  obtain ⟨s, hs, hknows, hfirst⟩ := hc.successor hnode
  have hsn : s.id = n := h hfirst.1 (mem_ids hnode)
  refine ⟨s, hs, ?_, hknows, hfirst.1, fun m hm => ?_⟩
  · rw [hc.id hnode, hsn, inClosedInterval_iff]
    exact .inr (.inl rfl)
  · rw [h hfirst.1 hm]

end Converged

/-- Every lookup of `k` ends at the one node that holds itself responsible for it, and every node reads what any node
has stored under `k`. -/
structure AgreesOn (r : InProcessRpc) (k : NodeId) (owner : NodeInfo) : Prop where
  knows : r.Knows owner
  responsible : ∀ {n node}, r.getNode n = some node → (node.iAmResponsibleFor k = true ↔ n = owner.id)
  iterative : ∀ start ∈ r.ids, r.iterativeFindSuccessor start k = some owner
  recursive : ∀ depth ≥ fingerCount, ∀ start ∈ r.ids, r.recursiveFindSuccessor depth start k = some owner
  find : ∀ {n node}, r.getNode n = some node → node.findSuccessor r.iterativeFindSuccessor k = some owner
  stored : ∀ a ∈ r.ids, ∀ b ∈ r.ids, ∀ v, (r.dhtPut a k v).1.dhtGet b k = some v

lemma dhtPut_eq {v : Bytes} (h : r.iterativeFindSuccessor n k = some x) (hnode : r.getNode x.id = some node) :
    r.dhtPut n k v = (r.put x.id { node with store := node.store.insert k v }, some x.id) := by
  rw [dhtPut, h]
  dsimp only
  rw [hnode]

lemma dhtGet_eq (h : r.iterativeFindSuccessor n k = some x) (hnode : r.getNode x.id = some node) :
    r.dhtGet n k = node.store[k]? := by
  rw [dhtGet, h]
  dsimp only
  rw [hnode]
  rfl

/-- Lookups that agree make the stores agree. -/
lemma get_put (hx : r.Knows x) (h : ∀ start ∈ r.ids, r.iterativeFindSuccessor start k = some x) {a b : NodeId}
    (ha : a ∈ r.ids) (hb : b ∈ r.ids) (v : Bytes) : (r.dhtPut a k v).1.dhtGet b k = some v := by
  obtain ⟨node, hnode, -⟩ := hx
  have hfind : (r.put x.id { node with store := node.store.insert k v }).iterativeFindSuccessor b k = some x :=
    (hops_store hnode fingerCount).trans (h b hb)
  rw [dhtPut_eq (h a ha) hnode, dhtGet_eq hfind getNode_put_self]
  exact Std.ExtTreeMap.getElem?_insert_self

namespace Converged

variable (hc : r.Converged)
include hc

lemma agrees_away (hk : k ∉ r.ids) (hx : r.Points k x) : r.AgreesOn k x := by
  obtain ⟨p, hp⟩ := exists_isLast hc.nonempty k
  have hiter : ∀ start ∈ r.ids, r.iterativeFindSuccessor start k = some x := fun start hstart =>
    hc.hops_away hp hk fingerCount hstart (way_lt hp hk hstart) hx
  refine ⟨hx.1, hc.ringed.responsible_points hx, hiter, fun depth hdepth start hstart => ?_, fun hnode => ?_, fun a ha b hb =>
    get_put hx.1 hiter ha hb⟩
  · have hway := (way_lt hp hk hstart).trans (Nat.pow_le_pow_right (by decide) hdepth)
    exact hc.recursive_away hp hk depth hstart hway hx
  · exact hc.find_away hp hk hnode hx fun f hf _ => hiter f hf

lemma agrees_only (honly : r.ids.Subsingleton) (hx : r.Points k x) : r.AgreesOn k x := by
  have hanswer : ∀ {n node}, r.getNode n = some node →
      node.successor = some x ∧ inClosedInterval k node.id x.id = true := by
    intro n node hnode
    obtain ⟨s, hs, hin, hpoints⟩ := hc.at_only honly hnode
    rw [hpoints.unique hx] at hs hin
    exact ⟨hs, hin⟩
  have hiter : ∀ start ∈ r.ids, r.iterativeFindSuccessor start k = some x := by
    intro start hstart
    obtain ⟨node, hnode⟩ := exists_node hstart
    obtain ⟨hs, hin⟩ := hanswer hnode
    exact hops_answer hnode hs hin
  refine ⟨hx.1, hc.ringed.responsible_points hx, hiter, fun depth hdepth start hstart => ?_, fun hnode => ?_, fun a ha b hb =>
    get_put hx.1 hiter ha hb⟩
  · obtain ⟨node, hnode⟩ := exists_node hstart
    obtain ⟨hs, hin⟩ := hanswer hnode
    cases depth with
    | zero => cases hdepth
    | succ depth =>
      rw [recursiveFindSuccessor, hnode]
      exact ChordNode.findSuccessor_answer hs hin
  · obtain ⟨hs, hin⟩ := hanswer hnode
    exact ChordNode.findSuccessor_answer hs hin

/-- Lookups of a key that is not a node's id agree, and those of a ring of one node. -/
lemma agrees {k : NodeId} (h : k ∉ r.ids ∨ r.ids.Subsingleton) : ∃ owner, r.AgreesOn k owner := by
  obtain ⟨x, hx⟩ := hc.exists_points k
  rcases h with hk | honly
  · exact ⟨x, hc.agrees_away hk hx⟩
  · exact ⟨x, hc.agrees_only honly hx⟩

end Converged

/-- Lookups of a key agree exactly when it is not a node's id, or there is only one node. -/
theorem lookups_agree (hc : r.Converged) (k : NodeId) :
    (∃ owner, r.AgreesOn k owner) ↔ k ∉ r.ids ∨ r.ids.Subsingleton := by
  constructor
  · rintro ⟨owner, hagree⟩
    refine or_iff_not_imp_left.mpr fun hk => ?_
    rw [not_not] at hk
    -- the node with this id answers its successor
    obtain ⟨node, hnode⟩ := exists_node hk
    obtain ⟨s, hs, -, hfirst⟩ := hc.successor hnode
    have hin : inClosedInterval k node.id s.id = true := by
      rw [hc.id hnode, inClosedInterval_iff]
      exact .inl rfl
    have hanswer := hagree.iterative k hk
    rw [iterativeFindSuccessor, fingerCount, hops_answer hnode hs hin, Option.some_inj] at hanswer
    have hself : k = owner.id := (hagree.responsible hnode).mp ((hc.responsible_iff hnode).mpr (.self hk))
    rw [hanswer, ← hself] at hfirst
    rcases hfirst.cases_shift hk (d := 1) (by decide) with ⟨-, hall⟩ | ⟨hfar, -⟩
    · have honly : ∀ m ∈ r.ids, k = m := fun m hm => eq_of_arc k m (by have := hall m hm; omega)
      exact fun a ha b hb => (honly a ha).symm.trans (honly b hb)
    · rw [arc_self] at hfar
      cases hfar
  · exact hc.agrees

lemma length_zeroAddr : (List.replicate 16 (0 : UInt8)).length = 16 := rfl

def farId : NodeId := 0x8000000000000000

/-- A node in a ring of two. -/
def pairNode (id other : NodeId) : ChordNode where
  id := id
  addr := ⟨List.replicate 16 0, length_zeroAddr⟩
  successor := some ⟨other, ⟨List.replicate 16 0, length_zeroAddr⟩⟩
  predecessor := some ⟨other, ⟨List.replicate 16 0, length_zeroAddr⟩⟩
  fingers := Vector.replicate fingerCount (some ⟨other, ⟨List.replicate 16 0, length_zeroAddr⟩⟩)
  store := ∅
  nextFix := ⟨0, fingerCount_pos⟩

/-- Two nodes at opposite points. -/
def pairRing : InProcessRpc := (register ⟨∅⟩ (pairNode 0 farId)).register (pairNode farId 0)

lemma getNode_pairRing {n : NodeId} {node : ChordNode} (h : pairRing.getNode n = some node) :
    (n = 0 ∧ node = pairNode 0 farId) ∨ (n = farId ∧ node = pairNode farId 0) := by
  rw [pairRing, register, register, getNode_put, getNode_put] at h
  split at h
  · next he => exact .inr ⟨he.symm, (Option.some_inj.mp h).symm⟩
  · split at h
    · next he => exact .inl ⟨he.symm, (Option.some_inj.mp h).symm⟩
    · cases h

/-- The nearer node is the first one. -/
lemma points_pairRing {k n other : NodeId} (h : (n = 0 ∧ other = farId) ∨ (n = farId ∧ other = 0))
    (hle : (n - k).toNat ≤ (other - k).toNat) : pairRing.Points k (pairNode n other).info := by
  have hnode : pairRing.getNode n = some (pairNode n other) := by
    rcases h with ⟨rfl, rfl⟩ | ⟨rfl, rfl⟩
    · rfl
    · rfl
  refine ⟨⟨pairNode n other, hnode, rfl⟩, mem_ids hnode, fun m hm => ?_⟩
  obtain ⟨node, hm⟩ := exists_node hm
  have hcases : m = n ∨ m = other := by
    rcases getNode_pairRing hm with ⟨rfl, -⟩ | ⟨rfl, -⟩
    · exact h.imp (fun e => e.1.symm) (fun e => e.2.symm)
    · exact h.symm.imp (fun e => e.1.symm) (fun e => e.2.symm)
  rcases hcases with rfl | rfl
  · exact le_rfl
  · exact hle

theorem converged_pairRing : pairRing.Converged where
  nonempty := ⟨0, mem_ids (show pairRing.getNode 0 = some (pairNode 0 farId) from rfl)⟩
  id {n node} h := by
    rcases getNode_pairRing h with ⟨rfl, rfl⟩ | ⟨rfl, rfl⟩
    · rfl
    · rfl
  successor {n node} h := by
    rcases getNode_pairRing h with ⟨rfl, rfl⟩ | ⟨rfl, rfl⟩
    · exact ⟨_, rfl, points_pairRing (.inr ⟨rfl, rfl⟩) (by decide)⟩
    · exact ⟨_, rfl, points_pairRing (.inl ⟨rfl, rfl⟩) (by decide)⟩
  predecessor {n node} h := by
    rcases getNode_pairRing h with ⟨rfl, rfl⟩ | ⟨rfl, rfl⟩
    · have hfar := @points_pairRing (farId + 1) 0 farId (.inl ⟨rfl, rfl⟩) (by decide)
      exact ⟨_, rfl, ⟨pairNode farId 0, rfl, rfl⟩, hfar.2⟩
    · have hnear := @points_pairRing (0 + 1) farId 0 (.inr ⟨rfl, rfl⟩) (by decide)
      exact ⟨_, rfl, ⟨pairNode 0 farId, rfl, rfl⟩, hnear.2⟩
  fingers {n node} h i hi := by
    have hget : ∀ other : NodeInfo, (Vector.replicate fingerCount (some other))[i]? = some (some other) := fun other =>
      Vector.getElem?_replicate.trans (if_pos hi)
    have hfar : ∀ i < fingerCount, (farId - (0 + UInt64.ofNat (2 ^ i))).toNat ≤ (0 - (0 + UInt64.ofNat (2 ^ i))).toNat := by
      decide
    have hnear : ∀ i < fingerCount,
        (0 - (farId + UInt64.ofNat (2 ^ i))).toNat ≤ (farId - (farId + UInt64.ofNat (2 ^ i))).toNat := by
      decide
    rcases getNode_pairRing h with ⟨rfl, rfl⟩ | ⟨rfl, rfl⟩
    · exact ⟨_, hget _, points_pairRing (.inr ⟨rfl, rfl⟩) (hfar i hi)⟩
    · exact ⟨_, hget _, points_pairRing (.inl ⟨rfl, rfl⟩) (hnear i hi)⟩

theorem lookups_agree_sample : ∃ owner, pairRing.AgreesOn 5 owner := (lookups_agree converged_pairRing 5).mpr (.inl (by decide))

/-- The node at `farId` answers its own id with the other node. -/
theorem lookups_disagree : pairRing.Converged ∧
    (pairNode farId 0).iAmResponsibleFor farId = true ∧ pairRing.getNode farId = some (pairNode farId 0) ∧
    pairRing.iterativeFindSuccessor 0 farId = some (pairNode farId 0).info ∧
    pairRing.iterativeFindSuccessor farId farId = some (pairNode 0 farId).info ∧
    (pairRing.dhtPut 0 farId [1]).1.dhtGet farId farId = none ∧ ¬ ∃ owner, pairRing.AgreesOn farId owner := by
  have hnode : pairRing.getNode farId = some (pairNode farId 0) := rfl
  have hown : pairRing.iterativeFindSuccessor farId farId = some (pairNode 0 farId).info := by decide +kernel
  refine ⟨converged_pairRing, by decide, hnode, by decide +kernel, hown, by decide +kernel, ?_⟩
  rintro ⟨owner, h⟩
  have hresp := (h.responsible hnode).mp (by decide)
  have hiter := h.iterative farId (mem_ids hnode)
  rw [hown, Option.some_inj] at hiter
  rw [← hiter] at hresp
  exact absurd hresp (by decide)

end InProcessRpc

end IPv8Plus.Routing
