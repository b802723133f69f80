import IPv8Plus.Routing.ChordGrowth

/-!
# The upkeep of a growing ring

A ring starts as one node. Others come with a lookup of their own id, and all nodes run `stabilize` and `fix_fingers`
and store and read values, in any order. At no time does a pointer lead past the first node, so every lookup comes
closer to its key with every hop, and the walk that a node starts under its own lock never comes back to it.
-/

namespace IPv8Plus.Routing
open Lib Lib.Clockwise

namespace ChordNode

variable {self : ChordNode} {k : NodeId} {s x f : NodeInfo} {i : Nat} {getPredecessor : NodeId → Option NodeInfo}

lemma mem_of_scan (h : self.scan k i = some f) : ∃ j : Nat, self.fingers[j]? = some (some f) := by
  induction i with
  | zero => cases h
  | succ i ih =>
    rw [scan] at h
    split at h
    · next g hg =>
      split at h
      · cases h
        exact ⟨i, hg⟩
      · exact ih h
    · exact ih h

/-- The predecessor of the node's successor. -/
def predOfSucc (self : ChordNode) (getPredecessor : NodeId → Option NodeInfo) (s : NodeInfo) : Option NodeInfo :=
  if s.id = self.id then self.predecessor else getPredecessor s.id

/-- A stabilising node moves its successor pointer to its successor's predecessor if this is nearer, and leaves it
otherwise. -/
lemma stabilize_cases (getPredecessor : NodeId → Option NodeInfo) (hs : self.successor = some s) :
    (∃ x, self.predOfSucc getPredecessor s = some x ∧ x.id ≠ s.id ∧ inOpenInterval x.id self.id s.id = true ∧
      (self.stabilize getPredecessor).1 = self.setSuccessor x) ∨
    ((∀ x, self.predOfSucc getPredecessor s = some x → x.id ≠ s.id → inOpenInterval x.id self.id s.id = false) ∧
      (self.stabilize getPredecessor).1 = self) := by
  rw [stabilize, hs]
  dsimp only
  rw [← predOfSucc]
  cases hx : self.predOfSucc getPredecessor s with
  | none =>
    refine .inr ⟨?_, rfl⟩
    rintro _ ⟨⟩
  | some x =>
    dsimp only
    split
    · next h => exact .inl ⟨x, rfl, h.1, h.2, rfl⟩
    · next h =>
      refine .inr ⟨?_, rfl⟩
      rintro _ ⟨⟩ hne
      exact Bool.eq_false_of_not_eq_true fun hin => h ⟨hne, hin⟩

/-- Whom the node asks when it does not answer a lookup itself. -/
def asked (self : ChordNode) (k : NodeId) : Option NodeId :=
  match self.successor with
  | none => none
  | some succ =>
    if inClosedInterval k self.id succ.id then none
    else
      match self.closestPrecedingFinger k with
      | none => none
      | some next => if next.id = self.id then none else some next.id

lemma stabilize_told (hs : self.successor = some s) :
    (self.stabilize getPredecessor).2 = if s.id = self.id then none else some s.id := by
  rw [stabilize, hs]

lemma notified_predecessor (c : NodeInfo) :
    (self.notified c).predecessor = if self.needUpdate c then some c else self.predecessor := by
  rw [notified]
  split
  · rfl
  · rfl

lemma mem_set_fingers {v : Vector (Option NodeInfo) fingerCount} {j : Nat} (hj : j < fingerCount)
    (h : (v.set j (some x) hj)[i]? = some (some f)) : v[i]? = some (some f) ∨ f = x := by
  rw [Vector.getElem?_set] at h
  split at h
  · cases h
    exact .inr rfl
  · exact .inl h

lemma mem_fingers_new {n : NodeId} {addr : WireAddr} (h : (new n addr).fingers[i]? = some (some f)) : f = ⟨n, addr⟩ := by
  rcases mem_set_fingers (v := .replicate fingerCount none) fingerCount_pos h with hnone | he
  · rw [Vector.getElem?_replicate] at hnone
    split at hnone
    · cases hnone
    · cases hnone
  · exact he

end ChordNode

namespace InProcessRpc

/-- The calls of a ring in which no node comes and nobody else notifies. -/
def Upkeep : Op → Prop
  | .register _ _ | .join _ _ | .notified _ _ => False
  | _ => True

/-- A node is registered and joins through another. -/
def enter (r : InProcessRpc) (id : NodeId) (addr : WireAddr) (bootstrap : NodeId) : InProcessRpc :=
  (r.register (.new id addr)).join id bootstrap

/-- The rings that the node `z` founded: every other node has joined through one that was there. -/
inductive Grown (z : NodeId) : InProcessRpc → Prop
  | found (addr : WireAddr) : Grown z (register ⟨∅⟩ (.new z addr))
  | enter {r : InProcessRpc} {id : NodeId} {addr : WireAddr} {bootstrap : NodeId} : Grown z r → id ∉ r.ids → bootstrap ∈ r.ids →
      ((r.register (.new id addr)).iterativeFindSuccessor bootstrap id).isSome → Grown z (r.enter id addr bootstrap)
  | upkeep {r : InProcessRpc} {o : Op} : Grown z r → Upkeep o → Grown z (step r o).1

/-- The nodes that a lookup with so many hops left locks, one after the other. -/
def visits (r : InProcessRpc) (k : NodeId) : Nat → NodeId → List NodeId
  | 0, _ => []
  | left + 1, current =>
    match r.getNode current with
    | none => []
    | some n =>
      current :: match n.successor with
        | none => []
        | some succ =>
          if inClosedInterval k n.id succ.id then []
          else
            match n.closestPrecedingFinger k with
            | none => []
            | some next => if succ.id = current ∨ current = next.id then [] else r.visits k left next.id

/-- All pointers are to nodes. -/
structure Linked (r : InProcessRpc) : Prop where
  id : ∀ {n node}, r.getNode n = some node → node.id = n
  successor : ∀ {n node}, r.getNode n = some node → ∃ s, node.successor = some s ∧ r.Knows s
  predecessor : ∀ {n node p}, r.getNode n = some node → node.predecessor = some p → r.Knows p
  fingers : ∀ {n node}, r.getNode n = some node → ∀ (i : Nat) f, node.fingers[i]? = some (some f) → r.Knows f

/-- Where the successor pointer of a node leads. -/
def next (r : InProcessRpc) (n : NodeId) : NodeId := ((r.getNode n).bind ChordNode.successor).elim n NodeInfo.id

/-- What upkeep does to the pointers of a node: they only come nearer. -/
structure Tighter (r : InProcessRpc) (node node' : ChordNode) : Prop where
  info : node'.info = node.info
  successor : node'.successor = node.successor ∨ ∃ s x, node.successor = some s ∧ node'.successor = some x ∧ r.Knows x ∧
    x.id ≠ s.id ∧ inOpenInterval x.id node.id s.id = true
  predecessor : node'.predecessor = node.predecessor ∨ ∃ c, node'.predecessor = some c ∧ r.Knows c ∧ c.id ≠ node.id ∧
    node.needUpdate c = true
  fingers : ∀ (i : Nat) f, node'.fingers[i]? = some (some f) → node.fingers[i]? = some (some f) ∨ r.Knows f

/-- The same nodes, with pointers that only come nearer. -/
structure Tightens (r r' : InProcessRpc) : Prop where
  nodes : ∀ {n node}, r.getNode n = some node → ∃ node', r'.getNode n = some node' ∧ r.Tighter node node'
  ids : r'.ids = r.ids

variable {r r' : InProcessRpc} {n m k p z key : NodeId} {node node' : ChordNode} {s f x : NodeInfo} {o : Op} {left : Nat}

lemma next_eq (hnode : r.getNode n = some node) (hs : node.successor = some s) : r.next n = s.id := by
  rw [next, hnode, Option.bind_some, hs]
  rfl

namespace Linked

variable (h : r.Linked)
include h

lemma exists_next (hn : n ∈ r.ids) : ∃ node s, r.getNode n = some node ∧ node.successor = some s ∧ r.Knows s ∧ r.next n = s.id := by
  obtain ⟨node, hnode⟩ := exists_node hn
  obtain ⟨s, hs, hknows⟩ := h.successor hnode
  exact ⟨node, s, hnode, hs, hknows, next_eq hnode hs⟩

lemma next_mem (hn : n ∈ r.ids) : r.next n ∈ r.ids := by
  obtain ⟨node, s, -, -, hknows, he⟩ := h.exists_next hn
  rw [he]
  exact hknows.mem

lemma knows_info (hnode : r.getNode n = some node) : r.Knows node.info := by
  have hid : node.info.id = n := h.id hnode
  exact ⟨node, hid ▸ hnode, rfl⟩

/-- A node answers a lookup, or knows a node that is nearer to the key. -/
lemma hop (hnode : r.getNode n = some node) (hs : node.successor = some s) (k : NodeId) :
    inClosedInterval k node.id s.id = true ∨
    (inClosedInterval k node.id s.id = false ∧ s.id ≠ n ∧
      ∃ f, node.closestPrecedingFinger k = some f ∧ f.id ≠ n ∧ r.Knows f ∧ arc f.id k < arc n k) := by
  cases hin : inClosedInterval k node.id s.id with
  | true => exact .inl rfl
  | false =>
    have hid := h.id hnode
    have hout : ¬ (k = n ∨ n = s.id ∨ Between n k s.id) := by
      rw [← hid, ← inClosedInterval_iff, hin]
      exact Bool.false_ne_true
    push Not at hout
    obtain ⟨hk, hsn, hbeyond⟩ := hout
    obtain ⟨s', hs', hknows⟩ := h.successor hnode
    cases hs.symm.trans hs'
    refine .inr ⟨rfl, hsn.symm, ?_⟩
    rw [ChordNode.closestPrecedingFinger]
    cases hscan : node.scan k fingerCount with
    | some f =>
      have hopen := ChordNode.scan_sound hscan
      rw [inOpenInterval_iff, hid] at hopen
      obtain ⟨i, hi⟩ := ChordNode.mem_of_scan hscan
      rcases hopen with he | ⟨hpos, hle⟩
      · exact absurd he.symm hk
      · have hsplit := arc_split hle
        refine ⟨f, rfl, ?_, h.fingers hnode i f hi, by omega⟩
        rintro he
        rw [he, arc_self] at hpos
        cases hpos
    | none =>
      -- the successor is before the key
      have hpos := arc_pos hk.symm
      have hle : arc n s.id ≤ arc n k := Nat.le_of_not_le fun hle => hbeyond ⟨hpos, hle⟩
      have hsplit := arc_split hle
      have hstep := arc_pos hsn
      exact ⟨s, hs, hsn.symm, hknows, by omega⟩

/-- Lookups answer with nodes. -/
lemma knows_answer (hx : r.iterativeFindSuccessor n k = some x) : r.Knows x := by
  obtain ⟨m, node, hnode, hs, -⟩ := hops_sound h.id hx
  obtain ⟨s, hs', hknows⟩ := h.successor hnode
  cases hs.symm.trans hs'
  exact hknows

lemma knows_found (hnode : r.getNode n = some node) (hx : node.findSuccessor r.iterativeFindSuccessor k = some x) :
    r.Knows x := by
  rcases ChordNode.findSuccessor_sound hx with ⟨hs, -⟩ | ⟨m, hm⟩
  · obtain ⟨s, hs', hknows⟩ := h.successor hnode
    cases hs.symm.trans hs'
    exact hknows
  · exact h.knows_answer hm

lemma knows_predOfSucc (hnode : r.getNode n = some node) (hx : node.predOfSucc r.getPredecessor s = some x) : r.Knows x := by
  rw [ChordNode.predOfSucc] at hx
  split at hx
  · exact h.predecessor hnode hx
  · obtain ⟨node', hnode', hp⟩ := Option.bind_eq_some_iff.mp hx
    exact h.predecessor hnode' hp

end Linked

/-- A node runs `stabilize` and tells its old successor. -/
lemma getNode_stabilize (hnode : r.getNode n = some node) (hid : node.id = n) (hs : node.successor = some s) :
    (r.stabilize n).getNode m = if n = m then some (node.stabilize r.getPredecessor).1
      else if s.id = m then (r.getNode m).map (·.notified node.info) else r.getNode m := by
  rw [stabilize, hnode]
  dsimp only
  rw [ChordNode.stabilize_told hs, hid]
  by_cases hsn : s.id = n
  · rw [if_pos hsn]
    dsimp only
    rw [getNode_write, hnode]
    split
    · rfl
    · next hne => rw [if_neg fun he => hne (hsn.symm.trans he)]
  · rw [if_neg hsn]
    dsimp only
    rw [notify, getNode_write, getNode_write, getNode_write, if_neg (Ne.symm hsn), hnode]
    by_cases hnm : n = m
    · rw [if_pos hnm, if_pos hnm, if_neg fun he => hsn (he.trans hnm.symm)]
      rfl
    · rw [if_neg hnm, if_neg hnm]
      by_cases hsm : s.id = m
      · rw [if_pos hsm, if_pos hsm, hsm]
      · rw [if_neg hsm, if_neg hsm]

namespace Tighter

lemma refl : r.Tighter node node := ⟨rfl, .inl rfl, .inl rfl, fun _ _ => .inl⟩

lemma store (store : Std.ExtTreeMap NodeId Bytes) : r.Tighter node { node with store := store } :=
  ⟨rfl, .inl rfl, .inl rfl, fun _ _ => .inl⟩

lemma stabilize (h : r.Linked) (hnode : r.getNode n = some node) : r.Tighter node (node.stabilize r.getPredecessor).1 := by
  obtain ⟨s, hs, -⟩ := h.successor hnode
  rcases ChordNode.stabilize_cases r.getPredecessor hs with ⟨x, hx, hne, hin, he⟩ | ⟨-, he⟩
  · have hknows := h.knows_predOfSucc hnode hx
    rw [he]
    refine ⟨rfl, .inr ⟨s, x, hs, rfl, hknows, hne, hin⟩, .inl rfl, fun i f hf => ?_⟩
    rcases ChordNode.mem_set_fingers fingerCount_pos hf with hf | rfl
    · exact .inl hf
    · exact .inr hknows
  · rw [he]
    exact .refl

lemma notified {c : NodeInfo} (hc : r.Knows c) (hne : c.id ≠ node.id) : r.Tighter node (node.notified c) := by
  rw [ChordNode.notified]
  split
  · next hup => exact ⟨rfl, .inl rfl, .inr ⟨c, rfl, hc, hne, hup⟩, fun _ _ => .inl⟩
  · exact .refl

lemma fixFingers (h : r.Linked) (hnode : r.getNode n = some node) :
    r.Tighter node (node.fixFingers r.iterativeFindSuccessor) := by
  refine ⟨rfl, .inl rfl, .inl rfl, fun i f hf => ?_⟩
  rw [ChordNode.fixFingers] at hf
  dsimp only at hf
  split at hf
  · next x hx =>
    rcases ChordNode.mem_set_fingers _ hf with hf | rfl
    · exact .inl hf
    · exact .inr (h.knows_found hnode hx)
  · exact .inl hf

end Tighter

namespace Tightens

lemma refl : r.Tightens r := ⟨fun h => ⟨_, h, .refl⟩, rfl⟩

lemma of_getNode (h : ∀ n, (r.getNode n = none ∧ r'.getNode n = none) ∨
    ∃ node node', r.getNode n = some node ∧ r'.getNode n = some node' ∧ r.Tighter node node') : r.Tightens r' := by
  refine ⟨fun {n node} hnode => ?_, Set.ext fun n => ?_⟩
  · rcases h n with ⟨hn, -⟩ | ⟨node₀, node', hnode₀, hnode', htight⟩
    · rw [hn] at hnode
      cases hnode
    · cases hnode₀.symm.trans hnode
      exact ⟨node', hnode', htight⟩
  · change (r'.getNode n).isSome = true ↔ (r.getNode n).isSome = true
    rcases h n with ⟨hn, hn'⟩ | ⟨node, node', hnode, hnode', -⟩
    · rw [hn, hn']
    · rw [hnode, hnode']
      exact Iff.rfl

lemma put (hnode : r.getNode n = some node) (h : r.Tighter node node') : r.Tightens (r.put n node') := by
  refine of_getNode fun m => ?_
  rw [getNode_put]
  split
  · next he => exact .inr ⟨node, node', he ▸ hnode, rfl, h⟩
  · cases hm : r.getNode m with
    | none => exact .inl ⟨rfl, rfl⟩
    | some node => exact .inr ⟨node, node, rfl, rfl, .refl⟩

lemma stabilize (h : r.Linked) : r.Tightens (r.stabilize n) := by
  cases hn : r.getNode n with
  | none =>
    rw [InProcessRpc.stabilize, hn]
    exact .refl
  | some node =>
    obtain ⟨s, hs, -⟩ := h.successor hn
    refine of_getNode fun m => ?_
    rw [getNode_stabilize hn (h.id hn) hs]
    split
    · next he => exact .inr ⟨node, _, he ▸ hn, rfl, .stabilize h hn⟩
    · next hne =>
      cases hm : r.getNode m with
      | none =>
        refine .inl ⟨rfl, ?_⟩
        split
        · rfl
        · rfl
      | some node' =>
        refine .inr ⟨node', ?_⟩
        split
        · refine ⟨_, rfl, rfl, .notified (h.knows_info hn) ?_⟩
          rw [ChordNode.info, h.id hn, h.id hm]
          exact hne
        · exact ⟨_, rfl, rfl, .refl⟩

lemma fixFingers (h : r.Linked) : r.Tightens (r.fixFingers n) := by
  rw [InProcessRpc.fixFingers, write]
  split
  · next node hn => exact put hn (.fixFingers h hn)
  · exact .refl

lemma dhtPut {value : Bytes} : r.Tightens (r.dhtPut n key value).1 := by
  rw [InProcessRpc.dhtPut]
  split
  · exact .refl
  · split
    · exact .refl
    · next node hn => exact put hn (.store _)

lemma nodePut {value : Bytes} : r.Tightens (r.nodePut n key value).1 := by
  rw [InProcessRpc.nodePut]
  split
  · exact .refl
  · next node hn =>
    dsimp only
    rw [ChordNode.dhtPut]
    split
    · exact put hn .refl
    · split
      · exact put hn (.store _)
      · exact put hn .refl

/-- What any call of the upkeep does. -/
lemma step (h : r.Linked) (ho : Upkeep o) : r.Tightens (InProcessRpc.step r o).1 := by
  cases o with
  | register id addr => cases ho
  | join n bootstrap => cases ho
  | stabilize n => exact stabilize h
  | notified n candidate => cases ho
  | fixFingers n => exact fixFingers h
  | dhtPut a key value => exact dhtPut
  | dhtGet a key => exact .refl
  | nodePut n key value => exact nodePut
  | nodeGet n key => exact .refl

variable (ht : r.Tightens r')
include ht

lemma back (hnode' : r'.getNode n = some node') : ∃ node, r.getNode n = some node ∧ r.Tighter node node' := by
  obtain ⟨node, hnode⟩ := exists_node (ht.ids ▸ mem_ids hnode' : n ∈ r.ids)
  obtain ⟨node₁, hnode₁, htight⟩ := ht.nodes hnode
  cases hnode₁.symm.trans hnode'
  exact ⟨node, hnode, htight⟩

lemma knows (hx : r.Knows x) : r'.Knows x := by
  obtain ⟨node, hnode, hinfo⟩ := hx
  obtain ⟨node', hnode', htight⟩ := ht.nodes hnode
  exact ⟨node', hnode', htight.info.trans hinfo⟩

lemma linked (h : r.Linked) : r'.Linked := by
  refine ⟨fun hnode' => ?_, fun hnode' => ?_, fun hnode' hp => ?_, fun hnode' i f hf => ?_⟩
  · obtain ⟨node, hnode, htight⟩ := ht.back hnode'
    exact (congrArg NodeInfo.id htight.info).trans (h.id hnode)
  · obtain ⟨node, hnode, htight⟩ := ht.back hnode'
    rcases htight.successor with he | ⟨s, x, -, hx, hknows, -⟩
    · obtain ⟨s, hs, hknows⟩ := h.successor hnode
      exact ⟨s, he.trans hs, ht.knows hknows⟩
    · exact ⟨x, hx, ht.knows hknows⟩
  · obtain ⟨node, hnode, htight⟩ := ht.back hnode'
    rcases htight.predecessor with he | ⟨c, hc, hknows, -⟩
    · exact ht.knows (h.predecessor hnode (he.symm.trans hp))
    · cases hc.symm.trans hp
      exact ht.knows hknows
  · obtain ⟨node, hnode, htight⟩ := ht.back hnode'
    rcases htight.fingers i f hf with hf | hknows
    · exact ht.knows (h.fingers hnode i f hf)
    · exact ht.knows hknows

/-- Successor pointers stay or come nearer. -/
lemma next_cases (h : r.Linked) (hn : n ∈ r.ids) :
    r'.next n = r.next n ∨ r.next n = n ∨ Between n (r'.next n) (r.next n) := by
  obtain ⟨node, s, hnode, hs, -, he⟩ := h.exists_next hn
  obtain ⟨node', hnode', htight⟩ := ht.nodes hnode
  rcases htight.successor with hsame | ⟨s', x, hs', hx, -, -, hin⟩
  · exact .inl ((next_eq hnode' (hsame.trans hs)).trans he.symm)
  · cases hs.symm.trans hs'
    rw [he, next_eq hnode' hx]
    rw [inOpenInterval_iff, h.id hnode] at hin
    exact .inr (hin.imp_left Eq.symm)

lemma spares (h : r.Linked) (hz : Spares r.ids r.next z) : Spares r'.ids r'.next z := by
  rw [ht.ids]
  exact hz.mono fun n hn => ht.next_cases h hn

end Tightens

/-- A node that nobody points to does not change lookups from elsewhere. -/
lemma Linked.hops_put (h : r.Linked) (hn : n ∉ r.ids) (hm : m ∈ r.ids) : (r.put n node).hops k left m = r.hops k left m := by
  induction left generalizing m with
  | zero => rfl
  | succ left ih =>
    obtain ⟨node', hnode'⟩ := exists_node hm
    have hput : (r.put n node).getNode m = some node' := by
      rw [getNode_put_ne, hnode']
      rintro rfl
      exact hn hm
    obtain ⟨s, hs, -⟩ := h.successor hnode'
    rcases h.hop hnode' hs k with hin | ⟨hin, hsn, f, hf, hfn, hknows, -⟩
    · rw [hops_answer hput hs hin, hops_answer hnode' hs hin]
    · rw [hops_next hput hs hin hf hsn hfn, hops_next hnode' hs hin hf hsn hfn]
      exact ih hknows.mem

/-- A ring that `z` founded: no pointer leads past `z`, which has always had a predecessor. -/
structure Founded (z : NodeId) (r : InProcessRpc) : Prop where
  linked : r.Linked
  mem : z ∈ r.ids
  spares : Spares r.ids r.next z
  first : ∃ node p, r.getNode z = some node ∧ node.predecessor = some p

lemma getNode_enter {addr : WireAddr} {bootstrap : NodeId}
    (hs : (r.register (.new n addr)).iterativeFindSuccessor bootstrap n = some s) :
    (r.enter n addr bootstrap).getNode m =
      if n = m then some { (ChordNode.new n addr).setSuccessor s with predecessor := none } else r.getNode m := by
  rw [enter, join, getNode_write]
  split
  · next he =>
    subst he
    have hnode : (r.register (.new n addr)).getNode n = some (.new n addr) := getNode_put_self
    have hid : (ChordNode.new n addr).id = n := rfl
    rw [hnode, Option.map_some, ChordNode.join, hid, hs]
  · next hne => exact getNode_put_ne hne

namespace Founded

lemma found {addr : WireAddr} : Founded z (register ⟨∅⟩ (.new z addr)) := by
  have hget : ∀ n node, (register ⟨∅⟩ (.new z addr)).getNode n = some node → n = z ∧ node = .new z addr := by
    intro n node hnode
    rw [register, getNode_put] at hnode
    split at hnode
    · next he =>
      cases hnode
      exact ⟨he.symm, rfl⟩
    · cases hnode
  have hself : (register ⟨∅⟩ (.new z addr)).getNode z = some (.new z addr) := getNode_put_self
  have hknows : (register ⟨∅⟩ (.new z addr)).Knows ⟨z, addr⟩ := ⟨_, hself, rfl⟩
  refine ⟨⟨fun hn => ?_, fun hn => ?_, fun hn hp => ?_, fun hn i f hf => ?_⟩, mem_ids hself, fun n hn hne => ?_, _, _, hself, rfl⟩
  · obtain ⟨rfl, rfl⟩ := hget _ _ hn
    rfl
  · obtain ⟨rfl, rfl⟩ := hget _ _ hn
    exact ⟨_, rfl, hknows⟩
  · obtain ⟨rfl, rfl⟩ := hget _ _ hn
    cases hp
    exact hknows
  · obtain ⟨rfl, rfl⟩ := hget _ _ hn
    rw [ChordNode.mem_fingers_new hf]
    exact hknows
  · obtain ⟨node, hnode⟩ := exists_node hn
    exact absurd (hget _ _ hnode).1 hne

lemma tightens (h : Founded z r) (ht : r.Tightens r') : Founded z r' := by
  obtain ⟨node, p, hnode, hp⟩ := h.first
  obtain ⟨node', hnode', htight⟩ := ht.nodes hnode
  refine ⟨ht.linked h.linked, ht.ids ▸ h.mem, ht.spares h.linked h.spares, node', ?_⟩
  rcases htight.predecessor with he | ⟨c, hc, -⟩
  · exact ⟨p, hnode', he.trans hp⟩
  · exact ⟨c, hnode', hc⟩

/-- A lookup of a new id finds where it comes in. -/
lemma enter (h : Founded z r) {addr : WireAddr} {bootstrap : NodeId} (hn : n ∉ r.ids) (hb : bootstrap ∈ r.ids)
    (hjoin : ((r.register (.new n addr)).iterativeFindSuccessor bootstrap n).isSome) : Founded z (r.enter n addr bootstrap) := by
  obtain ⟨s, hs⟩ := Option.isSome_iff_exists.mp hjoin
  have hold := hs
  have hput : (ChordNode.new n addr).id = n := rfl
  rw [iterativeFindSuccessor, register, hput, h.linked.hops_put hn hb] at hold
  obtain ⟨m, node, hnode, hm, hin⟩ := hops_sound h.linked.id hold
  have hget := fun m => getNode_enter (m := m) hs
  have hself := hget n
  rw [if_pos rfl] at hself
  have hstay : ∀ {m}, m ∈ r.ids → (r.enter n addr bootstrap).getNode m = r.getNode m := by
    intro m hm
    rw [hget, if_neg]
    rintro rfl
    exact hn hm
  have hknows : ∀ {x}, r.Knows x → (r.enter n addr bootstrap).Knows x := by
    rintro x ⟨node, hnode, rfl⟩
    exact ⟨node, (hstay (mem_ids hnode)).trans hnode, rfl⟩
  have hs' : r.Knows s := h.linked.knows_answer hold
  have hcases : ∀ {m node}, (r.enter n addr bootstrap).getNode m = some node →
      (m = n ∧ node = { (ChordNode.new n addr).setSuccessor s with predecessor := none }) ∨ r.getNode m = some node := by
    intro m node hm
    rw [hget] at hm
    split at hm
    · next he =>
      cases hm
      exact .inl ⟨he.symm, rfl⟩
    · exact .inr hm
  have hlinked : (r.enter n addr bootstrap).Linked := by
    refine ⟨fun hn => ?_, fun hn => ?_, fun hn hp => ?_, fun hn i f hf => ?_⟩
    · rcases hcases hn with ⟨rfl, rfl⟩ | hn
      · rfl
      · exact h.linked.id hn
    · rcases hcases hn with ⟨rfl, rfl⟩ | hn
      · exact ⟨s, rfl, hknows hs'⟩
      · obtain ⟨x, hx, hx'⟩ := h.linked.successor hn
        exact ⟨x, hx, hknows hx'⟩
    · rcases hcases hn with ⟨rfl, rfl⟩ | hn
      · cases hp
      · exact hknows (h.linked.predecessor hn hp)
    · rcases hcases hn with ⟨rfl, rfl⟩ | hn
      · rcases ChordNode.mem_set_fingers fingerCount_pos hf with hf | rfl
        · rw [ChordNode.mem_fingers_new hf]
          exact ⟨_, hself, rfl⟩
        · exact hknows hs'
      · exact hknows (h.linked.fingers hn i f hf)
  have hnz : n ≠ z := fun he => hn (he ▸ h.mem)
  obtain ⟨first, p, hfirst, hp⟩ := h.first
  refine ⟨hlinked, mem_ids ((hstay h.mem).trans hfirst), fun x hx hxz => ?_, first, p, (hstay h.mem).trans hfirst, hp⟩
  obtain ⟨node', hnode'⟩ := exists_node hx
  rcases hcases hnode' with ⟨rfl, rfl⟩ | hold'
  · rw [next_eq hnode' rfl]
    have hnext := next_eq hnode hm
    rw [inClosedInterval_iff, ← hnext] at hin
    rw [← hnext]
    refine h.spares.between h.mem hn (mem_ids hnode) (h.linked.next_mem (mem_ids hnode)) ?_
    rcases hin with rfl | hin
    · exact absurd (mem_ids hnode) hn
    · exact hin
  · obtain ⟨x', hx', -⟩ := h.linked.successor hold'
    rw [next_eq hnode' hx', ← next_eq hold' hx']
    exact h.spares x (mem_ids hold') hxz

end Founded

/-- What the founder's ring keeps as it grows. -/
theorem Grown.founded (h : Grown z r) : Founded z r := by
  induction h with
  | found addr => exact .found
  | enter _ hn hb hjoin ih => exact ih.enter hn hb hjoin
  | upkeep _ ho ih => exact ih.tightens (.step ih.linked ho)

namespace Linked

variable (h : r.Linked)
include h

/-- A lookup is answered when it has more hops left than nodes are nearer to the key. -/
lemma isSome_hops (hn : n ∈ r.ids) (hleft : rank r.ids k n < left) : (r.hops k left n).isSome := by
  induction left generalizing n with
  | zero => cases hleft
  | succ left ih =>
    obtain ⟨node, hnode⟩ := exists_node hn
    obtain ⟨s, hs, -⟩ := h.successor hnode
    rcases h.hop hnode hs k with hin | ⟨hin, hsn, f, hf, hfn, hknows, hnear⟩
    · rw [hops_answer hnode hs hin]
      rfl
    · rw [hops_next hnode hs hin hf hsn hfn]
      have hlt := rank_lt r.ids.toFinite hknows.mem hnear
      exact ih hknows.mem (by omega)

/-- A lookup goes from node to node, and every one it comes to is nearer to the key. -/
lemma visits_cases (left : Nat) (hnode : r.getNode n = some node) :
    r.visits k (left + 1) n = [n] ∨ ∃ f ∈ r.ids, arc f k < arc n k ∧ r.visits k (left + 1) n = n :: r.visits k left f := by
  obtain ⟨s, hs, -⟩ := h.successor hnode
  rw [visits, hnode]
  dsimp only
  rw [hs]
  dsimp only
  rcases h.hop hnode hs k with hin | ⟨hin, hsn, f, hf, hfn, hknows, hnear⟩
  · rw [hin, if_pos rfl]
    exact .inl rfl
  · rw [hin, if_neg Bool.false_ne_true, hf]
    dsimp only
    rw [if_neg fun hor => hor.elim hsn (hfn ∘ Eq.symm)]
    exact .inr ⟨f.id, hknows.mem, hnear, rfl⟩

lemma visits_nearer {v : NodeId} (hn : n ∈ r.ids) (hv : v ∈ r.visits k left n) : v ∈ r.ids ∧ arc v k ≤ arc n k := by
  induction left generalizing n with
  | zero => cases hv
  | succ left ih =>
    obtain ⟨node, hnode⟩ := exists_node hn
    rcases h.visits_cases left hnode with he | ⟨f, hf, hnear, he⟩
    · rw [he] at hv
      cases List.mem_singleton.mp hv
      exact ⟨hn, Nat.le_refl _⟩
    · rw [he] at hv
      rcases List.mem_cons.mp hv with rfl | hv
      · exact ⟨hn, Nat.le_refl _⟩
      · obtain ⟨hmem, hle⟩ := ih hf hv
        exact ⟨hmem, hle.trans hnear.le⟩

lemma nodup_visits (hn : n ∈ r.ids) : (r.visits k left n).Nodup := by
  induction left generalizing n with
  | zero => exact List.nodup_nil
  | succ left ih =>
    obtain ⟨node, hnode⟩ := exists_node hn
    rcases h.visits_cases left hnode with he | ⟨f, hf, hnear, he⟩
    · rw [he]
      exact List.nodup_singleton n
    · rw [he]
      exact List.nodup_cons.mpr ⟨fun hv => Nat.not_lt.mpr (h.visits_nearer hf hv).2 hnear, ih hf⟩

/-- A node asks one that is nearer to the key. -/
lemma asked_nearer (hnode : r.getNode n = some node) (ha : node.asked k = some m) : m ∈ r.ids ∧ arc m k < arc n k := by
  obtain ⟨s, hs, -⟩ := h.successor hnode
  rw [ChordNode.asked, hs] at ha
  dsimp only at ha
  rcases h.hop hnode hs k with hin | ⟨hin, -, f, hf, hfn, hknows, hnear⟩
  · rw [hin, if_pos rfl] at ha
    cases ha
  · rw [hin, if_neg Bool.false_ne_true, hf] at ha
    dsimp only at ha
    rw [h.id hnode, if_neg hfn] at ha
    cases ha
    exact ⟨hknows.mem, hnear⟩

end Linked

/-- A lookup locks every node at most once, and the lookup that a node asks for under its own lock never comes back to it.
With no more nodes than hops every lookup is answered. -/
theorem lookup_locks (h : Grown z r) (k : NodeId) :
    (∀ start ∈ r.ids, (r.visits k fingerCount start).Nodup) ∧
    (∀ n node next, r.getNode n = some node → node.asked k = some next → n ∉ r.visits k fingerCount next) ∧
    (r.ids.ncard ≤ fingerCount → ∀ start ∈ r.ids, (r.iterativeFindSuccessor start k).isSome) := by
  have hl := h.founded.linked
  refine ⟨fun start hstart => hl.nodup_visits hstart, fun n node next hnode ha hv => ?_, fun hfew start hstart => ?_⟩
  · obtain ⟨hnext, hnear⟩ := hl.asked_nearer hnode ha
    have hle := (hl.visits_nearer hnext hv).2
    omega
  · have hrank := rank_lt_ncard r.ids.toFinite (k := k) hstart
    exact hl.isSome_hops hstart (by omega)

/-- Two nodes, the second of which has just joined. -/
def freshPair : InProcessRpc := (register ⟨∅⟩ (.new 5 sampleAddr)).enter 0 sampleAddr 5

lemma grown_freshPair : Grown 5 freshPair := by
  rw [freshPair]
  exact .enter (.found sampleAddr) (by decide +kernel) (by decide +kernel) (by decide +kernel)

lemma ids_freshPair : freshPair.ids = {0, 5} := by
  refine Set.ext fun n => ?_
  have hjoin : ((register ⟨∅⟩ (.new 5 sampleAddr)).register (.new 0 sampleAddr)).iterativeFindSuccessor 5 0 =
      some ⟨5, sampleAddr⟩ := by decide +kernel
  have hget := getNode_enter (m := n) hjoin
  change (freshPair.getNode n).isSome = true ↔ n = 0 ∨ n = 5
  rw [freshPair, hget, register, getNode_put]
  split
  · next h => simp [h.symm]
  · next h0 =>
    split
    · next h => simp [← h, ChordNode.new]
    · next h5 =>
      have hempty : getNode ⟨∅⟩ n = none := rfl
      rw [hempty]
      exact iff_of_false Bool.false_ne_true fun hor => hor.elim (h0 ∘ Eq.symm) (h5 ∘ Eq.symm)

lemma ncard_freshPair : freshPair.ids.ncard = 2 := by
  rw [ids_freshPair]
  exact Set.ncard_pair (by decide)

lemma mem_freshPair (h : n ∈ freshPair.ids) : n = 0 ∨ n = 5 := by
  rw [ids_freshPair] at h
  exact h

theorem lookup_locks_sample : 0 ∉ freshPair.visits 6 fingerCount 5 :=
  (lookup_locks grown_freshPair 6).2.1 0 { (ChordNode.new 0 sampleAddr).setSuccessor ⟨5, sampleAddr⟩ with predecessor := none } 5
    (by decide +kernel) (by decide +kernel)

end InProcessRpc

end IPv8Plus.Routing
