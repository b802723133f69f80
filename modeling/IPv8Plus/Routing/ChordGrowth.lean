import IPv8Plus.Lib.Run
import IPv8Plus.Routing.ChordLookup

/-!
# Growing rings

Nodes join a ring and run their upkeep while values are stored and read. Stored pairs never move: when a node learns of
a nearer predecessor, the keys up to this one stay behind where no lookup finds them. A run keeps what was stored as
long as every node stores only what is its own and no nearer predecessor comes past a stored key.
-/

namespace IPv8Plus.Routing
open Lib Lib.Clockwise

namespace InProcessRpc

def join (r : InProcessRpc) (n bootstrap : NodeId) : InProcessRpc :=
  r.write n fun node => (node.join r.iterativeFindSuccessor bootstrap).1

def stabilize (r : InProcessRpc) (n : NodeId) : InProcessRpc :=
  match r.getNode n with
  | none => r
  | some node =>
    let r' := r.write n fun node => (node.stabilize r.getPredecessor).1
    match (node.stabilize r.getPredecessor).2 with
    | some succ => r'.notify succ node.info
    | none => r'

def fixFingers (r : InProcessRpc) (n : NodeId) : InProcessRpc := r.write n (·.fixFingers r.iterativeFindSuccessor)

/-- A node stores under a key by itself. -/
def nodePut (r : InProcessRpc) (n key : NodeId) (value : Bytes) : InProcessRpc × Option NodeId :=
  match r.getNode n with
  | none => (r, none)
  | some node =>
    let (node', owner) := node.dhtPut r.iterativeFindSuccessor key value
    (r.put n node', owner)

def nodeGet (r : InProcessRpc) (n key : NodeId) : Option Bytes :=
  (r.getNode n).bind fun node => node.dhtGet r.iterativeFindSuccessor key

inductive Op where
  | register (id : NodeId) (addr : WireAddr)
  | join (n bootstrap : NodeId)
  | stabilize (n : NodeId)
  | notified (n : NodeId) (candidate : NodeInfo)
  | fixFingers (n : NodeId)
  | dhtPut («from» key : NodeId) (value : Bytes)
  | dhtGet («from» key : NodeId)
  | nodePut (n key : NodeId) (value : Bytes)
  | nodeGet (n key : NodeId)

inductive Answer where
  | done
  | stored (owner : Option NodeId)
  | read (value : Option Bytes)

def step (r : InProcessRpc) : Op → InProcessRpc × Answer
  | .register id addr => (r.register (.new id addr), .done)
  | .join n bootstrap => (r.join n bootstrap, .done)
  | .stabilize n => (r.stabilize n, .done)
  | .notified n candidate => (r.notify n candidate, .done)
  | .fixFingers n => (r.fixFingers n, .done)
  | .dhtPut «from» key value => ((r.dhtPut «from» key value).1, .stored (r.dhtPut «from» key value).2)
  | .dhtGet «from» key => (r, .read (r.dhtGet «from» key))
  | .nodePut n key value => ((r.nodePut n key value).1, .stored (r.nodePut n key value).2)
  | .nodeGet n key => (r, .read (r.nodeGet n key))

/-- What a call and its answer make of the value of the last store under `k` that succeeded. -/
def remember (k : NodeId) (last : Option Bytes) : Op × Answer → Option Bytes
  | (.dhtPut _ key value, .stored (some _)) => if key = k then some value else last
  | (.nodePut _ key value, .stored (some _)) => if key = k then some value else last
  | _ => last

/-- The value of the last store under `k` that succeeded. -/
def lastPut (k : NodeId) (hist : List (Op × Answer)) : Option Bytes := hist.foldl (remember k) none

/-- No node leaves: a new node has an id of its own. -/
def Grows (r : InProcessRpc) : Op → Prop
  | .register id _ => id ∉ r.ids
  | _ => True

/-- If `candidate` becomes its predecessor, all that the node stores is after it. -/
def NoneBehind (node : ChordNode) (candidate : NodeInfo) : Prop :=
  node.needUpdate candidate = true → ∀ k ∈ node.store, inOpenInterval k candidate.id node.id = true

/-- Whichever node answers a lookup of `k` names a node that holds itself responsible for it. -/
def Settled (r : InProcessRpc) (k : NodeId) : Prop :=
  ∀ n node succ node', r.getNode n = some node → node.successor = some succ → inClosedInterval k n succ.id = true →
    r.getNode succ.id = some node' → node'.iAmResponsibleFor k = true

/-- The step leaves all pairs where lookups look for them. -/
def Homed (r : InProcessRpc) : Op → Prop
  | .notified n candidate => ∀ node, r.getNode n = some node → NoneBehind node candidate
  | .stabilize n => ∀ node succ node', r.getNode n = some node → node.successor = some succ → succ.id ≠ n →
      r.getNode succ.id = some node' → NoneBehind node' node.info
  | .dhtPut _ key _ => r.Settled key
  | .nodePut _ key _ => r.Settled key
  | _ => True

instance {node : ChordNode} {candidate : NodeInfo} : Decidable (NoneBehind node candidate) :=
  decidable_of_iff (node.needUpdate candidate = true →
      ∀ e ∈ node.store.toList, inOpenInterval e.1 candidate.id node.id = true) <| by
    refine imp_congr_right fun _ => ⟨fun h k hk => ?_, fun h e he => ?_⟩
    · exact h (k, node.store[k]) (Std.ExtTreeMap.mem_toList_iff_getElem?_eq_some.mpr (Std.ExtTreeMap.getElem?_eq_some_getElem hk))
    · have hget := Std.ExtTreeMap.mem_toList_iff_getElem?_eq_some.mp he
      exact h e.1 (Std.ExtTreeMap.mem_iff_isSome_getElem?.mpr (Option.isSome_of_mem hget))

instance {r : InProcessRpc} {k : NodeId} : Decidable (r.Settled k) :=
  decidable_of_iff (∀ p ∈ r.nodes.toList, ∀ succ ∈ p.2.successor, inClosedInterval k p.1 succ.id = true →
      ∀ node' ∈ r.getNode succ.id, node'.iAmResponsibleFor k = true) <| by
    rw [Settled]
    refine ⟨fun h n node succ node' hnode hs hin hnode' => ?_, fun h p hp succ hs hin node' hnode' => ?_⟩
    · exact h (n, node) (Std.ExtTreeMap.mem_toList_iff_getElem?_eq_some.mpr hnode) succ hs hin node' hnode'
    · exact h p.1 p.2 succ node' (Std.ExtTreeMap.mem_toList_iff_getElem?_eq_some.mp hp) hs hin hnode'

instance {r : InProcessRpc} : DecidablePred r.Homed
  | .notified n candidate => inferInstanceAs (Decidable (∀ node ∈ r.getNode n, NoneBehind node candidate))
  | .stabilize n =>
    decidable_of_iff (∀ node ∈ r.getNode n, ∀ succ ∈ node.successor, succ.id ≠ n →
      ∀ node' ∈ r.getNode succ.id, NoneBehind node' node.info)
      ⟨fun h node succ node' hnode hs hne hnode' => h node hnode succ hs hne node' hnode',
        fun h node hnode succ hs hne node' hnode' => h node succ node' hnode hs hne hnode'⟩
  | .dhtPut _ key _ => inferInstanceAs (Decidable (r.Settled key))
  | .nodePut _ key _ => inferInstanceAs (Decidable (r.Settled key))
  | .register _ _ | .join _ _ | .fixFingers _ | .dhtGet _ _ | .nodeGet _ _ => isTrue trivial

instance {r : InProcessRpc} : DecidablePred r.Grows
  | .register n _ => inferInstanceAs (Decidable (n ∉ r.ids))
  | .join _ _ | .stabilize _ | .notified _ _ | .fixFingers _ | .dhtPut _ _ _ | .dhtGet _ _ | .nodePut _ _ _
  | .nodeGet _ _ => isTrue trivial

end InProcessRpc

namespace ChordNode

/-- The pointers of a node. -/
def routes (self : ChordNode) : ChordNode := { self with store := ∅, nextFix := ⟨0, fingerCount_pos⟩ }

variable {self : ChordNode} {k : NodeId} {f candidate succ : NodeInfo} {i : Nat} {ask : NodeId → NodeId → Option NodeInfo}

lemma scan_sound (h : self.scan k i = some f) : inOpenInterval f.id self.id k = true := by
  induction i with
  | zero => cases h
  | succ i ih =>
    rw [scan] at h
    split at h
    · split at h
      · next hin =>
        cases h
        exact hin
      · exact ih h
    · exact ih h

/-- A node that is not between its successor and the key, and does not answer, asks another node. -/
lemma closestPrecedingFinger_ne (hs : self.successor = some succ) (hin : inClosedInterval k self.id succ.id = false)
    (h : self.closestPrecedingFinger k = some f) : f.id ≠ self.id ∧ succ.id ≠ self.id := by
  have hout : ¬ (k = self.id ∨ self.id = succ.id ∨ Between self.id k succ.id) := by
    rw [← inClosedInterval_iff, hin]
    exact Bool.false_ne_true
  have hsucc : succ.id ≠ self.id := fun he => hout (.inr (.inl he.symm))
  refine ⟨fun he => ?_, hsucc⟩
  rw [closestPrecedingFinger] at h
  cases hscan : self.scan k fingerCount with
  | none =>
    rw [hscan, hs] at h
    cases h
    exact hsucc he
  | some g =>
    rw [hscan] at h
    cases h
    have hopen := scan_sound hscan
    rw [he, inOpenInterval_iff] at hopen
    rcases hopen with hk | hb
    · exact hout (.inl hk.symm)
    · rw [Between, arc_self] at hb
      exact absurd hb.1 (Nat.lt_irrefl 0)

/-- What a node finds is its own successor, or another node's answer. -/
lemma findSuccessor_sound (h : self.findSuccessor ask k = some f) :
    (self.successor = some f ∧ inClosedInterval k self.id f.id = true) ∨ ∃ n, ask n k = some f := by
  cases hs : self.successor with
  | none =>
    rw [findSuccessor, hs] at h
    cases h
  | some succ =>
    cases hin : inClosedInterval k self.id succ.id with
    | true =>
      rw [findSuccessor_answer hs hin] at h
      cases h
      exact .inl ⟨rfl, hin⟩
    | false =>
      cases hnext : self.closestPrecedingFinger k with
      | none =>
        rw [findSuccessor, hs] at h
        dsimp only at h
        rw [hin, if_neg Bool.false_ne_true, hnext] at h
        cases h
      | some next =>
        rw [findSuccessor_next hs hin hnext (closestPrecedingFinger_ne hs hin hnext).1] at h
        exact .inr ⟨_, h⟩

lemma responsible_of_notified (h : self.iAmResponsibleFor k = true)
    (hafter : self.needUpdate candidate = true → inOpenInterval k candidate.id self.id = true) :
    (self.notified candidate).iAmResponsibleFor k = true := by
  rw [notified]
  split
  · next hup =>
    rw [iAmResponsibleFor, Bool.or_eq_true]
    exact .inl (hafter hup)
  · exact h

end ChordNode

namespace InProcessRpc

variable {r : InProcessRpc} {n m key k : NodeId} {node node' : ChordNode} {x : NodeInfo} {value v : Bytes}
  {hist : List (Op × Answer)} {o : Op} {a : Answer}

lemma lastPut_append : lastPut k (hist ++ [(o, a)]) = remember k (lastPut k hist) (o, a) := List.foldl_append

lemma getNode_write {f : ChordNode → ChordNode} :
    (r.write n f).getNode m = if n = m then (r.getNode n).map f else r.getNode m := by
  rw [write]
  cases hn : r.getNode n with
  | none =>
    by_cases he : n = m
    · rw [if_pos he, ← he]
      exact hn
    · exact (if_neg he).symm
  | some node => exact getNode_put

/-- An answer of a lookup is the successor of a node that the key is behind. -/
lemma hops_sound (hid : ∀ {n node}, r.getNode n = some node → node.id = n) {left : Nat} (h : r.hops k left m = some x) :
    ∃ n node, r.getNode n = some node ∧ node.successor = some x ∧ inClosedInterval k n x.id = true := by
  induction left generalizing m with
  | zero => cases h
  | succ left ih =>
    cases hm : r.getNode m with
    | none =>
      rw [hops, hm] at h
      cases h
    | some node =>
      cases hs : node.successor with
      | none =>
        rw [hops, hm] at h
        dsimp only at h
        rw [hs] at h
        cases h
      | some succ =>
        cases hin : inClosedInterval k node.id succ.id with
        | true =>
          rw [hops_answer hm hs hin] at h
          cases h
          rw [hid hm] at hin
          exact ⟨m, node, hm, hs, hin⟩
        | false =>
          cases hnext : node.closestPrecedingFinger k with
          | none =>
            rw [hops, hm] at h
            dsimp only at h
            rw [hs] at h
            dsimp only at h
            rw [hin, if_neg Bool.false_ne_true, hnext] at h
            cases h
          | some next =>
            obtain ⟨hne, hsn⟩ := ChordNode.closestPrecedingFinger_ne hs hin hnext
            rw [hid hm] at hne hsn
            rw [hops_next hm hs hin hnext hsn hne] at h
            exact ih h

/-- Where the last value stored under a key is, and that every node stores only what is its own. -/
structure Kept (r : InProcessRpc) (hist : List (Op × Answer)) : Prop where
  id : ∀ {n node}, r.getNode n = some node → node.id = n
  home : ∀ {n node}, r.getNode n = some node → ∀ k ∈ node.store, node.iAmResponsibleFor k = true
  last : ∀ {k v}, lastPut k hist = some v → ∃ n node, r.getNode n = some node ∧ node.store[k]? = some v

/-- What upkeep may change of a node. -/
structure Stays (node node' : ChordNode) : Prop where
  id : node'.id = node.id
  store : node'.store = node.store
  home : ∀ k ∈ node.store, node.iAmResponsibleFor k = true → node'.iAmResponsibleFor k = true

lemma kept_empty : Kept ⟨∅⟩ [] where
  id h := by cases h
  home h := by cases h
  last h := by cases h

namespace Stays

variable {ask : NodeId → NodeId → Option NodeInfo} {getPredecessor : NodeId → Option NodeInfo} {candidate : NodeInfo}

lemma refl : Stays node node := ⟨rfl, rfl, fun _ _ h => h⟩

/-- A node that joins forgets its predecessor, and holds itself responsible for everything. -/
lemma join : Stays node (node.join ask n).1 := by
  rw [ChordNode.join]
  split
  · refine ⟨rfl, rfl, fun k _ _ => ?_⟩
    rw [ChordNode.iAmResponsibleFor, Bool.or_eq_true, inOpenInterval_iff]
    exact .inl (.inl rfl)
  · exact .refl

lemma stabilize : Stays node (node.stabilize getPredecessor).1 := by
  rw [ChordNode.stabilize]
  split
  · exact .refl
  · dsimp only
    split
    · split
      · exact ⟨rfl, rfl, fun _ _ h => h⟩
      · exact .refl
    · exact .refl

lemma fixFingers : Stays node (node.fixFingers ask) := ⟨rfl, rfl, fun _ _ h => h⟩

lemma notified (h : NoneBehind node candidate) : Stays node (node.notified candidate) := by
  refine ⟨?_, ?_, fun k hk hresp => ChordNode.responsible_of_notified hresp fun hup => h hup k hk⟩
  · rw [ChordNode.notified]
    split
    · rfl
    · rfl
  · rw [ChordNode.notified]
    split
    · rfl
    · rfl

end Stays

namespace Kept

lemma write {f : ChordNode → ChordNode} (h : Kept r hist) (hf : ∀ node, r.getNode n = some node → Stays node (f node)) :
    Kept (r.write n f) hist := by
  have hback : ∀ {m node'}, (r.write n f).getNode m = some node' → ∃ node, r.getNode m = some node ∧ Stays node node' := by
    intro m node' hm
    rw [getNode_write] at hm
    split at hm
    · next he =>
      obtain ⟨node, hnode, rfl⟩ := Option.map_eq_some_iff.mp hm
      exact ⟨node, he ▸ hnode, hf node hnode⟩
    · exact ⟨node', hm, rfl, rfl, fun _ _ h => h⟩
  refine ⟨fun hm => ?_, fun hm k hk => ?_, fun hv => ?_⟩
  · obtain ⟨node, hnode, hstays⟩ := hback hm
    exact hstays.id.trans (h.id hnode)
  · obtain ⟨node, hnode, hstays⟩ := hback hm
    rw [hstays.store] at hk
    exact hstays.home k hk (h.home hnode k hk)
  · obtain ⟨m, node, hm, hvalue⟩ := h.last hv
    by_cases he : n = m
    · subst he
      refine ⟨n, f node, ?_, ?_⟩
      · rw [getNode_write, if_pos rfl, hm]
        rfl
      · rw [(hf node hm).store]
        exact hvalue
    · refine ⟨m, node, ?_, hvalue⟩
      rw [getNode_write, if_neg he]
      exact hm

lemma note (h : Kept r hist) (hsame : ∀ k, lastPut k (hist ++ [(o, a)]) = lastPut k hist) : Kept r (hist ++ [(o, a)]) :=
  ⟨h.id, h.home, fun {k _} hv => h.last (hsame k ▸ hv)⟩

lemma register {addr : WireAddr} (h : Kept r hist) (hn : n ∉ r.ids) : Kept (r.put n (.new n addr)) hist := by
  refine ⟨fun {m node} hm => ?_, fun {m node} hm k hk => ?_, fun hv => ?_⟩
  · rw [getNode_put] at hm
    split at hm
    · next he =>
      cases hm
      exact he
    · exact h.id hm
  · rw [getNode_put] at hm
    split at hm
    · cases hm
      exact absurd hk Std.ExtTreeMap.not_mem_empty
    · exact h.home hm k hk
  · obtain ⟨m, node, hm, hvalue⟩ := h.last hv
    refine ⟨m, node, ?_, hvalue⟩
    have hne : n ≠ m := by
      rintro rfl
      exact hn (mem_ids hm)
    exact (getNode_put_ne hne).trans hm

/-- A pair is stored where it belongs. -/
lemma insert (h : Kept r hist) (hnode : r.getNode n = some node) (hhome : node.iAmResponsibleFor key = true)
    (hlast : ∀ k, lastPut k (hist ++ [(o, a)]) = if key = k then some value else lastPut k hist) :
    Kept (r.put n { node with store := node.store.insert key value }) (hist ++ [(o, a)]) := by
  refine ⟨fun {m node'} hm => ?_, fun {m node'} hm k hk => ?_, fun {k v} hv => ?_⟩
  · rw [getNode_put] at hm
    split at hm
    · next he =>
      cases hm
      exact (h.id hnode).trans he
    · exact h.id hm
  · rw [getNode_put] at hm
    split at hm
    · cases hm
      rcases Std.ExtTreeMap.mem_insert.mp hk with he | hk
      · exact Std.LawfulEqCmp.compare_eq_iff_eq.mp he ▸ hhome
      · exact h.home hnode k hk
    · exact h.home hm k hk
  · rw [hlast] at hv
    split at hv
    · next he =>
      cases hv
      refine ⟨n, _, getNode_put_self, ?_⟩
      rw [← he]
      exact Std.ExtTreeMap.getElem?_insert_self
    · next hne =>
      obtain ⟨m, node', hm, hvalue⟩ := h.last hv
      by_cases he : n = m
      · subst he
        rw [hnode] at hm
        cases hm
        refine ⟨n, _, getNode_put_self, ?_⟩
        rw [Std.ExtTreeMap.getElem?_insert, if_neg (mt Std.LawfulEqCmp.compare_eq_iff_eq.mp hne)]
        exact hvalue
      · exact ⟨m, node', (getNode_put_ne he).trans hm, hvalue⟩

lemma stabilize (h : Kept r hist) (hhome : Homed r (.stabilize n)) : Kept (r.stabilize n) hist := by
  have hwrite := @write r n hist (fun node => (node.stabilize r.getPredecessor).1) h fun _ _ => .stabilize
  rw [InProcessRpc.stabilize]
  cases hnode : r.getNode n with
  | none => exact h
  | some node =>
    dsimp only
    cases htarget : (node.stabilize r.getPredecessor).2 with
    | none => exact hwrite
    | some target =>
      -- the node tells its old successor, which is another node
      have htold : ∃ succ, node.successor = some succ ∧ succ.id ≠ n ∧ succ.id = target := by
        rw [ChordNode.stabilize] at htarget
        split at htarget
        · cases htarget
        · next succ hs =>
          dsimp only at htarget
          split at htarget
          · cases htarget
          · next hne =>
            cases htarget
            exact ⟨succ, hs, (h.id hnode) ▸ hne, rfl⟩
      obtain ⟨succ, hs, hne, rfl⟩ := htold
      refine hwrite.write fun node' hnode' => .notified ?_
      rw [getNode_write, if_neg hne.symm] at hnode'
      exact hhome node succ node' hnode hs hne hnode'

lemma dhtPut (h : Kept r hist) (hhome : r.Settled key) :
    Kept (r.dhtPut n key value).1 (hist ++ [(.dhtPut n key value, .stored (r.dhtPut n key value).2)]) := by
  cases hfind : r.iterativeFindSuccessor n key with
  | none =>
    rw [InProcessRpc.dhtPut, hfind]
    exact h.note fun _ => lastPut_append
  | some owner =>
    cases hnode : r.getNode owner.id with
    | none =>
      rw [InProcessRpc.dhtPut, hfind]
      dsimp only
      rw [hnode]
      exact h.note fun _ => lastPut_append
    | some node =>
      rw [dhtPut_eq hfind hnode]
      obtain ⟨m, node', hm, hs, hin⟩ := hops_sound h.id hfind
      exact h.insert hnode (hhome m node' owner node hm hs hin hnode) fun _ => lastPut_append

lemma nodePut (h : Kept r hist) (hhome : r.Settled key) :
    Kept (r.nodePut n key value).1 (hist ++ [(.nodePut n key value, .stored (r.nodePut n key value).2)]) := by
  cases hnode : r.getNode n with
  | none =>
    rw [InProcessRpc.nodePut, hnode]
    exact h.note fun _ => lastPut_append
  | some node =>
    have hsame : r.put n node = r.write n fun node => node := by rw [InProcessRpc.write, hnode]
    have hstay : Kept (r.put n node) hist := hsame ▸ h.write fun _ _ => .refl
    rw [InProcessRpc.nodePut, hnode]
    dsimp only
    cases hfind : node.findSuccessor r.iterativeFindSuccessor key with
    | none =>
      rw [ChordNode.dhtPut, hfind]
      exact hstay.note fun _ => lastPut_append
    | some owner =>
      rw [ChordNode.dhtPut, hfind]
      dsimp only
      split
      · next he =>
        rw [h.id hnode] at he
        have hans : ∃ m node', r.getNode m = some node' ∧ node'.successor = some owner ∧
            inClosedInterval key m owner.id = true := by
          rcases ChordNode.findSuccessor_sound hfind with ⟨hs, hin⟩ | ⟨m, hm⟩
          · exact ⟨n, node, hnode, hs, h.id hnode ▸ hin⟩
          · exact hops_sound h.id hm
        obtain ⟨m, node', hm, hs, hin⟩ := hans
        exact h.insert hnode (hhome m node' owner node hm hs hin (he ▸ hnode)) fun _ => lastPut_append
      · exact hstay.note fun _ => lastPut_append

/-- The step lemma. -/
theorem step (h : Kept r hist) (hgrows : Grows r o) (hhome : Homed r o) :
    Kept (InProcessRpc.step r o).1 (hist ++ [(o, (InProcessRpc.step r o).2)]) := by
  cases o with
  | register n addr => exact (h.register hgrows).note fun _ => lastPut_append
  | join n bootstrap => exact (h.write fun _ _ => .join).note fun _ => lastPut_append
  | stabilize n => exact (h.stabilize hhome).note fun _ => lastPut_append
  | notified n candidate =>
    exact (h.write fun node hnode => .notified (hhome node hnode)).note fun _ => lastPut_append
  | fixFingers n => exact (h.write fun _ _ => .fixFingers).note fun _ => lastPut_append
  | dhtPut n key value => exact h.dhtPut hhome
  | dhtGet n key => exact h.note fun _ => lastPut_append
  | nodePut n key value => exact h.nodePut hhome
  | nodeGet n key => exact h.note fun _ => lastPut_append

end Kept

/-- Along steps that leave all pairs at home, a converged ring answers every key that is not a node's id with the value
stored last, and every node stores only keys between its predecessor and itself. -/
theorem growth_keeps {ops : List Op} (hgrows : Along step Grows ⟨∅⟩ ops) (hhome : Along step Homed ⟨∅⟩ ops)
    (hc : (run step ⟨∅⟩ ops).1.Converged) :
    (∀ k v, lastPut k (ops.zip (run step ⟨∅⟩ ops).2) = some v →
      (k ∉ (run step ⟨∅⟩ ops).1.ids ∨ (run step ⟨∅⟩ ops).1.ids.Subsingleton) →
      ∀ b ∈ (run step ⟨∅⟩ ops).1.ids, (run step ⟨∅⟩ ops).1.dhtGet b k = some v) ∧
    ∀ n node p, (run step ⟨∅⟩ ops).1.getNode n = some node → node.predecessor = some p →
      ∀ k ∈ node.store, inOpenInterval k p.id n = true := by
  have hkept : Kept (run step ⟨∅⟩ ops).1 (ops.zip (run step ⟨∅⟩ ops).2) :=
    show Kept (run step ⟨∅⟩ ops).1 ([] ++ ops.zip (run step ⟨∅⟩ ops).2) from
      invariant_history_along (I := Kept) (P := fun r o => Grows r o ∧ Homed r o)
        (fun r hist o h hp => h.step hp.1 hp.2) kept_empty (along_and.mpr ⟨hgrows, hhome⟩)
  refine ⟨fun k v hv hk b hb => ?_, fun n node p hnode hp k hk => ?_⟩
  · obtain ⟨owner, hagree⟩ := hc.agrees hk
    obtain ⟨n, node, hnode, hvalue⟩ := hkept.last hv
    have hmem : k ∈ node.store := Std.ExtTreeMap.mem_iff_isSome_getElem?.mpr (Option.isSome_of_mem hvalue)
    have hown : n = owner.id := (hagree.responsible hnode).mp (hkept.home hnode k hmem)
    rw [dhtGet_eq (hagree.iterative b hb) (hown ▸ hnode)]
    exact hvalue
  · have hresp := hkept.home hnode k hk
    rw [ChordNode.iAmResponsibleFor, hp, hkept.id hnode, Bool.or_eq_true, beq_iff_eq] at hresp
    rcases hresp with hin | rfl
    · exact hin
    · rw [inOpenInterval_iff]
      refine or_iff_not_imp_left.mpr fun hne => ⟨?_, Nat.le_refl _⟩
      exact Clockwise.arc_pos hne

/-- Whether a ring has converged is seen from its pointers alone. -/
lemma Converged.of_routes {r' : InProcessRpc} (hc : r.Converged)
    (h : ∀ n, (r'.getNode n).map ChordNode.routes = (r.getNode n).map ChordNode.routes) : r'.Converged := by
  have hback : ∀ {n node'}, r'.getNode n = some node' → ∃ node, r.getNode n = some node ∧ node.routes = node'.routes := by
    intro n node' hn
    have hn' := h n
    rw [hn] at hn'
    exact Option.map_eq_some_iff.mp hn'.symm
  have hids : r'.ids = r.ids := by
    refine Set.ext fun n => ?_
    have hn := congrArg Option.isSome (h n)
    rw [Option.isSome_map, Option.isSome_map] at hn
    exact Bool.eq_iff_iff.mp hn
  have hknows : ∀ {x}, r.Knows x → r'.Knows x := by
    rintro x ⟨node, hnode, rfl⟩
    have hx := h node.info.id
    rw [hnode] at hx
    obtain ⟨node', hnode', hroutes⟩ := Option.map_eq_some_iff.mp hx
    have hinfo : node'.routes.info = node.routes.info := congrArg ChordNode.info hroutes
    exact ⟨node', hnode', hinfo⟩
  have hpoints : ∀ {k x}, r.Points k x → r'.Points k x := fun hx => ⟨hknows hx.1, hids.symm ▸ hx.2⟩
  refine ⟨hids.symm ▸ hc.nonempty, fun hn => ?_, fun hn => ?_, fun hn => ?_, fun hn i hi => ?_⟩
  · obtain ⟨node, hnode, hroutes⟩ := hback hn
    have hid := hc.id hnode
    exact (congrArg ChordNode.id hroutes).symm.trans hid
  · obtain ⟨node, hnode, hroutes⟩ := hback hn
    obtain ⟨s, hs, hx⟩ := hc.successor hnode
    exact ⟨s, (congrArg ChordNode.successor hroutes).symm.trans hs, hpoints hx⟩
  · obtain ⟨node, hnode, hroutes⟩ := hback hn
    obtain ⟨p, hp, hx, hfirst⟩ := hc.predecessor hnode
    exact ⟨p, (congrArg ChordNode.predecessor hroutes).symm.trans hp, hknows hx, hids.symm ▸ hfirst⟩
  · obtain ⟨node, hnode, hroutes⟩ := hback hn
    obtain ⟨f, hf, hx⟩ := hc.fingers hnode i hi
    exact ⟨f, (congrArg (·.fingers[i]?) hroutes).symm.trans hf, hpoints hx⟩

lemma routes_of_toList {r' : InProcessRpc}
    (h : r'.nodes.toList.map (fun e => (e.1, e.2.routes)) = r.nodes.toList.map (fun e => (e.1, e.2.routes))) (n : NodeId) :
    (r'.getNode n).map ChordNode.routes = (r.getNode n).map ChordNode.routes := by
  have hmem : ∀ (r : InProcessRpc) (x : ChordNode), (r.getNode n).map ChordNode.routes = some x ↔
      (n, x) ∈ r.nodes.toList.map fun e => (e.1, e.2.routes) := by
    intro r x
    rw [Option.map_eq_some_iff, List.mem_map]
    constructor
    · rintro ⟨node, hnode, rfl⟩
      exact ⟨(n, node), Std.ExtTreeMap.mem_toList_iff_getElem?_eq_some.mpr hnode, rfl⟩
    · rintro ⟨⟨m, node⟩, he, hx⟩
      cases hx
      exact ⟨node, Std.ExtTreeMap.mem_toList_iff_getElem?_eq_some.mp he, rfl⟩
  refine Option.ext fun x => ?_
  rw [hmem, hmem, h]

def sampleAddr : WireAddr := ⟨List.replicate 16 0, length_zeroAddr⟩

/-- A value is stored in a ring of one, then the node at 0 joins, and both run their upkeep. -/
def joinPair (key : NodeId) : List Op :=
  [.register farId sampleAddr, .dhtPut farId key [7], .register 0 sampleAddr, .join 0 farId, .stabilize 0, .stabilize farId,
      .stabilize farId] ++
    List.replicate fingerCount (.fixFingers 0) ++ List.replicate fingerCount (.fixFingers farId)

lemma converged_joinPair {key : NodeId}
    (h : (run step ⟨∅⟩ (joinPair key)).1.nodes.toList.map (fun e => (e.1, e.2.routes)) =
      pairRing.nodes.toList.map (fun e => (e.1, e.2.routes))) : (run step ⟨∅⟩ (joinPair key)).1.Converged :=
  converged_pairRing.of_routes (routes_of_toList h)

/-- A key of the old node is still read from the new one. -/
theorem growth_keeps_sample : (run step ⟨∅⟩ (joinPair 5)).1.dhtGet 0 5 = some [7] := by
  have hsafe : Along step Grows ⟨∅⟩ (joinPair 5) ∧ Along step Homed ⟨∅⟩ (joinPair 5) := by decide +kernel
  have hlast : lastPut 5 ((joinPair 5).zip (run step ⟨∅⟩ (joinPair 5)).2) = some [7] := by decide +kernel
  have hids : 5 ∉ (run step ⟨∅⟩ (joinPair 5)).1.ids ∧ 0 ∈ (run step ⟨∅⟩ (joinPair 5)).1.ids := by decide +kernel
  have hc : (run step ⟨∅⟩ (joinPair 5)).1.Converged := converged_joinPair (by decide +kernel)
  exact (growth_keeps hsafe.1 hsafe.2 hc).1 5 [7] hlast (.inl hids.1) 0 hids.2

/-- A key that becomes the new node's is lost. -/
theorem growth_loses : Along step Grows ⟨∅⟩ (joinPair (farId + 1)) ∧ (run step ⟨∅⟩ (joinPair (farId + 1))).1.Converged ∧
    lastPut (farId + 1) ((joinPair (farId + 1)).zip (run step ⟨∅⟩ (joinPair (farId + 1))).2) = some [7] ∧
    farId + 1 ∉ (run step ⟨∅⟩ (joinPair (farId + 1))).1.ids ∧
    (run step ⟨∅⟩ (joinPair (farId + 1))).1.dhtGet 0 (farId + 1) = none ∧
    (run step ⟨∅⟩ (joinPair (farId + 1))).1.dhtGet farId (farId + 1) = none ∧
    ∃ node p, (run step ⟨∅⟩ (joinPair (farId + 1))).1.getNode farId = some node ∧ node.predecessor = some p ∧
      farId + 1 ∈ node.store ∧ inOpenInterval (farId + 1) p.id farId = false := by
  refine ⟨by decide +kernel, converged_joinPair (by decide +kernel), by decide +kernel, by decide +kernel, by decide +kernel,
    by decide +kernel, ?_⟩
  have hend : ∃ node ∈ (run step ⟨∅⟩ (joinPair (farId + 1))).1.getNode farId, ∃ p ∈ node.predecessor,
      farId + 1 ∈ node.store ∧ inOpenInterval (farId + 1) p.id farId = false := by decide +kernel
  obtain ⟨node, hnode, p, hp, hlost⟩ := hend
  exact ⟨node, p, hnode, hp, hlost⟩

end InProcessRpc

end IPv8Plus.Routing
