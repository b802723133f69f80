import IPv8Plus.Lib.BigEndian
import IPv8Plus.Lib.Clockwise
import IPv8Plus.Lib.Maps

/-!
# Chord nodes

`ipv8-routing/src/cf.rs`: the state of a node, the lookup of a key over finger tables, the upkeep of the ring and the
store of key-value pairs. A node's calls to the others are parameters of its functions; `InProcessRpc` is the ring of
all nodes that calls them directly, as a table from ids to nodes. Locks are not modelled: a call is one step.
-/

namespace IPv8Plus.Routing
open Lib Lib.Clockwise

abbrev NodeId := UInt64

/-- A big-endian `ASN ‖ HostID`. -/
def nodeId (asn hostId : UInt32) : NodeId := (asn.toUInt64 <<< 32) ||| hostId.toUInt64

/-- The code calls `(lo, hi]` the open interval. -/
def inOpenInterval (k lo hi : NodeId) : Bool :=
  if lo < hi then decide (lo < k) && decide (k ≤ hi) else decide (lo < k) || decide (k ≤ hi)

def inClosedInterval (k lo hi : NodeId) : Bool := k == lo || inOpenInterval k lo hi

def fingerCount : Nat := 64

lemma fingerCount_pos : 0 < fingerCount := by decide

/-- The 16 bytes of an address on the wire. -/
abbrev WireAddr := {b : Bytes // b.length = 16}

structure NodeInfo where
  id : NodeId
  addr : WireAddr
  deriving DecidableEq

structure ChordNode where
  id : NodeId
  addr : WireAddr
  successor : Option NodeInfo
  predecessor : Option NodeInfo
  fingers : Vector (Option NodeInfo) fingerCount
  store : Std.ExtTreeMap NodeId Bytes
  nextFix : Fin fingerCount
  deriving DecidableEq

namespace ChordNode

/-- A ring of its own. -/
def new (id : NodeId) (addr : WireAddr) : ChordNode where
  id := id
  addr := addr
  successor := some ⟨id, addr⟩
  predecessor := some ⟨id, addr⟩
  fingers := (Vector.replicate fingerCount none).set 0 (some ⟨id, addr⟩) (by decide)
  store := ∅
  nextFix := ⟨0, by decide⟩

def info (self : ChordNode) : NodeInfo := ⟨self.id, self.addr⟩

def iAmResponsibleFor (self : ChordNode) (k : NodeId) : Bool :=
  inOpenInterval k ((self.predecessor.map NodeInfo.id).getD self.id) self.id || k == self.id

/-- The fingers below `i`, the last first. -/
def scan (self : ChordNode) (k : NodeId) : Nat → Option NodeInfo
  | 0 => none
  | i + 1 =>
    match self.fingers[i]? with
    | some (some f) => if inOpenInterval f.id self.id k then some f else self.scan k i
    | _ => self.scan k i

def closestPrecedingFinger (self : ChordNode) (k : NodeId) : Option NodeInfo :=
  self.scan k fingerCount <|> self.successor

def setSuccessor (self : ChordNode) (s : NodeInfo) : ChordNode :=
  { self with successor := some s, fingers := self.fingers.set 0 (some s) (by decide) }

def needUpdate (self : ChordNode) (candidate : NodeInfo) : Bool :=
  match self.predecessor with
  | none => true
  | some p => inOpenInterval candidate.id p.id self.id

def notified (self : ChordNode) (candidate : NodeInfo) : ChordNode :=
  if self.needUpdate candidate then { self with predecessor := some candidate } else self

/-- `ask n k` is the lookup of `k` that another node `n` answers. -/
def findSuccessor (ask : NodeId → NodeId → Option NodeInfo) (self : ChordNode) (k : NodeId) : Option NodeInfo :=
  match self.successor with
  | none => none
  | some succ =>
    if inClosedInterval k self.id succ.id then some succ
    else
      match self.closestPrecedingFinger k with
      | none => none
      | some next => if next.id = self.id then some succ else ask next.id k

def join (ask : NodeId → NodeId → Option NodeInfo) (self : ChordNode) (bootstrap : NodeId) : ChordNode × Bool :=
  match ask bootstrap self.id with
  | some succ => ({ self.setSuccessor succ with predecessor := none }, true)
  | none => (self, false)

/-- The node afterwards, and which node to tell that this may be its predecessor. -/
def stabilize (getPredecessor : NodeId → Option NodeInfo) (self : ChordNode) : ChordNode × Option NodeId :=
  match self.successor with
  | none => (self, none)
  | some succ =>
    let predOfSucc := if succ.id = self.id then self.predecessor else getPredecessor succ.id
    let self' := match predOfSucc with
      | some x => if x.id ≠ succ.id ∧ inOpenInterval x.id self.id succ.id then self.setSuccessor x else self
      | none => self
    (self', if succ.id = self.id then none else some succ.id)

def fixFingers (ask : NodeId → NodeId → Option NodeInfo) (self : ChordNode) : ChordNode :=
  let i := self.nextFix
  let start := self.id + ((1 : UInt64) <<< UInt64.ofNat i.val)
  let fingers := match self.findSuccessor ask start with
    | some s => self.fingers.set i.val (some s) i.isLt
    | none => self.fingers
  { self with fingers := fingers, nextFix := ⟨(i.val + 1) % fingerCount, Nat.mod_lt _ (by decide)⟩ }

/-- The node writes only when the key is its own. -/
def dhtPut (ask : NodeId → NodeId → Option NodeInfo) (self : ChordNode) (key : NodeId) (value : Bytes) :
    ChordNode × Option NodeId :=
  match self.findSuccessor ask key with
  | none => (self, none)
  | some owner => if owner.id = self.id then ({ self with store := self.store.insert key value }, some owner.id) else (self, none)

def dhtGet (ask : NodeId → NodeId → Option NodeInfo) (self : ChordNode) (key : NodeId) : Option Bytes :=
  match self.findSuccessor ask key with
  | none => none
  | some owner => if owner.id = self.id then self.store[key]? else none

end ChordNode

/-- All nodes by their ids. -/
structure InProcessRpc where
  nodes : Std.ExtTreeMap NodeId ChordNode
  deriving DecidableEq

namespace InProcessRpc

def getNode (r : InProcessRpc) (id : NodeId) : Option ChordNode := r.nodes[id]?

def put (r : InProcessRpc) (id : NodeId) (node : ChordNode) : InProcessRpc := ⟨r.nodes.insert id node⟩

/-- Nothing happens when there is no such node. -/
def write (r : InProcessRpc) (id : NodeId) (f : ChordNode → ChordNode) : InProcessRpc :=
  match r.getNode id with
  | some node => r.put id (f node)
  | none => r

def register (r : InProcessRpc) (node : ChordNode) : InProcessRpc := r.put node.id node

def getPredecessor (r : InProcessRpc) (n : NodeId) : Option NodeInfo := (r.getNode n).bind ChordNode.predecessor

def notify (r : InProcessRpc) (n : NodeId) (caller : NodeInfo) : InProcessRpc := r.write n (·.notified caller)

/-- The lookup with so many hops left. -/
def hops (r : InProcessRpc) (k : NodeId) : Nat → NodeId → Option NodeInfo
  | 0, _ => none
  | left + 1, current =>
    match r.getNode current with
    | none => none
    | some n =>
      match n.successor with
      | none => none
      | some succ =>
        if inClosedInterval k n.id succ.id then some succ
        else
          match n.closestPrecedingFinger k with
          | none => none
          | some next => if succ.id = current ∨ current = next.id then some succ else r.hops k left next.id

def iterativeFindSuccessor (r : InProcessRpc) (start k : NodeId) : Option NodeInfo := r.hops k fingerCount start

/-- The lookup in which every node asks the next one by `ChordNode.findSuccessor`, so many nodes deep. -/
def recursiveFindSuccessor (r : InProcessRpc) : Nat → NodeId → NodeId → Option NodeInfo
  | 0, _, _ => none
  | depth + 1, n, k => (r.getNode n).bind fun node => node.findSuccessor (r.recursiveFindSuccessor depth) k

def dhtPut (r : InProcessRpc) («from» key : NodeId) (value : Bytes) : InProcessRpc × Option NodeId :=
  match r.iterativeFindSuccessor «from» key with
  | none => (r, none)
  | some owner =>
    match r.getNode owner.id with
    | none => (r, none)
    | some node => (r.put owner.id { node with store := node.store.insert key value }, some owner.id)

def dhtGet (r : InProcessRpc) («from» key : NodeId) : Option Bytes :=
  match r.iterativeFindSuccessor «from» key with
  | none => none
  | some owner => (r.getNode owner.id).bind fun node => node.store[key]?

end InProcessRpc

variable {k lo hi : NodeId}

lemma between_iff : Between lo k hi ↔ 0 < (k - lo).toNat ∧ (k - lo).toNat ≤ (hi - lo).toNat := Iff.rfl

lemma inOpenInterval_iff : inOpenInterval k lo hi = true ↔ lo = hi ∨ Between lo k hi := by
  have hk := k.toNat_lt
  have hlo := lo.toNat_lt
  have hhi := hi.toNat_lt
  rw [between_iff, inOpenInterval, UInt64.toNat_sub, UInt64.toNat_sub, ← UInt64.toNat_inj]
  split
  · next h =>
    rw [Bool.and_eq_true, decide_eq_true_eq, decide_eq_true_eq]
    rw [UInt64.lt_iff_toNat_lt] at h ⊢
    rw [UInt64.le_iff_toNat_le]
    omega
  · next h =>
    rw [Bool.or_eq_true, decide_eq_true_eq, decide_eq_true_eq]
    rw [UInt64.lt_iff_toNat_lt] at h ⊢
    rw [UInt64.le_iff_toNat_le]
    omega

lemma inClosedInterval_iff : inClosedInterval k lo hi = true ↔ k = lo ∨ lo = hi ∨ Between lo k hi := by
  rw [inClosedInterval, Bool.or_eq_true, beq_iff_eq, inOpenInterval_iff]

namespace ChordNode

variable {self : ChordNode} {f : NodeInfo} {i j : Nat}

lemma scan_eq_some (hj : self.fingers[j]? = some (some f)) (hin : inOpenInterval f.id self.id k = true)
    (hover : ∀ i g, j < i → self.fingers[i]? = some (some g) → inOpenInterval g.id self.id k = false) (hi : j < i) :
    self.scan k i = some f := by
  induction i with
  | zero => cases hi
  | succ i ih =>
    rw [scan]
    rcases Nat.lt_or_eq_of_le (Nat.le_of_lt_succ hi) with hlt | rfl
    · split
      · next g hg =>
        rw [hover i g hlt hg]
        exact ih hlt
      · exact ih hlt
    · rw [hj]
      exact if_pos hin

/-- The farthest finger that is not past the key. -/
lemma closestPrecedingFinger_eq (hj : self.fingers[j]? = some (some f)) (hin : inOpenInterval f.id self.id k = true)
    (hover : ∀ i g, j < i → self.fingers[i]? = some (some g) → inOpenInterval g.id self.id k = false) :
    self.closestPrecedingFinger k = some f := by
  have hlt : j < fingerCount := by
    rcases Nat.lt_or_ge j fingerCount with h | h
    · exact h
    · rw [Vector.getElem?_eq_none h] at hj
      cases hj
  rw [closestPrecedingFinger, scan_eq_some hj hin hover hlt]
  rfl

end ChordNode

namespace InProcessRpc

variable {r : InProcessRpc} {n m : NodeId} {node : ChordNode} {succ next : NodeInfo} {left : Nat}

lemma getNode_put : (r.put n node).getNode m = if n = m then some node else r.getNode m := getElem?_insert_ite

@[simp] lemma getNode_put_self : (r.put n node).getNode n = some node := getNode_put.trans (if_pos rfl)

lemma getNode_put_ne (h : n ≠ m) : (r.put n node).getNode m = r.getNode m := getNode_put.trans (if_neg h)

/-- A node answers a lookup that ends at it. -/
lemma hops_answer (hnode : r.getNode n = some node) (hs : node.successor = some succ)
    (hin : inClosedInterval k node.id succ.id = true) : r.hops k (left + 1) n = some succ := by
  rw [hops, hnode]
  dsimp only
  rw [hs]
  exact if_pos hin

/-- Any other lookup goes on at the closest preceding finger. -/
lemma hops_next (hnode : r.getNode n = some node) (hs : node.successor = some succ)
    (hin : inClosedInterval k node.id succ.id = false) (hnext : node.closestPrecedingFinger k = some next)
    (hsn : succ.id ≠ n) (hne : next.id ≠ n) : r.hops k (left + 1) n = r.hops k left next.id := by
  rw [hops, hnode]
  dsimp only
  rw [hs]
  dsimp only
  rw [hin, if_neg Bool.false_ne_true, hnext]
  exact if_neg fun h => h.elim hsn (hne ∘ Eq.symm)

end InProcessRpc

namespace ChordNode

variable {self : ChordNode} {ask : NodeId → NodeId → Option NodeInfo} {succ next : NodeInfo} {store : Std.ExtTreeMap NodeId Bytes}

lemma findSuccessor_answer (hs : self.successor = some succ) (hin : inClosedInterval k self.id succ.id = true) :
    self.findSuccessor ask k = some succ := by
  rw [findSuccessor, hs]
  exact if_pos hin

lemma findSuccessor_next (hs : self.successor = some succ) (hin : inClosedInterval k self.id succ.id = false)
    (hnext : self.closestPrecedingFinger k = some next) (hne : next.id ≠ self.id) :
    self.findSuccessor ask k = ask next.id k := by
  rw [findSuccessor, hs]
  dsimp only
  rw [hin, if_neg Bool.false_ne_true, hnext]
  exact if_neg hne

/-- Lookups do not read the store. -/
lemma closestPrecedingFinger_store :
    { self with store := store }.closestPrecedingFinger k = self.closestPrecedingFinger k := by
  have hscan : ∀ i, { self with store := store }.scan k i = self.scan k i := by
    intro i
    induction i with
    | zero => rfl
    | succ i ih => rw [scan, scan, ih]
  rw [closestPrecedingFinger, closestPrecedingFinger, hscan]

end ChordNode

lemma InProcessRpc.hops_store {r : InProcessRpc} {n m : NodeId} {node : ChordNode} {store : Std.ExtTreeMap NodeId Bytes}
    (hnode : r.getNode n = some node) (left : Nat) :
    (r.put n { node with store := store }).hops k left m = r.hops k left m := by
  induction left generalizing m with
  | zero => rfl
  | succ left ih =>
    rw [hops, hops]
    by_cases h : n = m
    · subst h
      rw [getNode_put_self, hnode]
      dsimp only
      simp only [ChordNode.closestPrecedingFinger_store, ih]
    · rw [getNode_put_ne h]
      simp only [ih]

end IPv8Plus.Routing
