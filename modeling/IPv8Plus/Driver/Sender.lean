import IPv8Plus.Driver.Transport
import IPv8Plus.Lib.Moves

/-!
# The send side of the driver

`IPv8IoctlSend`, `IPv8SubmitSend` and `IPv8SendNetBufferListsComplete`: a SEND request takes a transmit node and goes out
in a buffer list, which NDIS hands back in a chain. The lists are a map from handles to contents, out of which a freed list
is removed. One step is what a call does in one section under `FrameLock`, or what it does between two of them. The handler
frees a list and then reads its link; what it sees there is an input.
-/

namespace IPv8Plus.Driver
open Lib

def txInflightNodes : Nat := 32

/-- A buffer list: the four words of the driver, the status, and the link to the next. -/
structure NetBufferList where
  irp : Nat
  node : Nat
  ctx : UInt32
  mdl : Nat
  sent : Bool := false
  next : Option Nat := none
  deriving DecidableEq, Repr

/-- Where the handler is in its loop. -/
inductive Phase where
  | entering (nbl : Nat)
  /-- The list is freed, and what stood in it is in the hand of the handler. -/
  | holding (nbl : Nat) (context : NetBufferList)
  /-- The link of the list is next to be read. -/
  | leaving (nbl : Nat)
  | returned
  deriving DecidableEq, Repr

/-- A call of the handler. `ahead` are the lists of its chain that come later. -/
structure Handler where
  phase : Phase
  ahead : List Nat
  deriving DecidableEq, Repr

/-- A SEND that has got a node. -/
structure Submission where
  id : Nat
  node : Nat
  ifIndex : UInt32
  deriving DecidableEq, Repr

/-- `flying` are the lists that NDIS has. From `issued` on it is a record: the requests so far and what became of them, the
requests whose lists were handed back and those whose lists were processed, and the freed lists that were read. -/
structure Sender where
  bindings : List Binding
  freeTxNodes : List Nat := List.range txInflightNodes
  nbls : Nat → Option NetBufferList := fun _ => none
  mdls : List Nat := []
  txPackets : UInt32 → UInt64 := fun _ => 0
  txDropped : UInt32 → UInt64 := fun _ => 0
  flying : List Nat := []
  submitting : List Submission := []
  handlers : List Handler := []
  issued : Nat := 0
  done : List (Nat × NtStatus) := []
  handed : List Nat := []
  processed : List Nat := []
  stale : List Nat := []

/-- The steps. Allocation may fail. NDIS hands back a chain, with what became of each list. `seen` is what the handler
takes for the next list. -/
inductive SendAction where
  | submit (systemBuffer : Bytes)
  | allocate (k : Nat) (mdl nbl : Option Nat)
  | handBack (chain : List (Nat × Bool))
  | freeList (j : Nat)
  | putNode (j : Nat)
  | advance (j : Nat) (seen : Option Nat)
  deriving DecidableEq, Repr

/-- The call of the handler for a chain. -/
def Handler.enter : List Nat → Handler
  | [] => ⟨.returned, []⟩
  | h :: ahead => ⟨.entering h, ahead⟩

/-- The lists that a call of the handler still has to process. -/
def Handler.lists (x : Handler) : List Nat :=
  match x.phase with
  | .entering h => h :: x.ahead
  | _ => x.ahead

/-- What it has read out of the list that it has freed. -/
def Handler.held (x : Handler) : Option NetBufferList :=
  match x.phase with
  | .holding _ l => some l
  | _ => none

/-- The links of a chain, and what became of its lists. -/
def linkChain (nbls : Nat → Option NetBufferList) : List (Nat × Bool) → Nat → Option NetBufferList
  | [] => nbls
  | (h, sent) :: rest =>
    Function.update (linkChain nbls rest) h ((nbls h).map fun l => { l with sent, next := rest.head?.map Prod.fst })

namespace Sender

def count (counter : UInt32 → UInt64) (ifIndex : UInt32) : UInt32 → UInt64 :=
  fun i => if i = ifIndex then counter i + 1 else counter i

/-- `IoCompleteRequest` -/
def complete (s : Sender) (id : Nat) (status : NtStatus) : Sender × Option (Nat × NtStatus) :=
  ({ s with done := s.done ++ [(id, status)] }, some (id, status))

/-- `IPv8IoctlSend`, up to the node. -/
def submit (s : Sender) (systemBuffer : Bytes) : Sender × Option (Nat × NtStatus) :=
  let id := s.issued
  let s := { s with issued := s.issued + 1 }
  match ioctlSend s.bindings s.freeTxNodes.length true systemBuffer, s.freeTxNodes with
  | .ok _, n :: rest =>
    ({ s with freeTxNodes := rest, submitting := s.submitting ++ [⟨id, n, wordAt systemBuffer 4⟩] }, none)
  | .ok _, [] => s.complete id .deviceBusy
  | .error status, _ =>
    let txDropped := if status = .deviceBusy then count s.txDropped (wordAt systemBuffer 4) else s.txDropped
    { s with txDropped }.complete id status

/-- A list of its own for a submission; then it is with NDIS. -/
def fly (s : Sender) (k : Nat) (x : Submission) (m h : Nat) : Sender :=
  { s with
    submitting := s.submitting.eraseIdx k
    mdls := s.mdls ++ [m]
    nbls := Function.update s.nbls h (some { irp := x.id, node := x.node, ctx := x.ifIndex, mdl := m })
    flying := s.flying ++ [h] }

/-- The rest of `IPv8SubmitSend`. No allocator gives out what is in use. -/
def allocate (s : Sender) (k : Nat) (mdl nbl : Option Nat) : Sender × Option (Nat × NtStatus) :=
  match s.submitting[k]? with
  | none => (s, none)
  | some x =>
    match mdl, nbl with
    | some m, some h =>
      if m ∈ s.mdls ∨ (s.nbls h).isSome then (s, none)
      else (s.fly k x m h, none)
    | _, _ =>
      { s with
        submitting := s.submitting.eraseIdx k
        freeTxNodes := s.freeTxNodes ++ [x.node]
        txDropped := count s.txDropped x.ifIndex }.complete x.id .insufficientResources

/-- A chain goes to the handler. -/
def land (s : Sender) (chain : List (Nat × Bool)) : Sender :=
  { s with
    flying := s.flying.filter fun h => h ∉ chain.map Prod.fst
    nbls := linkChain s.nbls chain
    handlers := s.handlers ++ [.enter (chain.map Prod.fst)]
    handed := s.handed ++ (chain.map Prod.fst).filterMap fun h => (s.nbls h).map NetBufferList.irp }

/-- NDIS hands back lists that it has, each of them once. -/
def handBack (s : Sender) (chain : List (Nat × Bool)) : Sender × Option (Nat × NtStatus) :=
  if (chain.map Prod.fst).Nodup ∧ ∀ h ∈ chain.map Prod.fst, h ∈ s.flying then (s.land chain, none) else (s, none)

/-- A call of the handler goes on. -/
def go (s : Sender) (j : Nat) (x : Handler) : Sender := { s with handlers := s.handlers.set j x }

/-- The list with these fields is freed, and its MDL. -/
def take (s : Sender) (j h : Nat) (l : NetBufferList) (ahead : List Nat) : Sender :=
  { s.go j ⟨.holding h l, ahead⟩ with
    nbls := Function.update s.nbls h none
    mdls := s.mdls.erase l.mdl
    processed := s.processed ++ [l.irp] }

/-- The fields of a list are read before it is freed. -/
def freeList (s : Sender) (j : Nat) : Sender × Option (Nat × NtStatus) :=
  match s.handlers[j]? with
  | some ⟨.entering h, ahead⟩ =>
    match s.nbls h with
    | some l => (s.take j h l ahead, none)
    | none => ({ s.go j ⟨.returned, ahead⟩ with stale := s.stale ++ [h] }, none)
  | _ => (s, none)

/-- The node goes back, and the request is done. -/
def putNode (s : Sender) (j : Nat) : Sender × Option (Nat × NtStatus) :=
  match s.handlers[j]? with
  | some ⟨.holding h l, ahead⟩ =>
    { s.go j ⟨.leaving h, ahead⟩ with
      freeTxNodes := s.freeTxNodes ++ [l.node]
      txPackets := if l.sent then count s.txPackets l.ctx else s.txPackets
      txDropped := if l.sent then s.txDropped else count s.txDropped l.ctx }.complete l.irp
        (if l.sent then .success else .unsuccessful)
  | _ => (s, none)

/-- The link of the list that has just been freed is read. -/
def advance (s : Sender) (j : Nat) (seen : Option Nat) : Sender × Option (Nat × NtStatus) :=
  match s.handlers[j]? with
  | some ⟨.leaving h, ahead⟩ =>
    let phase := match seen with
      | some h' => .entering h'
      | none => .returned
    let ahead := if seen = ahead.head? then ahead.tail else ahead
    ({ s.go j ⟨phase, ahead⟩ with stale := s.stale ++ [h] }, none)
  | _ => (s, none)

def step (s : Sender) : SendAction → Sender × Option (Nat × NtStatus)
  | .submit systemBuffer => s.submit systemBuffer
  | .allocate k mdl nbl => s.allocate k mdl nbl
  | .handBack chain => s.handBack chain
  | .freeList j => s.freeList j
  | .putNode j => s.putNode j
  | .advance j seen => s.advance j seen

/-! ## Ownership -/

/-- The lists that the handler still has to process. -/
def ahead (s : Sender) : Multiset Nat := (s.handlers : Multiset Handler).bind fun x => (x.lists : Multiset Nat)

/-- And those that NDIS has. -/
def owned (s : Sender) : Multiset Nat := s.flying + s.ahead

/-- What stands in lists. -/
def contents (s : Sender) (lists : Multiset Nat) : Multiset NetBufferList := lists.bind fun h => ((s.nbls h).toList : Multiset _)

/-- What the handler has read out of lists that it has freed. -/
def held (s : Sender) : Multiset NetBufferList :=
  (s.handlers : Multiset Handler).bind fun x => (x.held.toList : Multiset NetBufferList)

/-- What belongs to requests on their way. -/
def underWay (s : Sender) : Multiset NetBufferList := s.contents s.owned + s.held

/-- Every node is in one place, every request is done once or on its way, every list that was handed back has been
processed once or will be, and nothing was read that was freed. -/
structure Settled (s : Sender) : Prop where
  nodes : (s.freeTxNodes : Multiset Nat) + (s.submitting.map Submission.node : List Nat) +
    s.underWay.map NetBufferList.node = Multiset.range txInflightNodes
  requests : (s.done.map Prod.fst : List Nat) + (s.submitting.map Submission.id : List Nat) +
    s.underWay.map NetBufferList.irp = Multiset.range s.issued
  handed : (s.handed : Multiset Nat) = s.processed + (s.contents s.ahead).map NetBufferList.irp
  returned : ∀ x ∈ s.handlers, x.phase = .returned → x.ahead = []
  intact : s.stale = []

/-- The same for the MDLs of the lists, and every list is owned once and not freed. -/
structure Balanced (s : Sender) : Prop where
  nodes : (s.freeTxNodes : Multiset Nat) + (s.submitting.map Submission.node : List Nat) +
    s.underWay.map NetBufferList.node = Multiset.range txInflightNodes
  requests : (s.done.map Prod.fst : List Nat) + (s.submitting.map Submission.id : List Nat) +
    s.underWay.map NetBufferList.irp = Multiset.range s.issued
  handed : (s.handed : Multiset Nat) = s.processed + (s.contents s.ahead).map NetBufferList.irp
  returned : ∀ x ∈ s.handlers, x.phase = .returned → x.ahead = []
  mdls : (s.mdls : Multiset Nat) = (s.contents s.owned).map NetBufferList.mdl
  live : ∀ h ∈ s.owned, (s.nbls h).isSome
  distinct : s.owned.Nodup

variable {s : Sender} {m m' : Multiset Nat} {h k j : Nat} {l : NetBufferList} {x y : Handler}

lemma contents_add : s.contents (m + m') = s.contents m + s.contents m' := Multiset.add_bind ..

lemma contents_singleton (hget : s.nbls h = some l) : s.contents {h} = {l} := by
  unfold contents
  rw [Multiset.singleton_bind, hget]
  rfl

/-- A list that nobody looks at. -/
lemma bind_update {nbls : Nat → Option NetBufferList} {v : Option NetBufferList} (hm : h ∉ m) :
    (m.bind fun i => ((Function.update nbls h v i).toList : Multiset NetBufferList)) =
      m.bind fun i => ((nbls i).toList : Multiset NetBufferList) := by
  refine Multiset.bind_congr fun i hi => ?_
  rw [Function.update_of_ne]
  rintro rfl
  exact hm hi

/-- What does not change in lists. -/
lemma map_bind_congr {f : NetBufferList → Nat} {nbls nbls' : Nat → Option NetBufferList}
    (hf : ∀ i, (nbls' i).map f = (nbls i).map f) :
    (m.bind fun i => ((nbls' i).toList : Multiset NetBufferList)).map f =
      (m.bind fun i => ((nbls i).toList : Multiset NetBufferList)).map f := by
  rw [Multiset.map_bind, Multiset.map_bind]
  refine Multiset.bind_congr fun i _ => ?_
  have hi := congrArg (fun o : Option Nat => (o.toList : Multiset Nat)) (hf i)
  cases hnew : nbls' i with
  | none =>
    cases hold : nbls i with
    | none => rfl
    | some l =>
      rw [hnew, hold] at hi
      exact hi
  | some l' =>
    cases hold : nbls i with
    | none =>
      rw [hnew, hold] at hi
      exact hi
    | some l =>
      rw [hnew, hold] at hi
      exact hi

lemma map_linkChain {f : NetBufferList → Nat} (hf : ∀ l sent next, f { l with sent, next } = f l)
    (nbls : Nat → Option NetBufferList) (chain : List (Nat × Bool)) (i : Nat) :
    (linkChain nbls chain i).map f = (nbls i).map f := by
  induction chain with
  | nil => rfl
  | cons x rest ih =>
    obtain ⟨h, sent⟩ := x
    unfold linkChain
    by_cases hi : i = h
    · rw [hi, Function.update_self, Option.map_map]
      exact congrArg (fun g => (nbls h).map g) (funext fun l => hf l _ _)
    · rw [Function.update_of_ne hi]
      exact ih

lemma coe_filterMap (nbls : Nat → Option NetBufferList) (f : NetBufferList → Nat) (hs : List Nat) :
    ((hs.filterMap fun h => (nbls h).map f : List Nat) : Multiset Nat) =
      ((hs : Multiset Nat).bind fun h => ((nbls h).toList : Multiset NetBufferList)).map f := by
  induction hs with
  | nil => rfl
  | cons h hs ih =>
    rw [List.filterMap_cons, ← Multiset.cons_coe, Multiset.cons_bind, Multiset.map_add, ← ih]
    cases nbls h with
    | none => exact (zero_add _).symm
    | some l => rfl

@[simp] lemma lists_enter (hs : List Nat) : (Handler.enter hs).lists = hs := by
  cases hs with
  | nil => rfl
  | cons h ahead => rfl

@[simp] lemma held_enter (hs : List Nat) : (Handler.enter hs).held = none := by
  cases hs with
  | nil => rfl
  | cons h ahead => rfl

/-- A part of a list without repetitions is taken out. -/
lemma coe_filter_not_mem {flying hs : List Nat} (hflying : flying.Nodup) (hhs : hs.Nodup) (hsub : ∀ h ∈ hs, h ∈ flying) :
    ((flying.filter fun h => h ∉ hs : List Nat) : Multiset Nat) + hs = flying := by
  have hin : (flying.filter fun h => h ∈ hs).Perm hs := by
    refine (List.perm_ext_iff_of_nodup (hflying.filter _) hhs).mpr fun h => ?_
    rw [List.mem_filter, decide_eq_true_iff]
    exact ⟨And.right, fun hh => ⟨hsub h hh, hh⟩⟩
  have hsplit := List.filter_append_perm (fun h => decide (h ∈ hs)) flying
  rw [← Multiset.coe_eq_coe, ← Multiset.coe_add, Multiset.coe_eq_coe.mpr hin] at hsplit
  rw [← hsplit, add_comm]
  refine congrArg (fun l : List Nat => (hs : Multiset Nat) + l) (List.filter_congr fun h _ => ?_)
  exact decide_not

/-! ### Steps -/

/-- A call of the handler goes on. -/
structure Goes (s : Sender) (j : Nat) (x y : Handler) (rest : Multiset Handler) : Prop where
  before : (s.handlers : Multiset Handler) = {x} + rest
  after : ((s.handlers.set j y : List Handler) : Multiset Handler) = {y} + rest

lemma goes (hj : s.handlers[j]? = some x) (y : Handler) : s.Goes j x y (s.handlers.eraseIdx j : List Handler) :=
  ⟨coe_eraseIdx hj, coe_set hj y⟩

lemma bind_add_rest {β : Type} (f : Handler → Multiset β) (rest : Multiset Handler) :
    (({x} + rest : Multiset Handler).bind f) = f x + rest.bind f := by
  rw [Multiset.add_bind, Multiset.singleton_bind]

/-- Whoever has not returned. -/
lemma returned_set (hreturned : ∀ x ∈ s.handlers, x.phase = .returned → x.ahead = []) (hy : y.phase = .returned → y.ahead = []) :
    ∀ x ∈ s.handlers.set j y, x.phase = .returned → x.ahead = [] := by
  intro x hx
  cases List.mem_or_eq_of_mem_set hx with
  | inl hx => exact hreturned x hx
  | inr hx =>
    rw [hx]
    exact hy

lemma balanced_submit (b : s.Balanced) (systemBuffer : Bytes) : (s.submit systemBuffer).1.Balanced := by
  have hissued : (Multiset.range (s.issued + 1) : Multiset Nat) = {s.issued} + Multiset.range s.issued :=
    (Multiset.range_succ _).trans (Multiset.singleton_add _ _).symm
  have hrefused : ∀ txDropped status, (({ s with issued := s.issued + 1, txDropped }.complete s.issued status).1).Balanced := by
    intro txDropped status
    refine { b with requests := ?_ }
    refine Eq.trans ?_ hissued.symm
    rw [← b.requests]
    unfold complete
    rw [coe_map_concat]
    unfold underWay contents owned Sender.ahead held
    abel
  unfold submit
  dsimp only
  split
  · next n rest hfree =>
    refine { b with nodes := ?_, requests := ?_ }
    · refine Eq.trans ?_ b.nodes
      dsimp only
      rw [hfree, coe_map_concat, ← Multiset.cons_coe, ← Multiset.singleton_add]
      unfold underWay contents owned Sender.ahead held
      abel
    · refine Eq.trans ?_ hissued.symm
      rw [← b.requests]
      dsimp only
      rw [coe_map_concat]
      unfold underWay contents owned Sender.ahead held
      abel
  · exact hrefused s.txDropped _
  · exact hrefused _ _

/-- A new list goes out. -/
lemma balanced_fly {x : Submission} {i : Nat} (b : s.Balanced) (hk : s.submitting[k]? = some x) (hfree : s.nbls h = none) :
    (s.fly k x i h).Balanced := by
  have hnew : h ∉ s.owned := by
    intro hmem
    have hlive := b.live h hmem
    rw [hfree] at hlive
    cases hlive
  have hahead : h ∉ s.ahead := fun hmem => hnew (Multiset.mem_add.mpr (.inr hmem))
  have howned : (s.fly k x i h).owned = s.owned + {h} := by
    unfold owned fly
    rw [coe_concat]
    abel
  have hget : (s.fly k x i h).nbls h = some { irp := x.id, node := x.node, ctx := x.ifIndex, mdl := i } := Function.update_self ..
  have hcontents : (s.fly k x i h).contents (s.fly k x i h).owned =
      s.contents s.owned + {{ irp := x.id, node := x.node, ctx := x.ifIndex, mdl := i }} := by
    rw [howned, contents_add, contents_singleton hget]
    exact congrArg (· + _) (bind_update hnew)
  have hunder : (s.fly k x i h).underWay = s.underWay + {{ irp := x.id, node := x.node, ctx := x.ifIndex, mdl := i }} := by
    have hheld : (s.fly k x i h).held = s.held := rfl
    unfold underWay
    rw [hcontents, hheld]
    abel
  refine ⟨?_, ?_, ?_, b.returned, ?_, ?_, ?_⟩
  · refine Eq.trans ?_ b.nodes
    rw [hunder, Multiset.map_add, Multiset.map_singleton, coe_map_eraseIdx Submission.node hk]
    unfold fly
    abel
  · refine Eq.trans ?_ b.requests
    rw [hunder, Multiset.map_add, Multiset.map_singleton, coe_map_eraseIdx Submission.id hk]
    unfold fly
    abel
  · refine b.handed.trans (congrArg (fun c : Multiset NetBufferList => _ + c.map NetBufferList.irp) ?_)
    exact (bind_update hahead).symm
  · rw [hcontents, Multiset.map_add, Multiset.map_singleton, ← b.mdls]
    exact coe_concat s.mdls i
  · intro h' hh'
    rw [howned, Multiset.mem_add, Multiset.mem_singleton] at hh'
    by_cases heq : h' = h
    · rw [heq, hget]
      rfl
    · have hold : (s.fly k x i h).nbls h' = s.nbls h' := Function.update_of_ne heq ..
      rw [hold]
      exact b.live h' (hh'.resolve_right heq)
  · rw [howned, add_comm, Multiset.singleton_add]
    exact Multiset.nodup_cons.mpr ⟨hnew, b.distinct⟩

lemma balanced_allocate (b : s.Balanced) (mdl nbl : Option Nat) : (s.allocate k mdl nbl).1.Balanced := by
  unfold allocate
  split
  · exact b
  next x hk =>
  split
  · next _ _ i h =>
    split
    · exact b
    next hfree =>
    rw [not_or, Bool.not_eq_true, Option.isSome_eq_false_iff, Option.isNone_iff_eq_none] at hfree
    exact balanced_fly b hk hfree.2
  · refine { b with nodes := ?_, requests := ?_ }
    · refine Eq.trans ?_ b.nodes
      unfold complete underWay contents owned held
      rw [coe_concat, coe_map_eraseIdx Submission.node hk]
      abel
    · refine Eq.trans ?_ b.requests
      unfold complete underWay contents owned held
      rw [coe_map_concat, coe_map_eraseIdx Submission.id hk]
      abel

/-- Lists that NDIS has are the handler's now. -/
lemma balanced_land (b : s.Balanced) {chain : List (Nat × Bool)} (hnodup : (chain.map Prod.fst).Nodup)
    (hflying : ∀ h ∈ chain.map Prod.fst, h ∈ s.flying) : (s.land chain).Balanced := by
  have hdistinct : s.flying.Nodup := Multiset.coe_nodup.mp (Multiset.nodup_add.mp b.distinct).1
  have hahead : (s.land chain).ahead = s.ahead + (chain.map Prod.fst : List Nat) := by
    unfold ahead land
    rw [coe_concat, Multiset.add_bind, Multiset.singleton_bind, lists_enter]
  have howned : (s.land chain).owned = s.owned := by
    have hback := coe_filter_not_mem hdistinct hnodup hflying
    unfold owned
    rw [hahead]
    refine Eq.trans ?_ (congrArg (· + s.ahead) hback)
    unfold land
    abel
  have hheld : (s.land chain).held = s.held := by
    unfold held land
    rw [coe_concat, Multiset.add_bind, Multiset.singleton_bind, held_enter]
    exact add_zero _
  have hcontents : ∀ (f : NetBufferList → Nat), (∀ l sent next, f { l with sent, next } = f l) → ∀ m,
      ((s.land chain).contents m).map f = (s.contents m).map f :=
    fun f hf m => map_bind_congr (map_linkChain hf s.nbls chain)
  have hunder : ∀ (f : NetBufferList → Nat), (∀ l sent next, f { l with sent, next } = f l) →
      (s.land chain).underWay.map f = s.underWay.map f := by
    intro f hf
    unfold underWay
    rw [howned, hheld, Multiset.map_add, Multiset.map_add, hcontents f hf]
  refine ⟨?_, ?_, ?_, ?_, ?_, ?_, ?_⟩
  · rw [hunder _ fun _ _ _ => rfl]
    exact b.nodes
  · rw [hunder _ fun _ _ _ => rfl]
    exact b.requests
  · rw [hahead, hcontents _ fun _ _ _ => rfl, contents_add, Multiset.map_add, ← add_assoc]
    unfold land
    rw [← Multiset.coe_add, coe_filterMap]
    exact congrArg (· + _) b.handed
  · intro x hx
    rcases List.mem_append.mp hx with hx | hx
    · exact b.returned x hx
    · rw [List.mem_singleton.mp hx]
      cases chain with
      | nil => exact fun _ => rfl
      | cons _ _ => exact fun h => nomatch h
  · rw [howned, hcontents _ fun _ _ _ => rfl]
    exact b.mdls
  · intro h hh
    have hold := b.live h (howned ▸ hh)
    have hsame := map_linkChain (f := NetBufferList.irp) (fun _ _ _ => rfl) s.nbls chain h
    have hsome := congrArg Option.isSome hsame
    rw [Option.isSome_map, Option.isSome_map] at hsome
    exact hsome.trans hold
  · rw [howned]
    exact b.distinct

/-- The first list of a chain is processed. -/
lemma balanced_take {ahead : List Nat} (b : s.Balanced) (hj : s.handlers[j]? = some ⟨.entering h, ahead⟩)
    (hget : s.nbls h = some l) : (s.take j h l ahead).Balanced := by
  obtain ⟨hbefore, hafter⟩ := goes hj ⟨.holding h l, ahead⟩
  generalize (s.handlers.eraseIdx j : Multiset Handler) = rest at hbefore hafter
  have hahead : s.ahead = {h} + (s.take j h l ahead).ahead := by
    unfold Sender.ahead take go
    rw [hbefore, hafter, bind_add_rest, bind_add_rest, ← add_assoc]
    exact congrArg (· + _) (Multiset.singleton_add h (ahead : Multiset Nat)).symm
  have howned : s.owned = {h} + (s.take j h l ahead).owned := by
    unfold owned
    rw [hahead]
    unfold take go
    abel
  have hnot : h ∉ (s.take j h l ahead).owned := by
    have hdistinct := b.distinct
    rw [howned, Multiset.singleton_add] at hdistinct
    exact (Multiset.nodup_cons.mp hdistinct).1
  have hothers : ∀ m, h ∉ m → (s.take j h l ahead).contents m = s.contents m := fun m hm => bind_update hm
  have hcontents : s.contents s.owned = {l} + (s.take j h l ahead).contents (s.take j h l ahead).owned := by
    rw [howned, contents_add, contents_singleton hget, hothers _ hnot]
  have hheld : (s.take j h l ahead).held = {l} + s.held := by
    unfold held take go
    rw [hbefore, hafter, bind_add_rest, bind_add_rest]
    exact congrArg (fun m => ({l} : Multiset NetBufferList) + m) (zero_add _).symm
  have hunder : (s.take j h l ahead).underWay = s.underWay := by
    unfold underWay
    rw [hheld, hcontents]
    abel
  refine ⟨?_, ?_, ?_, ?_, ?_, ?_, ?_⟩
  · rw [hunder]
    exact b.nodes
  · rw [hunder]
    exact b.requests
  · have hnot' : h ∉ (s.take j h l ahead).ahead := fun hmem => hnot (Multiset.mem_add.mpr (.inr hmem))
    have hhanded := b.handed
    rw [hahead, contents_add, contents_singleton hget, Multiset.map_add, Multiset.map_singleton] at hhanded
    rw [hothers _ hnot']
    refine hhanded.trans ?_
    unfold take
    rw [coe_concat]
    abel
  · exact returned_set b.returned fun h => nomatch h
  · have hmdls := b.mdls
    rw [hcontents, Multiset.map_add, Multiset.map_singleton] at hmdls
    unfold take
    rw [← Multiset.coe_erase, hmdls, Multiset.singleton_add, Multiset.erase_cons_head]
    rfl
  · intro h' hh'
    have hne : h' ≠ h := by
      rintro rfl
      exact hnot hh'
    have hold : (s.take j h l ahead).nbls h' = s.nbls h' := Function.update_of_ne hne ..
    rw [hold]
    refine b.live h' ?_
    rw [howned]
    exact Multiset.mem_add.mpr (.inr hh')
  · have hdistinct := b.distinct
    rw [howned, Multiset.singleton_add] at hdistinct
    exact (Multiset.nodup_cons.mp hdistinct).2

lemma balanced_freeList (b : s.Balanced) : (s.freeList j).1.Balanced ∧ (s.freeList j).1.stale = s.stale := by
  unfold freeList
  split
  · next h later hj =>
    -- a list of a chain is not freed yet
    have hlive : (s.nbls h).isSome := by
      refine b.live h (Multiset.mem_add.mpr (.inr ?_))
      exact Multiset.mem_bind.mpr ⟨_, Multiset.mem_coe.mpr (List.mem_of_getElem? hj), List.mem_cons_self⟩
    split
    · next l hget => exact ⟨balanced_take b hj hget, rfl⟩
    · next hnone =>
      rw [hnone] at hlive
      cases hlive
  · exact ⟨b, rfl⟩

/-- A call of the handler goes on with the same lists. -/
lemma ahead_go (hj : s.handlers[j]? = some x) (hlists : y.lists = x.lists) : (s.go j y).ahead = s.ahead := by
  obtain ⟨hbefore, hafter⟩ := goes hj y
  unfold Sender.ahead go
  rw [hbefore, hafter, bind_add_rest, bind_add_rest, hlists]

lemma owned_go (hj : s.handlers[j]? = some x) (hlists : y.lists = x.lists) : (s.go j y).owned = s.owned := by
  unfold owned
  rw [ahead_go hj hlists]
  rfl

lemma underWay_go (hj : s.handlers[j]? = some x) (hlists : y.lists = x.lists) :
    (s.go j y).underWay + x.held.toList = s.underWay + y.held.toList := by
  have hheld : (s.go j y).held + x.held.toList = s.held + y.held.toList := by
    obtain ⟨hbefore, hafter⟩ := goes hj y
    unfold held go
    rw [hbefore, hafter, bind_add_rest, bind_add_rest]
    abel
  have hcontents : (s.go j y).contents (s.go j y).owned = s.contents s.owned := by
    rw [owned_go hj hlists]
    rfl
  unfold underWay
  rw [add_assoc, add_assoc, hheld, hcontents]

lemma balanced_putNode (b : s.Balanced) : (s.putNode j).1.Balanced := by
  unfold putNode
  split
  · next h l later hj =>
    have hsame : (Handler.mk (.leaving h) later).lists = (Handler.mk (.holding h l) later).lists := rfl
    have hunder : s.underWay = (s.go j ⟨.leaving h, later⟩).underWay + {l} := (add_zero _).symm.trans (underWay_go hj hsame).symm
    refine ⟨?_, ?_, ?_, returned_set b.returned (fun h => nomatch h), ?_, ?_, ?_⟩
    · refine Eq.trans ?_ b.nodes
      rw [hunder, Multiset.map_add, Multiset.map_singleton]
      unfold complete
      rw [coe_concat]
      exact (congrArg (· + _) (add_right_comm _ _ _)).trans ((add_assoc _ _ _).trans (congrArg (_ + ·) (add_comm _ _)))
    · refine Eq.trans ?_ b.requests
      rw [hunder, Multiset.map_add, Multiset.map_singleton]
      unfold complete
      rw [coe_map_concat]
      exact (congrArg (· + _) (add_right_comm _ _ _)).trans ((add_assoc _ _ _).trans (congrArg (_ + ·) (add_comm _ _)))
    · refine b.handed.trans ?_
      rw [← ahead_go hj hsame]
      rfl
    · refine b.mdls.trans ?_
      rw [← owned_go hj hsame]
      rfl
    · intro h' hh'
      have howned : h' ∈ (s.go j ⟨.leaving h, later⟩).owned := hh'
      rw [owned_go hj hsame] at howned
      exact b.live h' howned
    · have howned : (s.go j ⟨.leaving h, later⟩).owned.Nodup := by
        rw [owned_go hj hsame]
        exact b.distinct
      exact howned
  · exact b

/-- What the handler takes for the next list is the one that comes next in its chain. -/
def SeesNext (s : Sender) : SendAction → Prop
  | .advance j seen => ∀ h later, s.handlers[j]? = some ⟨.leaving h, later⟩ → seen = later.head?
  | _ => True

lemma balanced_advance (b : s.Balanced) {seen : Option Nat} (hnext : s.SeesNext (.advance j seen)) :
    (s.advance j seen).1.Balanced := by
  unfold advance
  split
  · next h later hj =>
    have hseen := hnext h later hj
    rw [if_pos hseen]
    -- the next list is processed, or there is none
    generalize hphase : (match seen with
      | some h' => Phase.entering h'
      | none => .returned) = phase
    have hkeep : (Handler.mk phase later.tail).lists = later ∧ (Handler.mk phase later.tail).held = none ∧
        (phase = .returned → later.tail = []) := by
      cases later with
      | nil =>
        rw [← hphase, hseen]
        exact ⟨rfl, rfl, fun _ => rfl⟩
      | cons h' later =>
        rw [← hphase, hseen]
        exact ⟨rfl, rfl, fun h => nomatch h⟩
    obtain ⟨hlists, hheld, hreturned⟩ := hkeep
    have hsame : (Handler.mk phase later.tail).lists = (Handler.mk (.leaving h) later).lists := hlists
    have hunder : (s.go j ⟨phase, later.tail⟩).underWay = s.underWay := by
      have hgo := underWay_go hj hsame
      rw [hheld] at hgo
      exact (add_zero _).symm.trans (hgo.trans (add_zero _))
    refine ⟨?_, ?_, ?_, returned_set b.returned hreturned, ?_, ?_, ?_⟩
    · refine Eq.trans ?_ b.nodes
      rw [← hunder]
      rfl
    · refine Eq.trans ?_ b.requests
      rw [← hunder]
      rfl
    · refine b.handed.trans ?_
      rw [← ahead_go hj hsame]
      rfl
    · refine b.mdls.trans ?_
      rw [← owned_go hj hsame]
      rfl
    · intro h' hh'
      have howned : h' ∈ (s.go j ⟨phase, later.tail⟩).owned := hh'
      rw [owned_go hj hsame] at howned
      exact b.live h' howned
    · have howned : (s.go j ⟨phase, later.tail⟩).owned.Nodup := by
        rw [owned_go hj hsame]
        exact b.distinct
      exact howned
  · exact b

lemma balanced_step (b : s.Balanced) {a : SendAction} (hnext : s.SeesNext a) : (s.step a).1.Balanced := by
  cases a with
  | submit systemBuffer => exact balanced_submit b systemBuffer
  | allocate k mdl nbl => exact balanced_allocate b mdl nbl
  | handBack chain =>
    have hstep : s.step (.handBack chain) = s.handBack chain := rfl
    rw [hstep]
    unfold handBack
    split
    · next hchain => exact balanced_land b hchain.1 hchain.2
    · exact b
  | freeList j => exact (balanced_freeList b).1
  | putNode j => exact balanced_putNode b
  | advance j seen => exact balanced_advance b hnext

/-! ## Runs -/

/-- The driver as it is loaded. -/
def start (bindings : List Binding) : Sender := { bindings }

lemma balanced_start (bindings : List Binding) : (start bindings).Balanced where
  nodes := rfl
  requests := rfl
  handed := rfl
  returned := by
    intro x hx
    cases hx
  mdls := rfl
  live := by
    intro h hh
    cases hh
  distinct := Multiset.nodup_zero

/-- The handler reads the link of a list that it has freed. -/
def ReadsFreed (s : Sender) : SendAction → Prop
  | .advance j _ => ∃ h later, s.handlers[j]? = some ⟨.leaving h, later⟩
  | _ => False

/-- The freed lists that are read in a step. -/
def readsOf (s : Sender) : SendAction → List Nat
  | .advance j _ => match s.handlers[j]? with
    | some ⟨.leaving h, _⟩ => [h]
    | _ => []
  | .freeList j => match s.handlers[j]? with
    | some ⟨.entering h, _⟩ => if (s.nbls h).isSome then [] else [h]
    | _ => []
  | _ => []

lemma stale_step (s : Sender) (a : SendAction) : (s.step a).1.stale = s.stale ++ s.readsOf a := by
  cases a with
  | submit systemBuffer =>
    have hstep : (s.step (.submit systemBuffer)).1 = (s.submit systemBuffer).1 := rfl
    rw [hstep]
    unfold submit
    dsimp only
    split
    · exact (List.append_nil _).symm
    · exact (List.append_nil _).symm
    · exact (List.append_nil _).symm
  | allocate k mdl nbl =>
    have hstep : (s.step (.allocate k mdl nbl)).1 = (s.allocate k mdl nbl).1 := rfl
    rw [hstep]
    unfold allocate
    split
    · exact (List.append_nil _).symm
    split
    · split
      · exact (List.append_nil _).symm
      · exact (List.append_nil _).symm
    · exact (List.append_nil _).symm
  | handBack chain =>
    have hstep : (s.step (.handBack chain)).1 = (s.handBack chain).1 := rfl
    rw [hstep]
    unfold handBack
    split
    · exact (List.append_nil _).symm
    · exact (List.append_nil _).symm
  | freeList j =>
    have hstep : (s.step (.freeList j)).1 = (s.freeList j).1 := rfl
    rw [hstep]
    unfold freeList readsOf
    dsimp only
    split
    · next h later hj =>
      cases s.nbls h with
      | some l => exact (List.append_nil _).symm
      | none => rfl
    · exact (List.append_nil _).symm
  | putNode j =>
    have hstep : (s.step (.putNode j)).1 = (s.putNode j).1 := rfl
    rw [hstep]
    unfold putNode
    split
    · exact (List.append_nil _).symm
    · exact (List.append_nil _).symm
  | advance j seen =>
    have hstep : (s.step (.advance j seen)).1 = (s.advance j seen).1 := rfl
    rw [hstep]
    unfold advance readsOf
    dsimp only
    split
    · rfl
    · exact (List.append_nil _).symm

lemma stale_run (actions : List SendAction) : s.stale <+: (run step s actions).1.stale := by
  induction actions generalizing s with
  | nil => exact List.prefix_refl _
  | cons a actions ih =>
    have hstep := stale_step s a
    exact List.IsPrefix.trans ⟨_, hstep.symm⟩ ih

/-- While the books balance, only the link of a freed list is read too late. -/
lemma readsOf_eq_nil (b : s.Balanced) {a : SendAction} : s.readsOf a = [] ↔ ¬ s.ReadsFreed a := by
  cases a with
  | advance j seen =>
    unfold readsOf ReadsFreed
    dsimp only
    split
    · next h later hj => exact iff_of_false (List.cons_ne_nil h []) (not_not.mpr ⟨h, later, hj⟩)
    · next hno => exact iff_of_true rfl fun ⟨h, later, hj⟩ => hno h later hj
  | freeList j =>
    refine iff_of_true ?_ fun h => h
    have hstale := (balanced_freeList (j := j) b).2
    have hstep := stale_step s (.freeList j)
    exact List.append_right_eq_self.mp (hstep.symm.trans hstale)
  | submit systemBuffer => exact iff_of_true rfl fun h => h
  | allocate k mdl nbl => exact iff_of_true rfl fun h => h
  | handBack chain => exact iff_of_true rfl fun h => h
  | putNode j => exact iff_of_true rfl fun h => h

lemma seesNext_of_not (a : SendAction) (h : ¬ s.ReadsFreed a) : s.SeesNext a := by
  cases a with
  | advance j seen => exact fun i later hj => absurd ⟨i, later, hj⟩ h
  | submit systemBuffer => trivial
  | allocate k mdl nbl => trivial
  | handBack chain => trivial
  | freeList j => trivial
  | putNode j => trivial

/-- If the handler sees the next list of its chain in each freed one, then nothing is lost and nothing comes twice. -/
theorem balanced_of_seesNext (bindings : List Binding) {actions : List SendAction}
    (hnext : Along step SeesNext (start bindings) actions) : (run step (start bindings) actions).1.Balanced :=
  invariant_run (I := Balanced) (fun _ _ b hnext => balanced_step b hnext) (balanced_start bindings) hnext

lemma intact_iff (b : s.Balanced) (hintact : s.stale = []) (actions : List SendAction) :
    (run step s actions).1.stale = [] ↔ Along step (fun s a => ¬ s.ReadsFreed a) s actions := by
  induction actions generalizing s with
  | nil => exact iff_of_true hintact trivial
  | cons a actions ih =>
    have hstep := stale_step s a
    rw [hintact, List.nil_append] at hstep
    rw [along_cons]
    by_cases hreads : s.ReadsFreed a
    · -- what is read once stays on the record
      refine iff_of_false ?_ fun h => h.1 hreads
      intro hnil
      have hprefix := @stale_run (s.step a).1 actions
      have hfinal : (run step (s.step a).1 actions).1.stale = [] := hnil
      rw [hfinal, List.prefix_nil, hstep] at hprefix
      exact (readsOf_eq_nil b).mp hprefix hreads
    · have hnext := ih (balanced_step b (seesNext_of_not a hreads)) (hstep.trans ((readsOf_eq_nil b).mpr hreads))
      exact ⟨fun h => ⟨hreads, hnext.mp h⟩, fun h => hnext.mpr h.2⟩

/-- In every run nodes, requests and lists are kept exactly and nothing is read that was freed, exactly if no call of the
handler goes on from a list to the next. -/
theorem settled_iff (bindings : List Binding) (actions : List SendAction) :
    (run step (start bindings) actions).1.Settled ↔ Along step (fun s a => ¬ s.ReadsFreed a) (start bindings) actions := by
  have hintact := intact_iff (balanced_start bindings) rfl actions
  constructor
  · intro h
    exact hintact.mp h.intact
  · intro h
    have b := balanced_of_seesNext bindings (h.mono fun _ a hnot => seesNext_of_not a hnot)
    exact ⟨b.nodes, b.requests, b.handed, b.returned, hintact.mpr h⟩

/-- Two requests go out, and NDIS hands both lists back in one chain. The freed memory is cleared. -/
def sampleSends : List SendAction :=
  let frame := l2BuildSendFrame 1 broadcast [1, 2, 3]
  [.submit frame, .submit frame, .allocate 0 (some 0) (some 4), .allocate 0 (some 1) (some 5),
    .handBack [(4, true), (5, true)], .freeList 0, .putNode 0, .advance 0 none]

/-- The link of the freed list 4 is read, and list 5 is not processed. -/
theorem reads_freed : let s := (run step (start [{ ifIndex := 1 }]) sampleSends).1
    ¬ s.Settled ∧ s.stale = [4] ∧ s.handed = [0, 1] ∧ s.processed = [0] := by
  have hstale : (run step (start [{ ifIndex := 1 }]) sampleSends).1.stale = [4] := by decide +kernel
  refine ⟨?_, hstale, by decide +kernel, by decide +kernel⟩
  intro h
  cases h.intact.symm.trans hstale

end Sender

end IPv8Plus.Driver
