import IPv8Plus.Driver.Capacity
import IPv8Plus.Lib.Moves

/-!
# The pool of receive nodes

The receive channel with its nodes: a node is in the list of the free ones, in the queue of frames or in the hand of a
call, and what it holds stands in memory. Requests and frames have numbers, and what has become of them is recorded
beside the state; no step reads the record. `conserved` says that no node, request or frame is lost or comes twice, and
`step_channel` that this is the channel.
-/

namespace IPv8Plus.Driver
open Lib

/-- A RECV request with its number. -/
structure Request where
  id : Nat
  irp : Irp
  deriving DecidableEq, Repr

/-- A frame that has come in, with its number. -/
structure Frame where
  id : Nat
  node : FrameNode
  deriving DecidableEq, Repr

def Frame.ifIndex (f : Frame) : UInt32 := f.node.ifIndex

/-- A request that is done, and the frame that it got. -/
structure Done where
  request : Request
  completed : Completed
  frame : Option Frame
  deriving DecidableEq, Repr

/-- The answer carries the frame, or there is none. -/
def Done.Sound (d : Done) : Prop :=
  match d.frame with
  | some f => d.completed = d.request.irp.fill f.node
  | none => d.completed.status ≠ .success

/-- `nodes` is what the nodes of `RxBlock` hold. The calls in progress are those of the channel, with the nodes in their
hands. From `issued` on it is the record: requests and frames so far, `entered` and `left` for the queue of frames, and
`rejected` for the interfaces of frames that failed a check. -/
structure Pool where
  bindings : List Binding
  nodes : Nat → Frame := fun _ => ⟨0, 0, []⟩
  freeRxNodes : List Nat := List.range rxQueueNodes
  frameQueue : List Nat := []
  pendingReads : List Request := []
  rxDropped : UInt32 → UInt64 := fun _ => 0
  returning : List (Request × Nat) := []
  inserting : List Request := []
  arriving : List Frame := []
  placing : List (Frame × Nat) := []
  issued : Nat := 0
  done : List Done := []
  accepted : List Frame := []
  dropped : List Frame := []
  rejected : List UInt32 := []
  entered : List Frame := []
  left : List Frame := []

/-- The steps of the channel, and a round of `IPv8CancelAllPendingReads`. -/
inductive PoolAction where
  | call (a : Action)
  | cancelAllPendingReads
  deriving DecidableEq, Repr

namespace Pool

def countDropped (s : Pool) (ifIndex : UInt32) : UInt32 → UInt64 :=
  fun i => if i = ifIndex then s.rxDropped i + 1 else s.rxDropped i

/-- A frame that failed a check. -/
def reject (s : Pool) (ifIndex : UInt32) : Pool :=
  { s with rxDropped := s.countDropped ifIndex, rejected := s.rejected ++ [ifIndex] }

def drop (s : Pool) (f : Frame) : Pool :=
  { s with rxDropped := s.countDropped f.ifIndex, dropped := s.dropped ++ [f] }

/-- `IoCompleteRequest` -/
def complete (s : Pool) (r : Request) (c : Completed) (frame : Option Frame) : Pool × Option Completed :=
  ({ s with done := s.done ++ [⟨r, c, frame⟩] }, some c)

/-- The nodes with a frame that a request for this interface takes. -/
def wanted (s : Pool) (ifIndex : UInt32) (n : Nat) : Bool := ifIndex = ifIndexAny ∨ (s.nodes n).ifIndex = ifIndex

def takes (m : CsqMatch) (r : Request) : Bool := m.takes r.irp

/-- `IPv8IoctlRecv` -/
def recv (s : Pool) (irp : Irp) : Pool × Option Completed :=
  let r : Request := ⟨s.issued, irp⟩
  let s := { s with issued := s.issued + 1 }
  match irp.recvIn with
  | .error status => s.complete r (irp.fail status) none
  | .ok ifIndex =>
    match s.frameQueue.find? (s.wanted ifIndex) with
    | some n =>
      ({ s with
          frameQueue := s.frameQueue.eraseP (s.wanted ifIndex)
          returning := s.returning ++ [(r, n)]
          left := s.left ++ [s.nodes n] }, none)
    | none => ({ s with inserting := s.inserting ++ [⟨r.id, { irp with ifIndex }⟩] }, none)

/-- The frame has been copied out of the node before this goes back. -/
def recvReturn (s : Pool) (k : Nat) : Pool × Option Completed :=
  match s.returning[k]? with
  | some (r, n) =>
    { s with returning := s.returning.eraseIdx k, freeRxNodes := s.freeRxNodes ++ [n] }.complete r
      (r.irp.fill (s.nodes n).node) (some (s.nodes n))
  | none => (s, none)

def recvInsert (s : Pool) (k : Nat) : Pool × Option Completed :=
  match s.inserting[k]? with
  | some r => ({ s with inserting := s.inserting.eraseIdx k, pendingReads := s.pendingReads ++ [r] }, none)
  | none => (s, none)

/-- A frame that passed the checks is handed to a waiting request, or it is to be queued. -/
def accept (s : Pool) (node : FrameNode) (mapped : Bool) : Pool × Option Completed :=
  let f : Frame := ⟨s.accepted.length, node⟩
  let s := { s with accepted := s.accepted ++ [f] }
  match s.pendingReads.find? (takes (.byIfIndex node.ifIndex)) with
  | some r =>
    let s := { s with pendingReads := s.pendingReads.eraseP (takes (.byIfIndex node.ifIndex)) }
    let c := Channel.handOver r.irp node mapped
    if c.status = .success then s.complete r c (some f) else (s.drop f).complete r c none
  | none => ({ s with arriving := s.arriving ++ [f] }, none)

/-- `IPv8IndicateOneFrame` -/
def indicate (s : Pool) (ifIndex : UInt32) (frame : Bytes) (hdrMapped mapped : Bool) : Pool × Option Completed :=
  if ¬ Channel.FrameFits frame then (s.reject ifIndex, none)
  else if ¬ hdrMapped ∨ frame.getD 12 0 ≠ 0xFB ∨ frame.getD 13 0 ≠ 0x14 then (s.reject ifIndex, none)
  else s.accept ⟨ifIndex, frame⟩ mapped

/-- `IPv8InjectRx` -/
def inject (s : Pool) (ifIndex : UInt32) (frame : Bytes) : Pool × Option Completed :=
  if ¬ Channel.FrameFits frame then (s, none)
  else if lookupBinding s.bindings ifIndex = none then (s, none)
  else s.accept ⟨ifIndex, frame⟩ true

def takeNode (s : Pool) (k : Nat) : Pool × Option Completed :=
  match s.arriving[k]? with
  | some f =>
    let s := { s with arriving := s.arriving.eraseIdx k }
    match s.freeRxNodes with
    | [] => (s.drop f, none)
    | n :: rest => ({ s with freeRxNodes := rest, placing := s.placing ++ [(f, n)] }, none)
  | none => (s, none)

/-- The frame is copied into its node, and this is queued. -/
def putNode (s : Pool) (k : Nat) : Pool × Option Completed :=
  match s.placing[k]? with
  | some (f, n) =>
    ({ s with
        nodes := Function.update s.nodes n f
        placing := s.placing.eraseIdx k
        frameQueue := s.frameQueue ++ [n]
        entered := s.entered ++ [f] }, none)
  | none => (s, none)

def dropNode (s : Pool) (k : Nat) : Pool × Option Completed :=
  match s.placing[k]? with
  | some (f, n) => ({ s.drop f with placing := s.placing.eraseIdx k, freeRxNodes := s.freeRxNodes ++ [n] }, none)
  | none => (s, none)

def cancel (s : Pool) (k : Nat) : Pool × Option Completed :=
  match s.pendingReads[k]? with
  | some r => { s with pendingReads := s.pendingReads.eraseIdx k }.complete r (r.irp.fail .cancelled) none
  | none => (s, none)

/-- One round of the loop of CLEANUP. -/
def cleanup (s : Pool) (fileObject : Nat) : Pool × Option Completed :=
  match s.pendingReads.find? (takes (.byFileObject fileObject)) with
  | some r =>
    { s with pendingReads := s.pendingReads.eraseP (takes (.byFileObject fileObject)) }.complete r (r.irp.fail .cancelled) none
  | none => (s, none)

def cancelAllPendingReads (s : Pool) : Pool × Option Completed :=
  match s.pendingReads with
  | r :: rest => { s with pendingReads := rest }.complete r (r.irp.fail .deviceRemoved) none
  | [] => (s, none)

def step (s : Pool) : PoolAction → Pool × Option Completed
  | .call (.recv irp) => s.recv irp
  | .call (.recvReturn k) => s.recvReturn k
  | .call (.recvInsert k) => s.recvInsert k
  | .call (.indicate ifIndex frame hdrMapped mapped) => s.indicate ifIndex frame hdrMapped mapped
  | .call (.inject ifIndex frame) => s.inject ifIndex frame
  | .call (.takeNode k) => s.takeNode k
  | .call (.putNode k) => s.putNode k
  | .call (.dropNode k) => s.dropNode k
  | .call (.cancel k) => s.cancel k
  | .call (.cleanup fileObject) => s.cleanup fileObject
  | .cancelAllPendingReads => s.cancelAllPendingReads

/-! ## Conservation -/

/-- Where the nodes are. -/
def places (s : Pool) : Multiset Nat :=
  s.freeRxNodes + s.frameQueue + (s.returning.map Prod.snd : List Nat) + (s.placing.map Prod.snd : List Nat)

/-- The requests that are done, and those that are not. -/
def requests (s : Pool) : Multiset Nat :=
  (s.done.map fun d => d.request.id : List Nat) + (s.pendingReads.map Request.id : List Nat) +
    (s.returning.map fun x => x.1.id : List Nat) + (s.inserting.map Request.id : List Nat)

/-- The frames that requests got, those that were dropped, and those in the queue and in hands. -/
def frames (s : Pool) : Multiset Frame :=
  (s.done.filterMap Done.frame : List Frame) + (s.dropped : Multiset Frame) + (s.frameQueue.map s.nodes : List Frame) +
    (s.returning.map fun x => s.nodes x.2 : List Frame) + (s.arriving : Multiset Frame) +
    (s.placing.map Prod.fst : List Frame)

/-- The frames of one interface. -/
def ofIf (ifIndex : UInt32) (frames : List Frame) : List Frame := frames.filter fun f => f.ifIndex = ifIndex

/-- Nothing is lost, and nothing comes twice. -/
structure Conserved (s : Pool) : Prop where
  /-- Every node is in one place. -/
  nodes : s.places = Multiset.range rxQueueNodes
  /-- Every request is done once, or pending. -/
  requests : s.requests = Multiset.range s.issued
  /-- Every frame has gone to one request, is queued or in hand, or was dropped. -/
  frames : s.frames = (s.accepted : Multiset Frame)
  numbers : s.accepted.map Frame.id = List.range s.accepted.length
  given : ∀ d ∈ s.done, d.Sound
  /-- Every frame that was dropped is counted once, with those that failed a check. -/
  counted : ∀ i, s.rxDropped i = UInt64.ofNat ((ofIf i s.dropped).length + s.rejected.count i)
  /-- The frames of an interface leave the queue in the order in which they have entered it. -/
  order : ∀ i, ofIf i s.entered = ofIf i s.left ++ ofIf i (s.frameQueue.map s.nodes)

/-- The same while a step holds some nodes, requests and frames. -/
structure Holding (s : Pool) (ns rs : Multiset Nat) (fs : Multiset Frame) : Prop where
  nodes : s.places + ns = Multiset.range rxQueueNodes
  requests : s.requests + rs = Multiset.range s.issued
  frames : s.frames + fs = (s.accepted : Multiset Frame)
  numbers : s.accepted.map Frame.id = List.range s.accepted.length
  given : ∀ d ∈ s.done, d.Sound
  counted : ∀ i, s.rxDropped i = UInt64.ofNat ((ofIf i s.dropped).length + s.rejected.count i)
  order : ∀ i, ofIf i s.entered = ofIf i s.left ++ ofIf i (s.frameQueue.map s.nodes)

variable {s : Pool} {ns rs : Multiset Nat} {fs : Multiset Frame} {r : Request} {c : Completed} {f : Frame} {n k : Nat}

lemma conserved_iff : s.Conserved ↔ s.Holding 0 0 0 := by
  constructor
  · intro h
    exact ⟨(add_zero _).trans h.nodes, (add_zero _).trans h.requests, (add_zero _).trans h.frames, h.numbers, h.given, h.counted,
      h.order⟩
  · intro h
    exact ⟨(add_zero _).symm.trans h.nodes, (add_zero _).symm.trans h.requests, (add_zero _).symm.trans h.frames, h.numbers,
      h.given, h.counted, h.order⟩

lemma wanted_iff {ifIndex : UInt32} : s.wanted ifIndex n = true ↔ ifIndex = ifIndexAny ∨ (s.nodes n).ifIndex = ifIndex :=
  decide_eq_true_iff

lemma ofIf_append (i : UInt32) (l l' : List Frame) : ofIf i (l ++ l') = ofIf i l ++ ofIf i l' := List.filter_append ..

lemma ofIf_of_eq {i : UInt32} (h : f.ifIndex = i) : ofIf i [f] = [f] := List.filter_cons_of_pos (decide_eq_true h)

lemma ofIf_of_ne {i : UInt32} (h : f.ifIndex ≠ i) : ofIf i [f] = [] :=
  List.filter_cons_of_neg fun heq => h (of_decide_eq_true heq)

/-! ### What a step takes and puts -/

namespace Holding

lemma complete {frame : Option Frame} (h : s.Holding ns ({r.id} + rs) (frame.toList + fs)) (hsound : Done.Sound ⟨r, c, frame⟩) :
    (s.complete r c frame).1.Holding ns rs fs := by
  refine { h with requests := ?_, frames := ?_, given := ?_ }
  · refine Eq.trans ?_ h.requests
    unfold Pool.complete Pool.requests
    rw [coe_map_concat]
    abel
  · refine Eq.trans ?_ h.frames
    unfold Pool.complete Pool.frames
    rw [List.filterMap_append, ← Multiset.coe_add]
    have hlast : [Done.mk r c frame].filterMap Done.frame = frame.toList := by
      cases frame with
      | none => rfl
      | some f => rfl
    rw [hlast]
    abel
  · intro d hd
    rcases List.mem_append.mp hd with hd | hd
    · exact h.given d hd
    · cases List.mem_singleton.mp hd
      exact hsound

lemma drop (h : s.Holding ns rs ({f} + fs)) : (s.drop f).Holding ns rs fs := by
  refine { h with frames := ?_, counted := ?_ }
  · refine Eq.trans ?_ h.frames
    unfold Pool.drop Pool.frames
    rw [coe_concat]
    abel
  · intro i
    have hcount := h.counted i
    unfold Pool.drop Pool.countDropped
    dsimp only
    rw [ofIf_append, List.length_append, hcount]
    by_cases hi : f.ifIndex = i
    · rw [if_pos hi.symm, ofIf_of_eq hi, List.length_singleton, Nat.add_right_comm, UInt64.ofNat_add _ 1]
      rfl
    · rw [if_neg (Ne.symm hi), ofIf_of_ne hi, List.length_nil, Nat.add_zero]

lemma reject (h : s.Holding ns rs fs) (i : UInt32) : (s.reject i).Holding ns rs fs := by
  refine { h with counted := ?_ }
  intro j
  have hcount := h.counted j
  unfold Pool.reject Pool.countDropped
  dsimp only
  rw [List.count_append, List.count_singleton]
  by_cases hj : j = i
  · rw [if_pos hj, hcount, if_pos (beq_iff_eq.mpr hj.symm), ← Nat.add_assoc, UInt64.ofNat_add _ 1]
    rfl
  · rw [if_neg hj, hcount, if_neg (fun heq => hj (beq_iff_eq.mp heq).symm), Nat.add_zero]

lemma issue (h : s.Holding ns rs fs) : { s with issued := s.issued + 1 }.Holding ns ({s.issued} + rs) fs := by
  refine { h with requests := ?_ }
  have hissued : Multiset.range (s.issued + 1) = s.issued ::ₘ Multiset.range s.issued := Multiset.range_succ _
  dsimp only
  rw [hissued, ← h.requests, ← Multiset.singleton_add]
  unfold Pool.requests
  abel

lemma enter (h : s.Holding ns rs fs) (node : FrameNode) :
    { s with accepted := s.accepted ++ [Frame.mk s.accepted.length node] }.Holding ns rs ({Frame.mk s.accepted.length node} + fs) := by
  refine { h with frames := ?_, numbers := ?_ }
  · dsimp only
    rw [coe_concat, ← h.frames]
    unfold Pool.frames
    abel
  · dsimp only
    rw [List.map_append, h.numbers, List.length_append, List.length_singleton, List.range_succ]
    rfl

/-- What is held is in no list. -/
lemma not_mem (h : s.Holding ({n} + ns) rs fs) : n ∉ s.places := by
  intro hmem
  have hnodup : (s.places + ({n} + ns)).Nodup := by
    rw [h.nodes]
    exact Multiset.nodup_range _
  exact Multiset.disjoint_left.mp (Multiset.nodup_add.mp hnodup).2.2 hmem (Multiset.mem_add.mpr (.inl (Multiset.mem_singleton_self n)))

lemma not_mem_lists (h : s.Holding ({n} + ns) rs fs) : n ∉ s.frameQueue ∧ n ∉ s.returning.map Prod.snd := by
  have hfree := h.not_mem
  unfold places at hfree
  rw [Multiset.mem_add, Multiset.mem_add, Multiset.mem_add, not_or, not_or, not_or] at hfree
  obtain ⟨⟨⟨-, hqueue⟩, hreturning⟩, -⟩ := hfree
  exact ⟨fun hmem => hqueue (Multiset.mem_coe.mpr hmem), fun hmem => hreturning (Multiset.mem_coe.mpr hmem)⟩

lemma toFree (h : s.Holding ({n} + ns) rs fs) : { s with freeRxNodes := s.freeRxNodes ++ [n] }.Holding ns rs fs := by
  refine { h with nodes := ?_ }
  refine Eq.trans ?_ h.nodes
  unfold places
  rw [coe_concat]
  abel

lemma ofFree {rest : List Nat} (h : s.Holding ns rs fs) (hfree : s.freeRxNodes = n :: rest) :
    { s with freeRxNodes := rest }.Holding ({n} + ns) rs fs := by
  refine { h with nodes := ?_ }
  refine Eq.trans ?_ h.nodes
  unfold places
  rw [hfree, ← Multiset.cons_coe, ← Multiset.singleton_add]
  abel

lemma toReturning (h : s.Holding ({n} + ns) ({r.id} + rs) ({s.nodes n} + fs)) :
    { s with returning := s.returning ++ [(r, n)] }.Holding ns rs fs := by
  refine { h with nodes := ?_, requests := ?_, frames := ?_ }
  · refine Eq.trans ?_ h.nodes
    unfold places
    rw [coe_map_concat]
    abel
  · refine Eq.trans ?_ h.requests
    unfold Pool.requests
    rw [coe_map_concat]
    abel
  · refine Eq.trans ?_ h.frames
    unfold Pool.frames
    rw [coe_map_concat]
    abel

lemma ofReturning (h : s.Holding ns rs fs) (hk : s.returning[k]? = some (r, n)) :
    { s with returning := s.returning.eraseIdx k }.Holding ({n} + ns) ({r.id} + rs) ({s.nodes n} + fs) := by
  refine { h with nodes := ?_, requests := ?_, frames := ?_ }
  · refine Eq.trans ?_ h.nodes
    unfold places
    rw [coe_map_eraseIdx Prod.snd hk]
    abel
  · refine Eq.trans ?_ h.requests
    unfold Pool.requests
    rw [coe_map_eraseIdx (fun x => x.1.id) hk]
    abel
  · refine Eq.trans ?_ h.frames
    unfold Pool.frames
    rw [coe_map_eraseIdx (fun x => s.nodes x.2) hk]
    abel

lemma toInserting (h : s.Holding ns ({r.id} + rs) fs) : { s with inserting := s.inserting ++ [r] }.Holding ns rs fs := by
  refine { h with requests := ?_ }
  refine Eq.trans ?_ h.requests
  unfold Pool.requests
  rw [coe_map_concat]
  abel

lemma ofInserting (h : s.Holding ns rs fs) (hk : s.inserting[k]? = some r) :
    { s with inserting := s.inserting.eraseIdx k }.Holding ns ({r.id} + rs) fs := by
  refine { h with requests := ?_ }
  refine Eq.trans ?_ h.requests
  unfold Pool.requests
  rw [coe_map_eraseIdx Request.id hk]
  abel

lemma toPending (h : s.Holding ns ({r.id} + rs) fs) : { s with pendingReads := s.pendingReads ++ [r] }.Holding ns rs fs := by
  refine { h with requests := ?_ }
  refine Eq.trans ?_ h.requests
  unfold Pool.requests
  rw [coe_map_concat]
  abel

/-- A waiting request is taken out, however it was found. -/
lemma ofPending {rest : List Request} (h : s.Holding ns rs fs)
    (hrest : ((s.pendingReads.map Request.id : List Nat) : Multiset Nat) = {r.id} + (rest.map Request.id : List Nat)) :
    { s with pendingReads := rest }.Holding ns ({r.id} + rs) fs := by
  refine { h with requests := ?_ }
  refine Eq.trans ?_ h.requests
  unfold Pool.requests
  rw [hrest]
  abel

lemma toArriving (h : s.Holding ns rs ({f} + fs)) : { s with arriving := s.arriving ++ [f] }.Holding ns rs fs := by
  refine { h with frames := ?_ }
  refine Eq.trans ?_ h.frames
  unfold Pool.frames
  rw [coe_concat]
  abel

lemma ofArriving (h : s.Holding ns rs fs) (hk : s.arriving[k]? = some f) :
    { s with arriving := s.arriving.eraseIdx k }.Holding ns rs ({f} + fs) := by
  refine { h with frames := ?_ }
  refine Eq.trans ?_ h.frames
  unfold Pool.frames
  rw [coe_eraseIdx hk]
  abel

lemma toPlacing (h : s.Holding ({n} + ns) rs ({f} + fs)) :
    { s with placing := s.placing ++ [(f, n)] }.Holding ns rs fs := by
  refine { h with nodes := ?_, frames := ?_ }
  · refine Eq.trans ?_ h.nodes
    unfold places
    rw [coe_map_concat]
    abel
  · refine Eq.trans ?_ h.frames
    unfold Pool.frames
    rw [coe_map_concat]
    abel

lemma ofPlacing (h : s.Holding ns rs fs) (hk : s.placing[k]? = some (f, n)) :
    { s with placing := s.placing.eraseIdx k }.Holding ({n} + ns) rs ({f} + fs) := by
  refine { h with nodes := ?_, frames := ?_ }
  · refine Eq.trans ?_ h.nodes
    unfold places
    rw [coe_map_eraseIdx Prod.snd hk]
    abel
  · refine Eq.trans ?_ h.frames
    unfold Pool.frames
    rw [coe_map_eraseIdx Prod.fst hk]
    abel

/-- A held node is written, which changes nothing of the others, and queued. -/
lemma toQueue (h : s.Holding ({n} + ns) rs ({f} + fs)) :
    { s with
      nodes := Function.update s.nodes n f
      frameQueue := s.frameQueue ++ [n]
      entered := s.entered ++ [f] }.Holding ns rs fs := by
  obtain ⟨hqueue, hreturning⟩ := h.not_mem_lists
  -- the node that is written is held, so it is in none of the lists
  have hothers : ∀ l : List Nat, n ∉ l → l.map (Function.update s.nodes n f) = l.map s.nodes := by
    intro l hl
    refine List.map_congr_left fun m hm => Function.update_of_ne ?_ f s.nodes
    rintro rfl
    exact hl hm
  have hqueued : (s.frameQueue ++ [n]).map (Function.update s.nodes n f) = s.frameQueue.map s.nodes ++ [f] := by
    rw [List.map_append, hothers _ hqueue, List.map_singleton, Function.update_self]
  have hreturned : (s.returning.map fun x => Function.update s.nodes n f x.2) = s.returning.map fun x => s.nodes x.2 := by
    have hheld := hothers (s.returning.map Prod.snd) hreturning
    rw [List.map_map, List.map_map] at hheld
    exact hheld
  refine { h with nodes := ?_, frames := ?_, order := ?_ }
  · refine Eq.trans ?_ h.nodes
    unfold places
    rw [coe_concat]
    abel
  · refine Eq.trans ?_ h.frames
    unfold Pool.frames
    dsimp only
    rw [hqueued, hreturned, coe_concat]
    abel
  · intro i
    dsimp only
    rw [hqueued, ofIf_append, ofIf_append, h.order i, List.append_assoc]

/-- The first frame that fits is taken out of the queue. -/
lemma ofQueue {ifIndex : UInt32} (h : s.Holding ns rs fs) (hn : s.frameQueue.find? (s.wanted ifIndex) = some n) :
    { s with
      frameQueue := s.frameQueue.eraseP (s.wanted ifIndex)
      left := s.left ++ [s.nodes n] }.Holding ({n} + ns) rs ({s.nodes n} + fs) := by
  refine { h with nodes := ?_, frames := ?_, order := ?_ }
  · refine Eq.trans ?_ h.nodes
    unfold places
    rw [coe_eraseP hn]
    abel
  · refine Eq.trans ?_ h.frames
    unfold Pool.frames
    rw [coe_map_eraseP s.nodes hn]
    abel
  · intro i
    have hfits := wanted_iff.mp (List.find?_some hn)
    -- among the frames of one interface the first that fits is the first of all
    have hsplit := filter_eraseP hn (q := fun m => (s.nodes m).ifIndex = i) (by
      intro hi m hm
      refine wanted_iff.mpr (hfits.imp_right fun heq => ?_)
      exact (of_decide_eq_true hm).trans ((of_decide_eq_true hi).symm.trans heq))
    have hmap : ∀ l : List Nat, ofIf i (l.map s.nodes) = (l.filter fun m => (s.nodes m).ifIndex = i).map s.nodes :=
      fun l => List.filter_map
    dsimp only
    rw [h.order i, ofIf_append, hmap, hmap, hsplit, List.map_append, List.append_assoc]
    exact congrArg (fun l => ofIf i s.left ++ (l ++ _)) (hmap [n]).symm

end Holding

/-! ### Steps -/

lemma sound_fail {irp : Irp} {id : Nat} {status : NtStatus} (h : status ≠ .success) :
    Done.Sound ⟨⟨id, irp⟩, irp.fail status, none⟩ := h

/-- A request that meets a frame gets it, or the frame is dropped. -/
lemma handOver_cases (irp : Irp) (node : FrameNode) (mapped : Bool) :
    Channel.handOver irp node mapped = irp.fill node ∨ (Channel.handOver irp node mapped).status ≠ .success := by
  have hfail : ∀ status, status ≠ .success → (irp.fail status).status ≠ .success := fun _ h => h
  unfold Channel.handOver
  split
  · exact .inr (hfail _ (by decide))
  split
  · exact .inr (hfail _ (by decide))
  · exact .inl rfl

lemma conserved_recv {irp : Irp} (h : s.Holding 0 0 0) : (s.recv irp).1.Holding 0 0 0 := by
  have hissue := h.issue
  unfold recv
  split
  · next status hin => exact @Holding.complete _ _ _ _ ⟨s.issued, irp⟩ _ none hissue (sound_fail (Channel.recvIn_ne_success hin))
  · next ifIndex hin =>
    dsimp only
    split
    · next n hn => exact @Holding.toReturning _ _ _ _ ⟨s.issued, irp⟩ _ (hissue.ofQueue hn)
    · exact @Holding.toInserting _ _ _ _ ⟨s.issued, { irp with ifIndex }⟩ hissue

lemma conserved_recvReturn (h : s.Holding 0 0 0) : (s.recvReturn k).1.Holding 0 0 0 := by
  unfold recvReturn
  split
  · next r n hk => exact @Holding.complete _ _ _ _ _ _ (some (s.nodes n)) (h.ofReturning hk).toFree rfl
  · exact h

lemma conserved_recvInsert (h : s.Holding 0 0 0) : (s.recvInsert k).1.Holding 0 0 0 := by
  unfold recvInsert
  split
  · next r hk => exact (h.ofInserting hk).toPending
  · exact h

lemma conserved_accept {node : FrameNode} {mapped : Bool} (h : s.Holding 0 0 0) : (s.accept node mapped).1.Holding 0 0 0 := by
  have henter := h.enter node
  unfold accept
  dsimp only
  split
  · next r hr =>
    have htaken := henter.ofPending (coe_map_eraseP Request.id hr)
    split
    · next hstatus =>
      refine @Holding.complete _ _ _ _ _ _ (some _) htaken ?_
      rcases handOver_cases r.irp node mapped with hfill | hfail
      · exact hfill
      · exact absurd hstatus hfail
    · next hstatus => exact @Holding.complete _ _ _ _ _ _ none htaken.drop hstatus
  · exact henter.toArriving

lemma conserved_takeNode (h : s.Holding 0 0 0) : (s.takeNode k).1.Holding 0 0 0 := by
  unfold takeNode
  split
  · next f hk =>
    have htaken := h.ofArriving hk
    dsimp only
    split
    · exact htaken.drop
    · next n rest hfree => exact (htaken.ofFree hfree).toPlacing
  · exact h

lemma conserved_putNode (h : s.Holding 0 0 0) : (s.putNode k).1.Holding 0 0 0 := by
  unfold putNode
  split
  · next f n hk => exact (h.ofPlacing hk).toQueue
  · exact h

lemma conserved_dropNode (h : s.Holding 0 0 0) : (s.dropNode k).1.Holding 0 0 0 := by
  unfold dropNode
  split
  · next f n hk => exact (h.ofPlacing hk).toFree.drop
  · exact h

lemma conserved_cancel (h : s.Holding 0 0 0) : (s.cancel k).1.Holding 0 0 0 := by
  unfold cancel
  split
  · next r hk => exact @Holding.complete _ _ _ _ _ _ none (h.ofPending (coe_map_eraseIdx Request.id hk)) (sound_fail (by decide))
  · exact h

lemma conserved_cleanup {fileObject : Nat} (h : s.Holding 0 0 0) : (s.cleanup fileObject).1.Holding 0 0 0 := by
  unfold cleanup
  split
  · next r hr => exact @Holding.complete _ _ _ _ _ _ none (h.ofPending (coe_map_eraseP Request.id hr)) (sound_fail (by decide))
  · exact h

lemma conserved_cancelAllPendingReads (h : s.Holding 0 0 0) : s.cancelAllPendingReads.1.Holding 0 0 0 := by
  unfold cancelAllPendingReads
  split
  · next r rest hpending =>
    refine @Holding.complete _ _ _ _ r _ none (@Holding.ofPending _ _ _ _ _ rest h ?_) (sound_fail (by decide))
    rw [hpending]
    rfl
  · exact h

lemma conserved_step (h : s.Conserved) (a : PoolAction) : (s.step a).1.Conserved := by
  rw [conserved_iff] at h ⊢
  cases a with
  | cancelAllPendingReads => exact conserved_cancelAllPendingReads h
  | call a =>
    cases a with
    | recv irp => exact conserved_recv h
    | recvReturn k => exact conserved_recvReturn h
    | recvInsert k => exact conserved_recvInsert h
    | indicate ifIndex frame hdrMapped mapped =>
      have hstep : s.step (.call (.indicate ifIndex frame hdrMapped mapped)) = s.indicate ifIndex frame hdrMapped mapped := rfl
      rw [hstep]
      unfold indicate
      split
      · exact h.reject ifIndex
      split
      · exact h.reject ifIndex
      · exact conserved_accept h
    | inject ifIndex frame =>
      have hstep : s.step (.call (.inject ifIndex frame)) = s.inject ifIndex frame := rfl
      rw [hstep]
      unfold inject
      split
      · exact h
      split
      · exact h
      · exact conserved_accept h
    | takeNode k => exact conserved_takeNode h
    | putNode k => exact conserved_putNode h
    | dropNode k => exact conserved_dropNode h
    | cancel k => exact conserved_cancel h
    | cleanup fileObject => exact conserved_cleanup h

/-! ### The channel -/

/-- The channel, without numbers. -/
def channel (s : Pool) : Channel where
  bindings := s.bindings
  frameQueue := s.frameQueue.map fun n => (s.nodes n).node
  freeRxNodes := s.freeRxNodes.length
  pendingReads := s.pendingReads.map Request.irp
  returning := s.returning.map fun x => (x.1.irp, (s.nodes x.2).node)
  inserting := s.inserting.map Request.irp
  arriving := s.arriving.map Frame.node
  placing := s.placing.map fun x => x.1.node

/-- A step of the pool, as one of the channel. -/
def erase (x : Pool × Option Completed) : Channel × Option Completed := (x.1.channel, x.2)

lemma dequeue_channel (s : Pool) (ifIndex : UInt32) : frameDequeueLocked s.channel.frameQueue ifIndex =
    (s.frameQueue.find? (s.wanted ifIndex)).map fun n =>
      ((s.nodes n).node, (s.frameQueue.eraseP (s.wanted ifIndex)).map fun n => (s.nodes n).node) := by
  unfold frameDequeueLocked channel
  dsimp only
  rw [List.find?_map, List.eraseP_map, Option.map_map]
  rfl

lemma csqRemove_channel (s : Pool) (m : CsqMatch) : csqRemoveNextIrp s.channel.pendingReads m =
    (s.pendingReads.find? (takes m)).map fun r => (r.irp, (s.pendingReads.eraseP (takes m)).map Request.irp) := by
  unfold csqRemoveNextIrp channel
  dsimp only
  rw [List.find?_map, List.eraseP_map, Option.map_map]
  rfl

lemma erase_recv (s : Pool) (irp : Irp) : erase (s.recv irp) = s.channel.recv irp := by
  unfold recv Channel.recv
  cases irp.recvIn with
  | error status => rfl
  | ok ifIndex =>
    dsimp only
    rw [dequeue_channel]
    have hwanted : wanted { s with issued := s.issued + 1 } ifIndex = s.wanted ifIndex := rfl
    rw [hwanted]
    cases s.frameQueue.find? (s.wanted ifIndex) with
    | none =>
      unfold erase channel
      dsimp only
      rw [List.map_append]
      rfl
    | some n =>
      unfold erase channel
      dsimp only
      rw [List.map_append]
      rfl

lemma erase_recvReturn (s : Pool) (k : Nat) : erase (s.recvReturn k) = s.channel.recvReturn k := by
  have hget : s.channel.returning[k]? = (s.returning[k]?).map fun x => (x.1.irp, (s.nodes x.2).node) := List.getElem?_map
  unfold recvReturn Channel.recvReturn
  rw [hget]
  cases s.returning[k]? with
  | none => rfl
  | some x =>
    unfold erase channel complete
    dsimp only
    rw [List.length_append, List.eraseIdx_map]
    rfl

lemma erase_recvInsert (s : Pool) (k : Nat) : erase (s.recvInsert k) = s.channel.recvInsert k := by
  have hget : s.channel.inserting[k]? = (s.inserting[k]?).map Request.irp := List.getElem?_map
  unfold recvInsert Channel.recvInsert
  rw [hget]
  cases s.inserting[k]? with
  | none => rfl
  | some r =>
    unfold erase channel
    dsimp only
    rw [List.map_append, List.eraseIdx_map]
    rfl

lemma erase_accept (s : Pool) (node : FrameNode) (mapped : Bool) : erase (s.accept node mapped) = s.channel.accept node mapped := by
  unfold accept Channel.accept
  rw [csqRemove_channel]
  dsimp only
  cases s.pendingReads.find? (takes (.byIfIndex node.ifIndex)) with
  | none =>
    unfold erase channel
    dsimp only
    rw [List.map_append]
    rfl
  | some r =>
    dsimp only
    split
    · rfl
    · rfl

lemma erase_takeNode (s : Pool) (k : Nat) : erase (s.takeNode k) = s.channel.takeNode k := by
  have hget : s.channel.arriving[k]? = (s.arriving[k]?).map Frame.node := List.getElem?_map
  unfold takeNode Channel.takeNode
  rw [hget]
  cases s.arriving[k]? with
  | none => rfl
  | some f =>
    have hlen : s.channel.freeRxNodes = s.freeRxNodes.length := rfl
    dsimp only [Option.map_some]
    rw [hlen]
    cases s.freeRxNodes with
    | nil =>
      unfold erase channel drop
      dsimp only
      rw [List.eraseIdx_map]
      rfl
    | cons n rest =>
      unfold erase channel
      dsimp only
      rw [List.eraseIdx_map, List.map_append]
      rfl

/-- A node that is written is in nobody else's hand. -/
lemma erase_putNode (h : s.Conserved) (k : Nat) : erase (s.putNode k) = s.channel.putNode k := by
  have hget : s.channel.placing[k]? = (s.placing[k]?).map fun x => x.1.node := List.getElem?_map
  unfold putNode Channel.putNode
  rw [hget]
  cases hk : s.placing[k]? with
  | none => rfl
  | some x =>
    obtain ⟨f, n⟩ := x
    obtain ⟨hqueue, hreturning⟩ := ((conserved_iff.mp h).ofPlacing hk).not_mem_lists
    have hnode : ∀ m, m ≠ n → Function.update s.nodes n f m = s.nodes m := fun m hm => Function.update_of_ne hm f s.nodes
    have hqueued : (s.frameQueue.map fun m => (Function.update s.nodes n f m).node) =
        s.frameQueue.map fun m => (s.nodes m).node := by
      refine List.map_congr_left fun m hm => ?_
      rw [hnode m]
      rintro rfl
      exact hqueue hm
    have hreturned : (s.returning.map fun x => (x.1.irp, (Function.update s.nodes n f x.2).node)) =
        s.returning.map fun x => (x.1.irp, (s.nodes x.2).node) := by
      refine List.map_congr_left fun x hx => ?_
      rw [hnode x.2]
      rintro rfl
      exact hreturning (List.mem_map_of_mem hx)
    unfold erase channel
    dsimp only [Option.map_some]
    rw [List.map_append, hqueued, hreturned, List.eraseIdx_map, List.map_singleton, Function.update_self]

lemma erase_dropNode (s : Pool) (k : Nat) : erase (s.dropNode k) = s.channel.dropNode k := by
  have hget : s.channel.placing[k]? = (s.placing[k]?).map fun x => x.1.node := List.getElem?_map
  unfold dropNode Channel.dropNode
  rw [hget]
  cases s.placing[k]? with
  | none => rfl
  | some x =>
    unfold erase channel drop
    dsimp only
    rw [List.length_append, List.eraseIdx_map]
    rfl

lemma erase_cancel (s : Pool) (k : Nat) : erase (s.cancel k) = s.channel.cancel k := by
  have hget : s.channel.pendingReads[k]? = (s.pendingReads[k]?).map Request.irp := List.getElem?_map
  unfold cancel Channel.cancel
  rw [hget]
  cases s.pendingReads[k]? with
  | none => rfl
  | some r =>
    unfold erase channel complete
    dsimp only
    rw [List.eraseIdx_map]
    rfl

lemma erase_cleanup (s : Pool) (fileObject : Nat) : erase (s.cleanup fileObject) = s.channel.cleanup fileObject := by
  unfold cleanup Channel.cleanup
  rw [csqRemove_channel]
  cases s.pendingReads.find? (takes (.byFileObject fileObject)) with
  | none => rfl
  | some r => rfl

/-- Without the numbers, the pool is the channel. -/
theorem step_channel (h : s.Conserved) (a : Action) : erase (s.step (.call a)) = s.channel.step a := by
  cases a with
  | recv irp => exact erase_recv s irp
  | recvReturn k => exact erase_recvReturn s k
  | recvInsert k => exact erase_recvInsert s k
  | indicate ifIndex frame hdrMapped mapped =>
    have hpool : s.step (.call (.indicate ifIndex frame hdrMapped mapped)) = s.indicate ifIndex frame hdrMapped mapped := rfl
    have hchannel : s.channel.step (.indicate ifIndex frame hdrMapped mapped) =
      s.channel.indicate ifIndex frame hdrMapped mapped := rfl
    rw [hpool, hchannel]
    unfold indicate Channel.indicate
    split
    · rfl
    split
    · rfl
    · exact erase_accept s ⟨ifIndex, frame⟩ mapped
  | inject ifIndex frame =>
    have hpool : s.step (.call (.inject ifIndex frame)) = s.inject ifIndex frame := rfl
    have hchannel : s.channel.step (.inject ifIndex frame) = s.channel.inject ifIndex frame := rfl
    have hbindings : s.channel.bindings = s.bindings := rfl
    rw [hpool, hchannel]
    unfold inject Channel.inject
    rw [hbindings]
    split
    · rfl
    split
    · rfl
    · exact erase_accept s ⟨ifIndex, frame⟩ true
  | takeNode k => exact erase_takeNode s k
  | putNode k => exact erase_putNode h k
  | dropNode k => exact erase_dropNode s k
  | cancel k => exact erase_cancel s k
  | cleanup fileObject => exact erase_cleanup s fileObject

/-- The driver as it is loaded. -/
def start (bindings : List Binding) : Pool := { bindings }

lemma conserved_start (bindings : List Binding) : (start bindings).Conserved where
  nodes := by
    unfold places
    rfl
  requests := rfl
  frames := rfl
  numbers := rfl
  given := by
    intro d hd
    cases hd
  counted := fun _ => rfl
  order := fun _ => rfl

end Pool

end IPv8Plus.Driver
