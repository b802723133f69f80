import IPv8Plus.Driver.Channel

/-!
# Requests that wait beside a frame

A request looks for a frame and then waits, a frame looks for a request and then queues, and the lock is released
in between. `none_waits` says which order of the steps keeps a request from waiting beside a frame that it wants:
nobody may queue or wait between the two steps of the other side, and no frame may come in while a request waits
for any interface, which the search for waiting requests does not find.
-/

namespace IPv8Plus.Driver
open Lib

/-- The request is for frames of this interface. -/
def Irp.Wants (irp : Irp) (ifIndex : UInt32) : Prop := irp.ifIndex = ifIndexAny ∨ irp.ifIndex = ifIndex

instance (irp : Irp) (ifIndex : UInt32) : Decidable (irp.Wants ifIndex) := inferInstanceAs (Decidable (_ ∨ _))

namespace Channel

variable {s s' : Channel} {a : Action} {node : FrameNode} {k : Nat}

/-- No request waits beside a queued frame that it wants. -/
def NoneWaits (s : Channel) : Prop := ∀ irp ∈ s.pendingReads, ∀ node ∈ s.frameQueue, ¬ irp.Wants node.ifIndex

instance (s : Channel) : Decidable s.NoneWaits := inferInstanceAs (Decidable (∀ irp ∈ _, ∀ node ∈ _, _))

/-- No call is in progress. -/
def Quiet (s : Channel) : Prop := s.returning = [] ∧ s.inserting = [] ∧ s.arriving = [] ∧ s.placing = []

instance (s : Channel) : Decidable s.Quiet := inferInstanceAs (Decidable (_ ∧ _))

/-- The frame is queued, or on its way to the queue. -/
def Unread (s : Channel) (node : FrameNode) : Prop := node ∈ s.frameQueue ∨ node ∈ s.arriving ∨ node ∈ s.placing

/-- If a request for any interface waits, then one for this interface waits. -/
def Covers (s : Channel) (ifIndex : UInt32) : Prop :=
  (∃ irp ∈ s.pendingReads, irp.ifIndex = ifIndexAny) → ∃ irp ∈ s.pendingReads, irp.ifIndex = ifIndex

/-- No request waits between the steps of a frame that it wants, no frame is queued between the steps of a request that
wants it, and none comes in where only requests for any interface wait. -/
def Ordered (s : Channel) : Action → Prop
  | .recvInsert k => ∀ irp ∈ s.inserting[k]?, ∀ node ∈ s.arriving ++ s.placing, ¬ irp.Wants node.ifIndex
  | .putNode k => ∀ node ∈ s.placing[k]?, ∀ irp ∈ s.inserting, ¬ irp.Wants node.ifIndex
  | .indicate ifIndex _ _ _ => s.Covers ifIndex
  | .inject ifIndex _ => s.Covers ifIndex
  | _ => True

instance (s : Channel) (ifIndex : UInt32) : Decidable (s.Covers ifIndex) :=
  inferInstanceAs (Decidable ((∃ irp ∈ _, _) → ∃ irp ∈ _, _))

instance (s : Channel) (a : Action) : Decidable (s.Ordered a) :=
  match a with
  | .recvInsert _ => inferInstanceAs (Decidable (∀ irp ∈ _, ∀ node ∈ _, _))
  | .putNode _ => inferInstanceAs (Decidable (∀ node ∈ _, ∀ irp ∈ _, _))
  | .indicate ifIndex _ _ _ => inferInstanceAs (Decidable (s.Covers ifIndex))
  | .inject ifIndex _ => inferInstanceAs (Decidable (s.Covers ifIndex))
  | .recv _ => isTrue trivial
  | .recvReturn _ => isTrue trivial
  | .takeNode _ => isTrue trivial
  | .dropNode _ => isTrue trivial
  | .cancel _ => isTrue trivial
  | .cleanup _ => isTrue trivial

/-- A frame that a waiting request wants is not put on its way to the queue. -/
def Serves (s : Channel) : Action → Prop
  | .indicate ifIndex frame hdrMapped mapped => (∃ irp ∈ s.pendingReads, irp.Wants ifIndex) →
    (s.indicate ifIndex frame hdrMapped mapped).1.arriving = s.arriving
  | .inject ifIndex frame => (∃ irp ∈ s.pendingReads, irp.Wants ifIndex) → (s.inject ifIndex frame).1.arriving = s.arriving
  | _ => True

/-- Waiting requests want no frame that is not read yet, and requests that have found none want no queued frame. -/
structure Apart (s : Channel) : Prop where
  pending : ∀ irp ∈ s.pendingReads, ∀ node, s.Unread node → ¬ irp.Wants node.ifIndex
  inserting : ∀ irp ∈ s.inserting, ∀ node ∈ s.frameQueue, ¬ irp.Wants node.ifIndex

/-- Fewer requests and fewer frames. -/
lemma Apart.mono (h : s.Apart) (hpending : s'.pendingReads ⊆ s.pendingReads) (hinserting : s'.inserting ⊆ s.inserting)
    (hqueue : s'.frameQueue ⊆ s.frameQueue) (hunread : ∀ node, s'.Unread node → s.Unread node) : s'.Apart where
  pending irp hirp node hnode := h.pending irp (hpending hirp) node (hunread node hnode)
  inserting irp hirp node hnode := h.inserting irp (hinserting hirp) node (hqueue hnode)

lemma dequeue_eq_none {queue : List FrameNode} {ifIndex : UInt32} (h : frameDequeueLocked queue ifIndex = none) :
    ∀ node ∈ queue, ¬ (ifIndex = ifIndexAny ∨ node.ifIndex = ifIndex) := by
  intro node hnode hwanted
  have hnone := List.find?_eq_none.mp (Option.map_eq_none_iff.mp h) node hnode
  exact hnone (decide_eq_true hwanted)

lemma dequeue_subset {queue queue' : List FrameNode} {ifIndex : UInt32} (h : frameDequeueLocked queue ifIndex = some (node, queue')) :
    queue' ⊆ queue := by
  obtain ⟨_, -, heq⟩ := Option.map_eq_some_iff.mp h
  cases heq
  exact fun _ => List.mem_of_mem_eraseP

lemma csqRemoveNext_subset {pending rest : List Irp} {m : CsqMatch} {irp : Irp} (h : csqRemoveNextIrp pending m = some (irp, rest)) :
    rest ⊆ pending := by
  obtain ⟨_, -, heq⟩ := Option.map_eq_some_iff.mp h
  cases heq
  exact fun _ => List.mem_of_mem_eraseP

/-- The search for a request finds those for the interface of the frame, and no others. -/
lemma csqRemoveNext_eq_none {pending : List Irp} {ifIndex : UInt32} (h : csqRemoveNextIrp pending (.byIfIndex ifIndex) = none) :
    ∀ irp ∈ pending, irp.ifIndex ≠ ifIndex := by
  intro irp hirp hwaits
  have hnone := List.find?_eq_none.mp (Option.map_eq_none_iff.mp h) irp hirp
  exact hnone (decide_eq_true (.inr hwaits))

lemma apart_recv {irp : Irp} (h : s.Apart) : (s.recv irp).1.Apart := by
  unfold recv
  split
  · exact h
  · next ifIndex hin =>
    split
    · next node queue hfound =>
      have hsub := dequeue_subset hfound
      exact h.mono (List.Subset.refl _) (List.Subset.refl _) hsub fun node hnode => hnode.imp_left (@hsub node)
    · next hnone =>
      refine ⟨h.pending, ?_⟩
      intro irp' hirp' node hnode
      rcases List.mem_append.mp hirp' with hold | hnew
      · exact h.inserting irp' hold node hnode
      · cases List.mem_singleton.mp hnew
        intro hwants
        exact dequeue_eq_none hnone node hnode (hwants.imp_right Eq.symm)

lemma apart_recvReturn (h : s.Apart) : (s.recvReturn k).1.Apart := by
  unfold recvReturn
  split
  · exact h.mono (List.Subset.refl _) (List.Subset.refl _) (List.Subset.refl _) fun _ hnode => hnode
  · exact h

lemma apart_recvInsert (h : s.Apart) (ho : s.Ordered (.recvInsert k)) : (s.recvInsert k).1.Apart := by
  unfold recvInsert
  split
  · next irp hirp =>
    refine ⟨?_, fun irp' hirp' => h.inserting irp' (List.mem_of_mem_eraseIdx hirp')⟩
    intro irp' hirp' node hnode
    rcases List.mem_append.mp hirp' with hold | hnew
    · exact h.pending irp' hold node hnode
    · cases List.mem_singleton.mp hnew
      rcases hnode with hqueued | hflight
      · exact h.inserting irp (List.mem_of_getElem? hirp) node hqueued
      · exact ho irp hirp node (List.mem_append.mpr hflight)
  · exact h

lemma apart_accept {mapped : Bool} (h : s.Apart) (ho : s.Covers node.ifIndex) : (s.accept node mapped).1.Apart := by
  unfold accept
  split
  · next irp rest hfound =>
    exact h.mono (csqRemoveNext_subset hfound) (List.Subset.refl _) (List.Subset.refl _) fun _ hnode => hnode
  · next hnone =>
    have hothers := csqRemoveNext_eq_none hnone
    refine ⟨?_, h.inserting⟩
    intro irp hirp node' hnode'
    rcases hnode' with hqueued | harriving | hplacing
    · exact h.pending irp hirp node' (.inl hqueued)
    · rcases List.mem_append.mp harriving with hold | hnew
      · exact h.pending irp hirp node' (.inr (.inl hold))
      · cases List.mem_singleton.mp hnew
        rintro (hany | hsame)
        · obtain ⟨irp', hirp', hwaits⟩ := ho ⟨irp, hirp, hany⟩
          exact hothers irp' hirp' hwaits
        · exact hothers irp hirp hsame
    · exact h.pending irp hirp node' (.inr (.inr hplacing))

lemma apart_takeNode (h : s.Apart) : (s.takeNode k).1.Apart := by
  unfold takeNode
  split
  · next node hnode =>
    dsimp only
    split
    · refine h.mono (List.Subset.refl _) (List.Subset.refl _) (List.Subset.refl _) ?_
      rintro node' (hqueued | harriving | hplacing)
      · exact .inl hqueued
      · exact .inr (.inl (List.mem_of_mem_eraseIdx harriving))
      · exact .inr (.inr hplacing)
    · refine h.mono (List.Subset.refl _) (List.Subset.refl _) (List.Subset.refl _) ?_
      rintro node' (hqueued | harriving | hplacing)
      · exact .inl hqueued
      · exact .inr (.inl (List.mem_of_mem_eraseIdx harriving))
      · rcases List.mem_append.mp hplacing with hold | hnew
        · exact .inr (.inr hold)
        · cases List.mem_singleton.mp hnew
          exact .inr (.inl (List.mem_of_getElem? hnode))
  · exact h

lemma apart_putNode (h : s.Apart) (ho : s.Ordered (.putNode k)) : (s.putNode k).1.Apart := by
  unfold putNode
  split
  · next node hnode =>
    refine ⟨?_, ?_⟩
    · intro irp hirp node' hnode'
      refine h.pending irp hirp node' ?_
      rcases hnode' with hqueued | harriving | hplacing
      · rcases List.mem_append.mp hqueued with hold | hnew
        · exact .inl hold
        · cases List.mem_singleton.mp hnew
          exact .inr (.inr (List.mem_of_getElem? hnode))
      · exact .inr (.inl harriving)
      · exact .inr (.inr (List.mem_of_mem_eraseIdx hplacing))
    · intro irp hirp node' hnode'
      rcases List.mem_append.mp hnode' with hold | hnew
      · exact h.inserting irp hirp node' hold
      · cases List.mem_singleton.mp hnew
        exact ho node hnode irp hirp
  · exact h

lemma apart_dropNode (h : s.Apart) : (s.dropNode k).1.Apart := by
  unfold dropNode
  split
  · refine h.mono (List.Subset.refl _) (List.Subset.refl _) (List.Subset.refl _) ?_
    rintro node' (hqueued | harriving | hplacing)
    · exact .inl hqueued
    · exact .inr (.inl harriving)
    · exact .inr (.inr (List.mem_of_mem_eraseIdx hplacing))
  · exact h

lemma apart_cancel (h : s.Apart) : (s.cancel k).1.Apart := by
  unfold cancel
  split
  · exact h.mono (fun _ => List.mem_of_mem_eraseIdx) (List.Subset.refl _) (List.Subset.refl _) fun _ hnode => hnode
  · exact h

lemma apart_cleanup {fileObject : Nat} (h : s.Apart) : (s.cleanup fileObject).1.Apart := by
  unfold cleanup
  split
  · next irp rest hfound =>
    exact h.mono (csqRemoveNext_subset hfound) (List.Subset.refl _) (List.Subset.refl _) fun _ hnode => hnode
  · exact h

lemma apart_step (h : s.Apart) (ho : s.Ordered a) : (s.step a).1.Apart := by
  cases a with
  | recv irp => exact apart_recv h
  | recvReturn k => exact apart_recvReturn h
  | recvInsert k => exact apart_recvInsert h ho
  | indicate ifIndex frame hdrMapped mapped =>
    unfold step indicate
    dsimp only
    split
    · exact h
    · split
      · exact h
      · exact apart_accept h ho
  | inject ifIndex frame =>
    unfold step inject
    dsimp only
    split
    · exact h
    · split
      · exact h
      · exact apart_accept h ho
  | takeNode k => exact apart_takeNode h
  | putNode k => exact apart_putNode h ho
  | dropNode k => exact apart_dropNode h
  | cancel k => exact apart_cancel h
  | cleanup fileObject => exact apart_cleanup h

lemma Apart.noneWaits (h : s.Apart) : s.NoneWaits := fun irp hirp node hnode => h.pending irp hirp node (.inl hnode)

lemma accept_served {mapped : Bool} (ho : s.Covers node.ifIndex) (hwants : ∃ irp ∈ s.pendingReads, irp.Wants node.ifIndex) :
    (s.accept node mapped).1.arriving = s.arriving := by
  unfold accept
  split
  · rfl
  · next hnone =>
    have hothers := csqRemoveNext_eq_none hnone
    obtain ⟨irp, hirp, hany | hsame⟩ := hwants
    · obtain ⟨irp', hirp', hwaits⟩ := ho ⟨irp, hirp, hany⟩
      exact absurd hwaits (hothers irp' hirp')
    · exact absurd hsame (hothers irp hirp)

lemma serves_of_ordered (ho : s.Ordered a) : s.Serves a := by
  cases a with
  | indicate ifIndex frame hdrMapped mapped =>
    intro hwants
    unfold indicate
    split
    · rfl
    · split
      · rfl
      · exact accept_served ho hwants
  | inject ifIndex frame =>
    intro hwants
    unfold inject
    split
    · rfl
    · split
      · rfl
      · exact accept_served ho hwants
  | recv irp => trivial
  | recvReturn k => trivial
  | recvInsert k => trivial
  | takeNode k => trivial
  | putNode k => trivial
  | dropNode k => trivial
  | cancel k => trivial
  | cleanup fileObject => trivial

/-- In a run in this order no request ever waits beside a frame that it wants, and a frame that comes in goes to a
request if one that waits wants it. -/
theorem none_waits {bindings : List Binding} {actions : List Action} (h : Along step Ordered { bindings } actions) :
    Along step (fun s a => (s.step a).1.NoneWaits ∧ s.Serves a) { bindings } actions := by
  have hstart : Apart { bindings } := by
    refine ⟨?_, ?_⟩
    · intro irp hirp
      exact absurd hirp List.not_mem_nil
    · intro irp hirp
      exact absurd hirp List.not_mem_nil
  exact Along.of_invariant (fun _ _ hs ho => apart_step hs ho)
    (fun _ _ hs ho => ⟨(apart_step hs ho).noneWaits, serves_of_ordered ho⟩) hstart h

/-- A frame without payload. -/
def sampleFrame : Bytes := List.replicate 12 0 ++ [0xFB, 0x14]

/-- A request for any interface waits, and then a frame comes in. -/
def anyWaits : List Action := [
  .recv (.ofRecv 0 ifIndexAny 76), .recvInsert 0, .indicate 1 sampleFrame true true, .takeNode 0, .putNode 0]

/-- A frame is queued after a request has found none, and before it waits. -/
def frameBetween : List Action := [
  .recv (.ofRecv 0 1 76), .indicate 1 sampleFrame true true, .takeNode 0, .putNode 0, .recvInsert 0]

/-- In both runs the request is left waiting beside the frame. -/
theorem waits_beside :
    ((run step { bindings := [] } anyWaits).1.Quiet ∧ ¬ (run step { bindings := [] } anyWaits).1.NoneWaits) ∧
      (run step { bindings := [] } frameBetween).1.Quiet ∧ ¬ (run step { bindings := [] } frameBetween).1.NoneWaits := by
  decide +kernel

theorem none_waits_sample : Along step (fun s a => (s.step a).1.NoneWaits ∧ s.Serves a) { bindings := [] }
    [.recv (.ofRecv 0 1 76), .recvInsert 0, .indicate 1 sampleFrame true true, .indicate 2 sampleFrame true true, .takeNode 0,
      .putNode 0, .recv (.ofRecv 0 ifIndexAny 76), .recvReturn 0] :=
  none_waits (by decide +kernel)

end Channel

end IPv8Plus.Driver
