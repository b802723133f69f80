import IPv8Plus.Hook.Bus

/-!
# Where verdicts come from

The default action that the dispatch thread applies reaches a caller on the same channel as a verdict, and the caller
takes it for one. `attributed` says that verdicts with source `decider` are the decider's in every run in which no default
is sent to a call that still waits.
-/

namespace IPv8Plus.Hook
open Lib

namespace Bus

/-- The bus after some steps. -/
def after (cfg : HookConfig) (ops : List Op) : Bus := (run Bus.step (Bus.new cfg) ops).1

/-- The next message of the queue is a verdict of the holder of the slot, on the event of the call. -/
def Judges (s : Bus) (k : CallId) (id : UInt64) (r : VerdictResult) : Prop :=
  ∃ c rest p, s.queue = .clientVerdict c id r :: rest ∧ s.decider = some c ∧ s.pending[id]? = some p ∧ p.reply = k

/-- The dispatch thread has taken such a message. -/
def Judged (cfg : HookConfig) (ops : List Op) (k : CallId) (id : UInt64) (r : VerdictResult) : Prop :=
  ∃ before now room rest, ops = before ++ .dispatch now room :: rest ∧ Judges (after cfg before) k id r

/-- The verdict is what the holder of the slot has said of this very event. -/
def Genuine (cfg : HookConfig) (before : List Op) (k : CallId) (v : Verdict) : Prop :=
  ∃ c r, (after cfg before).calls[k]? = some c ∧ Judged cfg before k c.id r ∧ v = ⟨r.action, .fromMillis r.delayMs, r.tag, .decider⟩

/-- The call waits and has no answer yet. -/
def waits (s : Bus) (k : CallId) : Bool := s.stageOf k = some (.waiting none)

/-- No default is sent to a call that waits: its event is put to the decider, and the decider stays until it has answered. -/
def Attentive (s : Bus) : Op → Prop
  | .dispatch _ room =>
    match s.queue with
    | .dispatch d :: _ => s.waits d.reply = true → s.served room = true
    | .disconnect c :: _ => s.decider = some c → ∀ x ∈ s.pending.toList, s.waits x.2.reply = false
    | _ => True
  | _ => True

instance (s : Bus) (op : Op) : Decidable (Attentive s op) := by
  unfold Attentive
  split
  · split <;> infer_instance
  · infer_instance

variable {cfg : HookConfig} {s s' : Bus} {ops : List Op} {op : Op} {k : CallId} {id : UInt64} {r : VerdictResult} {c : Call}
  {now : Instant} {room : UInt64 → Bool} {msg : Msg} {rest : List Msg} {calls : List Call}

lemma after_concat (cfg : HookConfig) (ops : List Op) (op : Op) : after cfg (ops ++ [op]) = ((after cfg ops).step op).1 := by
  rw [after, run_append]
  rfl

lemma Judged.mono (h : Judged cfg ops k id r) (op : Op) : Judged cfg (ops ++ [op]) k id r := by
  obtain ⟨before, now, room, rest, rfl, hj⟩ := h
  exact ⟨before, now, room, rest ++ [op], by rw [List.append_assoc, List.cons_append], hj⟩

lemma Judged.concat (now : Instant) (room : UInt64 → Bool) (h : Judges (after cfg ops) k id r) : Judged cfg (ops ++ [.dispatch now room]) k id r :=
  ⟨ops, now, room, [], rfl, h⟩

/-! ## Events and calls -/

/-- The events in the queue and in the table are those of calls that have settled. -/
structure Linked (s : Bus) : Prop where
  queue : ∀ d, Msg.dispatch d ∈ s.queue → Asks s.calls d.reply d.eventLine.id d.flow
  pending : ∀ (id : UInt64) (p : Pending), s.pending[id]? = some p → Asks s.calls p.reply id p.flow

lemma Linked.frame (h : Linked s) (hf : Frame s s') : Linked s' where
  queue d hd := by
    rcases hf.queue d hd with hd | hd
    · exact (h.queue d hd).mono hf.later
    · exact hd
  pending id p hp := (h.pending id p (hf.pending ▸ hp)).mono hf.later

lemma dispatch_empty (h : s.queue = []) : s.dispatch now room = s := by
  rw [dispatch, h]

lemma dispatch_eq (h : s.queue = msg :: rest) : s.dispatch now room =
    { s with
      toHub := (s.toHub.receive msg now room).1
      queue := rest
      calls := (s.toHub.receive msg now room).2.replies.foldl deliver s.calls } := by
  rw [dispatch, h]

lemma Linked.dispatch (h : Linked s) (now : Instant) (room : UInt64 → Bool) : Linked (s.dispatch now room) := by
  cases hq : s.queue with
  | nil => rwa [dispatch_empty hq]
  | cons msg rest =>
    have hlater := Later.delivers s.calls (s.toHub.receive msg now room).2.replies
    rw [dispatch_eq hq]
    refine ⟨fun d hd => ?_, fun id p hp => ?_⟩
    · exact (h.queue d (hq ▸ List.mem_cons_of_mem _ hd)).mono hlater
    · rcases Hub.receive_pending hp with hold | ⟨d, rfl, rfl, rfl⟩
      · exact (h.pending id p hold).mono hlater
      · exact (h.queue d (hq ▸ List.mem_cons_self)).mono hlater

lemma Linked.step (h : Linked s) (op : Op) : Linked (s.step op).1 := by
  by_cases hop : ∃ now room, op = .dispatch now room
  · obtain ⟨now, room, rfl⟩ := hop
    exact h.dispatch now room
  · exact h.frame (frame_step s fun now room heq => hop ⟨now, room, heq⟩)

lemma Linked.new (cfg : HookConfig) : Linked (Bus.new cfg) where
  queue d hd := by cases hd
  pending id p hp := by
    have hnone : (Bus.new cfg).pending[id]? = none := Std.ExtTreeMap.getElem?_empty
    rw [hnone] at hp
    cases hp

lemma linked_after (cfg : HookConfig) (ops : List Op) : Linked (after cfg ops) :=
  invariant_run_all (fun _ op h => h.step op) (Linked.new cfg) ops

/-! ## Answers -/

lemma deliver_cases (x : CallId × VerdictResult) (h : (deliver calls x)[k]? = some c) : calls[k]? = some c ∨
    x.1 = k ∧ ∃ c', calls[k]? = some c' ∧ c'.stage = .waiting none ∧ c = { c' with stage := .waiting (some x.2) } := by
  rcases getElem?_modify_cases h with ⟨hk, c', hc', rfl⟩ | ⟨-, hc⟩
  · by_cases hs : c'.stage = .waiting none
    · exact .inr ⟨hk, c', hc', hs, if_pos hs⟩
    · exact .inl (by rw [if_neg hs]; exact hc')
  · exact .inl hc

/-- An answer that a call has after a message was there before, or is one that the dispatch thread has sent. -/
lemma delivers_cases (xs : List (CallId × VerdictResult)) (h : (xs.foldl deliver calls)[k]? = some c) (hs : c.stage = .waiting (some r)) :
    calls[k]? = some c ∨ (k, r) ∈ xs ∧ ∃ c', calls[k]? = some c' ∧ c'.stage = .waiting none ∧ c'.id = c.id := by
  induction xs generalizing calls with
  | nil => exact .inl h
  | cons x xs ih =>
    rcases ih h with hc | ⟨hmem, c', hc', hwait, hid⟩
    · rcases deliver_cases x hc with hc | ⟨hk, c', hc', hwait, rfl⟩
      · exact .inl hc
      · cases hs
        exact .inr ⟨by rw [← hk]; exact List.mem_cons_self, c', hc', hwait, rfl⟩
    · rcases deliver_cases x hc' with hc | ⟨-, c'', -, -, rfl⟩
      · exact .inr ⟨List.mem_cons_of_mem _ hmem, c', hc, hwait, hid⟩
      · cases hwait

lemma waits_of_getElem? (hc : s.calls[k]? = some c) (hs : c.stage = .waiting none) : s.waits k = true :=
  decide_eq_true (stageOf_eq_some.mpr ⟨c, hc, hs⟩)

/-- What is sent to a call that waits is the verdict on its event. -/
lemma judges_of_reply (hlinked : Linked s) (hq : s.queue = msg :: rest) (hatt : Attentive s (.dispatch now room))
    (hr : (k, r) ∈ (s.toHub.receive msg now room).2.replies) (hc : s.calls[k]? = some c) (hs : c.stage = .waiting none) :
    Judges s k c.id r := by
  have hwaits := waits_of_getElem? hc hs
  rw [Attentive, hq] at hatt
  rcases Hub.receive_replies hr with ⟨x, id, p, rfl, hx, hp, rfl⟩ | ⟨-, ⟨d, rfl, rfl, hserved⟩ | ⟨x, id, p, rfl, hx, hp, rfl⟩⟩
  · obtain ⟨c', hc', -, hid, -⟩ := hlinked.pending id p hp
    cases hc.symm.trans hc'
    exact hid ▸ ⟨x, rest, p, hid ▸ hq, hx, hid ▸ hp, rfl⟩
  · exact absurd (hatt hwaits) (Bool.eq_false_iff.mp hserved)
  · have hmem : (id, p) ∈ s.pending.toList := Std.ExtTreeMap.mem_toList_iff_getElem?_eq_some.mpr hp
    exact absurd hwaits (Bool.eq_false_iff.mp (hatt hx (id, p) hmem))

/-- Every answer that a call has is the verdict on its event. -/
def Answers (cfg : HookConfig) (ops : List Op) (s : Bus) : Prop :=
  ∀ (k : CallId) (c : Call) (r : VerdictResult), s.calls[k]? = some c → c.stage = .waiting (some r) → Judged cfg ops k c.id r

lemma Answers.dispatch (h : Answers cfg ops (after cfg ops)) (hatt : Attentive (after cfg ops) (.dispatch now room)) :
    Answers cfg (ops ++ [.dispatch now room]) ((after cfg ops).dispatch now room) := by
  intro k c r hc hs
  cases hq : (after cfg ops).queue with
  | nil =>
    rw [dispatch_empty hq] at hc
    exact (h k c r hc hs).mono _
  | cons msg rest =>
    rw [dispatch_eq hq] at hc
    rcases delivers_cases _ hc hs with hc | ⟨hr, c', hc', hwait, hid⟩
    · exact (h k c r hc hs).mono _
    · exact .concat now room (hid ▸ judges_of_reply (linked_after cfg ops) hq hatt hr hc' hwait)

lemma Answers.step (h : Answers cfg ops (after cfg ops)) (hatt : Attentive (after cfg ops) op) :
    Answers cfg (ops ++ [op]) ((after cfg ops).step op).1 := by
  by_cases hop : ∃ now room, op = .dispatch now room
  · obtain ⟨now, room, rfl⟩ := hop
    exact h.dispatch hatt
  · have hf := frame_step (after cfg ops) fun now room heq => hop ⟨now, room, heq⟩
    intro k c r hc hs
    exact (h k c r (hf.answers k c r hc hs) hs).mono op

lemma answers_after (hatt : Along Bus.step Attentive (Bus.new cfg) ops) : Answers cfg ops (after cfg ops) := by
  refine invariant_prefix (I := Answers cfg) ?_ (fun ops op h hop => h.step hop) hatt
  intro k c r hc
  cases hc

/-! ## Verdicts -/

lemma lookup_source {flow : Bytes} {v : Verdict} (h : s.lookup flow now = some v) : v.source = .cached := by
  rw [lookup] at h
  split at h
  · cases h
  · split at h
    · cases h
      rfl
    · cases h

/-- A call returns a verdict as the decider's when it has an answer. -/
lemma step_decider {v : Verdict} (h : (s.step op).2 = some (k, v)) (hv : v.source = .decider) :
    ∃ c r, s.calls[k]? = some c ∧ c.stage = .waiting (some r) ∧ v = ⟨r.action, .fromMillis r.delayMs, r.tag, .decider⟩ := by
  cases op with
  | evaluate direction packet now =>
    rw [step, evaluate] at h
    dsimp only at h
    split at h
    · next hlookup =>
      cases h
      cases (lookup_source hlookup).symm.trans hv
    · cases h
  | check k' =>
    rw [step, check] at h
    split at h
    · cases h
    · split at h
      · cases h
      · cases h
        cases hv
  | number k' =>
    rw [step, number] at h
    split at h <;> cases h
  | submit k' now tsMs room =>
    rw [step, submit] at h
    split at h
    · cases h
    · split at h
      · cases h
      · split at h
        · cases h
        · cases h
          cases hv
  | recv k' =>
    rw [step, recv] at h
    split at h
    · next r hstage =>
      cases h
      obtain ⟨c, hc, hs⟩ := stageOf_eq_some.mp hstage
      exact ⟨c, r, hc, hs, rfl⟩
    · cases h
  | timeOut k' =>
    rw [step, timeOut] at h
    split at h
    · cases h
    · cases h
      cases hv
  | hangUp k' =>
    rw [step, hangUp] at h
    split at h
    · cases h
    · cases h
      cases hv
  | client x i => cases h
  | dispatch now room => cases h

/-- The verdicts that were returned as the decider's. -/
def isDecided (x : Option (CallId × Verdict)) : Bool := x.any fun y => y.2.source = .decider

lemma decided_countOutcome (st : HookStats) (v : Verdict) : (st.countOutcome v).decided = st.decided := by
  rw [HookStats.countOutcome]
  split <;> rfl

lemma finish_decided (s : Bus) (st : HookStats) (k : CallId) (v : Verdict) : ({ s with stats := st }.finish k v).1.stats.decided = st.decided :=
  decided_countOutcome st v

lemma evaluate_decided (s : Bus) (direction : Direction) (packet : Bytes) (now : Instant) :
    (s.evaluate direction packet now).1.stats.decided = s.stats.decided ∧ isDecided (s.evaluate direction packet now).2 = false := by
  rw [evaluate]
  dsimp only
  split
  · next v hlookup =>
    refine ⟨decided_countOutcome _ v, ?_⟩
    rw [isDecided, finish, Option.any_some, lookup_source hlookup]
    rfl
  · refine ⟨?_, rfl⟩
    rw [clean]
    split <;> rfl

/-- A step counts the verdict that it returns as the decider's, and nothing else. -/
lemma step_decided (s : Bus) (op : Op) :
    (s.step op).1.stats.decided = s.stats.decided + if isDecided (s.step op).2 then 1 else 0 := by
  have hquiet : ∀ x : Bus × Option (CallId × Verdict), x.1.stats.decided = s.stats.decided → isDecided x.2 = false →
      x.1.stats.decided = s.stats.decided + if isDecided x.2 then 1 else 0 := by
    intro x hx hx'
    rw [hx, hx', if_neg Bool.false_ne_true, UInt64.add_zero]
  cases op with
  | evaluate direction packet now =>
    obtain ⟨hdecided, hquiet'⟩ := evaluate_decided s direction packet now
    exact hquiet _ hdecided hquiet'
  | check k =>
    rw [step, check]
    split
    · exact hquiet _ rfl rfl
    · split
      · exact hquiet _ rfl rfl
      · exact hquiet _ (finish_decided _ _ _ _) rfl
  | number k =>
    rw [step, number]
    split <;> exact hquiet _ rfl rfl
  | submit k now tsMs room =>
    rw [step, submit]
    split
    · exact hquiet _ rfl rfl
    · split
      · exact hquiet _ rfl rfl
      · split
        · exact hquiet _ rfl rfl
        · exact hquiet _ (finish_decided _ _ _ _) rfl
  | recv k =>
    rw [step, recv]
    split
    · exact finish_decided _ _ _ _
    · exact hquiet _ rfl rfl
  | timeOut k =>
    rw [step, timeOut]
    split
    · exact hquiet _ rfl rfl
    · exact hquiet _ (finish_decided _ _ _ _) rfl
  | hangUp k =>
    rw [step, hangUp]
    split
    · exact hquiet _ rfl rfl
    · exact hquiet _ (finish_decided _ _ _ _) rfl
  | client x i =>
    refine hquiet _ ?_ rfl
    rw [step, client]
    dsimp only
    split <;> rfl
  | dispatch now room =>
    refine hquiet _ ?_ rfl
    rw [step]
    cases hq : s.queue with
    | nil => rw [dispatch_empty hq]
    | cons msg rest =>
      rw [dispatch_eq hq]
      exact Hub.receive_decided _ _ _ _

/-- The counter is the number of verdicts returned as the decider's. -/
lemma run_decided (s : Bus) (ops : List Op) : (run Bus.step s ops).1.stats.decided =
    s.stats.decided + UInt64.ofNat ((run Bus.step s ops).2.countP isDecided) := by
  induction ops generalizing s with
  | nil => exact (UInt64.add_zero _).symm
  | cons op ops ih =>
    rw [run_cons, ih, step_decided, List.countP_cons, UInt64.add_assoc]
    congr 1
    split
    · rw [UInt64.ofNat_add, UInt64.add_comm]
      rfl
    · rw [UInt64.zero_add, Nat.add_zero]

/-- While no default is sent to a call that waits, the verdicts returned as the decider's are its own, and the counter is
their number. -/
theorem attributed (cfg : HookConfig) (ops : List Op) (h : Along Bus.step Attentive (Bus.new cfg) ops) :
    (∀ before op rest k v, ops = before ++ op :: rest → ((after cfg before).step op).2 = some (k, v) → v.source = .decider →
      Genuine cfg before k v) ∧
    (after cfg ops).stats.decided = UInt64.ofNat ((run Bus.step (Bus.new cfg) ops).2.countP isDecided) := by
  refine ⟨fun before op rest k v hops hstep hv => ?_, (run_decided _ ops).trans (UInt64.zero_add _)⟩
  obtain ⟨c, r, hc, hs, rfl⟩ := step_decider hstep hv
  rw [hops] at h
  exact ⟨c, r, hc, answers_after (along_append.mp h).1 k c r hc hs, rfl⟩

/-- A decider connects, is asked about a packet and answers. -/
def answeredRun : List Op :=
  [.client 1 (.line (some (.hello (some .decision) none none))), .dispatch 0 fun _ => true,
    .evaluate .out [0x45] 0, .check 0, .number 0, .submit 0 0 0 true, .dispatch 0 fun _ => true,
    .client 1 (.line (some (.verdict 1 .drop 0 0 none))), .dispatch 0 fun _ => true, .recv 0]

theorem attributed_sample : Along Bus.step Attentive (Bus.new .default) answeredRun ∧
    (run Bus.step (Bus.new .default) answeredRun).2.getLast? = some (some (0, ⟨.drop, 0, none, .decider⟩)) ∧
    ((∀ before op rest k v, answeredRun = before ++ op :: rest → ((after .default before).step op).2 = some (k, v) → v.source = .decider →
      Genuine .default before k v) ∧
    (after .default answeredRun).stats.decided = UInt64.ofNat ((run Bus.step (Bus.new .default) answeredRun).2.countP isDecided)) := by
  have h : Along Bus.step Attentive (Bus.new .default) answeredRun := by decide +kernel
  exact ⟨h, by decide +kernel, attributed .default answeredRun h⟩

/-- The decider leaves while a packet is on its way to it. -/
def abandonedRun : List Op :=
  [.client 1 (.line (some (.hello (some .decision) none none))), .dispatch 0 fun _ => true,
    .evaluate .out [0x45] 0, .check 0, .number 0, .client 1 .ended, .submit 0 0 0 true, .dispatch 0 fun _ => true,
    .dispatch 0 fun _ => true]

def verdictFirst : List Msg → Bool
  | .clientVerdict _ _ _ :: _ => true
  | _ => false

lemma not_judged (h : ∀ i < ops.length, verdictFirst (after cfg (ops.take i)).queue = false) : ¬ Judged cfg ops k id r := by
  rintro ⟨before, now, room, rest, rfl, c, rest', p, hq, -⟩
  have hi := h before.length (by rw [List.length_append, List.length_cons]; omega)
  rw [List.take_left, hq] at hi
  cases hi

/-- The caller takes the default for the decider's verdict, and it is counted as one. -/
theorem default_attributed : ((after .default abandonedRun).step (.recv 0)).2 = some (0, ⟨.accept, 0, none, .decider⟩) ∧
    ((after .default abandonedRun).step (.recv 0)).1.stats.decided = 1 ∧
    ¬ ∀ cfg before op k v, ((after cfg before).step op).2 = some (k, v) → v.source = .decider → Genuine cfg before k v := by
  have hstep : ((after .default abandonedRun).step (.recv 0)).2 = some (0, ⟨.accept, 0, none, .decider⟩) := by decide +kernel
  refine ⟨hstep, by decide +kernel, fun hall => ?_⟩
  obtain ⟨c, r, -, hjudged, -⟩ := hall .default abandonedRun (.recv 0) 0 _ hstep rfl
  exact not_judged (by decide +kernel) hjudged

end Bus

end IPv8Plus.Hook
