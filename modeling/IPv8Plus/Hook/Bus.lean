import IPv8Plus.Hook.Protocol

/-!
# The hook bus

`HookBus::evaluate` beside the dispatch thread and the threads of the clients. A call of `evaluate` passes through stages,
between which the other threads may run: it looks into the flow cache, reads the flag, takes an event number, puts its
event in the queue and waits for an answer. Whether a queue without slots finds the dispatch thread waiting is an input.
-/

namespace IPv8Plus.Hook
open Lib

inductive VerdictSource where
  | decider
  | cached
  | noClient
  | timeout
  | backpressure
  | slowDecider
  | deciderGone
  deriving DecidableEq, Repr

structure Verdict where
  action : Action
  delay : Duration
  tag : Option Bytes
  source : VerdictSource
  deriving DecidableEq, Repr

inductive Stage where
  /-- The cache has no verdict. -/
  | missed
  /-- There is a decider. -/
  | asking
  | numbered
  /-- The event is in the queue, and an answer may have come. -/
  | waiting (reply : Option VerdictResult)
  | returned (v : Verdict)
  deriving DecidableEq, Repr

structure Call where
  direction : Direction
  packet : Bytes
  id : UInt64
  stage : Stage
  deriving DecidableEq, Repr

structure Bus extends Hub where
  queue : List Msg
  /-- The calls of `evaluate` so far. -/
  calls : List Call
  threads : UInt64 → ClientThread

def Bus.new (cfg : HookConfig) : Bus := ⟨.new cfg, [], [], fun _ => .new⟩

inductive Op where
  | evaluate (direction : Direction) (packet : Bytes) (now : Instant)
  | check (k : CallId)
  | number (k : CallId)
  | submit (k : CallId) (now : Instant) (tsMs : UInt64) (room : Bool)
  | recv (k : CallId)
  | timeOut (k : CallId)
  | hangUp (k : CallId)
  | client (c : UInt64) (i : Incoming)
  | dispatch (now : Instant) (room : UInt64 → Bool)

/-- A verdict that is returned counts by its action. -/
def HookStats.countOutcome (st : HookStats) (v : Verdict) : HookStats :=
  match v.action with
  | .accept => { st with accepted := st.accepted + 1 }
  | .drop => { st with dropped := st.dropped + 1 }

namespace Bus
variable (s : Bus)

def stageOf (k : CallId) : Option Stage := s.calls[k]?.map Call.stage

def setStage (k : CallId) (stage : Stage) : Bus := { s with calls := s.calls.modify k fun c => { c with stage := stage } }

/-- The call returns. -/
def finish (k : CallId) (v : Verdict) : Bus × Option (CallId × Verdict) :=
  ({ s.setStage k (.returned v) with stats := s.stats.countOutcome v }, some (k, v))

def fallback (k : CallId) (source : VerdictSource) : Bus × Option (CallId × Verdict) :=
  s.finish k ⟨s.cfg.defaultAction, 0, none, source⟩

/-- The cached verdict of a flow. -/
def lookup (flow : Bytes) (now : Instant) : Option Verdict :=
  match s.flows[flow]? with
  | none => none
  | some entry =>
    if now < entry.expires then some { action := entry.action, delay := entry.delay, tag := entry.tag, source := .cached } else none

def clean (now : Instant) : Bus :=
  if 256 < s.flows.size then { s with flows := s.flows.filter fun _ e => now < e.expires } else s

def evaluate (direction : Direction) (packet : Bytes) (now : Instant) : Bus × Option (CallId × Verdict) :=
  let s := { s with calls := s.calls ++ [Call.mk direction packet 0 .missed], stats.seen := s.stats.seen + 1 }
  let k := s.calls.length - 1
  match s.lookup (flowKey (inspect packet)) now with
  | some v => { s with stats.cached := s.stats.cached + 1 }.finish k v
  | none => (s.clean now, none)

def check (k : CallId) : Bus × Option (CallId × Verdict) :=
  if s.stageOf k ≠ some .missed then (s, none)
  else if s.hasDecider then (s.setStage k .asking, none)
  else { s with stats.noClient := s.stats.noClient + 1 }.fallback k .noClient

/-- The event number, from a counter that wraps. -/
def number (k : CallId) : Bus × Option (CallId × Verdict) :=
  if s.stageOf k ≠ some .asking then (s, none)
  else
    ({ s with nextId := s.nextId + 1, calls := s.calls.modify k fun c => { c with id := s.nextId, stage := .numbered } }, none)

def eventOf (c : Call) (tsMs : UInt64) : EventMessage :=
  let info := inspect c.packet
  { id := c.id
    tsMs
    direction := c.direction
    flow := flowKey info
    ipver := info.ipver
    proto := protoName info.protoNum
    protoNum := info.protoNum
    src := info.src
    dst := info.dst
    sport := info.sport
    dport := info.dport
    size := c.packet.length
    payload := c.packet.take s.cfg.payloadPrefix }

/-- `try_send` finds room in the queue. -/
def hasRoom (room : Bool) : Bool :=
  if s.cfg.dispatchCapacity = 0 then room && s.queue.isEmpty else s.queue.length < s.cfg.dispatchCapacity

def submit (k : CallId) (now : Instant) (tsMs : UInt64) (room : Bool) : Bus × Option (CallId × Verdict) :=
  match s.calls[k]? with
  | none => (s, none)
  | some c =>
    if c.stage ≠ .numbered then (s, none)
    else if s.hasRoom room then
      let d : Dispatch := ⟨s.eventOf c tsMs, k, now + s.cfg.timeout, flowKey (inspect c.packet)⟩
      ({ s.setStage k (.waiting none) with queue := s.queue ++ [.dispatch d] }, none)
    else { s with stats.backpressure := s.stats.backpressure + 1 }.fallback k .backpressure

/-- `recv_timeout` finds an answer, whoever has sent it. -/
def recv (k : CallId) : Bus × Option (CallId × Verdict) :=
  match s.stageOf k with
  | some (.waiting (some r)) =>
    { s with stats.decided := s.stats.decided + 1 }.finish k ⟨r.action, .fromMillis r.delayMs, r.tag, .decider⟩
  | _ => (s, none)

def timeOut (k : CallId) : Bus × Option (CallId × Verdict) :=
  if s.stageOf k ≠ some (.waiting none) then (s, none)
  else { s with stats.timeout := s.stats.timeout + 1 }.fallback k .timeout

/-- Somebody can still answer the call. -/
def reachable (k : CallId) : Bool :=
  (s.queue.any fun m => match m with
    | .dispatch d => d.reply = k
    | _ => false) || s.pending.toList.any fun x => x.2.reply = k

def hangUp (k : CallId) : Bus × Option (CallId × Verdict) :=
  if s.stageOf k ≠ some (.waiting none) ∨ s.reachable k then (s, none)
  else { s with stats.deciderGone := s.stats.deciderGone + 1 }.fallback k .deciderGone

/-- A reading thread takes a line; when the queue is full it blocks and the line stays unread. -/
def client (c : UInt64) (i : Incoming) : Bus :=
  let (t, msgs) := (s.threads c).read c i
  if msgs ≠ [] ∧ ¬ s.hasRoom true then s
  else { s with threads := fun x => if x = c then t else s.threads x, queue := s.queue ++ msgs }

/-- An answer reaches a call that waits for one; a call that has returned does not get it. -/
def deliver (calls : List Call) (x : CallId × VerdictResult) : List Call :=
  calls.modify x.1 fun c => if c.stage = .waiting none then { c with stage := .waiting (some x.2) } else c

/-- The dispatch thread takes a message from the queue. -/
def dispatch (now : Instant) (room : UInt64 → Bool) : Bus :=
  match s.queue with
  | [] => s
  | msg :: rest =>
    let (hub, sent) := s.toHub.receive msg now room
    { s with toHub := hub, queue := rest, calls := sent.replies.foldl deliver s.calls }

/-- One step of one of the threads, and the verdict if a call returns. -/
def step : Op → Bus × Option (CallId × Verdict)
  | .evaluate direction packet now => s.evaluate direction packet now
  | .check k => s.check k
  | .number k => s.number k
  | .submit k now tsMs room => s.submit k now tsMs room
  | .recv k => s.recv k
  | .timeOut k => s.timeOut k
  | .hangUp k => s.hangUp k
  | .client c i => (s.client c i, none)
  | .dispatch now room => (s.dispatch now room, none)

/-! ## What a step changes -/

variable {s} {s' : Bus} {calls calls' : List Call} {k : CallId} {c c' : Call} {stage : Stage} {v : Verdict} {op : Op}

/-- The event of the call is in the queue or has been. -/
def Settled (c : Call) : Prop :=
  match c.stage with
  | .waiting _ => True
  | .returned _ => True
  | _ => False

/-- Calls keep their packets, and their numbers once their events are in the queue. -/
def Later (calls calls' : List Call) : Prop :=
  ∀ (k : CallId) (c : Call), calls[k]? = some c → ∃ c' : Call, calls'[k]? = some c' ∧ c'.packet = c.packet ∧
    (Settled c → Settled c' ∧ c'.id = c.id)

lemma Later.refl (calls : List Call) : Later calls calls := fun _ c h => ⟨c, h, rfl, fun hs => ⟨hs, rfl⟩⟩

lemma Later.trans {calls'' : List Call} (h : Later calls calls') (h' : Later calls' calls'') : Later calls calls'' := by
  intro k c hc
  obtain ⟨c', hc', hpacket, hsettled⟩ := h k c hc
  obtain ⟨c'', hc'', hpacket', hsettled'⟩ := h' k c' hc'
  refine ⟨c'', hc'', hpacket'.trans hpacket, fun hs => ?_⟩
  obtain ⟨hs', hid⟩ := hsettled hs
  obtain ⟨hs'', hid'⟩ := hsettled' hs'
  exact ⟨hs'', hid'.trans hid⟩

lemma Later.append (calls : List Call) (c : Call) : Later calls (calls ++ [c]) := by
  intro k c' hc
  obtain ⟨hlt, -⟩ := List.getElem?_eq_some_iff.mp hc
  exact ⟨c', by rw [List.getElem?_append_left hlt, hc], rfl, fun hs => ⟨hs, rfl⟩⟩

lemma getElem?_modify_cases {f : Call → Call} {j : CallId} (h : (calls.modify k f)[j]? = some c') :
    (k = j ∧ ∃ c, calls[j]? = some c ∧ c' = f c) ∨ (k ≠ j ∧ calls[j]? = some c') := by
  rw [List.getElem?_modify] at h
  by_cases hk : k = j
  · cases hc : calls[j]? with
    | none =>
      rw [hc] at h
      cases h
    | some c =>
      rw [hc, Option.map_eq_map, Option.map_some, if_pos hk] at h
      exact .inl ⟨hk, c, rfl, (Option.some.inj h).symm⟩
  · cases hc : calls[j]? with
    | none =>
      rw [hc] at h
      cases h
    | some c =>
      rw [hc, Option.map_eq_map, Option.map_some, if_neg hk] at h
      exact .inr ⟨hk, congrArg some (Option.some.inj h)⟩

lemma Later.modify {f : Call → Call} (hf : ∀ c, calls[k]? = some c → (f c).packet = c.packet ∧ (Settled c → Settled (f c) ∧ (f c).id = c.id)) :
    Later calls (calls.modify k f) := by
  intro j c hc
  rw [List.getElem?_modify, hc, Option.map_eq_map, Option.map_some]
  by_cases hk : k = j
  · subst hk
    exact ⟨f c, by rw [if_pos rfl], hf c hc⟩
  · exact ⟨c, by rw [if_neg hk], rfl, fun hs => ⟨hs, rfl⟩⟩

/-- A call goes on to a later stage. -/
lemma Later.setStage (h : Settled ⟨.out, [], 0, stage⟩ ∨ ∀ c, calls[k]? = some c → ¬ Settled c) :
    Later calls (calls.modify k fun c => { c with stage := stage }) := by
  refine .modify fun c hc => ⟨rfl, fun hs => ⟨?_, rfl⟩⟩
  rcases h with h | h
  · exact h
  · exact absurd hs (h c hc)

lemma Later.deliver (x : CallId × VerdictResult) : Later calls (deliver calls x) := by
  refine .modify fun c _ => ?_
  split
  · exact ⟨rfl, fun _ => ⟨trivial, rfl⟩⟩
  · exact ⟨rfl, fun hs => ⟨hs, rfl⟩⟩

lemma Later.delivers (calls : List Call) (xs : List (CallId × VerdictResult)) : Later calls (xs.foldl Bus.deliver calls) := by
  induction xs generalizing calls with
  | nil => exact .refl calls
  | cons x xs ih => exact (Later.deliver x).trans (ih _)

lemma stageOf_eq_some : s.stageOf k = some stage ↔ ∃ c, s.calls[k]? = some c ∧ c.stage = stage := Option.map_eq_some_iff

/-- The call has put an event with this number and this flow in the queue. -/
def Asks (calls : List Call) (k : CallId) (id : UInt64) (flow : Bytes) : Prop :=
  ∃ c : Call, calls[k]? = some c ∧ Settled c ∧ c.id = id ∧ flow = flowKey (inspect c.packet)

lemma Asks.mono {id : UInt64} {flow : Bytes} (hlater : Later calls calls') (h : Asks calls k id flow) : Asks calls' k id flow := by
  obtain ⟨c, hc, hsettled, hid, hflow⟩ := h
  obtain ⟨c', hc', hpacket, hkeep⟩ := hlater k c hc
  obtain ⟨hsettled', hid'⟩ := hkeep hsettled
  exact ⟨c', hc', hsettled', hid'.trans hid, by rw [hpacket, hflow]⟩

/-- What the steps of the callers and the clients leave to the dispatch thread. -/
structure Frame (s s' : Bus) : Prop where
  cfg : s'.cfg = s.cfg
  clients : s'.clients = s.clients
  decider : s'.decider = s.decider
  pending : s'.pending = s.pending
  flows : ∀ (key : Bytes) (e : CachedEntry), s'.flows[key]? = some e → s.flows[key]? = some e
  later : Later s.calls s'.calls
  queue : ∀ d, Msg.dispatch d ∈ s'.queue → Msg.dispatch d ∈ s.queue ∨ Asks s'.calls d.reply d.eventLine.id d.flow
  answers : ∀ (k : CallId) (c : Call) r, s'.calls[k]? = some c → c.stage = .waiting (some r) → s.calls[k]? = some c

lemma Frame.refl (s : Bus) : Frame s s :=
  ⟨rfl, rfl, rfl, rfl, fun _ _ h => h, .refl _, fun _ h => .inl h, fun _ _ _ h _ => h⟩

/-- Steps that change the calls alone. -/
lemma Frame.ofCalls {st : HookStats} {n : UInt64} (hlater : Later s.calls calls)
    (hanswers : ∀ (k : CallId) (c : Call) r, calls[k]? = some c → c.stage = .waiting (some r) → s.calls[k]? = some c) :
    Frame s { s with calls := calls, stats := st, nextId := n } :=
  ⟨rfl, rfl, rfl, rfl, fun _ _ h => h, hlater, fun _ h => .inl h, hanswers⟩

lemma answers_modify {f : Call → Call} (hf : ∀ c r, (f c).stage ≠ .waiting (some r)) {r : VerdictResult} {j : CallId}
    (hc : (calls.modify k f)[j]? = some c) (hs : c.stage = .waiting (some r)) : calls[j]? = some c := by
  rcases getElem?_modify_cases hc with ⟨-, c', -, rfl⟩ | ⟨-, hc⟩
  · exact absurd hs (hf c' r)
  · exact hc

lemma frame_finish (s : Bus) (st : HookStats) (k : CallId) (v : Verdict) : Frame s ({ s with stats := st }.finish k v).1 :=
  Frame.ofCalls (.setStage (.inl trivial)) fun _ _ _ hc hs => answers_modify (fun _ _ => Stage.noConfusion) hc hs

lemma frame_evaluate (s : Bus) (direction : Direction) (packet : Bytes) (now : Instant) : Frame s (s.evaluate direction packet now).1 := by
  have hanswers : ∀ (k : CallId) (c : Call) r, (s.calls ++ [Call.mk direction packet 0 .missed])[k]? = some c →
      c.stage = .waiting (some r) → s.calls[k]? = some c := by
    intro k c r hc hs
    by_cases hlt : k < s.calls.length
    · rwa [List.getElem?_append_left hlt] at hc
    · rw [List.getElem?_append_right (Nat.le_of_not_lt hlt), List.getElem?_singleton] at hc
      split at hc
      · cases hc
        cases hs
      · cases hc
  rw [evaluate]
  dsimp only
  split
  · refine Frame.ofCalls ((Later.append _ _).trans (.setStage (.inl trivial))) fun k c r hc hs => ?_
    exact hanswers k c r (answers_modify (fun _ _ => Stage.noConfusion) hc hs) hs
  · rw [clean]
    split
    · refine ⟨rfl, rfl, rfl, rfl, fun key e he => ?_, Later.append _ _, fun _ h => .inl h, hanswers⟩
      dsimp only at he
      rw [Std.ExtTreeMap.getElem?_filter', Option.filter_eq_some_iff] at he
      exact he.1
    · exact Frame.ofCalls (Later.append _ _) hanswers

lemma frame_submit (s : Bus) (k : CallId) (now : Instant) (tsMs : UInt64) (room : Bool) : Frame s (s.submit k now tsMs room).1 := by
  rw [submit]
  cases hc : s.calls[k]? with
  | none => exact .refl s
  | some c =>
    dsimp only
    split
    · exact .refl s
    · next hstage =>
      split
      · refine ⟨rfl, rfl, rfl, rfl, fun _ _ h => h, .setStage (.inl trivial), fun d hd => ?_, fun _ _ _ hc hs => ?_⟩
        · rcases List.mem_append.mp hd with hd | hd
          · exact .inl hd
          · cases List.mem_singleton.mp hd
            refine .inr ⟨{ c with stage := .waiting none }, ?_, trivial, rfl, rfl⟩
            rw [setStage, List.getElem?_modify, hc, Option.map_eq_map, Option.map_some, if_pos rfl]
        · exact answers_modify (fun _ _ h => by cases h) hc hs
      · exact frame_finish s _ k _

lemma frame_client (s : Bus) (x : UInt64) (i : Incoming) : Frame s (s.client x i) := by
  rw [client]
  cases hread : (s.threads x).read x i with
  | mk t msgs =>
    dsimp only
    split
    · exact .refl s
    · refine ⟨rfl, rfl, rfl, rfl, fun _ _ h => h, .refl _, fun d hd => ?_, fun _ _ _ h _ => h⟩
      rcases List.mem_append.mp hd with hd | hd
      · exact .inl hd
      · obtain ⟨-, hreply, -⟩ := read_spec hread hd
        cases hreply

lemma not_settled {stage : Stage} (h : s.stageOf k = some stage) (hs : stage = .missed ∨ stage = .asking) :
    ∀ c, s.calls[k]? = some c → ¬ Settled c := by
  intro c hc hsettled
  obtain ⟨c', hc', hstage⟩ := stageOf_eq_some.mp h
  cases hc.symm.trans hc'
  rw [Settled, hstage] at hsettled
  rcases hs with rfl | rfl <;> exact hsettled

/-- Every step but one of the dispatch thread. -/
lemma frame_step (s : Bus) (hop : ∀ now room, op ≠ .dispatch now room) : Frame s (s.step op).1 := by
  cases op with
  | evaluate direction packet now => exact frame_evaluate s direction packet now
  | check k =>
    rw [step, check]
    split
    · exact .refl s
    · next hmissed =>
      split
      · exact Frame.ofCalls (.setStage (.inr (not_settled (not_not.mp hmissed) (.inl rfl)))) fun _ _ _ hc hs =>
          answers_modify (fun _ _ => Stage.noConfusion) hc hs
      · exact frame_finish s _ k _
  | number k =>
    rw [step, number]
    split
    · exact .refl s
    · next hasking =>
      have hnot := not_settled (not_not.mp hasking) (.inr rfl)
      exact Frame.ofCalls (.modify fun c hc => ⟨rfl, fun hs => absurd hs (hnot c hc)⟩) fun _ _ _ hc hs =>
        answers_modify (fun _ _ => Stage.noConfusion) hc hs
  | submit k now tsMs room => exact frame_submit s k now tsMs room
  | recv k =>
    rw [step, recv]
    split
    · exact frame_finish s _ k _
    · exact .refl s
  | timeOut k =>
    rw [step, timeOut]
    split
    · exact .refl s
    · exact frame_finish s _ k _
  | hangUp k =>
    rw [step, hangUp]
    split
    · exact .refl s
    · exact frame_finish s _ k _
  | client x i => exact frame_client s x i
  | dispatch now room => exact absurd rfl (hop now room)

end Bus

end IPv8Plus.Hook
