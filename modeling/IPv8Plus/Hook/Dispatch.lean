import IPv8Plus.Hook.Inspect
import IPv8Plus.Lib.Maps
import IPv8Plus.Lib.Run

/-!
# The dispatch thread

`core/ipv8-hook/src/lib.rs`, `dispatch_loop` and `client_thread`: the thread that owns the table of clients, the decision
slot and the table of events that wait for a verdict, and the threads that read the clients' messages. A reply channel is
the number of the call of `evaluate` that made it, the writer of a client is the client's number. Clock readings are
inputs, and so is whether a writer's queue takes a line. An event line is the record it is the text of.
-/

namespace IPv8Plus.Hook
open Lib

inductive Direction where
  | out
  | «in»
  deriving DecidableEq, Repr

inductive ClientMode where
  | decision
  | observer
  deriving DecidableEq, Repr

inductive Action where
  | accept
  | drop
  deriving DecidableEq, Repr

/-- Nanoseconds, of a clock and between two of its readings. -/
abbrev Instant := Nat

abbrev Duration := Nat

def Duration.fromMillis (ms : UInt64) : Duration := ms.toNat * 10 ^ 6

structure HookConfig where
  timeout : Duration
  defaultAction : Action
  payloadPrefix : Nat
  flowTtlCap : Duration
  dispatchCapacity : Nat
  deriving Repr

/-- `HookConfig`'s `Default`. -/
def HookConfig.default : HookConfig := ⟨50 * 10 ^ 6, .accept, 128, 300 * 10 ^ 9, 2048⟩

structure HookStats where
  seen : UInt64
  cached : UInt64
  decided : UInt64
  noClient : UInt64
  timeout : UInt64
  backpressure : UInt64
  deciderGone : UInt64
  accepted : UInt64
  dropped : UInt64
  deriving DecidableEq, Repr

def HookStats.zero : HookStats := ⟨0, 0, 0, 0, 0, 0, 0, 0, 0⟩

structure CachedEntry where
  action : Action
  delay : Duration
  tag : Option Bytes
  expires : Instant
  deriving DecidableEq, Repr

structure EventMessage where
  id : UInt64
  tsMs : UInt64
  direction : Direction
  flow : Bytes
  ipver : UInt8
  proto : Bytes
  protoNum : UInt8
  src : Bytes
  dst : Bytes
  sport : UInt16
  dport : UInt16
  size : Nat
  payload : Bytes
  deriving DecidableEq, Repr

/-- A call of `evaluate`, which its reply channel belongs to. -/
abbrev CallId := Nat

structure Dispatch where
  eventLine : EventMessage
  reply : CallId
  deadline : Instant
  flow : Bytes
  deriving DecidableEq, Repr

structure VerdictResult where
  action : Action
  delayMs : UInt64
  ttlMs : UInt64
  tag : Option Bytes
  deriving DecidableEq, Repr

inductive Msg where
  | dispatch (d : Dispatch)
  | hello (clientId : UInt64) (mode : ClientMode) (name : Bytes)
  | clientVerdict (clientId id : UInt64) (result : VerdictResult)
  | getStats
  | disconnect (clientId : UInt64)
  deriving DecidableEq, Repr

structure ClientSlot where
  mode : ClientMode
  name : Bytes
  deriving DecidableEq, Repr

structure Pending where
  reply : CallId
  deadline : Instant
  flow : Bytes
  deriving DecidableEq, Repr

/-- What the threads share, apart from the queue. -/
structure Inner where
  cfg : HookConfig
  stats : HookStats
  nextId : UInt64
  hasDecider : Bool
  flows : Std.ExtTreeMap Bytes CachedEntry

/-- The shared state and the tables of the dispatch thread. -/
structure Hub extends Inner where
  clients : Std.ExtTreeMap UInt64 ClientSlot
  decider : Option UInt64
  pending : Std.ExtTreeMap UInt64 Pending

def Hub.new (cfg : HookConfig) : Hub := ⟨⟨cfg, .zero, 1, false, ∅⟩, ∅, none, ∅⟩

/-- A line put in a writer's queue. -/
inductive Line where
  | helloAck (ok : Bool) (mode : ClientMode) (reason : Option String)
  | event (e : EventMessage)
  deriving DecidableEq, Repr

structure StatsReply where
  decided : UInt64
  cached : UInt64
  fallback : UInt64
  accepted : UInt64
  dropped : UInt64
  observers : Nat
  decider : Option Bytes
  deriving DecidableEq, Repr

/-- What the dispatch thread sends out for one message. -/
structure Sent where
  replies : List (CallId × VerdictResult)
  lines : List (UInt64 × Line)
  stats : Option StatsReply
  deriving DecidableEq, Repr

def Sent.nothing : Sent := ⟨[], [], none⟩

def defaultResult (cfg : HookConfig) : VerdictResult := ⟨cfg.defaultAction, 0, 0, none⟩

def Sent.default (cfg : HookConfig) (reply : CallId) : Sent := ⟨[(reply, defaultResult cfg)], [], none⟩

namespace Hub
variable (s : Hub)

def hello (clientId : UInt64) (mode : ClientMode) (name : Bytes) : Hub × Sent :=
  if mode = .decision ∧ s.decider = none then
    ({ s with decider := some clientId, hasDecider := true, clients := s.clients.insert clientId ⟨.decision, name⟩ },
      ⟨[], [(clientId, .helloAck true .decision none)], none⟩)
  else
    let ack : Line := if mode = .decision then .helloAck false .observer (some "decision slot occupied; downgraded to observer")
      else .helloAck true .observer none
    ({ s with clients := s.clients.insert clientId ⟨.observer, name⟩ }, ⟨[], [(clientId, ack)], none⟩)

/-- Events past their deadline leave a table that has grown large. -/
def prune (now : Instant) : Hub :=
  if 1024 < s.pending.size then { s with pending := s.pending.filter fun _ p => now < p.deadline } else s

/-- The observers other than the decider whose queues take the line. -/
def copies (decider : UInt64) (e : EventMessage) (room : UInt64 → Bool) : List (UInt64 × Line) :=
  (s.clients.toList.filter fun c => c.1 ≠ decider ∧ c.2.mode = .observer ∧ room c.1).map fun c => (c.1, .event e)

/-- There is a decider, and its queue takes the line. -/
def served (room : UInt64 → Bool) : Bool := s.decider.any fun d => s.clients[d]?.isSome && room d

def offer (d : Dispatch) (room : UInt64 → Bool) : Hub × Sent :=
  match s.decider with
  | none => (s, .default s.cfg d.reply)
  | some deciderId =>
    match s.clients[deciderId]? with
    | none => (s, .default s.cfg d.reply)
    | some _ =>
      if room deciderId then
        ({ s with pending := s.pending.insert d.eventLine.id ⟨d.reply, d.deadline, d.flow⟩ },
          ⟨[], (deciderId, .event d.eventLine) :: s.copies deciderId d.eventLine room, none⟩)
      else ({ s with stats.backpressure := s.stats.backpressure + 1 }, .default s.cfg d.reply)

def dispatch (d : Dispatch) (now : Instant) (room : UInt64 → Bool) : Hub × Sent := (s.prune now).offer d room

/-- A verdict with a time to live is kept for the packets of the same flow. -/
def remember (flow : Bytes) (result : VerdictResult) (now : Instant) : Hub :=
  if 0 < result.ttlMs then
    let ttl := min (Duration.fromMillis result.ttlMs) s.cfg.flowTtlCap
    { s with flows := s.flows.insert flow ⟨result.action, .fromMillis result.delayMs, result.tag, now + ttl⟩ }
  else s

def clientVerdict (clientId id : UInt64) (result : VerdictResult) (now : Instant) : Hub × Sent :=
  if s.decider ≠ some clientId then (s, .nothing)
  else
    match s.pending[id]? with
    | none => (s, .nothing)
    | some p => ({ s with pending := s.pending.erase id }.remember p.flow result now, ⟨[(p.reply, result)], [], none⟩)

/-- `HookStats::snapshot` and the counts of the dispatch thread. -/
def statsReply : StatsReply :=
  { decided := s.stats.decided
    cached := s.stats.cached
    fallback := s.stats.noClient + s.stats.timeout + s.stats.backpressure + s.stats.deciderGone
    accepted := s.stats.accepted
    dropped := s.stats.dropped
    observers := (s.clients.filter fun _ c => c.mode = .observer).size
    decider := s.decider.bind fun d => s.clients[d]?.map ClientSlot.name }

def disconnect (clientId : UInt64) : Hub × Sent :=
  let s := { s with clients := s.clients.erase clientId }
  if s.decider = some clientId then
    ({ s with decider := none, hasDecider := false, pending := ∅ },
      ⟨s.pending.toList.map fun x => (x.2.reply, defaultResult s.cfg), [], none⟩)
  else (s, .nothing)

/-- One turn of `dispatch_loop`. -/
def receive (msg : Msg) (now : Instant) (room : UInt64 → Bool) : Hub × Sent :=
  match msg with
  | .dispatch d => s.dispatch d now room
  | .hello clientId mode name => s.hello clientId mode name
  | .clientVerdict clientId id result => s.clientVerdict clientId id result now
  | .getStats => (s, ⟨[], [], some s.statsReply⟩)
  | .disconnect clientId => s.disconnect clientId

end Hub

namespace Hub
variable {s : Hub} {clientId id : UInt64} {mode : ClientMode} {name : Bytes} {d : Dispatch} {result : VerdictResult} {now : Instant}
  {room : UInt64 → Bool} {p : Pending} {flow : Bytes}

lemma hello_cases (s : Hub) (clientId : UInt64) (mode : ClientMode) (name : Bytes) : (mode = .decision ∧ s.decider = none ∧ s.hello clientId mode name =
      ({ s with decider := some clientId, hasDecider := true, clients := s.clients.insert clientId ⟨.decision, name⟩ },
        ⟨[], [(clientId, .helloAck true .decision none)], none⟩)) ∨
    ∃ lines, s.hello clientId mode name = ({ s with clients := s.clients.insert clientId ⟨.observer, name⟩ }, ⟨[], lines, none⟩) := by
  by_cases h : mode = .decision ∧ s.decider = none
  · exact .inl ⟨h.1, h.2, by rw [hello, if_pos h]⟩
  · exact .inr ⟨_, by rw [hello, if_neg h]⟩

lemma prune_eq (s : Hub) (now : Instant) : ∃ pending, s.prune now = { s with pending := pending } ∧
    ∀ {id : UInt64} {p : Pending}, pending[id]? = some p → s.pending[id]? = some p := by
  rw [prune]
  split
  · refine ⟨_, rfl, fun h => ?_⟩
    rw [Std.ExtTreeMap.getElem?_filter', Option.filter_eq_some_iff] at h
    exact h.1
  · exact ⟨_, rfl, id⟩

/-- An event is put to the decider, or answered with the default at once. -/
lemma offer_cases (s : Hub) (d : Dispatch) (room : UInt64 → Bool) : (s.served room = false ∧ ∃ stats, stats.decided = s.stats.decided ∧ s.offer d room = ({ s with stats := stats }, .default s.cfg d.reply)) ∨
    ∃ deciderId slot, s.decider = some deciderId ∧ s.clients[deciderId]? = some slot ∧ room deciderId = true ∧ s.offer d room =
      ({ s with pending := s.pending.insert d.eventLine.id ⟨d.reply, d.deadline, d.flow⟩ },
        ⟨[], (deciderId, .event d.eventLine) :: s.copies deciderId d.eventLine room, none⟩) := by
  cases hdecider : s.decider with
  | none =>
    have h : s.offer d room = (s, .default s.cfg d.reply) := by rw [offer, hdecider]
    exact .inl ⟨by rw [served, hdecider]; rfl, s.stats, rfl, hdecider ▸ h⟩
  | some deciderId =>
    cases hslot : s.clients[deciderId]? with
    | none =>
      have h : s.offer d room = (s, .default s.cfg d.reply) := by
        rw [offer, hdecider]
        dsimp only
        rw [hslot]
      exact .inl ⟨by rw [served, hdecider, Option.any_some, hslot]; rfl, s.stats, rfl, hdecider ▸ h⟩
    | some slot =>
      rw [offer, hdecider]
      dsimp only
      rw [hslot]
      dsimp only
      split
      · next hroom => exact .inr ⟨_, _, rfl, hslot, hroom, rfl⟩
      · next hroom => exact .inl ⟨by rw [served, hdecider, Option.any_some, Bool.eq_false_iff.mpr hroom, Bool.and_false],
          { s.stats with backpressure := s.stats.backpressure + 1 }, rfl, rfl⟩

/-- A dispatched event: what is left of the table, and then one of the two. -/
lemma dispatch_cases (s : Hub) (d : Dispatch) (now : Instant) (room : UInt64 → Bool) : ∃ pending, (∀ {id : UInt64} {p : Pending}, pending[id]? = some p → s.pending[id]? = some p) ∧
    ((s.served room = false ∧ ∃ stats, stats.decided = s.stats.decided ∧ s.dispatch d now room = ({ s with stats := stats, pending := pending }, .default s.cfg d.reply)) ∨
      ∃ deciderId slot lines, s.decider = some deciderId ∧ s.clients[deciderId]? = some slot ∧ room deciderId = true ∧
        s.dispatch d now room = ({ s with pending := pending.insert d.eventLine.id ⟨d.reply, d.deadline, d.flow⟩ },
          ⟨[], (deciderId, .event d.eventLine) :: lines, none⟩)) := by
  obtain ⟨pending, hprune, hsub⟩ := prune_eq s now
  refine ⟨pending, hsub, ?_⟩
  rw [dispatch, hprune]
  rcases offer_cases { s with pending := pending } d room with
    ⟨hserved, stats, hdecided, h⟩ | ⟨deciderId, slot, hd, hc, hr, h⟩
  · exact .inl ⟨hserved, stats, hdecided, h⟩
  · exact .inr ⟨deciderId, slot, _, hd, hc, hr, h⟩

/-- What the cache holds after a verdict. -/
def flowsAfter (s : Hub) (flow : Bytes) (result : VerdictResult) (now : Instant) : Std.ExtTreeMap Bytes CachedEntry :=
  if 0 < result.ttlMs then
    s.flows.insert flow ⟨result.action, .fromMillis result.delayMs, result.tag, now + min (Duration.fromMillis result.ttlMs) s.cfg.flowTtlCap⟩
  else s.flows

lemma remember_eq (s : Hub) (flow : Bytes) (result : VerdictResult) (now : Instant) :
    s.remember flow result now = { s with flows := s.flowsAfter flow result now } := by
  rw [flowsAfter, remember]
  split <;> rfl

lemma getElem?_flowsAfter (key : Bytes) : (s.flowsAfter flow result now)[key]? =
    if 0 < result.ttlMs ∧ flow = key then
      some ⟨result.action, .fromMillis result.delayMs, result.tag, now + min (Duration.fromMillis result.ttlMs) s.cfg.flowTtlCap⟩
    else s.flows[key]? := by
  rw [flowsAfter]
  by_cases httl : 0 < result.ttlMs
  · rw [if_pos httl, getElem?_insert_ite]
    by_cases hflow : flow = key
    · rw [if_pos hflow, if_pos ⟨httl, hflow⟩]
    · rw [if_neg hflow, if_neg fun h => hflow h.2]
  · rw [if_neg httl, if_neg fun h => httl h.1]

/-- A verdict does nothing, or it is the holder's and answers an event that waits for it. -/
lemma clientVerdict_cases (s : Hub) (clientId id : UInt64) (result : VerdictResult) (now : Instant) : s.clientVerdict clientId id result now = (s, .nothing) ∨
    ∃ p, s.decider = some clientId ∧ s.pending[id]? = some p ∧ s.clientVerdict clientId id result now =
      ({ s with pending := s.pending.erase id, flows := s.flowsAfter p.flow result now }, ⟨[(p.reply, result)], [], none⟩) := by
  rw [clientVerdict]
  by_cases h : s.decider = some clientId
  · rw [if_neg (not_not.mpr h)]
    cases hp : s.pending[id]? with
    | none => exact .inl rfl
    | some p => exact .inr ⟨p, h, rfl, by dsimp only; rw [remember_eq]; rfl⟩
  · exact .inl (if_pos h)

lemma clientVerdict_ignored (h : s.decider ≠ some clientId) : s.clientVerdict clientId id result now = (s, .nothing) := if_pos h

lemma disconnect_holder (h : s.decider = some clientId) : s.disconnect clientId =
    ({ s with clients := s.clients.erase clientId, decider := none, hasDecider := false, pending := ∅ },
      ⟨s.pending.toList.map fun x => (x.2.reply, defaultResult s.cfg), [], none⟩) := if_pos h

lemma disconnect_other (h : s.decider ≠ some clientId) : s.disconnect clientId = ({ s with clients := s.clients.erase clientId }, .nothing) :=
  if_neg h

lemma getElem?_erase_pending {pending : Std.ExtTreeMap UInt64 Pending} {id' : UInt64} (h : (pending.erase id)[id']? = some p) :
    id ≠ id' ∧ pending[id']? = some p := by
  rw [getElem?_erase_ite] at h
  split at h
  · cases h
  · next hne => exact ⟨hne, h⟩

/-- What one turn of the dispatch thread does with each message. -/
inductive Receives (s : Hub) (now : Instant) (room : UInt64 → Bool) : Msg → Hub × Sent → Prop
  | refused (d : Dispatch) {stats : HookStats} {pending : Std.ExtTreeMap UInt64 Pending}
      (kept : ∀ {id : UInt64} {p : Pending}, pending[id]? = some p → s.pending[id]? = some p) (served : s.served room = false)
      (decided : stats.decided = s.stats.decided) :
    Receives s now room (.dispatch d) ({ s with stats, pending }, .default s.cfg d.reply)
  | asked (d : Dispatch) {pending : Std.ExtTreeMap UInt64 Pending} {lines : List (UInt64 × Line)}
      (kept : ∀ {id : UInt64} {p : Pending}, pending[id]? = some p → s.pending[id]? = some p) :
    Receives s now room (.dispatch d)
      ({ s with pending := pending.insert d.eventLine.id ⟨d.reply, d.deadline, d.flow⟩ }, ⟨[], lines, none⟩)
  | hello (clientId : UInt64) (mode : ClientMode) (name : Bytes) {decider : Option UInt64} {hasDecider : Bool} {slot : ClientSlot}
      {lines : List (UInt64 × Line)} :
    Receives s now room (.hello clientId mode name)
      ({ s with decider, hasDecider, clients := s.clients.insert clientId slot }, ⟨[], lines, none⟩)
  | ignored (clientId id : UInt64) (result : VerdictResult) : Receives s now room (.clientVerdict clientId id result) (s, .nothing)
  | answered (clientId id : UInt64) (result : VerdictResult) {p : Pending} (holder : s.decider = some clientId)
      (waits : s.pending[id]? = some p) :
    Receives s now room (.clientVerdict clientId id result)
      ({ s with pending := s.pending.erase id, flows := s.flowsAfter p.flow result now }, ⟨[(p.reply, result)], [], none⟩)
  | stats : Receives s now room .getStats (s, ⟨[], [], some s.statsReply⟩)
  | holderLeft (clientId : UInt64) (holder : s.decider = some clientId) :
    Receives s now room (.disconnect clientId)
      ({ s with clients := s.clients.erase clientId, decider := none, hasDecider := false, pending := ∅ },
        ⟨s.pending.toList.map fun x => (x.2.reply, defaultResult s.cfg), [], none⟩)
  | otherLeft (clientId : UInt64) : Receives s now room (.disconnect clientId) ({ s with clients := s.clients.erase clientId }, .nothing)

theorem receives (s : Hub) (msg : Msg) (now : Instant) (room : UInt64 → Bool) : Receives s now room msg (s.receive msg now room) := by
  cases msg with
  | dispatch d =>
    obtain ⟨pending, hsub, ⟨hserved, stats, hdecided, heq⟩ | ⟨_, _, lines, -, -, -, heq⟩⟩ := dispatch_cases s d now room
    · rw [receive, heq]
      exact .refused d hsub hserved hdecided
    · rw [receive, heq]
      exact .asked d hsub
  | hello clientId mode name =>
    rcases hello_cases s clientId mode name with ⟨-, -, heq⟩ | ⟨lines, heq⟩
    · rw [receive, heq]
      exact .hello clientId mode name
    · rw [receive, heq]
      exact .hello clientId mode name
  | clientVerdict clientId id result =>
    rcases clientVerdict_cases s clientId id result now with heq | ⟨p, hd, hp, heq⟩
    · rw [receive, heq]
      exact .ignored clientId id result
    · rw [receive, heq]
      exact .answered clientId id result hd hp
  | getStats => exact .stats
  | disconnect clientId =>
    by_cases hdecider : s.decider = some clientId
    · rw [receive, disconnect_holder hdecider]
      exact .holderLeft clientId hdecider
    · rw [receive, disconnect_other hdecider]
      exact .otherLeft clientId

/-- Only a dispatched event comes to the table of events that wait. -/
lemma receive_pending {msg : Msg} (h : (s.receive msg now room).1.pending[id]? = some p) :
    s.pending[id]? = some p ∨ ∃ d, msg = .dispatch d ∧ d.eventLine.id = id ∧ p = ⟨d.reply, d.deadline, d.flow⟩ := by
  have ht := receives s msg now room
  generalize s.receive msg now room = x at h ht
  cases ht with
  | refused d kept => exact .inl (kept h)
  | asked d kept =>
    dsimp only at h
    rw [getElem?_insert_ite] at h
    by_cases hid : d.eventLine.id = id
    · rw [if_pos hid] at h
      exact .inr ⟨d, rfl, hid, (Option.some.inj h).symm⟩
    · rw [if_neg hid] at h
      exact .inl (kept h)
  | hello => exact .inl h
  | ignored => exact .inl h
  | answered => exact .inl (getElem?_erase_pending h).2
  | stats => exact .inl h
  | holderLeft =>
    dsimp only at h
    rw [Std.ExtTreeMap.getElem?_empty] at h
    cases h
  | otherLeft => exact .inl h

/-- An answer is the verdict of the holder of the slot, or the default. -/
lemma receive_replies {msg : Msg} {reply : CallId} (h : (reply, result) ∈ (s.receive msg now room).2.replies) :
    (∃ (c id : UInt64) (p : Pending), msg = .clientVerdict c id result ∧ s.decider = some c ∧ s.pending[id]? = some p ∧ p.reply = reply) ∨
      result = defaultResult s.cfg ∧ ((∃ d, msg = .dispatch d ∧ d.reply = reply ∧ s.served room = false) ∨
        ∃ (c id : UInt64) (p : Pending), msg = .disconnect c ∧ s.decider = some c ∧ s.pending[id]? = some p ∧ p.reply = reply) := by
  have ht := receives s msg now room
  generalize s.receive msg now room = x at h ht
  cases ht with
  | refused d kept served =>
    cases List.mem_singleton.mp h
    exact .inr ⟨rfl, .inl ⟨d, rfl, rfl, served⟩⟩
  | asked => cases h
  | hello => cases h
  | ignored => cases h
  | answered clientId id result holder waits =>
    cases List.mem_singleton.mp h
    exact .inl ⟨clientId, id, _, rfl, holder, waits, rfl⟩
  | stats => cases h
  | holderLeft clientId holder =>
    obtain ⟨x, hx, heq⟩ := List.mem_map.mp h
    cases heq
    exact .inr ⟨rfl, .inr ⟨clientId, x.1, x.2, rfl, holder, Std.ExtTreeMap.mem_toList_iff_getElem?_eq_some.mp hx, rfl⟩⟩
  | otherLeft => cases h

/-- The cache is written for a verdict of the holder of the slot only. -/
lemma receive_flows (s : Hub) (msg : Msg) (now : Instant) (room : UInt64 → Bool) : (s.receive msg now room).1.flows = s.flows ∨
    ∃ (c id : UInt64) (r : VerdictResult) (p : Pending), msg = .clientVerdict c id r ∧ s.decider = some c ∧ s.pending[id]? = some p ∧
      (s.receive msg now room).1.flows = s.flowsAfter p.flow r now := by
  have ht := receives s msg now room
  generalize s.receive msg now room = x at ht
  cases ht with
  | answered clientId id result holder waits => exact .inr ⟨clientId, id, result, _, rfl, holder, waits, rfl⟩
  | refused => exact .inl rfl
  | asked => exact .inl rfl
  | hello => exact .inl rfl
  | ignored => exact .inl rfl
  | stats => exact .inl rfl
  | holderLeft => exact .inl rfl
  | otherLeft => exact .inl rfl

lemma receive_decided (s : Hub) (msg : Msg) (now : Instant) (room : UInt64 → Bool) :
    (s.receive msg now room).1.stats.decided = s.stats.decided := by
  have ht := receives s msg now room
  generalize s.receive msg now room = x at ht
  cases ht with
  | refused d kept served decided => exact decided
  | asked => rfl
  | hello => rfl
  | ignored => rfl
  | answered => rfl
  | stats => rfl
  | holderLeft => rfl
  | otherLeft => rfl

end Hub

/-! ## The threads that read the clients' messages -/

inductive ClientMessage where
  | hello (mode : Option ClientMode) (name : Option Bytes) (version : Option UInt32)
  | verdict (id : UInt64) (action : Action) (delayMs ttlMs : UInt64) (tag : Option Bytes)
  | stats
  deriving DecidableEq, Repr

def protocolVersion : UInt32 := 1

/-- A line that was read, if it could be parsed, or the end of the connection. -/
inductive Incoming where
  | line (m : Option ClientMessage)
  | ended
  deriving DecidableEq, Repr

structure ClientThread where
  greeted : Bool
  closed : Bool
  deriving DecidableEq, Repr

def ClientThread.new : ClientThread := ⟨false, false⟩

/-- `client-` -/
def clientPrefix : Bytes := [0x63, 0x6C, 0x69, 0x65, 0x6E, 0x74, 0x2D]

/-- One turn of the reading loop of `client_thread`, and the messages it puts in the queue of the dispatch thread. -/
def ClientThread.read (id : UInt64) (t : ClientThread) (i : Incoming) : ClientThread × List Msg :=
  if t.closed then (t, [])
  else
    match i with
    | .ended => ({ t with closed := true }, [.disconnect id])
    | .line none => (t, [])
    | .line (some (.hello mode name version)) =>
      if t.greeted then (t, [])
      else if version.any (· ≠ protocolVersion) then (⟨true, true⟩, [.disconnect id])
      else (⟨true, false⟩, [.hello id (mode.getD .observer) (name.getD (clientPrefix ++ decimal id.toNat))])
    | .line (some (.verdict vid action delayMs ttlMs tag)) =>
      if t.greeted then (t, [.clientVerdict id vid ⟨action, min delayMs 10000, min ttlMs 3600000, tag⟩]) else (t, [])
    | .line (some .stats) => (t, [.getStats])

end IPv8Plus.Hook
