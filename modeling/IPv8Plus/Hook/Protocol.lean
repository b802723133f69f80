import IPv8Plus.Hook.Dispatch

/-!
# The dispatch protocol

What holds over every run of the dispatch thread, in whatever order the messages of the clients and of the callers come:
one client at most has the decision slot, no call is answered twice, only the holder's verdicts count, and they count for
events that were put to it. The threads that read from the clients send their messages in the order the run asks for.
-/

namespace IPv8Plus.Hook
open Lib

/-- A message taken from the queue, with the clock and the writers' queues at that time. -/
structure Turn where
  msg : Msg
  now : Instant
  room : UInt64 → Bool

def Hub.turn (s : Hub) (t : Turn) : Hub × Sent := s.receive t.msg t.now t.room

abbrev Event := Turn × Sent

def Msg.client : Msg → Option UInt64
  | .hello clientId _ _ => some clientId
  | .clientVerdict clientId _ _ => some clientId
  | .disconnect clientId => some clientId
  | _ => none

def Msg.reply : Msg → Option CallId
  | .dispatch d => some d.reply
  | _ => none

def Msg.isHello : Msg → Bool
  | .hello _ _ _ => true
  | _ => false

def Msg.isDisconnect : Msg → Bool
  | .disconnect _ => true
  | _ => false

/-- A client's greeting comes first and once, its end last, and every call has a reply channel of its own. -/
def Ordered (m m' : Msg) : Prop :=
  (m.client ≠ none → m.client = m'.client → m.isDisconnect = false ∧ m'.isHello = false) ∧ (m.reply ≠ none → m.reply ≠ m'.reply)

/-- The event has been put to the client. -/
def Offered (hist : List Event) (clientId id : UInt64) (p : Pending) : Prop :=
  ∃ t sent d, (t, sent) ∈ hist ∧ t.msg = .dispatch d ∧ d.eventLine.id = id ∧ d.reply = p.reply ∧ d.flow = p.flow ∧
    (clientId, Line.event d.eventLine) ∈ sent.lines

/-- The calls that have been answered, each as often as it was. -/
def answered (hist : List Event) : List CallId := hist.flatMap fun e => e.2.replies.map Prod.fst

/-- The calls whose events have reached the dispatch thread. -/
def dispatched (hist : List Event) : List CallId := hist.filterMap fun e => e.1.msg.reply

/-- The decision slot, the table of clients and the flag. -/
structure Slot (s : Hub) (hist : List Event) : Prop where
  holder : ∀ {d}, s.decider = some d → ∃ c, s.clients[d]? = some c ∧ c.mode = .decision
  single : ∀ {d} {c : ClientSlot}, s.clients[d]? = some c → c.mode = .decision → s.decider = some d
  flag : s.hasDecider = s.decider.isSome
  greeted : ∀ {d} {c : ClientSlot}, s.clients[d]? = some c → ∃ e ∈ hist, e.1.msg.client = some d

/-- The events that wait for a verdict, and the answers so far. -/
structure Waits (s : Hub) (hist : List Event) : Prop where
  offered : ∀ {id : UInt64} {p : Pending}, s.pending[id]? = some p → ∃ d, s.decider = some d ∧ Offered hist d id p
  asked : ∀ {id : UInt64} {p : Pending}, s.pending[id]? = some p → p.reply ∈ dispatched hist ∧ p.reply ∉ answered hist
  apart : ∀ {id id' : UInt64} {p p' : Pending}, s.pending[id]? = some p → s.pending[id']? = some p' → p.reply = p'.reply → id = id'
  once : (answered hist).Nodup
  known : ∀ {k}, k ∈ answered hist → k ∈ dispatched hist

variable {s s' : Hub} {hist : List Event} {t : Turn} {e : Event} {k : CallId} {clientId id : UInt64} {p : Pending}

lemma answered_concat (hist : List Event) (e : Event) : answered (hist ++ [e]) = answered hist ++ e.2.replies.map Prod.fst := by
  rw [answered, answered, List.flatMap_append, List.flatMap_singleton]

lemma dispatched_concat (hist : List Event) (e : Event) : dispatched (hist ++ [e]) = dispatched hist ++ e.1.msg.reply.toList := by
  rw [dispatched, dispatched, List.filterMap_append]
  congr 1

lemma dispatched_mono (e : Event) (h : k ∈ dispatched hist) : k ∈ dispatched (hist ++ [e]) := by
  rw [dispatched_concat]
  exact List.mem_append_left _ h

lemma not_mem_dispatched (hpast : ∀ x ∈ hist, Ordered x.1.msg t.msg) (hk : t.msg.reply = some k) : k ∉ dispatched hist := by
  intro h
  obtain ⟨x, hx, hreply⟩ := List.mem_filterMap.mp h
  exact (hpast x hx).2 (by rw [hreply]; exact Option.some_ne_none k) (hreply.trans hk.symm)

lemma Offered.mono (e : Event) (h : Offered hist clientId id p) : Offered (hist ++ [e]) clientId id p := by
  obtain ⟨t, sent, d, hmem, hrest⟩ := h
  exact ⟨t, sent, d, List.mem_append_left _ hmem, hrest⟩

lemma Slot.new (cfg : HookConfig) : Slot (Hub.new cfg) [] where
  holder h := by cases h
  single h := by
    rw [Hub.new, Std.ExtTreeMap.getElem?_empty] at h
    cases h
  flag := rfl
  greeted h := by
    rw [Hub.new, Std.ExtTreeMap.getElem?_empty] at h
    cases h

lemma Waits.new (cfg : HookConfig) : Waits (Hub.new cfg) [] where
  offered h := by
    rw [Hub.new, Std.ExtTreeMap.getElem?_empty] at h
    cases h
  asked h := by
    rw [Hub.new, Std.ExtTreeMap.getElem?_empty] at h
    cases h
  apart h := by
    rw [Hub.new, Std.ExtTreeMap.getElem?_empty] at h
    cases h
  once := List.nodup_nil
  known h := by cases h

/-! ## The slot -/

/-- Steps that leave the clients, the slot and the flag alone. -/
lemma Slot.mono (h : Slot s hist) (hclients : s'.clients = s.clients) (hdecider : s'.decider = s.decider)
    (hflag : s'.hasDecider = s.hasDecider) (e : Event) : Slot s' (hist ++ [e]) where
  holder hd := by
    rw [hclients]
    exact h.holder (hdecider ▸ hd)
  single hc hm := by
    rw [hdecider]
    exact h.single (hclients ▸ hc) hm
  flag := by rw [hflag, hdecider, h.flag]
  greeted hc := by
    obtain ⟨x, hx, hclient⟩ := h.greeted (hclients ▸ hc)
    exact ⟨x, List.mem_append_left _ hx, hclient⟩

/-- A client that says hello is not in the table. -/
lemma Slot.absent (h : Slot s hist) (hpast : ∀ x ∈ hist, Ordered x.1.msg t.msg) {mode : ClientMode} {name : Bytes}
    (hmsg : t.msg = .hello clientId mode name) : s.clients[clientId]? = none := by
  cases hc : s.clients[clientId]? with
  | none => rfl
  | some c =>
    obtain ⟨x, hx, hclient⟩ := h.greeted hc
    obtain ⟨-, hhello⟩ := (hpast x hx).1 (by rw [hclient]; exact Option.some_ne_none _) (by rw [hclient, hmsg]; rfl)
    rw [hmsg] at hhello
    cases hhello

lemma Slot.hello (h : Slot s hist) {mode : ClientMode} {name : Bytes} (hmsg : e.1.msg = .hello clientId mode name)
    (habsent : s.clients[clientId]? = none) : Slot (s.hello clientId mode name).1 (hist ++ [e]) := by
  have hgreeted : ∀ {d} {c c' : ClientSlot}, (s.clients.insert clientId c)[d]? = some c' → ∃ x ∈ hist ++ [e], x.1.msg.client = some d := by
    intro d c c' hc
    rw [getElem?_insert_ite] at hc
    by_cases hd : clientId = d
    · exact ⟨e, List.mem_append_right _ (List.mem_singleton_self e), by rw [hmsg, hd]; rfl⟩
    · rw [if_neg hd] at hc
      obtain ⟨x, hx, hclient⟩ := h.greeted hc
      exact ⟨x, List.mem_append_left _ hx, hclient⟩
  rcases Hub.hello_cases s clientId mode name with ⟨-, hfree, heq⟩ | ⟨lines, heq⟩
  · rw [heq]
    refine ⟨fun hd => ?_, fun {d c} hc hm => ?_, rfl, hgreeted⟩
    · cases hd
      exact ⟨_, by rw [getElem?_insert_ite, if_pos rfl], rfl⟩
    · dsimp only at hc ⊢
      rw [getElem?_insert_ite] at hc
      by_cases hd : clientId = d
      · rw [hd]
      · rw [if_neg hd] at hc
        exact absurd ((h.single hc hm).symm.trans hfree) (Option.some_ne_none d)
  · rw [heq]
    refine ⟨fun {d} hd => ?_, fun {d c} hc hm => ?_, h.flag, hgreeted⟩
    · obtain ⟨c, hc, hm⟩ := h.holder hd
      have hne : clientId ≠ d := by
        rintro rfl
        rw [habsent] at hc
        cases hc
      exact ⟨c, by rw [getElem?_insert_ite, if_neg hne, hc], hm⟩
    · dsimp only at hc
      rw [getElem?_insert_ite] at hc
      by_cases hd : clientId = d
      · rw [if_pos hd] at hc
        cases hc
        cases hm
      · rw [if_neg hd] at hc
        exact h.single hc hm

lemma Slot.disconnect (h : Slot s hist) (clientId : UInt64) (e : Event) : Slot (s.disconnect clientId).1 (hist ++ [e]) := by
  have hgreeted : ∀ {d} {c : ClientSlot}, (s.clients.erase clientId)[d]? = some c → ∃ x ∈ hist ++ [e], x.1.msg.client = some d := by
    intro d c hc
    rw [getElem?_erase_ite] at hc
    split at hc
    · cases hc
    · obtain ⟨x, hx, hclient⟩ := h.greeted hc
      exact ⟨x, List.mem_append_left _ hx, hclient⟩
  have hother : ∀ {d} {c : ClientSlot}, (s.clients.erase clientId)[d]? = some c → c.mode = .decision → clientId ≠ d ∧ s.decider = some d := by
    intro d c hc hm
    rw [getElem?_erase_ite] at hc
    by_cases hd : clientId = d
    · rw [if_pos hd] at hc
      cases hc
    · rw [if_neg hd] at hc
      exact ⟨hd, h.single hc hm⟩
  by_cases hdecider : s.decider = some clientId
  · rw [Hub.disconnect_holder hdecider]
    refine ⟨fun hd => absurd hd.symm (Option.some_ne_none _), fun hc hm => ?_, rfl, hgreeted⟩
    obtain ⟨hne, hd⟩ := hother hc hm
    exact absurd (Option.some.inj (hdecider.symm.trans hd)) hne
  · rw [Hub.disconnect_other hdecider]
    refine ⟨fun {d} hd => ?_, fun hc hm => (hother hc hm).2, h.flag, hgreeted⟩
    obtain ⟨c, hc, hm⟩ := h.holder hd
    have hne : clientId ≠ d := fun heq => hdecider (heq ▸ hd)
    exact ⟨c, by rw [getElem?_erase_ite, if_neg hne, hc], hm⟩

lemma Slot.turn (h : Slot s hist) (hpast : ∀ x ∈ hist, Ordered x.1.msg t.msg) : Slot (s.turn t).1 (hist ++ [(t, (s.turn t).2)]) := by
  obtain ⟨msg, now, room⟩ := t
  cases msg with
  | dispatch d =>
    obtain ⟨pending, -, ⟨-, stats, -, heq⟩ | ⟨_, _, lines, -, -, -, heq⟩⟩ := Hub.dispatch_cases s d now room <;>
    · rw [Hub.turn, Hub.receive, heq]
      refine h.mono ?_ ?_ ?_ _ <;> rfl
  | hello clientId mode name => exact h.hello rfl (h.absent hpast rfl)
  | clientVerdict clientId id result =>
    rcases Hub.clientVerdict_cases s clientId id result now with heq | ⟨p, -, -, heq⟩ <;>
    · rw [Hub.turn, Hub.receive, heq]
      refine h.mono ?_ ?_ ?_ _ <;> rfl
  | getStats => exact h.mono rfl rfl rfl _
  | disconnect clientId => exact h.disconnect clientId _

/-! ## The events that wait -/

/-- Steps that answer nobody and add nothing to the table. -/
lemma Waits.mono (h : Waits s hist) (hpending : ∀ {id : UInt64} {p : Pending}, s'.pending[id]? = some p → s.pending[id]? = some p)
    (hdecider : ∀ {d}, s.decider = some d → s'.decider = some d) (he : e.2.replies = []) : Waits s' (hist ++ [e]) where
  offered hp := by
    obtain ⟨d, hd, hoffered⟩ := h.offered (hpending hp)
    exact ⟨d, hdecider hd, hoffered.mono e⟩
  asked hp := by
    obtain ⟨hdispatched, hnew⟩ := h.asked (hpending hp)
    rw [answered_concat, he, List.map_nil, List.append_nil]
    exact ⟨dispatched_mono e hdispatched, hnew⟩
  apart hp hp' := h.apart (hpending hp) (hpending hp')
  once := by
    rw [answered_concat, he, List.map_nil, List.append_nil]
    exact h.once
  known hk := by
    rw [answered_concat, he, List.map_nil, List.append_nil] at hk
    exact dispatched_mono e (h.known hk)

/-- One call is answered that waited until now, or that has just come. -/
lemma Waits.answer (h : Waits s hist) (hpending : ∀ {id : UInt64} {p : Pending}, s'.pending[id]? = some p → s.pending[id]? = some p ∧ p.reply ≠ k)
    (hdecider : s'.decider = s.decider) {r : VerdictResult} (he : e.2.replies = [(k, r)]) (hnew : k ∉ answered hist)
    (hk : k ∈ dispatched (hist ++ [e])) : Waits s' (hist ++ [e]) where
  offered hp := by
    obtain ⟨d, hd, hoffered⟩ := h.offered (hpending hp).1
    exact ⟨d, hdecider.trans hd, hoffered.mono e⟩
  asked hp := by
    obtain ⟨hold, hne⟩ := hpending hp
    obtain ⟨hdispatched, hopen⟩ := h.asked hold
    refine ⟨dispatched_mono e hdispatched, ?_⟩
    rw [answered_concat, he, List.mem_append]
    rintro (hmem | hmem)
    · exact hopen hmem
    · exact hne (List.mem_singleton.mp hmem)
  apart hp hp' := h.apart (hpending hp).1 (hpending hp').1
  once := by
    rw [answered_concat, he]
    exact h.once.append (List.nodup_singleton k) (List.disjoint_singleton.mpr hnew)
  known hmem := by
    rw [answered_concat, he, List.mem_append] at hmem
    rcases hmem with hmem | hmem
    · exact dispatched_mono e (h.known hmem)
    · exact List.mem_singleton.mp hmem ▸ hk

/-- An event that has just come is put to the holder. -/
lemma Waits.put (h : Waits s hist) {pending : Std.ExtTreeMap UInt64 Pending} {d : Dispatch} {deciderId : UInt64}
    (hsub : ∀ {id : UInt64} {p : Pending}, pending[id]? = some p → s.pending[id]? = some p) (hdecider : s.decider = some deciderId)
    (hfresh : d.reply ∉ dispatched hist) (hmsg : e.1.msg = .dispatch d) (he : e.2.replies = [])
    (hline : (deciderId, Line.event d.eventLine) ∈ e.2.lines) :
    Waits { s with pending := pending.insert d.eventLine.id ⟨d.reply, d.deadline, d.flow⟩ } (hist ++ [e]) := by
  have hcases : ∀ {id : UInt64} {p : Pending}, (pending.insert d.eventLine.id ⟨d.reply, d.deadline, d.flow⟩)[id]? = some p →
      (d.eventLine.id = id ∧ p = ⟨d.reply, d.deadline, d.flow⟩) ∨ s.pending[id]? = some p := by
    intro id p hp
    rw [getElem?_insert_ite] at hp
    by_cases hid : d.eventLine.id = id
    · rw [if_pos hid] at hp
      exact .inl ⟨hid, (Option.some.inj hp).symm⟩
    · rw [if_neg hid] at hp
      exact .inr (hsub hp)
  have hold : ∀ {id : UInt64} {p : Pending}, s.pending[id]? = some p → p.reply ≠ d.reply :=
    fun hp heq => hfresh (heq ▸ (h.asked hp).1)
  have hnow : d.reply ∈ dispatched (hist ++ [e]) := by
    rw [dispatched_concat, hmsg]
    exact List.mem_append_right _ (List.mem_singleton_self _)
  have hanswered : answered (hist ++ [e]) = answered hist := by rw [answered_concat, he, List.map_nil, List.append_nil]
  refine ⟨fun hp => ?_, fun hp => ?_, fun hp hp' heq => ?_, hanswered ▸ h.once, fun hk => dispatched_mono e (h.known (hanswered ▸ hk))⟩
  · rcases hcases hp with ⟨hid, rfl⟩ | hp
    · exact ⟨deciderId, hdecider, e.1, e.2, d, List.mem_append_right _ (List.mem_singleton_self _), hmsg, hid, rfl, rfl, hline⟩
    · obtain ⟨d', hd', hoffered⟩ := h.offered hp
      exact ⟨d', hd', hoffered.mono e⟩
  · rw [hanswered]
    rcases hcases hp with ⟨-, rfl⟩ | hp
    · exact ⟨hnow, fun hk => hfresh (h.known hk)⟩
    · exact ⟨dispatched_mono e (h.asked hp).1, (h.asked hp).2⟩
  · rcases hcases hp with ⟨hid, rfl⟩ | hp
    · rcases hcases hp' with ⟨hid', -⟩ | hp'
      · exact hid.symm.trans hid'
      · exact absurd heq.symm (hold hp')
    · rcases hcases hp' with ⟨-, rfl⟩ | hp'
      · exact absurd heq (hold hp)
      · exact h.apart hp hp' heq

/-- The holder leaves: everything that waits is answered. -/
lemma Waits.drain (h : Waits s hist) {f : VerdictResult} (hpending : s'.pending = ∅)
    (he : e.2.replies = s.pending.toList.map fun x => (x.2.reply, f)) : Waits s' (hist ++ [e]) := by
  have hnone : ∀ {id : UInt64} {p : Pending}, s'.pending[id]? ≠ some p := by
    intro id p hp
    rw [hpending, Std.ExtTreeMap.getElem?_empty] at hp
    cases hp
  have hfirst : e.2.replies.map Prod.fst = s.pending.toList.map fun x => x.2.reply := by
    rw [he, List.map_map]
    rfl
  have hwait : ∀ x ∈ s.pending.toList, s.pending[x.1]? = some x.2 := fun x hx =>
    Std.ExtTreeMap.mem_toList_iff_getElem?_eq_some.mp hx
  refine ⟨fun hp => absurd hp hnone, fun hp => absurd hp hnone, fun hp => absurd hp hnone, ?_, fun hk => ?_⟩
  · rw [answered_concat, hfirst]
    refine h.once.append ?_ ?_
    · -- two entries of the table have different keys, so they wait for different calls
      refine List.pairwise_map.mpr (List.Pairwise.imp_of_mem ?_ Std.ExtTreeMap.distinct_keys_toList)
      intro x y hx hy hne heq
      exact hne (Std.LawfulEqCmp.compare_eq_iff_eq.mpr (h.apart (hwait x hx) (hwait y hy) heq))
    · intro k hk hk'
      obtain ⟨x, hx, rfl⟩ := List.mem_map.mp hk'
      exact (h.asked (hwait x hx)).2 hk
  · rw [answered_concat, hfirst, List.mem_append] at hk
    rcases hk with hk | hk
    · exact dispatched_mono e (h.known hk)
    · obtain ⟨x, hx, rfl⟩ := List.mem_map.mp hk
      exact dispatched_mono e (h.asked (hwait x hx)).1

lemma Waits.dispatch (h : Waits s hist) {d : Dispatch} {now : Instant} {room : UInt64 → Bool}
    (hpast : ∀ x ∈ hist, Ordered x.1.msg (.dispatch d)) :
    Waits (s.dispatch d now room).1 (hist ++ [(⟨.dispatch d, now, room⟩, (s.dispatch d now room).2)]) := by
  have hfresh : d.reply ∉ dispatched hist := not_mem_dispatched (t := ⟨.dispatch d, now, room⟩) hpast rfl
  obtain ⟨pending, hsub, ⟨-, stats, -, heq⟩ | ⟨deciderId, slot, lines, hdecider, -, -, heq⟩⟩ :=
    Hub.dispatch_cases s d now room
  · rw [heq]
    refine h.answer (k := d.reply) ?_ rfl rfl (fun hk => hfresh (h.known hk)) ?_
    · intro id p hp
      exact ⟨hsub hp, fun hreply => hfresh (hreply ▸ (h.asked (hsub hp)).1)⟩
    · rw [dispatched_concat]
      exact List.mem_append_right _ (List.mem_singleton_self _)
  · rw [heq]
    exact h.put hsub hdecider hfresh rfl rfl List.mem_cons_self

lemma Waits.turn (h : Waits s hist) (hpast : ∀ x ∈ hist, Ordered x.1.msg t.msg) : Waits (s.turn t).1 (hist ++ [(t, (s.turn t).2)]) := by
  obtain ⟨msg, now, room⟩ := t
  cases msg with
  | dispatch d => exact h.dispatch hpast
  | hello clientId mode name =>
    rcases Hub.hello_cases s clientId mode name with ⟨-, hfree, heq⟩ | ⟨lines, heq⟩
    · rw [Hub.turn, Hub.receive, heq]
      exact h.mono id (fun hd => absurd (hfree.symm.trans hd).symm (Option.some_ne_none _)) rfl
    · rw [Hub.turn, Hub.receive, heq]
      exact h.mono id id rfl
  | clientVerdict clientId id result =>
    rcases Hub.clientVerdict_cases s clientId id result now with heq | ⟨p, hd, hp, heq⟩
    · rw [Hub.turn, Hub.receive, heq]
      exact h.mono (fun hp => hp) (fun hd => hd) rfl
    · rw [Hub.turn, Hub.receive, heq]
      refine h.answer (k := p.reply) ?_ rfl rfl (h.asked hp).2 (dispatched_mono _ (h.asked hp).1)
      intro id' p' hp'
      obtain ⟨hne, hold⟩ := Hub.getElem?_erase_pending hp'
      exact ⟨hold, fun hreply => hne (h.apart hp hold hreply.symm)⟩
  | getStats => exact h.mono (fun hp => hp) (fun hd => hd) rfl
  | disconnect clientId =>
    by_cases hdecider : s.decider = some clientId
    · rw [Hub.turn, Hub.receive, Hub.disconnect_holder hdecider]
      exact h.drain rfl rfl
    · rw [Hub.turn, Hub.receive, Hub.disconnect_other hdecider]
      exact h.mono (fun hp => hp) (fun hd => hd) rfl

/-! ## Runs -/

/-- What the dispatch thread keeps to in a state that a run has reached, and in the next turn. -/
structure Conforms (s : Hub) (hist : List Event) (t : Turn) : Prop where
  holder : ∀ d, s.decider = some d → ∃ c, s.clients[d]? = some c ∧ c.mode = .decision
  single : ∀ (d : UInt64) (c : ClientSlot), s.clients[d]? = some c → c.mode = .decision → s.decider = some d
  flag : s.hasDecider = true ↔ ∃ d, s.decider = some d
  once : (answered (hist ++ [(t, (s.turn t).2)])).Nodup ∧
    ∀ k ∈ answered (hist ++ [(t, (s.turn t).2)]), k ∈ dispatched (hist ++ [(t, (s.turn t).2)])
  resolves : ∀ k r, (k, r) ∈ (s.turn t).2.replies →
    (∃ c id p, t.msg = .clientVerdict c id r ∧ s.decider = some c ∧ s.pending[id]? = some p ∧ p.reply = k ∧ Offered hist c id p) ∨
      r = defaultResult s.cfg ∧ ((∃ d, t.msg = .dispatch d ∧ d.reply = k) ∨ ∃ c, t.msg = .disconnect c ∧ s.decider = some c)
  writes : (s.turn t).1.flows ≠ s.flows → ∃ c id r p, t.msg = .clientVerdict c id r ∧ s.decider = some c ∧
    s.pending[id]? = some p ∧ Offered hist c id p ∧ (s.turn t).1.flows = s.flowsAfter p.flow r t.now
  ignores : ∀ c id r, t.msg = .clientVerdict c id r → s.decider ≠ some c → s.turn t = (s, .nothing)
  drains : ∀ c, t.msg = .disconnect c → s.decider = some c → (s.turn t).1.pending = ∅ ∧
    ∀ (id : UInt64) (p : Pending), s.pending[id]? = some p → (p.reply, defaultResult s.cfg) ∈ (s.turn t).2.replies

/-- An event waits for the holder it was put to. -/
lemma Waits.holder (h : Waits s hist) {c : UInt64} (hc : s.decider = some c) (hp : s.pending[id]? = some p) : Offered hist c id p := by
  obtain ⟨d, hd, hoffered⟩ := h.offered hp
  cases hc.symm.trans hd
  exact hoffered

lemma turn_resolves (h : Waits s hist) (t : Turn) {r : VerdictResult} (hr : (k, r) ∈ (s.turn t).2.replies) :
    (∃ c id p, t.msg = .clientVerdict c id r ∧ s.decider = some c ∧ s.pending[id]? = some p ∧ p.reply = k ∧ Offered hist c id p) ∨
      r = defaultResult s.cfg ∧ ((∃ d, t.msg = .dispatch d ∧ d.reply = k) ∨ ∃ c, t.msg = .disconnect c ∧ s.decider = some c) := by
  rcases Hub.receive_replies hr with ⟨c, id, p, hmsg, hc, hp, hk⟩ | ⟨hdefault, ⟨d, hmsg, hk, -⟩ | ⟨c, id, p, hmsg, hc, -⟩⟩
  · exact .inl ⟨c, id, p, hmsg, hc, hp, hk, h.holder hc hp⟩
  · exact .inr ⟨hdefault, .inl ⟨d, hmsg, hk⟩⟩
  · exact .inr ⟨hdefault, .inr ⟨c, hmsg, hc⟩⟩

lemma turn_writes (h : Waits s hist) (t : Turn) (hne : (s.turn t).1.flows ≠ s.flows) :
    ∃ c id r p, t.msg = .clientVerdict c id r ∧ s.decider = some c ∧ s.pending[id]? = some p ∧ Offered hist c id p ∧
      (s.turn t).1.flows = s.flowsAfter p.flow r t.now := by
  obtain ⟨c, id, r, p, hmsg, hc, hp, hflows⟩ := (Hub.receive_flows s t.msg t.now t.room).resolve_left hne
  exact ⟨c, id, r, p, hmsg, hc, hp, h.holder hc hp, hflows⟩

lemma Conforms.of_inv (hslot : Slot s hist) (hwaits : Waits s hist) (hpast : ∀ x ∈ hist, Ordered x.1.msg t.msg) : Conforms s hist t where
  holder _ hd := hslot.holder hd
  single _ _ hc hm := hslot.single hc hm
  flag := by rw [hslot.flag, Option.isSome_iff_exists]
  once := ⟨(hwaits.turn hpast).once, fun _ hk => (hwaits.turn hpast).known hk⟩
  resolves _ _ hr := turn_resolves hwaits t hr
  writes hne := turn_writes hwaits t hne
  ignores c id r hmsg hd := by
    rw [Hub.turn, hmsg]
    exact Hub.clientVerdict_ignored hd
  drains c hmsg hd := by
    rw [Hub.turn, hmsg, Hub.receive, Hub.disconnect_holder hd]
    exact ⟨rfl, fun id p hp => List.mem_map.mpr ⟨(id, p), Std.ExtTreeMap.mem_toList_iff_getElem?_eq_some.mpr hp, rfl⟩⟩

/-- Whatever messages have come before, in the order in which the threads send them, the dispatch thread keeps to its protocol. -/
theorem dispatch_conforms (cfg : HookConfig) (ts : List Turn) (t : Turn) (hord : (ts ++ [t]).Pairwise fun x y => Ordered x.msg y.msg) :
    Conforms (run Hub.turn (Hub.new cfg) ts).1 (ts.zip (run Hub.turn (Hub.new cfg) ts).2) t := by
  obtain ⟨hts, -, hlast⟩ := List.pairwise_append.mp hord
  have hinv : Slot (run Hub.turn (Hub.new cfg) ts).1 ([] ++ ts.zip (run Hub.turn (Hub.new cfg) ts).2) ∧
      Waits (run Hub.turn (Hub.new cfg) ts).1 ([] ++ ts.zip (run Hub.turn (Hub.new cfg) ts).2) :=
    invariant_history_pairwise (I := fun s hist => Slot s hist ∧ Waits s hist) (P := fun _ _ => True)
      (R := fun x y => Ordered x.msg y.msg) (fun s hist t h _ hpast => ⟨h.1.turn hpast, h.2.turn hpast⟩)
      ⟨Slot.new cfg, Waits.new cfg⟩ (along_of_forall fun _ _ => trivial) (fun _ hx => absurd hx List.not_mem_nil) hts
  rw [List.nil_append] at hinv
  refine .of_inv hinv.1 hinv.2 fun x hx => ?_
  exact hlast x.1 (List.of_mem_zip hx).1 t (List.mem_singleton_self t)

lemma ordered_hello (c : UInt64) (mode : ClientMode) (name : Bytes) (m : Msg) (hm : m.client = none ∨ m.isHello = false) :
    Ordered (.hello c mode name) m :=
  ⟨fun _ heq => ⟨rfl, hm.resolve_left fun hnone => Option.some_ne_none c (heq.trans hnone)⟩, fun h => absurd rfl h⟩

theorem dispatch_conforms_sample :
    ([⟨Msg.hello 1 .decision [], 0, fun _ => true⟩] ++ [⟨Msg.disconnect 1, 0, fun _ => true⟩] : List Turn).Pairwise (fun x y => Ordered x.msg y.msg) ∧
      Conforms (run Hub.turn (Hub.new .default) [⟨.hello 1 .decision [], 0, fun _ => true⟩]).1
        ([⟨.hello 1 .decision [], 0, fun _ => true⟩].zip (run Hub.turn (Hub.new .default) [⟨.hello 1 .decision [], 0, fun _ => true⟩]).2)
        ⟨.disconnect 1, 0, fun _ => true⟩ := by
  have hord : ([⟨Msg.hello 1 .decision [], 0, fun _ => true⟩] ++ [⟨Msg.disconnect 1, 0, fun _ => true⟩] : List Turn).Pairwise
      (fun x y => Ordered x.msg y.msg) := by
    refine List.pairwise_pair.mpr ?_
    exact ordered_hello 1 .decision [] (.disconnect 1) (.inr rfl)
  exact ⟨hord, dispatch_conforms .default [⟨.hello 1 .decision [], 0, fun _ => true⟩] ⟨.disconnect 1, 0, fun _ => true⟩ hord⟩

/-! ## The order of a client's messages -/

variable {i : Incoming} {is : List Incoming} {c c' : ClientThread} {ms : List Msg} {m : Msg}

/-- What a reading thread may send, and the state it is in afterwards. -/
lemma read_spec (hread : c.read id i = (c', ms)) (hm : m ∈ ms) : c.closed = false ∧ m.reply = none ∧ ms = [m] ∧
    (m.client = none ∨ c'.greeted = true ∨ c'.closed = true) ∧ (m.isHello = true → c.greeted = false) ∧
    (m.isDisconnect = true → c'.closed = true) := by
  unfold ClientThread.read at hread
  by_cases hclosed : c.closed = true
  · rw [if_pos hclosed] at hread
    cases hread
    cases hm
  rw [if_neg hclosed] at hread
  have hopen : c.closed = false := Bool.eq_false_iff.mpr hclosed
  cases i with
  | ended =>
    cases hread
    cases List.mem_singleton.mp hm
    exact ⟨hopen, rfl, rfl, .inr (.inr rfl), fun h => Bool.noConfusion h, fun _ => rfl⟩
  | line parsed =>
    cases parsed with
    | none =>
      cases hread
      cases hm
    | some msg =>
      cases msg with
      | hello mode name version =>
        dsimp only at hread
        by_cases hgreeted : c.greeted = true
        · rw [if_pos hgreeted] at hread
          cases hread
          cases hm
        · rw [if_neg hgreeted] at hread
          split at hread
          · cases hread
            cases List.mem_singleton.mp hm
            exact ⟨hopen, rfl, rfl, .inr (.inl rfl), fun h => Bool.noConfusion h, fun _ => rfl⟩
          · cases hread
            cases List.mem_singleton.mp hm
            exact ⟨hopen, rfl, rfl, .inr (.inl rfl), fun _ => Bool.eq_false_iff.mpr hgreeted, fun h => Bool.noConfusion h⟩
      | verdict vid action delayMs ttlMs tag =>
        dsimp only at hread
        by_cases hgreeted : c.greeted = true
        · rw [if_pos hgreeted] at hread
          cases hread
          cases List.mem_singleton.mp hm
          exact ⟨hopen, rfl, rfl, .inr (.inl hgreeted), fun h => Bool.noConfusion h, fun h => Bool.noConfusion h⟩
        · rw [if_neg hgreeted] at hread
          cases hread
          cases hm
      | stats =>
        cases hread
        cases List.mem_singleton.mp hm
        exact ⟨hopen, rfl, rfl, .inl rfl, fun h => Bool.noConfusion h, fun h => Bool.noConfusion h⟩

lemma read_keeps (hread : c.read id i = (c', ms)) : (c.closed = true → c'.closed = true) ∧ (c.greeted = true → c'.greeted = true) := by
  unfold ClientThread.read at hread
  by_cases hclosed : c.closed = true
  · rw [if_pos hclosed] at hread
    cases hread
    exact ⟨fun h => h, fun h => h⟩
  rw [if_neg hclosed] at hread
  refine ⟨fun h => absurd h hclosed, fun hgreeted => ?_⟩
  cases i with
  | ended =>
    cases hread
    exact hgreeted
  | line parsed =>
    cases parsed with
    | none =>
      cases hread
      exact hgreeted
    | some msg =>
      cases msg with
      | hello mode name version =>
        dsimp only at hread
        rw [if_pos hgreeted] at hread
        cases hread
        exact hgreeted
      | verdict vid action delayMs ttlMs tag =>
        dsimp only at hread
        rw [if_pos hgreeted] at hread
        cases hread
        exact hgreeted
      | stats =>
        cases hread
        exact hgreeted

/-- A thread that has greeted sends no second greeting, and one that is closed sends nothing. -/
lemma run_read (hm : m ∈ (run (ClientThread.read id) c is).2.flatten) : c.closed = false ∧ m.reply = none ∧ (m.isHello = true → c.greeted = false) := by
  induction is generalizing c with
  | nil => cases hm
  | cons i is ih =>
    cases hread : c.read id i with
    | mk c' ms =>
      rw [run_cons, hread, List.flatten_cons] at hm
      obtain ⟨hclosed, hgreeted⟩ := read_keeps hread
      rcases List.mem_append.mp hm with hm | hm
      · obtain ⟨hopen, hreply, -, -, hhello, -⟩ := read_spec hread hm
        exact ⟨hopen, hreply, hhello⟩
      · obtain ⟨hopen, hreply, hhello⟩ := ih hm
        refine ⟨Bool.eq_false_iff.mpr fun h => Bool.eq_false_iff.mp hopen (hclosed h), hreply, fun h => ?_⟩
        exact Bool.eq_false_iff.mpr fun hg => Bool.eq_false_iff.mp (hhello h) (hgreeted hg)

/-- Each thread sends its messages in the order that the protocol asks for. -/
theorem client_ordered (id : UInt64) (c : ClientThread) (is : List Incoming) :
    ((run (ClientThread.read id) c is).2.flatten).Pairwise Ordered := by
  induction is generalizing c with
  | nil => exact .nil
  | cons i is ih =>
    cases hread : c.read id i with
    | mk c' ms =>
      rw [run_cons, hread, List.flatten_cons]
      refine List.pairwise_append.mpr ⟨?_, ih c', fun m hm m' hm' => ?_⟩
      · cases ms with
        | nil => exact .nil
        | cons m rest =>
          obtain ⟨-, -, hone, -⟩ := read_spec hread List.mem_cons_self
          rw [hone]
          exact List.pairwise_singleton _ _
      · obtain ⟨-, hreply, -, hclient, -, hend⟩ := read_spec hread hm
        obtain ⟨hopen, -, hhello⟩ := run_read hm'
        refine ⟨fun hne _ => ⟨?_, ?_⟩, fun h => absurd hreply h⟩
        · exact Bool.eq_false_iff.mpr fun h => Bool.eq_false_iff.mp hopen (hend h)
        · rcases hclient with hnone | hgreeted | hclosed
          · exact absurd hnone hne
          · exact Bool.eq_false_iff.mpr fun h => Bool.eq_false_iff.mp (hhello h) hgreeted
          · exact absurd hclosed (Bool.eq_false_iff.mp hopen)

end IPv8Plus.Hook
