import IPv8Plus.Adapter.LearnedEntry
import IPv8Plus.Hook.Dispatch
import IPv8Plus.Tunnel.ShardDelivery

/-!
# What passes the hook

`Plane::handle_inbound`, `Plane::dispatch_tun_batch` and the workers that the main loop of `wintun-node/src/main.rs` splits
off, with all that becomes of the inner packets: each step of a node comes with a log of it. The answers of the hook are
inputs, and so is whether the TUN has room. The sink of the workers writes to the TUN and asks nobody.
-/

namespace IPv8Plus.Adapter
open Lib Codec Routing Tunnel Fec

/-- `Outcome` of `ipv8-compat`, with the packet as it was changed. -/
inductive CompatOutcome where
  | forward (packet : Bytes)
  | injectIcmp (icmp : Bytes)
  | drop
  deriving DecidableEq, Repr

/-- What `--compat` does to packets. -/
structure Compat where
  processInbound : Bytes → Bytes
  processOutbound : Bytes → CompatOutcome

/-- Whom a packet for the TUN comes from. -/
inductive Source where
  | engine
  | worker
  | plain
  deriving DecidableEq, Repr

/-- What becomes of an inner packet. -/
inductive Event where
  | evaluated (direction : Hook.Direction) (packet : Bytes) (accepted : Bool)
  | processed (delivered packet : Bytes)
  | written (source : Source) (packet : Bytes)
  /-- A node without TUN that did not begin the handshake sends a packet back. -/
  | echoed (packet : Bytes)
  | injected (icmp : Bytes)
  | sealed (packet : Bytes)
  | sent (packet : Bytes)
  deriving DecidableEq, Repr

/-- A node with its configuration. -/
structure Node (S : SigScheme) (X : KeyAgreement) extends Plane S X where
  hook : Bool
  compat : Option Compat
  tun : Bool
  isInitiator : Bool
  shardCount : UInt64

/-- What happens to a node. A datagram comes with the answer of the hook and the room in the TUN, and so does each packet of
a batch with its answer. The main loop ticks, calls the engine and chooses where to send. -/
inductive NodeOp (X : KeyAgreement) where
  | inbound (d : Datagram X) (accept room : Bool)
  | outbound (batch : List (Bytes × Bool)) (clock : Nat → Nat → Nat)
  | tick (now : Nat)
  | engine (c : Session.Call X)
  | choose (transport : Transport)

/-- The packets that are dispatched to workers, and whether all are. -/
def sealBatch (A : Aead) (clock : Nat → Nat → Nat) : FlowShards → List Bytes → FlowShards × List Bytes × Bool
  | f, [] => (f, [], true)
  | f, packet :: packets =>
    match f.sealDispatch A (clock packets.length) packet with
    | (f, .ok _) =>
      let (f, sealed, all) := sealBatch A clock f packets
      (f, packet :: sealed, all)
    | (f, _) => (f, [], false)

/-- `ShardHub::seal` -/
def sealShards (A : Aead) (clock : Nat → Nat → Nat) (packets : List Bytes) :
    Option FlowShards → Option FlowShards × List Bytes × Bool
  | none => (none, [], false)
  | some f =>
    let (f, sealed, all) := sealBatch A clock f packets
    (some f, sealed, all)

/-- The packets that the engine seals. The others are dropped. -/
def sealEach (A : Aead) (clock : Nat → Nat → Nat) : Engine → List Bytes → Engine × List Bytes
  | e, [] => (e, [])
  | e, packet :: packets =>
    match e.sealFrames A (clock packets.length) packet with
    | (e, .ok _) =>
      let (e, sealed) := sealEach A clock e packets
      (e, packet :: sealed)
    | (e, _) => sealEach A clock e packets

/-- A plain packet, that is told from a frame by its first byte. -/
def Plane.IsPlain {S : SigScheme} {X : KeyAgreement} (p : Plane S X) (raw : Bytes) : Prop :=
  raw ≠ punchKnock ∧ p.plainDemux = true ∧ (raw.length < 10 ∨ raw[0]? ≠ some 0x01) ∧ IsIp raw

instance {S : SigScheme} {X : KeyAgreement} (p : Plane S X) (raw : Bytes) : Decidable (p.IsPlain raw) :=
  inferInstanceAs (Decidable (_ ∧ _))

/-- The packet that a worker hands to its sink. -/
def Plane.workerDelivers {S : SigScheme} {X : KeyAgreement} (A : Aead) (p : Plane S X) (d : Datagram X) (raw : Bytes) :
    Option Bytes :=
  match p.shards with
  | none => none
  | some f =>
    match (f.handleInbound A (d.clock 1) raw).2 with
    | some (.ok (.delivered packet)) => some packet.payload
    | _ => none

namespace Node

variable {S : SigScheme} {X : KeyAgreement} (A : Aead)

def judged (n : Node S X) (direction : Hook.Direction) (packet : Bytes) (accept : Bool) : List Event :=
  if n.hook then [.evaluated direction packet accept] else []

def passes (n : Node S X) (accept : Bool) : Bool := !n.hook || accept

def write (n : Node S X) (source : Source) (packet : Bytes) (room : Bool) : List Event :=
  if n.tun && room then [.written source packet] else []

/-- A plain packet is judged and written. -/
def takePlain (n : Node S X) (packet : Bytes) (accept room : Bool) : List Event :=
  n.judged .in packet accept ++ if n.passes accept then n.write .plain packet room else []

def processInbound (n : Node S X) (packet : Bytes) : Bytes :=
  match n.compat with
  | some c => c.processInbound packet
  | none => packet

def processed (n : Node S X) (packet : Bytes) : List Event :=
  match n.compat with
  | some c => [.processed packet (c.processInbound packet)]
  | none => []

/-- A packet of the engine goes to the TUN, or without one back to where it came from. -/
def deliver (n : Node S X) (d : Datagram X) (delivered : Bytes) (accept room : Bool) : Node S X × List Event :=
  let packet := n.processInbound delivered
  let log := n.processed delivered ++ n.judged .in packet accept
  if !n.passes accept then (n, log)
  else if n.tun then (n, log ++ n.write .engine packet room)
  else if n.isInitiator then (n, log)
  else
    match n.engine.sealFrames A (fun i => d.clock (i + 3)) packet with
    | (engine, .ok _) => ({ n with engine.toEngine := engine }, log ++ [.echoed packet])
    | (engine, _) => ({ n with engine.toEngine := engine }, log)

/-- A frame goes to its worker or to the engine. -/
def handleFrame (n : Node S X) (d : Datagram X) (raw : Bytes) (accept room : Bool) : Node S X × List Event :=
  let (plane, x) := n.toPlane.handleFrame A d raw
  match n.workerDelivers A d raw, x with
  | some packet, _ => ({ n with toPlane := plane }, n.write .worker packet room)
  | none, .ok ⟨_, some packet⟩ => { n with toPlane := plane }.deliver A d packet.payload accept room
  | none, _ => ({ n with toPlane := plane }, [])

/-- `handle_inbound` -/
def handleInbound (n : Node S X) (d : Datagram X) (accept room : Bool) : Node S X × List Event :=
  if n.IsPlain d.raw then (n, n.takePlain d.raw accept room)
  else
    match n.arrival A d with
    | (plane, .ok (some raw)) => { n with toPlane := plane }.handleFrame A d raw accept room
    | (plane, _) => ({ n with toPlane := plane }, [])

def processOutbound (n : Node S X) (packet : Bytes) : CompatOutcome :=
  match n.compat with
  | some c => c.processOutbound packet
  | none => .forward packet

/-- The packets of a batch that pass the hook. -/
def kept (n : Node S X) (batch : List (Bytes × Bool)) : List Bytes := (batch.filter fun x => n.passes x.2).map Prod.fst

def forwarded (n : Node S X) (batch : List (Bytes × Bool)) : List Bytes :=
  (n.kept batch).filterMap fun packet => match n.processOutbound packet with
    | .forward packet => some packet
    | _ => none

def injected (n : Node S X) (batch : List (Bytes × Bool)) : List Event :=
  (n.kept batch).filterMap fun packet => match n.processOutbound packet with
    | .injectIcmp icmp => if n.tun then some (.injected icmp) else none
    | _ => none

/-- What is sealed or sent of a batch. Workers that are shut down leave the whole batch to the engine. -/
def send (n : Node S X) (packets : List Bytes) (clock : Nat → Nat → Nat) : Node S X × List Event :=
  match n.sched.transport with
  | .plainUdp _ => (n, packets.map .sent)
  | .tunnel _ =>
    let (shards, sealed, all) := sealShards A clock packets n.shards
    let n := { n with shards }
    if all then (n, sealed.map .sealed)
    else
      let (engine, sealed') := sealEach A clock n.engine.toEngine packets
      ({ n with engine.toEngine := engine }, sealed.map .sealed ++ sealed'.map .sealed)

/-- `dispatch_tun_batch` -/
def dispatchTunBatch (n : Node S X) (batch : List (Bytes × Bool)) (clock : Nat → Nat → Nat) : Node S X × List Event :=
  let (n', log) := n.send A (n.forwarded batch) clock
  (n', batch.flatMap (fun x => n.judged .out x.1 x.2) ++ n.injected batch ++ log)

def active (n : Node S X) : Nat :=
  match n.shards with
  | none => 0
  | some f => f.workers.length

/-- The life of the workers: they are retired when the engine has new keys, and split off when the tunnel stands. -/
def tick (n : Node S X) (now : Nat) : Node S X :=
  if ¬ (1 < n.shardCount ∧ n.tun) then n
  else if 0 < n.active ∧ ¬ n.engine.sharded then { n with shards := none }
  else if n.engine.state = .established ∧ n.active = 0 ∧ ¬ n.engine.sharded then
    match n.engine.splitShards now n.shardCount with
    | (engine, .ok (shards, localAddr, peerAddr, mtu)) =>
      match FlowShards.new shards localAddr peerAddr mtu with
      | .ok f => { n with engine, shards := some f }
      | _ => { n with engine }
    | (engine, _) => { n with engine }
  else n

def step (n : Node S X) : NodeOp X → Node S X × List Event
  | .inbound d accept room => n.handleInbound A d accept room
  | .outbound batch clock => n.dispatchTunBatch A batch clock
  | .tick now => (n.tick now, [])
  | .engine c => ({ n with engine := (n.engine.step A c).1 }, [])
  | .choose transport => ({ n with sched.transport := transport }, [])

/-! ## Mediation -/

/-- The log up to a packet that goes in: the hook has just accepted it, and `--compat` has made it of what the tunnel
delivered. -/
def Admitted (n : Node S X) (source : Source) (packet : Bytes) (past : List Event) : Prop :=
  ∃ before, past = before ++ [.evaluated .in packet true] ∧
    (source ≠ .plain → ∀ c ∈ n.compat, ∃ earlier delivered,
      before = earlier ++ [.processed delivered packet] ∧ packet = c.processInbound delivered)

/-- The log up to a packet that goes out: the hook has accepted the packet that `--compat` made it of. -/
def Released (n : Node S X) (packet : Bytes) (past : List Event) : Prop :=
  ∃ packet', .evaluated .out packet' true ∈ past ∧ n.processOutbound packet' = .forward packet

/-- The log up to an entry accounts for it. -/
def Justified (n : Node S X) (past : List Event) : Event → Prop
  | .written source packet => n.Admitted source packet past
  | .echoed packet => n.Admitted .engine packet past
  | .sealed packet => n.Released packet past
  | .sent packet => n.Released packet past
  | _ => True

/-- Every packet that was written, sealed or sent was judged before. -/
def Mediated (n : Node S X) (log : List Event) : Prop :=
  ∀ past e future, log = past ++ e :: future → n.Justified past e

/-- The packet that a worker hands to its sink in a step, if there is room for it in the TUN. -/
def workerWrites (n : Node S X) : NodeOp X → Option Bytes
  | .inbound d _ room =>
    if n.IsPlain d.raw ∨ ¬ (n.tun && room) then none
    else
      match n.arrival A d with
      | (plane, .ok (some raw)) => plane.workerDelivers A d raw
      | _ => none
  | _ => none

section
variable {A : Aead} {n : Node S X} {d : Datagram X} {log es : List Event} {packets : List Bytes} {clock : Nat → Nat → Nat}
  {accept room : Bool}

lemma mediated_nil : n.Mediated [] := by
  intro past e future h
  cases past with
  | nil => cases h
  | cons _ _ => cases h

/-- What is added to a log is justified by all that comes before it. -/
lemma Mediated.append (h : n.Mediated log)
    (hes : ∀ past e future, es = past ++ e :: future → n.Justified (log ++ past) e) : n.Mediated (log ++ es) := by
  intro past e future heq
  rcases List.append_eq_append_iff.mp heq with ⟨mid, rfl, hmid⟩ | ⟨mid, rfl, hmid⟩
  · exact hes mid e future hmid
  · cases mid with
    | nil =>
      have hjust := hes [] e future hmid.symm
      rw [List.append_nil, List.append_nil] at hjust
      exact hjust
    | cons x mid =>
      cases hmid
      exact h past e mid rfl

lemma Mediated.concat {e : Event} (h : n.Mediated log) (he : n.Justified log e) : n.Mediated (log ++ [e]) := by
  apply h.append
  intro past e' future heq
  cases past with
  | nil =>
    cases heq
    rw [List.append_nil]
    exact he
  | cons x past =>
    rw [List.cons_append, List.cons.injEq] at heq
    exact absurd heq.2.symm (List.append_ne_nil_of_right_ne_nil past (List.cons_ne_nil e' future))

/-- Entries that need no reason. -/
lemma mediated_of_forall (h : ∀ e ∈ log, ∀ past, n.Justified past e) : n.Mediated log := by
  rintro past e future rfl
  exact h e (List.mem_append_right past List.mem_cons_self) past

lemma Released.mono {packet : Bytes} (h : n.Released packet log) (es : List Event) : n.Released packet (log ++ es) := by
  obtain ⟨packet', hmem, hout⟩ := h
  exact ⟨packet', List.mem_append_left es hmem, hout⟩

/-! ### Inbound -/

lemma judged_of_hook (h : n.hook = true) (direction : Hook.Direction) (packet : Bytes) :
    n.judged direction packet accept = [.evaluated direction packet accept] := if_pos h

lemma passes_of_hook (h : n.hook = true) : n.passes accept = accept := by
  unfold passes
  rw [h]
  rfl

lemma mediated_judged {direction : Hook.Direction} {packet : Bytes} : n.Mediated (n.judged direction packet accept) := by
  apply mediated_of_forall
  intro e he past
  unfold judged at he
  split at he
  · cases List.mem_singleton.mp he
    trivial
  · cases he

/-- The hook has accepted a packet that is written next. -/
lemma mediated_write {source : Source} {packet : Bytes} (h : n.Mediated log) (hadmitted : n.Admitted source packet log) :
    n.Mediated (log ++ n.write source packet room) := by
  unfold write
  split
  · exact h.concat hadmitted
  · rw [List.append_nil]
    exact h

/-- Nothing is written, or a packet that nobody has judged. -/
lemma mediated_sink {packet : Bytes} : n.Mediated (n.write .worker packet room) ↔ ¬ (n.tun && room) := by
  unfold write
  split
  · next htun =>
    refine iff_of_false ?_ (not_not.mpr htun)
    intro h
    obtain ⟨before, hbefore, -⟩ := h [] (.written .worker packet) [] rfl
    cases before with
    | nil => cases hbefore
    | cons _ _ => cases hbefore
  · next htun => exact iff_of_true mediated_nil htun

lemma mediated_takePlain (hhook : n.hook = true) {packet : Bytes} : n.Mediated (n.takePlain packet accept room) := by
  unfold takePlain
  rw [passes_of_hook hhook]
  cases accept with
  | false =>
    rw [if_neg Bool.false_ne_true, List.append_nil]
    exact mediated_judged
  | true =>
    rw [if_pos rfl]
    apply mediated_write mediated_judged
    refine ⟨[], ?_, fun hsource => absurd rfl hsource⟩
    rw [judged_of_hook hhook]
    rfl

/-- What the engine delivers has passed `--compat` and the hook before it is written or sent back. -/
lemma mediated_deliver (hhook : n.hook = true) {packet : Bytes} : n.Mediated (n.deliver A d packet accept room).2 := by
  have hlog : n.Mediated (n.processed packet ++ n.judged .in (n.processInbound packet) accept) := by
    apply mediated_of_forall
    intro e he past
    rcases List.mem_append.mp he with he | he
    · unfold processed at he
      split at he
      · cases List.mem_singleton.mp he
        trivial
      · cases he
    · rw [judged_of_hook hhook] at he
      cases List.mem_singleton.mp he
      trivial
  unfold deliver
  dsimp only
  rw [passes_of_hook hhook]
  cases accept with
  | false =>
    rw [Bool.not_false, if_pos rfl]
    exact hlog
  | true =>
    -- what goes on is what `--compat` made of the packet, after the hook has seen that
    have hadmitted : n.Admitted .engine (n.processInbound packet)
        (n.processed packet ++ n.judged .in (n.processInbound packet) true) := by
      refine ⟨n.processed packet, ?_, ?_⟩
      · rw [judged_of_hook hhook]
      · intro _ c hc
        refine ⟨[], packet, ?_, ?_⟩
        · unfold processed processInbound
          rw [Option.mem_def.mp hc]
          rfl
        · unfold processInbound
          rw [Option.mem_def.mp hc]
    rw [Bool.not_true, if_neg Bool.false_ne_true]
    split
    · exact mediated_write hlog hadmitted
    split
    · exact hlog
    split
    · exact hlog.concat hadmitted
    · exact hlog

lemma mediated_handleFrame (hhook : n.hook = true) {raw : Bytes} :
    n.Mediated (n.handleFrame A d raw accept room).2 ↔ (n.workerDelivers A d raw = none ∨ ¬ (n.tun && room)) := by
  unfold handleFrame
  dsimp only
  split
  · next packet hworker =>
    rw [hworker]
    exact mediated_sink.trans ⟨.inr, fun h => h.resolve_left fun h => nomatch h⟩
  · next hworker _ =>
    exact iff_of_true (@mediated_deliver _ _ A { n with toPlane := (n.toPlane.handleFrame A d raw).1 } d _ _ hhook _) (.inl hworker)
  · next hworker _ => exact iff_of_true mediated_nil (.inl hworker)

lemma mediated_handleInbound (hhook : n.hook = true) :
    n.Mediated (n.handleInbound A d accept room).2 ↔ n.workerWrites A (.inbound d accept room) = none := by
  unfold handleInbound workerWrites
  dsimp only
  by_cases hplain : n.IsPlain d.raw
  · rw [if_pos hplain, if_pos (.inl hplain)]
    exact iff_of_true (mediated_takePlain hhook) rfl
  rw [if_neg hplain]
  generalize n.arrival A d = x
  rcases x with ⟨plane, (_ | raw) | e | _⟩
  · refine iff_of_true mediated_nil ?_
    rw [ite_self]
  · have hframe := @mediated_handleFrame _ _ A { n with toPlane := plane } d accept room hhook raw
    refine hframe.trans ?_
    dsimp only
    by_cases hroom : (n.tun && room) = true
    · rw [if_neg fun h => h.elim hplain fun h => h hroom]
      exact ⟨fun h => h.resolve_right fun h => h hroom, .inl⟩
    · rw [if_pos (.inr hroom)]
      exact iff_of_true (.inr hroom) rfl
  · exact e.elim
  · refine iff_of_true mediated_nil ?_
    rw [ite_self]

/-! ### Outbound -/

lemma mem_of_sealBatch {f : FlowShards} {packet : Bytes} (h : packet ∈ (sealBatch A clock f packets).2.1) :
    packet ∈ packets := by
  induction packets generalizing f with
  | nil => cases h
  | cons p packets ih =>
    unfold sealBatch at h
    split at h
    · cases h with
      | head => exact List.mem_cons_self
      | tail _ h => exact List.mem_cons_of_mem p (ih h)
    · cases h

lemma mem_of_sealEach {e : Engine} {packet : Bytes} (h : packet ∈ (sealEach A clock e packets).2) : packet ∈ packets := by
  induction packets generalizing e with
  | nil => cases h
  | cons p packets ih =>
    unfold sealEach at h
    split at h
    · cases h with
      | head => exact List.mem_cons_self
      | tail _ h => exact List.mem_cons_of_mem p (ih h)
    · exact List.mem_cons_of_mem p (ih h)

lemma mem_of_sealShards {shards : Option FlowShards} {packet : Bytes}
    (h : packet ∈ (sealShards A clock packets shards).2.1) : packet ∈ packets := by
  cases shards with
  | none => cases h
  | some f => exact mem_of_sealBatch h

/-- Only the packets of a batch are sealed or sent. -/
lemma mem_of_send {e : Event} (h : e ∈ (n.send A packets clock).2) :
    ∃ packet ∈ packets, e = .sealed packet ∨ e = .sent packet := by
  unfold send at h
  split at h
  · obtain ⟨packet, hmem, rfl⟩ := List.mem_map.mp h
    exact ⟨packet, hmem, .inr rfl⟩
  dsimp only at h
  split at h
  · obtain ⟨packet, hmem, rfl⟩ := List.mem_map.mp h
    exact ⟨packet, mem_of_sealShards hmem, .inl rfl⟩
  · rcases List.mem_append.mp h with h | h
    · obtain ⟨packet, hmem, rfl⟩ := List.mem_map.mp h
      exact ⟨packet, mem_of_sealShards hmem, .inl rfl⟩
    · obtain ⟨packet, hmem, rfl⟩ := List.mem_map.mp h
      exact ⟨packet, mem_of_sealEach hmem, .inl rfl⟩

/-- What is left of a batch was accepted. -/
lemma forwarded_released (hhook : n.hook = true) {batch : List (Bytes × Bool)} {packet : Bytes}
    (h : packet ∈ n.forwarded batch) : n.Released packet (batch.flatMap fun x => n.judged .out x.1 x.2) := by
  obtain ⟨packet', hkept, hforward⟩ := List.mem_filterMap.mp h
  obtain ⟨⟨p, accept⟩, hx, rfl⟩ := List.mem_map.mp hkept
  obtain ⟨hbatch, haccept⟩ := List.mem_filter.mp hx
  rw [passes_of_hook hhook] at haccept
  cases haccept
  refine ⟨p, List.mem_flatMap.mpr ⟨_, hbatch, ?_⟩, ?_⟩
  · rw [judged_of_hook hhook]
    exact List.mem_singleton_self _
  · split at hforward
    · next hout =>
      cases hforward
      exact hout
    · cases hforward

lemma mediated_dispatchTunBatch (hhook : n.hook = true) {batch : List (Bytes × Bool)} :
    n.Mediated (n.dispatchTunBatch A batch clock).2 := by
  have hpast : n.Mediated (batch.flatMap (fun x => n.judged .out x.1 x.2) ++ n.injected batch) := by
    apply mediated_of_forall
    intro e he past
    rcases List.mem_append.mp he with he | he
    · obtain ⟨x, -, hx⟩ := List.mem_flatMap.mp he
      rw [judged_of_hook hhook] at hx
      cases List.mem_singleton.mp hx
      trivial
    · obtain ⟨packet, -, hinject⟩ := List.mem_filterMap.mp he
      split at hinject
      · split at hinject
        · cases hinject
          trivial
        · cases hinject
      · cases hinject
  have hlog : (n.dispatchTunBatch A batch clock).2 =
      batch.flatMap (fun x => n.judged .out x.1 x.2) ++ n.injected batch ++ (n.send A (n.forwarded batch) clock).2 := rfl
  rw [hlog]
  -- the whole batch is judged before any of it is sent
  apply hpast.append
  intro past e future heq
  have hmem : e ∈ (n.send A (n.forwarded batch) clock).2 := by
    rw [heq]
    exact List.mem_append_right past List.mem_cons_self
  obtain ⟨packet, hpacket, he⟩ := mem_of_send hmem
  have hreleased := (forwarded_released hhook hpacket).mono (n.injected batch ++ past)
  rw [← List.append_assoc] at hreleased
  rcases he with rfl | rfl
  · exact hreleased
  · exact hreleased

/-! ### Runs -/

/-- One step: everything is mediated, but for what a worker writes. -/
lemma mediated_step (hhook : n.hook = true) (op : NodeOp X) : n.Mediated (n.step A op).2 ↔ n.workerWrites A op = none := by
  cases op with
  | inbound d accept room => exact mediated_handleInbound hhook
  | outbound batch clock => exact iff_of_true (mediated_dispatchTunBatch hhook) rfl
  | tick now => exact iff_of_true mediated_nil rfl
  | engine c => exact iff_of_true mediated_nil rfl
  | choose transport => exact iff_of_true mediated_nil rfl

lemma deliver_fst {packet : Bytes} :
    ∃ engine, (n.deliver A d packet accept room).1 = { n with engine.toEngine := engine } := by
  unfold deliver
  dsimp only
  split
  · exact ⟨_, rfl⟩
  split
  · exact ⟨_, rfl⟩
  split
  · exact ⟨_, rfl⟩
  split
  · exact ⟨_, rfl⟩
  · exact ⟨_, rfl⟩

lemma handleFrame_fst {raw : Bytes} : ∃ plane, (n.handleFrame A d raw accept room).1 = { n with toPlane := plane } := by
  unfold handleFrame
  dsimp only
  split
  · exact ⟨_, rfl⟩
  · next packet _ _ =>
    obtain ⟨engine, heq⟩ := @deliver_fst _ _ A { n with toPlane := (n.toPlane.handleFrame A d raw).1 } d accept room
      packet.payload
    exact ⟨_, heq⟩
  · exact ⟨_, rfl⟩

lemma tick_fst {now : Nat} : ∃ plane, n.tick now = { n with toPlane := plane } := by
  unfold tick
  split
  · exact ⟨_, rfl⟩
  split
  · exact ⟨_, rfl⟩
  split
  · split
    · split
      · exact ⟨_, rfl⟩
      · exact ⟨_, rfl⟩
    · exact ⟨_, rfl⟩
  · exact ⟨_, rfl⟩

/-- The configuration stays. -/
lemma step_fst {op : NodeOp X} : ∃ plane, (n.step A op).1 = { n with toPlane := plane } := by
  cases op with
  | inbound d accept room =>
    have hstep : (n.step A (.inbound d accept room)).1 = (n.handleInbound A d accept room).1 := rfl
    rw [hstep]
    unfold handleInbound
    split
    · exact ⟨_, rfl⟩
    split
    · next plane raw _ =>
      obtain ⟨plane', heq⟩ := @handleFrame_fst _ _ A { n with toPlane := plane } d accept room raw
      exact ⟨plane', heq⟩
    · exact ⟨_, rfl⟩
  | outbound batch clock =>
    have hstep : (n.step A (.outbound batch clock)).1 = (n.send A (n.forwarded batch) clock).1 := rfl
    rw [hstep]
    unfold send
    split
    · exact ⟨_, rfl⟩
    dsimp only
    split
    · exact ⟨_, rfl⟩
    · exact ⟨_, rfl⟩
  | tick now => exact tick_fst
  | engine c => exact ⟨_, rfl⟩
  | choose transport => exact ⟨_, rfl⟩

/-! ### The same planes -/

lemma arrival_of_plain {p : Plane S X} (h : p.IsPlain d.raw) : p.arrival A d = (p, .ok none) := by
  obtain ⟨hknock, hdemux, hver, hip⟩ := h
  have hframe : ∀ ty, ¬ IsFrame ty d.raw := by
    intro ty hframe
    cases hraw : d.raw with
    | nil =>
      rw [hraw] at hframe
      cases hframe.1
    | cons v rest =>
      rw [hraw] at hframe hip
      cases hframe.1
      exact absurd hip (show some ((1 : UInt8) >>> 4) ∉ ([some 4, some 6] : List (Option UInt8)) by decide)
  have hafter : Plane.pass.afterFec A p d.raw = (p, .ok .taken) := by
    unfold Plane.pass.afterFec
    rw [if_neg (hframe _), if_pos ⟨hdemux, hver, hip⟩]
  have hpass : p.pass A d d.raw = (p, .ok .taken) := by
    unfold Plane.pass
    rw [if_neg hknock, if_neg fun h => hframe _ h.1]
    split
    · rw [if_neg (hframe _), if_neg (hframe _)]
      exact hafter
    · exact hafter
  unfold Plane.arrival
  rw [hpass]

/-- A node with a TUN, and one that began the handshake, handles datagrams like its plane. -/
theorem handleInbound_plane (h : n.tun = true ∨ n.isInitiator = true) :
    (n.handleInbound A d accept room).1.toPlane = (n.toPlane.handleInbound A d).1 := by
  have hdeliver : ∀ (m : Node S X) packet, m.tun = n.tun → m.isInitiator = n.isInitiator →
      (m.deliver A d packet accept room).1 = m := by
    intro m packet htun hinit
    unfold deliver
    dsimp only
    rw [htun, hinit]
    split
    · rfl
    split
    · rfl
    next hno =>
    rw [if_pos (h.resolve_left hno)]
  unfold handleInbound Plane.handleInbound
  split
  · next hplain =>
    rw [arrival_of_plain hplain]
  generalize n.toPlane.arrival A d = x
  rcases x with ⟨plane, (_ | raw) | e | _⟩
  · rfl
  · dsimp only
    unfold handleFrame
    dsimp only
    split
    · rfl
    · exact congrArg Node.toPlane (hdeliver { n with toPlane := (plane.handleFrame A d raw).1 } _ rfl rfl)
    · rfl
  · exact e.elim
  · rfl

end

/-- In every run of a node with a hook, everything that is written, sealed or sent was judged before, exactly if no worker
has put a packet on the TUN. -/
theorem mediated_iff (A : Aead) (n : Node S X) (hhook : n.hook = true) (ops : List (NodeOp X)) :
    (∀ log ∈ (run (step A) n ops).2, n.Mediated log) ↔ Along (step A) (fun n op => n.workerWrites A op = none) n ops := by
  rw [← along_answer]
  refine along_congr (I := fun m => m.hook = true ∧ m.compat = n.compat) (along_of_forall fun _ _ => trivial) ?_ ?_ ⟨hhook, rfl⟩
  · intro m op hm _ _
    obtain ⟨plane, heq⟩ := @step_fst _ _ A m op
    rw [heq]
    exact hm
  · rintro ⟨plane, hook, compat, tun, isInitiator, shardCount⟩ op ⟨hook', hcompat⟩ _
    cases hcompat
    exact mediated_step hook' op

/-- An established node with two shards to split off. -/
def sampleNode : Node sampleSig sampleAgreement where
  engine := { Session.start none none none (sampleAddr 1) (sampleAddr 0) with toEngine := sampleEnd false }
  sched :=
    { main := Watch.sampleSource 1
      alt := none
      transport := .tunnel (Watch.sampleSource 1)
      attempt := none
      lastUnauthRoam := none
      mp := false }
  shards := none
  fec := none
  learned := true
  learn := false
  migrate := false
  plainDemux := true
  hook := true
  compat := some ⟨id, .forward⟩
  tun := true
  isInitiator := false
  shardCount := 2

/-- A frame of the other side. -/
def sampleFrame : Datagram sampleAgreement := Watch.sampleDatagram ((sampleFrames (sampleShards true 2) [[1]]).headD []) 1

/-- The workers are split off, and one of them writes a packet to the TUN that the hook has not seen. -/
theorem worker_unjudged :
    ¬ ∀ log ∈ (run (step sampleAead) sampleNode [.tick 0, .inbound sampleFrame false true]).2, sampleNode.Mediated log := by
  intro h
  have hlog : (run (step sampleAead) sampleNode [.tick 0, .inbound sampleFrame false true]).2 =
      [[], [.written .worker [1]]] := by decide +kernel
  rw [hlog] at h
  obtain ⟨before, hbefore, -⟩ := h _ (List.mem_cons_of_mem _ List.mem_cons_self) [] _ [] rfl
  cases before with
  | nil => cases hbefore
  | cons _ _ => cases hbefore

/-- Before the workers are split off the same frame goes through the engine, and a batch goes out. -/
theorem mediated_iff_sample : let calls := [.inbound sampleFrame true true, .outbound [([1], true), ([2], false)] fun _ _ => 0]
    (run (step sampleAead) sampleNode calls).2.length = 2 ∧
      ∀ log ∈ (run (step sampleAead) sampleNode calls).2, sampleNode.Mediated log :=
  ⟨length_run _ _ _, (mediated_iff sampleAead sampleNode rfl _).mpr (by decide +kernel)⟩

end Node

end IPv8Plus.Adapter
