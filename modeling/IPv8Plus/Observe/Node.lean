import IPv8Plus.Lib.Run
import IPv8Plus.Observe.Policy
import IPv8Plus.Observe.Report

/-!
# The observation node

`ipv8-observe/src/lib.rs`: a node observes the data frames that come in on two paths, reports their counts to
the peer every 200 ms, and steps its policies with the reports of the peer. The counts of a report are
cumulative; the node that gets it takes the difference to the report before.
-/

namespace IPv8Plus.Observe
open Lib

inductive PathId where
  | main
  | alt
  deriving DecidableEq, Repr

structure ObserveConfig where
  reportIntervalMs : UInt64 := 200
  dualPath : Bool := false
  breaker : BreakerConfig := {}
  gate : GateConfig := {}
  cc : Option CcConfig := none
  deriving DecidableEq, Repr

structure ObserveNode where
  cfg : ObserveConfig
  main : PathState := {}
  alt : PathState := {}
  rxUnion : SaWindows := []
  rtt : RttTracker := {}
  seq : UInt32 := 0
  lastReportMs : Option UInt64 := none
  peerPrev : Option Slots := none
  lastDunion : UInt64 × UInt64 := (0, 0)
  breaker : Breaker
  gate : FecGate
  cc : Option CongestionController
  deriving DecidableEq, Repr

namespace ObserveNode

def new (cfg : ObserveConfig) : ObserveNode where
  cfg := cfg
  breaker := { cfg := cfg.breaker }
  gate := { cfg := cfg.gate }
  cc := cfg.cc.map .new

def path (n : ObserveNode) : PathId → PathState
  | .main => n.main
  | .alt => n.alt

/-- Observe a frame on one path, and in the union. -/
def observeInbound (n : ObserveNode) (nowMs : UInt64) (path : PathId) (frame : Bytes) : ObserveNode × Bool :=
  let (p, accepted) := (n.path path).observeData nowMs frame
  let n := match path with
    | .main => { n with main := p }
    | .alt => { n with alt := p }
  if accepted then
    match frameMeta frame with
    | some (key, counter) => ({ n with rxUnion := n.rxUnion.observe key counter }, true)
    | none => (n, true)
  else (n, false)

/-- The counts of a report made now. -/
def slots (n : ObserveNode) (nowMs : UInt64) : Slots :=
  let main := n.main.counters nowMs
  let alt := n.alt.counters nowMs
  { main, alt, union := { n.rxUnion.totals with lastRecvAgeMs := min main.lastRecvAgeMs alt.lastRecvAgeMs } }

/-- The last report is less than an interval ago. -/
def tooSoon (n : ObserveNode) (nowMs : UInt64) : Bool :=
  match n.lastReportMs with
  | some last => satSub nowMs last < n.cfg.reportIntervalMs
  | none => false

def maybeBuildReport (n : ObserveNode) (nowMs nowUs : UInt64) : ObserveNode × Option Bytes :=
  if n.tooSoon nowMs then (n, none)
  else
    let (lsrUs, dlsrUs) := n.rtt.echo nowUs
    let report : Report := {
      seq := n.seq
      sendTsUs := nowUs
      lsrUs
      dlsrUs
      slotsValid := if n.cfg.dualPath then 2 else 1
      slots := n.slots nowMs }
    ({ n with seq := n.seq + 1, lastReportMs := some nowMs }, some (encode report))

/-- What a path, or the union, has had since the report before; the subtraction wraps. -/
def delta (cur old : PathCounters) : UInt64 × UInt64 := (cur.expected - old.expected, cur.seen - old.seen)

/-- Step the congestion controller, if there is one. -/
def updateCc (n : ObserveNode) (dunion : UInt64 × UInt64) (nowMs : UInt64) :
    Outcome ReportError (Option CongestionController) :=
  match n.cc with
  | some cc => some <$> cc.update dunion n.rtt.rttUs nowMs
  | none => .ok none

/-- Step the policies with a report. -/
def advance (n : ObserveNode) (prev : Slots) (nowMs : UInt64) (r : Report) : Outcome ReportError ObserveNode := do
  let dunion := delta r.slots.union prev.union
  let breaker := if n.cfg.dualPath then n.breaker.update r.slots.main r.slots.alt else n.breaker
  let gate ← n.gate.update dunion
  let cc ← n.updateCc dunion nowMs
  return { n with breaker, gate, lastDunion := dunion, cc }

/-- Take in the times of a report. -/
def received (n : ObserveNode) (nowUs : UInt64) (r : Report) : ObserveNode :=
  { n with rtt := n.rtt.onPeerReport nowUs r }

/-- Take in a report of the peer. The first one steps no policy. -/
def ingestReport (n : ObserveNode) (nowMs nowUs : UInt64) (bytes : Bytes) : ObserveNode × Outcome ReportError Unit :=
  match decode bytes with
  | .error e => (n, .err e)
  | .ok r =>
    match n.peerPrev with
    | none => ({ n.received nowUs r with peerPrev := some r.slots }, .ok ())
    | some prev =>
      match (n.received nowUs r).advance prev nowMs r with
      | .err e => (n.received nowUs r, .err e)
      | .panic => (n.received nowUs r, .panic)
      | .ok n => ({ n with peerPrev := some r.slots }, .ok ())

end ObserveNode

/-- The calls of a node. -/
inductive NodeCall where
  | inbound (nowMs : UInt64) (path : PathId) (frame : Bytes)
  | build (nowMs nowUs : UInt64)
  | ingest (nowMs nowUs : UInt64) (bytes : Bytes)
  deriving DecidableEq, Repr

/-- One call, and the report that it makes. -/
def ObserveNode.step (n : ObserveNode) : NodeCall → ObserveNode × Option Bytes
  | .inbound nowMs path frame => ((n.observeInbound nowMs path frame).1, none)
  | .build nowMs nowUs => n.maybeBuildReport nowMs nowUs
  | .ingest nowMs nowUs bytes => ((n.ingestReport nowMs nowUs bytes).1, none)

namespace ObserveNode

variable {n n' : ObserveNode} {prev : Slots} {nowMs nowUs : UInt64} {r : Report} {bytes : Bytes}

/-- What a step of the policies changes. -/
lemma advance_eq_ok : n.advance prev nowMs r = .ok n' ↔
    ∃ gate cc, n.gate.update (delta r.slots.union prev.union) = (.ok gate : Outcome ReportError FecGate) ∧
      n.updateCc (delta r.slots.union prev.union) nowMs = .ok cc ∧
      n' = { n with
        breaker := if n.cfg.dualPath then n.breaker.update r.slots.main r.slots.alt else n.breaker
        gate
        lastDunion := delta r.slots.union prev.union
        cc } := by
  unfold advance
  constructor
  · intro h
    obtain ⟨gate, hgate, h⟩ := Outcome.bind_eq_ok.mp h
    obtain ⟨cc, hcc, h⟩ := Outcome.bind_eq_ok.mp h
    exact ⟨gate, cc, hgate, hcc, (Outcome.ok.inj h).symm⟩
  · rintro ⟨gate, cc, hgate, hcc, rfl⟩
    dsimp only
    rw [hgate, Outcome.ok_bind, hcc, Outcome.ok_bind, Outcome.pure_def]

/-- A report that is taken in becomes the base of the next difference, and steps the policies if there is a base. -/
lemma ingestReport_eq_ok : n.ingestReport nowMs nowUs bytes = (n', .ok ()) ↔
    ∃ r, decode bytes = .ok r ∧
      match n.peerPrev with
      | none => n' = { n.received nowUs r with peerPrev := some r.slots }
      | some prev => ∃ m, (n.received nowUs r).advance prev nowMs r = .ok m ∧ n' = { m with peerPrev := some r.slots } := by
  unfold ingestReport
  cases hdecode : decode bytes with
  | error e =>
    constructor
    · intro h
      cases h
    · rintro ⟨r, hr, -⟩
      cases hr
  | ok r =>
    cases hprev : n.peerPrev with
    | none =>
      constructor
      · intro h
        cases h
        exact ⟨r, rfl, rfl⟩
      · rintro ⟨r', hr, rfl⟩
        cases hr
        rfl
    | some prev =>
      constructor
      · intro h
        dsimp only at h
        cases hm : (n.received nowUs r).advance prev nowMs r with
        | err e =>
          rw [hm] at h
          cases h
        | panic =>
          rw [hm] at h
          cases h
        | ok m =>
          rw [hm] at h
          cases h
          exact ⟨r, rfl, m, hm, rfl⟩
      · rintro ⟨r', hr, m, hm, rfl⟩
        cases hr
        dsimp only
        rw [hm]

end ObserveNode

end IPv8Plus.Observe
