import IPv8Plus.Lib.Outcome
import IPv8Plus.Observe.Window

/-!
# Policies with hysteresis

`ipv8-observe/src/policy.rs` and `cc.rs`: the breaker of the alternate path, the gate of error correction and
the congestion controller. Each is a state machine that steps once for every report of the peer. Arithmetic is
that of a release build, so additions wrap; a division by zero is a panic.
-/

namespace IPv8Plus.Observe
open Lib

/-! ## The breaker -/

structure BreakerConfig where
  deadAgeMs : UInt32 := 1000
  aliveAgeMs : UInt32 := 600
  triggerWindows : UInt32 := 3
  recoverWindows : UInt32 := 5
  deriving DecidableEq, Repr

inductive AltVerdict where
  | dead
  | good
  | neutral
  deriving DecidableEq, Repr

structure Breaker where
  cfg : BreakerConfig
  «open» : Bool := false
  badRun : UInt32 := 0
  goodRun : UInt32 := 0
  deriving DecidableEq, Repr

def Breaker.classify (b : Breaker) (main alt : PathCounters) : AltVerdict :=
  let mainAlive := main.lastRecvAgeMs ≤ b.cfg.aliveAgeMs
  let altDead := b.cfg.deadAgeMs < alt.lastRecvAgeMs
  let altAlive := alt.lastRecvAgeMs ≤ b.cfg.aliveAgeMs
  if mainAlive ∧ altDead then .dead
  else if altAlive then .good
  else .neutral

def Breaker.update (b : Breaker) (main alt : PathCounters) : Breaker :=
  match b.classify main alt with
  | .dead =>
    let b := { b with goodRun := 0 }
    if b.open then b
    else
      let b := { b with badRun := b.badRun + 1 }
      if b.cfg.triggerWindows ≤ b.badRun then { b with «open» := true } else b
  | .good =>
    let b := { b with badRun := 0 }
    if b.open then
      let b := { b with goodRun := b.goodRun + 1 }
      if b.cfg.recoverWindows ≤ b.goodRun then { b with «open» := false } else b
    else b
  | .neutral =>
    let b := { b with goodRun := 0 }
    if b.open then b else { b with badRun := 0 }

/-! ## The gate -/

structure GateConfig where
  onLossPermille : UInt32 := 30
  offLossPermille : UInt32 := 5
  onWindows : UInt32 := 2
  offWindows : UInt32 := 5
  minExpected : UInt64 := 32
  deriving DecidableEq, Repr

structure FecGate where
  cfg : GateConfig
  on : Bool := false
  highRun : UInt32 := 0
  lowRun : UInt32 := 0
  deriving DecidableEq, Repr

/-- Lost frames in a thousand. -/
def lossPermille {ε : Type} (expected seen : UInt64) : Outcome ε UInt64 :=
  let lost := min (satSub expected seen) expected
  if expected = 0 then .panic else .ok (satMul lost 1000 / expected)

def FecGate.update {ε : Type} (g : FecGate) (delta : UInt64 × UInt64) : Outcome ε FecGate :=
  let (expected, seen) := delta
  if expected < g.cfg.minExpected then .ok g
  else do
    let permille ← lossPermille expected seen
    let permille := UInt32.ofNat permille.toNat
    if ¬ g.on then
      if g.cfg.onLossPermille ≤ permille then
        let g := { g with highRun := g.highRun + 1, lowRun := 0 }
        return if g.cfg.onWindows ≤ g.highRun then { g with on := true } else g
      else return { g with highRun := 0 }
    else if permille ≤ g.cfg.offLossPermille then
      let g := { g with lowRun := g.lowRun + 1, highRun := 0 }
      return if g.cfg.offWindows ≤ g.lowRun then { g with on := false } else g
    else return { g with lowRun := 0 }

/-! ## The congestion controller -/

structure CcConfig where
  ceilBps : UInt64
  floorBps : UInt64
  rttInflPermille : UInt32 := 250
  lossOnPermille : UInt32 := 30
  decreaseNum : UInt64 := 7
  decreaseDen : UInt64 := 10
  increaseDiv : UInt64 := 8
  minExpected : UInt64 := 32
  minRttExpiryMs : UInt64 := 10000
  deriving DecidableEq, Repr

def CcConfig.new (ceilBps : UInt64) : CcConfig := { ceilBps, floorBps := max (ceilBps / 16) 64000 }

/-- `minRtt` is the base of the round trip time and when it was set, `acc` and `accRtt` are what the reports since
the last evaluation have brought. -/
structure CongestionController where
  cfg : CcConfig
  rateBps : UInt64
  minRtt : Option (UInt64 × UInt64) := none
  acc : UInt64 × UInt64 := (0, 0)
  accRtt : Option UInt64 := none
  deriving DecidableEq, Repr

namespace CongestionController

def new (cfg : CcConfig) : CongestionController := { cfg, rateBps := cfg.ceilBps / 4 }

/-- One report more. -/
def accumulate (cc : CongestionController) (delta : UInt64 × UInt64) (rttUs : Option UInt64) : CongestionController :=
  { cc with
    acc := (satAdd cc.acc.1 delta.1, satAdd cc.acc.2 delta.2)
    accRtt := match rttUs with
      | some r => some (cc.accRtt.elim r (min · r))
      | none => cc.accRtt }

/-- The base of the round trip time that a sample is compared with. -/
def base (cc : CongestionController) (rtt nowMs : UInt64) : CongestionController × UInt64 :=
  match cc.minRtt with
  | some (b, ts) =>
    if b ≤ rtt ∧ satSub nowMs ts ≤ cc.cfg.minRttExpiryMs then (cc, b) else ({ cc with minRtt := some (rtt, nowMs) }, rtt)
  | none => ({ cc with minRtt := some (rtt, nowMs) }, rtt)

/-- Judge what has been accumulated, and set the rate. -/
def evaluate {ε : Type} (cc : CongestionController) (nowMs : UInt64) : Outcome ε CongestionController := do
  let (expected, seen) := cc.acc
  let rttUs := cc.accRtt
  let cc := { cc with acc := (0, 0), accRtt := none }
  let (cc, inflated) := match rttUs with
    | some rtt =>
      let (cc, b) := cc.base rtt nowMs
      (cc, decide (b.toNat * (1000 + cc.cfg.rttInflPermille).toNat ≤ rtt.toNat * 1000))
    | none => (cc, false)
  let lossPm ← lossPermille expected seen
  if inflated ∨ UInt64.ofNat cc.cfg.lossOnPermille.toNat ≤ lossPm then
    if cc.cfg.decreaseDen = 0 then .panic
    else return { cc with rateBps := max (cc.rateBps * cc.cfg.decreaseNum / cc.cfg.decreaseDen) cc.cfg.floorBps }
  else if cc.cfg.increaseDiv = 0 then .panic
  else return { cc with rateBps := min (cc.rateBps + cc.cfg.ceilBps / cc.cfg.increaseDiv) cc.cfg.ceilBps }

def update {ε : Type} (cc : CongestionController) (delta : UInt64 × UInt64) (rttUs : Option UInt64) (nowMs : UInt64) :
    Outcome ε CongestionController :=
  let cc := cc.accumulate delta rttUs
  if cc.acc.1 < cc.cfg.minExpected then .ok cc else cc.evaluate nowMs

end CongestionController

end IPv8Plus.Observe
