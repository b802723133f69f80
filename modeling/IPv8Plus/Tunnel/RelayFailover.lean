import IPv8Plus.Lib.Run

/-!
# Failover between relays

`relay_failover.rs`: the health of several relays is checked, and the traffic moves to another relay when the
active one goes down, and back to the primary one when it has been up for a while. `active_healthy` says when the
active relay is a healthy one: a relay that comes back is not made active, also if the active one is down.
-/

namespace IPv8Plus.Tunnel
open Lib

/-- Times in nanoseconds, from any fixed moment. -/
abbrev Instant := Nat

/-- In nanoseconds. -/
abbrev Duration := Nat

structure RelayNode where
  addr : String
  priority : UInt8
  lastLatency : Option Duration := none
  lastCheck : Option Instant := none
  failCount : UInt32 := 0
  successStreak : UInt32 := 0
  healthy : Bool := true
  deriving DecidableEq, Repr

/-- The streak after one more success; it saturates. -/
def RelayNode.nextStreak (r : RelayNode) : UInt32 := if r.successStreak = 0xFFFFFFFF then r.successStreak else r.successStreak + 1

structure FailoverConfig where
  checkInterval : Duration := 10 * 10 ^ 9
  failThreshold : UInt32 := 3
  recoverThreshold : UInt32 := 2
  recoverDebounce : Duration := 30 * 10 ^ 9
  deriving DecidableEq, Repr

inductive FailoverEvent where
  | relayDown (addr reason : String)
  | relayUp (addr : String) (latency : Duration)
  | switched («from» «to» reason : String)
  deriving DecidableEq, Repr

structure RelayFailover where
  config : FailoverConfig
  relays : List RelayNode
  activeIdx : Nat := 0
  primaryRecoveredAt : Option Instant := none
  events : List FailoverEvent := []
  deriving DecidableEq, Repr

namespace RelayFailover

/-- The relays by priority, the primary one first. All of them count as healthy. -/
def new (config : FailoverConfig) (relays : List (String × UInt8)) : RelayFailover where
  config := config
  relays := (relays.insertionSort fun a b => a.2 ≤ b.2).map fun (addr, priority) => { addr, priority }

def active (s : RelayFailover) : Option RelayNode := s.relays[s.activeIdx]?

/-- The address of a relay. The indices in use are those of relays (`inRange_step`). -/
def addrOf (s : RelayFailover) (idx : Nat) : String := (s.relays[idx]?).elim "" (·.addr)

/-- The first relay with an address. -/
def find (s : RelayFailover) (addr : String) : Option (Nat × RelayNode) := do
  let idx ← s.relays.findIdx? (·.addr = addr)
  let relay ← s.relays[idx]?
  return (idx, relay)

/-- The last 100 events are kept. -/
def pushEvent (s : RelayFailover) (event : FailoverEvent) : RelayFailover :=
  { s with events := (if 100 ≤ s.events.length then s.events.drop 1 else s.events) ++ [event] }

def doSwitchToPrimary (s : RelayFailover) (addr : String) : RelayFailover × Bool :=
  let old := s.addrOf s.activeIdx
  let s := { s with activeIdx := 0 }
  (s.pushEvent (.switched old addr "主中继恢复且稳定"), true)

/-- Milliseconds; unknown is more than anything. -/
def latencyKey (r : RelayNode) : Nat := r.lastLatency.elim (2 ^ 64 - 1) fun d => d / 10 ^ 6 % 2 ^ 64

/-- The first of the healthy relays with the least latency. -/
def best (s : RelayFailover) : Option Nat :=
  ((s.relays.zipIdx.filter (·.1.healthy)).argmin fun r => latencyKey r.1).map (·.2)

def switchToBest (s : RelayFailover) : RelayFailover × Bool :=
  match s.best with
  | some newIdx =>
    if newIdx ≠ s.activeIdx then
      (pushEvent { s with activeIdx := newIdx }
        (.switched (s.addrOf s.activeIdx) (s.addrOf newIdx) "活跃中继故障，切换到最优备用"), true)
    else (s, false)
  | none => (s.pushEvent (.switched (s.addrOf s.activeIdx) "无可用中继" "所有中继均不健康"), false)

/-- A check that was answered. -/
def checkUp (s : RelayFailover) (idx : Nat) (relay : RelayNode) (latency : Duration) (now : Instant) : RelayFailover × Bool :=
  let relay' := { relay with
    lastCheck := some now
    lastLatency := some latency
    failCount := 0
    successStreak := relay.nextStreak }
  if ¬ relay.healthy then
    if s.config.recoverThreshold ≤ relay'.successStreak then
      let s := { s with relays := s.relays.set idx { relay' with healthy := true } }
      let s := s.pushEvent (.relayUp relay.addr latency)
      (if idx = 0 then { s with primaryRecoveredAt := some now } else s, false)
    else ({ s with relays := s.relays.set idx relay' }, false)
  else
    let s := { s with relays := s.relays.set idx relay' }
    if idx = 0 ∧ s.activeIdx ≠ 0 then
      match s.primaryRecoveredAt with
      | some recovered => if s.config.recoverDebounce ≤ now - recovered then s.doSwitchToPrimary relay.addr else (s, false)
      | none => (s, false)
    else (s, false)

/-- A check that timed out. -/
def checkDown (s : RelayFailover) (idx : Nat) (relay : RelayNode) (now : Instant) : RelayFailover × Bool :=
  let relay' := { relay with lastCheck := some now, failCount := relay.failCount + 1, successStreak := 0 }
  if relay.healthy ∧ s.config.failThreshold ≤ relay'.failCount then
    let s := { s with relays := s.relays.set idx { relay' with healthy := false } }
    if idx = s.activeIdx then (s.pushEvent (.relayDown relay.addr "活跃中继健康检查失败")).switchToBest
    else (s.pushEvent (.relayDown relay.addr ("连续 " ++ toString relay'.failCount ++ " 次健康检查失败")), false)
  else ({ s with relays := s.relays.set idx relay' }, false)

/-- Record the result of a check; the answer is if the active relay changed. -/
def recordCheck (s : RelayFailover) (addr : String) (latency : Option Duration) (now : Instant) : RelayFailover × Bool :=
  match s.find addr with
  | none => (s, false)
  | some (idx, relay) =>
    match latency with
    | some latency => s.checkUp idx relay latency now
    | none => s.checkDown idx relay now

def needsCheck (s : RelayFailover) (addr : String) (now : Instant) : Bool :=
  match s.relays.find? (·.addr = addr) with
  | some r =>
    match r.lastCheck with
    | some last => s.config.checkInterval ≤ now - last
    | none => true
  | none => false

end RelayFailover

/-- The result of a check. -/
structure RelayCheck where
  addr : String
  latency : Option Duration
  now : Instant
  deriving DecidableEq, Repr

def RelayFailover.step (s : RelayFailover) (c : RelayCheck) : RelayFailover × Bool := s.recordCheck c.addr c.latency c.now

namespace RelayFailover

variable {s : RelayFailover} {c : RelayCheck} {idx : Nat} {relay : RelayNode} {latency : Duration} {now : Instant}

/-! ## Health -/

/-- Which relays are marked healthy. -/
def health (s : RelayFailover) : List Bool := s.relays.map (·.healthy)

/-- If any relay is marked healthy, then the active one is. -/
def ActiveHealthy (s : RelayFailover) : Prop := true ∈ s.health → s.health[s.activeIdx]? = some true

instance (s : RelayFailover) : Decidable s.ActiveHealthy := inferInstanceAs (Decidable (_ → _))

/-- The relay that comes back with this check. -/
def recovers (s : RelayFailover) (c : RelayCheck) : Option Nat :=
  match s.find c.addr, c.latency with
  | some (idx, relay), some _ =>
    if ¬ relay.healthy ∧ s.config.recoverThreshold ≤ relay.nextStreak then some idx else none
  | _, _ => none

/-- No relay but the active one comes back while the active one is down. -/
def Seated (s : RelayFailover) (c : RelayCheck) : Prop :=
  ∀ idx, s.recovers c = some idx → idx = s.activeIdx ∨ s.health[s.activeIdx]? = some true

instance (s : RelayFailover) (c : RelayCheck) : Decidable (s.Seated c) :=
  decidable_of_iff ((s.recovers c).all fun idx => idx = s.activeIdx ∨ s.health[s.activeIdx]? = some true) (by
    rw [Option.all_eq_true]
    exact forall₂_congr fun _ _ => decide_eq_true_iff)

lemma find_eq_some (h : s.find c.addr = some (idx, relay)) : s.relays[idx]? = some relay := by
  obtain ⟨i, -, h⟩ := Option.bind_eq_some_iff.mp h
  obtain ⟨r, hr, h⟩ := Option.bind_eq_some_iff.mp h
  cases h
  exact hr

/-- The best relay is a healthy one, and there is one if any relay is healthy. -/
lemma best_eq_some (h : s.best = some idx) : s.health[idx]? = some true := by
  obtain ⟨⟨r, i⟩, hmin, hidx⟩ := Option.map_eq_some_iff.mp h
  cases hidx
  obtain ⟨hmem, hhealthy⟩ := List.mem_filter.mp (List.argmin_mem hmin)
  have hget : s.relays[i]? = some r := List.mem_zipIdx_iff_getElem?.mp hmem
  rw [health, List.getElem?_map, hget]
  exact congrArg some hhealthy

lemma best_eq_none (h : s.best = none) : true ∉ s.health := by
  intro hmem
  obtain ⟨r, hr, hhealthy⟩ := List.mem_map.mp hmem
  obtain ⟨i, hi⟩ := List.mem_iff_getElem?.mp hr
  have hnil := List.argmin_eq_none.mp (Option.map_eq_none_iff.mp h)
  have hin : (r, i) ∈ s.relays.zipIdx.filter (·.1.healthy) :=
    List.mem_filter.mpr ⟨List.mem_zipIdx_iff_getElem?.mpr hi, hhealthy⟩
  rw [hnil] at hin
  exact List.not_mem_nil hin

/-- Moving to the best relay ends on a healthy one. -/
lemma activeHealthy_switchToBest (s : RelayFailover) : s.switchToBest.1.ActiveHealthy := by
  unfold switchToBest
  cases hbest : s.best with
  | none =>
    intro hmem
    exact absurd hmem (best_eq_none hbest)
  | some newIdx =>
    dsimp only
    split
    · intro _
      exact best_eq_some hbest
    · next hsame =>
      intro _
      rw [not_not.mp hsame] at hbest
      exact best_eq_some hbest

/-- The move is to a relay. -/
lemma inRange_switchToBest {n : Nat} (h : s.health.length = n) : s.switchToBest.1.health.length = n ∧
    (s.switchToBest.1.activeIdx = s.activeIdx ∨ s.switchToBest.1.activeIdx < n) := by
  unfold switchToBest
  cases hbest : s.best with
  | none => exact ⟨h, .inl rfl⟩
  | some newIdx =>
    dsimp only
    split
    · exact ⟨h, .inr (h ▸ (List.getElem?_eq_some_iff.mp (best_eq_some hbest)).1)⟩
    · exact ⟨h, .inl rfl⟩

/-! ## One check -/

/-- What a check does to the health of the relays and to the choice of the active one. -/
inductive Checked (s : RelayFailover) (c : RelayCheck) (s' : RelayFailover) : Prop where
  | up (idx : Nat) (hup : s.recovers c = some idx) (hidx : idx < s.health.length)
    (hhealth : s'.health = s.health.set idx true) (hactive : s'.activeIdx = s.activeIdx)
  | same (hup : s.recovers c = none) (hhealth : s'.health = s.health) (hactive : s'.activeIdx = s.activeIdx)
  | primary (hup : s.recovers c = none) (hhealth : s'.health = s.health) (hactive : s'.activeIdx = 0)
    (hprimary : s.health[0]? = some true)
  | down (idx : Nat) (hup : s.recovers c = none) (hidx : idx ≠ s.activeIdx) (hhealth : s'.health = s.health.set idx false)
    (hactive : s'.activeIdx = s.activeIdx)
  | moved (hup : s.recovers c = none) (hhealth : s'.health.length = s.health.length) (hactive : s'.ActiveHealthy)
    (hidx : s'.activeIdx = s.activeIdx ∨ s'.activeIdx < s.health.length)

lemma getElem?_health (h : s.relays[idx]? = some relay) : s.health[idx]? = some relay.healthy := by
  rw [health, List.getElem?_map, h]
  rfl

/-- Writing a relay back with the same health. -/
lemma health_set (relay' : RelayNode) (h : s.relays[idx]? = some relay) (hsame : relay'.healthy = relay.healthy) :
    (s.relays.set idx relay').map (·.healthy) = s.health := by
  rw [List.map_set, hsame]
  have hget := getElem?_health h
  obtain ⟨hlt, hget⟩ := List.getElem?_eq_some_iff.mp hget
  rw [← hget]
  exact List.set_getElem_self hlt

lemma checked_step (s : RelayFailover) (c : RelayCheck) : s.Checked c (s.step c).1 := by
  obtain ⟨addr, latency, now⟩ := c
  unfold step recordCheck
  cases hfind : s.find addr with
  | none =>
    refine .same ?_ rfl rfl
    rw [recovers, hfind]
  | some found =>
    obtain ⟨idx, relay⟩ := found
    have hget := find_eq_some (c := ⟨addr, latency, now⟩) hfind
    cases latency with
    | none =>
      have hup : s.recovers ⟨addr, none, now⟩ = none := by rw [recovers, hfind]
      dsimp only
      unfold checkDown
      dsimp only
      split
      · split
        · have hlength : ∀ r : RelayNode, ((s.relays.set idx r).map (·.healthy)).length = s.health.length := by
            intro r
            rw [List.length_map, List.length_set, health, List.length_map]
          have hrange := @inRange_switchToBest (pushEvent { s with relays := s.relays.set idx { relay with
            lastCheck := some now, failCount := relay.failCount + 1, successStreak := 0, healthy := false } }
              (.relayDown relay.addr "活跃中继健康检查失败")) s.health.length (hlength _)
          exact .moved hup hrange.1 (activeHealthy_switchToBest _) hrange.2
        · next hidx => exact .down idx hup hidx List.map_set rfl
      · exact .same hup (health_set _ hget rfl) rfl
    | some latency =>
      have hup : s.recovers ⟨addr, some latency, now⟩ =
          if ¬ relay.healthy ∧ s.config.recoverThreshold ≤ relay.nextStreak then some idx else none := by
        rw [recovers, hfind]
      dsimp only
      unfold checkUp
      dsimp only
      split
      · next hdown =>
        split
        · next hstreak =>
          rw [if_pos ⟨hdown, hstreak⟩] at hup
          have hlt := (List.getElem?_eq_some_iff.mp (getElem?_health hget)).1
          split
          · exact .up idx hup hlt List.map_set rfl
          · exact .up idx hup hlt List.map_set rfl
        · next hstreak =>
          rw [if_neg fun h => hstreak h.2] at hup
          exact .same hup (health_set _ hget rfl) rfl
      · next hhealthy =>
        rw [if_neg fun h => hhealthy h.1] at hup
        have hhealth := health_set { relay with
          lastCheck := some now, lastLatency := some latency, failCount := 0, successStreak := relay.nextStreak } hget rfl
        split
        · next hprimary =>
          split
          · split
            · refine .primary hup hhealth rfl ?_
              rw [← hprimary.1, getElem?_health hget, not_not.mp hhealthy]
            · exact .same hup hhealth rfl
          · exact .same hup hhealth rfl
        · exact .same hup hhealth rfl

/-- One check keeps the active relay healthy, unless it strands the traffic. -/
lemma activeHealthy_step (h : s.ActiveHealthy) : (s.step c).1.ActiveHealthy ↔ s.Seated c := by
  unfold ActiveHealthy Seated
  cases checked_step s c with
  | up idx hup hidx hhealth hactive =>
    rw [hhealth, hactive, hup]
    constructor
    · intro hset i hi
      cases hi
      by_cases hseat : idx = s.activeIdx
      · exact .inl hseat
      · have hget := hset (List.mem_set hidx true)
        rw [List.getElem?_set_ne hseat] at hget
        exact .inr hget
    · intro hseated _
      rcases hseated idx rfl with hseat | hget
      · rw [← hseat]
        exact List.getElem?_set_self hidx
      · by_cases hseat : idx = s.activeIdx
        · rw [← hseat]
          exact List.getElem?_set_self hidx
        · rw [List.getElem?_set_ne hseat]
          exact hget
  | same hup hhealth hactive =>
    rw [hhealth, hactive, hup]
    refine iff_of_true h ?_
    intro idx hidx
    cases hidx
  | primary hup hhealth hactive hprimary =>
    rw [hhealth, hactive, hup]
    refine iff_of_true (fun _ => hprimary) ?_
    intro idx hidx
    cases hidx
  | down idx hup hidx hhealth hactive =>
    rw [hhealth, hactive, hup, List.getElem?_set_ne hidx]
    constructor
    · intro _ i hi
      cases hi
    · intro _ hmem
      rcases List.mem_or_eq_of_mem_set hmem with hmem | hfalse
      · exact h hmem
      · cases hfalse
  | moved hup _ hactive _ =>
    rw [hup]
    refine iff_of_true hactive ?_
    intro idx hidx
    cases hidx

/-- The active relay stays one of the relays. -/
lemma inRange_step (h : s.activeIdx < s.health.length) : (s.step c).1.activeIdx < (s.step c).1.health.length := by
  cases checked_step s c with
  | up idx hup hidx hhealth hactive =>
    rw [hhealth, hactive, List.length_set]
    exact h
  | same hup hhealth hactive =>
    rw [hhealth, hactive]
    exact h
  | primary hup hhealth hactive hprimary =>
    rw [hhealth, hactive]
    exact Nat.zero_lt_of_lt h
  | down idx hup hidx hhealth hactive =>
    rw [hhealth, hactive, List.length_set]
    exact h
  | moved hup hhealth hactive hidx =>
    rw [hhealth]
    rcases hidx with hsame | hlt
    · rw [hsame]
      exact h
    · exact hlt

/-- After every check of a run the active relay is healthy if any relay is, if and only if no check strands the
traffic. -/
theorem active_healthy {config : FailoverConfig} {relays : List (String × UInt8)} {checks : List RelayCheck} :
    Along step (fun s c => (s.step c).1.ActiveHealthy) (new config relays) checks ↔
      Along step Seated (new config relays) checks := by
  have hnew : (new config relays).ActiveHealthy := by
    intro hmem
    have hall : ∀ b ∈ (new config relays).health, b = true := by
      intro b hb
      obtain ⟨r, hr, rfl⟩ := List.mem_map.mp hb
      obtain ⟨entry, -, rfl⟩ := List.mem_map.mp hr
      rfl
    cases hhealth : (new config relays).health with
    | nil =>
      rw [hhealth] at hmem
      exact absurd hmem List.not_mem_nil
    | cons b rest =>
      rw [hhealth] at hall
      exact congrArg some (hall b List.mem_cons_self)
  exact along_congr (along_of_forall (P := fun _ => True) fun _ _ => trivial) (fun _ _ _ _ h => h)
    (fun _ _ h _ => activeHealthy_step h) hnew

/-- A primary relay and two backups. -/
def sampleRelays : RelayFailover :=
  new { failThreshold := 2, recoverThreshold := 1 } [("main", 0), ("backup1", 1), ("backup2", 2)]

/-- One relay after the other goes down, and the first backup comes back. -/
def sampleChecks : List RelayCheck :=
  (["main", "main", "backup1", "backup1", "backup2", "backup2"].map fun addr => ⟨addr, none, 0⟩) ++
    [⟨"backup1", some (50 * 10 ^ 6), 10 ^ 9⟩, ⟨"backup1", some (50 * 10 ^ 6), 100 * 10 ^ 9⟩]

/-- The active relay stays the one that is down. -/
theorem relays_stranded :
    ¬ Along step (fun s c => (s.step c).1.ActiveHealthy) sampleRelays sampleChecks ∧
      (run step sampleRelays sampleChecks).1.health = [false, true, false] ∧
      (run step sampleRelays sampleChecks).1.activeIdx = 2 := by
  decide +kernel

end RelayFailover

end IPv8Plus.Tunnel
