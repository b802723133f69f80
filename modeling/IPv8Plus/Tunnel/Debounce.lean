import IPv8Plus.Tunnel.RelayFailover

/-!
# Back to the primary relay

`relay_failover.rs` goes back to a primary relay that has recovered after it was stable for a while. What it remembers is
when the relay was last marked healthy; a check that fails without marking it down again is forgotten. So the switch is
debounced in the runs without such checks, and one of them is enough to break it.
-/

namespace IPv8Plus.Tunnel
open Lib

def FailoverEvent.reason : FailoverEvent → String
  | .relayDown _ reason => reason
  | .relayUp _ _ => ""
  | .switched _ _ reason => reason

/-- Why `do_switch_to_primary` switches. -/
def recoveredReason : String := "主中继恢复且稳定"

namespace RelayFailover

variable {s s' : RelayFailover} {c : RelayCheck} {idx : Nat} {relay : RelayNode} {latency : Duration} {now : Instant}

/-- The check is one of the primary relay. -/
def OfPrimary (s : RelayFailover) (c : RelayCheck) : Prop := (s.find c.addr).map Prod.fst = some 0

instance (s : RelayFailover) (c : RelayCheck) : Decidable (s.OfPrimary c) := inferInstanceAs (Decidable (_ = _))

/-- The active relay changes from a backup to the primary one because this has recovered. -/
def SwitchesBack (s : RelayFailover) (c : RelayCheck) : Prop :=
  s.activeIdx ≠ 0 ∧ (s.step c).1.activeIdx = 0 ∧ (s.step c).1.events.getLast?.map FailoverEvent.reason = some recoveredReason

instance (s : RelayFailover) (c : RelayCheck) : Decidable (s.SwitchesBack c) := inferInstanceAs (Decidable (_ ∧ _))

/-- While a backup is active, the primary relay fails a check and stays marked healthy. -/
def Forgives (s : RelayFailover) (c : RelayCheck) : Prop :=
  s.activeIdx ≠ 0 ∧ c.latency = none ∧
    ∃ x ∈ s.find c.addr, x.1 = 0 ∧ x.2.healthy = true ∧ ¬ s.config.failThreshold ≤ x.2.failCount + 1

/-- What a check does to the choice of the active relay and to the time of the recovery. -/
inductive Turned (s : RelayFailover) (c : RelayCheck) (s' : RelayFailover) : Prop where
  | up (idx : Nat) (relay : RelayNode) (hfind : s.find c.addr = some (idx, relay)) (hdown : relay.healthy = false)
    (hanswered : c.latency ≠ none) (hhealth : s'.health = s.health.set idx true) (hactive : s'.activeIdx = s.activeIdx)
    (hsince : s'.primaryRecoveredAt = if idx = 0 then some c.now else s.primaryRecoveredAt)
  | back (relay : RelayNode) (t : Instant) (hfind : s.find c.addr = some (0, relay)) (hanswered : c.latency ≠ none)
    (hhealthy : s.health[0]? = some true)
    (hbackup : s.activeIdx ≠ 0) (ht : s.primaryRecoveredAt = some t) (hstable : s.config.recoverDebounce ≤ c.now - t)
    (hhealth : s'.health = s.health) (hactive : s'.activeIdx = 0) (hsince : s'.primaryRecoveredAt = s.primaryRecoveredAt)
    (hreason : s'.events.getLast?.map FailoverEvent.reason = some recoveredReason)
  | same (hquiet : s.OfPrimary c → c.latency = none → s.health[0]? = some true → s.activeIdx ≠ 0 → s.Forgives c)
    (hhealth : s'.health = s.health) (hactive : s'.activeIdx = s.activeIdx) (hsince : s'.primaryRecoveredAt = s.primaryRecoveredAt)
  | down (idx : Nat) (relay : RelayNode) (hfind : s.find c.addr = some (idx, relay)) (hfailed : c.latency = none)
    (hhealth : s'.health = s.health.set idx false) (hactive : idx ≠ s.activeIdx → s'.activeIdx = s.activeIdx)
    (hsince : s'.primaryRecoveredAt = s.primaryRecoveredAt)
    (hreason : s'.activeIdx ≠ s.activeIdx → s'.events.getLast?.map FailoverEvent.reason ≠ some recoveredReason)

lemma getLast?_pushEvent (e : FailoverEvent) : (s.pushEvent e).events.getLast? = some e := by
  unfold pushEvent
  exact List.getLast?_concat

/-- Moving to the best relay keeps everything but the active relay, and gives another reason. -/
lemma switchToBest_frame (s : RelayFailover) : s.switchToBest.1.health = s.health ∧
    s.switchToBest.1.primaryRecoveredAt = s.primaryRecoveredAt ∧ (s.switchToBest.1.activeIdx ≠ s.activeIdx →
      s.switchToBest.1.events.getLast?.map FailoverEvent.reason ≠ some recoveredReason) := by
  unfold switchToBest
  split
  · split
    · refine ⟨rfl, rfl, fun _ h => ?_⟩
      rw [getLast?_pushEvent] at h
      have hother : "活跃中继故障，切换到最优备用" ≠ recoveredReason := by decide
      exact hother (Option.some_inj.mp h)
    · exact ⟨rfl, rfl, fun h => absurd rfl h⟩
  · exact ⟨rfl, rfl, fun h => absurd rfl h⟩

lemma ofPrimary_of_find (h : s.find c.addr = some (idx, relay)) : s.OfPrimary c ↔ idx = 0 := by
  unfold OfPrimary
  rw [h]
  exact Option.some_inj

lemma turned_step (s : RelayFailover) (c : RelayCheck) : s.Turned c (s.step c).1 := by
  obtain ⟨addr, latency, now⟩ := c
  unfold step recordCheck
  cases hfind : s.find addr with
  | none =>
    refine .same ?_ rfl rfl rfl
    intro hprimary
    unfold OfPrimary at hprimary
    rw [hfind] at hprimary
    cases hprimary
  | some found =>
    obtain ⟨idx, relay⟩ := found
    have hget := find_eq_some (c := ⟨addr, latency, now⟩) hfind
    cases latency with
    | none =>
      dsimp only
      unfold checkDown
      dsimp only
      split
      · next hdown =>
        split
        · next hactive =>
          obtain ⟨hhealth, hsince, hreason⟩ := switchToBest_frame (pushEvent { s with relays := s.relays.set idx { relay with
            lastCheck := some now, failCount := relay.failCount + 1, successStreak := 0, healthy := false } }
              (.relayDown relay.addr "活跃中继健康检查失败"))
          exact .down idx relay hfind rfl (hhealth.trans List.map_set) (fun hne => absurd hactive hne) hsince hreason
        · next hactive => exact .down idx relay hfind rfl List.map_set (fun _ => rfl) rfl fun h => absurd rfl h
      · next hlow =>
        refine .same ?_ (health_set _ hget rfl) rfl rfl
        intro hprimary _ hhealthy hbackup
        cases (ofPrimary_of_find (c := ⟨addr, none, now⟩) hfind).mp hprimary
        rw [getElem?_health hget] at hhealthy
        have hup : relay.healthy = true := Option.some_inj.mp hhealthy
        exact ⟨hbackup, rfl, (0, relay), hfind, rfl, hup, fun hhigh => hlow ⟨hup, hhigh⟩⟩
    | some latency =>
      have hanswered : (⟨addr, some latency, now⟩ : RelayCheck).latency ≠ none := nofun
      have hquiet : ∀ P : Prop, (⟨addr, some latency, now⟩ : RelayCheck).latency = none → P := fun _ h => absurd h hanswered
      dsimp only
      unfold checkUp
      dsimp only
      split
      · next hdown =>
        have hdown : relay.healthy = false := Bool.eq_false_iff.mpr hdown
        split
        · split
          · next hprimary => exact .up idx relay hfind hdown hanswered List.map_set rfl (if_pos hprimary).symm
          · next hprimary => exact .up idx relay hfind hdown hanswered List.map_set rfl (if_neg hprimary).symm
        · exact .same (fun _ h => hquiet _ h) (health_set _ hget rfl) rfl rfl
      · next hhealthy =>
        have hhealth := health_set { relay with
          lastCheck := some now, lastLatency := some latency, failCount := 0, successStreak := relay.nextStreak } hget rfl
        split
        · next hprimary =>
          obtain ⟨rfl, hbackup⟩ := hprimary
          split
          · next t ht =>
            split
            · next hstable =>
              have hup : s.health[0]? = some true := by rw [getElem?_health hget, not_not.mp hhealthy]
              refine .back relay t hfind hanswered hup hbackup ht hstable hhealth rfl rfl ?_
              unfold doSwitchToPrimary
              rw [getLast?_pushEvent]
              rfl
            · exact .same (fun _ h => hquiet _ h) hhealth rfl rfl
          · exact .same (fun _ h => hquiet _ h) hhealth rfl rfl
        · exact .same (fun _ h => hquiet _ h) hhealth rfl rfl

/-- A check of the healthy primary relay that is answered after the debounce time brings it back. -/
lemma switchesBack_of_stable {t : Instant} (hfind : s.find c.addr = some (0, relay)) (hhealthy : relay.healthy = true)
    (hbackup : s.activeIdx ≠ 0) (ht : s.primaryRecoveredAt = some t) (hlatency : c.latency = some latency)
    (hstable : t + s.config.recoverDebounce ≤ c.now) : s.SwitchesBack c := by
  have hanswer : s.step c = doSwitchToPrimary { s with relays := s.relays.set 0 { relay with
      lastCheck := some c.now, lastLatency := some latency, failCount := 0, successStreak := relay.nextStreak } } relay.addr := by
    unfold step recordCheck
    rw [hfind, hlatency]
    dsimp only
    unfold checkUp
    dsimp only
    rw [if_neg (not_not.mpr hhealthy), if_pos ⟨rfl, hbackup⟩, ht]
    exact if_pos (Nat.le_sub_of_add_le' hstable)
  refine ⟨hbackup, ?_, ?_⟩
  · rw [hanswer]
    rfl
  · rw [hanswer]
    unfold doSwitchToPrimary
    rw [getLast?_pushEvent]
    rfl

/-- The primary relay is the first one. -/
lemma find_primary {addr : String} : s.find addr = some (0, relay) ↔ ∃ backups, s.relays = relay :: backups ∧ relay.addr = addr := by
  unfold find
  cases s.relays with
  | nil =>
    apply iff_of_false
    · intro h
      cases h
    · rintro ⟨_, h, -⟩
      cases h
  | cons r backups =>
    rw [List.findIdx?_cons]
    by_cases haddr : r.addr = addr
    · rw [if_pos (decide_eq_true haddr)]
      constructor
      · intro h
        cases h
        exact ⟨backups, rfl, haddr⟩
      · rintro ⟨_, h, -⟩
        cases h
        rfl
    · rw [if_neg (by rw [decide_eq_true_eq]; exact haddr)]
      apply iff_of_false
      · intro h
        obtain ⟨i, hi, h⟩ := Option.bind_eq_some_iff.mp h
        obtain ⟨j, -, rfl⟩ := Option.map_eq_some_iff.mp hi
        obtain ⟨r', -, h⟩ := Option.bind_eq_some_iff.mp h
        cases h
      · rintro ⟨_, h, h'⟩
        cases h
        exact haddr h'

/-- What is forgotten: the primary relay stays healthy, and the time of its recovery stays. -/
lemma Forgives.step (h : s.Forgives c) : (∃ relay, (s.step c).1.find c.addr = some (0, relay) ∧ relay.healthy = true) ∧
    (s.step c).1.activeIdx = s.activeIdx ∧ (s.step c).1.primaryRecoveredAt = s.primaryRecoveredAt ∧
      (s.step c).1.health = s.health ∧ s.OfPrimary c ∧ s.health[0]? = some true := by
  obtain ⟨-, hfailed, ⟨idx, relay⟩, hfind, hidx, hhealthy, hlow⟩ := h
  cases hidx
  have hget := find_eq_some hfind
  obtain ⟨backups, hrelays, haddr⟩ := find_primary.mp hfind
  have hstep : (s.step c).1 = { s with relays := s.relays.set 0 { relay with
      lastCheck := some c.now, failCount := relay.failCount + 1, successStreak := 0 } } := by
    unfold RelayFailover.step recordCheck
    rw [hfind, hfailed]
    dsimp only
    unfold checkDown
    dsimp only
    rw [if_neg fun hboth => hlow hboth.2]
  have hfirst : (s.step c).1.relays = { relay with
      lastCheck := some c.now, failCount := relay.failCount + 1, successStreak := 0 } :: backups := by
    rw [hstep]
    dsimp only
    rw [hrelays]
    rfl
  refine ⟨⟨_, find_primary.mpr ⟨backups, hfirst, haddr⟩, hhealthy⟩, ?_, ?_, ?_, (ofPrimary_of_find hfind).mpr rfl, ?_⟩
  · rw [hstep]
  · rw [hstep]
  · rw [hstep]
    exact health_set _ hget rfl
  · rw [getElem?_health hget, hhealthy]

end RelayFailover

/-- A failover manager, when its primary relay was last marked healthy again, and whether a check of it has failed since. -/
structure Comeback where
  failover : RelayFailover
  upAt : Option Instant
  failed : Bool
  deriving DecidableEq, Repr

namespace Comeback

def start (config : FailoverConfig) (relays : List (String × UInt8)) : Comeback := ⟨.new config relays, none, false⟩

def step (w : Comeback) (c : RelayCheck) : Comeback × Bool :=
  let (failover, switched) := w.failover.step c
  if w.failover.health[0]? = some false ∧ failover.health[0]? = some true then (⟨failover, some c.now, false⟩, switched)
  else (⟨failover, w.upAt, w.failed || decide (w.failover.OfPrimary c ∧ c.latency = none)⟩, switched)

/-- A switch back comes with a check that the primary relay answers, the debounce time after it was marked healthy again, and no
check of it has failed in between. -/
def Debounced (w : Comeback) (c : RelayCheck) : Prop :=
  w.failover.SwitchesBack c → w.failover.OfPrimary c ∧ c.latency ≠ none ∧ w.failed = false ∧
    ∃ t ∈ w.upAt, t + w.failover.config.recoverDebounce ≤ c.now

instance (w : Comeback) (c : RelayCheck) : Decidable (w.Debounced c) := inferInstanceAs (Decidable (_ → _))

/-- No failed check is forgotten. -/
def Steady (w : Comeback) (c : RelayCheck) : Prop := ¬ w.failover.Forgives c

/-- What the state of the manager says about the history. -/
structure Inv (w : Comeback) : Prop where
  since : w.upAt = w.failover.primaryRecoveredAt
  waiting : w.failover.activeIdx ≠ 0 → w.failover.health[0]? = some true → w.failed = false ∧ w.upAt ≠ none

variable {w : Comeback} {c : RelayCheck} {checks : List RelayCheck}

@[simp] lemma failover_step : (w.step c).1.failover = (w.failover.step c).1 := by
  unfold step
  dsimp only
  split
  · rfl
  · rfl

lemma failed_step_of_kept (h : ¬ (w.failover.health[0]? = some false ∧ (w.failover.step c).1.health[0]? = some true)) :
    (w.step c).1.upAt = w.upAt ∧ (w.step c).1.failed = (w.failed || decide (w.failover.OfPrimary c ∧ c.latency = none)) := by
  unfold step
  dsimp only
  rw [if_neg h]
  exact ⟨rfl, rfl⟩

lemma upAt_step_of_up (h : w.failover.health[0]? = some false ∧ (w.failover.step c).1.health[0]? = some true) :
    (w.step c).1.upAt = some c.now ∧ (w.step c).1.failed = false := by
  unfold step
  dsimp only
  rw [if_pos h]
  exact ⟨rfl, rfl⟩

/-- A switch back is debounced wherever the invariant holds. -/
lemma Inv.debounced (h : w.Inv) (hclock : ∀ t ∈ w.upAt, t ≤ c.now) : w.Debounced c := by
  rintro ⟨hbackup, hprimary, hreason⟩
  -- of the kinds of step only `back` makes the primary relay active for the reason of a recovery
  cases RelayFailover.turned_step w.failover c with
  | up idx relay hfind hdown hanswered hhealth hactive hsince => exact absurd (hactive.symm.trans hprimary) hbackup
  | same hquiet hhealth hactive hsince => exact absurd (hactive.symm.trans hprimary) hbackup
  | down idx relay hfind hfailed hhealth hactive hsince hother =>
    refine absurd hreason (hother fun hsame => ?_)
    exact hbackup (hsame.symm.trans hprimary)
  | back relay t hfind hanswered hhealthy _ ht hstable hhealth hactive hsince _ =>
    have hup : w.upAt = some t := h.since.trans ht
    refine ⟨(RelayFailover.ofPrimary_of_find hfind).mpr rfl, hanswered, (h.waiting hbackup hhealthy).1, t, hup, ?_⟩
    exact Nat.add_le_of_le_sub' (hclock t hup) hstable

/-- Without forgotten failures a check keeps the invariant. -/
lemma Inv.step (h : w.Inv) (hsteady : w.Steady c) : (w.step c).1.Inv := by
  -- where the relay stays up and its recovery is as old as before, the failure must not be one of its own
  have hkept : (w.failover.step c).1.health[0]? = w.failover.health[0]? →
      (w.failover.step c).1.primaryRecoveredAt = w.failover.primaryRecoveredAt →
      ((w.failover.step c).1.activeIdx ≠ 0 → w.failover.health[0]? = some true →
        w.failover.activeIdx ≠ 0 ∧ ¬ (w.failover.OfPrimary c ∧ c.latency = none)) → (w.step c).1.Inv := by
    intro hhealth hsince hactive
    obtain ⟨hup, hfailed⟩ := failed_step_of_kept (w := w) (c := c) (by
      rw [hhealth]
      rintro ⟨hdown, hback⟩
      rw [hdown] at hback
      cases hback)
    refine ⟨?_, ?_⟩
    · rw [hup, failover_step, hsince]
      exact h.since
    · rw [failover_step, hhealth]
      intro hbackup hhealthy
      obtain ⟨hbefore, hquiet⟩ := hactive hbackup hhealthy
      obtain ⟨hnot, hknown⟩ := h.waiting hbefore hhealthy
      rw [hup, hfailed, hnot, decide_eq_false hquiet]
      exact ⟨rfl, hknown⟩
  cases RelayFailover.turned_step w.failover c with
  | up idx relay hfind hdown hanswered hhealth hactive hsince =>
    have hlt := RelayFailover.find_eq_some hfind
    by_cases hprimary : idx = 0
    · cases hprimary
      -- the only step that starts the time anew
      have hwas : w.failover.health[0]? = some false := by rw [RelayFailover.getElem?_health hlt, hdown]
      have hnow : (w.failover.step c).1.health[0]? = some true := by
        rw [hhealth]
        exact List.getElem?_set_self (List.getElem?_eq_some_iff.mp hwas).1
      obtain ⟨hup, hfailed⟩ := upAt_step_of_up ⟨hwas, hnow⟩
      refine ⟨?_, fun _ _ => ⟨hfailed, ?_⟩⟩
      · rw [hup, failover_step, hsince]
        rfl
      · rw [hup]
        exact Option.some_ne_none _
    · rw [if_neg hprimary] at hsince
      refine hkept ?_ hsince ?_
      · rw [hhealth, List.getElem?_set_ne hprimary]
      · rw [hactive]
        exact fun hbackup _ => ⟨hbackup, fun hfailed => hanswered hfailed.2⟩
  | back relay t hfind hanswered hhealthy hbackup ht hstable hhealth hactive hsince hreason =>
    refine hkept (by rw [hhealth]) hsince ?_
    rw [hactive]
    exact fun hne => absurd rfl hne
  | same hquiet hhealth hactive hsince =>
    refine hkept (by rw [hhealth]) hsince ?_
    rw [hactive]
    exact fun hbackup hhealthy => ⟨hbackup, fun hfailed => hsteady (hquiet hfailed.1 hfailed.2 hhealthy hbackup)⟩
  | down idx relay hfind hfailed hhealth hactive hsince hreason =>
    by_cases hprimary : idx = 0
    · -- the primary relay is down now
      cases hprimary
      have hlt := RelayFailover.getElem?_health (RelayFailover.find_eq_some hfind)
      have hnow : (w.failover.step c).1.health[0]? = some false := by
        rw [hhealth]
        exact List.getElem?_set_self (List.getElem?_eq_some_iff.mp hlt).1
      obtain ⟨hup, -⟩ := failed_step_of_kept (w := w) (c := c) (by
        rw [hnow]
        rintro ⟨-, hback⟩
        cases hback)
      refine ⟨?_, ?_⟩
      · rw [hup, failover_step, hsince]
        exact h.since
      · rw [failover_step, hnow]
        intro _ hback
        cases hback
    · refine hkept ?_ hsince ?_
      · rw [hhealth, List.getElem?_set_ne hprimary]
      · intro hbackup _
        refine ⟨?_, fun hof => hprimary ((RelayFailover.ofPrimary_of_find hfind).mp hof.1)⟩
        by_cases hactiveIdx : idx = w.failover.activeIdx
        · rw [← hactiveIdx]
          exact hprimary
        · rw [← hactive hactiveIdx]
          exact hbackup

lemma inv_start {config : FailoverConfig} {relays : List (String × UInt8)} : (start config relays).Inv :=
  ⟨rfl, fun hbackup => absurd rfl hbackup⟩

/-- The time of the last recovery is the clock of an earlier check. -/
lemma upAt_step (hlast : ∀ t ∈ w.upAt, t ≤ c.now) : ∀ t ∈ (w.step c).1.upAt, t ≤ c.now := by
  by_cases hup : w.failover.health[0]? = some false ∧ (w.failover.step c).1.health[0]? = some true
  · rw [(upAt_step_of_up hup).1]
    intro t ht
    cases ht
    exact Nat.le_refl _
  · rw [(failed_step_of_kept hup).1]
    exact hlast

lemma along_debounced (h : w.Inv) (hlast : ∀ t ∈ w.upAt, ∀ c ∈ checks, t ≤ c.now) (hclock : checks.Pairwise fun c c' => c.now ≤ c'.now)
    (hsteady : Along step Steady w checks) : Along step Debounced w checks := by
  -- the time of the recovery must stay before every check to come
  induction checks generalizing w with
  | nil => trivial
  | cons c checks ih =>
    obtain ⟨hfirst, hrest⟩ := List.pairwise_cons.mp hclock
    have hnow : ∀ t ∈ w.upAt, t ≤ c.now := fun t ht => hlast t ht c List.mem_cons_self
    refine ⟨h.debounced hnow, ih (h.step hsteady.1) ?_ hrest hsteady.2⟩
    intro t ht c' hc'
    exact (upAt_step hnow t ht).trans (hfirst c' hc')

/-- After a failure that is forgotten, an answer at the right time brings the primary relay back. -/
lemma Inv.forgives (h : w.Inv) (hforgives : w.failover.Forgives c) :
    ∃ c', c.now ≤ c'.now ∧ c'.latency ≠ none ∧ ¬ (w.step c).1.Debounced c' := by
  have hbackup := hforgives.1
  have hfailed := hforgives.2.1
  obtain ⟨⟨relay, hfind, hhealthy⟩, hactive, hsince, hhealth, hprimary, hup⟩ := hforgives.step
  obtain ⟨-, hknown⟩ := h.waiting hbackup hup
  obtain ⟨t, ht⟩ := Option.ne_none_iff_exists'.mp hknown
  have hforgotten := (failed_step_of_kept (w := w) (c := c) (by
    rw [hhealth, hup]
    rintro ⟨hdown, -⟩
    cases hdown)).2
  -- the answer comes as soon as the manager would switch
  refine ⟨⟨c.addr, some 0, max c.now (t + (w.failover.step c).1.config.recoverDebounce)⟩, le_max_left _ _, nofun, ?_⟩
  intro hdebounced
  have hback : (w.step c).1.failover.SwitchesBack
      ⟨c.addr, some 0, max c.now (t + (w.failover.step c).1.config.recoverDebounce)⟩ := by
    rw [failover_step]
    refine RelayFailover.switchesBack_of_stable hfind hhealthy (by rw [hactive]; exact hbackup) ?_ rfl (le_max_right _ _)
    rw [hsince, ← h.since, ht]
  obtain ⟨-, -, hnot, -⟩ := hdebounced hback
  rw [hforgotten, decide_eq_true ⟨hprimary, hfailed⟩, Bool.or_true] at hnot
  cases hnot

/-- The first failure that is forgotten breaks the run. -/
lemma exists_not_debounced (h : w.Inv) (hclock : checks.Pairwise fun c c' => c.now ≤ c'.now) (hnot : ¬ Along step Steady w checks) :
    ∃ pre c c', pre ++ [c] <+: checks ∧ c.now ≤ c'.now ∧ c'.latency ≠ none ∧ ¬ Along step Debounced w (pre ++ [c] ++ [c']) := by
  -- the invariant holds up to the first failure that is forgotten, and `Inv.forgives` needs no more
  induction checks generalizing w with
  | nil => exact absurd trivial hnot
  | cons c checks ih =>
    by_cases hsteady : w.Steady c
    · have hrest : ¬ Along step Steady (w.step c).1 checks := fun hrest => hnot ⟨hsteady, hrest⟩
      obtain ⟨pre, d, d', hpre, hle, hanswered, hbroken⟩ := ih (h.step hsteady) (List.pairwise_cons.mp hclock).2 hrest
      refine ⟨c :: pre, d, d', List.cons_prefix_cons.mpr ⟨rfl, hpre⟩, hle, hanswered, fun hdebounced => ?_⟩
      exact hbroken hdebounced.2
    · obtain ⟨c', hle, hanswered, hbroken⟩ := h.forgives (not_not.mp hsteady)
      refine ⟨[], c, c', List.cons_prefix_cons.mpr ⟨rfl, List.nil_prefix⟩, hle, hanswered, fun hdebounced => ?_⟩
      exact hbroken hdebounced.2.1

/-- In every run whose clock does not go back, switches back are debounced if no failed check of the primary relay is forgotten;
and a run in which one is can be broken off there and ended with one answered check, so that they are not. -/
theorem switch_back_debounced (config : FailoverConfig) (relays : List (String × UInt8)) (checks : List RelayCheck)
    (hclock : checks.Pairwise fun c c' => c.now ≤ c'.now) :
    (Along step Steady (start config relays) checks → Along step Debounced (start config relays) checks) ∧
      (¬ Along step Steady (start config relays) checks → ∃ pre c, pre <+: checks ∧ c.latency ≠ none ∧
        (pre ++ [c]).Pairwise (fun c c' => c.now ≤ c'.now) ∧ ¬ Along step Debounced (start config relays) (pre ++ [c])) := by
  refine ⟨along_debounced inv_start nofun hclock, fun hnot => ?_⟩
  obtain ⟨pre, c, c', hpre, hle, hanswered, hbroken⟩ := exists_not_debounced inv_start hclock hnot
  have hordered := hclock.sublist hpre.sublist
  refine ⟨pre ++ [c], c', hpre, hanswered, ?_, hbroken⟩
  apply List.pairwise_append.mpr
  refine ⟨hordered, List.pairwise_singleton _ _, ?_⟩
  intro d hd d' hd'
  cases List.mem_singleton.mp hd'
  rcases List.mem_append.mp hd with hd | hd
  · exact ((List.pairwise_append.mp hordered).2.2 d hd c (List.mem_singleton_self c)).trans hle
  · cases List.mem_singleton.mp hd
    exact hle

/-- The primary relay goes down and comes back after a second. -/
def sampleOutage : List RelayCheck :=
  [⟨"main", none, 0⟩, ⟨"main", none, 0⟩, ⟨"main", some (50 * 10 ^ 6), 10 ^ 9⟩]

/-- It answers again when thirty seconds have passed. -/
def sampleAnswer : RelayCheck := ⟨"main", some (50 * 10 ^ 6), 31 * 10 ^ 9⟩

def sampleConfig : FailoverConfig := { failThreshold := 2, recoverThreshold := 1 }

/-- The answer brings the primary relay back, and this is debounced. -/
theorem switch_back_debounced_sample :
    Along step Debounced (start sampleConfig [("main", 0), ("backup", 1)]) (sampleOutage ++ [sampleAnswer]) ∧
      (run step (start sampleConfig [("main", 0), ("backup", 1)]) sampleOutage).1.failover.SwitchesBack sampleAnswer := by
  refine ⟨(switch_back_debounced _ _ _ (by decide)).1 ?_, by decide +kernel⟩
  have hcalm : Along step (fun w c => (!(w.failover.find c.addr).any fun x => x.1 = 0 ∧ x.2.healthy = true ∧
      w.failover.activeIdx ≠ 0 ∧ c.latency = none) = true) (start sampleConfig [("main", 0), ("backup", 1)])
        (sampleOutage ++ [sampleAnswer]) := by
    decide +kernel
  refine hcalm.mono fun w c h hforgives => ?_
  obtain ⟨hbackup, hfailed, x, hx, hidx, hhealthy, -⟩ := hforgives
  rw [Option.mem_def.mp hx, Option.any_some, decide_eq_true ⟨hidx, hhealthy, hbackup, hfailed⟩] at h
  cases h

/-- A check fails one second before the answer. The primary relay is active again all the same. -/
theorem switch_back_hasty :
    ¬ Along step Debounced (start sampleConfig [("main", 0), ("backup", 1)])
      (sampleOutage ++ [⟨"main", none, 30 * 10 ^ 9⟩, sampleAnswer]) := by
  decide +kernel

end Comeback

end IPv8Plus.Tunnel
