import IPv8Plus.Lib.Hysteresis
import IPv8Plus.Observe.Policy

/-!
# When the breaker and the gate turn

Each of the two policies keeps two counts of windows in a row, and not every branch resets both. The specification is a
switch that remembers all windows since it last turned; the count that matters where the policy stands is the length of
the run these windows end with.
-/

namespace IPv8Plus.Observe
open Lib

/-- A count in a word of 32 bits that is compared with its limit after every event of the run's kind. -/
lemma tracks_succ {α : Type} {w : Switch α} {s : Switch.State α} {on : Bool} {x : α} {a limit : UInt32}
    (h : w.Tracks s on a.toNat) (hlimit : w.windows on = limit.toNat) (hx : w.kind on x = true)
    (hpos : 0 < w.windows !on) :
    if limit ≤ a + 1 then w.Tracks (w.step s x) (!on) 0 else w.Tracks (w.step s x) on (a + 1).toNat := by
  have hlt := h.lt
  rw [hlimit] at hlt
  have hnext : (a + 1).toNat = a.toNat + 1 := by
    have hword := limit.toNat_lt
    rw [UInt32.toNat_add, UInt32.toNat_one]
    exact Nat.mod_eq_of_lt (by omega)
  split
  · next hle =>
    have hge := UInt32.le_iff_toNat_le.mp hle
    rw [hnext] at hge
    exact h.turn hx ((Nat.le_antisymm hlt hge).trans hlimit.symm) hpos
  · next hnot =>
    have hmore := UInt32.lt_iff_toNat_lt.mp (UInt32.not_le.mp hnot)
    rw [hnext] at hmore ⊢
    exact h.more hx (hmore.trans_eq hlimit.symm)

/-! ## The breaker -/

/-- The ages of both paths, as a report of the peer has them. -/
abbrev Ages := PathCounters × PathCounters

def Breaker.after (cfg : BreakerConfig) (reports : List Ages) : Breaker :=
  reports.foldl (fun b r => b.update r.1 r.2) { cfg }

def breakerSwitch (cfg : BreakerConfig) : Switch Ages where
  up r := ({ cfg } : Breaker).classify r.1 r.2 = .dead
  down r := ({ cfg } : Breaker).classify r.1 r.2 = .good
  rise := cfg.triggerWindows.toNat
  fall := cfg.recoverWindows.toNat

/-- The count of the current run. -/
def Breaker.count (b : Breaker) : Nat := (if b.open then b.goodRun else b.badRun).toNat

section
variable {cfg : BreakerConfig} {b : Breaker} {s : Switch.State Ages} {r : Ages}

/-- Every verdict does to the count what it does to the run. -/
lemma tracks_breaker (hcfg : b.cfg = cfg) (htrigger : 0 < cfg.triggerWindows.toNat)
    (hrecover : 0 < cfg.recoverWindows.toNat) (h : (breakerSwitch cfg).Tracks s b.open b.count) :
    (breakerSwitch cfg).Tracks ((breakerSwitch cfg).step s r) (b.update r.1 r.2).open (b.update r.1 r.2).count := by
  obtain ⟨c, on, bad, good⟩ := b
  have hc : c = cfg := hcfg
  subst hc
  have hother (h : Breaker.classify ⟨c, on, bad, good⟩ r.1 r.2 ≠ if on then .good else .dead) :
      (breakerSwitch c).kind on r = false := by
    cases on with
    | true => exact decide_eq_false h
    | false => exact decide_eq_false h
  unfold Breaker.update
  cases hverdict : Breaker.classify ⟨c, on, bad, good⟩ r.1 r.2 with
  | dead =>
    rw [hverdict] at hother
    cases on with
    | true => exact h.other (hother nofun)
    | false =>
      have hrun := tracks_succ (a := bad) h rfl (decide_eq_true hverdict) hrecover
      dsimp only
      rw [if_neg Bool.false_ne_true]
      split
      · next hle =>
        rw [if_pos hle] at hrun
        exact hrun
      · next hnot =>
        rw [if_neg hnot] at hrun
        exact hrun
  | good =>
    rw [hverdict] at hother
    cases on with
    | false => exact h.other (hother nofun)
    | true =>
      have hrun := tracks_succ (a := good) h rfl (decide_eq_true hverdict) htrigger
      dsimp only
      rw [if_pos rfl]
      split
      · next hle =>
        rw [if_pos hle] at hrun
        exact hrun
      · next hnot =>
        rw [if_neg hnot] at hrun
        exact hrun
  | neutral =>
    rw [hverdict] at hother
    cases on with
    | true => exact h.other (hother nofun)
    | false => exact h.other (hother nofun)

lemma update_cfg : (b.update r.1 r.2).cfg = b.cfg := by
  unfold Breaker.update
  cases b.classify r.1 r.2 with
  | dead =>
    dsimp only
    split_ifs
    · rfl
    · rfl
    · rfl
  | good =>
    dsimp only
    split_ifs
    · rfl
    · rfl
    · rfl
  | neutral =>
    dsimp only
    split_ifs
    · rfl
    · rfl

lemma after_cfg (reports : List Ages) : (Breaker.after cfg reports).cfg = cfg := by
  induction reports using List.reverseRecOn with
  | nil => rfl
  | append_singleton reports r ih =>
    unfold Breaker.after at ih ⊢
    rw [List.foldl_concat, update_cfg, ih]

/-- In every run the breaker is where the switch is. -/
lemma tracks_after (htrigger : 0 < cfg.triggerWindows.toNat) (hrecover : 0 < cfg.recoverWindows.toNat)
    (reports : List Ages) : (breakerSwitch cfg).Tracks ((breakerSwitch cfg).after reports)
      (Breaker.after cfg reports).open (Breaker.after cfg reports).count := by
  induction reports using List.reverseRecOn with
  | nil => exact .start htrigger
  | append_singleton reports r ih =>
    have hlast : Breaker.after cfg (reports ++ [r]) = (Breaker.after cfg reports).update r.1 r.2 := List.foldl_concat _ _ _ _
    rw [Switch.after_concat, hlast]
    exact tracks_breaker (after_cfg reports) htrigger hrecover ih

end

/-! ## The gate -/

/-- Frames expected and frames seen, since the report before. -/
abbrev Delta := UInt64 × UInt64

def FecGate.after {ε : Type} (cfg : GateConfig) (deltas : List Delta) : Outcome ε FecGate :=
  deltas.foldlM (fun g d => g.update d) { cfg }

/-- The loss of a window with samples. -/
def permille (d : Delta) : UInt32 := UInt32.ofNat (satMul (min (satSub d.1 d.2) d.1) 1000 / d.1).toNat

def gateSwitch (cfg : GateConfig) : Switch Delta where
  up d := cfg.onLossPermille ≤ permille d
  down d := permille d ≤ cfg.offLossPermille
  rise := cfg.onWindows.toNat
  fall := cfg.offWindows.toNat

def FecGate.count (g : FecGate) : Nat := (if g.on then g.lowRun else g.highRun).toNat

/-- The windows that have enough samples. -/
def GateConfig.enough (cfg : GateConfig) (deltas : List Delta) : List Delta :=
  deltas.filter fun d => cfg.minExpected ≤ d.1

section
variable {ε : Type} {cfg : GateConfig} {g : FecGate} {s : Switch.State Delta} {deltas : List Delta} {d : Delta}

lemma enough_concat_pos (h : cfg.minExpected ≤ d.1) : cfg.enough (deltas ++ [d]) = cfg.enough deltas ++ [d] := by
  have hd : [d].filter (fun d => cfg.minExpected ≤ d.1) = [d] := List.filter_cons_of_pos (decide_eq_true h)
  unfold GateConfig.enough
  rw [List.filter_append, hd]

lemma enough_concat_neg (h : ¬ cfg.minExpected ≤ d.1) : cfg.enough (deltas ++ [d]) = cfg.enough deltas := by
  have hd : [d].filter (fun d => cfg.minExpected ≤ d.1) = [] := List.filter_cons_of_neg (by rwa [decide_eq_true_iff])
  unfold GateConfig.enough
  rw [List.filter_append, hd, List.append_nil]

/-- Too few samples change nothing. -/
lemma update_few (h : d.1 < g.cfg.minExpected) : (g.update d : Outcome ε FecGate) = .ok g := if_pos h

/-- A window with enough samples does to the count what it does to the run. -/
lemma tracks_gate (hcfg : g.cfg = cfg) (hmin : 0 < cfg.minExpected) (hon : 0 < cfg.onWindows.toNat)
    (hoff : 0 < cfg.offWindows.toNat) (h : (gateSwitch cfg).Tracks s g.on g.count) (hd : cfg.minExpected ≤ d.1) :
    ∃ g', (g.update d : Outcome ε FecGate) = .ok g' ∧ g'.cfg = cfg ∧
      (gateSwitch cfg).Tracks ((gateSwitch cfg).step s d) g'.on g'.count := by
  obtain ⟨c, on, high, low⟩ := g
  have hc : c = cfg := hcfg
  subst hc
  have hsome : d.1 ≠ 0 := fun e => absurd hmin (UInt64.not_lt.mpr (e ▸ hd))
  have hloss : (lossPermille d.1 d.2 : Outcome ε UInt64) = .ok (satMul (min (satSub d.1 d.2) d.1) 1000 / d.1) := if_neg hsome
  unfold FecGate.update
  dsimp only
  rw [if_neg (UInt64.not_lt.mpr hd), hloss, Outcome.ok_bind]
  cases on with
  | false =>
    rw [if_pos (by decide)]
    split
    · next hhigh =>
      have hrun := tracks_succ (a := high) h rfl (decide_eq_true hhigh) hoff
      refine ⟨_, rfl, ?_⟩
      split
      · next hle =>
        rw [if_pos hle] at hrun
        exact ⟨rfl, hrun⟩
      · next hnot =>
        rw [if_neg hnot] at hrun
        exact ⟨rfl, hrun⟩
    · next hlow => exact ⟨_, rfl, rfl, h.other (decide_eq_false hlow)⟩
  | true =>
    rw [if_neg (by decide)]
    split
    · next hlow =>
      have hrun := tracks_succ (a := low) h rfl (decide_eq_true hlow) hon
      refine ⟨_, rfl, ?_⟩
      split
      · next hle =>
        rw [if_pos hle] at hrun
        exact ⟨rfl, hrun⟩
      · next hnot =>
        rw [if_neg hnot] at hrun
        exact ⟨rfl, hrun⟩
    · next hhigh => exact ⟨_, rfl, rfl, h.other (decide_eq_false hhigh)⟩

/-- In every run the gate is where the switch is that sees the windows with enough samples. -/
lemma tracks_deltas (hmin : 0 < cfg.minExpected) (hon : 0 < cfg.onWindows.toNat) (hoff : 0 < cfg.offWindows.toNat)
    (deltas : List Delta) : ∃ g, (FecGate.after cfg deltas : Outcome ε FecGate) = .ok g ∧ g.cfg = cfg ∧
      (gateSwitch cfg).Tracks ((gateSwitch cfg).after (cfg.enough deltas)) g.on g.count := by
  induction deltas using List.reverseRecOn with
  | nil => exact ⟨_, rfl, rfl, .start hon⟩
  | append_singleton deltas d ih =>
    obtain ⟨g, hg, hcfg, h⟩ := ih
    have hlast : (FecGate.after cfg (deltas ++ [d]) : Outcome ε FecGate) = g.update d := by
      unfold FecGate.after at hg ⊢
      rw [List.foldlM_append, hg, Outcome.ok_bind]
      exact bind_pure _
    rw [hlast]
    by_cases hd : cfg.minExpected ≤ d.1
    · obtain ⟨g', hg', hcfg', h'⟩ := tracks_gate (ε := ε) hcfg hmin hon hoff h hd
      rw [enough_concat_pos hd, Switch.after_concat]
      exact ⟨g', hg', hcfg', h'⟩
    · rw [enough_concat_neg hd]
      exact ⟨g, update_few (by rw [hcfg]; exact UInt64.not_le.mp hd), hcfg, h⟩

end

/-- Breaker and gate turn exactly at the report that completes a run of windows, counted since the policy last turned. The
gate counts the windows with enough samples; the others change nothing. -/
theorem turns_exactly {ε : Type} (cfg : BreakerConfig) (gate : GateConfig) (htrigger : 1 ≤ cfg.triggerWindows)
    (hrecover : 1 ≤ cfg.recoverWindows) (hon : 1 ≤ gate.onWindows) (hoff : 1 ≤ gate.offWindows)
    (hmin : 1 ≤ gate.minExpected) :
    (∀ (reports : List Ages) (r : Ages),
      let b := Breaker.after cfg reports
      let s := (breakerSwitch cfg).after reports
      b.open = s.on ∧
        (b.open = false → ((b.update r.1 r.2).open = true ↔
          trailing (breakerSwitch cfg).up (s.since ++ [r]) = cfg.triggerWindows.toNat)) ∧
        (b.open = true → ((b.update r.1 r.2).open = false ↔
          trailing (breakerSwitch cfg).down (s.since ++ [r]) = cfg.recoverWindows.toNat))) ∧
    ∀ (deltas : List Delta) (d : Delta), ∃ g, (FecGate.after gate deltas : Outcome ε FecGate) = .ok g ∧
      let s := (gateSwitch gate).after (gate.enough deltas)
      g.on = s.on ∧ (d.1 < gate.minExpected → (g.update d : Outcome ε FecGate) = .ok g) ∧
        (gate.minExpected ≤ d.1 → ∃ g', (g.update d : Outcome ε FecGate) = .ok g' ∧
          (g.on = false → (g'.on = true ↔ trailing (gateSwitch gate).up (s.since ++ [d]) = gate.onWindows.toNat)) ∧
          (g.on = true → (g'.on = false ↔ trailing (gateSwitch gate).down (s.since ++ [d]) = gate.offWindows.toNat))) := by
  have htrigger := UInt32.le_iff_toNat_le.mp htrigger
  have hrecover := UInt32.le_iff_toNat_le.mp hrecover
  have hon := UInt32.le_iff_toNat_le.mp hon
  have hoff := UInt32.le_iff_toNat_le.mp hoff
  have hmin : 0 < gate.minExpected := UInt64.lt_iff_toNat_lt.mpr (UInt64.le_iff_toNat_le.mp hmin)
  constructor
  · intro reports r
    have h := tracks_after htrigger hrecover reports
    have hnext := tracks_breaker (r := r) (after_cfg reports) htrigger hrecover h
    exact ⟨h.on_eq.symm, h.turns hnext⟩
  · intro deltas d
    obtain ⟨g, hg, hcfg, h⟩ := tracks_deltas (ε := ε) hmin hon hoff deltas
    refine ⟨g, hg, h.on_eq.symm, ?_, ?_⟩
    · intro hfew
      exact update_few (hcfg ▸ hfew)
    · intro henough
      obtain ⟨g', hg', -, hnext⟩ := tracks_gate (ε := ε) hcfg hmin hon hoff h henough
      exact ⟨g', hg', h.turns hnext⟩

theorem turns_exactly_default :
    (∀ (reports : List Ages) (r : Ages),
      let b := Breaker.after {} reports
      let s := (breakerSwitch {}).after reports
      b.open = s.on ∧
        (b.open = false → ((b.update r.1 r.2).open = true ↔ trailing (breakerSwitch {}).up (s.since ++ [r]) = 3)) ∧
        (b.open = true → ((b.update r.1 r.2).open = false ↔ trailing (breakerSwitch {}).down (s.since ++ [r]) = 5))) ∧
    ∀ (deltas : List Delta) (d : Delta), ∃ g, (FecGate.after {} deltas : Outcome Unit FecGate) = .ok g ∧
      let s := (gateSwitch {}).after (GateConfig.enough {} deltas)
      g.on = s.on ∧ (d.1 < 32 → (g.update d : Outcome Unit FecGate) = .ok g) ∧
        (32 ≤ d.1 → ∃ g', (g.update d : Outcome Unit FecGate) = .ok g' ∧
          (g.on = false → (g'.on = true ↔ trailing (gateSwitch {}).up (s.since ++ [d]) = 2)) ∧
          (g.on = true → (g'.on = false ↔ trailing (gateSwitch {}).down (s.since ++ [d]) = 5))) :=
  turns_exactly {} {} (by decide) (by decide) (by decide) (by decide) (by decide)

end IPv8Plus.Observe
