import IPv8Plus.Observe.Policy

/-!
# The bounds of the congestion controller

The start rate, the floor, the ceiling and the steps are all cut out of one number by divisions of their own, and the
floor has a least value that does not depend on it. A low ceiling is below its floor; under a high one the product of the
decrease does not fit a word. In between the rate keeps its bounds in every run.
-/

namespace IPv8Plus.Observe
open Lib

/-- What one report brings, and when. -/
structure CcCall where
  delta : UInt64 × UInt64
  rttUs : Option UInt64
  nowMs : UInt64

namespace CongestionController

def call (cc : CongestionController) (c : CcCall) : Outcome Unit CongestionController := cc.update c.delta c.rttUs c.nowMs

def after (cfg : CcConfig) (calls : List CcCall) : Outcome Unit CongestionController := calls.foldlM call (.new cfg)

/-- The round trip is a quarter longer than the base it is compared with. -/
def inflated (cc : CongestionController) (nowMs : UInt64) : Bool :=
  match cc.accRtt with
  | some rtt => (cc.base rtt nowMs).2.toNat * (1000 + cc.cfg.rttInflPermille).toNat ≤ rtt.toNat * 1000
  | none => false

/-- The loss of what has been accumulated. -/
def loss (cc : CongestionController) : UInt64 := satMul (min (satSub cc.acc.1 cc.acc.2) cc.acc.1) 1000 / cc.acc.1

/-- The call brings enough for a judgement. -/
def Judges (cc : CongestionController) (c : CcCall) : Prop :=
  cc.cfg.minExpected ≤ (cc.accumulate c.delta c.rttUs).acc.1

/-- The judgement is that the window was congested. -/
def Congested (cc : CongestionController) (c : CcCall) : Prop :=
  (cc.accumulate c.delta c.rttUs).inflated c.nowMs ∨
    UInt64.ofNat cc.cfg.lossOnPermille.toNat ≤ (cc.accumulate c.delta c.rttUs).loss

instance (cc : CongestionController) (c : CcCall) : Decidable (cc.Judges c) := inferInstanceAs (Decidable (_ ≤ _))

instance (cc : CongestionController) (c : CcCall) : Decidable (cc.Congested c) := inferInstanceAs (Decidable (_ ∨ _))

/-- The product or the sum that the judgement takes does not fit a word. The other operations on words saturate, and the
round trips are compared in 128 bits. -/
def Overflows (cc : CongestionController) (c : CcCall) : Prop :=
  cc.Judges c ∧
    (cc.Congested c ∧ 2 ^ 64 ≤ cc.rateBps.toNat * cc.cfg.decreaseNum.toNat ∨
      ¬ cc.Congested c ∧ 2 ^ 64 ≤ cc.rateBps.toNat + (cc.cfg.ceilBps / cc.cfg.increaseDiv).toNat)

/-- A rate within its bounds, and a call that computes without overflow and moves the rate the right way. -/
structure Sound (cc : CongestionController) (c : CcCall) : Prop where
  floor_le : cc.cfg.floorBps ≤ cc.rateBps
  le_ceil : cc.rateBps ≤ cc.cfg.ceilBps
  fits : ¬ cc.Overflows c
  moves : ∃ cc', cc.call c = .ok cc' ∧ (cc.Judges c → cc.Congested c → cc'.rateBps ≤ cc.rateBps) ∧
    (cc.Judges c → ¬ cc.Congested c → cc.rateBps ≤ cc'.rateBps)

/-- Every state that a run under this ceiling reaches is sound for every call. -/
def Bounded (ceilBps : UInt64) : Prop := ∀ calls c, ∃ cc, after (.new ceilBps) calls = .ok cc ∧ cc.Sound c

section
variable {cc : CongestionController} {c : CcCall}

/-- The base does not depend on what is accumulated, and only the base changes. -/
lemma base_eq (rtt nowMs : UInt64) (acc : UInt64 × UInt64) (accRtt : Option UInt64) :
    ∃ m, base { cc with acc := acc, accRtt := accRtt } rtt nowMs =
      ({ cc with acc := acc, accRtt := accRtt, minRtt := m }, (cc.base rtt nowMs).2) := by
  unfold base
  cases cc.minRtt with
  | none => exact ⟨_, rfl⟩
  | some m =>
    dsimp only
    split
    · exact ⟨_, rfl⟩
    · exact ⟨_, rfl⟩

/-- What a judgement does. -/
lemma evaluate_eq {nowMs : UInt64} (hacc : cc.acc.1 ≠ 0) (hden : cc.cfg.decreaseDen ≠ 0) (hdiv : cc.cfg.increaseDiv ≠ 0) :
    ∃ minRtt, (cc.evaluate nowMs : Outcome Unit CongestionController) = .ok { cc with
      acc := (0, 0)
      accRtt := none
      minRtt := minRtt
      rateBps :=
        if cc.inflated nowMs ∨ UInt64.ofNat cc.cfg.lossOnPermille.toNat ≤ cc.loss
        then max (cc.rateBps * cc.cfg.decreaseNum / cc.cfg.decreaseDen) cc.cfg.floorBps
        else min (cc.rateBps + cc.cfg.ceilBps / cc.cfg.increaseDiv) cc.cfg.ceilBps } := by
  have hloss : (lossPermille cc.acc.1 cc.acc.2 : Outcome Unit UInt64) = .ok cc.loss := if_neg hacc
  unfold evaluate inflated
  dsimp only
  rw [hloss, Outcome.ok_bind]
  cases hrtt : cc.accRtt with
  | none =>
    refine ⟨cc.minRtt, ?_⟩
    dsimp only
    split
    · rfl
    · rfl
  | some rtt =>
    obtain ⟨m, hbase⟩ := @base_eq cc rtt nowMs (0, 0) none
    refine ⟨m, ?_⟩
    simp only [hbase]
    split
    · rfl
    · rfl

/-- A call that brings too little keeps the rate. -/
lemma call_waits (h : ¬ cc.Judges c) : cc.call c = .ok (cc.accumulate c.delta c.rttUs) :=
  if_pos (UInt64.not_le.mp h)

/-- The rate after a judgement. -/
lemma call_judges (h : cc.Judges c) (hmin : 0 < cc.cfg.minExpected) (hden : cc.cfg.decreaseDen ≠ 0)
    (hdiv : cc.cfg.increaseDiv ≠ 0) :
    ∃ minRtt, cc.call c = .ok { cc with
      acc := (0, 0)
      accRtt := none
      minRtt := minRtt
      rateBps :=
        if cc.Congested c then max (cc.rateBps * cc.cfg.decreaseNum / cc.cfg.decreaseDen) cc.cfg.floorBps
        else min (cc.rateBps + cc.cfg.ceilBps / cc.cfg.increaseDiv) cc.cfg.ceilBps } := by
  have hacc : (cc.accumulate c.delta c.rttUs).acc.1 ≠ 0 := by
    intro e
    have hle : cc.cfg.minExpected ≤ 0 := e ▸ h
    exact absurd hmin (UInt64.not_lt.mpr hle)
  have hcall : cc.call c = (cc.accumulate c.delta c.rttUs).evaluate c.nowMs := if_neg (UInt64.not_lt.mpr h)
  rw [hcall]
  exact @evaluate_eq (cc.accumulate c.delta c.rttUs) _ hacc hden hdiv

end

/-! ## In between -/

section
variable {ceilBps : UInt64} {cc : CongestionController} {c : CcCall}

/-- The rate is between the floor and the ceiling of the configuration. -/
structure Within (ceilBps : UInt64) (cc : CongestionController) : Prop where
  cfg_eq : cc.cfg = .new ceilBps
  floor_le : cc.cfg.floorBps ≤ cc.rateBps
  le_ceil : cc.rateBps ≤ cc.cfg.ceilBps

lemma toNat_floor (ceilBps : UInt64) : (CcConfig.new ceilBps).floorBps.toNat = max (ceilBps.toNat / 16) 64000 := by
  show (max (ceilBps / 16) 64000).toNat = _
  rw [toNat_max, UInt64.toNat_div]
  rfl

lemma toNat_start (ceilBps : UInt64) : (new (.new ceilBps)).rateBps.toNat = ceilBps.toNat / 4 := UInt64.toNat_div _ _

lemma within_start (hlow : 256000 ≤ ceilBps.toNat) : Within ceilBps (new (.new ceilBps)) := by
  refine ⟨rfl, UInt64.le_iff_toNat_le.mpr ?_, UInt64.le_iff_toNat_le.mpr ?_⟩
  · show (CcConfig.new ceilBps).floorBps.toNat ≤ _
    rw [toNat_start, toNat_floor]
    omega
  · show _ ≤ ceilBps.toNat
    rw [toNat_start]
    omega

/-- Between the two ends of the range a call keeps the bounds, and is sound. -/
lemma Within.call (h : Within ceilBps cc) (hlow : 256000 ≤ ceilBps.toNat) (hhigh : 7 * ceilBps.toNat < 2 ^ 64) :
    ∃ cc', cc.call c = .ok cc' ∧ Within ceilBps cc' ∧ cc.Sound c := by
  obtain ⟨hcfg, hfloor, hceil⟩ := h
  have hfloorNat := UInt64.le_iff_toNat_le.mp hfloor
  have hceilNat := UInt64.le_iff_toNat_le.mp hceil
  rw [hcfg, toNat_floor] at hfloorNat
  rw [hcfg] at hceilNat
  change cc.rateBps.toNat ≤ ceilBps.toNat at hceilNat
  have hfits : ¬ cc.Overflows c := by
    rintro ⟨-, ⟨-, hproduct⟩ | ⟨-, hsum⟩⟩
    · rw [hcfg] at hproduct
      have : 2 ^ 64 ≤ cc.rateBps.toNat * 7 := hproduct
      omega
    · rw [hcfg] at hsum
      have : 2 ^ 64 ≤ cc.rateBps.toNat + (ceilBps / 8).toNat := hsum
      rw [UInt64.toNat_div, show UInt64.toNat 8 = 8 from rfl] at this
      omega
  by_cases hjudges : cc.Judges c
  · obtain ⟨minRtt, hcall⟩ := call_judges hjudges (by rw [hcfg]; exact (by decide : (0 : UInt64) < 32))
      (by rw [hcfg]; exact (by decide : (10 : UInt64) ≠ 0)) (by rw [hcfg]; exact (by decide : (8 : UInt64) ≠ 0))
    by_cases hcongested : cc.Congested c
    · rw [if_pos hcongested] at hcall
      have hdown : (max (cc.rateBps * cc.cfg.decreaseNum / cc.cfg.decreaseDen) cc.cfg.floorBps).toNat =
          max (cc.rateBps.toNat * 7 / 10) (max (ceilBps.toNat / 16) 64000) := by
        have hproduct : (cc.rateBps * 7).toNat = cc.rateBps.toNat * 7 := by
          rw [UInt64.toNat_mul]
          exact Nat.mod_eq_of_lt (by show cc.rateBps.toNat * 7 < _; omega)
        rw [toNat_max, hcfg, toNat_floor]
        congr 1
        exact (UInt64.toNat_div _ _).trans (congrArg (· / 10) hproduct)
      have hle : max (cc.rateBps * cc.cfg.decreaseNum / cc.cfg.decreaseDen) cc.cfg.floorBps ≤ cc.rateBps := by
        rw [UInt64.le_iff_toNat_le, hdown]
        omega
      refine ⟨_, hcall, ⟨hcfg, ?_, UInt64.le_trans hle hceil⟩, hfloor, hceil, hfits, _, hcall, fun _ _ => hle, ?_⟩
      · rw [UInt64.le_iff_toNat_le, hdown, hcfg, toNat_floor]
        omega
      · intro _ hgood
        exact absurd hcongested hgood
    · rw [if_neg hcongested] at hcall
      have hup : (min (cc.rateBps + cc.cfg.ceilBps / cc.cfg.increaseDiv) cc.cfg.ceilBps).toNat =
          min (cc.rateBps.toNat + ceilBps.toNat / 8) ceilBps.toNat := by
        have hdiv : (ceilBps / 8).toNat = ceilBps.toNat / 8 := UInt64.toNat_div _ _
        have hsum : (cc.rateBps + ceilBps / 8).toNat = cc.rateBps.toNat + ceilBps.toNat / 8 := by
          rw [UInt64.toNat_add, hdiv]
          exact Nat.mod_eq_of_lt (by omega)
        rw [toNat_min, hcfg]
        exact congrArg (min · ceilBps.toNat) hsum
      have hle : cc.rateBps ≤ min (cc.rateBps + cc.cfg.ceilBps / cc.cfg.increaseDiv) cc.cfg.ceilBps := by
        rw [UInt64.le_iff_toNat_le, hup]
        omega
      refine ⟨_, hcall, ⟨hcfg, UInt64.le_trans hfloor hle, ?_⟩, hfloor, hceil, hfits, _, hcall, ?_, fun _ _ => hle⟩
      · rw [UInt64.le_iff_toNat_le, hup, hcfg]
        exact Nat.min_le_right _ _
      · intro _ hbad
        exact absurd hbad hcongested
  · have hcall := call_waits hjudges
    refine ⟨_, hcall, ⟨hcfg, hfloor, hceil⟩, hfloor, hceil, hfits, _, hcall, ?_, ?_⟩
    · intro h
      exact absurd h hjudges
    · intro h
      exact absurd h hjudges

lemma after_concat {cfg : CcConfig} {calls : List CcCall} (h : after cfg calls = .ok cc) :
    after cfg (calls ++ [c]) = cc.call c := by
  unfold after at h ⊢
  rw [List.foldlM_append, h, Outcome.ok_bind]
  exact bind_pure _

lemma within_after (hlow : 256000 ≤ ceilBps.toNat) (hhigh : 7 * ceilBps.toNat < 2 ^ 64) (calls : List CcCall) :
    ∃ cc, after (.new ceilBps) calls = .ok cc ∧ Within ceilBps cc := by
  induction calls using List.reverseRecOn with
  | nil => exact ⟨_, rfl, within_start hlow⟩
  | append_singleton calls c ih =>
    obtain ⟨cc, hcc, h⟩ := ih
    obtain ⟨cc', hcall, h', -⟩ := h.call (c := c) hlow hhigh
    exact ⟨cc', (after_concat hcc).trans hcall, h'⟩

end

/-! ## At the two ends -/

/-- A window without loss, -/
def fullWindow : CcCall := ⟨(32, 32), none, 0⟩

/-- and one in which nothing arrived. -/
def lostWindow : CcCall := ⟨(32, 0), none, 0⟩

/-- A controller that has judged everything it was told. -/
def judged (ceilBps rateBps : UInt64) (minRtt : Option (UInt64 × UInt64)) : CongestionController :=
  { cfg := .new ceilBps, rateBps, minRtt }

section
variable {ceilBps rateBps : UInt64} {minRtt : Option (UInt64 × UInt64)}

lemma judges_full : (judged ceilBps rateBps minRtt).Judges fullWindow := by
  show (32 : UInt64) ≤ satAdd 0 32
  decide

lemma not_congested_full : ¬ (judged ceilBps rateBps minRtt).Congested fullWindow := by
  show ¬ (false = true ∨ UInt64.ofNat (UInt32.toNat 30) ≤
    satMul (min (satSub (satAdd 0 32) (satAdd 0 32)) (satAdd 0 32)) 1000 / satAdd 0 32)
  decide

lemma judges_lost : (judged ceilBps rateBps minRtt).Judges lostWindow := by
  show (32 : UInt64) ≤ satAdd 0 32
  decide

lemma congested_lost : (judged ceilBps rateBps minRtt).Congested lostWindow := by
  show false = true ∨ UInt64.ofNat (UInt32.toNat 30) ≤
    satMul (min (satSub (satAdd 0 32) (satAdd 0 0)) (satAdd 0 32)) 1000 / satAdd 0 32
  decide

/-- Windows without loss raise the rate step by step to the ceiling, if nothing overflows. -/
lemma after_full (h : Bounded ceilBps) (n : Nat) :
    ∃ rateBps minRtt, after (.new ceilBps) (List.replicate n fullWindow) = .ok (judged ceilBps rateBps minRtt) ∧
      rateBps.toNat = min (ceilBps.toNat / 4 + n * (ceilBps.toNat / 8)) ceilBps.toNat := by
  induction n with
  | zero =>
    refine ⟨_, none, rfl, (toNat_start ceilBps).trans ?_⟩
    omega
  | succ n ih =>
    obtain ⟨rateBps, minRtt, hafter, hrate⟩ := ih
    obtain ⟨cc, hcc, hsound⟩ := h (List.replicate n fullWindow) fullWindow
    cases hafter.symm.trans hcc
    have hfits : ¬ 2 ^ 64 ≤ rateBps.toNat + (ceilBps / 8).toNat := by
      intro hsum
      exact hsound.fits ⟨judges_full, .inr ⟨not_congested_full, hsum⟩⟩
    have hdiv : (ceilBps / 8).toNat = ceilBps.toNat / 8 := UInt64.toNat_div _ _
    have hsum : (rateBps + ceilBps / 8).toNat = rateBps.toNat + ceilBps.toNat / 8 := by
      rw [UInt64.toNat_add, hdiv]
      rw [hdiv] at hfits
      exact Nat.mod_eq_of_lt (Nat.lt_of_not_le hfits)
    obtain ⟨m, hcall⟩ := @call_judges (judged ceilBps rateBps minRtt) _ judges_full
      (by decide : (0 : UInt64) < 32) (by decide : (10 : UInt64) ≠ 0) (by decide : (8 : UInt64) ≠ 0)
    rw [if_neg not_congested_full] at hcall
    refine ⟨min (rateBps + ceilBps / 8) ceilBps, m, ?_, ?_⟩
    · rw [List.replicate_succ', after_concat hafter]
      exact hcall
    · rw [toNat_min, hsum, hrate, Nat.succ_mul]
      omega

/-- The controller keeps its bounds in every run exactly when the ceiling is not below four times the least floor, and
seven ceilings fit a word. -/
theorem bounded_iff (ceilBps : UInt64) : Bounded ceilBps ↔ 256000 ≤ ceilBps.toNat ∧ 7 * ceilBps.toNat < 2 ^ 64 := by
  constructor
  · intro h
    have hlow : 256000 ≤ ceilBps.toNat := by
      obtain ⟨cc, hcc, hsound⟩ := h [] fullWindow
      cases hcc
      have hfloor := UInt64.le_iff_toNat_le.mp hsound.floor_le
      rw [toNat_start] at hfloor
      change (CcConfig.new ceilBps).floorBps.toNat ≤ _ at hfloor
      rw [toNat_floor] at hfloor
      omega
    refine ⟨hlow, ?_⟩
    -- eight windows without loss reach the ceiling, and the product of the next decrease is taken from there
    obtain ⟨rateBps, minRtt, hafter, hrate⟩ := after_full h 8
    obtain ⟨cc, hcc, hsound⟩ := h (List.replicate 8 fullWindow) lostWindow
    cases hafter.symm.trans hcc
    have hfits : ¬ 2 ^ 64 ≤ rateBps.toNat * 7 := by
      intro hproduct
      exact hsound.fits ⟨judges_lost, .inl ⟨congested_lost, hproduct⟩⟩
    omega
  · rintro ⟨hlow, hhigh⟩ calls c
    obtain ⟨cc, hcc, h⟩ := within_after hlow hhigh calls
    obtain ⟨-, -, -, hsound⟩ := h.call (c := c) hlow hhigh
    exact ⟨cc, hcc, hsound⟩

/-- Under a ceiling of 50 kbit/s the controller starts below its floor, and a lost window raises the rate above the
ceiling. -/
theorem unbounded_low : (0 : UInt64) < 50000 ∧ ¬ Bounded 50000 ∧ (new (.new 50000)).rateBps = 12500 ∧
    (CcConfig.new 50000).floorBps = 64000 ∧ (new (.new 50000)).Judges lostWindow ∧ (new (.new 50000)).Congested lostWindow ∧
    ((new (.new 50000)).call lostWindow).toOption.map (·.rateBps) = some 64000 := by
  refine ⟨by decide, ?_, by decide, by decide, by decide, by decide, by decide⟩
  intro h
  obtain ⟨cc, hcc, hsound⟩ := h [] lostWindow
  cases hcc
  exact absurd hsound.floor_le (by decide)

end

end CongestionController

end IPv8Plus.Observe
