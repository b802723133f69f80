import IPv8Plus.Observe.Cumulative

/-!
# Late and repeated reports

A report steps the policies whatever its number. `report_unmoved` says which reports, ingested after another
one, leave the policies and the base of the next difference alone: those with the very counts of the one
before, where the breaker has come to rest and the congestion controller learns no shorter round trip.
-/

namespace IPv8Plus.Observe
open Lib

/-- The states that a run of calls leads to. -/
def ObserveNode.Reachable (n : ObserveNode) : Prop := ∃ cfg calls, n = (run ObserveNode.step (.new cfg) calls).1

/-- What the reports of the peer decide about. -/
def ObserveNode.decisions (n : ObserveNode) : Breaker × FecGate × Option CongestionController × Option Slots :=
  (n.breaker, n.gate, n.cc, n.peerPrev)

/-- The report is taken in, and decides nothing. -/
def ObserveNode.Unmoved (n : ObserveNode) (nowMs nowUs : UInt64) (bytes : Bytes) : Prop :=
  (n.ingestReport nowMs nowUs bytes).2 = .ok () ∧ (n.ingestReport nowMs nowUs bytes).1.decisions = n.decisions

instance (n : ObserveNode) (nowMs nowUs : UInt64) (bytes : Bytes) : Decidable (n.Unmoved nowMs nowUs bytes) :=
  inferInstanceAs (Decidable (_ ∧ _))

/-! ## The policies at rest -/

/-- The breaker does not count this verdict. -/
def Breaker.Ignores (b : Breaker) : AltVerdict → Prop
  | .dead => b.open = true ∧ b.goodRun = 0
  | .good => b.open = false ∧ b.badRun = 0
  | .neutral => b.goodRun = 0 ∧ (b.open = true ∨ b.badRun = 0)

instance (b : Breaker) : ∀ verdict, Decidable (b.Ignores verdict)
  | .dead => inferInstanceAs (Decidable (_ ∧ _))
  | .good => inferInstanceAs (Decidable (_ ∧ _))
  | .neutral => inferInstanceAs (Decidable (_ ∧ _))

/-- The breaker has come to rest under reports with these ages. -/
def Breaker.Steady (b : Breaker) (main alt : PathCounters) : Prop := b.Ignores (b.classify main alt)

instance (b : Breaker) (main alt : PathCounters) : Decidable (b.Steady main alt) :=
  inferInstanceAs (Decidable (b.Ignores _))

section
variable {b : Breaker} {main alt : PathCounters}

/-- A closed breaker counts every dead window, -/
lemma Breaker.badRun_update (hdead : b.classify main alt = .dead) (hopen : b.open = false) :
    (b.update main alt).badRun = b.badRun + 1 := by
  unfold Breaker.update
  rw [hdead]
  dsimp only
  rw [hopen, if_neg Bool.false_ne_true]
  split
  · rfl
  · rfl

/-- and an open one every good window. -/
lemma Breaker.goodRun_update (hgood : b.classify main alt = .good) (hopen : b.open = true) :
    (b.update main alt).goodRun = b.goodRun + 1 := by
  unfold Breaker.update
  rw [hgood]
  dsimp only
  rw [hopen, if_pos rfl]
  split
  · rfl
  · rfl

lemma Breaker.update_eq_self : b.update main alt = b ↔ b.Steady main alt := by
  unfold Breaker.Steady Breaker.Ignores
  cases hverdict : b.classify main alt with
  | dead =>
    cases hopen : b.open with
    | true =>
      have hupdate : b.update main alt = { b with goodRun := 0 } := by
        unfold Breaker.update
        rw [hverdict]
        dsimp only
        rw [hopen, if_pos rfl]
      constructor
      · intro h
        rw [hupdate] at h
        exact ⟨rfl, (congrArg Breaker.goodRun h).symm⟩
      · rintro ⟨-, hrun⟩
        rw [hupdate, ← hrun]
    | false =>
      constructor
      · intro h
        have hrun := Breaker.badRun_update hverdict hopen
        rw [h] at hrun
        exact absurd hrun.symm (succ_ne_self _)
      · rintro ⟨h, -⟩
        cases h
  | good =>
    cases hopen : b.open with
    | true =>
      constructor
      · intro h
        have hrun := Breaker.goodRun_update hverdict hopen
        rw [h] at hrun
        exact absurd hrun.symm (succ_ne_self _)
      · rintro ⟨h, -⟩
        cases h
    | false =>
      have hupdate : b.update main alt = { b with badRun := 0 } := by
        unfold Breaker.update
        rw [hverdict]
        dsimp only
        rw [hopen, if_neg Bool.false_ne_true]
      constructor
      · intro h
        rw [hupdate] at h
        exact ⟨rfl, (congrArg Breaker.badRun h).symm⟩
      · rintro ⟨-, hrun⟩
        rw [hupdate, ← hrun]
  | neutral =>
    cases hopen : b.open with
    | true =>
      have hupdate : b.update main alt = { b with goodRun := 0 } := by
        unfold Breaker.update
        rw [hverdict]
        dsimp only
        rw [hopen, if_pos rfl]
      constructor
      · intro h
        rw [hupdate] at h
        exact ⟨(congrArg Breaker.goodRun h).symm, .inl rfl⟩
      · rintro ⟨hrun, -⟩
        rw [hupdate, ← hrun]
    | false =>
      have hupdate : b.update main alt = { b with goodRun := 0, badRun := 0 } := by
        unfold Breaker.update
        rw [hverdict]
        dsimp only
        rw [hopen, if_neg Bool.false_ne_true]
      constructor
      · intro h
        rw [hupdate] at h
        exact ⟨(congrArg Breaker.goodRun h).symm, .inr (congrArg Breaker.badRun h).symm⟩
      · rintro ⟨hgood, h | hbad⟩
        · cases h
        · cases b
          cases hgood
          cases hbad
          exact hupdate

end

/-- Nothing was lost of nothing: the gate waits for more, or divides by zero. -/
lemma FecGate.update_zero {g g' : FecGate} :
    (g.update (0, 0) : Outcome ReportError FecGate) = .ok g' ↔ 0 < g.cfg.minExpected ∧ g' = g := by
  unfold FecGate.update
  dsimp only
  split
  · next hlt =>
    constructor
    · intro h
      exact ⟨hlt, (Outcome.ok.inj h).symm⟩
    · rintro ⟨-, rfl⟩
      rfl
  · next hle =>
    constructor
    · intro h
      cases h
    · rintro ⟨hlt, -⟩
      exact absurd hlt hle

/-- What is accumulated is not enough for a judgement. -/
def CongestionController.Waits (cc : CongestionController) : Prop := cc.acc.1 = 0 ∨ cc.acc.1 < cc.cfg.minExpected

/-- The round trip time is no news for the controller. -/
def CongestionController.Knows (cc : CongestionController) : Option UInt64 → Prop
  | some r =>
    match cc.accRtt with
    | some b => b ≤ r
    | none => False
  | none => True

section
variable {cc cc' : CongestionController} {rtt : Option UInt64} {nowMs : UInt64}

lemma satAdd_zero (a : UInt64) : satAdd a 0 = a := by
  have hlt := a.toNat_lt
  apply UInt64.toNat_inj.mp
  rw [toNat_satAdd, UInt64.toNat_zero]
  omega

lemma accumulate_zero : cc.accumulate (0, 0) rtt = cc ↔ cc.Knows rtt := by
  have hacc : cc.accumulate (0, 0) rtt = cc ↔ (cc.accumulate (0, 0) rtt).accRtt = cc.accRtt := by
    constructor
    · intro h
      rw [h]
    · intro h
      unfold CongestionController.accumulate at h ⊢
      dsimp only at h ⊢
      rw [h, satAdd_zero, satAdd_zero]
  rw [hacc]
  unfold CongestionController.accumulate CongestionController.Knows
  cases rtt with
  | none => exact iff_of_true rfl trivial
  | some r =>
    dsimp only
    cases cc.accRtt with
    | none =>
      constructor
      · intro h
        cases h
      · exact False.elim
    | some b =>
      show some (min b r) = some b ↔ b ≤ r
      rw [Option.some.injEq]
      constructor
      · intro h
        by_contra hlt
        have hmin : min b r = r := if_neg hlt
        rw [hmin] at h
        exact hlt (h ▸ UInt64.le_refl _)
      · intro h
        exact if_pos h

lemma base_acc (rtt nowMs : UInt64) : (cc.base rtt nowMs).1.acc = cc.acc := by
  unfold CongestionController.base
  split
  · split
    · rfl
    · rfl
  · rfl

/-- A judgement starts a new account. -/
lemma evaluate_acc (h : (cc.evaluate nowMs : Outcome ReportError CongestionController) = .ok cc') : cc'.acc.1 = 0 := by
  unfold CongestionController.evaluate at h
  dsimp only at h
  obtain ⟨lossPm, -, h⟩ := Outcome.bind_eq_ok.mp h
  cases hrtt : cc.accRtt with
  | none =>
    rw [hrtt] at h
    dsimp only at h
    split at h
    · split at h
      · cases h
      · cases h
        rfl
    · split at h
      · cases h
      · cases h
        rfl
  | some rtt =>
    rw [hrtt] at h
    dsimp only at h
    have hbase := congrArg Prod.fst (@base_acc { cc with acc := (0, 0), accRtt := none } rtt nowMs)
    split at h
    · split at h
      · cases h
      · cases h
        exact hbase
    · split at h
      · cases h
      · cases h
        exact hbase

/-- With nothing to judge the loss is divided by zero. -/
lemma evaluate_zero (h : cc.acc.1 = 0) : (cc.evaluate nowMs : Outcome ReportError CongestionController) = .panic := by
  unfold CongestionController.evaluate
  dsimp only
  have hloss : (lossPermille cc.acc.1 cc.acc.2 : Outcome ReportError UInt64) = .panic := by
    unfold lossPermille
    rw [if_pos h]
  rw [hloss]
  rfl

lemma update_waits {delta : UInt64 × UInt64}
    (h : (cc.update delta rtt nowMs : Outcome ReportError CongestionController) = .ok cc') : cc'.Waits := by
  unfold CongestionController.update at h
  dsimp only at h
  split at h
  · next hlt =>
    cases h
    exact .inr hlt
  · exact .inl (evaluate_acc h)

/-- A report of nothing new leaves a waiting controller alone if it brings no shorter round trip. -/
lemma update_zero (hwaits : cc.Waits) :
    (cc.update (0, 0) rtt nowMs : Outcome ReportError CongestionController) = .ok cc ↔
      0 < cc.cfg.minExpected ∧ cc.Knows rtt := by
  have hacc : (cc.accumulate (0, 0) rtt).acc.1 = cc.acc.1 := satAdd_zero _
  unfold CongestionController.update
  dsimp only
  split
  · next hlt =>
    rw [hacc] at hlt
    have hpos : 0 < cc.cfg.minExpected := by
      have := UInt64.lt_iff_toNat_lt.mp hlt
      exact UInt64.lt_iff_toNat_lt.mpr (Nat.zero_lt_of_lt this)
    constructor
    · intro h
      exact ⟨hpos, accumulate_zero.mp (Outcome.ok.inj h)⟩
    · rintro ⟨-, hknows⟩
      rw [accumulate_zero.mpr hknows]
  · next hle =>
    rw [hacc] at hle
    have hzero : cc.acc.1 = 0 := hwaits.resolve_right hle
    rw [evaluate_zero (hacc.trans hzero)]
    constructor
    · intro h
      cases h
    · rintro ⟨hpos, -⟩
      exact absurd (hzero ▸ hpos) hle

end

/-! ## The node -/

section
variable {n m : ObserveNode} {calls : List NodeCall} {nowMs nowUs nowMs' nowUs' : UInt64} {bytes bytes' : Bytes} {r r' : Report}

/-- The congestion controller, if there is one, waits. -/
def ObserveNode.CcWaits (n : ObserveNode) : Prop := ∀ cc, n.cc = some cc → cc.Waits

lemma ccWaits_new (cfg : ObserveConfig) : (ObserveNode.new cfg).CcWaits := by
  intro cc hcc
  obtain ⟨c, -, rfl⟩ := Option.map_eq_some_iff.mp hcc
  exact .inl rfl

lemma updateCc_waits {dunion : UInt64 × UInt64} {found : Option CongestionController}
    (h : n.updateCc dunion nowMs = .ok found) : ∀ cc, found = some cc → cc.Waits := by
  unfold ObserveNode.updateCc at h
  intro cc hcc
  cases hcc
  split at h
  · obtain ⟨cc', hcc', heq⟩ := Outcome.map_eq_ok.mp h
    cases heq
    exact update_waits hcc'
  · cases h

lemma ccWaits_ingest (h : n.CcWaits) (nowMs nowUs : UInt64) (bytes : Bytes) :
    (n.ingestReport nowMs nowUs bytes).1.CcWaits := by
  unfold ObserveNode.ingestReport
  split
  · exact h
  · split
    · exact h
    · split
      · exact h
      · exact h
      · next hadvance =>
        obtain ⟨gate, cc, -, hcc, rfl⟩ := ObserveNode.advance_eq_ok.mp hadvance
        exact updateCc_waits hcc

lemma ccWaits_step (h : n.CcWaits) (c : NodeCall) : (n.step c).1.CcWaits := by
  cases c with
  | inbound nowMs path frame =>
    have hcc : (n.observeInbound nowMs path frame).1.cc = n.cc := by
      unfold ObserveNode.observeInbound
      cases path with
      | main =>
        dsimp only
        split
        · split
          · rfl
          · rfl
        · rfl
      | alt =>
        dsimp only
        split
        · split
          · rfl
          · rfl
        · rfl
    intro cc hfound
    exact h cc (hcc ▸ hfound)
  | build nowMs nowUs =>
    have hcc : (n.maybeBuildReport nowMs nowUs).1.cc = n.cc := by
      unfold ObserveNode.maybeBuildReport
      split
      · rfl
      · rfl
    intro cc hfound
    exact h cc (hcc ▸ hfound)
  | ingest nowMs nowUs bytes => exact ccWaits_ingest h nowMs nowUs bytes

lemma ObserveNode.Reachable.ccWaits (h : n.Reachable) : n.CcWaits := by
  obtain ⟨cfg, calls, rfl⟩ := h
  exact invariant_run_all (I := ObserveNode.CcWaits) (fun _ c h => ccWaits_step h c) (ccWaits_new cfg) calls

lemma delta_self (p : PathCounters) : ObserveNode.delta p p = (0, 0) := by
  rw [ObserveNode.delta, UInt64.sub_self, UInt64.sub_self]

/-- A report of nothing new and the congestion controller, if there is one. -/
lemma updateCc_zero (h : n.CcWaits) : n.updateCc (0, 0) nowMs = .ok n.cc ↔
    ∀ cc, n.cc = some cc → 0 < cc.cfg.minExpected ∧ cc.Knows n.rtt.rttUs := by
  unfold ObserveNode.updateCc
  cases hcc : n.cc with
  | none =>
    constructor
    · intro _ cc hnone
      cases hnone
    · intro _
      rfl
  | some c =>
    have hstep : (some <$> c.update (0, 0) n.rtt.rttUs nowMs : Outcome ReportError (Option CongestionController)) = .ok (some c) ↔
        (c.update (0, 0) n.rtt.rttUs nowMs : Outcome ReportError CongestionController) = .ok c := by
      rw [Outcome.map_eq_ok]
      constructor
      · rintro ⟨_, hupdate, heq⟩
        cases heq
        exact hupdate
      · intro hupdate
        exact ⟨c, hupdate, rfl⟩
    dsimp only
    rw [hstep, update_zero (h c hcc)]
    constructor
    · rintro hc _ heq
      cases heq
      exact hc
    · intro hall
      exact hall c rfl

/-- The policies have come to rest under reports like this one. -/
structure ObserveNode.AtRest (n : ObserveNode) (nowUs : UInt64) (r : Report) : Prop where
  breaker : n.cfg.dualPath → n.breaker.Steady r.slots.main r.slots.alt
  gate : 0 < n.gate.cfg.minExpected
  cc : ∀ cc, n.cc = some cc → 0 < cc.cfg.minExpected ∧ cc.Knows (n.rtt.onPeerReport nowUs r).rttUs

/-- A report changes nothing once another one has been taken in, if and only if it has the counts of that one and
the policies are at rest. -/
theorem report_unmoved (hn : n.Reachable) (hlast : n.ingestReport nowMs nowUs bytes = (m, .ok ())) (hr : decode bytes = .ok r)
    (hr' : decode bytes' = .ok r') : m.Unmoved nowMs' nowUs' bytes' ↔ r'.slots = r.slots ∧ m.AtRest nowUs' r' := by
  have hprev : m.peerPrev = some r.slots := by
    obtain ⟨s, hs, hstep⟩ := ObserveNode.ingestReport_eq_ok.mp hlast
    rw [hr] at hs
    cases hs
    cases hbase : n.peerPrev with
    | none =>
      rw [hbase] at hstep
      rw [hstep]
    | some prev =>
      rw [hbase] at hstep
      obtain ⟨k, -, rfl⟩ := hstep
      rfl
  have hwaits : m.CcWaits := by
    have h := ccWaits_ingest hn.ccWaits nowMs nowUs bytes
    rw [hlast] at h
    exact h
  have hsteps : m.Unmoved nowMs' nowUs' bytes' ↔ ∃ k, (m.received nowUs' r').advance r.slots nowMs' r' = .ok k ∧
      ObserveNode.decisions { k with peerPrev := some r'.slots } = m.decisions := by
    unfold ObserveNode.Unmoved
    constructor
    · rintro ⟨hok, hsame⟩
      obtain ⟨s, hs, hstep⟩ := ObserveNode.ingestReport_eq_ok.mp (Prod.ext rfl hok)
      rw [hr'] at hs
      cases hs
      rw [hprev] at hstep
      obtain ⟨k, hk, hresult⟩ := hstep
      exact ⟨k, hk, (congrArg ObserveNode.decisions hresult).symm.trans hsame⟩
    · rintro ⟨k, hk, hsame⟩
      have hresult : m.ingestReport nowMs' nowUs' bytes' = ({ k with peerPrev := some r'.slots }, .ok ()) := by
        refine ObserveNode.ingestReport_eq_ok.mpr ⟨r', hr', ?_⟩
        rw [hprev]
        exact ⟨k, hk, rfl⟩
      rw [hresult]
      exact ⟨rfl, hsame⟩
  rw [hsteps]
  constructor
  · rintro ⟨k, hk, hsame⟩
    obtain ⟨gate, cc, hgate, hcc, rfl⟩ := ObserveNode.advance_eq_ok.mp hk
    have hslots : r'.slots = r.slots := by
      have h : some r'.slots = m.peerPrev := congrArg (·.2.2.2) hsame
      rw [hprev] at h
      exact Option.some.inj h
    have hdelta : ObserveNode.delta r'.slots.union r.slots.union = (0, 0) := by
      rw [hslots]
      exact delta_self _
    rw [hdelta] at hgate hcc
    refine ⟨hslots, ?_, (FecGate.update_zero.mp hgate).1, ?_⟩
    · intro hdual
      have h : (if m.cfg.dualPath then m.breaker.update r'.slots.main r'.slots.alt else m.breaker) = m.breaker :=
        congrArg (·.1) hsame
      rw [if_pos hdual] at h
      exact Breaker.update_eq_self.mp h
    · intro c hc
      have h : cc = m.cc := congrArg (·.2.2.1) hsame
      rw [h] at hcc
      exact (updateCc_zero (n := m.received nowUs' r') hwaits).mp hcc c hc
  · rintro ⟨hslots, hbreaker, hgate, hcc⟩
    have hdelta : ObserveNode.delta r'.slots.union r.slots.union = (0, 0) := by
      rw [hslots]
      exact delta_self _
    rw [hslots] at hbreaker
    have hupdate : (if m.cfg.dualPath then m.breaker.update r.slots.main r.slots.alt else m.breaker) = m.breaker := by
      split
      · next hdual => exact Breaker.update_eq_self.mpr (hbreaker hdual)
      · rfl
    refine ⟨_, ObserveNode.advance_eq_ok.mpr ⟨m.gate, m.cc, ?_, ?_, rfl⟩, ?_⟩
    · rw [hdelta]
      exact FecGate.update_zero.mpr ⟨hgate, rfl⟩
    · rw [hdelta]
      exact (updateCc_zero (n := m.received nowUs' r') hwaits).mpr hcc
    · unfold ObserveNode.decisions
      rw [hslots, ← hprev]
      exact Prod.ext hupdate rfl

end

/-- Three frames with many lost between them, and a report after each. -/
def lateCalls : List NodeCall := [
  .inbound 0 .main (sampleFrame 0 1), .build 0 0,
  .inbound 0 .main (sampleFrame 0 40), .build 200 0,
  .inbound 0 .main (sampleFrame 0 80), .build 400 0]

def lateReport (i : Nat) : Bytes := ((run ObserveNode.step (.new {}) lateCalls).2.filterMap id).getD i []

/-- A node with two paths that has taken in the first report and the last one. -/
def lateNode : ObserveNode :=
  (run ObserveNode.step (.new { dualPath := true }) [.ingest 0 0 (lateReport 0), .ingest 400 0 (lateReport 2)]).1

/-- The second report after the third one steps the gate and moves the base; the third one again steps the breaker. -/
theorem report_moves : lateNode.Reachable ∧ (List.range 3).map (fun i => (decode (lateReport i)).toOption.map (·.seq)) =
      [some 0, some 1, some 2] ∧
    ¬ lateNode.Unmoved 600 0 (lateReport 1) ∧ ¬ lateNode.Unmoved 600 0 (lateReport 2) :=
  ⟨⟨_, _, rfl⟩, by decide +kernel, by decide +kernel, by decide +kernel⟩

/-- Both paths are alive, and nothing is lost. -/
def quietReport : Report where
  seq := 1
  sendTsUs := 0
  lsrUs := 0
  dlsrUs := 0xFFFFFFFF
  slotsValid := 2
  slots := ⟨{ expected := 40, seen := 40, lastRecvAgeMs := 0 }, { expected := 40, seen := 40, lastRecvAgeMs := 0 },
    { expected := 40, seen := 40, lastRecvAgeMs := 0 }⟩

def quietConfig : ObserveConfig := { dualPath := true, cc := some (.new 1000000) }

lemma onPeerReport_rttUs {t : RttTracker} {nowUs : UInt64} {r : Report} (h : r.lsrUs = 0) : (t.onPeerReport nowUs r).rttUs = t.rttUs := by
  unfold RttTracker.onPeerReport
  rw [if_neg (not_not_intro h)]

/-- Such a report twice. -/
theorem report_unmoved_sample :
    ((ObserveNode.new quietConfig).ingestReport 0 0 (encode quietReport)).1.Unmoved 200 0 (encode quietReport) := by
  have hn : (ObserveNode.new quietConfig).Reachable := ⟨quietConfig, [], rfl⟩
  have hdecode := decode_encode quietReport
  have hok : ((ObserveNode.new quietConfig).ingestReport 0 0 (encode quietReport)).2 = .ok () := by decide +kernel
  have hbreaker : decide (((ObserveNode.new quietConfig).ingestReport 0 0 (encode quietReport)).1.breaker.Steady
      quietReport.slots.main quietReport.slots.alt) = true := by decide +kernel
  have hgate : 0 < ((ObserveNode.new quietConfig).ingestReport 0 0 (encode quietReport)).1.gate.cfg.minExpected := by
    decide +kernel
  have hcc : ((ObserveNode.new quietConfig).ingestReport 0 0 (encode quietReport)).1.cc = some (.new (.new 1000000)) := by
    decide +kernel
  have hrtt : ((ObserveNode.new quietConfig).ingestReport 0 0 (encode quietReport)).1.rtt.rttUs = none := by decide +kernel
  generalize hlast : (ObserveNode.new quietConfig).ingestReport 0 0 (encode quietReport) = result at hok hbreaker hgate hcc hrtt ⊢
  obtain ⟨m, answer⟩ := result
  cases hok
  refine (report_unmoved hn hlast hdecode hdecode).mpr ⟨rfl, fun _ => of_decide_eq_true hbreaker, hgate, ?_⟩
  intro cc hsome
  rw [hcc] at hsome
  rw [← Option.some.inj hsome, onPeerReport_rttUs rfl, hrtt]
  exact ⟨by decide +kernel, trivial⟩

end IPv8Plus.Observe
