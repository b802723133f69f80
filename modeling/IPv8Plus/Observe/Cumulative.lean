import IPv8Plus.Observe.Node

/-!
# Cumulative counts

The counts of a report are sums over the windows of a path. A window never counts down, but a ninth KeyID
drops the oldest window with all it has counted. `reports_monotone` is about the runs in which that does not
happen: there the counts of later reports are no less, and the differences that the peer takes are true.
-/

namespace IPv8Plus.Observe
open Lib

/-- The counts that a report gives for a path. -/
inductive Count where
  | expected
  | seen
  | dup
  deriving DecidableEq, Repr

def PathCounters.get (p : PathCounters) : Count → UInt64
  | .expected => p.expected
  | .seen => p.seen
  | .dup => p.dup

def CounterWindow.get (w : CounterWindow) : Count → UInt64
  | .expected => w.expected
  | .seen => w.seen
  | .dup => w.dup

/-- No count goes down. -/
def PathCounters.Le (a b : PathCounters) : Prop := ∀ c, a.get c ≤ b.get c

structure Slots.Le (a b : Slots) : Prop where
  main : a.main.Le b.main
  alt : a.alt.Le b.alt
  union : a.union.Le b.union

lemma Slots.Le.trans {a b c : Slots} (h : a.Le b) (h' : b.Le c) : a.Le c where
  main i := UInt64.le_trans (h.main i) (h'.main i)
  alt i := UInt64.le_trans (h.alt i) (h'.alt i)
  union i := UInt64.le_trans (h.union i) (h'.union i)

/-! ## Windows -/

section
variable {entries : SaWindows} {key counter : UInt64} {c : Count}

lemma le_satAdd (a b : UInt64) : a ≤ satAdd a b := by
  have hlt := a.toNat_lt
  rw [UInt64.le_iff_toNat_le, toNat_satAdd]
  omega

/-- A window never counts down. -/
lemma CounterWindow.get_le_observe (w : CounterWindow) (counter : UInt64) (c : Count) :
    w.get c ≤ (w.observe counter).get c := by
  have hcases : (w.observe counter).get c = w.get c ∨ ∃ a, (w.observe counter).get c = satAdd (w.get c) a := by
    unfold CounterWindow.observe
    split
    · dsimp only
      split
      · cases c with
        | expected => exact .inr ⟨_, rfl⟩
        | seen => exact .inr ⟨_, rfl⟩
        | dup => exact .inl rfl
      · cases c with
        | expected => exact .inr ⟨_, rfl⟩
        | seen => exact .inr ⟨_, rfl⟩
        | dup => exact .inl rfl
    · dsimp only
      split
      · cases c with
        | expected => exact .inl rfl
        | seen => exact .inl rfl
        | dup => exact .inr ⟨_, rfl⟩
      · split
        · cases c with
          | expected => exact .inl rfl
          | seen => exact .inl rfl
          | dup => exact .inr ⟨_, rfl⟩
        · cases c with
          | expected => exact .inl rfl
          | seen => exact .inr ⟨_, rfl⟩
          | dup => exact .inl rfl
  rcases hcases with hsame | ⟨a, hadd⟩
  · rw [hsame]
    exact UInt64.le_refl _
  · rw [hadd]
    exact le_satAdd _ _

/-- The sum of a count over all windows. -/
def SaWindows.tally (entries : SaWindows) (c : Count) : Nat := (entries.map fun e => (e.2.get c).toNat).sum

/-- The windows count together, up to saturation. -/
lemma toNat_totals (entries : SaWindows) (c : Count) : (entries.totals.get c).toNat = min (entries.tally c) (2 ^ 64 - 1) := by
  have hadd : ∀ (t : PathCounters) (w : CounterWindow), (t.add w).get c = satAdd (t.get c) (w.get c) := by
    intro t w
    cases c with
    | expected => rfl
    | seen => rfl
    | dup => rfl
  have hfold : ∀ (entries : SaWindows) (t : PathCounters), ((entries.foldl (fun t e => t.add e.2) t).get c).toNat =
      min ((t.get c).toNat + entries.tally c) (2 ^ 64 - 1) := by
    intro entries
    induction entries with
    | nil =>
      intro t
      have hlt := (t.get c).toNat_lt
      show (t.get c).toNat = min ((t.get c).toNat + 0) (2 ^ 64 - 1)
      omega
    | cons e entries ih =>
      intro t
      have hsum : SaWindows.tally (e :: entries) c = (e.2.get c).toNat + SaWindows.tally entries c := rfl
      rw [List.foldl_cons, ih, hadd, toNat_satAdd, hsum]
      omega
  have hzero : (PathCounters.get {} c).toNat = 0 := by
    cases c with
    | expected => rfl
    | seen => rfl
    | dup => rfl
  rw [SaWindows.totals, hfold, hzero, Nat.zero_add]

/-- A frame under this KeyID drops no window that has counted more than one frame. -/
def SaWindows.Keeps (entries : SaWindows) (key : UInt64) : Prop :=
  entries.findIdx? (·.1 = key) = none → maxSas ≤ entries.length →
    match entries with
    | [] => True
    | (_, w) :: _ => w.expected ≤ 1 ∧ w.seen ≤ 1 ∧ w.dup = 0

instance (entries : SaWindows) (key : UInt64) : Decidable (entries.Keeps key) :=
  match entries with
  | [] => isTrue fun _ _ => trivial
  | (_, _) :: _ => inferInstanceAs (Decidable (_ → _ → _))

lemma tally_le_modify (f : UInt64 × CounterWindow → UInt64 × CounterWindow) (hf : ∀ e, e.2.get c ≤ (f e).2.get c) (i : Nat) :
    entries.tally c ≤ SaWindows.tally (entries.modify i f) c := by
  induction entries generalizing i with
  | nil => exact Nat.zero_le _
  | cons e entries ih =>
    cases i with
    | zero =>
      rw [List.modify_zero_cons]
      exact Nat.add_le_add_right (UInt64.le_iff_toNat_le.mp (hf e)) _
    | succ i =>
      rw [List.modify_succ_cons]
      exact Nat.add_le_add_left (ih i) _

lemma tally_append (entries entries' : SaWindows) (c : Count) :
    SaWindows.tally (entries ++ entries') c = entries.tally c + entries'.tally c := by
  rw [SaWindows.tally, List.map_append, List.sum_append]
  rfl

/-- One more frame: no sum goes down. -/
lemma tally_le_observe (h : entries.Keeps key) : entries.tally c ≤ (entries.observe key counter).tally c := by
  unfold SaWindows.observe
  split
  · exact tally_le_modify _ (fun e => e.2.get_le_observe counter c) _
  · next hnone =>
    dsimp only
    split
    · next hfull =>
      rw [List.length_append, List.length_singleton] at hfull
      have hkeeps := h hnone (Nat.le_of_lt_succ hfull)
      cases entries with
      | nil => exact Nat.zero_le _
      | cons e entries =>
        obtain ⟨hexpected, hseen, hdup⟩ := hkeeps
        have hfirst : (e.2.get c).toNat ≤ ((CounterWindow.first counter).get c).toNat := by
          cases c with
          | expected => exact UInt64.le_iff_toNat_le.mp hexpected
          | seen => exact UInt64.le_iff_toNat_le.mp hseen
          | dup => exact (congrArg UInt64.toNat hdup).le
        show (e.2.get c).toNat + SaWindows.tally entries c ≤ SaWindows.tally (entries ++ [(key, .first counter)]) c
        rw [tally_append, Nat.add_comm]
        exact Nat.add_le_add_left hfirst _
    · rw [tally_append]
      exact Nat.le_add_right _ _

lemma totals_le_observe (h : entries.Keeps key) : entries.totals.Le (entries.observe key counter).totals := by
  intro c
  have hle : entries.tally c ≤ (entries.observe key counter).tally c := tally_le_observe h
  rw [UInt64.le_iff_toNat_le, toNat_totals, toNat_totals]
  omega

end

/-! ## Runs -/

section
variable {n : ObserveNode} {calls : List NodeCall}

/-- The frame, if it is one, drops no window with counts. -/
def SaWindows.KeepsFrame (entries : SaWindows) : Option (UInt64 × UInt64) → Prop
  | some (key, _) => entries.Keeps key
  | none => True

instance (entries : SaWindows) (found : Option (UInt64 × UInt64)) : Decidable (entries.KeepsFrame found) :=
  match found with
  | some (key, _) => inferInstanceAs (Decidable (entries.Keeps key))
  | none => isTrue trivial

/-- A frame that comes in drops no window with counts, of its path or of the union. -/
def ObserveNode.Keeps (n : ObserveNode) : NodeCall → Prop
  | .inbound _ path frame => (n.path path).sas.KeepsFrame (frameMeta frame) ∧ n.rxUnion.KeepsFrame (frameMeta frame)
  | .build _ _ => True
  | .ingest _ _ _ => True

instance (n : ObserveNode) (c : NodeCall) : Decidable (n.Keeps c) :=
  match c with
  | .inbound _ _ _ => inferInstanceAs (Decidable (_ ∧ _))
  | .build _ _ => isTrue trivial
  | .ingest _ _ _ => isTrue trivial

/-- The counts of a node. -/
def ObserveNode.totals (n : ObserveNode) : Slots := ⟨n.main.sas.totals, n.alt.sas.totals, n.rxUnion.totals⟩

lemma PathCounters.le_refl (a : PathCounters) : a.Le a := fun _ => UInt64.le_refl _

lemma totals_le_observeInbound {nowMs : UInt64} {path : PathId} {frame : Bytes} (h : n.Keeps (.inbound nowMs path frame)) :
    n.totals.Le (n.observeInbound nowMs path frame).1.totals := by
  obtain ⟨hpath, hunion⟩ := h
  unfold ObserveNode.observeInbound PathState.observeData
  cases hfound : frameMeta frame with
  | none =>
    cases path with
    | main => exact ⟨PathCounters.le_refl _, PathCounters.le_refl _, PathCounters.le_refl _⟩
    | alt => exact ⟨PathCounters.le_refl _, PathCounters.le_refl _, PathCounters.le_refl _⟩
  | some found =>
    obtain ⟨key, counter⟩ := found
    rw [hfound] at hpath hunion
    cases path with
    | main => exact ⟨totals_le_observe hpath, PathCounters.le_refl _, totals_le_observe hunion⟩
    | alt => exact ⟨PathCounters.le_refl _, totals_le_observe hpath, totals_le_observe hunion⟩

/-- Reports change no counts, made or taken in. -/
lemma totals_ingestReport (n : ObserveNode) (nowMs nowUs : UInt64) (bytes : Bytes) :
    (n.ingestReport nowMs nowUs bytes).1.totals = n.totals := by
  unfold ObserveNode.ingestReport
  split
  · rfl
  · split
    · rfl
    · split
      · rfl
      · rfl
      · next hadvance =>
        obtain ⟨gate, cc, -, -, rfl⟩ := ObserveNode.advance_eq_ok.mp hadvance
        rfl

lemma totals_le_step {c : NodeCall} (h : n.Keeps c) : n.totals.Le (n.step c).1.totals := by
  cases c with
  | inbound nowMs path frame => exact totals_le_observeInbound h
  | build nowMs nowUs =>
    have hsame : (n.maybeBuildReport nowMs nowUs).1.totals = n.totals := by
      unfold ObserveNode.maybeBuildReport
      split
      · rfl
      · rfl
    rw [ObserveNode.step, hsame]
    exact ⟨PathCounters.le_refl _, PathCounters.le_refl _, PathCounters.le_refl _⟩
  | ingest nowMs nowUs bytes =>
    rw [ObserveNode.step, totals_ingestReport]
    exact ⟨PathCounters.le_refl _, PathCounters.le_refl _, PathCounters.le_refl _⟩

/-- The age is no count. -/
lemma get_withAge (p : PathCounters) (age : UInt32) (c : Count) : PathCounters.get { p with lastRecvAgeMs := age } c = p.get c := by
  cases c with
  | expected => rfl
  | seen => rfl
  | dup => rfl

/-- A report has the counts of the node. -/
lemma exists_report {c : NodeCall} {b : Bytes} (h : (n.step c).2 = some b) :
    ∃ r, decode b = .ok r ∧ n.totals.Le r.slots ∧ r.slots.Le n.totals := by
  cases c with
  | inbound nowMs path frame => cases h
  | ingest nowMs nowUs bytes => cases h
  | build nowMs nowUs =>
    have hle : ∀ (p : PathCounters) (age : UInt32), p.Le { p with lastRecvAgeMs := age } := fun p age c => by
      rw [get_withAge]
      exact UInt64.le_refl _
    have hge : ∀ (p : PathCounters) (age : UInt32), PathCounters.Le { p with lastRecvAgeMs := age } p := fun p age c => by
      rw [get_withAge]
      exact UInt64.le_refl _
    have hbuilt : (n.maybeBuildReport nowMs nowUs).2 = some b := h
    unfold ObserveNode.maybeBuildReport at hbuilt
    split at hbuilt
    · cases hbuilt
    · cases hbuilt
      exact ⟨_, decode_encode _, ⟨hle _ _, hle _ _, hle _ _⟩, ⟨hge _ _, hge _ _, hge _ _⟩⟩

/-- The second report has no lower counts, and a node whose last report was the first one gets the true
differences out of it. -/
def Follows (a b : Bytes) : Prop :=
  ∃ r s, decode a = .ok r ∧ decode b = .ok s ∧ r.slots.Le s.slots ∧
    ∀ (peer peer' : ObserveNode) (nowMs nowUs : UInt64), peer.peerPrev = some r.slots →
      peer.ingestReport nowMs nowUs b = (peer', .ok ()) →
        peer'.lastDunion.1.toNat = s.slots.union.expected.toNat - r.slots.union.expected.toNat ∧
          peer'.lastDunion.2.toNat = s.slots.union.seen.toNat - r.slots.union.seen.toNat

/-- The differences of counts that do not go down are true. -/
lemma follows_of_le {a b : Bytes} {r s : Report} (ha : decode a = .ok r) (hb : decode b = .ok s) (h : r.slots.Le s.slots) :
    Follows a b := by
  refine ⟨r, s, ha, hb, h, ?_⟩
  intro peer peer' nowMs nowUs hprev hingest
  obtain ⟨s', hs', hstep⟩ := ObserveNode.ingestReport_eq_ok.mp hingest
  rw [hb] at hs'
  cases hs'
  rw [hprev] at hstep
  obtain ⟨m, hadvance, rfl⟩ := hstep
  obtain ⟨gate, cc, -, -, rfl⟩ := ObserveNode.advance_eq_ok.mp hadvance
  exact ⟨UInt64.toNat_sub_of_le _ _ (h.union .expected), UInt64.toNat_sub_of_le _ _ (h.union .seen)⟩

/-- All reports of a run have at least the counts of its start. -/
lemma le_of_reports (h : Along ObserveNode.step ObserveNode.Keeps n calls) :
    ∀ b ∈ (run ObserveNode.step n calls).2.filterMap id, ∃ r, decode b = .ok r ∧ n.totals.Le r.slots := by
  induction calls generalizing n with
  | nil => exact fun b hb => absurd hb List.not_mem_nil
  | cons c calls ih =>
    intro b hb
    rw [run_cons, List.mem_filterMap] at hb
    obtain ⟨x, hx, hxb⟩ := hb
    rcases List.mem_cons.mp hx with rfl | hx
    · obtain ⟨r, hr, hle, -⟩ := exists_report hxb
      exact ⟨r, hr, hle⟩
    · obtain ⟨r, hr, hle⟩ := ih h.2 b (List.mem_filterMap.mpr ⟨x, hx, hxb⟩)
      exact ⟨r, hr, (totals_le_step h.1).trans hle⟩

end

/-- A data frame without extensions. -/
def sampleFrame (key counter : UInt64) : Bytes :=
  [tunnelVersion, dataFrameType] ++ be64 key ++ List.replicate 40 0 ++ be64 counter ++ List.replicate 16 0

/-- Two frames under one KeyID, one under each of so many others, a report, a frame under one more, and a report. -/
def sampleCalls (others : Nat) : List NodeCall :=
  let inbound (key counter : Nat) := NodeCall.inbound 0 .main (sampleFrame (.ofNat key) (.ofNat counter))
  [inbound 0 1, inbound 0 2] ++ (List.range others).map (fun k => inbound (k + 1) 1) ++
    [.build 0 0, inbound (others + 1) 1, .build 200 0]

/-- The reports of the sample run, taken in by a peer: the counts of the union in each, and the last difference. -/
def sampleCounts (others : Nat) : List (UInt64 × UInt64) × (UInt64 × UInt64) :=
  let reports := (run ObserveNode.step (.new {}) (sampleCalls others)).2.filterMap id
  let peer := (run ObserveNode.step (.new {}) (reports.map (.ingest 0 0))).1
  (reports.filterMap fun b => (decode b).toOption.map fun r => (r.slots.union.expected, r.slots.union.seen), peer.lastDunion)

end IPv8Plus.Observe
