import IPv8Plus.Adapter.Sched
import IPv8Plus.Lib.Run

/-!
# Roaming on weak credentials

Runs of `Sched::strong_refresh` and `Sched::unauth_refresh` in any order, with the `learned` flag that their callers share.
One timestamp limits the rate of what frames without authentication may change: it is set by these changes and by those of
authenticated frames, and not by the first frame, which is free. `roaming_limited` says what follows for changes that are
far apart in a run.
-/

namespace IPv8Plus.Adapter
open Lib

/-- A schedule, and the flag that is passed to every `unauth_refresh`. -/
structure Roamer where
  sched : Sched
  learned : Bool
  deriving DecidableEq, Repr

inductive RefreshCall where
  | strong (source : SocketAddr) (now : Nat)
  | unauth (source : SocketAddr) (allowFirstFrame : Bool) (now : Nat)
  deriving DecidableEq, Repr

def RefreshCall.source : RefreshCall → SocketAddr
  | .strong source _ => source
  | .unauth source _ _ => source

def RefreshCall.now : RefreshCall → Nat
  | .strong _ now => now
  | .unauth _ _ now => now

/-- Whether the entry changed, or what is printed about it. -/
inductive RefreshAnswer where
  | strong (changed : Bool)
  | unauth (log : Option RefreshLog)
  deriving DecidableEq, Repr

def Roamer.step (w : Roamer) : RefreshCall → Roamer × RefreshAnswer
  | .strong source now =>
    let (sched, changed) := w.sched.strongRefresh source now
    ({ w with sched }, .strong changed)
  | .unauth source allowFirstFrame now =>
    let (sched, learned, log) := w.sched.unauthRefresh source w.learned allowFirstFrame now
    ({ sched, learned }, .unauth log)

/-- A change by an authenticated frame, -/
inductive RefreshAnswer.Strong : RefreshAnswer → Prop where
  | changed : Strong (.strong true)

/-- through the exemption of the first frame, -/
inductive RefreshAnswer.FirstFrame : RefreshAnswer → Prop where
  | learnPeer (entry : SocketAddr) : FirstFrame (.unauth (some (.learnPeer entry)))

/-- or by another frame without authentication. -/
inductive RefreshAnswer.Weak : RefreshAnswer → Prop where
  | migration (entry : SocketAddr) : Weak (.unauth (some (.migration entry)))

/-- Everything names this address, also the handshake that is running. -/
structure Sched.Names (s : Sched) (source : SocketAddr) : Prop where
  transport : s.transport = .tunnel source
  main : s.main = source
  attempt : ∀ a ∈ s.attempt, a.2.2 = source

/-- The address is one of the two entries of a tunnel. -/
def Sched.Settled (s : Sched) (source : SocketAddr) : Prop :=
  s.mp = true ∧ (∃ dest, s.transport = .tunnel dest) ∧ (s.main = source ∨ s.alt = some source)

namespace Roamer

/-- What one call may do. -/
structure StepOk (w : Roamer) (c : RefreshCall) : Prop where
  changed : (w.step c).1.sched ≠ w.sched ↔ (w.step c).2.Strong ∨ (w.step c).2.FirstFrame ∨ (w.step c).2.Weak
  firstFrame : (w.step c).2.FirstFrame → w.learned = false ∧ ∃ source now, c = .unauth source true now
  weak : (w.step c).2.Weak → ∃ source allowFirstFrame now, c = .unauth source allowFirstFrame now
  names : (w.step c).1.sched ≠ w.sched → (w.step c).1.sched.Names c.source
  settled : w.sched.Settled c.source → (w.step c).1.sched = w.sched
  learned : w.learned = true → (w.step c).1.learned = true

/-- Of two calls, one after the other: the first frame is free once, and a weak change keeps its distance from the weak and
the strong ones before it. -/
structure Spaced (x y : RefreshCall × RefreshAnswer) : Prop where
  once : x.2.FirstFrame → ¬ y.2.FirstFrame
  apart : x.2.Strong ∨ x.2.Weak → y.2.Weak → x.1.now + roamMinInterval ≤ y.1.now

/-- A call with the schedule and the flag after it, and its answer. -/
inductive Refreshed (w : Roamer) : RefreshCall → Roamer × RefreshAnswer → Prop where
  | strongKept {source now} (hkept : ¬ w.sched.Strays source) : Refreshed w (.strong source now) (w, .strong false)
  | strong {source now} (hstrays : w.sched.Strays source) :
    Refreshed w (.strong source now) ({ w with sched := { w.sched.redirect source with lastUnauthRoam := some now } }, .strong true)
  | entry {source allow now} (hkept : ¬ w.sched.NeedsUpdate source) :
    Refreshed w (.unauth source allow now) ({ w with learned := true }, .unauth none)
  | first {source now} (hneeds : w.sched.NeedsUpdate source) (hlearned : w.learned = false) :
    Refreshed w (.unauth source true now) (⟨w.sched.redirect source, true⟩, .unauth (some (.learnPeer source)))
  | limited {source allow now} (hneeds : w.sched.NeedsUpdate source) (hclosed : ¬ w.sched.WindowOpen now) :
    Refreshed w (.unauth source allow now) (w, .unauth none)
  | roamed {source allow now} (hneeds : w.sched.NeedsUpdate source) (hopen : w.sched.WindowOpen now) :
    Refreshed w (.unauth source allow now)
      (⟨{ w.sched with lastUnauthRoam := some now }.redirect source, true⟩, .unauth (some (.migration source)))

variable {w : Roamer} {c : RefreshCall} {calls : List RefreshCall} {s : Sched} {source : SocketAddr}

lemma refreshed_step (w : Roamer) (c : RefreshCall) : w.Refreshed c (w.step c) := by
  cases c with
  | strong source now =>
    unfold step Sched.strongRefresh
    dsimp only
    by_cases hstrays : w.sched.Strays source
    · rw [if_pos hstrays]
      exact .strong hstrays
    · rw [if_neg hstrays]
      exact .strongKept hstrays
  | unauth source allow now =>
    unfold step Sched.unauthRefresh
    dsimp only
    by_cases hneeds : w.sched.NeedsUpdate source
    · rw [if_neg (not_not.mpr hneeds)]
      by_cases hfirst : (allow && !w.learned) = true
      · rw [if_pos hfirst]
        obtain ⟨rfl, hlearned⟩ := (Bool.and_eq_true _ _).mp hfirst
        exact .first hneeds ((Bool.not_eq_true' _).mp hlearned)
      · rw [if_neg hfirst]
        by_cases hopen : w.sched.WindowOpen now
        · rw [if_neg (not_not.mpr hopen)]
          exact .roamed hneeds hopen
        · rw [if_pos hopen]
          exact .limited hneeds hopen
    · rw [if_pos hneeds]
      exact .entry hneeds

/-- An entry that everything is redirected to, whatever the timestamp. -/
lemma names_redirect (last : Option Nat) : ({ s.redirect source with lastUnauthRoam := last } : Sched).Names source := by
  refine ⟨rfl, rfl, ?_⟩
  intro a ha
  obtain ⟨_, -, rfl⟩ := Option.map_eq_some_iff.mp ha
  rfl

lemma not_needsUpdate_of_settled (h : s.Settled source) : ¬ s.NeedsUpdate source := by
  obtain ⟨hmp, ⟨dest, htunnel⟩, hentry⟩ := h
  intro hneeds
  unfold Sched.NeedsUpdate at hneeds
  rw [htunnel] at hneeds
  exact hneeds.2 ⟨hmp, hentry⟩

/-- A call that redirects does everything that is asked of it, if it says so. -/
lemma stepOk_of_redirect {last : Option Nat} (hneeds : w.sched.NeedsUpdate c.source)
    (hsched : (w.step c).1.sched = { w.sched.redirect c.source with lastUnauthRoam := last })
    (hanswer : (w.step c).2.Strong ∨ (w.step c).2.FirstFrame ∨ (w.step c).2.Weak)
    (hfirst : (w.step c).2.FirstFrame → w.learned = false ∧ ∃ source now, c = .unauth source true now)
    (hweak : (w.step c).2.Weak → ∃ source allowFirstFrame now, c = .unauth source allowFirstFrame now)
    (hlearned : w.learned = true → (w.step c).1.learned = true) : w.StepOk c := by
  have hmoved : (w.step c).1.sched ≠ w.sched := by
    intro hsame
    apply hneeds.transport_ne
    rw [← hsame, hsched]
    rfl
  refine ⟨iff_of_true hmoved hanswer, hfirst, hweak, ?_, ?_, hlearned⟩
  · intro _
    rw [hsched]
    exact names_redirect _
  · intro hsettled
    exact absurd hneeds (not_needsUpdate_of_settled hsettled)

/-- A call that leaves the schedule alone. -/
lemma stepOk_of_kept (hsched : (w.step c).1.sched = w.sched)
    (hanswer : (w.step c).2 = .strong false ∨ (w.step c).2 = .unauth none)
    (hlearned : w.learned = true → (w.step c).1.learned = true) : w.StepOk c := by
  have hquiet : ¬ ((w.step c).2.Strong ∨ (w.step c).2.FirstFrame ∨ (w.step c).2.Weak) := by
    rcases hanswer with hanswer | hanswer
    · rw [hanswer]
      rintro (h | h | h) <;> cases h
    · rw [hanswer]
      rintro (h | h | h) <;> cases h
  refine ⟨iff_of_false (not_not.mpr hsched) hquiet, ?_, ?_, fun h => absurd hsched h, fun _ => hsched, hlearned⟩
  · intro h
    exact absurd (.inr (.inl h)) hquiet
  · intro h
    exact absurd (.inr (.inr h)) hquiet

lemma stepOk (w : Roamer) (c : RefreshCall) : w.StepOk c := by
  -- one case for each way through the two functions: three redirect, three leave the schedule alone
  have hstep := refreshed_step w c
  generalize hw : w.step c = r at hstep
  cases hstep with
  | strongKept _ => exact stepOk_of_kept (by rw [hw]) (by rw [hw]; exact .inl rfl) (by rw [hw]; exact id)
  | strong hstrays =>
    refine stepOk_of_redirect hstrays.needsUpdate (by rw [hw]; rfl) (by rw [hw]; exact .inl .changed) ?_ ?_ (by rw [hw]; exact id)
    · rw [hw]
      intro h
      cases h
    · rw [hw]
      intro h
      cases h
  | entry _ => exact stepOk_of_kept (by rw [hw]) (by rw [hw]; exact .inr rfl) (by rw [hw]; exact fun _ => rfl)
  | limited _ _ => exact stepOk_of_kept (by rw [hw]) (by rw [hw]; exact .inr rfl) (by rw [hw]; exact id)
  | @first source now hneeds hlearned =>
    refine stepOk_of_redirect hneeds (by rw [hw]; rfl) (by rw [hw]; exact .inr (.inl (.learnPeer _))) ?_ ?_ (by rw [hw]; exact fun _ => rfl)
    · intro _
      exact ⟨hlearned, source, now, rfl⟩
    · rw [hw]
      intro h
      cases h
  | @roamed source allow now hneeds hopen =>
    refine stepOk_of_redirect hneeds (by rw [hw]; rfl) (by rw [hw]; exact .inr (.inr (.migration _))) ?_ ?_ (by rw [hw]; exact fun _ => rfl)
    · rw [hw]
      intro h
      cases h
    · intro _
      exact ⟨source, allow, now, rfl⟩

/-- What the timestamp and the flag know about the calls before. -/
structure Remembers (w : Roamer) (hist : List (RefreshCall × RefreshAnswer)) : Prop where
  spaced : hist.Pairwise Spaced
  learned : ∀ x ∈ hist, x.2.FirstFrame → w.learned = true
  last : ∀ x ∈ hist, x.2.Strong ∨ x.2.Weak → ∃ t, w.sched.lastUnauthRoam = some t ∧ x.1.now ≤ t

variable {hist : List (RefreshCall × RefreshAnswer)} {x : RefreshCall × RefreshAnswer} {w' : Roamer}

/-- One more call: the timestamp is its clock, or it is no change that counts. -/
lemma Remembers.concat (h : w.Remembers hist) (hspaced : ∀ y ∈ hist, Spaced y x) (hlearned : w.learned = true → w'.learned = true)
    (hfirst : x.2.FirstFrame → w'.learned = true) (hclock : ∀ y ∈ hist, y.1.now ≤ x.1.now)
    (hlast : w'.sched.lastUnauthRoam = some x.1.now ∨
      w'.sched.lastUnauthRoam = w.sched.lastUnauthRoam ∧ ¬ (x.2.Strong ∨ x.2.Weak)) : w'.Remembers (hist ++ [x]) := by
  refine ⟨?_, ?_, ?_⟩
  · apply List.pairwise_append.mpr
    refine ⟨h.spaced, List.pairwise_singleton _ _, ?_⟩
    intro y hy z hz
    cases List.mem_singleton.mp hz
    exact hspaced y hy
  · intro y hy hyfirst
    rcases List.mem_append.mp hy with hy | hy
    · exact hlearned (h.learned y hy hyfirst)
    · cases List.mem_singleton.mp hy
      exact hfirst hyfirst
  · intro y hy hcounts
    rcases List.mem_append.mp hy with hy | hy
    · rcases hlast with hnow | ⟨hsame, -⟩
      · exact ⟨_, hnow, hclock y hy⟩
      · rw [hsame]
        exact h.last y hy hcounts
    · cases List.mem_singleton.mp hy
      rcases hlast with hnow | ⟨-, hquiet⟩
      · exact ⟨_, hnow, Nat.le_refl _⟩
      · exact absurd hcounts hquiet

/-- A call that changes nothing is spaced from all others. -/
lemma spaced_of_quiet {y : RefreshCall × RefreshAnswer} (hfirst : ¬ x.2.FirstFrame) (hweak : ¬ x.2.Weak) : Spaced y x :=
  ⟨fun _ => hfirst, fun _ h => absurd h hweak⟩

lemma Remembers.step (h : w.Remembers hist) (hclock : ∀ y ∈ hist, y.1.now ≤ c.now) :
    (w.step c).1.Remembers (hist ++ [(c, (w.step c).2)]) := by
  -- only a call that may be weak or free has to be spaced from those before
  have hstep := refreshed_step w c
  generalize w.step c = r at hstep
  cases hstep with
  | strongKept _ =>
    refine h.concat (fun _ _ => spaced_of_quiet nofun nofun) id nofun hclock (.inr ⟨rfl, ?_⟩)
    rintro (hs | hs) <;> cases hs
  | strong _ => exact h.concat (fun _ _ => spaced_of_quiet nofun nofun) id nofun hclock (.inl rfl)
  | entry _ =>
    refine h.concat (fun _ _ => spaced_of_quiet nofun nofun) (fun _ => rfl) nofun hclock (.inr ⟨rfl, ?_⟩)
    rintro (hs | hs) <;> cases hs
  | limited _ _ =>
    refine h.concat (fun _ _ => spaced_of_quiet nofun nofun) id nofun hclock (.inr ⟨rfl, ?_⟩)
    rintro (hs | hs) <;> cases hs
  | @first source now _ hlearned =>
    -- an earlier first frame would have set the flag
    have hspaced : ∀ y ∈ hist, Spaced y (.unauth source true now, .unauth (some (.learnPeer source))) := by
      intro y hy
      refine ⟨fun hyfirst => ?_, fun _ hweak => ?_⟩
      · rw [h.learned y hy hyfirst] at hlearned
        cases hlearned
      · cases hweak
    refine h.concat hspaced (fun _ => rfl) (fun _ => rfl) hclock (.inr ⟨rfl, ?_⟩)
    rintro (hs | hs) <;> cases hs
  | @roamed source allow now _ hopen =>
    -- the timestamp is not before any change that counts, and the window is over
    have hspaced : ∀ y ∈ hist, Spaced y (.unauth source allow now, .unauth (some (.migration source))) := by
      intro y hy
      refine ⟨fun _ hfirst => ?_, fun hcounts _ => ?_⟩
      · cases hfirst
      · obtain ⟨t, ht, hle⟩ := h.last y hy hcounts
        have hwindow := hopen t ht
        change y.1.now + roamMinInterval ≤ now
        unfold roamMinInterval at hwindow ⊢
        omega
    exact h.concat hspaced (fun _ => rfl) (fun _ => rfl) hclock (.inl rfl)

/-- From any state, with a clock that does not go back. Every change is of one of the three kinds, and names its address
everywhere; an address of one of the two entries of a tunnel changes nothing. At most one change is the free one, by a call that
may be free while the flag has not been set. All other weak changes come at least the interval after every weak or strong
change before them. -/
theorem roaming_limited (w : Roamer) (calls : List RefreshCall) (hclock : calls.Pairwise fun c c' => c.now ≤ c'.now) :
    Along step StepOk w calls ∧ (calls.zip (run step w calls).2).Pairwise Spaced := by
  constructor
  · exact (along_of_forall (P := fun _ => True) fun _ _ => trivial).mono fun w c _ => stepOk w c
  · have hstart : w.Remembers [] := ⟨.nil, nofun, nofun⟩
    have hrun := @invariant_history_pairwise _ _ _ Roamer.step (fun _ _ => True) w calls Remembers (fun c c' => c.now ≤ c'.now) []
      (fun _ _ _ h _ hclock => h.step hclock) hstart (along_of_forall fun _ _ => trivial) nofun hclock
    exact hrun.spaced

/-- A host of some network. -/
def sampleHost (k : UInt16) : SocketAddr := .v4 10 k

/-- The first frame, a frame with authentication, and two without: one after two seconds, and one after ten. -/
def sampleRefreshes : List RefreshCall := [.unauth (sampleHost 2) true 0, .strong (sampleHost 3) (10 ^ 9),
  .unauth (sampleHost 4) true (2 * 10 ^ 9), .unauth (sampleHost 5) false (11 * 10 ^ 9)]

def sampleRoamer : Roamer where
  sched :=
    { main := sampleHost 1
      alt := none
      transport := .tunnel (sampleHost 1)
      attempt := none
      lastUnauthRoam := none
      mp := false }
  learned := false

/-- Three of the calls change the entry. -/
theorem roaming_limited_sample : (Along step StepOk sampleRoamer sampleRefreshes ∧
    (sampleRefreshes.zip (run step sampleRoamer sampleRefreshes).2).Pairwise Spaced) ∧
      (run step sampleRoamer sampleRefreshes).2 = [.unauth (some (.learnPeer (sampleHost 2))), .strong true, .unauth none,
        .unauth (some (.migration (sampleHost 5)))] :=
  ⟨roaming_limited _ _ (by decide), by decide +kernel⟩

end Roamer

end IPv8Plus.Adapter
