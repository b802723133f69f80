import IPv8Plus.Tunnel.Fallback

/-!
# Promotion of an alternate entry

`record_success` of `ipv8-tunnel/src/fallback.rs` makes an alternate entry that worked the main one. The main entry before it
goes nowhere: the cascade has lost it until the peer is resolved again, unless it is an alternate entry too.
`entries_kept_iff` says that this is all that can happen to the entries of a peer.
-/

namespace IPv8Plus.Tunnel.Fallback
open Lib

/-- The entries that the resolver has given, the main one and the alternate ones. -/
def Resolved.entries (r : Resolved) : Set String := {entry | r.tunnelEntry = some entry ∨ entry ∈ r.altEntries}

/-- The entry is promoted, and the main one before it is no alternate entry. -/
def PeerState.Drops (s : PeerState) (entry : String) : Prop :=
  entry ∈ s.resolved.altEntries ∧ ∃ main, s.resolved.tunnelEntry = some main ∧ main ≠ entry ∧ main ∉ s.resolved.altEntries

/-- The call promotes an entry of the peer, and drops another one. -/
def FallbackCall.Drops (name : String) (m : FallbackManager) (c : FallbackCall) : Prop :=
  ∃ entry, c = .recordSuccess name (.tunnel entry) ∧ (m.peer name).Drops entry

/-- So many failures of established tunnels. -/
def PeerState.failTimes (s : PeerState) : Nat → PeerState
  | 0 => s
  | n + 1 => (s.failTimes n).recordFailure .firstPacketTimeout 0

section
variable {s : PeerState} {entry : String} {name : String} {m : FallbackManager} {c : FallbackCall} {calls : List FallbackCall}
  {f : Failure} {now : UInt64} {entries : Set String}

lemma PeerState.resolved_nextPath : (s.nextPath now).1.resolved = s.resolved := by
  unfold PeerState.nextPath
  split
  · split
    · dsimp only
      split
      · rfl
      · rfl
    · rfl
  · rfl

lemma PeerState.resolved_advance : (s.advance now).resolved = s.resolved := by
  unfold PeerState.advance
  dsimp only
  split
  · split
    · rfl
    · rfl
  · split
    · rfl
    · rfl

lemma PeerState.resolved_recordFailure : (s.recordFailure f now).resolved = s.resolved := by
  unfold PeerState.recordFailure
  split
  · rfl
  · rfl
  split
  · exact resolved_advance
  dsimp only
  split
  · rfl
  · exact resolved_advance

/-- A success keeps the entries exactly if it drops none; it never adds one. -/
lemma PeerState.entries_recordSuccess :
    ((s.recordSuccess (.tunnel entry)).resolved.entries = s.resolved.entries ↔ ¬ s.Drops entry) ∧
      (s.recordSuccess (.tunnel entry)).resolved.entries ⊆ s.resolved.entries := by
  unfold PeerState.recordSuccess
  dsimp only
  split
  · next hpromoted =>
    obtain ⟨hmain, halt⟩ := hpromoted
    -- after a promotion the entries are the alternate ones: the promoted entry was among them
    have hafter : ∀ x, x ∈ ({ s.resolved with
        lastGoodEntry := some entry, tunnelEntry := some entry, altEntries := s.resolved.altEntries.erase entry } : Resolved).entries ↔
          x ∈ s.resolved.altEntries := by
      intro x
      by_cases hx : x = entry
      · rw [hx]
        exact iff_of_true (.inl rfl) halt
      · refine ⟨fun h => ?_, fun h => .inr ((List.mem_erase_of_ne hx).mpr h)⟩
        rcases h with h | h
        · exact absurd (Option.some_inj.mp h).symm hx
        · exact List.mem_of_mem_erase h
    refine ⟨⟨fun hsame hdrops => ?_, fun hkept => ?_⟩, fun x hx => .inr ((hafter x).mp hx)⟩
    · obtain ⟨-, main, htunnel, -, hlost⟩ := hdrops
      have hin : main ∈ s.resolved.entries := .inl htunnel
      rw [← hsame] at hin
      exact hlost ((hafter main).mp hin)
    · ext x
      refine (hafter x).trans ⟨fun h => .inr h, fun h => ?_⟩
      by_contra hlost
      have htunnel := h.resolve_right hlost
      refine hkept ⟨halt, x, htunnel, ?_, hlost⟩
      rintro rfl
      exact hmain htunnel
  · next hkept =>
    have hsame : ({ s.resolved with lastGoodEntry := some entry } : Resolved).entries = s.resolved.entries := rfl
    refine ⟨iff_of_true hsame fun hdrops => hkept ⟨?_, hdrops.1⟩, hsame.le⟩
    obtain ⟨-, main, htunnel, hne, -⟩ := hdrops
    rw [htunnel]
    exact fun h => hne (Option.some_inj.mp h)

/-- Only a promotion changes the entries. -/
lemma PeerState.entries_seen (hc : ∀ r, c ≠ .noteResolved name r) :
    (s.seen name c).resolved.entries = s.resolved.entries ↔ ∀ entry, c = .recordSuccess name (.tunnel entry) → ¬ s.Drops entry := by
  cases c with
  | noteResolved peer r =>
    have hne : peer ≠ name := by
      rintro rfl
      exact hc r rfl
    refine iff_of_true ?_ fun entry h => by cases h
    unfold seen
    dsimp only
    rw [if_neg hne]
  | nextPath peer now =>
    refine iff_of_true ?_ fun entry h => by cases h
    unfold seen
    dsimp only
    split
    · rw [resolved_nextPath]
    · rfl
  | recordFailure peer f now =>
    refine iff_of_true ?_ fun entry h => by cases h
    unfold seen
    dsimp only
    split
    · rw [resolved_recordFailure]
    · rfl
  | recordSuccess peer path =>
    unfold seen
    dsimp only
    split
    · next heq =>
      cases heq
      cases path with
      | tunnel entry =>
        rw [entries_recordSuccess.1]
        constructor
        · rintro h _ ⟨⟩
          exact h
        · exact fun h => h entry rfl
      | plainTcp => exact iff_of_true rfl fun entry h => by cases h
      | plainUdp => exact iff_of_true rfl fun entry h => by cases h
    · next hne =>
      refine iff_of_true rfl fun entry h => ?_
      cases h
      exact absurd rfl hne

/-- A failure of an established tunnel leads to the next alternate entry. -/
lemma PeerState.recordFailure_firstPacket {k : Nat} (hlevel : s.level = .mainTunnel ∨ s.level = .altTunnel)
    (hnext : (if s.level = .mainTunnel then 0 else s.altIdx + 1) = k) (hk : k < s.resolved.altEntries.length) :
    s.recordFailure .firstPacketTimeout now = { s with failuresAtLevel := 0, altIdx := k, level := .altTunnel } := by
  have hadvance : s.recordFailure .firstPacketTimeout now = s.advance now := by
    unfold recordFailure
    rcases hlevel with hlevel | hlevel
    · rw [hlevel]
      exact if_pos rfl
    · rw [hlevel]
      exact if_pos rfl
  rw [hadvance]
  unfold advance
  rw [hnext]
  exact if_pos hk

lemma PeerState.failTimes_main (hlevel : s.level = .mainTunnel) {n : Nat} (hn : n < s.resolved.altEntries.length) :
    (s.failTimes (n + 1)).level = .altTunnel ∧ (s.failTimes (n + 1)).altIdx = n ∧ (s.failTimes (n + 1)).resolved = s.resolved := by
  -- each failure moves the index on by one, from before the list at the main entry
  induction n with
  | zero =>
    have hstep : s.failTimes 1 = _ := recordFailure_firstPacket (.inl hlevel) (if_pos hlevel) hn
    rw [hstep]
    exact ⟨rfl, rfl, rfl⟩
  | succ n ih =>
    obtain ⟨halt, hidx, hsame⟩ := ih (by omega)
    have hnext : (if (s.failTimes (n + 1)).level = .mainTunnel then 0 else (s.failTimes (n + 1)).altIdx + 1) = n + 1 := by
      rw [halt, if_neg (by decide), hidx]
    have hstep : s.failTimes (n + 2) = _ := recordFailure_firstPacket (.inr halt) hnext (by rw [hsame]; exact hn)
    rw [hstep]
    exact ⟨rfl, rfl, hsame⟩

/-- From the main entry every entry is reached by failures. -/
lemma PeerState.reached (hlevel : s.level = .mainTunnel) (hentry : entry ∈ s.resolved.entries) :
    ∃ n, (s.failTimes n).path = .tunnel entry := by
  rcases hentry with hmain | halt
  · refine ⟨0, ?_⟩
    unfold failTimes path
    rw [hlevel]
    dsimp only
    rw [hmain]
    rfl
  · obtain ⟨i, hi⟩ := List.mem_iff_getElem?.mp halt
    have hlt := (List.getElem?_eq_some_iff.mp hi).1
    obtain ⟨hlevel', hidx, hsame⟩ := failTimes_main hlevel hlt
    refine ⟨i + 1, ?_⟩
    unfold path
    rw [hlevel']
    dsimp only
    rw [hidx, hsame, Nat.min_eq_left (Nat.le_sub_one_of_lt hlt), hi]
    rfl

end

/-- From any state of a manager, after a peer is resolved and until it is resolved again: the entries that are stored are those
of the resolver after every call, if and only if no call promotes an entry in place of a main one that is no alternate entry. As
long as this holds, the cascade reaches each of them from the main entry. -/
theorem entries_kept_iff (m : FallbackManager) (name : String) (r : Resolved) (calls : List FallbackCall)
    (hcalls : ∀ c ∈ calls, ∀ r, c ≠ .noteResolved name r) :
    let m' := (m.step (.noteResolved name r)).1
    (Along FallbackManager.step (fun m c => ((m.step c).1.peer name).resolved.entries = r.entries) m' calls ↔
        Along FallbackManager.step (fun m c => ¬ c.Drops name m) m' calls) ∧
      (Along FallbackManager.step (fun m c => ¬ c.Drops name m) m' calls →
        let s := (run FallbackManager.step m' calls).1.peer name
        s.level = .mainTunnel → ∀ entry ∈ r.entries, ∃ n, (s.failTimes n).path = .tunnel entry) := by
  intro m'
  have hstart : (m'.peer name).resolved.entries = r.entries := by
    rw [FallbackManager.peer_noteResolved]
    unfold PeerState.noteResolved
    split
    · rfl
    · rfl
  -- a call keeps the entries exactly if it drops none, as long as those before have kept them
  have hstep : ∀ (m : FallbackManager) c, (m.peer name).resolved.entries = r.entries → (∀ r, c ≠ .noteResolved name r) →
      (((m.step c).1.peer name).resolved.entries = r.entries ↔ ¬ c.Drops name m) := by
    intro m c hm hc
    rw [FallbackManager.peer_step, ← hm, PeerState.entries_seen hc]
    unfold FallbackCall.Drops
    exact ⟨fun h ⟨entry, hcall, hdrops⟩ => h entry hcall hdrops, fun h entry hcall hdrops => h ⟨entry, hcall, hdrops⟩⟩
  have hno : Along FallbackManager.step (fun _ c => ∀ r, c ≠ .noteResolved name r) m' calls := along_of_forall hcalls
  constructor
  · exact along_congr hno (fun m c _ _ hkept => hkept) hstep hstart
  · intro hkept s hlevel entry hentry
    have hend := invariant_run (I := fun m : FallbackManager => (m.peer name).resolved.entries = r.entries)
      (fun m c hm hc => (hstep m c hm hc.1).mpr hc.2) hstart (along_and.mpr ⟨hno, hkept⟩)
    rw [← hend] at hentry
    exact PeerState.reached hlevel hentry

/-- The main entry works. -/
theorem entries_kept_iff_sample :
    let m := (({ opts := {} } : FallbackManager).step (.noteResolved "peer" sampleResolved)).1
    Along FallbackManager.step (fun m c => ((m.step c).1.peer "peer").resolved.entries = sampleResolved.entries) m
      [.nextPath "peer" 0, .recordSuccess "peer" (.tunnel "main")] := by
  intro m
  refine ((entries_kept_iff _ _ _ _ ?_).1).mpr ⟨?_, ?_, trivial⟩
  · intro c hc r
    fin_cases hc
    · nofun
    · nofun
  · rintro ⟨entry, h, -⟩
    cases h
  · rintro ⟨entry, h, hdrops⟩
    cases h
    have halts : (((m.step (.nextPath "peer" 0)).1).peer "peer").resolved.altEntries = ["alt"] := by decide +kernel
    rw [PeerState.Drops, halts] at hdrops
    exact absurd hdrops.1 (by decide)

/-- After three time-outs the alternate entry works. The main entry is gone, and the next failure leads to plain TCP. -/
theorem promotion_loses_main :
    let m := (({ opts := {} } : FallbackManager).step (.noteResolved "peer" sampleResolved)).1
    let timeout := FallbackCall.recordFailure "peer" .handshakeTimeout 0
    let calls := [timeout, timeout, timeout, .recordSuccess "peer" (.tunnel "alt")]
    ¬ Along FallbackManager.step (fun m c => ((m.step c).1.peer "peer").resolved.entries = sampleResolved.entries) m calls ∧
      (run FallbackManager.step m (calls ++ [.recordFailure "peer" .firstPacketTimeout 0, .nextPath "peer" 0])).2.getLast? =
        some (some .plainTcp) := by
  intro m timeout calls
  refine ⟨fun hkept => ?_, by decide +kernel⟩
  have hlast := hkept.2.2.2.1
  have hin : "main" ∈ sampleResolved.entries := .inl rfl
  rw [← hlast] at hin
  rcases hin with hmain | halt
  · exact absurd hmain (by decide +kernel)
  · exact absurd halt (by decide +kernel)

end IPv8Plus.Tunnel.Fallback
