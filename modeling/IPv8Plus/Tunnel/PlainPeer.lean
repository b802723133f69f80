import IPv8Plus.Tunnel.Fallback

/-!
# Peers without the tunnel

`ipv8-tunnel/src/fallback.rs` puts a peer of which the resolver says that it has no IPv8+ at the plain levels. The first
`next_path` there starts the degradation cache as it does after failures, so that the tunnel is tried when the cache runs
out: `plain_until_expired` says that the path stays plain up to then, and no longer.
-/

namespace IPv8Plus.Tunnel.Fallback
open Lib

/-- The path to the peer, if it is asked for, is plain. -/
def PlainTo (name : String) (m : FallbackManager) (c : FallbackCall) : Prop :=
  ∀ now, c = .nextPath name now → (m.step c).2 = some .plainTcp ∨ (m.step c).2 = some .plainUdp

/-- Nothing says that the peer has IPv8+: neither the resolver, nor a tunnel to it that works. -/
def FallbackCall.Barren (name : String) : FallbackCall → Prop
  | .noteResolved peer r => peer = name → r.ipv8Capable = false
  | .recordSuccess peer path => peer = name → ∀ entry, path ≠ .tunnel entry
  | _ => True

/-- When the path to the peer was first asked for since the peer was resolved. -/
def asked (name : String) (first : Option UInt64) : FallbackCall → Option UInt64
  | .noteResolved peer _ => if peer = name then none else first
  | .nextPath peer now => if peer = name then some (first.getD now) else first
  | _ => first

/-- The path to the peer is not asked for again when the time to live has passed since it was first asked for. -/
def InWindow (name : String) (ttl : UInt64) : Option UInt64 → List FallbackCall → Prop
  | _, [] => True
  | first, c :: calls => (∀ now, c = .nextPath name now → ∀ t ∈ first, now.toNat - t.toNat < ttl.toNat) ∧
      InWindow name ttl (asked name first c) calls

/-- The peer is at a plain level, and the cache runs since the path was first asked for. -/
structure PeerState.Waits (s : PeerState) (ttl : UInt64) (first : Option UInt64) : Prop where
  level : s.level = .plainTcp ∨ s.level = .plainUdp
  since : s.degradedAt = first
  ttl : s.ttlSecs = ttl

section
variable {s : PeerState} {ttl now : UInt64} {first : Option UInt64} {name : String} {m : FallbackManager} {c : FallbackCall}
  {calls : List FallbackCall} {f : Failure}

lemma PeerState.waits_noteResolved {r : Resolved} (h : s.ttlSecs = ttl) (hr : r.ipv8Capable = false) :
    (s.noteResolved r).Waits ttl none := by
  unfold PeerState.noteResolved
  rw [hr, if_neg Bool.false_ne_true]
  exact ⟨.inl rfl, rfl, h⟩

lemma PeerState.Waits.recordFailure (h : s.Waits ttl first) : (s.recordFailure f now).Waits ttl first := by
  unfold PeerState.recordFailure
  rcases h.level with hlevel | hlevel
  · rw [hlevel]
    exact ⟨.inr rfl, h.since, h.ttl⟩
  · rw [hlevel]
    exact ⟨.inr hlevel, h.since, h.ttl⟩

lemma PeerState.Waits.path (h : s.Waits ttl first) : s.path = .plainTcp ∨ s.path = .plainUdp := by
  unfold PeerState.path
  rcases h.level with hlevel | hlevel
  · rw [hlevel]
    exact .inl rfl
  · rw [hlevel]
    exact .inr rfl

/-- The cache is valid, or starts. -/
lemma PeerState.Waits.nextPath (h : s.Waits ttl first) (hwindow : ∀ t ∈ first, now.toNat - t.toNat < ttl.toNat) :
    (s.nextPath now).1.Waits ttl (some (first.getD now)) ∧ (s.nextPath now).2 = s.path := by
  unfold PeerState.nextPath
  rw [if_pos h.level, h.since]
  cases first with
  | none => exact ⟨⟨h.level, rfl, h.ttl⟩, rfl⟩
  | some t =>
    dsimp only
    rw [h.ttl, if_pos (hwindow t rfl)]
    exact ⟨⟨h.level, h.since, h.ttl⟩, rfl⟩

/-- The cache is over, and the path is the tunnel. -/
lemma PeerState.Waits.expired {t : UInt64} (h : s.Waits ttl (some t)) (hover : ¬ now.toNat - t.toNat < ttl.toNat) :
    ∃ entry, (s.nextPath now).2 = .tunnel entry := by
  unfold PeerState.nextPath
  rw [if_pos h.level, h.since]
  dsimp only
  rw [h.ttl, if_neg hover]
  exact ⟨_, rfl⟩

/-- While the cache is valid, a call keeps the peer waiting. -/
lemma PeerState.Waits.seen (h : s.Waits ttl first) (hc : c.Barren name)
    (hwindow : ∀ now, c = .nextPath name now → ∀ t ∈ first, now.toNat - t.toNat < ttl.toNat) :
    (s.seen name c).Waits ttl (asked name first c) := by
  cases c with
  | noteResolved peer r =>
    unfold PeerState.seen asked
    dsimp only
    split
    · next heq => exact PeerState.waits_noteResolved h.ttl (hc heq)
    · exact h
  | nextPath peer now =>
    unfold PeerState.seen asked
    dsimp only
    split
    · next heq => exact (h.nextPath (hwindow now (by rw [heq]))).1
    · exact h
  | recordFailure peer f now =>
    unfold PeerState.seen asked
    dsimp only
    split
    · exact h.recordFailure
    · exact h
  | recordSuccess peer path =>
    unfold PeerState.seen asked
    dsimp only
    split
    · next heq =>
      cases path with
      | tunnel entry => exact absurd rfl (hc heq entry)
      | plainTcp => exact h
      | plainUdp => exact h
    · exact h

/-- The path is plain exactly while the cache is valid. -/
lemma plainTo_iff (h : (m.peer name).Waits ttl first) :
    PlainTo name m c ↔ ∀ now, c = .nextPath name now → ∀ t ∈ first, now.toNat - t.toNat < ttl.toNat := by
  refine forall_congr' fun now => forall_congr' fun hc => ?_
  cases hc
  have hanswer : (m.step (.nextPath name now)).2 = some ((m.peer name).nextPath now).2 := rfl
  rw [hanswer]
  constructor
  · intro hplain t ht
    cases ht
    -- when the cache is over the very call that finds it out answers the tunnel
    by_contra hover
    obtain ⟨entry, hentry⟩ := h.expired hover
    rw [hentry] at hplain
    rcases hplain with hplain | hplain <;> cases hplain
  · intro hwindow
    rw [(h.nextPath hwindow).2, Option.some_inj, Option.some_inj]
    exact h.path

lemma along_plainTo (h : (m.peer name).Waits ttl first) (hcalls : ∀ c ∈ calls, c.Barren name) :
    Along FallbackManager.step (PlainTo name) m calls ↔ InWindow name ttl first calls := by
  -- the time of the first call is part of the state that the induction is about
  induction calls generalizing m first with
  | nil => exact Iff.rfl
  | cons c calls ih =>
    rw [along_cons, InWindow, plainTo_iff h]
    refine and_congr_right fun hwindow => ih ?_ fun d hd => hcalls d (List.mem_cons_of_mem _ hd)
    rw [FallbackManager.peer_step]
    exact h.seen (hcalls c List.mem_cons_self) hwindow

end

/-- After any run, a peer of which the resolver says that it has no IPv8+ gets a plain path until it says otherwise or a tunnel
works, as long as the path is not asked for when the degradation cache has run out since it was first asked for; at that moment
the path is a tunnel. -/
theorem plain_until_expired (opts : FallbackOptions) (before : List FallbackCall) (name : String) (r : Resolved)
    (hincapable : r.ipv8Capable = false) (calls : List FallbackCall) (hcalls : ∀ c ∈ calls, c.Barren name) :
    Along FallbackManager.step (PlainTo name) ((run FallbackManager.step { opts } before).1.step (.noteResolved name r)).1 calls ↔
      InWindow name opts.degradationCacheTtl.asSecs none calls := by
  have hinv : (run FallbackManager.step { opts } before).1.Inv opts :=
    invariant_run_all (fun m c h => h.step c) FallbackManager.inv_new before
  refine along_plainTo ?_ hcalls
  rw [FallbackManager.peer_noteResolved]
  exact PeerState.waits_noteResolved (hinv.peer name).ttl hincapable

/-- What the resolver says of a peer without IPv8+. -/
def sampleIncapable : Resolved := { tunnelEntry := some "main" }

/-- Within five minutes the path is plain. -/
theorem plain_until_expired_sample :
    Along FallbackManager.step (PlainTo "peer") ((({ opts := {} } : FallbackManager)).step (.noteResolved "peer" sampleIncapable)).1
      [.nextPath "peer" 0, .recordFailure "peer" .levelFailed 1, .nextPath "peer" 299] := by
  refine (plain_until_expired {} [] "peer" sampleIncapable rfl _ ?_).mpr ?_
  · intro c hc
    fin_cases hc
    · trivial
    · trivial
    · trivial
  · refine ⟨fun _ _ _ h => (by cases h), fun _ h => (by cases h), fun now h t ht => ?_, trivial⟩
    cases h
    cases ht
    decide

/-- After five minutes it is the tunnel. -/
theorem incapable_gets_tunnel :
    let m := (({ opts := {} } : FallbackManager).step (.noteResolved "peer" sampleIncapable)).1
    (run FallbackManager.step m [.nextPath "peer" 0, .nextPath "peer" 300]).2 = [some .plainTcp, some (.tunnel "main")] ∧
      ¬ Along FallbackManager.step (PlainTo "peer") m [.nextPath "peer" 0, .nextPath "peer" 300] := by
  intro m
  have hrun : (run FallbackManager.step m [.nextPath "peer" 0, .nextPath "peer" 300]).2 =
      [some .plainTcp, some (.tunnel "main")] := by
    decide +kernel
  refine ⟨hrun, fun hplain => ?_⟩
  have hlast : (((m.step (.nextPath "peer" 0)).1).step (.nextPath "peer" 300)).2 = some (.tunnel "main") :=
    (List.cons.inj (List.cons.inj hrun).2).1
  have hpath := hplain.2.1 300 rfl
  rw [hlast] at hpath
  rcases hpath with h | h <;> cases h

end IPv8Plus.Tunnel.Fallback
