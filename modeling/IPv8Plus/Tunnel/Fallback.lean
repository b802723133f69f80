import IPv8Plus.Lib.Cascade
import IPv8Plus.Lib.Maps
import IPv8Plus.Lib.Run

/-!
# The fallback cascade

`ipv8-tunnel/src/fallback.rs`: which path the next packet to a peer takes. Failures lead from the main entry over the
alternate ones to plain TCP and UDP, and back to the main entry when the degradation cache runs out. A manager keeps
this for many peers; its clock counts seconds. `ordered_cascade` says that for each of them it is a cascade.
-/

namespace IPv8Plus.Tunnel.Fallback
open Lib

/-- A time span of the standard library. -/
structure Duration where
  secs : UInt64
  nanos : UInt32
  deriving DecidableEq, Repr

def Duration.asSecs (d : Duration) : UInt64 := d.secs

/-- The options that the cascade reads; the other time spans are for its host. -/
structure FallbackOptions where
  maxRetries : UInt32 := 2
  degradationCacheTtl : Duration := ⟨300, 0⟩
  deriving DecidableEq, Repr

inductive Path where
  | tunnel (entry : String)
  | plainTcp
  | plainUdp
  deriving DecidableEq, Repr

inductive Level where
  | mainTunnel
  | altTunnel
  | plainTcp
  | plainUdp
  deriving DecidableEq, Repr

structure Resolved where
  tunnelEntry : Option String := none
  altEntries : List String := []
  ipv8Capable : Bool := false
  lastGoodEntry : Option String := none
  deriving DecidableEq, Repr

inductive Failure where
  | handshakeTimeout
  | firstPacketTimeout
  | levelFailed
  deriving DecidableEq, Repr

structure PeerState where
  resolved : Resolved
  level : Level
  failuresAtLevel : UInt32
  altIdx : Nat
  degradedAt : Option UInt64
  ttlSecs : UInt64
  maxRetries : UInt32
  deriving DecidableEq, Repr

namespace PeerState

/-- A peer that nothing is known about. -/
def new (opts : FallbackOptions) : PeerState where
  resolved := {}
  level := .mainTunnel
  failuresAtLevel := 0
  altIdx := 0
  degradedAt := none
  ttlSecs := opts.degradationCacheTtl.asSecs
  maxRetries := opts.maxRetries

def noteResolved (s : PeerState) (r : Resolved) : PeerState :=
  if r.ipv8Capable then
    { s with resolved := r, level := .mainTunnel, failuresAtLevel := 0, altIdx := 0, degradedAt := none }
  else { s with resolved := r, level := .plainTcp, degradedAt := none }

/-- The path at the level of a peer; the index of the alternate entry is clamped. -/
def path (s : PeerState) : Path :=
  match s.level with
  | .mainTunnel => .tunnel (s.resolved.tunnelEntry.getD "")
  | .altTunnel => .tunnel (s.resolved.altEntries[min s.altIdx (s.resolved.altEntries.length - 1)]?.getD "")
  | .plainTcp => .plainTcp
  | .plainUdp => .plainUdp

/-- `next_path`: a plain level is kept while the degradation cache is valid. -/
def nextPath (s : PeerState) (now : UInt64) : PeerState × Path :=
  if s.level = .plainTcp ∨ s.level = .plainUdp then
    match s.degradedAt with
    | some «at» =>
      if now.toNat - «at».toNat < s.ttlSecs.toNat then (s, s.path)
      else
        let s := { s with degradedAt := none, level := .mainTunnel, failuresAtLevel := 0, altIdx := 0 }
        (s, s.path)
    | none => ({ s with degradedAt := some now }, s.path)
  else (s, s.path)

/-- The next entry, or the plain levels. -/
def advance (s : PeerState) (now : UInt64) : PeerState :=
  let nextAlt := if s.level = .mainTunnel then 0 else s.altIdx + 1
  if nextAlt < s.resolved.altEntries.length then { s with failuresAtLevel := 0, altIdx := nextAlt, level := .altTunnel }
  else { s with failuresAtLevel := 0, altIdx := 0, level := .plainTcp, degradedAt := some now }

/-- `record_failure`: the counter wraps, as it does in a release build. -/
def recordFailure (s : PeerState) (f : Failure) (now : UInt64) : PeerState :=
  match s.level with
  | .plainTcp => { s with level := .plainUdp }
  | .plainUdp => s
  | _ =>
    if f = .firstPacketTimeout then s.advance now
    else
      let s := { s with failuresAtLevel := s.failuresAtLevel + 1 }
      if s.failuresAtLevel ≤ s.maxRetries then s else s.advance now

/-- `record_success`: an alternate entry that worked becomes the main one. -/
def recordSuccess (s : PeerState) : Path → PeerState
  | .tunnel entry =>
    let s := { s with
      level := .mainTunnel
      failuresAtLevel := 0
      degradedAt := none
      resolved := { s.resolved with lastGoodEntry := some entry } }
    if s.resolved.tunnelEntry ≠ some entry ∧ entry ∈ s.resolved.altEntries then
      { s with resolved := { s.resolved with tunnelEntry := some entry, altEntries := s.resolved.altEntries.erase entry } }
    else s
  | .plainTcp => s
  | .plainUdp => s

end PeerState

/-- The states of many peers. -/
structure FallbackManager where
  opts : FallbackOptions
  peers : Std.ExtTreeMap String PeerState := ∅

inductive FallbackCall where
  | noteResolved (peer : String) (r : Resolved)
  | nextPath (peer : String) (now : UInt64)
  | recordFailure (peer : String) (f : Failure) (now : UInt64)
  | recordSuccess (peer : String) (path : Path)

namespace FallbackManager

/-- `peer_mut`: a peer that is not known yet gets a state. -/
def peer (m : FallbackManager) (name : String) : PeerState := m.peers[name]?.getD (.new m.opts)

def set (m : FallbackManager) (name : String) (s : PeerState) : FallbackManager := { m with peers := m.peers.insert name s }

def step (m : FallbackManager) : FallbackCall → FallbackManager × Option Path
  | .noteResolved name r => (m.set name ((m.peer name).noteResolved r), none)
  | .nextPath name now =>
    let (s, path) := (m.peer name).nextPath now
    (m.set name s, some path)
  | .recordFailure name f now => (m.set name ((m.peer name).recordFailure f now), none)
  | .recordSuccess name path => (m.set name ((m.peer name).recordSuccess path), none)

end FallbackManager

/-! ## The cascade of a peer -/

/-- The cascade over the entries of a peer. -/
def cascade (opts : FallbackOptions) (main : String) (alts : List String) : Cascade String where
  entries := main :: alts
  retries := opts.maxRetries.toNat
  cooldown := opts.degradationCacheTtl.asSecs.toNat

/-- The path at a stage of the cascade. -/
def stagePath (C : Cascade String) : Cascade.Stage → Path
  | .trying i _ => .tunnel (C.entries[i]?.getD "")
  | .down false _ => .plainTcp
  | .down true _ => .plainUdp

/-- What a call does to the cascade of one peer. -/
def stageStep (C : Cascade String) (name : String) (stage : Cascade.Stage) : FallbackCall → Cascade.Stage
  | .nextPath peer now => if peer = name then C.ask now.toNat stage else stage
  | .recordFailure peer f now => if peer = name then C.fail (f = .firstPacketTimeout) now.toNat stage else stage
  | _ => stage

/-- The level, the index and the counter of a peer are those of a stage. -/
inductive PeerState.At (s : PeerState) : Cascade.Stage → Prop where
  | main {spent : Nat} (hlevel : s.level = .mainTunnel) (hspent : s.failuresAtLevel.toNat = spent) : s.At (.trying 0 spent)
  | alt {k spent : Nat} (hlevel : s.level = .altTunnel) (hidx : s.altIdx = k) (hlt : k < s.resolved.altEntries.length)
      (hspent : s.failuresAtLevel.toNat = spent) : s.At (.trying (k + 1) spent)
  | tcp {since : UInt64} (hlevel : s.level = .plainTcp) (hsince : s.degradedAt = some since) : s.At (.down false since.toNat)
  | udp {since : UInt64} (hlevel : s.level = .plainUdp) (hsince : s.degradedAt = some since) : s.At (.down true since.toNat)

/-- A peer with these entries and the options of its manager is at this stage. -/
structure PeerState.Tracks (opts : FallbackOptions) (main : String) (alts : List String) (s : PeerState)
    (stage : Cascade.Stage) : Prop where
  entry : s.resolved.tunnelEntry = some main
  alts : s.resolved.altEntries = alts
  ttl : s.ttlSecs = opts.degradationCacheTtl.asSecs
  retries : s.maxRetries = opts.maxRetries
  stage : s.At stage

section
variable {opts : FallbackOptions} {main : String} {alts : List String} {s : PeerState} {stage : Cascade.Stage} {now : UInt64}
  {f : Failure}

/-- The path of a peer is the path of its stage. -/
lemma PeerState.Tracks.path (h : s.Tracks opts main alts stage) : s.path = stagePath (cascade opts main alts) stage := by
  unfold PeerState.path
  cases h.stage with
  | main hlevel hspent =>
    rw [hlevel]
    dsimp only
    rw [h.entry]
    rfl
  | @alt k spent hlevel hidx hlt hspent =>
    have hmin : min s.altIdx (s.resolved.altEntries.length - 1) = k := by
      rw [hidx]
      omega
    rw [hlevel]
    dsimp only
    rw [hmin, h.alts]
    rfl
  | tcp hlevel hsince =>
    rw [hlevel]
    rfl
  | udp hlevel hsince =>
    rw [hlevel]
    rfl

/-- Asking for the path. -/
lemma PeerState.Tracks.nextPath (h : s.Tracks opts main alts stage) :
    (s.nextPath now).1.Tracks opts main alts ((cascade opts main alts).ask now.toNat stage) ∧
      (s.nextPath now).2 = stagePath (cascade opts main alts) ((cascade opts main alts).ask now.toNat stage) := by
  have hstay : ∀ stage', s.Tracks opts main alts stage' → s.nextPath now = (s, s.path) →
      (s.nextPath now).1.Tracks opts main alts stage' ∧ (s.nextPath now).2 = stagePath (cascade opts main alts) stage' := by
    intro stage' h heq
    rw [heq]
    exact ⟨h, h.path⟩
  have hplain : ∀ since again, (s.level = .plainTcp ∨ s.level = .plainUdp) → s.degradedAt = some since →
      s.Tracks opts main alts (.down again since.toNat) → (s.nextPath now).1.Tracks opts main alts
        ((cascade opts main alts).ask now.toNat (.down again since.toNat)) ∧ (s.nextPath now).2 =
          stagePath (cascade opts main alts) ((cascade opts main alts).ask now.toNat (.down again since.toNat)) := by
    intro since again hlevel hsince h
    have hcool : (cascade opts main alts).cooldown = s.ttlSecs.toNat := by
      rw [h.ttl]
      rfl
    have hask : (cascade opts main alts).ask now.toNat (.down again since.toNat) =
        if now.toNat - since.toNat < s.ttlSecs.toNat then .down again since.toNat else .trying 0 0 := by
      rw [← hcool]
      rfl
    rw [hask]
    split
    · next hvalid =>
      refine hstay _ h ?_
      unfold PeerState.nextPath
      rw [if_pos hlevel, hsince]
      exact if_pos hvalid
    · next hvalid =>
      have hback : (s.nextPath now).1.Tracks opts main alts (.trying 0 0) ∧ (s.nextPath now).2 = (s.nextPath now).1.path := by
        unfold PeerState.nextPath
        rw [if_pos hlevel, hsince]
        dsimp only
        rw [if_neg hvalid]
        exact ⟨⟨h.entry, h.alts, h.ttl, h.retries, .main rfl rfl⟩, rfl⟩
      exact ⟨hback.1, hback.2.trans hback.1.path⟩
  have htunnel : ∀ i spent, stage = .trying i spent → (s.level = .mainTunnel ∨ s.level = .altTunnel) →
      (s.nextPath now).1.Tracks opts main alts ((cascade opts main alts).ask now.toNat stage) ∧
        (s.nextPath now).2 = stagePath (cascade opts main alts) ((cascade opts main alts).ask now.toNat stage) := by
    rintro i spent rfl hlevel
    refine hstay _ h ?_
    unfold PeerState.nextPath
    refine if_neg ?_
    rcases hlevel with hlevel | hlevel
    · rw [hlevel]
      decide
    · rw [hlevel]
      decide
  cases h.stage with
  | main hlevel hspent => exact htunnel _ _ rfl (.inl hlevel)
  | alt hlevel hidx hlt hspent => exact htunnel _ _ rfl (.inr hlevel)
  | tcp hlevel hsince => exact hplain _ false (.inl hlevel) hsince h
  | udp hlevel hsince => exact hplain _ true (.inr hlevel) hsince h

/-- The next entry. -/
lemma PeerState.Tracks.advance {i spent : Nat} (h : s.Tracks opts main alts (.trying i spent)) :
    (s.advance now).Tracks opts main alts ((cascade opts main alts).next i now.toNat) := by
  have hlen : (cascade opts main alts).entries.length = s.resolved.altEntries.length + 1 := by
    rw [h.alts]
    rfl
  have hidx : (if s.level = .mainTunnel then 0 else s.altIdx + 1) = i := by
    cases h.stage with
    | main hlevel hspent => exact if_pos hlevel
    | alt hlevel hidx hlt hspent =>
      rw [hlevel, if_neg (by decide), hidx]
  unfold PeerState.advance Cascade.next
  rw [hidx, hlen]
  dsimp only
  by_cases hroom : i < s.resolved.altEntries.length
  · rw [if_pos hroom, if_pos (by omega)]
    exact ⟨h.entry, h.alts, h.ttl, h.retries, .alt rfl rfl hroom rfl⟩
  · rw [if_neg hroom, if_neg (by omega)]
    exact ⟨h.entry, h.alts, h.ttl, h.retries, .tcp rfl rfl⟩

/-- A failure. The counter does not wrap. -/
lemma PeerState.Tracks.recordFailure (hretries : opts.maxRetries.toNat + 1 < 2 ^ 32) (h : s.Tracks opts main alts stage)
    (hspent : ∀ i spent, stage = .trying i spent → spent ≤ opts.maxRetries.toNat) :
    (s.recordFailure f now).Tracks opts main alts ((cascade opts main alts).fail (f = .firstPacketTimeout) now.toNat stage) := by
  have htunnel : ∀ i spent, stage = .trying i spent → (s.level = .mainTunnel ∨ s.level = .altTunnel) →
      s.failuresAtLevel.toNat = spent → (∀ n : UInt32, n.toNat = spent + 1 →
        { s with failuresAtLevel := n }.Tracks opts main alts (.trying i (spent + 1))) →
      (s.recordFailure f now).Tracks opts main alts ((cascade opts main alts).fail (f = .firstPacketTimeout) now.toNat stage) := by
    rintro i spent rfl hlevel hcount hmore
    have hle := hspent i spent rfl
    have hnext : (s.failuresAtLevel + 1).toNat = spent + 1 := by
      rw [UInt32.toNat_add, hcount]
      exact Nat.mod_eq_of_lt (by change spent + 1 < 2 ^ 32; omega)
    have hadvance : (s.recordFailure f now) = if f = .firstPacketTimeout then s.advance now
        else if s.failuresAtLevel + 1 ≤ s.maxRetries then { s with failuresAtLevel := s.failuresAtLevel + 1 }
        else { s with failuresAtLevel := s.failuresAtLevel + 1 }.advance now := by
      unfold PeerState.recordFailure
      rcases hlevel with hlevel | hlevel
      · rw [hlevel]
      · rw [hlevel]
    have hbudget : s.failuresAtLevel + 1 ≤ s.maxRetries ↔ ¬ opts.maxRetries.toNat ≤ spent := by
      rw [UInt32.le_iff_toNat_le, hnext, h.retries]
      omega
    have hfail : (cascade opts main alts).fail (f = .firstPacketTimeout) now.toNat (.trying i spent) =
        if f = .firstPacketTimeout ∨ opts.maxRetries.toNat ≤ spent then (cascade opts main alts).next i now.toNat
        else .trying i (spent + 1) := by
      simp only [Cascade.fail, decide_eq_true_eq]
      rfl
    rw [hadvance, hfail]
    by_cases hhard : f = .firstPacketTimeout
    · rw [if_pos hhard, if_pos (.inl hhard)]
      exact h.advance
    · rw [if_neg hhard]
      by_cases hroom : s.failuresAtLevel + 1 ≤ s.maxRetries
      · rw [if_pos hroom, if_neg (not_or.mpr ⟨hhard, hbudget.mp hroom⟩)]
        exact hmore _ hnext
      · rw [if_neg hroom, if_pos (.inr (not_not.mp fun hnot => hroom (hbudget.mpr hnot)))]
        exact (hmore _ hnext).advance
  cases h.stage with
  | main hlevel hcount =>
    exact htunnel _ _ rfl (.inl hlevel) hcount fun n hn => ⟨h.entry, h.alts, h.ttl, h.retries, .main hlevel hn⟩
  | alt hlevel hidx hlt hcount =>
    exact htunnel _ _ rfl (.inr hlevel) hcount fun n hn => ⟨h.entry, h.alts, h.ttl, h.retries, .alt hlevel hidx hlt hn⟩
  | tcp hlevel hsince =>
    unfold PeerState.recordFailure
    rw [hlevel]
    exact ⟨h.entry, h.alts, h.ttl, h.retries, .udp rfl hsince⟩
  | udp hlevel hsince =>
    unfold PeerState.recordFailure
    rw [hlevel]
    exact ⟨h.entry, h.alts, h.ttl, h.retries, .udp hlevel hsince⟩

/-- The counter of a stage stays within the budget. -/
def Within (C : Cascade String) (stage : Cascade.Stage) : Prop := ∀ i spent, stage = .trying i spent → spent ≤ C.retries

lemma Within.fail {C : Cascade String} {hard : Bool} {now : Nat} (stage : Cascade.Stage) : Within C (C.fail hard now stage) := by
  cases stage with
  | down again since =>
    intro i spent h
    cases h
  | trying i₀ spent₀ =>
    rw [Cascade.fail]
    split
    · split
      · intro i spent h
        cases h
        exact Nat.zero_le _
      · intro i spent h
        cases h
    · next hroom =>
      rw [not_or] at hroom
      intro i spent h
      cases h
      omega

lemma Within.ask {C : Cascade String} {now : Nat} {stage : Cascade.Stage} (h : Within C stage) : Within C (C.ask now stage) := by
  cases stage with
  | trying i spent => exact h
  | down again since =>
    rw [Cascade.ask]
    split
    · exact h
    · intro i spent h
      cases h
      exact Nat.zero_le _

/-! ## Managers -/

/-- What every peer has of its manager, and an index that is inside the list of alternate entries. -/
structure PeerState.Sound (opts : FallbackOptions) (s : PeerState) : Prop where
  ttl : s.ttlSecs = opts.degradationCacheTtl.asSecs
  retries : s.maxRetries = opts.maxRetries
  alt : s.level = .altTunnel → s.altIdx < s.resolved.altEntries.length

lemma PeerState.sound_new : (PeerState.new opts).Sound opts := ⟨rfl, rfl, fun h => by cases h⟩

lemma PeerState.Sound.noteResolved (h : s.Sound opts) (r : Resolved) : (s.noteResolved r).Sound opts := by
  unfold PeerState.noteResolved
  split
  · exact ⟨h.ttl, h.retries, fun hlevel => by cases hlevel⟩
  · exact ⟨h.ttl, h.retries, fun hlevel => by cases hlevel⟩

lemma PeerState.Sound.nextPath (h : s.Sound opts) : (s.nextPath now).1.Sound opts := by
  unfold PeerState.nextPath
  split
  · next hplain =>
    have hlevel : s.level ≠ .altTunnel := by
      rintro hlevel
      rw [hlevel] at hplain
      exact absurd hplain (by decide)
    split
    · dsimp only
      split
      · exact h
      · exact ⟨h.ttl, h.retries, fun hlevel => by cases hlevel⟩
    · exact ⟨h.ttl, h.retries, fun halt => absurd halt hlevel⟩
  · exact h

lemma PeerState.Sound.advance (h : s.Sound opts) : (s.advance now).Sound opts := by
  unfold PeerState.advance
  generalize (if s.level = .mainTunnel then 0 else s.altIdx + 1) = nextAlt
  dsimp only
  split
  · next hroom => exact ⟨h.ttl, h.retries, fun _ => hroom⟩
  · exact ⟨h.ttl, h.retries, fun hlevel => by cases hlevel⟩

lemma PeerState.Sound.recordFailure (h : s.Sound opts) : (s.recordFailure f now).Sound opts := by
  unfold PeerState.recordFailure
  split
  · exact ⟨h.ttl, h.retries, fun hlevel => by cases hlevel⟩
  · exact h
  split
  · exact h.advance
  dsimp only
  have hcount : { s with failuresAtLevel := s.failuresAtLevel + 1 }.Sound opts := ⟨h.ttl, h.retries, h.alt⟩
  split
  · exact hcount
  · exact hcount.advance

lemma PeerState.Sound.recordSuccess (h : s.Sound opts) (path : Path) : (s.recordSuccess path).Sound opts := by
  cases path with
  | tunnel entry =>
    unfold PeerState.recordSuccess
    dsimp only
    split
    · exact ⟨h.ttl, h.retries, fun hlevel => by cases hlevel⟩
    · exact ⟨h.ttl, h.retries, fun hlevel => by cases hlevel⟩
  | plainTcp => exact h
  | plainUdp => exact h

/-- What a call does to the state of one peer. -/
def PeerState.seen (name : String) (s : PeerState) : FallbackCall → PeerState
  | .noteResolved peer r => if peer = name then s.noteResolved r else s
  | .nextPath peer now => if peer = name then (s.nextPath now).1 else s
  | .recordFailure peer f now => if peer = name then s.recordFailure f now else s
  | .recordSuccess peer path => if peer = name then s.recordSuccess path else s

namespace FallbackManager

/-- All peers are sound. -/
structure Inv (opts : FallbackOptions) (m : FallbackManager) : Prop where
  options : m.opts = opts
  peer : ∀ name, (m.peer name).Sound opts

variable {m : FallbackManager} {name : String}

lemma peer_set {name' : String} : (m.set name s).peer name' = if name = name' then s else m.peer name' := by
  unfold peer set
  rw [getElem?_insert_ite]
  by_cases heq : name = name'
  · rw [if_pos heq, if_pos heq]
    rfl
  · rw [if_neg heq, if_neg heq]

/-- Calls for other peers leave a peer alone. -/
lemma peer_step (c : FallbackCall) : (m.step c).1.peer name = (m.peer name).seen name c := by
  have hset : ∀ (peer : String) (f : PeerState → PeerState),
      (m.set peer (f (m.peer peer))).peer name = if peer = name then f (m.peer name) else m.peer name := by
    intro peer f
    rw [peer_set]
    split
    · next heq => rw [heq]
    · rfl
  cases c with
  | noteResolved peer r => exact hset peer (·.noteResolved r)
  | nextPath peer now => exact hset peer fun s => (s.nextPath now).1
  | recordFailure peer f now => exact hset peer (·.recordFailure f now)
  | recordSuccess peer path => exact hset peer (·.recordSuccess path)

lemma peer_noteResolved (r : Resolved) : (m.step (.noteResolved name r)).1.peer name = (m.peer name).noteResolved r :=
  (peer_step _).trans (if_pos rfl)

lemma Inv.set (h : m.Inv opts) (hs : s.Sound opts) : (m.set name s).Inv opts := by
  refine ⟨h.options, fun name' => ?_⟩
  rw [peer_set]
  split
  · exact hs
  · exact h.peer name'

lemma inv_new : ({ opts } : FallbackManager).Inv opts := by
  refine ⟨rfl, fun name => ?_⟩
  have hpeer : ({ opts } : FallbackManager).peer name = .new opts := by
    unfold peer
    rw [Std.ExtTreeMap.getElem?_empty]
    rfl
  rw [hpeer]
  exact PeerState.sound_new

lemma Inv.step (h : m.Inv opts) (c : FallbackCall) : (m.step c).1.Inv opts := by
  cases c with
  | noteResolved name r => exact h.set ((h.peer name).noteResolved r)
  | nextPath name now => exact h.set (h.peer name).nextPath
  | recordFailure name f now => exact h.set (h.peer name).recordFailure
  | recordSuccess name path => exact h.set ((h.peer name).recordSuccess path)

end FallbackManager

/-! ## Runs -/

/-- No success of the peer and nothing new about it from the resolver. -/
def FallbackCall.Tries (name : String) : FallbackCall → Prop
  | .noteResolved peer _ => peer ≠ name
  | .recordSuccess peer _ => peer ≠ name
  | _ => True

/-- A manager beside the cascade of one of its peers. -/
def trackStep (C : Cascade String) (name : String) (w : FallbackManager × Cascade.Stage) (c : FallbackCall) :
    (FallbackManager × Cascade.Stage) × Option Path := (((w.1.step c).1, stageStep C name w.2 c), (w.1.step c).2)

/-- The peer is at the stage of its cascade. -/
structure Tracked (opts : FallbackOptions) (name main : String) (alts : List String) (w : FallbackManager × Cascade.Stage) :
    Prop where
  inv : w.1.Inv opts
  tracks : (w.1.peer name).Tracks opts main alts w.2
  within : Within (cascade opts main alts) w.2

variable {name : String} {w : FallbackManager × Cascade.Stage}

/-- The peer and its cascade take a call together; a call for another peer changes neither. -/
lemma Tracked.seen (hretries : opts.maxRetries.toNat + 1 < 2 ^ 32) (h : Tracked opts name main alts w) {c : FallbackCall}
    (hc : c.Tries name) :
    ((w.1.peer name).seen name c).Tracks opts main alts (stageStep (cascade opts main alts) name w.2 c) ∧
      Within (cascade opts main alts) (stageStep (cascade opts main alts) name w.2 c) := by
  cases c with
  | noteResolved peer r =>
    unfold PeerState.seen stageStep
    dsimp only
    rw [if_neg hc]
    exact ⟨h.tracks, h.within⟩
  | recordSuccess peer path =>
    unfold PeerState.seen stageStep
    dsimp only
    rw [if_neg hc]
    exact ⟨h.tracks, h.within⟩
  | nextPath peer now =>
    unfold PeerState.seen stageStep
    dsimp only
    split
    · exact ⟨h.tracks.nextPath.1, h.within.ask⟩
    · exact ⟨h.tracks, h.within⟩
  | recordFailure peer f now =>
    unfold PeerState.seen stageStep
    dsimp only
    split
    · exact ⟨h.tracks.recordFailure hretries h.within, Within.fail w.2⟩
    · exact ⟨h.tracks, h.within⟩

lemma Tracked.step (hretries : opts.maxRetries.toNat + 1 < 2 ^ 32) (h : Tracked opts name main alts w) {c : FallbackCall}
    (hc : c.Tries name) : Tracked opts name main alts (trackStep (cascade opts main alts) name w c).1 ∧
      ∀ now, c = .nextPath name now → (w.1.step c).2 =
        some (stagePath (cascade opts main alts) ((cascade opts main alts).ask now.toNat w.2)) := by
  obtain ⟨htracks, hwithin⟩ := h.seen hretries hc
  rw [← FallbackManager.peer_step] at htracks
  refine ⟨⟨h.inv.step c, htracks, hwithin⟩, ?_⟩
  rintro now rfl
  exact congrArg some h.tracks.nextPath.2

/-- A peer that has just been resolved is at the start of its cascade. -/
lemma tracked_noteResolved {m : FallbackManager} {r : Resolved} (h : m.Inv opts) (hmain : r.tunnelEntry = some main)
    (hcapable : r.ipv8Capable = true) :
    Tracked opts name main r.altEntries ((m.step (.noteResolved name r)).1, .trying 0 0) := by
  have hsound := h.peer name
  refine ⟨h.step _, ?_, ?_⟩
  · rw [FallbackManager.peer_noteResolved]
    unfold PeerState.noteResolved
    rw [if_pos hcapable]
    exact ⟨hmain, rfl, hsound.ttl, hsound.retries, .main rfl rfl⟩
  · intro i spent h
    cases h
    exact Nat.zero_le _

lemma Tracked.after (hretries : opts.maxRetries.toNat + 1 < 2 ^ 32) (h : Tracked opts name main alts w) {calls : List FallbackCall}
    (hcalls : ∀ c ∈ calls, c.Tries name) :
    Tracked opts name main alts (run (trackStep (cascade opts main alts) name) w calls).1 := by
  refine invariant_run (P := fun _ c => c.Tries name) (fun w c h hc => (h.step hretries hc).1) h ?_
  exact along_of_forall hcalls

/-- A failure as its cascade sees it. -/
def cascadeFailure (f : Failure × UInt64) : Bool × Nat := (decide (f.1 = .firstPacketTimeout), f.2.toNat)

/-- The failures of a peer, one after the other. -/
lemma run_failures (C : Cascade String) (failures : List (Failure × UInt64)) :
    (run (trackStep C name) w (failures.map fun f => .recordFailure name f.1 f.2)).1.2 =
      C.failAll w.2 (failures.map cascadeFailure) := by
  -- the two sides take the failures in step, whatever the manager does meanwhile
  induction failures generalizing w with
  | nil => rfl
  | cons f failures ih =>
    have hstage : stageStep C name w.2 (.recordFailure name f.1 f.2) = C.fail (cascadeFailure f).1 (cascadeFailure f).2 w.2 :=
      if_pos rfl
    rw [List.map_cons, run_cons, ih, List.map_cons, Cascade.failAll, Cascade.failAll, List.foldl_cons, ← hstage]
    rfl

/-- Calls on the peer that come before the cooldown is over leave its cascade down. -/
lemma down_step {C : Cascade String} {again : Bool} {since : Nat} {c : FallbackCall} (hdown : w.2 = .down again since)
    (htime : ∀ now, c = .nextPath name now → now.toNat - since < C.cooldown) :
    ∃ again', stageStep C name w.2 c = .down again' since := by
  -- only a question of this peer can start its cascade anew
  rw [hdown]
  cases c with
  | noteResolved peer r => exact ⟨again, rfl⟩
  | recordSuccess peer path => exact ⟨again, rfl⟩
  | nextPath peer now =>
    unfold stageStep
    dsimp only
    split
    · next hname =>
      refine ⟨again, if_pos (htime now ?_)⟩
      rw [hname]
    · exact ⟨again, rfl⟩
  | recordFailure peer f now =>
    unfold stageStep
    dsimp only
    split
    · exact ⟨true, rfl⟩
    · exact ⟨again, rfl⟩

end

/-- What a resolved peer goes through: the paths are those of the cascade; entries are left in order, each when it is
exhausted; and no tunnel is tried while the cascade is down. -/
structure Ordered (opts : FallbackOptions) (name : String) (C : Cascade String) (m : FallbackManager)
    (calls : List FallbackCall) : Prop where
  paths : Along (trackStep C name) (fun w c => ∀ now, c = .nextPath name now →
    (w.1.step c).2 = some (stagePath C (C.ask now.toNat w.2))) (m, .trying 0 0) calls
  order : ∀ (segments : List (List (Failure × UInt64))) (rest : List (Failure × UInt64)) (now : UInt64),
    (∀ segment ∈ segments, Cascade.Exhausts C.retries (segment.map fun f => decide (f.1 = .firstPacketTimeout))) →
    (∀ f ∈ rest, f.1 ≠ .firstPacketTimeout) → rest.length ≤ C.retries → segments.length < C.entries.length →
    let failures := (segments.flatten ++ rest).map fun f => FallbackCall.recordFailure name f.1 f.2
    (((run FallbackManager.step m failures).1).step (.nextPath name now)).2 = some (.tunnel (C.entries[segments.length]?.getD ""))
  cools : ∀ first rest again since, calls = first ++ rest →
    (run (trackStep C name) (m, .trying 0 0) first).1.2 = .down again since →
    (∀ now, .nextPath name now ∈ rest → now.toNat - since < C.cooldown) →
    Along (trackStep C name) (fun w c => ∀ now, c = .nextPath name now →
      (w.1.step c).2 = some .plainTcp ∨ (w.1.step c).2 = some .plainUdp) (run (trackStep C name) (m, .trying 0 0) first).1 rest

section
variable {opts : FallbackOptions} {main : String} {alts : List String} {name : String} {m : FallbackManager}

lemma Tracked.paths (hretries : opts.maxRetries.toNat + 1 < 2 ^ 32) {w : FallbackManager × Cascade.Stage}
    (h : Tracked opts name main alts w) {calls : List FallbackCall} (hcalls : ∀ c ∈ calls, c.Tries name) :
    Along (trackStep (cascade opts main alts) name) (fun w c => ∀ now, c = .nextPath name now →
      (w.1.step c).2 = some (stagePath (cascade opts main alts) ((cascade opts main alts).ask now.toNat w.2))) w calls :=
  Along.of_invariant (P := fun _ c => c.Tries name) (fun _ _ h hc => (h.step hretries hc).1)
    (fun _ _ h hc => (h.step hretries hc).2) h (along_of_forall hcalls)

/-- The manager in a run beside the cascade is the manager in the run. -/
lemma run_track_fst (C : Cascade String) (w : FallbackManager × Cascade.Stage) (calls : List FallbackCall) :
    (run (trackStep C name) w calls).1.1 = (run FallbackManager.step w.1 calls).1 := by
  induction calls generalizing w with
  | nil => rfl
  | cons c calls ih =>
    rw [run_cons, run_cons]
    exact ih _

lemma Tracked.order (hretries : opts.maxRetries.toNat + 1 < 2 ^ 32) (h : Tracked opts name main alts (m, .trying 0 0))
    {segments : List (List (Failure × UInt64))} {rest : List (Failure × UInt64)} (now : UInt64)
    (hsegments : ∀ segment ∈ segments,
      Cascade.Exhausts opts.maxRetries.toNat (segment.map fun f => decide (f.1 = .firstPacketTimeout)))
    (hsoft : ∀ f ∈ rest, f.1 ≠ .firstPacketTimeout) (hrest : rest.length ≤ opts.maxRetries.toNat)
    (hlen : segments.length < alts.length + 1) :
    let failures := (segments.flatten ++ rest).map fun f => FallbackCall.recordFailure name f.1 f.2
    (((run FallbackManager.step m failures).1).step (.nextPath name now)).2 =
      some (.tunnel ((main :: alts)[segments.length]?.getD "")) := by
  intro failures
  have htries : ∀ c ∈ failures, c.Tries name := by
    intro c hc
    obtain ⟨f, -, rfl⟩ := List.mem_map.mp hc
    trivial
  have hrun := h.after hretries htries
  -- the stage is counted on the cascade alone
  have hstage : (run (trackStep (cascade opts main alts) name) (m, .trying 0 0) failures).1.2 =
      .trying segments.length rest.length := by
    have horder := @Cascade.failAll_order _ (cascade opts main alts) 0 (segments.map (List.map cascadeFailure))
      (rest.map cascadeFailure) ?_ ?_ ?_ ?_
    · rw [List.length_map, List.length_map, Nat.zero_add] at horder
      rw [run_failures, List.map_append, List.map_flatten]
      exact horder
    · intro segment hsegment
      obtain ⟨segment, hmem, rfl⟩ := List.mem_map.mp hsegment
      rw [List.map_map]
      exact hsegments segment hmem
    · intro f hf
      obtain ⟨f, hmem, rfl⟩ := List.mem_map.mp hf
      exact decide_eq_false (hsoft f hmem)
    · rw [List.length_map]
      exact hrest
    · rw [List.length_map, Nat.zero_add]
      exact hlen
  have hpath := (@Tracked.step _ _ _ _ _ hretries hrun (.nextPath name now) trivial).2 now rfl
  rw [run_track_fst, hstage] at hpath
  exact hpath

lemma Tracked.cools (hretries : opts.maxRetries.toNat + 1 < 2 ^ 32) {w : FallbackManager × Cascade.Stage}
    (h : Tracked opts name main alts w) {calls : List FallbackCall} (hcalls : ∀ c ∈ calls, c.Tries name) {again : Bool}
    {since : Nat} (hdown : w.2 = .down again since)
    (htime : ∀ now, .nextPath name now ∈ calls → now.toNat - since < (cascade opts main alts).cooldown) :
    Along (trackStep (cascade opts main alts) name) (fun w c => ∀ now, c = .nextPath name now →
      (w.1.step c).2 = some .plainTcp ∨ (w.1.step c).2 = some .plainUdp) w calls := by
  refine Along.of_invariant (I := fun w => Tracked opts name main alts w ∧ ∃ again, w.2 = .down again since)
    (P := fun _ c => c.Tries name ∧ ∀ now, c = .nextPath name now → now.toNat - since < (cascade opts main alts).cooldown)
    ?_ ?_ ⟨h, again, hdown⟩ ?_
  · rintro w c ⟨h, again, hdown⟩ ⟨htries, htime⟩
    exact ⟨(h.step hretries htries).1, down_step hdown htime⟩
  · rintro w c ⟨h, again, hdown⟩ ⟨htries, htime⟩ now hc
    have hpath := (h.step hretries htries).2 now hc
    have hask : (cascade opts main alts).ask now.toNat (.down again since) = .down again since := if_pos (htime now hc)
    rw [hpath, hdown, hask]
    cases again with
    | false => exact .inl rfl
    | true => exact .inr rfl
  · refine along_of_forall (P := fun c => c.Tries name ∧
      ∀ now, c = .nextPath name now → now.toNat - since < (cascade opts main alts).cooldown) fun c hc => ⟨hcalls c hc, ?_⟩
    rintro now rfl
    exact htime now hc

end

/-- From every state of a manager, a peer that is resolved with tunnel support goes through its cascade until it succeeds
or is resolved again, whatever happens to other peers. The index of every peer is inside its list. -/
theorem ordered_cascade (opts : FallbackOptions) (hretries : opts.maxRetries.toNat + 1 < 2 ^ 32) (before : List FallbackCall)
    (name main : String) (r : Resolved) (hmain : r.tunnelEntry = some main) (hcapable : r.ipv8Capable = true)
    (calls : List FallbackCall) (hcalls : ∀ c ∈ calls, c.Tries name) :
    let m := (run FallbackManager.step { opts } before).1
    Ordered opts name (cascade opts main r.altEntries) (m.step (.noteResolved name r)).1 calls ∧
      ∀ peer, (m.peer peer).level = .altTunnel → (m.peer peer).altIdx < (m.peer peer).resolved.altEntries.length := by
  intro m
  have hinv : m.Inv opts := invariant_run_all (fun m c h => h.step c) FallbackManager.inv_new before
  have htracked := @tracked_noteResolved opts main name m r hinv hmain hcapable
  refine ⟨⟨htracked.paths hretries hcalls, ?_, ?_⟩, fun peer => (hinv.peer peer).alt⟩
  · intro segments rest now hsegments hsoft hrest hlen
    exact htracked.order hretries now hsegments hsoft hrest hlen
  · rintro first rest again since rfl hdown htime
    have hfirst := htracked.after hretries fun c hc => hcalls c (List.mem_append_left _ hc)
    exact hfirst.cools hretries (fun c hc => hcalls c (List.mem_append_right _ hc)) hdown htime

/-- What the resolver says of a peer with one alternate entry. -/
def sampleResolved : Resolved := { tunnelEntry := some "main", altEntries := ["alt"], ipv8Capable := true }

/-- Three timeouts lead to the alternate entry. -/
theorem ordered_cascade_sample :
    let m := (({ opts := {} } : FallbackManager).step (.noteResolved "peer" sampleResolved)).1
    let timeout := FallbackCall.recordFailure "peer" .handshakeTimeout 0
    Ordered {} "peer" (cascade {} "main" ["alt"]) m [timeout, timeout, timeout, .nextPath "peer" 0] ∧
      ((run FallbackManager.step m [timeout, timeout, timeout]).1.step (.nextPath "peer" 0)).2 = some (.tunnel "alt") := by
  intro m timeout
  have hcalls : ∀ c ∈ [timeout, timeout, timeout, FallbackCall.nextPath "peer" 0], c.Tries "peer" := by
    intro c hc
    fin_cases hc
    · trivial
    · trivial
    · trivial
    · trivial
  have hordered := (ordered_cascade {} (by decide) [] "peer" "main" sampleResolved rfl rfl _ hcalls).1
  refine ⟨hordered, ?_⟩
  have hexhausts : Cascade.Exhausts 2 [false, false, false] := .inl rfl
  refine hordered.order [[(.handshakeTimeout, 0), (.handshakeTimeout, 0), (.handshakeTimeout, 0)]] [] 0 ?_ ?_ ?_ ?_
  · intro segment hsegment
    cases List.mem_singleton.mp hsegment
    exact hexhausts
  · intro f hf
    exact absurd hf List.not_mem_nil
  · exact Nat.zero_le _
  · decide

lemma never_left (m : FallbackManager) (hlevel : (m.peer "peer").level = .mainTunnel)
    (hretries : (m.peer "peer").maxRetries = 0xFFFFFFFF) (n : Nat) :
    ((run FallbackManager.step m (List.replicate n (.recordFailure "peer" .handshakeTimeout 0))).1.peer "peer").level = .mainTunnel := by
  have hrun := @invariant_run _ _ _ FallbackManager.step (fun _ c => c = .recordFailure "peer" .handshakeTimeout 0)
    (fun m => (m.peer "peer").level = .mainTunnel ∧ (m.peer "peer").maxRetries = 0xFFFFFFFF) m
    (List.replicate n (.recordFailure "peer" .handshakeTimeout 0)) ?_ ⟨hlevel, hretries⟩
    (along_of_forall (P := fun c => c = FallbackCall.recordFailure "peer" .handshakeTimeout 0) fun c hc => List.eq_of_mem_replicate hc)
  · exact hrun.1
  -- the counter wraps to zero before it exceeds the greatest number of retries
  rintro m c ⟨hlevel, hretries⟩ rfl
  have hpeer : (m.step (.recordFailure "peer" .handshakeTimeout 0)).1.peer "peer" =
      (m.peer "peer").recordFailure .handshakeTimeout 0 := FallbackManager.peer_set.trans (if_pos rfl)
  have hle : (m.peer "peer").failuresAtLevel + 1 ≤ (m.peer "peer").maxRetries := by
    rw [hretries, UInt32.le_iff_toNat_le]
    have hlt := ((m.peer "peer").failuresAtLevel + 1).toNat_lt
    exact Nat.le_of_lt_succ hlt
  have hne : Failure.handshakeTimeout ≠ .firstPacketTimeout := by decide
  rw [hpeer]
  unfold PeerState.recordFailure
  rw [hlevel]
  dsimp only
  rw [if_neg hne, if_pos hle]
  exact ⟨rfl, hretries⟩

/-- With a degradation cache of one and a half seconds the tunnel is tried after one. With the greatest number of retries
the counter wraps, and the main entry is not left after one failure more than this. -/
theorem cascade_breaks :
    (let opts : FallbackOptions := { degradationCacheTtl := ⟨1, 500000000⟩ }
     let m := (run FallbackManager.step { opts } [.noteResolved "peer" { sampleResolved with altEntries := [] },
       .recordFailure "peer" .firstPacketTimeout 0]).1
     (m.step (.nextPath "peer" 0)).2 = some .plainTcp ∧ (m.step (.nextPath "peer" 1)).2 = some (.tunnel "main") ∧
       1 * 10 ^ 9 < opts.degradationCacheTtl.secs.toNat * 10 ^ 9 + opts.degradationCacheTtl.nanos.toNat) ∧
    (let m := (({ opts := { maxRetries := 0xFFFFFFFF } } : FallbackManager).step (.noteResolved "peer" sampleResolved)).1
     ((run FallbackManager.step m (List.replicate (0xFFFFFFFF + 1) (.recordFailure "peer" .handshakeTimeout 0))).1.peer
       "peer").level = .mainTunnel) := by
  constructor
  · decide +kernel
  · exact never_left _ rfl rfl _

end IPv8Plus.Tunnel.Fallback
