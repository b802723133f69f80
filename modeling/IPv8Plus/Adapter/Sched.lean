import IPv8Plus.Lib.BigEndian

/-!
# Where a node sends

`Sched` of `wintun-node/src/main.rs`: the entry that a node sends its frames to, and the two ways in which a datagram
changes it. Instants are in nanoseconds.
-/

namespace IPv8Plus.Adapter
open Lib

inductive SocketAddr where
  | v4 (ip : BitVec 32) (port : UInt16)
  | v6 (ip : BitVec 128) (port : UInt16) (flowinfo scopeId : UInt32)
  deriving DecidableEq, Repr

inductive Transport where
  | tunnel (dest : SocketAddr)
  | plainUdp (dest : SocketAddr)
  deriving DecidableEq, Repr

def Transport.dest : Transport → SocketAddr
  | .tunnel dest => dest
  | .plainUdp dest => dest

/-- Ten seconds. -/
def roamMinInterval : Nat := 10 * 10 ^ 9

structure Sched where
  main : SocketAddr
  alt : Option SocketAddr
  transport : Transport
  attempt : Option (Bytes × UInt64 × SocketAddr)
  lastUnauthRoam : Option Nat
  mp : Bool
  deriving DecidableEq, Repr

/-- What is printed about a refresh. -/
inductive RefreshLog where
  | learnPeer (entry : SocketAddr)
  | migration (entry : SocketAddr)
  deriving DecidableEq, Repr

namespace Sched

/-- With two paths both entries are good. -/
def InEntrySet (s : Sched) («from» : SocketAddr) : Prop := s.mp = true ∧ (s.main = «from» ∨ s.alt = some «from»)

instance (s : Sched) («from» : SocketAddr) : Decidable (s.InEntrySet «from») := inferInstanceAs (Decidable (_ ∧ _))

/-- The entry becomes this address, also for the handshake that is tried. -/
def redirect (s : Sched) («from» : SocketAddr) : Sched :=
  { s with
    main := «from»
    transport := .tunnel «from»
    attempt := s.attempt.map fun (f, t0, _) => (f, t0, «from») }

/-- A tunnel goes to another address, that is no entry. -/
def Strays (s : Sched) («from» : SocketAddr) : Prop :=
  match s.transport with
  | .tunnel dest => dest ≠ «from» ∧ ¬ s.InEntrySet «from»
  | .plainUdp _ => False

instance (s : Sched) («from» : SocketAddr) : Decidable (s.Strays «from») := by
  unfold Strays
  split
  · infer_instance
  · infer_instance

/-- `strong_refresh`: for an authenticated frame, at once. -/
def strongRefresh (s : Sched) («from» : SocketAddr) (now : Nat) : Sched × Bool :=
  if s.Strays «from» then ({ s.redirect «from» with lastUnauthRoam := some now }, true) else (s, false)

/-- What `unauth_refresh` would change: a plain transport always. -/
def NeedsUpdate (s : Sched) («from» : SocketAddr) : Prop :=
  match s.transport with
  | .tunnel dest => dest ≠ «from» ∧ ¬ s.InEntrySet «from»
  | .plainUdp _ => True

instance (s : Sched) («from» : SocketAddr) : Decidable (s.NeedsUpdate «from») := by
  unfold NeedsUpdate
  split
  · infer_instance
  · infer_instance

/-- The last refresh is long enough ago. -/
def WindowOpen (s : Sched) (now : Nat) : Prop := ∀ t ∈ s.lastUnauthRoam, ¬ now - t < roamMinInterval

instance (s : Sched) (now : Nat) : Decidable (s.WindowOpen now) :=
  inferInstanceAs (Decidable (∀ t ∈ s.lastUnauthRoam, _))

/-- `unauth_refresh`: the schedule, the flag, and what is printed. The first frame is free, later ones are limited. -/
def unauthRefresh (s : Sched) («from» : SocketAddr) (learned allowFirstFrame : Bool) (now : Nat) :
    Sched × Bool × Option RefreshLog :=
  if ¬ s.NeedsUpdate «from» then (s, true, none)
  else if allowFirstFrame && !learned then (s.redirect «from», true, some (.learnPeer «from»))
  else if ¬ s.WindowOpen now then (s, learned, none)
  else ({ s with lastUnauthRoam := some now }.redirect «from», true, some (.migration «from»))

variable {s : Sched} {src : SocketAddr} {now : Nat} {learned : Bool}

lemma Strays.needsUpdate (h : s.Strays src) : s.NeedsUpdate src := by
  unfold Strays at h
  unfold NeedsUpdate
  cases htransport : s.transport with
  | tunnel dest =>
    rw [htransport] at h
    exact h
  | plainUdp dest => trivial

/-- A refresh changes the transport. -/
lemma NeedsUpdate.transport_ne (h : s.NeedsUpdate src) : s.transport ≠ .tunnel src := by
  unfold NeedsUpdate at h
  cases htransport : s.transport with
  | tunnel dest =>
    rw [htransport] at h
    intro heq
    cases heq
    exact h.1 rfl
  | plainUdp dest =>
    intro heq
    cases heq

/-- A refresh for the first frame, or for a later one outside of the window. -/
lemma unauthRefresh_of_update (h : s.NeedsUpdate src) (hallow : learned = false ∨ s.WindowOpen now) :
    (s.unauthRefresh src learned true now).1.transport = .tunnel src := by
  unfold unauthRefresh
  rw [if_neg (not_not.mpr h)]
  split
  · rfl
  · next hfirst =>
    have hlearned : learned ≠ false := by
      intro hlearned
      rw [hlearned] at hfirst
      exact hfirst rfl
    rw [if_neg (not_not.mpr (hallow.resolve_left hlearned))]
    rfl

/-- No refresh in any other case. -/
lemma unauthRefresh_of_not (h : ¬ (s.NeedsUpdate src ∧ (learned = false ∨ s.WindowOpen now))) :
    (s.unauthRefresh src learned true now).1 = s := by
  unfold unauthRefresh
  split
  · rfl
  next hneeds =>
  rw [not_and_or, not_or] at h
  obtain ⟨hlearned, hclosed⟩ := h.resolve_left hneeds
  have hlearned : learned = true := Bool.eq_true_of_not_eq_false hlearned
  rw [hlearned, if_neg (by decide), if_pos hclosed]

lemma strongRefresh_of_strays (h : s.Strays src) : (s.strongRefresh src now).1.transport = .tunnel src := by
  unfold strongRefresh
  rw [if_pos h]
  rfl

lemma strongRefresh_of_not (h : ¬ s.Strays src) : (s.strongRefresh src now).1 = s := by
  unfold strongRefresh
  rw [if_neg h]

end Sched

end IPv8Plus.Adapter
