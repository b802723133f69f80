import IPv8Plus.Lib.Moves
import IPv8Plus.Lib.Run
import IPv8Plus.WsNode.RelayHub

/-!
# Sessions of the relay

`relay_session` of `tools/ws-node/src/main.rs`, with any number of sessions that take their steps in any order: a session
connects, its first frame registers an address, then it routes what it receives until it ends. It unregisters its address
when the peer closes, but not when reading fails. A send finds a session dead when its writer task has dropped the receiver.

The order of the registrations, and who has been found dead, are kept beside the state of the code to say which session the
route of an address should lead to.
-/

namespace IPv8Plus.WsNode
open Lib Codec Routing Tunnel

inductive Phase where
  | new
  | connected
  | serving (addr : IPv8Address)
  | ended
  deriving DecidableEq, Repr

structure Session where
  phase : Phase
  /-- The writer task holds the receiver. -/
  isOpen : Bool
  /-- What was sent to the channel. -/
  inbox : List Bytes
  foundDead : Bool
  deriving DecidableEq, Repr

structure Relay where
  hub : RelayHub
  sessions : SessionId → Session
  /-- The sessions that have registered, the last one first. -/
  registered : List SessionId

inductive RelayStep where
  | connect (id : SessionId)
  | first (id : SessionId) (frame : Bytes) (now : UInt64)
  /-- No first frame, or none of bytes. -/
  | refuse (id : SessionId)
  | receive (id : SessionId) (msg : Bytes)
  /-- The peer closes. -/
  | close (id : SessionId)
  /-- Reading fails. -/
  | fail (id : SessionId)
  | writerEnds (id : SessionId)
  deriving DecidableEq, Repr

namespace Relay

def start (caPub : PublicKey) : Relay := ⟨.new caPub, fun _ => ⟨.new, true, [], false⟩, []⟩

def set (w : Relay) (id : SessionId) (s : Session) : Relay := { w with sessions := Function.update w.sessions id s }

def setPhase (w : Relay) (id : SessionId) (phase : Phase) : Relay := w.set id { w.sessions id with phase }

/-- A session whose first frame is accepted serves. -/
def enroll (w : Relay) (id : SessionId) : RelayHub × Option IPv8Address → Relay
  | (hub, some addr) => { w with hub, registered := id :: w.registered }.setPhase id (.serving addr)
  | (hub, none) => { w with hub }.setPhase id .ended

/-- A message is put in the channel of a session, or the session is found dead. -/
def land (w : Relay) (msg : Bytes) : Routed → Relay
  | .forwarded s => w.set s { w.sessions s with inbox := (w.sessions s).inbox ++ [msg] }
  | .evicted s => w.set s { w.sessions s with foundDead := true }
  | .noroute => w

/-- A step that the session cannot take does nothing. -/
def step (S : SigScheme) (w : Relay) : RelayStep → Relay × Option Routed
  | .connect id =>
    match (w.sessions id).phase with
    | .new => (w.setPhase id .connected, none)
    | _ => (w, none)
  | .first id frame now =>
    match (w.sessions id).phase with
    | .connected => (w.enroll id (w.hub.register S frame id now), none)
    | _ => (w, none)
  | .refuse id =>
    match (w.sessions id).phase with
    | .connected => (w.setPhase id .ended, none)
    | _ => (w, none)
  | .receive id msg =>
    match (w.sessions id).phase with
    | .serving _ =>
      if msg = [] then (w, none)
      else
        let (hub, routed) := w.hub.route (fun s => (w.sessions s).isOpen) msg
        ({ w with hub }.land msg routed, some routed)
    | _ => (w, none)
  | .close id =>
    match (w.sessions id).phase with
    | .serving addr => ({ w with hub := w.hub.unregister addr }.setPhase id .ended, none)
    | _ => (w, none)
  | .fail id =>
    match (w.sessions id).phase with
    | .serving _ => (w.setPhase id .ended, none)
    | _ => (w, none)
  | .writerEnds id => (w.set id { w.sessions id with isOpen := false }, none)

/-- The session has registered the address, has not ended, and no send has found it dead. -/
def Live (w : Relay) (a : IPv8Address) (id : SessionId) : Prop :=
  (w.sessions id).phase = .serving a ∧ (w.sessions id).foundDead = false

instance (w : Relay) (a : IPv8Address) (id : SessionId) : Decidable (w.Live a id) := inferInstanceAs (Decidable (_ ∧ _))

/-- The live session that registered the address last. -/
def latest (w : Relay) (a : IPv8Address) : Option SessionId := w.registered.find? fun id => w.Live a id

/-- The route of every address is that of the live session that registered it last. -/
def Follows (w : Relay) : Prop := ∀ a, w.hub.routeOf a = w.latest a

/-- No session but this one is live for the address. -/
def Alone (w : Relay) (a : IPv8Address) (id : SessionId) : Prop := ∀ other, other ≠ id → ¬ w.Live a other

/-- Where a session ends or is found dead, no other session of its address is live; and where reading fails, the session
does not have the route. -/
def Orderly (w : Relay) : RelayStep → Prop
  | .receive id msg => ∀ addr dst s, (w.sessions id).phase = .serving addr → routeHdrLen < msg.length →
      addrFromWire (msg.take routeHdrLen) = some dst → w.hub.routeOf dst = some s → (w.sessions s).isOpen = false →
        w.Alone dst s
  | .close id => ∀ addr, (w.sessions id).phase = .serving addr → w.Alone addr id
  | .fail id => ∀ addr, (w.sessions id).phase = .serving addr → w.hub.routeOf addr ≠ some id
  | _ => True

variable {S : SigScheme} {w w' : Relay} {a b : IPv8Address} {id x : SessionId} {s : Session}

lemma sessions_set : (w.set id s).sessions x = if x = id then s else w.sessions x := Function.update_apply _ _ _ _

lemma live_set : (w.set id s).Live a x ↔ if x = id then s.phase = .serving a ∧ s.foundDead = false else w.Live a x := by
  rw [Live, sessions_set]
  split_ifs with hx
  · exact Iff.rfl
  · exact Iff.rfl

lemma latest_eq_none : w.latest a = none ↔ ∀ x ∈ w.registered, ¬ w.Live a x := by
  rw [latest, List.find?_eq_none]
  exact forall₂_congr fun x _ => not_congr decide_eq_true_iff

lemma latest_live (h : w.latest a = some x) : w.Live a x := by
  have hfound := List.find?_some (p := fun y => decide (w.Live a y)) h
  exact of_decide_eq_true hfound

/-- A session stops being live. -/
lemma latest_drop (hreg : w'.registered = w.registered) (hlive : ∀ x, w'.Live a x ↔ w.Live a x ∧ x ≠ id)
    (h : w.latest a ≠ some id) : w'.latest a = w.latest a := by
  have hdecide : ∀ x, decide (w'.Live a x) = (decide (w.Live a x) && decide (x ≠ id)) := by
    intro x
    rw [← Bool.decide_and]
    exact decide_eq_decide.mpr (hlive x)
  have hnot : ∀ y, w.latest a = some y → decide (y ≠ id) = true := by
    intro y hy
    exact decide_eq_true fun heq => h (heq ▸ hy)
  rw [latest, hreg, funext hdecide]
  exact find?_and hnot

lemma latest_congr (hreg : w'.registered = w.registered) (hlive : ∀ x, w'.Live a x ↔ w.Live a x) : w'.latest a = w.latest a := by
  rw [latest, latest, hreg]
  exact congrArg (List.find? · _) (funext fun x => decide_eq_decide.mpr (hlive x))

/-- A session registers. -/
lemma latest_register (hreg : w'.registered = id :: w.registered)
    (hlive : ∀ x, w'.Live b x ↔ if x = id then a = b else w.Live b x) (hid : ¬ w.Live b id) :
    w'.latest b = if a = b then some id else w.latest b := by
  rw [latest, hreg]
  split_ifs with heq
  · have hfirst : w'.Live b id := (hlive id).mpr ((if_pos rfl).mpr heq)
    exact List.find?_cons_of_pos (p := fun y => decide (w'.Live b y)) (decide_eq_true hfirst)
  · have hfirst : ¬ w'.Live b id := fun h => heq ((if_pos rfl).mp ((hlive id).mp h))
    rw [List.find?_cons_of_neg (p := fun y => decide (w'.Live b y)) fun h => hfirst (of_decide_eq_true h)]
    refine congrArg (List.find? · _) (funext fun x => decide_eq_decide.mpr ?_)
    rw [hlive x]
    split_ifs with hx
    · exact iff_of_false heq (hx ▸ hid)
    · exact Iff.rfl

/-- Only sessions that have registered are found dead, and those that serve have registered. -/
structure Inv (w : Relay) : Prop where
  fresh : ∀ id, (w.sessions id).phase = .new ∨ (w.sessions id).phase = .connected → (w.sessions id).foundDead = false
  listed : ∀ id a, (w.sessions id).phase = .serving a → id ∈ w.registered

lemma inv_start (caPub : PublicKey) : (start caPub).Inv := ⟨fun _ _ => rfl, fun _ _ h => nomatch h⟩

lemma follows_start (caPub : PublicKey) : (start caPub).Follows := fun _ => Std.ExtTreeMap.getElem?_empty

/-- Nothing changes that the routes depend on. -/
lemma Follows.quiet (h : w.Follows) (hroute : w'.hub.routeOf = w.hub.routeOf) (hreg : w'.registered = w.registered)
    (hlive : ∀ a x, w'.Live a x ↔ w.Live a x) : w'.Follows := by
  intro b
  rw [hroute, h b, latest_congr hreg (hlive b)]

/-- The route of an address goes, and one of its sessions is not live any more. -/
lemma Follows.drop_iff (h : w.Follows) (hinv : w.Inv) (hreg : w'.registered = w.registered)
    (hlive : ∀ b x, w'.Live b x ↔ w.Live b x ∧ x ≠ id) (haddr : ∀ b, w.Live b id → a = b)
    (hroute : ∀ b, w'.hub.routeOf b = if a = b then none else w.hub.routeOf b) : w'.Follows ↔ w.Alone a id := by
  constructor
  · intro h' x hx hxlive
    have hnone : w'.latest a = none := (h' a).symm.trans ((hroute a).trans (if_pos rfl))
    exact latest_eq_none.mp hnone x (hreg ▸ hinv.listed x a hxlive.1) ((hlive a x).mpr ⟨hxlive, hx⟩)
  · intro halone b
    rw [hroute b]
    split_ifs with heq
    · cases heq
      exact (latest_eq_none.mpr fun x _ hx => halone x ((hlive _ x).mp hx).2 ((hlive _ x).mp hx).1).symm
    · rw [latest_drop hreg (hlive b) fun hlast => heq (haddr b (latest_live hlast)), h b]

/-- A session is not live any more, and the routes stay. -/
lemma Follows.leave_iff (h : w.Follows) (hreg : w'.registered = w.registered)
    (hlive : ∀ b x, w'.Live b x ↔ w.Live b x ∧ x ≠ id) (haddr : ∀ b, w.Live b id → a = b)
    (hroute : w'.hub.routeOf = w.hub.routeOf) : w'.Follows ↔ w.hub.routeOf a ≠ some id := by
  constructor
  · intro h' hid
    have hlast : w'.latest a = some id := (h' a).symm.trans ((congrFun hroute a).trans hid)
    exact ((hlive a id).mp (latest_live hlast)).2 rfl
  · intro hne b
    rw [hroute, h b]
    refine (latest_drop hreg (hlive b) fun hlast => hne ?_).symm
    rw [h a, haddr b (latest_live hlast)]
    exact hlast

/-! ## One step -/

section Steps

variable {frame msg : Bytes} {now : UInt64}

lemma step_connect (h : (w.sessions id).phase = .new) : (w.step S (.connect id)).1 = w.setPhase id .connected := by
  rw [step, h]

lemma step_first (h : (w.sessions id).phase = .connected) :
    (w.step S (.first id frame now)).1 = w.enroll id (w.hub.register S frame id now) := by
  rw [step, h]

lemma step_refuse (h : (w.sessions id).phase = .connected) : (w.step S (.refuse id)).1 = w.setPhase id .ended := by
  rw [step, h]

lemma step_receive (h : (w.sessions id).phase = .serving a) (hmsg : msg ≠ []) : (w.step S (.receive id msg)).1 =
    { w with hub := (w.hub.route (fun s => (w.sessions s).isOpen) msg).1 }.land msg
      (w.hub.route (fun s => (w.sessions s).isOpen) msg).2 := by
  rw [step, h]
  exact congrArg Prod.fst (if_neg hmsg)

lemma step_receive_nil (h : (w.sessions id).phase = .serving a) : (w.step S (.receive id [])).1 = w := by
  rw [step, h]
  exact congrArg Prod.fst (if_pos rfl)

lemma step_close (h : (w.sessions id).phase = .serving a) :
    (w.step S (.close id)).1 = { w with hub := w.hub.unregister a }.setPhase id .ended := by
  rw [step, h]

lemma step_fail (h : (w.sessions id).phase = .serving a) : (w.step S (.fail id)).1 = w.setPhase id .ended := by
  rw [step, h]

lemma enroll_none {r : RelayHub × Option IPv8Address} (h : r.2 = none) :
    w.enroll id r = { w with hub := r.1 }.setPhase id .ended := by
  rw [← Prod.mk.eta (p := r), h]
  rfl

lemma enroll_some {r : RelayHub × Option IPv8Address} (h : r.2 = some a) :
    w.enroll id r = { w with hub := r.1, registered := id :: w.registered }.setPhase id (.serving a) := by
  rw [← Prod.mk.eta (p := r), h]
  rfl

/-- The session can take the step. -/
def Takes (w : Relay) : RelayStep → Prop
  | .connect id => (w.sessions id).phase = .new
  | .first id _ _ => (w.sessions id).phase = .connected
  | .refuse id => (w.sessions id).phase = .connected
  | .receive id _ => ∃ a, (w.sessions id).phase = .serving a
  | .close id => ∃ a, (w.sessions id).phase = .serving a
  | .fail id => ∃ a, (w.sessions id).phase = .serving a
  | .writerEnds _ => True

lemma step_idle {o : RelayStep} (h : ¬ w.Takes o) : w.step S o = (w, none) := by
  cases o with
  | connect id =>
    rw [step]
    split
    · next heq => exact absurd heq h
    · rfl
  | first id frame now =>
    rw [step]
    split
    · next heq => exact absurd heq h
    · rfl
  | refuse id =>
    rw [step]
    split
    · next heq => exact absurd heq h
    · rfl
  | receive id msg =>
    rw [step]
    split
    · next heq => exact absurd ⟨_, heq⟩ h
    · rfl
  | close id =>
    rw [step]
    split
    · next heq => exact absurd ⟨_, heq⟩ h
    · rfl
  | fail id =>
    rw [step]
    split
    · next heq => exact absurd ⟨_, heq⟩ h
    · rfl
  | writerEnds id => exact absurd trivial h

end Steps

/-! ## Routes and sessions -/

variable {phase : Phase}

/-- A session that does not serve yet changes its phase. -/
lemma live_idle (hold : ∀ a, (w.sessions id).phase ≠ .serving a) (hnew : ∀ a, phase ≠ .serving a) :
    (w.setPhase id phase).Live a x ↔ w.Live a x := by
  rw [setPhase, live_set]
  split_ifs with hx
  · cases hx
    exact iff_of_false (fun h => hnew a h.1) fun h => hold a h.1
  · exact Iff.rfl

lemma live_end : (w.setPhase id .ended).Live a x ↔ w.Live a x ∧ x ≠ id := by
  rw [setPhase, live_set]
  split_ifs with hx
  · exact iff_of_false (fun h => nomatch h.1) fun h => h.2 hx
  · exact (and_iff_left hx).symm

/-- What does not touch phase and findings does not touch who is live. -/
lemma live_same (hphase : s.phase = (w.sessions id).phase) (hdead : s.foundDead = (w.sessions id).foundDead) :
    (w.set id s).Live a x ↔ w.Live a x := by
  rw [live_set]
  split_ifs with hx
  · cases hx
    rw [hphase, hdead]
    exact Iff.rfl
  · exact Iff.rfl

lemma live_dead : (w.set id { w.sessions id with foundDead := true }).Live a x ↔ w.Live a x ∧ x ≠ id := by
  rw [live_set]
  split_ifs with hx
  · exact iff_of_false (fun h => nomatch h.2) fun h => h.2 hx
  · exact (and_iff_left hx).symm

lemma Inv.set (h : w.Inv) (hfresh : s.phase = .new ∨ s.phase = .connected → s.foundDead = false)
    (hlisted : ∀ a, s.phase = .serving a → id ∈ w.registered) : (w.set id s).Inv := by
  constructor
  · intro x hx
    rw [sessions_set] at hx ⊢
    split_ifs at hx ⊢ with heq
    · exact hfresh hx
    · exact h.fresh x hx
  · intro x a hx
    rw [sessions_set] at hx
    split_ifs at hx with heq
    · exact heq ▸ hlisted a hx
    · exact h.listed x a hx

lemma Inv.setHub (h : w.Inv) (hub : RelayHub) : { w with hub }.Inv := ⟨h.fresh, h.listed⟩

lemma Inv.same (h : w.Inv) (hphase : s.phase = (w.sessions id).phase) (hdead : s.foundDead = (w.sessions id).foundDead) :
    (w.set id s).Inv :=
  h.set (fun hx => hdead.trans (h.fresh id (hphase ▸ hx))) fun a hx => h.listed id a (hphase ▸ hx)

lemma Inv.end (h : w.Inv) : (w.setPhase id .ended).Inv := h.set (fun hx => hx.elim nofun nofun) nofun

/-- The session with the route serves, as long as the routes follow the sessions. -/
lemma Follows.live (h : w.Follows) (hroute : w.hub.routeOf a = some id) : w.Live a id := latest_live ((h a).symm.trans hroute)

/-- What a step does to the routes and the sessions: the routes follow the sessions afterwards if and only if the step is
orderly. -/
def Kept (S : SigScheme) (w : Relay) (o : RelayStep) : Prop :=
  (w.step S o).1.Inv ∧ ((w.step S o).1.Follows ↔ w.Orderly o)

lemma kept_register (h : w.Inv) (hf : w.Follows) (hphase : (w.sessions id).phase = .connected) {frame : Bytes} {now : UInt64} :
    Kept S w (.first id frame now) := by
  have hold : ∀ a, (w.sessions id).phase ≠ .serving a := fun a heq => nomatch hphase.symm.trans heq
  have hdead : (w.sessions id).foundDead = false := h.fresh id (.inr hphase)
  obtain ⟨-, ⟨hnone, hroute⟩ | ⟨addr, cert, hsome, -, hroute⟩⟩ := w.hub.register_cases (S := S) frame id now
  · rw [Kept, step_first hphase, enroll_none hnone]
    exact ⟨(h.setHub _).end, iff_of_true (hf.quiet hroute rfl fun a x => live_idle hold fun _ heq => (nomatch heq)) trivial⟩
  · rw [Kept, step_first hphase, enroll_some hsome]
    have hinv : Inv { w with hub := (w.hub.register S frame id now).1, registered := id :: w.registered } :=
      ⟨h.fresh, fun x a hx => List.mem_cons_of_mem _ (h.listed x a hx)⟩
    refine ⟨hinv.set (fun hx => hx.elim nofun nofun) fun _ _ => List.mem_cons_self, iff_of_true (fun b => ?_) trivial⟩
    refine (hroute b).trans ?_
    rw [hf b]
    refine (latest_register rfl (fun x => ?_) fun hx => hold b hx.1).symm
    rw [setPhase, live_set]
    split_ifs with hx
    · exact ⟨fun h => Phase.serving.inj h.1, fun h => ⟨congrArg _ h, hdead⟩⟩
    · exact Iff.rfl

lemma kept_receive (h : w.Inv) (hf : w.Follows) (hphase : (w.sessions id).phase = .serving a) {msg : Bytes} :
    Kept S w (.receive id msg) := by
  by_cases hempty : msg = []
  · cases hempty
    rw [Kept, step_receive_nil hphase]
    exact ⟨h, iff_of_true hf fun addr dst s _ hlen => absurd hlen (Nat.not_lt_zero _)⟩
  · rw [Kept, step_receive hphase hempty]
    obtain ⟨hnone, hroute, hno⟩ | ⟨dst, s, hlen, hdst, hs, ⟨hopen, hfwd, hroute⟩ | ⟨hclosed, hevict, hroute⟩⟩ :=
      (w.hub.route_cases (fun s => (w.sessions s).isOpen) msg).2
    · rw [hnone]
      refine ⟨h.setHub _, iff_of_true (hf.quiet hroute rfl fun a x => Iff.rfl) ?_⟩
      intro addr dst s _ hlen hdst hs
      exact nomatch (hno dst hlen hdst).symm.trans hs
    · rw [hfwd]
      refine ⟨(h.setHub _).same rfl rfl, iff_of_true (hf.quiet hroute rfl fun a x => live_same rfl rfl) ?_⟩
      intro addr dst' s' _ _ hdst' hs' hclosed
      cases hdst.symm.trans hdst'
      cases hs.symm.trans hs'
      exact absurd (hopen.symm.trans hclosed) Bool.true_eq_false.mp
    · rw [hevict]
      have hlive : w.Live dst s := hf.live hs
      have horderly : w.Orderly (.receive id msg) ↔ w.Alone dst s := by
        refine ⟨fun ho => ho a dst s hphase hlen hdst hs hclosed, fun ho addr dst' s' _ _ hdst' hs' _ => ?_⟩
        cases hdst.symm.trans hdst'
        cases hs.symm.trans hs'
        exact ho
      rw [horderly]
      refine ⟨(h.setHub _).set (fun hx => ?_) fun b hb => h.listed s b hb,
        hf.drop_iff h rfl (fun b x => live_dead) (fun b hb => Phase.serving.inj (hlive.1.symm.trans hb.1)) hroute⟩
      exact hx.elim (fun hnew => nomatch hlive.1.symm.trans hnew) fun hconn => nomatch hlive.1.symm.trans hconn

lemma kept_close (h : w.Inv) (hf : w.Follows) (hphase : (w.sessions id).phase = .serving a) : Kept S w (.close id) := by
  have horderly : w.Orderly (.close id) ↔ w.Alone a id :=
    ⟨fun ho => ho a hphase, fun ho b hb => Phase.serving.inj (hphase.symm.trans hb) ▸ ho⟩
  rw [Kept, step_close hphase, horderly]
  refine ⟨(h.setHub _).end, hf.drop_iff h rfl (fun b x => live_end) (fun b hb => ?_) fun b => RelayHub.routeOf_unregister⟩
  exact Phase.serving.inj (hphase.symm.trans hb.1)

lemma kept_fail (h : w.Inv) (hf : w.Follows) (hphase : (w.sessions id).phase = .serving a) : Kept S w (.fail id) := by
  have horderly : w.Orderly (.fail id) ↔ w.hub.routeOf a ≠ some id :=
    ⟨fun ho => ho a hphase, fun ho b hb => Phase.serving.inj (hphase.symm.trans hb) ▸ ho⟩
  rw [Kept, step_fail hphase, horderly]
  refine ⟨h.end, hf.leave_iff rfl (fun b x => live_end) (fun b hb => ?_) rfl⟩
  exact Phase.serving.inj (hphase.symm.trans hb.1)

lemma orderly_idle {o : RelayStep} (h : ¬ w.Takes o) : w.Orderly o := by
  cases o with
  | receive id msg => exact fun addr _ _ haddr => absurd ⟨addr, haddr⟩ h
  | close id => exact fun addr haddr => absurd ⟨addr, haddr⟩ h
  | fail id => exact fun addr haddr => absurd ⟨addr, haddr⟩ h
  | connect id => trivial
  | first id frame now => trivial
  | refuse id => trivial
  | writerEnds id => trivial

lemma kept_step (h : w.Inv) (hf : w.Follows) (o : RelayStep) : Kept S w o := by
  by_cases htakes : w.Takes o
  · cases o with
    | connect id =>
      have hold : ∀ a, (w.sessions id).phase ≠ .serving a := fun a heq => nomatch htakes.symm.trans heq
      rw [Kept, step_connect htakes]
      exact ⟨h.set (fun _ => h.fresh id (.inl htakes)) fun _ heq => (nomatch heq),
        iff_of_true (hf.quiet rfl rfl fun a x => live_idle hold fun _ heq => (nomatch heq)) trivial⟩
    | first id frame now => exact kept_register h hf htakes
    | refuse id =>
      have hold : ∀ a, (w.sessions id).phase ≠ .serving a := fun a heq => nomatch htakes.symm.trans heq
      rw [Kept, step_refuse htakes]
      exact ⟨h.end, iff_of_true (hf.quiet rfl rfl fun a x => live_idle hold fun _ heq => (nomatch heq)) trivial⟩
    | receive id msg =>
      obtain ⟨a, hphase⟩ := htakes
      exact kept_receive h hf hphase
    | close id =>
      obtain ⟨a, hphase⟩ := htakes
      exact kept_close h hf hphase
    | fail id =>
      obtain ⟨a, hphase⟩ := htakes
      exact kept_fail h hf hphase
    | writerEnds id =>
      exact ⟨h.same rfl rfl, iff_of_true (hf.quiet rfl rfl fun a x => live_same rfl rfl) trivial⟩
  · rw [Kept, step_idle htakes]
    exact ⟨h, iff_of_true hf (orderly_idle htakes)⟩

/-- In every state that a run reaches, the route of each address is that of the live session that registered it last, if and
only if no session ends or is found dead while another session of its address is live, and reading fails for no session that
has the route. -/
theorem routes_follow_iff (S : SigScheme) (caPub : PublicKey) (steps : List RelayStep) :
    Along (step S) (fun w o => (w.step S o).1.Follows) (start caPub) steps ↔ Along (step S) Orderly (start caPub) steps := by
  have htrivial : Along (step S) (fun _ _ => True) (start caPub) steps := along_of_forall fun _ _ => trivial
  refine along_congr (I := fun w => w.Inv ∧ w.Follows) htrivial ?_ ?_ ⟨inv_start caPub, follows_start caPub⟩
  · rintro w o ⟨hinv, hf⟩ - hnext
    exact ⟨(kept_step hinv hf o).1, hnext⟩
  · rintro w o ⟨hinv, hf⟩ -
    exact (kept_step hinv hf o).2

/-! ## A reconnect -/

def nodeAddr (k : UInt16) : IPv8Address := ⟨0xFB14, 0, 0, 0, 0, 0, 0, k⟩

def caKey : PublicKey := ⟨List.replicate 32 1, List.length_replicate⟩

lemma length_nodeKey : (List.replicate 32 (7 : UInt8)).length = 32 := List.length_replicate

/-- The frame by which node 1 registers. -/
def regFrame : Bytes :=
  rptMagic ++ (nodeAddr 1).toBytes ++
    (issue sampleSig caKey (nodeAddr 1) ⟨List.replicate 32 7, length_nodeKey⟩ 1000).toWire

/-- A node registers, and registers once more by a new session. -/
def reconnect : List RelayStep := [.connect 0, .first 0 regFrame 0, .connect 1, .first 1 regFrame 1]

def relayAfter (steps : List RelayStep) : Relay := (run (step sampleSig) (start caKey) steps).1

/-- The old session ends late and takes the route of the new one with it. A session for which reading fails keeps its route. -/
theorem late_end_removes : ((relayAfter reconnect).hub.routeOf (nodeAddr 1) = some 1 ∧
      (relayAfter (reconnect ++ [.close 0])).hub.routeOf (nodeAddr 1) = none ∧
      (relayAfter (reconnect ++ [.close 0])).latest (nodeAddr 1) = some 1) ∧
    ((relayAfter (reconnect ++ [.fail 1])).hub.routeOf (nodeAddr 1) = some 1 ∧
      (relayAfter (reconnect ++ [.fail 1])).latest (nodeAddr 1) = some 0) := by
  decide +kernel

end Relay

end IPv8Plus.WsNode
