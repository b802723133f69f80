import IPv8Plus.WsNode.RelaySessions

/-!
# Who has the route of an address

A session has the route of an address, and gets the messages for it, only if its first frame was a registration with a
certificate of the authority for this address that had not expired. Who sends the frame is not asked: a frame that was seen
on its way registers whoever sends it again.
-/

namespace IPv8Plus.WsNode
open Lib Codec Routing Tunnel

namespace Relay

variable {S : SigScheme} {w : Relay} {a addr : IPv8Address} {id x : SessionId} {s : Session} {o : RelayStep}
  {frame msg : Bytes} {now : UInt64} {phase : Phase}

lemma inbox_setPhase : ((w.setPhase id phase).sessions x).inbox = (w.sessions x).inbox := by
  rw [setPhase, sessions_set]
  split_ifs with hx
  · rw [hx]
  · rfl

/-- The messages that a session has got lately were for an address that it had the route of. -/
def Gets (w w' : Relay) : Prop := ∀ x, ∀ msg ∈ (w'.sessions x).inbox, msg ∈ (w.sessions x).inbox ∨
  ∃ a, addrFromWire (msg.take routeHdrLen) = some a ∧ w.hub.routeOf a = some x

/-- A route that is there after a step was there before, or the step registers the session by a certificate. -/
def Gains (S : SigScheme) (w w' : Relay) (o : RelayStep) : Prop := ∀ a x, w'.hub.routeOf a = some x →
  w.hub.routeOf a = some x ∨ ∃ frame now cert, o = .first x frame now ∧ RelayHub.Registers S w.hub.trust frame now a cert

lemma gets_setPhase (w : Relay) (hub : RelayHub) (registered : List SessionId) :
    Gets w ({ w with hub, registered }.setPhase id phase) := by
  intro x msg hmsg
  rw [inbox_setPhase] at hmsg
  exact .inl hmsg

lemma gains_of_erase {w' : Relay} (h : ∀ b, w'.hub.routeOf b = if a = b then none else w.hub.routeOf b) : Gains S w w' o := by
  intro b x hx
  rw [h b] at hx
  split_ifs at hx with heq
  exact .inl hx

lemma gains_of_eq {w' : Relay} (h : w'.hub.routeOf = w.hub.routeOf) : Gains S w w' o := fun _ _ hx => .inl (h ▸ hx)

/-- What a step does to the routes and the channels. -/
def Traced (S : SigScheme) (w w' : Relay) (o : RelayStep) : Prop :=
  w'.hub.trust = w.hub.trust ∧ Gains S w w' o ∧ Gets w w'

lemma traced_first : Traced S w (w.enroll id (w.hub.register S frame id now)) (.first id frame now) := by
  obtain ⟨htrust, ⟨hnone, hroute⟩ | ⟨addr, cert, hsome, hreg, hroute⟩⟩ := w.hub.register_cases (S := S) frame id now
  · rw [enroll_none hnone]
    exact ⟨htrust, gains_of_eq hroute, gets_setPhase w _ _⟩
  · rw [enroll_some hsome]
    refine ⟨htrust, fun b x hx => ?_, gets_setPhase w _ _⟩
    have hx' := (hroute b).symm.trans hx
    split_ifs at hx' with heq
    · cases hx'
      exact .inr ⟨frame, now, cert, rfl, heq ▸ hreg⟩
    · exact .inl hx'

lemma traced_receive : Traced S w ({ w with hub := (w.hub.route (fun s => (w.sessions s).isOpen) msg).1 }.land msg
    (w.hub.route (fun s => (w.sessions s).isOpen) msg).2) o := by
  obtain ⟨htrust, ⟨hnone, hroute, -⟩ | ⟨dst, s, -, hdst, hs, ⟨-, hfwd, hroute⟩ | ⟨-, hevict, hroute⟩⟩⟩ :=
    w.hub.route_cases (fun s => (w.sessions s).isOpen) msg
  · rw [hnone]
    exact ⟨htrust, gains_of_eq hroute, fun x msg' hmsg => .inl hmsg⟩
  · rw [hfwd]
    refine ⟨htrust, gains_of_eq hroute, fun x msg' hmsg => ?_⟩
    rw [land, sessions_set] at hmsg
    split_ifs at hmsg with hx
    · cases hx
      rcases List.mem_append.mp hmsg with hold | hnew
      · exact .inl hold
      · cases List.mem_singleton.mp hnew
        exact .inr ⟨dst, hdst, hs⟩
    · exact .inl hmsg
  · rw [hevict]
    refine ⟨htrust, gains_of_erase hroute, fun x msg' hmsg => ?_⟩
    rw [land, sessions_set] at hmsg
    split_ifs at hmsg with hx
    · exact .inl (hx ▸ hmsg)
    · exact .inl hmsg

lemma traced_step (w : Relay) (o : RelayStep) : Traced S w (w.step S o).1 o := by
  have hstay : Traced S w w o := ⟨rfl, gains_of_eq rfl, fun x msg hmsg => .inl hmsg⟩
  by_cases htakes : w.Takes o
  · cases o with
    | connect id =>
      rw [step_connect htakes]
      exact ⟨rfl, gains_of_eq rfl, gets_setPhase w w.hub w.registered⟩
    | first id frame now =>
      rw [step_first htakes]
      exact traced_first
    | refuse id =>
      rw [step_refuse htakes]
      exact ⟨rfl, gains_of_eq rfl, gets_setPhase w w.hub w.registered⟩
    | receive id msg =>
      obtain ⟨a, hphase⟩ := htakes
      by_cases hempty : msg = []
      · cases hempty
        rw [step_receive_nil hphase]
        exact hstay
      · rw [step_receive hphase hempty]
        exact traced_receive
    | close id =>
      obtain ⟨a, hphase⟩ := htakes
      rw [step_close hphase]
      exact ⟨rfl, gains_of_erase fun b => RelayHub.routeOf_unregister, gets_setPhase w _ w.registered⟩
    | fail id =>
      obtain ⟨a, hphase⟩ := htakes
      rw [step_fail hphase]
      exact ⟨rfl, gains_of_eq rfl, gets_setPhase w w.hub w.registered⟩
    | writerEnds id =>
      refine ⟨rfl, gains_of_eq rfl, fun x msg hmsg => .inl ?_⟩
      rw [step, sessions_set] at hmsg
      split_ifs at hmsg with hx
      · exact hx ▸ hmsg
      · exact hmsg
  · rw [step_idle htakes]
    exact hstay

/-- The session's first frame has registered the address. -/
def Presented (S : SigScheme) (caPub : PublicKey) (steps : List RelayStep) (x : SessionId) (a : IPv8Address) : Prop :=
  ∃ frame now cert, .first x frame now ∈ steps ∧ RelayHub.Registers S caPub frame now a cert

lemma Presented.mono {caPub : PublicKey} {steps steps' : List RelayStep} (h : Presented S caPub steps x a)
    (hsub : steps ⊆ steps') : Presented S caPub steps' x a := by
  obtain ⟨frame, now, cert, hmem, hreg⟩ := h
  exact ⟨frame, now, cert, hsub hmem, hreg⟩

/-- Routes, and messages in channels, are those of sessions that have registered. -/
structure Owned (S : SigScheme) (caPub : PublicKey) (steps : List RelayStep) (w : Relay) : Prop where
  trust : w.hub.trust = caPub
  routes : ∀ a x, w.hub.routeOf a = some x → Presented S caPub steps x a
  inboxes : ∀ x, ∀ msg ∈ (w.sessions x).inbox,
    ∃ a, addrFromWire (msg.take routeHdrLen) = some a ∧ Presented S caPub steps x a

lemma Owned.step {caPub : PublicKey} {steps : List RelayStep} (h : Owned S caPub steps w) (o : RelayStep) :
    Owned S caPub (steps ++ [o]) (w.step S o).1 := by
  obtain ⟨htrust, hgains, hgets⟩ := traced_step (S := S) w o
  have hsub : steps ⊆ steps ++ [o] := List.subset_append_left _ _
  refine ⟨htrust.trans h.trust, fun a x hx => ?_, fun x msg hmsg => ?_⟩
  · rcases hgains a x hx with hold | ⟨frame, now, cert, rfl, hreg⟩
    · exact (h.routes a x hold).mono hsub
    · exact ⟨frame, now, cert, List.mem_append_right _ List.mem_cons_self, h.trust ▸ hreg⟩
  · rcases hgets x msg hmsg with hold | ⟨a, haddr, hroute⟩
    · obtain ⟨a, haddr, hp⟩ := h.inboxes x msg hold
      exact ⟨a, haddr, hp.mono hsub⟩
    · exact ⟨a, haddr, (h.routes a x hroute).mono hsub⟩

lemma owned_run (S : SigScheme) (caPub : PublicKey) (steps : List RelayStep) :
    Owned S caPub steps (run (Relay.step S) (start caPub) steps).1 := by
  have hstart : Owned S caPub [] (start caPub) := by
    refine ⟨rfl, fun a x hx => ?_, fun x msg hmsg => nomatch hmsg⟩
    exact nomatch (Std.ExtTreeMap.getElem?_empty (a := a)).symm.trans hx
  have htrivial : Along (Relay.step S) (fun _ _ => True) (start caPub) steps := along_of_forall fun _ _ => trivial
  exact invariant_prefix hstart (fun os o h _ => h.step o) htrivial

lemma tbs_inj {c c' : Cert} (h : c.tbs = c'.tbs) : c.addr = c'.addr ∧ c.verifyKey = c'.verifyKey ∧ c.notAfter = c'.notAfter := by
  obtain ⟨hhead, hexpiry⟩ := List.append_inj' h (by rw [length_be64, length_be64])
  obtain ⟨haddr, hkey⟩ := List.append_inj' hhead (by rw [c.verifyKey.property, c'.verifyKey.property])
  exact ⟨IPv8Address.toBytes_injective haddr, Subtype.ext hkey, be64_injective hexpiry⟩

/-- The session's first frame showed what the authority has certified for the address, before it expired. -/
def Certified (Issued : Cert → Prop) (steps : List RelayStep) (x : SessionId) (a : IPv8Address) : Prop :=
  ∃ frame now cert c, .first x frame now ∈ steps ∧ certFromWire (frame.drop 20) = some cert ∧ Issued c ∧ c.tbs = cert.tbs ∧
    c.addr = a ∧ now ≤ c.notAfter

/-- What has the authority's signature is what the authority has certified. -/
def Genuine (S : SigScheme) (caPub : PublicKey) (Issued : Cert → Prop) : RelayStep → Prop
  | .first _ frame _ => ∀ cert, certFromWire (frame.drop 20) = some cert →
    S.verifyStrict caPub cert.tbs cert.caSig = true → ∃ c, Issued c ∧ c.tbs = cert.tbs
  | _ => True

lemma Presented.certified {caPub : PublicKey} {steps : List RelayStep} {Issued : Cert → Prop}
    (h : Presented S caPub steps x a) (hgenuine : ∀ o ∈ steps, Genuine S caPub Issued o) : Certified Issued steps x a := by
  obtain ⟨frame, now, cert, hmem, hreg⟩ := h
  obtain ⟨hverify, hnow⟩ := trustVerify_eq_ok.mp hreg.verified
  obtain ⟨c, hissued, htbs⟩ := hgenuine _ hmem cert hreg.presented hverify
  obtain ⟨haddr, -, hexpiry⟩ := tbs_inj htbs
  exact ⟨frame, now, cert, c, hmem, hreg.presented, hissued, htbs, haddr.trans hreg.subject, hexpiry ▸ hnow⟩

/-- In every reachable state, a session has the route of an address only if its first frame showed an unexpired certificate
that the authority has issued for this address, and every message that was forwarded to a session was for such an address. -/
theorem route_certified {S : SigScheme} {caPub : PublicKey} {Issued : Cert → Prop} {steps : List RelayStep}
    (hunforgeable : ∀ o ∈ steps, Genuine S caPub Issued o) :
    (∀ a x, (run (step S) (start caPub) steps).1.hub.routeOf a = some x → Certified Issued steps x a) ∧
      ∀ x, ∀ msg ∈ ((run (step S) (start caPub) steps).1.sessions x).inbox,
        ∃ a, addrFromWire (msg.take routeHdrLen) = some a ∧ Certified Issued steps x a := by
  have howned := owned_run S caPub steps
  refine ⟨fun a x hx => (howned.routes a x hx).certified hunforgeable, fun x msg hmsg => ?_⟩
  obtain ⟨a, haddr, hp⟩ := howned.inboxes x msg hmsg
  exact ⟨a, haddr, hp.certified hunforgeable⟩

/-- The certificate of node 1. -/
def nodeCert : Cert := issue sampleSig caKey (nodeAddr 1) ⟨List.replicate 32 7, length_nodeKey⟩ 1000

lemma reconnect_genuine : ∀ o ∈ reconnect, Genuine sampleSig caKey (· = nodeCert) o := by
  have hframe : ∀ id now, Genuine sampleSig caKey (· = nodeCert) (.first id regFrame now) := by
    intro id now cert hcert _
    have hread : certFromWire (regFrame.drop 20) = some nodeCert := by decide +kernel
    cases hread.symm.trans hcert
    exact ⟨nodeCert, rfl, rfl⟩
  intro o ho
  rcases List.mem_cons.mp ho with rfl | ho
  · trivial
  rcases List.mem_cons.mp ho with rfl | ho
  · exact hframe 0 0
  rcases List.mem_pair.mp ho with rfl | rfl
  · trivial
  · exact hframe 1 1

theorem route_certified_sample :
    (∀ a x, (run (step sampleSig) (start caKey) reconnect).1.hub.routeOf a = some x → Certified (· = nodeCert) reconnect x a) ∧
      ∀ x, ∀ msg ∈ ((run (step sampleSig) (start caKey) reconnect).1.sessions x).inbox,
        ∃ a, addrFromWire (msg.take routeHdrLen) = some a ∧ Certified (· = nodeCert) reconnect x a :=
  route_certified reconnect_genuine

/-- The message for node 1. -/
def letter : Bytes := (nodeAddr 1).toBytes ++ [0x80]

/-- Somebody else repeats the first frame of node 1 in a session of its own: the route is theirs, and so is a message for
the node. -/
theorem repeated_frame_takes_route :
    (relayAfter (reconnect.take 2)).hub.routeOf (nodeAddr 1) = some 0 ∧
      (relayAfter (reconnect ++ [.receive 0 letter])).hub.routeOf (nodeAddr 1) = some 1 ∧
      ((relayAfter (reconnect ++ [.receive 0 letter])).sessions 0).inbox = [] ∧
      ((relayAfter (reconnect ++ [.receive 0 letter])).sessions 1).inbox = [letter] := by
  decide +kernel

end Relay

end IPv8Plus.WsNode
