import IPv8Plus.Cloud.Store
import IPv8Plus.Tunnel.Auth

/-!
# The table of the relay

`RelayHub` of `tools/ws-node/src/main.rs`: which session a message for an address goes to. The channel of a session is the
session's number; whether somebody still receives from it is an input. The counters wrap around.
-/

namespace IPv8Plus.WsNode
open Lib Codec Routing Tunnel

/-- `RPT0` -/
def rptMagic : Bytes := [0x52, 0x50, 0x54, 0x30]

def addrWire : ℕ := 16

def regFrameLen : ℕ := 4 + addrWire + 120

def routeHdrLen : ℕ := addrWire

def addrFromWire (b : Bytes) : Option IPv8Address :=
  if b.length = addrWire then (readAddr b : Outcome Empty IPv8Address).toOption else none

def certFromWire (w : Bytes) : Option Cert :=
  if w.length ≠ 120 then none
  else do
    let addr ← addrFromWire (w.take 16)
    let verifyKey ← (copyFromSlice 32 ((w.drop 16).take 32) : Outcome Empty PublicKey).toOption
    let caSig ← (copyFromSlice 64 (w.drop 56) : Outcome Empty Signature).toOption
    return { addr, verifyKey, notAfter := ofBe64 ((w.drop 48).take 8), caSig }

abbrev SessionId := ℕ

structure RelayHub where
  byAddr : Cloud.AddrMap SessionId
  trust : PublicKey
  forwarded : UInt64
  noroute : UInt64
  rejected : UInt64

/-- What becomes of a message. The call answers whether it is forwarded. -/
inductive Routed where
  | forwarded (s : SessionId)
  | evicted (s : SessionId)
  | noroute
  deriving DecidableEq, Repr

namespace RelayHub

def new (caPub : PublicKey) : RelayHub := ⟨∅, caPub, 0, 0, 0⟩

def reject (hub : RelayHub) : RelayHub := { hub with rejected := hub.rejected + 1 }

/-- A registration takes the route, whoever had it. -/
def register (S : SigScheme) (hub : RelayHub) (frame : Bytes) (tx : SessionId) (now : UInt64) :
    RelayHub × Option IPv8Address :=
  if frame.length ≠ regFrameLen ∨ frame.take 4 ≠ rptMagic then (hub.reject, none)
  else
    match addrFromWire ((frame.drop 4).take 16), certFromWire (frame.drop 20) with
    | some addr, some cert =>
      if cert.addr ≠ addr then (hub.reject, none)
      else
        match trustVerify S hub.trust cert now with
        | .ok () => ({ hub with byAddr := hub.byAddr.insert addr tx }, some addr)
        | .error _ => (hub.reject, none)
    | _, _ => (hub, none)

def route (hub : RelayHub) (isOpen : SessionId → Bool) (msg : Bytes) : RelayHub × Routed :=
  if msg.length ≤ routeHdrLen then ({ hub with noroute := hub.noroute + 1 }, .noroute)
  else
    match addrFromWire (msg.take routeHdrLen) with
    | none => ({ hub with noroute := hub.noroute + 1 }, .noroute)
    | some dst =>
      match hub.byAddr[dst]? with
      | some s =>
        if isOpen s then ({ hub with forwarded := hub.forwarded + 1 }, .forwarded s)
        else ({ hub with byAddr := hub.byAddr.erase dst, noroute := hub.noroute + 1 }, .evicted s)
      | none => ({ hub with noroute := hub.noroute + 1 }, .noroute)

/-- The route of the address goes, whose ever it is. -/
def unregister (hub : RelayHub) (addr : IPv8Address) : RelayHub := { hub with byAddr := hub.byAddr.erase addr }

def routeOf (hub : RelayHub) (a : IPv8Address) : Option SessionId := hub.byAddr[a]?

variable {S : SigScheme} {hub : RelayHub} {a b : IPv8Address} {frame msg : Bytes} {tx : SessionId} {now : UInt64}

lemma routeOf_erase {hub' : RelayHub} (h : hub'.byAddr = hub.byAddr.erase a) :
    hub'.routeOf b = if a = b then none else hub.routeOf b := by
  rw [routeOf, h, getElem?_erase_ite]
  rfl

lemma routeOf_insert {hub' : RelayHub} (h : hub'.byAddr = hub.byAddr.insert a tx) :
    hub'.routeOf b = if a = b then some tx else hub.routeOf b := by
  rw [routeOf, h, getElem?_insert_ite]
  rfl

lemma routeOf_unregister : (hub.unregister a).routeOf b = if a = b then none else hub.routeOf b := routeOf_erase rfl

/-- A frame that registers an address by a certificate. -/
structure Registers (S : SigScheme) (trust : PublicKey) (frame : Bytes) (now : UInt64) (a : IPv8Address) (cert : Cert) : Prop where
  magic : frame.take 4 = rptMagic
  claimed : addrFromWire ((frame.drop 4).take 16) = some a
  presented : certFromWire (frame.drop 20) = some cert
  subject : cert.addr = a
  verified : trustVerify S trust cert now = .ok ()

/-- A registration is refused, or takes the route of one address. -/
lemma register_cases (hub : RelayHub) (frame : Bytes) (tx : SessionId) (now : UInt64) :
    (hub.register S frame tx now).1.trust = hub.trust ∧
      (((hub.register S frame tx now).2 = none ∧ (hub.register S frame tx now).1.routeOf = hub.routeOf) ∨
        ∃ a cert, (hub.register S frame tx now).2 = some a ∧ Registers S hub.trust frame now a cert ∧
          ∀ b, (hub.register S frame tx now).1.routeOf b = if a = b then some tx else hub.routeOf b) := by
  unfold register
  split_ifs with hframe
  · exact ⟨rfl, .inl ⟨rfl, rfl⟩⟩
  · obtain ⟨-, hmagic⟩ := not_or.mp hframe
    cases haddr : addrFromWire ((frame.drop 4).take 16) with
    | none => exact ⟨rfl, .inl ⟨rfl, rfl⟩⟩
    | some addr =>
      cases hcert : certFromWire (frame.drop 20) with
      | none => exact ⟨rfl, .inl ⟨rfl, rfl⟩⟩
      | some cert =>
        dsimp only
        split_ifs with hsubject
        · exact ⟨rfl, .inl ⟨rfl, rfl⟩⟩
        · cases hverified : trustVerify S hub.trust cert now with
          | error e => exact ⟨rfl, .inl ⟨rfl, rfl⟩⟩
          | ok u =>
            exact ⟨rfl, .inr ⟨addr, cert, rfl, ⟨not_not.mp hmagic, haddr, hcert, not_not.mp hsubject, hverified⟩,
              fun b => routeOf_insert rfl⟩⟩

/-- A message is forwarded, or finds its session dead and takes the route away, or there is no route for it. -/
lemma route_cases (hub : RelayHub) (isOpen : SessionId → Bool) (msg : Bytes) :
    (hub.route isOpen msg).1.trust = hub.trust ∧
      (((hub.route isOpen msg).2 = .noroute ∧ (hub.route isOpen msg).1.routeOf = hub.routeOf ∧
          ∀ dst, routeHdrLen < msg.length → addrFromWire (msg.take routeHdrLen) = some dst → hub.routeOf dst = none) ∨
        ∃ dst s, routeHdrLen < msg.length ∧ addrFromWire (msg.take routeHdrLen) = some dst ∧ hub.routeOf dst = some s ∧
          ((isOpen s = true ∧ (hub.route isOpen msg).2 = .forwarded s ∧ (hub.route isOpen msg).1.routeOf = hub.routeOf) ∨
            (isOpen s = false ∧ (hub.route isOpen msg).2 = .evicted s ∧
              ∀ b, (hub.route isOpen msg).1.routeOf b = if dst = b then none else hub.routeOf b))) := by
  unfold route
  split_ifs with hlen
  · exact ⟨rfl, .inl ⟨rfl, rfl, fun dst hlt => absurd hlt (Nat.not_lt.mpr hlen)⟩⟩
  · cases hdst : addrFromWire (msg.take routeHdrLen) with
    | none => exact ⟨rfl, .inl ⟨rfl, rfl, fun dst _ h => nomatch h⟩⟩
    | some dst =>
      dsimp only
      cases hroute : hub.byAddr[dst]? with
      | none => exact ⟨rfl, .inl ⟨rfl, rfl, fun dst' _ h => Option.some.inj h ▸ hroute⟩⟩
      | some s =>
        dsimp only
        have hlt := Nat.lt_of_not_le hlen
        split_ifs with hopen
        · exact ⟨rfl, .inr ⟨dst, s, hlt, rfl, hroute, .inl ⟨hopen, rfl, rfl⟩⟩⟩
        · exact ⟨rfl, .inr ⟨dst, s, hlt, rfl, hroute,
            .inr ⟨Bool.eq_false_iff.mpr hopen, rfl, fun b => routeOf_erase rfl⟩⟩⟩

end RelayHub

end IPv8Plus.WsNode
