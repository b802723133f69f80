import IPv8Plus.Forward.Firewall
import IPv8Plus.Lib.IpText
import IPv8Plus.Lib.Run

/-!
# The port forwarder

`tools/ipv8-forward/src/main.rs`: listeners are opened for the ports of the rules at the start, and what arrives on them is
judged by the rules in force. The forwarder asks for the client's own port instead of the one it listens on, does not look
at the direction of a rule, and keeps the first route of a client; `forwards_as_ruled` says where that makes no
difference. Sockets can be opened, and texts are their bytes.
-/

namespace IPv8Plus.Forward
open Lib Codec

structure SocketAddr where
  ip : IpAddr
  port : UInt16
  deriving DecidableEq

/-- Where a connection or a datagram is sent on to. -/
structure Upstream where
  host : Bytes
  port : UInt16
  deriving DecidableEq, Repr

/-- `127.0.0.1` -/
def localhost : Bytes := [0x31, 0x32, 0x37, 0x2E, 0x30, 0x2E, 0x30, 0x2E, 0x31]

structure Forwarder where
  rules : RuleSet
  peerTunIp : Option Bytes
  tcpListeners : List Rule
  udpListeners : List Rule
  /-- The sockets of a UDP listener, by its port and the client. -/
  routes : UInt16 → SocketAddr → Option Upstream

inductive Call where
  | reload (rules : RuleSet)
  | accept (port : UInt16) (client : SocketAddr)
  | recvFrom (port : UInt16) (src : SocketAddr)

/-- `ipv8_default_addr`, the source that rules are asked about. -/
def defaultAddr : IPv8Address := ⟨protocolMagic, 0, 0, 0, 0, 0, 0, 0⟩

namespace Forwarder

/-- `Forwarder::run` up to its loops. -/
def start (rules : RuleSet) (peerTunIp : Option Bytes) : Forwarder where
  rules
  peerTunIp
  tcpListeners := rules.activeRules.filter fun r => r.direction = .inbound ∧ (r.protocol = .tcp ∨ r.protocol = .any)
  udpListeners := rules.activeRules.filter fun r => r.direction = .inbound ∧ (r.protocol = .udp ∨ r.protocol = .any)
  routes _ _ := none

variable (s : Forwarder)

def listensTcp (port : UInt16) : Bool := s.tcpListeners.any fun r => r.covers port

def listensUdp (port : UInt16) : Bool := s.udpListeners.any fun r => r.covers port

def peerHost : Bytes := s.peerTunIp.getD localhost

/-- A connection that `listen_tcp` has accepted: the port is the client's, and without a target it is kept. -/
def accept (client : SocketAddr) : Option Upstream :=
  match s.rules.matchRule 6 client.port defaultAddr with
  | none => none
  | some m =>
    match m.target with
    | some _ => some ⟨s.peerHost, m.targetPort⟩
    | none => some ⟨localhost, client.port⟩

/-- A datagram that `listen_udp` has received; a client that is known keeps its socket. -/
def recvFrom (port : UInt16) (src : SocketAddr) : Forwarder × Option Upstream :=
  match s.rules.matchRule 17 src.port defaultAddr with
  | none => (s, none)
  | some m =>
    match s.routes port src with
    | some route => (s, some route)
    | none =>
      let upstream : Upstream := ⟨if m.target.isSome then s.peerHost else localhost, m.targetPort⟩
      ({ s with routes := fun p c => if p = port ∧ c = src then some upstream else s.routes p c }, some upstream)

/-- One event; on ports without a listener nothing arrives. -/
def step (s : Forwarder) : Call → Forwarder × Option Upstream
  | .reload rules => ({ s with rules := rules }, none)
  | .accept port client => if s.listensTcp port then (s, s.accept client) else (s, none)
  | .recvFrom port src => if s.listensUdp port then s.recvFrom port src else (s, none)

end Forwarder

/-! ## What the rules ask for -/

/-- An enabled inbound rule for the protocol and the port. -/
def Rule.admits (r : Rule) (protocol : UInt8) (port : UInt16) : Bool :=
  r.enabled && r.direction = .inbound && r.protocol.matches protocol && r.covers port

/-- The first rule that admits decides, and where to. -/
def intended (s : Forwarder) (protocol : UInt8) (port : UInt16) : Option Upstream :=
  (s.rules.rules.find? fun r => r.admits protocol port).map fun r =>
    ⟨if r.target.isSome then s.peerHost else localhost, r.portFor port⟩

/-- What arrives on a port that is listened on goes where the rules in force say. -/
def AsRuled (s : Forwarder) (c : Call) : Prop :=
  match c with
  | .reload _ => True
  | .accept port _ => s.listensTcp port = true → (s.step c).2 = intended s 6 port
  | .recvFrom port _ => s.listensUdp port = true → (s.step c).2 = intended s 17 port

/-- The rule that is found for the client's port is the one that the port of the listener asks for. -/
def SameRule (s : Forwarder) (protocol : UInt8) (port clientPort : UInt16) : Prop :=
  (s.rules.activeRules.find? fun r => r.fits protocol clientPort defaultAddr) = s.rules.rules.find? fun r => r.admits protocol port

/-- The client's port makes no difference to the rule, nor to the port that is sent on to; a client that is known has
the route of the rule now in force. -/
def Unaffected (s : Forwarder) (c : Call) : Prop :=
  match c with
  | .reload _ => True
  | .accept port client => SameRule s 6 port client.port ∧ ∀ r ∈ s.rules.rules.find? (fun r => r.admits 6 port),
      if r.target.isSome then r.targetPort = 0 → client.port = port else client.port = r.portFor port
  | .recvFrom port src => SameRule s 17 port src.port ∧ ∀ r ∈ s.rules.rules.find? (fun r => r.admits 17 port),
      match s.routes port src with
      | some route => route = ⟨if r.target.isSome then s.peerHost else localhost, r.portFor port⟩
      | none => r.targetPort = 0 → src.port = port

variable {s : Forwarder} {r : Rule} {port clientPort : UInt16} {client src : SocketAddr} {protocol : UInt8}

lemma matchRule_of_same (h : SameRule s protocol port clientPort) : s.rules.matchRule protocol clientPort defaultAddr =
    (s.rules.rules.find? fun r => r.admits protocol port).map fun r => r.result clientPort := by
  rw [RuleSet.matchRule, h]

lemma portFor_eq (h : r.targetPort = 0 → clientPort = port) : r.portFor clientPort = r.portFor port := by
  by_cases hzero : r.targetPort = 0
  · rw [h hzero]
  · rw [Rule.portFor, if_neg hzero, Rule.portFor, if_neg hzero]

lemma accept_asRuled (h : Unaffected s (.accept port client)) : AsRuled s (.accept port client) := by
  intro hlistens
  obtain ⟨hsame, hport⟩ := h
  rw [Forwarder.step, if_pos hlistens]
  dsimp only
  rw [Forwarder.accept, matchRule_of_same hsame, intended]
  cases hfind : s.rules.rules.find? fun r => r.admits 6 port with
  | none => rfl
  | some r =>
    have hr := hport r hfind
    dsimp only [Option.map_some, Rule.result]
    cases htarget : r.target with
    | none =>
      rw [htarget, Option.isSome_none, if_neg Bool.false_ne_true] at hr
      rw [Option.isSome_none, if_neg Bool.false_ne_true, hr]
    | some a =>
      rw [htarget, Option.isSome_some, if_pos rfl] at hr
      rw [Option.isSome_some, if_pos rfl, portFor_eq hr]

lemma recvFrom_asRuled (h : Unaffected s (.recvFrom port src)) : AsRuled s (.recvFrom port src) := by
  intro hlistens
  obtain ⟨hsame, hroute⟩ := h
  rw [Forwarder.step, if_pos hlistens, Forwarder.recvFrom, matchRule_of_same hsame, intended]
  cases hfind : s.rules.rules.find? fun r => r.admits 17 port with
  | none => rfl
  | some r =>
    have hr := hroute r hfind
    dsimp only [Option.map_some, Rule.result]
    cases hknown : s.routes port src with
    | some route =>
      rw [hknown] at hr
      exact congrArg some hr
    | none =>
      rw [hknown] at hr
      dsimp only
      rw [portFor_eq hr]

/-- What the forwarder does go by: a connection is sent on just when an enabled rule in force fits the client's own port. -/
lemma accept_isSome_iff : (s.accept client).isSome = true ↔ ∃ r ∈ s.rules.rules, r.enabled = true ∧ r.fits 6 client.port defaultAddr = true := by
  rw [Forwarder.accept]
  cases hmatch : s.rules.matchRule 6 client.port defaultAddr with
  | none =>
    have hnone := matchRule_eq_none.mp hmatch
    exact ⟨fun h => absurd h Bool.false_ne_true, fun ⟨r, hr, henabled, hfits⟩ => absurd hfits (Bool.eq_false_iff.mp (hnone r hr henabled))⟩
  | some m =>
    obtain ⟨r, hr, henabled, hfits, -⟩ := matchRule_eq_some hmatch
    refine ⟨fun _ => ⟨r, hr, henabled, hfits⟩, fun _ => ?_⟩
    dsimp only
    split <;> rfl

/-- A rule for TCP that leads to port 8080 of the peer. -/
def webRule (portStart portEnd : UInt16) : Rule :=
  ⟨[0x77], .tcp, portStart, portEnd, [], defaultAddr.toCanonicalString, 8080, true, .inbound⟩

lemma length_clientOctets : [(203 : UInt8), 0, 113, 7].length = 4 := rfl

def someClient : SocketAddr := ⟨.v4 ⟨[203, 0, 113, 7], length_clientOctets⟩, 54321⟩

end IPv8Plus.Forward
