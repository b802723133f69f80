import IPv8Plus.Codec.AgentCard
import IPv8Plus.Lib.PrefixFree
import IPv8Plus.Tunnel.Handshake

/-!
# Signed messages

One key signs in many places: handshakes, registrations at the zone server, the resolver and the agent name service,
source routes and agent cards. Every message starts with a domain of its own. `signedMessage_unique` says that a
signature made for one purpose is good for no other one, and for no other fields. Text is its bytes.
-/

namespace IPv8Plus.Cloud
open Lib Codec Tunnel

/-! ## Proofs of possession -/

/-- The domain of `auth.rs` for registrations: `ipv8plus-register`. -/
def registerDomain : Bytes :=
  [0x69, 0x70, 0x76, 0x38, 0x70, 0x6C, 0x75, 0x73, 0x2D, 0x72, 0x65, 0x67, 0x69, 0x73, 0x74, 0x65, 0x72]

/-- The domain of `auth.rs` for new keys: `ipv8plus-rotate`. -/
def rotateDomain : Bytes := [0x69, 0x70, 0x76, 0x38, 0x70, 0x6C, 0x75, 0x73, 0x2D, 0x72, 0x6F, 0x74, 0x61, 0x74, 0x65]

/-- The domain of the resolver: `ipv8plus-resolve`. -/
def resolveDomain : Bytes := [0x69, 0x70, 0x76, 0x38, 0x70, 0x6C, 0x75, 0x73, 0x2D, 0x72, 0x65, 0x73, 0x6F, 0x6C, 0x76, 0x65]

/-- The domain of the resolver for meetings: `ipv8plus-rendezvous`. -/
def rendezvousDomain : Bytes :=
  [0x69, 0x70, 0x76, 0x38, 0x70, 0x6C, 0x75, 0x73, 0x2D, 0x72, 0x65, 0x6E, 0x64, 0x65, 0x7A, 0x76, 0x6F, 0x75, 0x73]

/-- The domain of the agent name service: `ipv8plus-ans-register`. -/
def ansRegisterDomain : Bytes :=
  [0x69, 0x70, 0x76, 0x38, 0x70, 0x6C, 0x75, 0x73, 0x2D, 0x61, 0x6E, 0x73, 0x2D, 0x72, 0x65, 0x67, 0x69, 0x73, 0x74, 0x65, 0x72]

def popMessage (domain addrText edPub : Bytes) : Bytes := domain ++ addrText ++ edPub

/-- `register_pop_message` of `auth.rs` -/
def zoneRegisterMessage (addrText edPub : Bytes) : Bytes := popMessage registerDomain addrText edPub

/-- `rotate_pop_message` -/
def rotatePopMessage (addrText newEdPub : Bytes) : Bytes := popMessage rotateDomain addrText newEdPub

/-- `register_pop_message` of the resolver -/
def resolverRegisterMessage (addrText edPub : Bytes) : Bytes := popMessage resolveDomain addrText edPub

def rendezvousPopMessage (addrText peerText : Bytes) : Bytes := popMessage rendezvousDomain addrText peerText

def ansRegisterPopMessage (name addrText : Bytes) (cardHash : Arr UInt8 16) : Bytes :=
  ansRegisterDomain ++ name ++ addrText ++ cardHash.val

/-! ## All messages -/

inductive Role where
  | initiator
  | responder
  deriving DecidableEq, Repr

def Role.byte : Role → UInt8
  | initiator => roleInit
  | responder => roleResp

/-- What a signature is for. -/
inductive Context where
  | handshake (role : Role)
  | zoneRegister
  | zoneRotate
  | resolverRegister
  | rendezvous
  | ansRegister
  | pathSig
  | cardSig
  deriving DecidableEq, Repr

/-- The bytes that say what a message is for. -/
def Context.tag : Context → Bytes
  | handshake role => authDomain ++ [role.byte]
  | zoneRegister => registerDomain
  | zoneRotate => rotateDomain
  | resolverRegister => resolveDomain
  | rendezvous => rendezvousDomain
  | ansRegister => ansRegisterDomain
  | pathSig => routeTraceDomain
  | cardSig => agentCardDomain

/-- Everything that a key of a node or an agent signs, with its fields. -/
inductive SignedMessage where
  | transcript (role : Role) (ephSelf edSelf : Arr UInt8 32) (addrSelf : IPv8Address) (notAfterSelf : UInt64)
      (ephPeer : Arr UInt8 32)
  | zoneRegister (addrText edPub : Bytes)
  | zoneRotate (addrText newEdPub : Bytes)
  | resolverRegister (addrText edPub : Bytes)
  | rendezvous (addrText peerText : Bytes)
  | ansRegister (name addrText : Bytes) (cardHash : Arr UInt8 16)
  | pathSig (input : TraceSigInput)
  | cardSig (version : UInt8) (cardHash : Arr UInt8 16) (notAfter : UInt64) (agentPubkey : PublicKey)
  deriving DecidableEq, Repr

namespace SignedMessage

def context : SignedMessage → Context
  | transcript role .. => .handshake role
  | zoneRegister .. => .zoneRegister
  | zoneRotate .. => .zoneRotate
  | resolverRegister .. => .resolverRegister
  | rendezvous .. => .rendezvous
  | ansRegister .. => .ansRegister
  | pathSig .. => .pathSig
  | cardSig .. => .cardSig

/-- The signed bytes. -/
def message : SignedMessage → Bytes
  | transcript role ephSelf edSelf addrSelf notAfterSelf ephPeer =>
    Tunnel.transcript role.byte ephSelf edSelf addrSelf notAfterSelf ephPeer
  | zoneRegister addrText edPub => zoneRegisterMessage addrText edPub
  | zoneRotate addrText newEdPub => rotatePopMessage addrText newEdPub
  | resolverRegister addrText edPub => resolverRegisterMessage addrText edPub
  | rendezvous addrText peerText => rendezvousPopMessage addrText peerText
  | ansRegister name addrText cardHash => ansRegisterPopMessage name addrText cardHash
  | pathSig input => routeTraceMessage input
  | cardSig version cardHash notAfter agentPubkey => agentCardMessage version cardHash notAfter agentPubkey

/-- What the callers have checked. -/
def Valid : SignedMessage → Prop
  | zoneRegister addrText edPub => addrText.length = 32 ∧ edPub.length = 32
  | zoneRotate addrText newEdPub => addrText.length = 32 ∧ newEdPub.length = 32
  | resolverRegister addrText edPub => addrText.length = 32 ∧ edPub.length = 32
  | rendezvous addrText peerText => addrText.length = 32 ∧ peerText.length = 32
  | ansRegister _ addrText _ => addrText.length = 32
  | pathSig input => input.minCompatVer ≤ 15 ∧ input.hops.length ≤ RouteTrace.maxHops
  | _ => True

/-- The message behind its tag. -/
def fields : SignedMessage → Bytes
  | transcript _ ephSelf edSelf addrSelf notAfterSelf ephPeer =>
    ephSelf.val ++ edSelf.val ++ addrSelf.toBytes ++ be64 notAfterSelf ++ ephPeer.val
  | zoneRegister addrText edPub => addrText ++ edPub
  | zoneRotate addrText newEdPub => addrText ++ newEdPub
  | resolverRegister addrText edPub => addrText ++ edPub
  | rendezvous addrText peerText => addrText ++ peerText
  | ansRegister name addrText cardHash => name ++ addrText ++ cardHash.val
  | pathSig input => (routeTraceMessage input).drop routeTraceDomain.length
  | cardSig version cardHash notAfter agentPubkey => [version] ++ cardHash.val ++ be64 notAfter ++ agentPubkey.val

end SignedMessage

def Context.all : List Context := [
  .handshake .initiator, .handshake .responder, .zoneRegister, .zoneRotate, .resolverRegister, .rendezvous, .ansRegister,
  .pathSig, .cardSig]

lemma Context.mem_all (c : Context) : c ∈ Context.all := by
  cases c with
  | handshake role =>
    cases role with
    | initiator => decide
    | responder => decide
  | zoneRegister => decide
  | zoneRotate => decide
  | resolverRegister => decide
  | rendezvous => decide
  | ansRegister => decide
  | pathSig => decide
  | cardSig => decide

/-- No tag is the front of another one. -/
lemma Context.tag_prefixFree : PrefixFree Context.tag := by
  have hall : ∀ a ∈ Context.all, ∀ b ∈ Context.all, a.tag <+: b.tag → a = b := by decide +kernel
  exact prefixFree_iff.mpr fun a b => hall a a.mem_all b b.mem_all

namespace SignedMessage

lemma message_eq (m : SignedMessage) : m.message = m.context.tag ++ m.fields := by
  cases m with
  | transcript role ephSelf edSelf addrSelf notAfterSelf ephPeer =>
    simp only [message, Tunnel.transcript, context, Context.tag, fields, List.append_assoc]
  | zoneRegister addrText edPub => exact List.append_assoc _ _ _
  | zoneRotate addrText newEdPub => exact List.append_assoc _ _ _
  | resolverRegister addrText edPub => exact List.append_assoc _ _ _
  | rendezvous addrText peerText => exact List.append_assoc _ _ _
  | ansRegister name addrText cardHash =>
    simp only [message, ansRegisterPopMessage, context, Context.tag, fields, List.append_assoc]
  | pathSig input =>
    have hfront : routeTraceDomain <+: routeTraceMessage input := by
      simp only [routeTraceMessage, List.append_assoc]
      exact List.prefix_append _ _
    exact (List.prefix_iff_eq_append.mp hfront).symm
  | cardSig version cardHash notAfter agentPubkey =>
    simp only [message, agentCardMessage, context, Context.tag, fields, List.append_assoc]

/-- Messages for different purposes are different. -/
lemma context_eq {a b : SignedMessage} (h : a.message = b.message) : a.context = b.context ∧ a.fields = b.fields :=
  Context.tag_prefixFree.tag_eq message_eq h

/-- Two fields of which the first has a fixed length. -/
lemma pair_inj {x y x' y' : Bytes} (hx : x.length = 32) (hx' : x'.length = 32) (h : x ++ y = x' ++ y') : x = x' ∧ y = y' :=
  List.append_inj h (hx.trans hx'.symm)

lemma minCompat_eq {c : UInt8} (h : c ≤ 15) : c &&& 0x0F = c := by
  have hall : ∀ n : Fin 256, UInt8.ofFin n ≤ 15 → UInt8.ofFin n &&& 0x0F = UInt8.ofFin n := by decide +kernel
  exact hall c.toFin h

/-- For one purpose, valid messages with the same bytes have the same fields. -/
lemma fields_inj {a b : SignedMessage} (ha : a.Valid) (hb : b.Valid) (h : a.message = b.message) : a = b := by
  obtain ⟨hcontext, hfields⟩ := context_eq h
  cases a with
  | transcript role ephSelf edSelf addrSelf notAfterSelf ephPeer =>
    cases b with
    | transcript role' ephSelf' edSelf' addrSelf' notAfterSelf' ephPeer' =>
      obtain ⟨-, rfl, rfl, rfl, rfl, rfl⟩ := transcript_inj h
      cases hcontext
      rfl
    | _ => cases hcontext
  | zoneRegister addrText edPub =>
    cases b with
    | zoneRegister addrText' edPub' =>
      obtain ⟨rfl, rfl⟩ := pair_inj ha.1 hb.1 hfields
      rfl
    | _ => cases hcontext
  | zoneRotate addrText newEdPub =>
    cases b with
    | zoneRotate addrText' newEdPub' =>
      obtain ⟨rfl, rfl⟩ := pair_inj ha.1 hb.1 hfields
      rfl
    | _ => cases hcontext
  | resolverRegister addrText edPub =>
    cases b with
    | resolverRegister addrText' edPub' =>
      obtain ⟨rfl, rfl⟩ := pair_inj ha.1 hb.1 hfields
      rfl
    | _ => cases hcontext
  | rendezvous addrText peerText =>
    cases b with
    | rendezvous addrText' peerText' =>
      obtain ⟨rfl, rfl⟩ := pair_inj ha.1 hb.1 hfields
      rfl
    | _ => cases hcontext
  | ansRegister name addrText cardHash =>
    cases b with
    | ansRegister name' addrText' cardHash' =>
      -- the name may have any length; the fields behind it have fixed lengths
      obtain ⟨hfront, hhash⟩ := List.append_inj' hfields (cardHash.property.trans cardHash'.property.symm)
      obtain ⟨rfl, rfl⟩ := List.append_inj' hfront (ha.trans hb.symm)
      cases Subtype.ext hhash
      rfl
    | _ => cases hcontext
  | pathSig input =>
    cases b with
    | pathSig input' =>
      obtain ⟨hkey, hcompat, hflags, hlen, hlimit, hsrc, hdst, hhops⟩ := routeTraceMessage_inj h
      rw [minCompat_eq ha.1, minCompat_eq hb.1] at hcompat
      cases input
      cases input'
      cases hkey
      cases hcompat
      cases hflags
      cases hlen
      cases hlimit
      cases hsrc
      cases hdst
      cases hhops
      rfl
    | _ => cases hcontext
  | cardSig version cardHash notAfter agentPubkey =>
    cases b with
    | cardSig version' cardHash' notAfter' agentPubkey' =>
      obtain ⟨rfl, rfl, rfl, rfl⟩ := agentCardMessage_inj h
      rfl
    | _ => cases hcontext

/-- No string is the signed message of two purposes, and none is the message of two valid sets of fields. -/
theorem signedMessage_unique : (∀ a b : SignedMessage, a.context ≠ b.context → a.message ≠ b.message) ∧
    ∀ a b : SignedMessage, a.Valid → b.Valid → a.message = b.message → a = b :=
  ⟨fun _ _ hne h => hne (context_eq h).1, fun _ _ ha hb h => fields_inj ha hb h⟩

/-- A registration at the zone server is none at the resolver, and only for its own address. -/
theorem signedMessage_unique_sample : let text (d : UInt8) : Bytes := List.replicate 32 d
    (zoneRegister (text 0x61) (text 7)).message ≠ (resolverRegister (text 0x61) (text 7)).message ∧
      (zoneRegister (text 0x61) (text 7)).message ≠ (zoneRegister (text 0x62) (text 7)).message := by
  intro text
  have hvalid : ∀ d, (zoneRegister (text d) (text 7)).Valid := fun d => ⟨List.length_replicate, List.length_replicate⟩
  have hcontext : (zoneRegister (text 0x61) (text 7)).context ≠ (resolverRegister (text 0x61) (text 7)).context := by
    intro h
    cases h
  refine ⟨signedMessage_unique.1 _ _ hcontext, fun h => ?_⟩
  have hsame := signedMessage_unique.2 _ _ (hvalid 0x61) (hvalid 0x62) h
  cases hsame

end SignedMessage

end IPv8Plus.Cloud
