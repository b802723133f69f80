import IPv8Plus.Tunnel.Provenance
import IPv8Plus.Tunnel.RelayRun

/-!
# Replayed Inits

Two engines with certificates and a network that brings handshake frames they sent in any order, any number of times.
An engine remembers only the Init its tunnel was built from: another Init that it took before is taken again, and
replaces the keys. `replays_harmless` says when replayed Inits change nothing.
-/

namespace IPv8Plus.Tunnel
open Lib Codec Routing

namespace Session

variable {S : SigScheme} {X : KeyAgreement}

/-- The frame that a call brings, and its clock. -/
def Call.frame : Call X → Option (Bytes × UInt64)
  | .handleFrameAt _ now _ frame => some (frame, now)
  | _ => none

/-- The frame is one of a handshake. -/
def handshakeFrame (frame : Bytes) : Bool :=
  match parseHead frame with
  | .ok head => head.frameType ∈ [.handshakeInit, .handshakeResp, .authInit, .authResp]
  | _ => false

/-- The body of an AuthInit. -/
def initBody (frame : Bytes) : Option Bytes :=
  match parseHead frame with
  | .ok head => if head.frameType = .authInit then some (frame.drop frameHeaderSize) else none
  | _ => none

lemma initBody_eq_some {frame body : Bytes} : initBody frame = some body ↔ ∃ keyId, frame = writeHead [] .authInit keyId ++ body := by
  unfold initBody
  constructor
  · intro h
    cases hhead : parseHead frame with
    | ok head =>
      rw [hhead] at h
      dsimp only at h
      split at h
      · next htype =>
        obtain ⟨rest, hframe⟩ := parseHead_eq_ok.mp hhead
        rw [hframe, List.drop_left' (by rw [length_writeHead, List.length_nil, Nat.zero_add])] at h
        cases h
        rw [htype] at hframe
        exact ⟨head.keyId, hframe⟩
      · cases h
    | err x =>
      rw [hhead] at h
      cases h
    | panic =>
      rw [hhead] at h
      cases h
  · rintro ⟨keyId, rfl⟩
    rw [parseHead_writeHead]
    dsimp only
    rw [if_pos rfl, List.drop_left' (by rw [length_writeHead, List.length_nil, Nat.zero_add])]

end Session

/-- Two engines, the Inits that each has answered, and the frames that they sent. -/
structure EnginePair (S : SigScheme) (X : KeyAgreement) where
  engine : Bool → Session S X
  accepted : Bool → List Bytes
  sent : List Bytes

namespace EnginePair
open Session

variable {S : SigScheme} {X : KeyAgreement}

/-- Each engine's peer is the address of the other. -/
def start (host : Bool → HostIdentity S) (trust : PublicKey) (addr : Bool → IPv8Address) : EnginePair S X where
  engine side := authenticated (host side) trust (addr side) (addr (!side))
  accepted _ := []
  sent := []

/-- The call brings a handshake frame that nobody sent. -/
def Forged (w : EnginePair S X) (c : Call X) : Prop := ∃ frame ∈ c.frame.map Prod.fst, handshakeFrame frame = true ∧ frame ∉ w.sent

instance (w : EnginePair S X) (c : Call X) : Decidable (w.Forged c) := inferInstanceAs (Decidable (∃ frame ∈ c.frame.map Prod.fst, _))

/-- The Init that is answered. -/
def answeredInit (c : Call X) : Outcome Empty (List Bytes) → Option Bytes
  | .ok (_ :: _) => c.frame.bind fun frame => initBody frame.1
  | _ => none

variable (A : Aead)

/-- A call on one side. The network does not forge handshake frames. -/
def step (w : EnginePair S X) (a : Bool × Call X) : EnginePair S X × Outcome Empty (List Bytes) :=
  if w.Forged a.2 then (w, .ok [])
  else
    let (e, x) := (w.engine a.1).step A a.2
    ({ engine := Function.update w.engine a.1 e
       accepted := Function.update w.accepted a.1 (w.accepted a.1 ++ (answeredInit a.2 x).toList)
       sent := w.sent ++ x.toOption.getD [] }, x)

/-- The call brings an Init to an engine that has answered it before, and has a tunnel. -/
structure Replays (w : EnginePair S X) (a : Bool × Call X) (body : Bytes) : Prop where
  sent : ¬ w.Forged a.2
  init : a.2.IsInit body
  accepted : body ∈ w.accepted a.1
  established : (w.engine a.1).state = .established

/-- Both sides have a tunnel, with keys of the same secret and opposite roles. -/
def Agree (w : EnginePair S X) : Prop := (∀ side, (w.engine side).state = .established) ∧
  ∃ k ∈ (w.engine false).keys, ∃ k' ∈ (w.engine true).keys, k'.dh = k.dh ∧ k'.isInitiator = !k.isInitiator

/-- A replayed Init leaves the engine's keys, windows, state and data plane, and the agreement of the two sides. -/
def Harmless (w : EnginePair S X) (a : Bool × Call X) : Prop := ∀ body, w.Replays a body →
  ((w.step A a).1.engine a.1).toDataPlane = (w.engine a.1).toDataPlane ∧ (w.Agree → (w.step A a).1.Agree)

/-- A replayed Init is the one the tunnel was built from, or its certificate has expired. -/
def Remembered (w : EnginePair S X) (a : Bool × Call X) : Prop := ∀ body, w.Replays a body →
  (w.engine a.1).boundInit = some body ∨ ∀ b : Bundle, body = b.pack → ∀ frame ∈ a.2.frame, b.notAfter < frame.2

/-- A replayed Init that is taken again: the keys are made anew, from a secret that the other side does not have. -/
def Rekeys (w : EnginePair S X) (a : Bool × Call X) : Prop := ∃ instant now eph frame, a.2 = .handleFrameAt instant now eph frame ∧
  ∃ b : Bundle, w.Replays a b.pack ∧ ((w.step A a).1.engine a.1).keys =
    some ((TunnelKeys.new instant (X.diffieHellman eph b.eph) false).setSuite (w.engine a.1).cipherSuite).1

section
variable {A : Aead} {host : Bool → HostIdentity S} {trust : PublicKey} {addr : Bool → IPv8Address} {w : EnginePair S X}
  {a : Bool × Call X}

lemma answeredInit_eq_some {c : Call X} {x : Outcome Empty (List Bytes)} {body : Bytes} (h : answeredInit c x = some body) :
    c.IsInit body ∧ x ≠ .ok [] := by
  cases x with
  | err x => cases h
  | panic => cases h
  | ok frames =>
    cases frames with
    | nil => cases h
    | cons resp rest =>
      refine ⟨?_, ?_⟩
      · obtain ⟨frame, hframe, hbody⟩ := Option.bind_eq_some_iff.mp h
        cases c with
        | handleFrameAt instant now eph frame' =>
          cases hframe
          exact initBody_eq_some.mp hbody
        | _ => cases hframe
      · intro hnil
        cases hnil

/-- Both engines have what they started with, every Init that was answered was authentic when it was, and an Init that
is bound was answered. -/
structure Inv (host : Bool → HostIdentity S) (trust : PublicKey) (addr : Bool → IPv8Address) (w : EnginePair S X) : Prop where
  static : ∀ side, (w.engine side).Static (host side) trust (addr (!side))
  accepted : ∀ side, ∀ body ∈ w.accepted side, ∃ (b : Bundle) (now : UInt64), body = b.pack ∧ b.addr.protocol = protocolMagic ∧
    Authentic S trust (addr (!side)) now roleInit zeroEph b
  bound : ∀ side, ∀ body ∈ (w.engine side).boundInit, body ∈ w.accepted side

lemma inv_start (host : Bool → HostIdentity S) (trust : PublicKey) (addr : Bool → IPv8Address) :
    (start host trust addr : EnginePair S X).Inv host trust addr where
  static side := static_start (host side) trust (addr side) (addr (!side))
  accepted side body hbody := absurd hbody List.not_mem_nil
  bound side body hbody := by cases hbody

lemma step_of_forged (h : w.Forged a.2) : w.step A a = (w, .ok []) := if_pos h

/-- The engine after a call that is not forged, and the Inits it has answered. -/
lemma step_engine (h : ¬ w.Forged a.2) : (w.step A a).1.engine a.1 = ((w.engine a.1).step A a.2).1 := by
  unfold step
  rw [if_neg h]
  exact Function.update_self _ _ _

lemma step_accepted (h : ¬ w.Forged a.2) : (w.step A a).1.accepted a.1 =
    w.accepted a.1 ++ (answeredInit a.2 ((w.engine a.1).step A a.2).2).toList := by
  unfold step
  rw [if_neg h]
  exact Function.update_self _ _ _

/-- Nothing happens on the other side. -/
lemma step_other {side : Bool} (hside : side ≠ a.1) : (w.step A a).1.engine side = w.engine side ∧
    (w.step A a).1.accepted side = w.accepted side := by
  unfold step
  split
  · exact ⟨rfl, rfl⟩
  · exact ⟨Function.update_of_ne hside _ _, Function.update_of_ne hside _ _⟩

/-- Every Init that is answered is authentic, now or when it was answered before. -/
lemma Inv.answered (h : w.Inv host trust addr) {body : Bytes}
    (hbody : answeredInit a.2 ((w.engine a.1).step A a.2).2 = some body) : ∃ (b : Bundle) (now : UInt64), body = b.pack ∧
      b.addr.protocol = protocolMagic ∧ Authentic S trust (addr (!a.1)) now roleInit zeroEph b := by
  obtain ⟨hinit, hne⟩ := answeredInit_eq_some hbody
  rcases @step_init _ _ A _ _ _ _ _ _ (h.static a.1) hinit with ⟨hre, -⟩ | ⟨-, err, heq⟩ | ⟨-, instant, now, eph, frame, b, -, hpack, hmagic, hauth, -⟩
  · exact h.accepted a.1 body (h.bound a.1 body hre.2)
  · rw [heq] at hne
    exact absurd rfl hne
  · rw [(h.static a.1).peer] at hauth
    exact ⟨b, now, hpack, hmagic, hauth⟩

lemma Inv.step (h : w.Inv host trust addr) (a : Bool × Call X) : (w.step A a).1.Inv host trust addr := by
  by_cases hforged : w.Forged a.2
  · rw [step_of_forged hforged]
    exact h
  obtain ⟨hstatic, heffect⟩ := @step_effect _ _ A _ _ _ _ (h.static a.1) a.2
  refine ⟨fun side => ?_, fun side => ?_, fun side => ?_⟩
  · by_cases hside : side = a.1
    · rw [hside, step_engine hforged]
      exact hstatic
    · rw [(step_other hside).1]
      exact h.static side
  · by_cases hside : side = a.1
    · rw [hside, step_accepted hforged]
      intro body hbody
      rcases List.mem_append.mp hbody with hold | hnew
      · exact h.accepted a.1 body hold
      · exact h.answered (Option.mem_toList.mp hnew)
    · rw [(step_other hside).2]
      exact h.accepted side
  · by_cases hside : side = a.1
    · rw [hside, step_engine hforged, step_accepted hforged]
      intro body hbody
      rw [List.mem_append]
      cases heffect with
      | same hsame again =>
        rw [hsame.boundInit] at hbody
        exact .inl (h.bound a.1 body hbody)
      | answered body' resp hinit hauth hstate hbound hcached hanswer hfresh =>
        rw [hbound] at hbody
        cases hbody
        refine .inr (Option.mem_toList.mpr ?_)
        rw [hanswer]
        obtain ⟨side, c⟩ := a
        cases c with
        | handleFrameAt instant now eph frame => exact initBody_eq_some.mpr hinit
        | _ => exact hinit.elim
      | taken hauth hinitiating hstate hbound hcached =>
        rw [hbound] at hbody
        exact .inl (h.bound a.1 body hbody)
      | left hstate hkeys hbound =>
        rcases hbound with ⟨hbound, -⟩ | ⟨-, hbound, -⟩
        · rw [hbound] at hbody
          cases hbody
        · rw [hbound] at hbody
          exact .inl (h.bound a.1 body hbody)
    · rw [(step_other hside).1, (step_other hside).2]
      exact h.bound side

/-- The agreement is about the data planes alone. -/
lemma Agree.congr {w' : EnginePair S X} (h : w.Agree) (heq : ∀ side, (w'.engine side).toDataPlane = (w.engine side).toDataPlane) :
    w'.Agree := by
  have hstate : ∀ side, (w'.engine side).state = (w.engine side).state := fun side =>
    congrArg (fun e : DataPlane S => e.state) (heq side)
  have hkeys : ∀ side, (w'.engine side).keys = (w.engine side).keys := fun side =>
    congrArg (fun e : DataPlane S => e.keys) (heq side)
  refine ⟨fun side => (hstate side).trans (h.1 side), ?_⟩
  rw [hkeys, hkeys]
  exact h.2

/-- What is remembered does no harm. -/
lemma Inv.harmless (h : w.Inv host trust addr) (hremembered : w.Remembered a) : w.Harmless A a := by
  intro body hreplay
  have hplane : ((w.step A a).1.engine a.1).toDataPlane = (w.engine a.1).toDataPlane := by
    rw [step_engine hreplay.sent]
    rcases @step_init _ _ A _ _ _ _ _ _ (h.static a.1) hreplay.init with
      ⟨-, heq⟩ | ⟨-, err, heq⟩ | ⟨hre, instant, now, eph, frame, b, hcall, hpack, -, hauth, -⟩
    · rw [heq]
    · rw [heq]
    · exfalso
      rcases hremembered body hreplay with hbound | hexpired
      · exact hre ⟨hreplay.established, hbound⟩
      · have hlt := hexpired b hpack (frame, now) (by rw [hcall]; rfl)
        exact absurd hauth.cert.2 (UInt64.not_le.mpr hlt)
  refine ⟨hplane, fun hagree => hagree.congr fun side => ?_⟩
  by_cases hside : side = a.1
  · rw [hside]
    exact hplane
  · rw [(step_other hside).1]

/-- And what is not is taken again. -/
lemma Inv.rekeys (h : w.Inv host trust addr) (hremembered : ¬ w.Remembered a) : w.Rekeys A a := by
  unfold Remembered at hremembered
  push Not at hremembered
  obtain ⟨body, hreplay, hbound, b, rfl, frame, hframe, hvalid⟩ := hremembered
  obtain ⟨b', now', hpack, hmagic, hauth⟩ := h.accepted a.1 b.pack hreplay.accepted
  cases Bundle.pack_injective hpack
  obtain ⟨side, c⟩ := a
  cases c with
  | handleFrameAt instant now eph bytes =>
    cases hframe
    have hnow : now ≤ b.notAfter := UInt64.not_lt.mp hvalid
    refine ⟨instant, now, eph, bytes, rfl, b, hreplay, ?_⟩
    obtain ⟨keyId, hbytes⟩ := hreplay.init
    rw [step_engine hreplay.sent]
    have hauth' : Authentic S trust (w.engine side).peerAddr now roleInit zeroEph b := by
      rw [(h.static side).peer]
      exact ⟨hauth.addr, ⟨hauth.cert.1, hnow⟩, hauth.validKey, hauth.signed⟩
    have harm := @handleAuthInit_established _ _ _ _ _ instant now eph b (h.static side).authCtx hreplay.established hbound hmagic hauth'
    have hstep : ((w.engine side).step A (.handleFrameAt instant now eph bytes)).1 =
        ((w.engine side).handleFrameAt A instant now eph bytes).1 := rfl
    rw [hstep, hbytes, handleFrameAt_authInit, harm]
    rfl
  | _ => cases hframe

end

/-- In a run in which every replayed Init is the one the tunnel was built from, or expired, replayed Inits change nothing
of a tunnel. Any other replayed Init makes the keys anew. -/
theorem replays_harmless (A : Aead) (host : Bool → HostIdentity S) (trust : PublicKey) (addr : Bool → IPv8Address)
    (actions : List (Bool × Call X)) : let w : EnginePair S X := start host trust addr
    (Along (step A) Remembered w actions → Along (step A) (Harmless A) w actions) ∧
      Along (step A) (fun w a => ¬ w.Remembered a → w.Rekeys A a) w actions := by
  intro w
  have hinv : w.Inv host trust addr := inv_start host trust addr
  have hstep : ∀ (w : EnginePair S X) (a : Bool × Call X), w.Inv host trust addr → (w.step A a).1.Inv host trust addr :=
    fun w a h => h.step a
  constructor
  · intro hall
    exact Along.of_invariant (fun w a h _ => hstep w a h) (fun w a h hremembered => h.harmless hremembered) hinv hall
  · exact Along.of_invariant (fun w a h _ => hstep w a h) (fun w a h _ hnot => h.rekeys hnot) hinv
      (along_of_forall fun _ _ => trivial)

/-- Two hosts with certificates of one authority. -/
def samplePeer (side : Bool) : HostIdentity sampleSig where
  addr := sampleAddr side.toUInt16
  signing := sampleKey side.toUInt8
  cert := issue sampleSig (sampleKey 9) (sampleAddr side.toUInt16) (sampleKey side.toUInt8) 100

@[inherit_doc samplePeer] def samplePair : EnginePair sampleSig sampleAgreement :=
  start samplePeer (sampleKey 9) fun side => sampleAddr side.toUInt16

/-- The Init of the first host for an ephemeral key, and the handshake it begins with the second. -/
def sampleInit (eph : UInt8) : Bundle := (samplePeer false).bundle roleInit (sampleKey eph) zeroEph

@[inherit_doc sampleInit] def sampleHandshake (eph : UInt8) : List (Bool × Call sampleAgreement) := [
  (false, .startAuthHandshake (sampleKey eph)),
  (true, .handleFrameAt 0 0 (sampleKey (eph + 1)) (writeHead [] .authInit zeroKeyId ++ (sampleInit eph).pack)),
  (false, .handleFrameAt 0 0 (sampleKey 0) (respFrame (X := sampleAgreement) (samplePeer true) (sampleKey (eph + 1)) (sampleInit eph)))]

/-- A replayed Init, at an engine with a fresh ephemeral key. -/
def sampleReplay (eph : UInt8) : Bool × Call sampleAgreement :=
  (true, .handleFrameAt 1 1 (sampleKey 77) (writeHead [] .authInit zeroKeyId ++ (sampleInit eph).pack))

/-- The first host has built a tunnel twice. The Init of the first tunnel, which the second host has answered before,
comes again: it replaces the keys, and the two sides have different ones. -/
theorem replay_kills : let w := (run (step sampleAead) samplePair (sampleHandshake 10 ++ [(false, .reset)] ++ sampleHandshake 20)).1
    w.Replays (sampleReplay 10) (sampleInit 10).pack ∧ w.Agree ∧
      ((w.step sampleAead (sampleReplay 10)).1.engine true).keys.map (·.dh) ≠ (w.engine true).keys.map (·.dh) ∧
      ¬ (w.step sampleAead (sampleReplay 10)).1.Agree := by
  intro w
  have hsent : ¬ w.Forged (sampleReplay 10).2 ∧ (sampleInit 10).pack ∈ w.accepted (sampleReplay 10).1 ∧
      (w.engine (sampleReplay 10).1).state = .established := by
    decide +kernel
  have hagree : w.Agree ∧ ((w.step sampleAead (sampleReplay 10)).1.engine true).keys.map (·.dh) ≠ (w.engine true).keys.map (·.dh) ∧
      ¬ (w.step sampleAead (sampleReplay 10)).1.Agree := by
    unfold Agree
    decide +kernel
  have hinit : (sampleReplay 10).2.IsInit (sampleInit 10).pack := ⟨zeroKeyId, rfl⟩
  exact ⟨⟨hsent.1, hinit, hsent.2.1, hsent.2.2⟩, hagree⟩

/-- The Init of the tunnel comes again, and is answered from memory. -/
theorem replays_harmless_sample : Along (step sampleAead) (Harmless sampleAead) samplePair (sampleHandshake 10 ++ [sampleReplay 10]) ∧
    (run (step sampleAead) samplePair (sampleHandshake 10 ++ [sampleReplay 10])).1.Agree := by
  have hremembered : Along (step sampleAead) (fun w a => ∀ frame ∈ a.2.frame, ∀ body ∈ initBody frame.1,
      (w.engine a.1).boundInit = some body ∨ body ∉ w.accepted a.1) samplePair (sampleHandshake 10 ++ [sampleReplay 10]) := by
    decide +kernel
  refine ⟨(replays_harmless sampleAead samplePeer _ _ _).1 (Along.mono hremembered fun w a h body hreplay => ?_), ?_⟩
  · obtain ⟨instant, now, eph, frame, hcall⟩ : ∃ instant now eph frame, a.2 = .handleFrameAt instant now eph frame := by
      have hinit := hreplay.init
      cases hc : a.2 with
      | handleFrameAt instant now eph frame => exact ⟨instant, now, eph, frame, rfl⟩
      | _ =>
        rw [hc] at hinit
        exact hinit.elim
    have hinit := hreplay.init
    rw [hcall] at hinit
    have hbody := h (frame, now) (by rw [hcall]; rfl) body (initBody_eq_some.mpr hinit)
    exact .inl (hbody.resolve_right (not_not.mpr hreplay.accepted))
  · unfold Agree
    decide +kernel

end EnginePair

end IPv8Plus.Tunnel
