import IPv8Plus.Tunnel.DataPlane
import IPv8Plus.Tunnel.Handshake

/-!
# The engine with its handshakes

`ipv8-tunnel/src/engine.rs` with all arms of `handle_frame_at`: both handshakes, and the data frames of `DataPlane`.
A call gets the readings of the clocks, and the ephemeral secret that it draws if it needs one.
-/

namespace IPv8Plus.Tunnel
open Lib Codec Routing

def defaultMtu : Nat := 1432

lemma length_zeroKeyId : (List.replicate 8 (0 : UInt8)).length = 8 := rfl

def zeroKeyId : KeyId := ⟨List.replicate 8 0, length_zeroKeyId⟩

/-- The engine with the state of its handshakes. `auth` and `trust` come together. `boundInit` is the body of the last
Init that was answered, `cachedResp` the frame it was answered with. -/
structure Session (S : SigScheme) (X : KeyAgreement) extends DataPlane S where
  trust : Option PublicKey
  identity : Option Identity
  pending : Option (PendingHandshake X)
  authPending : Option (AuthPending X)
  boundInit : Option Bytes
  cachedResp : Option Bytes
  lastAuthError : Option AuthError

namespace Session

variable {S : SigScheme} {X : KeyAgreement}

/-- An engine on which no handshake has begun. -/
def start (auth : Option (HostIdentity S)) (trust : Option PublicKey) (identity : Option Identity)
    (localAddr peerAddr : IPv8Address) : Session S X where
  toDataPlane := .new
    { state := .idle
      keys := none
      cipherSuite := .chaCha20Poly1305
      localAddr
      peerAddr
      mtu := defaultMtu
      fragId := 0
      sealedOutbound := 0
      fragmentsSent := 0
      sharded := false } auth
  trust
  identity
  pending := none
  authPending := none
  boundInit := none
  cachedResp := none
  lastAuthError := none

/-- `Engine::authenticated` -/
def authenticated (host : HostIdentity S) (trust : PublicKey) (localAddr peerAddr : IPv8Address) : Session S X :=
  start (some host) (some trust) none localAddr peerAddr

/-- The engine's host and anchor. -/
def authCtx (e : Session S X) : Option (HostIdentity S × PublicKey) :=
  match e.auth, e.trust with
  | some host, some trust => some (host, trust)
  | _, _ => none

/-- Ignored once there are keys. -/
def setCipherSuite (e : Session S X) (suite : CipherSuite) : Session S X :=
  if e.keys.isSome then e else { e with cipherSuite := suite }

def splitShards (e : Session S X) (now : Nat) (n : UInt64) :
    Session S X × Outcome EngineError (List TunnelKeys × IPv8Address × IPv8Address × Nat) :=
  let (engine, x) := e.toEngine.splitShards now n
  ({ e with toEngine := engine }, x)

/-- `start_handshake`: the assertions are panics. -/
def startHandshake (e : Session S X) (eph : X.Secret) : Session S X × Outcome Empty Bytes :=
  if e.state ≠ .idle then (e, .panic)
  else
    match e.identity with
    | none => (e, .panic)
    | some identity =>
      let (body, pending) := createInit identity eph
      ({ e with pending := some pending, state := .initiating }, .ok (writeHead [] .handshakeInit zeroKeyId ++ body))

def startAuthHandshake (e : Session S X) (eph : X.Secret) : Session S X × Outcome Empty Bytes :=
  if e.state ≠ .idle then (e, .panic)
  else
    match e.authCtx with
    | none => (e, .panic)
    | some (host, _) =>
      let (bundle, pending) := authInit host eph
      ({ e with authPending := some pending, state := .initiating }, .ok (writeHead [] .authInit zeroKeyId ++ bundle))

def abandonHandshake (e : Session S X) : Session S X :=
  if e.state = .initiating then
    { e with pending := none, authPending := none, boundInit := none, cachedResp := none, state := .idle }
  else e

/-- `reset`: the tunnel is given up in any state. -/
def reset (e : Session S X) : Session S X :=
  { e with state := .idle, pending := none, authPending := none, keys := none, boundInit := none, cachedResp := none }

/-! ## Frames -/

/-- The keys of a handshake are taken over. -/
def install (e : Session S X) (keys : TunnelKeys) : Session S X := { e with toEngine := e.toEngine.install keys }

/-- The keys of an answered Init are taken over, and the answer is kept. -/
def answer (e : Session S X) (keys : TunnelKeys) (body out : Bytes) : Session S X × Outcome Empty (Option Bytes) :=
  ({ e.install keys with boundInit := some body, cachedResp := some out }, .ok (some out))

/-- The Init that the tunnel was built from comes again. -/
def Rebinds (e : Session S X) (body : Bytes) : Prop := e.state = .established ∧ e.boundInit = some body

instance (e : Session S X) (body : Bytes) : Decidable (e.Rebinds body) := inferInstanceAs (Decidable (_ ∧ _))

/-- The HandshakeInit arm. -/
def handleHandshakeInit (e : Session S X) (instant : Nat) (eph : X.Secret) (body : Bytes) :
    Session S X × Outcome Empty (Option Bytes) :=
  if e.Rebinds body then (e, .ok e.cachedResp)
  else if e.state = .idle ∨ e.state = .established then
    match e.identity with
    | none => (e, .ok none)
    | some identity =>
      match acceptInit identity body instant eph with
      | .ok (resp, keys) => e.answer keys body (writeHead [] .handshakeResp zeroKeyId ++ resp)
      | .err _ => (e, .ok none)
      | .panic => (e, .panic)
  else (e, .ok none)

/-- The HandshakeResp arm: what was pending is gone even if the response is not taken. -/
def handleHandshakeResp (e : Session S X) (instant : Nat) (body : Bytes) : Session S X × Outcome Empty (Option Bytes) :=
  if e.state ≠ .initiating then (e, .ok none)
  else
    match e.pending with
    | none => (e, .ok none)
    | some pending =>
      let e := { e with pending := none }
      match finishInit pending body instant with
      | .ok keys => (e.install keys, .ok none)
      | .err _ => ({ e with state := .idle }, .ok none)
      | .panic => (e, .panic)

/-- The AuthInit arm. -/
def handleAuthInit (e : Session S X) (instant : Nat) (now : UInt64) (eph : X.Secret) (body : Bytes) :
    Session S X × Outcome Empty (Option Bytes) :=
  if e.Rebinds body then (e, .ok e.cachedResp)
  else if e.state = .idle ∨ e.state = .established then
    match e.authCtx with
    | none => (e, .ok none)
    | some (host, trust) =>
      if body.length ≠ authBundleLen then ({ e with lastAuthError := some .badBundleLen }, .ok none)
      else
        match authAccept host trust body (some e.peerAddr) now instant eph with
        | .ok (resp, keys) => { e with lastAuthError := none }.answer keys body (writeHead [] .authResp zeroKeyId ++ resp)
        | .err x => ({ e with lastAuthError := some x }, .ok none)
        | .panic => (e, .panic)
  else (e, .ok none)

/-- The AuthResp arm. -/
def handleAuthResp (e : Session S X) (instant : Nat) (now : UInt64) (body : Bytes) :
    Session S X × Outcome Empty (Option Bytes) :=
  if e.state ≠ .initiating then (e, .ok none)
  else
    match e.authPending with
    | none => (e, .ok none)
    | some pending =>
      let e := { e with authPending := none }
      match e.authCtx with
      | none => (e, .ok none)
      | some (_, trust) =>
        if body.length ≠ authBundleLen then ({ e with lastAuthError := some .badBundleLen, state := .idle }, .ok none)
        else
          match authFinishInit (S := S) pending trust (some e.peerAddr) body now instant with
          | .ok keys => ({ e.install keys with lastAuthError := none }, .ok none)
          | .err x => ({ e with lastAuthError := some x, state := .idle }, .ok none)
          | .panic => (e, .panic)

variable (A : Aead)

/-- `handle_frame_at`: what is to be sent back. -/
def handleFrameAt (e : Session S X) (instant : Nat) (now : UInt64) (eph : X.Secret) (frame : Bytes) :
    Session S X × Outcome Empty (Option Bytes) :=
  match parseHead frame with
  | .err _ => (e, .ok none)
  | .panic => (e, .panic)
  | .ok head =>
    let body := frame.drop frameHeaderSize
    match head.frameType with
    | .handshakeInit => e.handleHandshakeInit instant eph body
    | .handshakeResp => e.handleHandshakeResp instant body
    | .authInit => e.handleAuthInit instant now eph body
    | .authResp => e.handleAuthResp instant now body
    | .data =>
      let (plane, x) := e.toDataPlane.handleData A instant now frame
      ({ e with toDataPlane := plane }, (fun _ => none) <$> x)
    | .rekey => (e, .ok none)
    | .fecRecovery => (e, .ok none)
    | .receipt => (e, .ok none)

/-- The calls on an engine. -/
inductive Call (X : KeyAgreement) where
  | handleFrameAt (instant : Nat) (now : UInt64) (eph : X.Secret) (frame : Bytes)
  | startAuthHandshake (eph : X.Secret)
  | abandonHandshake
  | reset
  | setCipherSuite (suite : CipherSuite)
  | splitShards (now : Nat) (n : UInt64)
  | sealing (c : Engine.Call)

/-- The engine after a call, and the frames it sends. -/
def step (e : Session S X) : Call X → Session S X × Outcome Empty (List Bytes)
  | .handleFrameAt instant now eph frame =>
    let (e, x) := e.handleFrameAt A instant now eph frame
    (e, Option.toList <$> x)
  | .startAuthHandshake eph =>
    let (e, x) := e.startAuthHandshake eph
    (e, ([·]) <$> x)
  | .abandonHandshake => (e.abandonHandshake, .ok [])
  | .reset => (e.reset, .ok [])
  | .setCipherSuite suite => (e.setCipherSuite suite, .ok [])
  | .splitShards now n => ((e.splitShards now n).1, .ok [])
  | .sealing c =>
    let (engine, x) := e.toEngine.step A c
    ({ e with toEngine := engine }, .ok (x.getD []))

section
variable {A} {e : Session S X} {host : HostIdentity S} {trust : PublicKey} {instant : Nat} {now : UInt64} {eph : X.Secret}
  {body : Bytes}

/-- The frame that an authentic Init is answered with. -/
def respFrame (host : HostIdentity S) (eph : X.Secret) (b : Bundle) : Bytes :=
  writeHead [] .authResp zeroKeyId ++ (host.bundle roleResp (X.publicKey eph) b.eph).pack

/-- An Init of the handshake with certificates is the bound one, is not taken, or is authentic and answered. -/
theorem handleAuthInit_cases (hctx : e.authCtx = some (host, trust)) :
    (e.Rebinds body ∧ e.handleAuthInit instant now eph body = (e, .ok e.cachedResp)) ∨
    (¬ e.Rebinds body ∧ ∃ err, e.handleAuthInit instant now eph body = ({ e with lastAuthError := err }, .ok none)) ∨
    (¬ e.Rebinds body ∧ ∃ b : Bundle, body = b.pack ∧ b.addr.protocol = protocolMagic ∧
      Authentic S trust e.peerAddr now roleInit zeroEph b ∧ e.handleAuthInit instant now eph body =
        { e with lastAuthError := none }.answer (.new instant (X.diffieHellman eph b.eph) false) body (respFrame host eph b)) := by
  unfold handleAuthInit
  split
  · next hre => exact .inl ⟨hre, rfl⟩
  next hre =>
  refine .inr ?_
  split
  · rw [hctx]
    dsimp only
    split
    · exact .inl ⟨hre, _, rfl⟩
    cases haccept : authAccept host trust body (some e.peerAddr) now instant eph with
    | ok r =>
      obtain ⟨b, hpack, hmagic, hauth, hresp, hkeys⟩ := authAccept_eq_ok.mp haccept
      refine .inr ⟨hre, b, hpack, hmagic, hauth, ?_⟩
      dsimp only
      rw [hresp, hkeys]
      rfl
    | err x => exact .inl ⟨hre, some x, rfl⟩
    | panic => exact absurd haccept authAccept_ne_panic
  · exact .inl ⟨hre, e.lastAuthError, rfl⟩

/-- An authentic Init that is not the bound one replaces the keys of an established tunnel. -/
lemma handleAuthInit_established {b : Bundle} (hctx : e.authCtx = some (host, trust)) (hstate : e.state = .established)
    (hbound : e.boundInit ≠ some b.pack) (hmagic : b.addr.protocol = protocolMagic)
    (hauth : Authentic S trust e.peerAddr now roleInit zeroEph b) : e.handleAuthInit instant now eph b.pack =
      { e with lastAuthError := none }.answer (.new instant (X.diffieHellman eph b.eph) false) b.pack (respFrame host eph b) := by
  have hre : ¬ e.Rebinds b.pack := fun hre => hbound hre.2
  have haccept : authAccept host trust b.pack (some e.peerAddr) now instant eph =
      .ok ((host.bundle roleResp (X.publicKey eph) b.eph).pack, .new instant (X.diffieHellman eph b.eph) false) :=
    authAccept_eq_ok.mpr ⟨b, rfl, hmagic, hauth, rfl, rfl⟩
  unfold handleAuthInit
  rw [if_neg hre, if_pos (.inr hstate), hctx]
  dsimp only
  rw [if_neg (not_not.mpr (@Bundle.length_pack b)), haccept]
  rfl

/-- A response of the handshake with certificates is not waited for, ends the attempt, or is authentic. -/
theorem handleAuthResp_cases (hctx : e.authCtx = some (host, trust)) :
    e.handleAuthResp instant now body = (e, .ok none) ∨
    (e.state = .initiating ∧ ∃ x, e.handleAuthResp instant now body =
      ({ e with authPending := none, lastAuthError := some x, state := .idle }, .ok none)) ∨
    (e.state = .initiating ∧ ∃ (pending : AuthPending X) (b : Bundle), e.authPending = some pending ∧ body = b.pack ∧
      Authentic S trust e.peerAddr now roleResp pending.ephPub b ∧ e.handleAuthResp instant now body =
        ({ { e with authPending := none }.install (.new instant (X.diffieHellman pending.eph b.eph) true) with
          lastAuthError := none }, .ok none)) := by
  unfold handleAuthResp
  split
  · exact .inl rfl
  next hstate =>
  have hinit : e.state = .initiating := not_not.mp hstate
  cases hpending : e.authPending with
  | none => exact .inl rfl
  | some pending =>
    refine .inr ?_
    have hctx' : { e with authPending := none }.authCtx = some (host, trust) := hctx
    dsimp only
    rw [hctx']
    dsimp only
    split
    · exact .inl ⟨hinit, _, rfl⟩
    cases hfinish : authFinishInit (S := S) pending trust (some e.peerAddr) body now instant with
    | ok keys =>
      obtain ⟨b, hpack, -, hauth, rfl⟩ := authFinishInit_eq_ok.mp hfinish
      exact .inr ⟨hinit, pending, b, rfl, hpack, hauth, rfl⟩
    | err x => exact .inl ⟨hinit, x, rfl⟩
    | panic => exact absurd hfinish authFinishInit_ne_panic

/-- An engine without a plain identity does nothing with the frames of the plain handshake. -/
lemma handleHandshakeInit_eq (hidentity : e.identity = none) : (e.handleHandshakeInit instant eph body).1 = e := by
  unfold handleHandshakeInit
  split
  · rfl
  split
  · rw [hidentity]
  · rfl

lemma handleHandshakeResp_eq (hpending : e.pending = none) : (e.handleHandshakeResp instant body).1 = e := by
  unfold handleHandshakeResp
  split
  · rfl
  · rw [hpending]

/-- The arm that a frame runs into. -/
lemma handleFrameAt_authInit (keyId : KeyId) :
    e.handleFrameAt A instant now eph (writeHead [] .authInit keyId ++ body) = e.handleAuthInit instant now eph body := by
  rw [handleFrameAt, parseHead_writeHead]
  dsimp only
  rw [List.drop_left' (by rw [length_writeHead, List.length_nil, Nat.zero_add])]

lemma handleFrameAt_authResp (keyId : KeyId) :
    e.handleFrameAt A instant now eph (writeHead [] .authResp keyId ++ body) = e.handleAuthResp instant now body := by
  rw [handleFrameAt, parseHead_writeHead]
  dsimp only
  rw [List.drop_left' (by rw [length_writeHead, List.length_nil, Nat.zero_add])]

end

end Session

end IPv8Plus.Tunnel
