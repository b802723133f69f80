import IPv8Plus.Lib.Run
import IPv8Plus.Tunnel.Receiver
import IPv8Plus.Tunnel.Session

/-!
# Where the keys come from

The keys of an engine with certificates, and the state Established, only come from frames that authenticate the
peer. `key_provenance` says so for every run, and what the other frames of the handshakes leave alone.
-/

namespace IPv8Plus.Tunnel
open Lib Codec Routing

/-! ## Keys in use -/

/-- What keys are made from: the secret, and the side that has them. -/
def TunnelKeys.source (k : TunnelKeys) : Dh × Bool := (k.dh, k.isInitiator)

section
variable {A : Aead} {keys : TunnelKeys} {S : SigScheme}

lemma openCipher_source (keyId : KeyId) : (keys.openCipher keyId).1.source = keys.source := by
  unfold TunnelKeys.openCipher
  split
  · rfl
  split
  · rfl
  dsimp only
  split
  · rfl
  split
  · rfl
  split
  · rfl
  · rfl

lemma prune_source : keys.prune.source = keys.source := by
  unfold TunnelKeys.prune
  split
  · rfl
  · rfl

/-- Opening frames does not change what the keys are made from. -/
lemma openWith_source (kind : FrameKind) (keyId : KeyId) (body aad : Bytes) :
    (keys.openWith A kind keyId body aad).1.source = keys.source := by
  have hcipher := @openCipher_source keys keyId
  unfold TunnelKeys.openWith
  split
  · rfl
  dsimp only
  rcases hx : keys.openCipher keyId with ⟨keys', x | ⟨epoch, cipher⟩⟩
  · rw [hx] at hcipher
    exact hcipher
  · rw [hx] at hcipher
    dsimp only
    split
    · exact hcipher
    have hset : ∀ ws, (keys'.setWindows kind ws).prune.source = keys.source := by
      intro ws
      rw [prune_source]
      cases kind with
      | data => exact hcipher
      | receipt => exact hcipher
    split
    · exact hset _
    · exact hset _

lemma decapsulate_source (frame : Bytes) : (decapsulate A keys frame).1.source = keys.source :=
  @decapsulate_keys A keys (fun k => k.source = keys.source) frame rfl (openWith_source .data)

lemma sendEpochReady_source (now : Nat) : (keys.sendEpochReady now).1.source = keys.source := by
  have hrotate : (keys.rotateIfDue now).source = keys.source := by
    unfold TunnelKeys.rotateIfDue
    split
    · rfl
    · rfl
  unfold TunnelKeys.sendEpochReady
  dsimp only
  split
  · split
    · exact hrotate
    · exact hrotate
  · exact hrotate

/-- Neither does sealing. -/
lemma sealWith_source (kind : FrameKind) (now : Nat) (aad plaintext : Bytes) :
    (keys.sealWith A kind now aad plaintext).1.source = keys.source := by
  have hready := @sendEpochReady_source keys now
  unfold TunnelKeys.sealWith
  cases kind with
  | data => exact hready
  | receipt => exact hready

/-- The keys that are left are made from what the keys before were made from. -/
def SameSource (before after : Option TunnelKeys) : Prop := ∀ k' ∈ after, ∃ k ∈ before, k'.source = k.source

lemma SameSource.refl (keys : Option TunnelKeys) : SameSource keys keys := fun k hk => ⟨k, hk, rfl⟩

/-- A sealing call touches neither the state of the handshake nor what the keys are made from. -/
lemma engineStep_control (e : Engine) (c : Engine.Call) : (e.step A c).1.state = e.state ∧ (e.step A c).1.peerAddr = e.peerAddr ∧
    (e.step A c).1.sharded = e.sharded ∧ SameSource e.keys (e.step A c).1.keys := by
  have hsource : SameSource e.keys (e.step A c).1.keys := by
    refine Engine.step_keys (fun k now kind aad plaintext h => ?_) (fun k hk => ⟨k, hk, rfl⟩) c
    obtain ⟨k₀, hk₀, h⟩ := h
    exact ⟨k₀, hk₀, (sealWith_source kind now aad plaintext).trans h⟩
  have hpacket : ∀ (e : Engine) (keys : TunnelKeys) (now : Nat) (packet : Bytes), let e' := (e.sealPacket A keys now packet).1
      e'.state = e.state ∧ e'.peerAddr = e.peerAddr ∧ e'.sharded = e.sharded := by
    intro e keys now packet
    unfold Engine.sealPacket
    split
    · exact ⟨rfl, rfl, rfl⟩
    split
    · exact ⟨rfl, rfl, rfl⟩
    · exact ⟨rfl, rfl, rfl⟩
    · exact ⟨rfl, rfl, rfl⟩
  have hfields : (e.step A c).1.state = e.state ∧ (e.step A c).1.peerAddr = e.peerAddr ∧ (e.step A c).1.sharded = e.sharded := by
    cases c with
    | sealFrame now innerIp =>
      unfold Engine.step Engine.sealFrame
      dsimp only
      split
      · exact ⟨rfl, rfl, rfl⟩
      split
      · exact ⟨rfl, rfl, rfl⟩
      · exact ⟨rfl, rfl, rfl⟩
      · exact hpacket _ _ _ _
    | sealFrames clock innerIp =>
      unfold Engine.step Engine.sealFrames
      dsimp only
      split
      · exact ⟨rfl, rfl, rfl⟩
      split
      · exact ⟨rfl, rfl, rfl⟩
      · exact ⟨rfl, rfl, rfl⟩
      split
      · exact ⟨rfl, rfl, rfl⟩
      · exact ⟨rfl, rfl, rfl⟩
      split
      · exact ⟨rfl, rfl, rfl⟩
      · exact ⟨rfl, rfl, rfl⟩
      · exact ⟨rfl, rfl, rfl⟩
    | sealPrebuilt now packet =>
      unfold Engine.step Engine.sealPrebuilt
      dsimp only
      split
      · exact ⟨rfl, rfl, rfl⟩
      · exact hpacket _ _ _ _
    | sealReceipt now report =>
      unfold Engine.step Engine.sealReceipt
      dsimp only
      split
      · exact ⟨rfl, rfl, rfl⟩
      · exact ⟨rfl, rfl, rfl⟩
  exact ⟨hfields.1, hfields.2.1, hfields.2.2, hsource⟩

namespace DataPlane

variable {e : DataPlane S} {instant : Nat} {now : UInt64} {pkt frame : Bytes}

lemma ingest_engine : (e.ingest pkt now).1.toEngine = e.toEngine ∧ (e.ingest pkt now).1.auth = e.auth := by
  unfold ingest
  split
  · exact ⟨rfl, rfl⟩
  · exact ⟨rfl, rfl⟩
  split
  · exact ⟨rfl, rfl⟩
  split
  · split
    · exact ⟨rfl, rfl⟩
    · exact ⟨rfl, rfl⟩
  · unfold forward
    split
    · exact ⟨rfl, rfl⟩
    split
    · exact ⟨rfl, rfl⟩
    · exact ⟨rfl, rfl⟩
    · exact ⟨rfl, rfl⟩
  · exact ⟨rfl, rfl⟩
  · exact ⟨rfl, rfl⟩

lemma receive_engine : (e.receive instant now pkt).1.toEngine = e.toEngine ∧ (e.receive instant now pkt).1.auth = e.auth := by
  unfold receive
  split
  · exact ⟨rfl, rfl⟩
  · exact ⟨rfl, rfl⟩
  split
  · dsimp only
    split
    · exact ingest_engine
    · exact ⟨rfl, rfl⟩
    · exact ⟨rfl, rfl⟩
    · exact ⟨rfl, rfl⟩
  · exact ingest_engine

/-- A data frame touches nothing of the engine but its keys, and these stay what they were made from. -/
lemma handleData_engine : (e.handleData A instant now frame).1.auth = e.auth ∧ ∃ keys',
    (e.handleData A instant now frame).1.toEngine = { e.toEngine with keys := keys' } ∧ SameSource e.keys keys' := by
  unfold handleData openFrame
  cases hkeys : e.keys with
  | none =>
    have hsame : e.toEngine = { e.toEngine with keys := none } := by
      rw [← hkeys]
    exact ⟨rfl, none, hsame, SameSource.refl none⟩
  | some keys =>
    have hsource := @decapsulate_source A keys frame
    dsimp only
    generalize decapsulate A keys frame = x at hsource
    rcases x with ⟨keys', pkt | x | _⟩
    · obtain ⟨hengine, hauth⟩ := @receive_engine _ { e with keys := some keys' } instant now pkt
      refine ⟨hauth, some keys', hengine, ?_⟩
      rintro k' ⟨⟩
      exact ⟨keys, rfl, hsource⟩
    · refine ⟨rfl, some keys', rfl, ?_⟩
      rintro k' ⟨⟩
      exact ⟨keys, rfl, hsource⟩
    · refine ⟨rfl, some keys', rfl, ?_⟩
      rintro k' ⟨⟩
      exact ⟨keys, rfl, hsource⟩

end DataPlane

end

/-! ## What a call does -/

namespace Session

variable {S : SigScheme} {X : KeyAgreement}

/-- The call brings an Init of the handshake with certificates with this body. -/
def Call.IsInit (body : Bytes) : Call X → Prop
  | .handleFrameAt _ _ _ frame => ∃ keyId, frame = writeHead [] .authInit keyId ++ body
  | _ => False

/-- The call brings a bundle that authenticates the peer at its clock: in an Init, or in a response to the ephemeral
key that the engine waits with. -/
def Authenticates (e : Session S X) (trust : PublicKey) : Call X → Prop
  | .handleFrameAt _ now _ frame => ∃ (keyId : KeyId) (b : Bundle),
      (frame = writeHead [] .authInit keyId ++ b.pack ∧ Authentic S trust e.peerAddr now roleInit zeroEph b) ∨
      (frame = writeHead [] .authResp keyId ++ b.pack ∧ e.state = .initiating ∧ ∃ pending, e.authPending = some pending ∧
        pending.ephPub = X.publicKey pending.eph ∧ Authentic S trust e.peerAddr now roleResp pending.ephPub b)
  | _ => False

/-- What an engine with certificates has from the start: no call changes it. -/
structure Static (host : HostIdentity S) (trust : PublicKey) (peer : IPv8Address) (e : Session S X) : Prop where
  auth : e.auth = some host
  trust : e.trust = some trust
  peer : e.peerAddr = peer
  identity : e.identity = none
  pending : e.pending = none
  ephPub : ∀ p ∈ e.authPending, p.ephPub = X.publicKey p.eph

/-- Nothing happens to the handshake. -/
structure Same (e e' : Session S X) : Prop where
  state : e'.state = e.state
  boundInit : e'.boundInit = e.boundInit
  cachedResp : e'.cachedResp = e.cachedResp
  keys : SameSource e.keys e'.keys

/-- What a call does: nothing to the handshake, an Init is answered, a response is taken, or the handshake is not
established afterwards. -/
inductive Effect (trust : PublicKey) (e : Session S X) (c : Call X) (e' : Session S X) (x : Outcome Empty (List Bytes)) : Prop where
  | same (hsame : e.Same e') (again : ∀ body, c.IsInit body → e.Rebinds body → x = .ok e.cachedResp.toList)
  | answered (body resp : Bytes) (hinit : c.IsInit body) (hauth : e.Authenticates trust c) (hstate : e'.state = .established)
      (hbound : e'.boundInit = some body) (hcached : e'.cachedResp = some resp) (hanswer : x = .ok [resp])
      (hfresh : ¬ e.Rebinds body)
  | taken (hauth : e.Authenticates trust c) (hinitiating : e.state = .initiating) (hstate : e'.state = .established)
      (hbound : e'.boundInit = e.boundInit) (hcached : e'.cachedResp = e.cachedResp)
  | left (hstate : e'.state ≠ .established) (hkeys : SameSource e.keys e'.keys)
      (hbound : (e'.boundInit = none ∧ e'.cachedResp = none) ∨
        (e.state ≠ .established ∧ e'.boundInit = e.boundInit ∧ e'.cachedResp = e.cachedResp))

section
variable {A : Aead} {host : HostIdentity S} {trust : PublicKey} {peer : IPv8Address} {e : Session S X} {instant : Nat}
  {now : UInt64} {eph : X.Secret} {frame body : Bytes}

lemma Same.refl (e : Session S X) : e.Same e := ⟨rfl, rfl, rfl, SameSource.refl _⟩

lemma Static.authCtx (h : e.Static host trust peer) : e.authCtx = some (host, trust) := by
  unfold Session.authCtx
  rw [h.auth, h.trust]

/-- Only a frame with this head is such an Init. -/
lemma frameType_of_isInit {head : FrameHead} (hhead : parseHead frame = .ok head)
    (h : Call.IsInit body (.handleFrameAt (X := X) instant now eph frame)) : head.frameType = .authInit := by
  obtain ⟨keyId, rfl⟩ := h
  rw [parseHead_writeHead] at hhead
  cases hhead
  rfl

/-- A frame that is no such Init and does nothing to the handshake. -/
lemma Effect.other {head : FrameHead} {e' : Session S X} {x : Outcome Empty (List Bytes)} (hhead : parseHead frame = .ok head)
    (htype : head.frameType ≠ .authInit) (hsame : e.Same e') : Effect trust e (.handleFrameAt instant now eph frame) e' x :=
  .same hsame fun _ hinit => absurd (frameType_of_isInit hhead hinit) htype

lemma handleAuthInit_effect (h : e.Static host trust peer) (keyId : KeyId) (hframe : frame = writeHead [] .authInit keyId ++ body) :
    (e.handleAuthInit instant now eph body).1.Static host trust peer ∧
      Effect trust e (.handleFrameAt instant now eph frame) (e.handleAuthInit instant now eph body).1
        (Option.toList <$> (e.handleAuthInit instant now eph body).2) := by
  have hbody : ∀ body', Call.IsInit body' (.handleFrameAt (X := X) instant now eph frame) → body' = body := by
    rintro body' ⟨keyId', hframe'⟩
    have hlen : (writeHead [] .authInit keyId').length = (writeHead [] .authInit keyId).length := by
      rw [length_writeHead, length_writeHead]
    exact (List.append_inj (hframe'.symm.trans hframe) hlen).2
  have hcases := @handleAuthInit_cases _ _ e host trust instant now eph body h.authCtx
  rcases hcases with ⟨hre, heq⟩ | ⟨hre, err, heq⟩ | ⟨hre, b, rfl, -, hauth, heq⟩
  · rw [heq]
    exact ⟨h, .same (Same.refl e) fun _ _ _ => rfl⟩
  · rw [heq]
    refine ⟨⟨h.auth, h.trust, h.peer, h.identity, h.pending, h.ephPub⟩, .same ⟨rfl, rfl, rfl, SameSource.refl _⟩ ?_⟩
    intro body' hinit hre'
    cases hbody body' hinit
    exact absurd hre' hre
  · rw [heq]
    refine ⟨⟨h.auth, h.trust, h.peer, h.identity, h.pending, h.ephPub⟩, ?_⟩
    exact .answered b.pack _ ⟨keyId, hframe⟩ ⟨keyId, b, .inl ⟨hframe, hauth⟩⟩ rfl rfl rfl rfl hre

lemma handleAuthResp_effect (h : e.Static host trust peer) (keyId : KeyId) (hframe : frame = writeHead [] .authResp keyId ++ body) :
    (e.handleAuthResp instant now body).1.Static host trust peer ∧
      Effect trust e (.handleFrameAt instant now eph frame) (e.handleAuthResp instant now body).1
        (Option.toList <$> (e.handleAuthResp instant now body).2) := by
  have hhead : parseHead frame = .ok ⟨.authResp, keyId⟩ := by
    rw [hframe, parseHead_writeHead]
  have htype : FrameType.authResp ≠ .authInit := by decide
  have hidle : State.idle ≠ .established := by decide
  have hcases := @handleAuthResp_cases _ _ e host trust instant now body h.authCtx
  rcases hcases with heq | ⟨hinit, err, heq⟩ | ⟨hinit, pending, b, hpending, rfl, hauth, heq⟩
  · rw [heq]
    exact ⟨h, .other hhead htype (Same.refl e)⟩
  · rw [heq]
    refine ⟨⟨h.auth, h.trust, h.peer, h.identity, h.pending, fun p hp => by cases hp⟩, ?_⟩
    have hne : e.state ≠ .established := by
      rw [hinit]
      decide
    exact .left hidle (SameSource.refl _) (.inr ⟨hne, rfl, rfl⟩)
  · rw [heq]
    refine ⟨⟨h.auth, h.trust, h.peer, h.identity, h.pending, fun p hp => by cases hp⟩, ?_⟩
    exact .taken ⟨keyId, b, .inr ⟨hframe, hinit, pending, hpending, h.ephPub pending hpending, hauth⟩⟩ hinit rfl rfl rfl

/-- Frames of the plain handshake do nothing. -/
lemma handleFrameAt_plain {head : FrameHead} (h : e.Static host trust peer) (hhead : parseHead frame = .ok head)
    (htype : head.frameType = .handshakeInit ∨ head.frameType = .handshakeResp) :
    (e.handleFrameAt A instant now eph frame).1 = e := by
  rw [handleFrameAt, hhead]
  dsimp only
  rcases htype with htype | htype
  · rw [htype]
    exact handleHandshakeInit_eq h.identity
  · rw [htype]
    exact handleHandshakeResp_eq h.pending

lemma handleFrameAt_data {head : FrameHead} (h : e.Static host trust peer) (hhead : parseHead frame = .ok head)
    (htype : head.frameType = .data) : (e.handleFrameAt A instant now eph frame).1.Static host trust peer ∧
      e.Same (e.handleFrameAt A instant now eph frame).1 := by
  rw [handleFrameAt, hhead]
  dsimp only
  rw [htype]
  dsimp only
  obtain ⟨hauth, keys', hengine, hsource⟩ := @DataPlane.handleData_engine A S e.toDataPlane instant now frame
  have hstate := congrArg Engine.state hengine
  have hpeer := congrArg Engine.peerAddr hengine
  have hkeys := congrArg Engine.keys hengine
  refine ⟨⟨hauth.trans h.auth, h.trust, hpeer.trans h.peer, h.identity, h.pending, h.ephPub⟩, hstate, rfl, rfl, ?_⟩
  rw [hkeys]
  exact hsource

/-- What a frame does to an engine with certificates. -/
lemma handleFrameAt_effect (h : e.Static host trust peer) : (e.handleFrameAt A instant now eph frame).1.Static host trust peer ∧
    Effect trust e (.handleFrameAt instant now eph frame) (e.handleFrameAt A instant now eph frame).1
      (Option.toList <$> (e.handleFrameAt A instant now eph frame).2) := by
  cases hhead : parseHead frame with
  | err x =>
    have hno : ∀ body, ¬ Call.IsInit body (.handleFrameAt (X := X) instant now eph frame) := by
      rintro body ⟨keyId, rfl⟩
      rw [parseHead_writeHead] at hhead
      cases hhead
    rw [handleFrameAt, hhead]
    exact ⟨h, .same (Same.refl e) fun body hinit => absurd hinit (hno body)⟩
  | panic => exact absurd hhead (parseHead_ne_panic frame)
  | ok head =>
    obtain ⟨body, hframe⟩ := parseHead_eq_ok.mp hhead
    -- an engine that is left as it was has the same handshake
    have hnone : head.frameType ≠ .authInit → (e.handleFrameAt A instant now eph frame).1 = e →
        (e.handleFrameAt A instant now eph frame).1.Static host trust peer ∧
          Effect trust e (.handleFrameAt instant now eph frame) (e.handleFrameAt A instant now eph frame).1
            (Option.toList <$> (e.handleFrameAt A instant now eph frame).2) := by
      intro hne heq
      rw [heq]
      exact ⟨h, .other hhead hne (Same.refl e)⟩
    have hskip : ∀ t, head.frameType = t → (t = .rekey ∨ t = .fecRecovery ∨ t = .receipt) →
        (e.handleFrameAt A instant now eph frame).1 = e := by
      rintro t htype (rfl | rfl | rfl)
      all_goals
        rw [handleFrameAt, hhead]
        dsimp only
        rw [htype]
    cases htype : head.frameType with
    | handshakeInit => exact hnone (by rw [htype]; decide) (handleFrameAt_plain h hhead (.inl htype))
    | handshakeResp => exact hnone (by rw [htype]; decide) (handleFrameAt_plain h hhead (.inr htype))
    | authInit =>
      rw [htype] at hframe
      rw [hframe, handleFrameAt_authInit, ← hframe]
      exact handleAuthInit_effect h head.keyId hframe
    | authResp =>
      rw [htype] at hframe
      rw [hframe, handleFrameAt_authResp, ← hframe]
      exact handleAuthResp_effect h head.keyId hframe
    | data =>
      obtain ⟨hstatic, hsame⟩ := @handleFrameAt_data _ _ A host trust peer e instant now eph frame head h hhead htype
      exact ⟨hstatic, .other hhead (by rw [htype]; decide) hsame⟩
    | rekey => exact hnone (by rw [htype]; decide) (hskip _ htype (.inl rfl))
    | fecRecovery => exact hnone (by rw [htype]; decide) (hskip _ htype (.inr (.inl rfl)))
    | receipt => exact hnone (by rw [htype]; decide) (hskip _ htype (.inr (.inr rfl)))

/-- What a call does to an engine with certificates. -/
theorem step_effect (h : e.Static host trust peer) (c : Call X) : (e.step A c).1.Static host trust peer ∧
    Effect trust e c (e.step A c).1 (e.step A c).2 := by
  cases c with
  | handleFrameAt instant now eph frame => exact handleFrameAt_effect h
  | startAuthHandshake eph =>
    unfold step startAuthHandshake
    dsimp only
    split
    · exact ⟨h, .same (Same.refl e) fun _ hinit => hinit.elim⟩
    next hidle =>
    have hne : e.state ≠ .established := by
      rw [not_not.mp hidle]
      decide
    have hinitiating : State.initiating ≠ .established := by decide
    rw [h.authCtx]
    refine ⟨⟨h.auth, h.trust, h.peer, h.identity, h.pending, ?_⟩, .left hinitiating (SameSource.refl _) (.inr ⟨hne, rfl, rfl⟩)⟩
    rintro p ⟨⟩
    rfl
  | abandonHandshake =>
    unfold step abandonHandshake
    dsimp only
    split
    · have hidle : State.idle ≠ .established := by decide
      exact ⟨⟨h.auth, h.trust, h.peer, h.identity, rfl, fun p hp => by cases hp⟩, .left hidle (SameSource.refl _) (.inl ⟨rfl, rfl⟩)⟩
    · exact ⟨h, .same (Same.refl e) fun _ hinit => hinit.elim⟩
  | reset =>
    have hidle : State.idle ≠ .established := by decide
    exact ⟨⟨h.auth, h.trust, h.peer, h.identity, rfl, fun p hp => by cases hp⟩, .left hidle (fun k hk => by cases hk) (.inl ⟨rfl, rfl⟩)⟩
  | setCipherSuite suite =>
    unfold step setCipherSuite
    dsimp only
    split
    · exact ⟨h, .same (Same.refl e) fun _ hinit => hinit.elim⟩
    · exact ⟨⟨h.auth, h.trust, h.peer, h.identity, h.pending, h.ephPub⟩,
        .same ⟨rfl, rfl, rfl, SameSource.refl _⟩ fun _ hinit => hinit.elim⟩
  | splitShards now n =>
    have hfst : (e.step A (.splitShards now n)).1 = { e with toEngine := (e.toEngine.splitShards now n).1 } := rfl
    rw [hfst]
    rcases e.toEngine.splitShards_cases now n with heq | ⟨base, -, -, heq⟩
    · rw [heq]
      exact ⟨h, .same (Same.refl e) fun _ hinit => hinit.elim⟩
    · rw [heq]
      exact ⟨⟨h.auth, h.trust, h.peer, h.identity, h.pending, h.ephPub⟩,
        .same ⟨rfl, rfl, rfl, fun k hk => by cases hk⟩ fun _ hinit => hinit.elim⟩
  | sealing c =>
    obtain ⟨hstate, hpeer, -, hsource⟩ := @engineStep_control A e.toEngine c
    exact ⟨⟨h.auth, h.trust, hpeer.trans h.peer, h.identity, h.pending, h.ephPub⟩,
      .same ⟨hstate, rfl, rfl, hsource⟩ fun _ hinit => hinit.elim⟩

/-! ## Runs -/

/-- The last answer to an Init with this body, and every one since then, is this frame. -/
def Gave (hist : List (Call X × Outcome Empty (List Bytes))) (body resp : Bytes) : Prop :=
  ∃ before c after, hist = before ++ (c, .ok [resp]) :: after ∧ c.IsInit body ∧
    ∀ y ∈ after, y.1.IsInit body → y.2 = .ok [resp]

/-- An Init is bound, and an answer kept, only while the tunnel is established; the one is the answer to the other. -/
structure Bound (e : Session S X) (hist : List (Call X × Outcome Empty (List Bytes))) : Prop where
  established : e.boundInit ≠ none ∨ e.cachedResp ≠ none → e.state = .established
  gave : ∀ body ∈ e.boundInit, ∃ resp ∈ e.cachedResp, Gave hist body resp
  both : e.boundInit = none → e.cachedResp = none

lemma Gave.append {hist : List (Call X × Outcome Empty (List Bytes))} {body resp : Bytes} (h : Gave hist body resp) {c : Call X}
    {x : Outcome Empty (List Bytes)} (hx : c.IsInit body → x = .ok [resp]) : Gave (hist ++ [(c, x)]) body resp := by
  obtain ⟨before, c', after, rfl, hinit, hafter⟩ := h
  refine ⟨before, c', after ++ [(c, x)], ?_, hinit, ?_⟩
  · rw [List.append_assoc, List.cons_append]
  · intro y hy
    rcases List.mem_append.mp hy with hold | hnew
    · exact hafter y hold
    · cases List.mem_singleton.mp hnew
      exact hx

/-- What a call does keeps the bound Init and its answer together. -/
lemma Effect.bound {hist : List (Call X × Outcome Empty (List Bytes))} {c : Call X} {e' : Session S X}
    {x : Outcome Empty (List Bytes)} (heffect : Effect trust e c e' x) (h : e.Bound hist) : e'.Bound (hist ++ [(c, x)]) := by
  cases heffect with
  | same hsame again =>
    refine ⟨?_, ?_, ?_⟩
    · rw [hsame.boundInit, hsame.cachedResp, hsame.state]
      exact h.established
    · intro body hbody
      rw [hsame.boundInit] at hbody
      rw [hsame.cachedResp]
      obtain ⟨resp, hresp, hgave⟩ := h.gave body hbody
      refine ⟨resp, hresp, hgave.append fun hinit => ?_⟩
      have hre : e.Rebinds body := ⟨h.established (.inl (by rw [hbody]; exact Option.some_ne_none body)), hbody⟩
      rw [again body hinit hre, hresp]
      rfl
    · rw [hsame.boundInit, hsame.cachedResp]
      exact h.both
  | answered body resp hinit hauth hstate hbound hcached hanswer hfresh =>
    refine ⟨fun _ => hstate, ?_, ?_⟩
    · intro body' hbody'
      rw [hbound] at hbody'
      cases hbody'
      refine ⟨resp, hcached, hist, c, [], ?_, hinit, ?_⟩
      · rw [hanswer]
      · intro y hy
        exact absurd hy List.not_mem_nil
    · rw [hbound]
      intro hnone
      cases hnone
  | taken hauth hinitiating hstate hbound hcached =>
    have hidle : ¬ (e.boundInit ≠ none ∨ e.cachedResp ≠ none) := by
      intro hsome
      have hest := h.established hsome
      rw [hinitiating] at hest
      cases hest
    rw [not_or, not_not, not_not] at hidle
    refine ⟨fun _ => hstate, ?_, ?_⟩
    · intro body hbody
      rw [hbound, hidle.1] at hbody
      cases hbody
    · intro _
      rw [hcached, hidle.2]
  | left hstate hkeys hbound =>
    have hnone : e'.boundInit = none ∧ e'.cachedResp = none := by
      rcases hbound with hnone | ⟨hne, hbound, hcached⟩
      · exact hnone
      · have hidle : ¬ (e.boundInit ≠ none ∨ e.cachedResp ≠ none) := fun hsome => hne (h.established hsome)
        rw [not_or, not_not, not_not] at hidle
        exact ⟨hbound.trans hidle.1, hcached.trans hidle.2⟩
    refine ⟨?_, ?_, fun _ => hnone.2⟩
    · rintro (hsome | hsome)
      · exact absurd hnone.1 hsome
      · exact absurd hnone.2 hsome
    · intro body hbody
      rw [hnone.1] at hbody
      cases hbody

/-- What a step must not do without authentication, and what the other frames of the handshakes leave alone. -/
structure Guarded (A : Aead) (trust : PublicKey) (peer : IPv8Address) (e : Session S X) (c : Call X) : Prop where
  -- new keys, or keys of another secret, and the state Established come from an authentic bundle of the peer
  keys : SameSource e.keys (e.step A c).1.keys ∧ ((e.step A c).1.state = .established → e.state = .established) ∨
    e.peerAddr = peer ∧ e.Authenticates trust c
  plain : ∀ instant now eph frame head, c = .handleFrameAt instant now eph frame → parseHead frame = .ok head →
    head.frameType = .handshakeInit ∨ head.frameType = .handshakeResp → (e.step A c).1 = e
  rejected : ∀ body, c.IsInit body → (e.step A c).2 = .ok [] → ∃ err, (e.step A c).1 = { e with lastAuthError := err }

/-- What an Init does: it is the bound one, is not taken, or is authentic and answered. -/
lemma step_init {c : Call X} (h : e.Static host trust peer) (hinit : c.IsInit body) :
    (e.Rebinds body ∧ e.step A c = (e, .ok e.cachedResp.toList)) ∨
    (¬ e.Rebinds body ∧ ∃ err, e.step A c = ({ e with lastAuthError := err }, .ok [])) ∨
    (¬ e.Rebinds body ∧ ∃ instant now eph frame, ∃ b : Bundle, c = .handleFrameAt instant now eph frame ∧ body = b.pack ∧
      b.addr.protocol = protocolMagic ∧ Authentic S trust e.peerAddr now roleInit zeroEph b ∧ e.step A c =
        (({ e with lastAuthError := none }.answer (.new instant (X.diffieHellman eph b.eph) false) body (respFrame host eph b)).1,
          .ok [respFrame host eph b])) := by
  cases c with
  | handleFrameAt instant now eph frame =>
    obtain ⟨keyId, rfl⟩ := hinit
    have harm : e.step A (.handleFrameAt instant now eph (writeHead [] .authInit keyId ++ body)) =
        ((e.handleAuthInit instant now eph body).1, Option.toList <$> (e.handleAuthInit instant now eph body).2) := by
      rw [← @handleFrameAt_authInit _ _ A e instant now eph body keyId]
      rfl
    rw [harm]
    have hcases := @handleAuthInit_cases _ _ e host trust instant now eph body h.authCtx
    rcases hcases with ⟨hre, heq⟩ | ⟨hre, err, heq⟩ | ⟨hre, b, hpack, hmagic, hauth, heq⟩
    · rw [heq]
      exact .inl ⟨hre, rfl⟩
    · rw [heq]
      exact .inr (.inl ⟨hre, err, rfl⟩)
    · rw [heq]
      exact .inr (.inr ⟨hre, instant, now, eph, _, b, rfl, hpack, hmagic, hauth, rfl⟩)
  | _ => exact hinit.elim

lemma guarded (h : e.Static host trust peer) (c : Call X) : e.Guarded A trust peer c := by
  refine ⟨?_, ?_, ?_⟩
  · obtain ⟨-, heffect⟩ := @step_effect _ _ A host trust peer e h c
    cases heffect with
    | same hsame again => exact .inl ⟨hsame.keys, fun hest => hsame.state.symm.trans hest⟩
    | answered body resp hinit hauth hstate hbound hcached hanswer hfresh => exact .inr ⟨h.peer, hauth⟩
    | taken hauth hinitiating hstate hbound hcached => exact .inr ⟨h.peer, hauth⟩
    | left hstate hkeys hbound => exact .inl ⟨hkeys, fun hest => absurd hest hstate⟩
  · rintro instant now eph frame head rfl hhead htype
    exact handleFrameAt_plain h hhead htype
  · intro body hinit hanswer
    rcases step_init h hinit with ⟨hre, heq⟩ | ⟨-, err, heq⟩ | ⟨-, instant, now, eph, frame, b, -, -, -, -, heq⟩
    · rw [heq]
      exact ⟨e.lastAuthError, rfl⟩
    · rw [heq]
      exact ⟨err, rfl⟩
    · rw [heq] at hanswer
      cases hanswer

lemma static_start (host : HostIdentity S) (trust : PublicKey) (localAddr peer : IPv8Address) :
    (authenticated host trust localAddr peer : Session S X).Static host trust peer :=
  ⟨rfl, rfl, rfl, rfl, rfl, fun p hp => by cases hp⟩

lemma bound_start (host : HostIdentity S) (trust : PublicKey) (localAddr peer : IPv8Address) :
    (authenticated host trust localAddr peer : Session S X).Bound [] := by
  refine ⟨?_, ?_, fun _ => rfl⟩
  swap
  · intro body hbody
    cases hbody
  rintro (hsome | hsome)
  · exact absurd rfl hsome
  · exact absurd rfl hsome

/-- In every run of an engine with certificates, keys come from authentic bundles of the peer alone, frames of the plain
handshake and rejected Inits leave the handshake alone, and the Init that is bound is the one whose answer is kept. -/
theorem key_provenance (A : Aead) (host : HostIdentity S) (trust : PublicKey) (localAddr peer : IPv8Address)
    (calls : List (Call X)) : let e : Session S X := authenticated host trust localAddr peer
    Along (step A) (Guarded A trust peer) e calls ∧ (run (step A) e calls).1.Bound (calls.zip (run (step A) e calls).2) := by
  intro e
  have hstart : e.Static host trust peer := static_start host trust localAddr peer
  constructor
  · have hstep : ∀ (e : Session S X) (c : Call X), e.Static host trust peer → True → (e.step A c).1.Static host trust peer :=
      fun e c h _ => (step_effect h c).1
    exact Along.of_invariant hstep (fun e c h _ => guarded h c) hstart (along_of_forall fun _ _ => trivial)
  · -- the invariant: what is fixed from the start, and the bound Init beside the calls so far
    have hrun := @invariant_history _ _ _ (step A) e (fun e hist => e.Static host trust peer ∧ e.Bound hist) []
      (fun e hist c h => ⟨(step_effect h.1 c).1, (step_effect h.1 c).2.bound h.2⟩)
      ⟨hstart, bound_start host trust localAddr peer⟩ calls
    rw [List.nil_append] at hrun
    exact hrun.2

end

end Session

end IPv8Plus.Tunnel
