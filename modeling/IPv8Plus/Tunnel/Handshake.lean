import IPv8Plus.Codec.AddrText
import IPv8Plus.Tunnel.Auth
import IPv8Plus.Tunnel.Crypto

/-!
# Handshakes

Both handshakes of `ipv8-tunnel`: the one of `auth.rs`, with certificates and signed transcripts, and the plain one of
`handshake.rs`. The key agreement is a parameter, and so are the ephemeral secrets, which the source draws at random.
`authAccept_eq_ok` and `authFinishInit_eq_ok` say which bundles are taken.
-/

namespace IPv8Plus.Tunnel
open Lib Codec Routing

/-- The key agreement (X25519): both sides get the same secret. -/
structure KeyAgreement where
  Secret : Type
  publicKey : Secret → Arr UInt8 32
  diffieHellman : Secret → Arr UInt8 32 → Dh
  agree : ∀ a b, diffieHellman a (publicKey b) = diffieHellman b (publicKey a)

/-- Byte by byte. -/
def xorKey (a b : Arr UInt8 32) : Dh :=
  ⟨List.zipWith (· ^^^ ·) a.val b.val, by rw [List.length_zipWith, a.property, b.property, min_self]⟩

lemma xorKey_comm (a b : Arr UInt8 32) : xorKey a b = xorKey b a :=
  Subtype.ext (List.zipWith_comm_of_comm fun x y => UInt8.xor_comm x y)

/-- A computable agreement to run the model with: a secret is its own public key, and hides nothing. -/
def sampleAgreement : KeyAgreement where
  Secret := Arr UInt8 32
  publicKey := id
  diffieHellman := xorKey
  agree := xorKey_comm

/-- The domain of handshake transcripts: `ipv8plus-handshake/v2`. -/
def authDomain : Bytes :=
  [0x69, 0x70, 0x76, 0x38, 0x70, 0x6C, 0x75, 0x73, 0x2D, 0x68, 0x61, 0x6E, 0x64, 0x73, 0x68, 0x61, 0x6B, 0x65, 0x2F, 0x76, 0x32]

/-- Eph, key, address, expiry, and the signatures of authority and host. -/
def authBundleLen : Nat := 32 + 32 + 16 + 8 + 64 + 64

/-- The letter `I` for the initiator. -/
def roleInit : UInt8 := 0x49

/-- The letter `R` for the responder. -/
def roleResp : UInt8 := 0x52

def zeroEph : Arr UInt8 32 := ⟨List.replicate 32 0, rfl⟩

/-- What a side signs: domain, role, its own fields, and the ephemeral key of its peer. -/
def transcript (role : UInt8) (ephSelf edSelf : Arr UInt8 32) (addrSelf : IPv8Address) (notAfterSelf : UInt64)
    (ephPeer : Arr UInt8 32) : Bytes :=
  authDomain ++ [role] ++ ephSelf.val ++ edSelf.val ++ addrSelf.toBytes ++ be64 notAfterSelf ++ ephPeer.val

/-- What a side sends. -/
structure Bundle where
  eph : Arr UInt8 32
  ed : PublicKey
  addr : IPv8Address
  notAfter : UInt64
  caSig : Signature
  hsSig : Signature
  deriving DecidableEq, Repr

/-- `pack_bundle` -/
def Bundle.pack (b : Bundle) : Bytes :=
  b.eph.val ++ b.ed.val ++ b.addr.toBytes ++ be64 b.notAfter ++ b.caSig.val ++ b.hsSig.val

/-- `unpack_bundle`: the address is read by way of its text, which must have the magic number. -/
def unpackBundle (bytes : Bytes) : Outcome AuthError Bundle :=
  if bytes.length ≠ authBundleLen then .err .badBundleLen
  else do
    let eph ← copyFromSlice 32 (← slice bytes 0 32)
    let ed ← copyFromSlice 32 (← slice bytes 32 64)
    let addr ← (IPv8Address.fromCanonicalStr (hex (← slice bytes 64 80))).mapErr fun _ => .badAddress
    let notAfter ← slice bytes 80 88
    let caSig ← copyFromSlice 64 (← slice bytes 88 152)
    let hsSig ← copyFromSlice 64 (← slice bytes 152 216)
    return { eph, ed, addr, notAfter := ofBe64 notAfter, caSig, hsSig }

/-- The certificate in a bundle. -/
def Bundle.cert (b : Bundle) : Cert := ⟨b.addr, b.ed, b.notAfter, b.caSig⟩

def Bundle.transcript (b : Bundle) (role : UInt8) (ephPeer : Arr UInt8 32) : Bytes :=
  Tunnel.transcript role b.eph b.ed b.addr b.notAfter ephPeer

variable (S : SigScheme) (X : KeyAgreement)

def verifyStrict (ed : PublicKey) (msg : Bytes) (sig : Signature) : Except AuthError Unit :=
  if !S.validKey ed then .error .badVerifyKey
  else if !S.verifyStrict ed msg sig then .error .badHandshakeSignature
  else .ok ()

/-- What an initiator keeps until the response comes. -/
structure AuthPending where
  eph : X.Secret
  ephPub : Arr UInt8 32

variable {S} {X}

/-- The bundle of a host for its ephemeral key. -/
def HostIdentity.bundle (host : HostIdentity S) (role : UInt8) (ephPub ephPeer : Arr UInt8 32) : Bundle :=
  let ed := host.publicEdKey
  let ts := transcript role ephPub ed host.addr host.cert.notAfter ephPeer
  ⟨ephPub, ed, host.addr, host.cert.notAfter, host.cert.caSig, host.sign ts⟩

/-- `auth_init`: the peer's ephemeral key is not known yet, zeros stand in for it. -/
def authInit (host : HostIdentity S) (eph : X.Secret) : Bytes × AuthPending X :=
  let ephPub := X.publicKey eph
  ((host.bundle roleInit ephPub zeroEph).pack, ⟨eph, ephPub⟩)

/-- The checks on a bundle: certificate, address, transcript. -/
def checkBundle (anchorPub : PublicKey) (b : Bundle) (role : UInt8) (ephPeer : Arr UInt8 32)
    (expectedPeer : Option IPv8Address) (now : UInt64) : Except AuthError Unit := do
  trustVerify S anchorPub b.cert now
  if let some exp := expectedPeer then
    if b.addr ≠ exp then throw (.peerMismatch exp b.addr)
  verifyStrict S b.ed (b.transcript role ephPeer) b.hsSig

/-- `auth_accept`, at time `instant` of the clock of the keys. -/
def authAccept (host : HostIdentity S) (anchorPub : PublicKey) (initBundle : Bytes) (expectedPeer : Option IPv8Address)
    (now : UInt64) (instant : Nat) (eph : X.Secret) : Outcome AuthError (Bytes × TunnelKeys) := do
  let b ← unpackBundle initBundle
  match checkBundle (S := S) anchorPub b roleInit zeroEph expectedPeer now with
  | .error e => .err e
  | .ok () =>
    let resp := (host.bundle roleResp (X.publicKey eph) b.eph).pack
    return (resp, .new instant (X.diffieHellman eph b.eph) false)

/-- `auth_finish_init` -/
def authFinishInit (pending : AuthPending X) (anchorPub : PublicKey) (expectedPeer : Option IPv8Address)
    (respBundle : Bytes) (now : UInt64) (instant : Nat) : Outcome AuthError TunnelKeys := do
  let b ← unpackBundle respBundle
  match checkBundle (S := S) anchorPub b roleResp pending.ephPub expectedPeer now with
  | .error e => .err e
  | .ok () => return .new instant (X.diffieHellman pending.eph b.eph) true

/-! ## The plain handshake -/

/-- A static identity; the plain handshake only sends its public key. -/
structure Identity where
  publicBytes : Arr UInt8 32
  deriving DecidableEq, Repr

def handshakeBodyLen : Nat := 64

variable (X) in
structure PendingHandshake where
  localEph : X.Secret
  localStatic : Arr UInt8 32

def createInit (identity : Identity) (eph : X.Secret) : Bytes × PendingHandshake X :=
  ((X.publicKey eph).val ++ identity.publicBytes.val, ⟨eph, identity.publicBytes⟩)

/-- Ephemeral and static key of a body. -/
def splitHandshake (body : Bytes) : Outcome FrameError (Arr UInt8 32 × Arr UInt8 32) :=
  if body.length ≠ handshakeBodyLen then .err .badHandshakeLen
  else do
    let pk ← copyFromSlice 32 (← slice body 0 32)
    let st ← copyFromSlice 32 (← slice body 32 body.length)
    return (pk, st)

/-- `accept_init`: the static keys are not checked. -/
def acceptInit (identity : Identity) (body : Bytes) (instant : Nat) (eph : X.Secret) : Outcome FrameError (Bytes × TunnelKeys) := do
  let (peerEph, _) ← splitHandshake body
  let resp := (X.publicKey eph).val ++ identity.publicBytes.val
  return (resp, .new instant (X.diffieHellman eph peerEph) false)

def finishInit (pending : PendingHandshake X) (body : Bytes) (instant : Nat) : Outcome FrameError TunnelKeys := do
  let (peerEph, _) ← splitHandshake body
  return .new instant (X.diffieHellman pending.localEph peerEph) true

/-! ## Bundles -/

section
variable (b : Bundle)

lemma Bundle.length_pack : b.pack.length = authBundleLen := by
  simp only [pack, List.length_append, b.eph.property, b.ed.property, IPv8Address.length_toBytes, length_be64,
    b.caSig.property, b.hsSig.property]
  rfl

/-- The fields of a bundle stand where they are read. -/
lemma Bundle.slice_pack {ε : Type} : (slice b.pack 0 32 : Outcome ε Bytes) = .ok b.eph.val ∧
    (slice b.pack 32 64 : Outcome ε Bytes) = .ok b.ed.val ∧ (slice b.pack 64 80 : Outcome ε Bytes) = .ok b.addr.toBytes ∧
    (slice b.pack 80 88 : Outcome ε Bytes) = .ok (be64 b.notAfter) ∧ (slice b.pack 88 152 : Outcome ε Bytes) = .ok b.caSig.val ∧
    (slice b.pack 152 216 : Outcome ε Bytes) = .ok b.hsSig.val := by
  have hfield : ∀ (front field rest : Bytes) (i j : Nat), front.length = i → i + field.length = j → b.pack = front ++ field ++ rest →
      (slice b.pack i j : Outcome ε Bytes) = .ok field := by
    intro front field rest i j hfront hfield hpack
    rw [hpack, List.append_assoc]
    exact slice_mid hfront hfield
  have heph := b.eph.property
  have hed : (b.eph.val ++ b.ed.val).length = 64 := by
    rw [List.length_append, heph, b.ed.property]
  have haddr : (b.eph.val ++ b.ed.val ++ b.addr.toBytes).length = 80 := by
    rw [List.length_append, hed, IPv8Address.length_toBytes]
  have hexpiry : (b.eph.val ++ b.ed.val ++ b.addr.toBytes ++ be64 b.notAfter).length = 88 := by
    rw [List.length_append, haddr, length_be64]
  have hcaSig : (b.eph.val ++ b.ed.val ++ b.addr.toBytes ++ be64 b.notAfter ++ b.caSig.val).length = 152 := by
    rw [List.length_append, hexpiry, b.caSig.property]
  refine ⟨?_, ?_, ?_, ?_, ?_, ?_⟩
  · exact hfield [] _ (b.ed.val ++ b.addr.toBytes ++ be64 b.notAfter ++ b.caSig.val ++ b.hsSig.val) 0 32 rfl
      ((Nat.zero_add _).trans heph) (by simp only [pack, List.append_assoc, List.nil_append])
  · exact hfield _ _ (b.addr.toBytes ++ be64 b.notAfter ++ b.caSig.val ++ b.hsSig.val) 32 64 heph
      (congrArg (32 + ·) b.ed.property) (by simp only [pack, List.append_assoc])
  · exact hfield _ _ (be64 b.notAfter ++ b.caSig.val ++ b.hsSig.val) 64 80 hed
      (congrArg (64 + ·) (IPv8Address.length_toBytes _)) (by simp only [pack, List.append_assoc])
  · exact hfield _ _ (b.caSig.val ++ b.hsSig.val) 80 88 haddr (congrArg (80 + ·) (length_be64 _))
      (by simp only [pack, List.append_assoc])
  · exact hfield _ _ b.hsSig.val 88 152 hexpiry (congrArg (88 + ·) b.caSig.property) rfl
  · exact hfield _ _ [] 152 216 hcaSig (congrArg (152 + ·) b.hsSig.property) (List.append_nil _).symm

/-- What was packed is unpacked, if the address has the magic number. -/
lemma unpackBundle_pack :
    unpackBundle b.pack = if b.addr.protocol = protocolMagic then .ok b else .err .badAddress := by
  obtain ⟨heph, hed, haddr, hexpiry, hcaSig, hhsSig⟩ := @Bundle.slice_pack b AuthError
  have htext := fromCanonicalStr_toCanonicalString b.addr
  rw [IPv8Address.toCanonicalString] at htext
  rw [unpackBundle, if_neg (not_not.mpr b.length_pack), heph, hed, haddr, hexpiry, hcaSig, hhsSig]
  simp only [Outcome.ok_bind, copyFromSlice_val, htext, ofBe64_be64]
  by_cases hmagic : b.addr.protocol = protocolMagic
  · rw [if_pos hmagic, if_pos hmagic, Outcome.mapErr_ok, Outcome.ok_bind, Outcome.pure_def]
  · rw [if_neg hmagic, if_neg hmagic, Outcome.mapErr_err, Outcome.err_bind]

end

/-- Every string of this length is a packed bundle. -/
lemma exists_pack {bytes : Bytes} (h : bytes.length = authBundleLen) : ∃ b : Bundle, bytes = b.pack := by
  obtain ⟨eph, rest, rfl, hed⟩ := exists_arr_append (n := 32) 184 h
  obtain ⟨ed, rest, rfl, haddr⟩ := exists_arr_append (n := 32) 152 hed
  obtain ⟨addrBytes, rest, rfl, hexpiry⟩ := exists_arr_append (n := 16) 136 haddr
  obtain ⟨expiry, rest, rfl, hcaSig⟩ := exists_arr_append (n := 8) 128 hexpiry
  obtain ⟨caSig, rest, rfl, hhsSig⟩ := exists_arr_append (n := 64) 64 hcaSig
  obtain ⟨addr, htoBytes⟩ := exists_toBytes addrBytes.property
  refine ⟨⟨eph, ed, addr, ofBe64 expiry.val, caSig, ⟨rest, hhsSig⟩⟩, ?_⟩
  simp only [Bundle.pack, htoBytes, be64_ofBe64 expiry.property, List.append_assoc]

variable {bytes : Bytes} {b : Bundle}

lemma unpackBundle_eq_ok : unpackBundle bytes = .ok b ↔ bytes = b.pack ∧ b.addr.protocol = protocolMagic := by
  constructor
  · intro h
    by_cases hlen : bytes.length = authBundleLen
    · obtain ⟨b', rfl⟩ := exists_pack hlen
      rw [unpackBundle_pack] at h
      split at h
      · next hmagic =>
        cases h
        exact ⟨rfl, hmagic⟩
      · cases h
    · rw [unpackBundle, if_pos hlen] at h
      cases h
  · rintro ⟨rfl, hmagic⟩
    rw [unpackBundle_pack, if_pos hmagic]

/-- A transcript determines every field. -/
lemma transcript_inj {role role' : UInt8} {ephSelf ephSelf' edSelf edSelf' ephPeer ephPeer' : Arr UInt8 32}
    {addrSelf addrSelf' : IPv8Address} {notAfterSelf notAfterSelf' : UInt64}
    (h : transcript role ephSelf edSelf addrSelf notAfterSelf ephPeer = transcript role' ephSelf' edSelf' addrSelf' notAfterSelf' ephPeer') :
    role = role' ∧ ephSelf = ephSelf' ∧ edSelf = edSelf' ∧ addrSelf = addrSelf' ∧ notAfterSelf = notAfterSelf' ∧ ephPeer = ephPeer' := by
  simp only [transcript, List.append_assoc] at h
  obtain ⟨-, h⟩ := List.append_inj h rfl
  obtain ⟨hrole, h⟩ := List.append_inj h rfl
  obtain ⟨heph, h⟩ := List.append_inj h (ephSelf.property.trans ephSelf'.property.symm)
  obtain ⟨hed, h⟩ := List.append_inj h (edSelf.property.trans edSelf'.property.symm)
  obtain ⟨haddr, h⟩ := List.append_inj h ((IPv8Address.length_toBytes _).trans (IPv8Address.length_toBytes _).symm)
  obtain ⟨hexpiry, hpeer⟩ := List.append_inj h ((length_be64 _).trans (length_be64 _).symm)
  exact ⟨List.head_eq_of_cons_eq hrole, Subtype.ext heph, Subtype.ext hed, IPv8Address.toBytes_injective haddr,
    be64_injective hexpiry, Subtype.ext hpeer⟩

lemma Bundle.pack_injective : Function.Injective Bundle.pack := by
  intro b b' h
  simp only [pack, List.append_assoc] at h
  obtain ⟨heph, h⟩ := List.append_inj h (b.eph.property.trans b'.eph.property.symm)
  obtain ⟨hed, h⟩ := List.append_inj h (b.ed.property.trans b'.ed.property.symm)
  obtain ⟨haddr, h⟩ := List.append_inj h ((IPv8Address.length_toBytes _).trans (IPv8Address.length_toBytes _).symm)
  obtain ⟨hexpiry, h⟩ := List.append_inj h ((length_be64 _).trans (length_be64 _).symm)
  obtain ⟨hcaSig, hhsSig⟩ := List.append_inj h (b.caSig.property.trans b'.caSig.property.symm)
  cases b
  cases b'
  cases Subtype.ext heph
  cases Subtype.ext hed
  cases IPv8Address.toBytes_injective haddr
  cases be64_injective hexpiry
  cases Subtype.ext hcaSig
  cases Subtype.ext hhsSig
  rfl

/-- Unpacking never panics. -/
lemma unpackBundle_ne_panic : unpackBundle bytes ≠ .panic := by
  by_cases hlen : bytes.length = authBundleLen
  · obtain ⟨b, rfl⟩ := exists_pack hlen
    rw [unpackBundle_pack]
    split
    · intro h
      cases h
    · intro h
      cases h
  · rw [unpackBundle, if_pos hlen]
    intro h
    cases h

/-! ## What is accepted -/

/-- The bundle carries a certificate for the peer that the anchor accepts at this time, and a signature of the
certificate's key over its own fields, the role and the ephemeral key. -/
structure Authentic (S : SigScheme) (anchorPub : PublicKey) (peer : IPv8Address) (now : UInt64) (role : UInt8)
    (ephPeer : Arr UInt8 32) (b : Bundle) : Prop where
  addr : b.addr = peer
  cert : S.verifyStrict anchorPub b.cert.tbs b.caSig = true ∧ now ≤ b.notAfter
  validKey : S.validKey b.ed = true
  signed : S.verifyStrict b.ed (b.transcript role ephPeer) b.hsSig = true

variable {anchorPub : PublicKey} {peer : IPv8Address} {now : UInt64} {role : UInt8} {ephPeer : Arr UInt8 32} {instant : Nat}
  {host : HostIdentity S} {eph : X.Secret} {pending : AuthPending X} {resp : Bytes} {keys : TunnelKeys}

lemma verifyStrict_eq_ok {ed : PublicKey} {msg : Bytes} {sig : Signature} :
    verifyStrict S ed msg sig = .ok () ↔ S.validKey ed = true ∧ S.verifyStrict ed msg sig = true := by
  unfold verifyStrict
  cases hvalid : S.validKey ed with
  | false =>
    refine iff_of_false ?_ (fun h => Bool.noConfusion h.1)
    intro h
    cases h
  | true =>
    cases hsig : S.verifyStrict ed msg sig with
    | false =>
      refine iff_of_false ?_ (fun h => Bool.noConfusion h.2)
      intro h
      cases h
    | true => exact iff_of_true rfl ⟨rfl, rfl⟩

lemma checkBundle_eq_ok : checkBundle (S := S) anchorPub b role ephPeer (some peer) now = .ok () ↔
    Authentic S anchorPub peer now role ephPeer b := by
  unfold checkBundle
  cases htrust : trustVerify S anchorPub b.cert now with
  | error e =>
    refine iff_of_false ?_ ?_
    · intro h
      cases h
    · intro h
      rw [trustVerify_eq_ok.mpr h.cert] at htrust
      cases htrust
  | ok u =>
    have hcert := trustVerify_eq_ok.mp htrust
    by_cases haddr : b.addr = peer
    · dsimp only
      rw [if_neg (not_not.mpr haddr)]
      refine Iff.trans verifyStrict_eq_ok ?_
      exact ⟨fun h => ⟨haddr, hcert, h.1, h.2⟩, fun h => ⟨h.validKey, h.signed⟩⟩
    · dsimp only
      rw [if_pos haddr]
      refine iff_of_false ?_ (fun h => haddr h.addr)
      intro h
      cases h

/-- The responder takes exactly the authentic bundles of the peer; the answer binds the initiator's ephemeral key. -/
theorem authAccept_eq_ok : authAccept host anchorPub bytes (some peer) now instant eph = .ok (resp, keys) ↔
    ∃ b : Bundle, bytes = b.pack ∧ b.addr.protocol = protocolMagic ∧ Authentic S anchorPub peer now roleInit zeroEph b ∧
      resp = (host.bundle roleResp (X.publicKey eph) b.eph).pack ∧ keys = .new instant (X.diffieHellman eph b.eph) false := by
  unfold authAccept
  rw [Outcome.bind_eq_ok]
  constructor
  · rintro ⟨b, hb, h⟩
    obtain ⟨hpack, hmagic⟩ := unpackBundle_eq_ok.mp hb
    split at h
    · cases h
    · next hcheck =>
      cases h
      exact ⟨b, hpack, hmagic, checkBundle_eq_ok.mp hcheck, rfl, rfl⟩
  · rintro ⟨b, hpack, hmagic, hauth, rfl, rfl⟩
    refine ⟨b, unpackBundle_eq_ok.mpr ⟨hpack, hmagic⟩, ?_⟩
    rw [checkBundle_eq_ok.mpr hauth]
    rfl

/-- The initiator takes exactly the authentic bundles of the peer that bind its own ephemeral key. -/
theorem authFinishInit_eq_ok : authFinishInit (S := S) pending anchorPub (some peer) bytes now instant = .ok keys ↔
    ∃ b : Bundle, bytes = b.pack ∧ b.addr.protocol = protocolMagic ∧ Authentic S anchorPub peer now roleResp pending.ephPub b ∧
      keys = .new instant (X.diffieHellman pending.eph b.eph) true := by
  unfold authFinishInit
  rw [Outcome.bind_eq_ok]
  constructor
  · rintro ⟨b, hb, h⟩
    obtain ⟨hpack, hmagic⟩ := unpackBundle_eq_ok.mp hb
    split at h
    · cases h
    · next hcheck =>
      cases h
      exact ⟨b, hpack, hmagic, checkBundle_eq_ok.mp hcheck, rfl⟩
  · rintro ⟨b, hpack, hmagic, hauth, rfl⟩
    refine ⟨b, unpackBundle_eq_ok.mpr ⟨hpack, hmagic⟩, ?_⟩
    rw [checkBundle_eq_ok.mpr hauth]
    rfl

/-- No bundle makes a side panic. -/
lemma authAccept_ne_panic {expectedPeer : Option IPv8Address} :
    authAccept host anchorPub bytes expectedPeer now instant eph ≠ .panic := by
  unfold authAccept
  cases hb : unpackBundle bytes with
  | ok b =>
    rw [Outcome.ok_bind]
    split
    · intro h
      cases h
    · intro h
      cases h
  | err e =>
    intro h
    cases h
  | panic => exact absurd hb unpackBundle_ne_panic

lemma authFinishInit_ne_panic {expectedPeer : Option IPv8Address} :
    authFinishInit (S := S) pending anchorPub expectedPeer bytes now instant ≠ .panic := by
  unfold authFinishInit
  cases hb : unpackBundle bytes with
  | ok b =>
    rw [Outcome.ok_bind]
    split
    · intro h
      cases h
    · intro h
      cases h
  | err e =>
    intro h
    cases h
  | panic => exact absurd hb unpackBundle_ne_panic

end IPv8Plus.Tunnel
