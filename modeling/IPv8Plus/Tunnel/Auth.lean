import IPv8Plus.Routing.RouteTrace

/-!
# Certificates and host identities

The certificates of `ipv8-tunnel/src/auth.rs`. Their wire form is what the route check reads, which has its own
reader for it: `Cert.bound_iff` says that the two agree.
-/

namespace IPv8Plus.Tunnel
open Lib Codec Routing

inductive AuthError where
  | badBundleLen
  | badCertSignature
  | expired (notAfter now : UInt64)
  | badVerifyKey
  | badHandshakeSignature
  | peerMismatch (expected got : IPv8Address)
  | badAddress
  deriving DecidableEq, Repr

/-- An authority's word that an address has a key. -/
structure Cert where
  addr : IPv8Address
  verifyKey : PublicKey
  notAfter : UInt64
  caSig : Signature
  deriving DecidableEq, Repr

/-- What the authority signs. -/
def Cert.tbs (c : Cert) : Bytes := c.addr.toBytes ++ c.verifyKey.val ++ be64 c.notAfter

def Cert.toWire (c : Cert) : Bytes := c.tbs ++ c.caSig.val

variable (S : SigScheme)

/-- The certificate an authority issues. -/
def issue (signing : S.Seed) (addr : IPv8Address) (verifyKey : PublicKey) (notAfter : UInt64) : Cert :=
  let tbs := addr.toBytes ++ verifyKey.val ++ be64 notAfter
  { addr, verifyKey, notAfter, caSig := S.sign signing tbs }

/-- `TrustAnchor::verify`: the signature of the authority, and the expiry. -/
def trustVerify (caPub : PublicKey) (cert : Cert) (now : UInt64) : Except AuthError Unit :=
  if !S.verifyStrict caPub cert.tbs cert.caSig then .error .badCertSignature
  else if cert.notAfter < now then .error (.expired cert.notAfter now)
  else .ok ()

/-- A signing key with the certificate for its address. -/
structure HostIdentity where
  addr : IPv8Address
  signing : S.Seed
  cert : Cert

variable {S}

def HostIdentity.publicEdKey (h : HostIdentity S) : PublicKey := S.publicKey h.signing

def HostIdentity.sign (h : HostIdentity S) (msg : Bytes) : Signature := S.sign h.signing msg

variable {cert : Cert} {anchorPub : PublicKey} {addr : IPv8Address} {pubkey : PublicKey} {now : UInt64}

lemma Cert.length_toWire (c : Cert) : c.toWire.length = certLen := by
  rw [toWire, tbs, List.length_append, List.length_append, List.length_append, IPv8Address.length_toBytes,
    c.verifyKey.property, length_be64, c.caSig.property]
  rfl

lemma trustVerify_eq_ok :
    trustVerify S anchorPub cert now = .ok () ↔
      S.verifyStrict anchorPub cert.tbs cert.caSig = true ∧ now ≤ cert.notAfter := by
  unfold trustVerify
  simp only [Bool.not_eq_true']
  split_ifs with hsig hnow
  · exact ⟨nofun, fun h => absurd h.1 (Bool.eq_false_iff.mp hsig)⟩
  · exact ⟨nofun, fun h => absurd h.2 (UInt64.not_le.mpr hnow)⟩
  · exact ⟨fun _ => ⟨(Bool.not_eq_false _).mp hsig, UInt64.not_lt.mp hnow⟩, fun _ => rfl⟩

/-- The route check accepts the wire form of a certificate exactly for its address and key, if the anchor
accepts the certificate. -/
theorem Cert.bound_iff (hvalid : S.validKey anchorPub = true) :
    Bound S anchorPub cert.toWire addr pubkey now ↔
      cert.addr = addr ∧ cert.verifyKey = pubkey ∧ trustVerify S anchorPub cert now = .ok () := by
  rw [trustVerify_eq_ok]
  constructor
  · rintro ⟨notAfter, sig, hwire, -, hsig, hnow⟩
    obtain ⟨htbs, hcaSig⟩ := List.append_inj' hwire (by rw [cert.caSig.property, sig.property])
    obtain ⟨hhead, hexpiry⟩ := List.append_inj' htbs (by rw [length_be64, length_be64])
    obtain ⟨haddr, hkey⟩ := List.append_inj' hhead (by rw [cert.verifyKey.property, pubkey.property])
    have hcaSig' : cert.caSig = sig := Subtype.ext hcaSig
    rw [← be64_injective hexpiry] at hnow
    rw [← hcaSig', ← htbs] at hsig
    exact ⟨IPv8Address.toBytes_injective haddr, Subtype.ext hkey, hsig, hnow⟩
  · rintro ⟨rfl, rfl, hsig, hnow⟩
    exact ⟨cert.notAfter, cert.caSig, rfl, hvalid, hsig, hnow⟩

end IPv8Plus.Tunnel
