import IPv8Plus.Codec.Layouts

/-!
# Building and verifying source routes

`ipv8-routing/src/route_trace.rs`: the source signs a route once; every hop checks the signature, the
certificate of the source, and that the hop limit fits its own place in the list. The signature scheme is a
parameter. `verifyForNextHop_eq_ok` is the specification of the check.
-/

namespace IPv8Plus.Routing
open Lib Codec

/-- A signature scheme: `validKey` is the check that a public key can be read, and what a key signs it
verifies. -/
structure SigScheme where
  Seed : Type
  publicKey : Seed → PublicKey
  sign : Seed → Bytes → Signature
  validKey : PublicKey → Bool
  verifyStrict : PublicKey → Bytes → Signature → Bool
  validKey_publicKey : ∀ seed, validKey (publicKey seed) = true
  verify_sign : ∀ seed msg, verifyStrict (publicKey seed) msg (sign seed msg) = true

/-- A checksum of key and message. -/
def sampleSignature (key : PublicKey) (msg : Bytes) : Signature :=
  ⟨toBe 64 ((key.val ++ msg).foldl (fun acc b => (acc * 257 + b.toNat + 1) % (2 ^ 127 - 1)) 0), length_toBe _ _⟩

/-- A computable signature scheme to run the model with: a seed is its own public key, and hides nothing. -/
def sampleSig : SigScheme where
  Seed := PublicKey
  publicKey := id
  sign := sampleSignature
  validKey _ := true
  verifyStrict key msg sig := decide (sig = sampleSignature key msg)
  validKey_publicKey _ := rfl
  verify_sign _ _ := decide_eq_true rfl

inductive TraceError where
  | badTrace
  | badPathSig
  | badCertBinding
  | notOnPath
  deriving DecidableEq, Repr

/-- What becomes of a verified packet. -/
inductive Decision where
  | deliver
  | forwardTo (next : IPv8Address) (hopIndex : Nat)
  deriving DecidableEq, Repr

/-- The bytes 0 to 6 of the base header, if RouteTrace is the first extension. -/
def frozenHead (base40 : Bytes) : Option Bytes :=
  if base40.length < 7 ∨ base40[6]? ≠ some 5 then none else some (base40.take 7)

structure PathSpec where
  srcAddr : IPv8Address
  dstAddr : IPv8Address
  minCompatVer : UInt8
  flags : UInt16
  payloadLen : UInt16
  initHopLimit : UInt8
  hops : List IPv8Address
  srcPubkey : PublicKey

def buildRouteTrace (spec : PathSpec) (sign : Bytes → Signature) : Except TraceError RouteTrace :=
  if spec.hops.isEmpty ∨ RouteTrace.maxHops < spec.hops.length then .error .badTrace
  else if spec.hops.getLast? ≠ some spec.dstAddr then .error .notOnPath
  else
    let msg := routeTraceMessage
      { srcAddr := spec.srcAddr
        dstAddr := spec.dstAddr
        minCompatVer := spec.minCompatVer
        flags := spec.flags
        payloadLen := spec.payloadLen
        initHopLimit := spec.initHopLimit
        srcPubkey := spec.srcPubkey
        hops := spec.hops }
    .ok { srcPubkey := spec.srcPubkey, pathSig := sign msg, initHopLimit := spec.initHopLimit, hops := spec.hops }

/-- Length of a certificate: address, key and expiry, and the signature of the authority over them. -/
def certLen : Nat := 120

def certTbsLen : Nat := 56

variable (S : SigScheme)

/-- The certificate is for this address and key, signed by the anchor, and not expired. -/
def certBindingOk (anchorPub : PublicKey) (certWire : Bytes) (addr : IPv8Address) (pubkey : PublicKey)
    (now : UInt64) : Bool :=
  if certWire.length ≠ certLen then false
  else
    let tbs := certWire.take certTbsLen
    if tbs.take 16 ≠ addr.toBytes ∨ (tbs.drop 16).take 32 ≠ pubkey.val then false
    else if !S.validKey anchorPub then false
    else
      match (copyFromSlice 64 (certWire.drop certTbsLen) : Outcome Empty Signature) with
      | .ok sig =>
        if !S.verifyStrict anchorPub tbs sig then false
        else decide (now ≤ ofBe64 ((tbs.drop 48).take 8))
      | _ => false

structure VerifyInput where
  localAddr : IPv8Address
  trace : RouteTrace
  head7 : Bytes
  srcAddr : IPv8Address
  dstAddr : IPv8Address
  currentHopLimit : UInt8
  certWire : Bytes
  anchorPub : PublicKey
  now : UInt64

/-- The signed fields, rebuilt from the received header and the trace. -/
def VerifyInput.sigInput (v : VerifyInput) : TraceSigInput where
  srcAddr := v.srcAddr
  dstAddr := v.dstAddr
  minCompatVer := v.head7.headD 0 &&& 0x0F
  flags := ofBe16 ((v.head7.drop 1).take 2)
  payloadLen := ofBe16 ((v.head7.drop 3).take 2)
  initHopLimit := v.trace.initHopLimit
  srcPubkey := v.trace.srcPubkey
  hops := v.trace.hops

/-- Signature, certificate, and place in the list. An address that occurs twice counts at its first place. -/
def verifyForNextHop (v : VerifyInput) : Except TraceError Decision :=
  let trace := v.trace
  let msg := routeTraceMessage v.sigInput
  if !S.validKey trace.srcPubkey then .error .badCertBinding
  else if !S.verifyStrict trace.srcPubkey msg trace.pathSig then .error .badPathSig
  else if !certBindingOk S v.anchorPub v.certWire v.srcAddr trace.srcPubkey v.now then .error .badCertBinding
  else
    let k := trace.hops.idxOf v.localAddr
    if k = trace.hops.length then .error .notOnPath
    else if trace.initHopLimit.toNat < k ∨ trace.initHopLimit - UInt8.ofNat k ≠ v.currentHopLimit then .error .notOnPath
    else
      match trace.hops[k + 1]? with
      | none => .ok .deliver
      | some next => .ok (.forwardTo next (k + 1))

/-- The bytes are a certificate of the anchor for this address and key that has not expired. -/
def Bound (anchorPub : PublicKey) (certWire : Bytes) (addr : IPv8Address) (pubkey : PublicKey) (now : UInt64) : Prop :=
  ∃ (notAfter : UInt64) (sig : Signature), certWire = addr.toBytes ++ pubkey.val ++ be64 notAfter ++ sig.val ∧
    S.validKey anchorPub = true ∧
    S.verifyStrict anchorPub (addr.toBytes ++ pubkey.val ++ be64 notAfter) sig = true ∧ now ≤ notAfter

/-- Index of the local address in the list, or its length. -/
def VerifyInput.position (v : VerifyInput) : Nat := v.trace.hops.idxOf v.localAddr

/-- What the list says to do at the position. -/
def VerifyInput.decision (v : VerifyInput) : Decision :=
  match v.trace.hops[v.position + 1]? with
  | none => .deliver
  | some next => .forwardTo next (v.position + 1)

/-- The packet may be passed on or delivered. -/
structure Verified (v : VerifyInput) : Prop where
  validKey : S.validKey v.trace.srcPubkey = true
  signed : S.verifyStrict v.trace.srcPubkey (routeTraceMessage v.sigInput) v.trace.pathSig = true
  bound : Bound S v.anchorPub v.certWire v.srcAddr v.trace.srcPubkey v.now
  onPath : v.position < v.trace.hops.length
  hopLimit : v.currentHopLimit.toNat + v.position = v.trace.initHopLimit.toNat

variable {S} {v : VerifyInput} {decision : Decision}

section
variable {anchorPub pubkey : PublicKey} {certWire : Bytes} {addr : IPv8Address} {now : UInt64}

/-- What the check does with the parts of a certificate. -/
lemma certBindingOk_parts {a k e : Bytes} (ha : a.length = 16) (hk : k.length = 32) (he : e.length = 8)
    (sig : Signature) :
    certBindingOk S anchorPub (a ++ k ++ e ++ sig.val) addr pubkey now = true ↔
      a = addr.toBytes ∧ k = pubkey.val ∧ S.validKey anchorPub = true ∧
        S.verifyStrict anchorPub (a ++ k ++ e) sig = true ∧ now ≤ ofBe64 e := by
  have hfront : (a ++ k ++ e).length = certTbsLen := by
    rw [List.length_append, List.length_append, ha, hk, he]
    rfl
  have hlen : (a ++ k ++ e ++ sig.val).length = certLen := by
    rw [List.length_append, hfront, sig.property]
    rfl
  have haddr : (a ++ k ++ e).take 16 = a := by
    rw [List.append_assoc, List.take_left' ha]
  have hkey : ((a ++ k ++ e).drop 16).take 32 = k := by
    rw [List.append_assoc, List.drop_left' ha, List.take_left' hk]
  have hexpiry : ((a ++ k ++ e).drop 48).take 8 = e := by
    rw [List.drop_left' (by rw [List.length_append, ha, hk]), List.take_of_length_le he.le]
  unfold certBindingOk
  rw [if_neg (not_not_intro hlen), List.take_left' hfront, List.drop_left' hfront, copyFromSlice_val]
  simp only [haddr, hkey, hexpiry, Bool.not_eq_true']
  split_ifs with hparts hanchor hsig
  · constructor
    · exact nofun
    · rintro ⟨rfl, rfl, -⟩
      exact absurd rfl (hparts.resolve_left (not_not_intro rfl))
  · exact ⟨nofun, fun h => absurd h.2.2.1 (Bool.eq_false_iff.mp hanchor)⟩
  · exact ⟨nofun, fun h => absurd h.2.2.2.1 (Bool.eq_false_iff.mp hsig)⟩
  · rw [not_or, not_not, not_not] at hparts
    rw [decide_eq_true_iff]
    exact ⟨fun h => ⟨hparts.1, hparts.2, (Bool.not_eq_false _).mp hanchor, (Bool.not_eq_false _).mp hsig, h⟩, fun h => h.2.2.2.2⟩

/-- Every string of the right length has the parts of a certificate. -/
lemma exists_certParts (h : certWire.length = certLen) :
    ∃ (a k e : Bytes) (sig : Signature), a.length = 16 ∧ k.length = 32 ∧ e.length = 8 ∧
      certWire = a ++ k ++ e ++ sig.val := by
  have hlen : certWire.length = 120 := h
  refine ⟨certWire.take 16, (certWire.drop 16).take 32, (certWire.drop 48).take 8,
    ⟨certWire.drop 56, by rw [List.length_drop, hlen]⟩, ?_, ?_, ?_, ?_⟩
  · rw [List.length_take, hlen]
    rfl
  · rw [List.length_take, List.length_drop, hlen]
    rfl
  · rw [List.length_take, List.length_drop, hlen]
    rfl
  · have hkey : certWire.drop 16 = (certWire.drop 16).take 32 ++ certWire.drop 48 := by
      conv_lhs => rw [← List.take_append_drop 32 (certWire.drop 16), List.drop_drop]
    have hexpiry : certWire.drop 48 = (certWire.drop 48).take 8 ++ certWire.drop 56 := by
      conv_lhs => rw [← List.take_append_drop 8 (certWire.drop 48), List.drop_drop]
    conv_lhs => rw [← List.take_append_drop 16 certWire, hkey, hexpiry]
    simp only [List.append_assoc]

theorem certBindingOk_iff :
    certBindingOk S anchorPub certWire addr pubkey now = true ↔ Bound S anchorPub certWire addr pubkey now := by
  constructor
  · intro h
    by_cases hlen : certWire.length = certLen
    · obtain ⟨a, k, e, sig, ha, hk, he, rfl⟩ := exists_certParts hlen
      obtain ⟨rfl, rfl, hanchor, hsig, hnow⟩ := (certBindingOk_parts ha hk he sig).mp h
      refine ⟨ofBe64 e, sig, ?_, hanchor, ?_, hnow⟩
      · rw [be64_ofBe64 he]
      · rw [be64_ofBe64 he]
        exact hsig
    · unfold certBindingOk at h
      rw [if_pos hlen] at h
      cases h
  · rintro ⟨notAfter, sig, rfl, hanchor, hsig, hnow⟩
    rw [certBindingOk_parts addr.length_toBytes pubkey.property (length_be64 _), ofBe64_be64]
    exact ⟨rfl, rfl, hanchor, hsig, hnow⟩

end

/-- The check passes exactly the verified packets, with what their list says. -/
theorem verifyForNextHop_eq_ok : verifyForNextHop S v = .ok decision ↔ Verified S v ∧ decision = v.decision := by
  have hdecision : (match v.trace.hops[v.trace.hops.idxOf v.localAddr + 1]? with
      | none => (.ok .deliver : Except TraceError Decision)
      | some next => .ok (.forwardTo next (v.trace.hops.idxOf v.localAddr + 1))) = .ok v.decision := by
    unfold VerifyInput.decision VerifyInput.position
    cases v.trace.hops[v.trace.hops.idxOf v.localAddr + 1]? with
    | none => rfl
    | some next => rfl
  have hle : v.trace.hops.idxOf v.localAddr ≤ v.trace.hops.length := List.idxOf_le_length
  have hsub : v.position ≤ v.trace.initHopLimit.toNat →
      (v.trace.initHopLimit - UInt8.ofNat v.position).toNat = v.trace.initHopLimit.toNat - v.position := by
    intro hk
    have hsmall : (UInt8.ofNat v.position).toNat = v.position :=
      UInt8.toNat_ofNat_of_lt' (Nat.lt_of_le_of_lt hk v.trace.initHopLimit.toNat_lt)
    rw [UInt8.toNat_sub_of_le _ _ (UInt8.le_iff_toNat_le.mpr (hsmall.le.trans hk)), hsmall]
  have hhop : ¬ (v.trace.initHopLimit.toNat < v.position ∨
      v.trace.initHopLimit - UInt8.ofNat v.position ≠ v.currentHopLimit) ↔
      v.currentHopLimit.toNat + v.position = v.trace.initHopLimit.toNat := by
    rw [not_or, not_lt, not_not, ← UInt8.toNat_inj]
    constructor
    · rintro ⟨hk, h⟩
      rw [hsub hk] at h
      omega
    · intro h
      have hk : v.position ≤ v.trace.initHopLimit.toNat := by omega
      refine ⟨hk, ?_⟩
      rw [hsub hk]
      omega
  unfold verifyForNextHop
  simp only [hdecision, Bool.not_eq_true']
  split_ifs with hkey hsig hcert hpath hlimit
  · exact ⟨nofun, fun h => absurd h.1.validKey (Bool.eq_false_iff.mp hkey)⟩
  · exact ⟨nofun, fun h => absurd h.1.signed (Bool.eq_false_iff.mp hsig)⟩
  · exact ⟨nofun, fun h => absurd (certBindingOk_iff.mpr h.1.bound) (Bool.eq_false_iff.mp hcert)⟩
  · exact ⟨nofun, fun h => absurd hpath h.1.onPath.ne⟩
  · exact ⟨nofun, fun h => absurd hlimit (hhop.mpr h.1.hopLimit)⟩
  · rw [Except.ok.injEq, eq_comm, iff_and_self]
    exact fun _ => ⟨(Bool.not_eq_false _).mp hkey, (Bool.not_eq_false _).mp hsig, certBindingOk_iff.mp ((Bool.not_eq_false _).mp hcert),
      lt_of_le_of_ne hle hpath, hhop.mp hlimit⟩

end IPv8Plus.Routing
