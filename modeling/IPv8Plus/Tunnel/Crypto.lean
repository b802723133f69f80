import IPv8Plus.Tunnel.Frame
import IPv8Plus.Lib.SlidingWindow
import IPv8Plus.Lib.Word64

/-!
# Tunnel keys

`ipv8-tunnel/src/crypto.rs`: the key state of one end of a tunnel. Frames are sealed under the key of the
current send epoch, with one counter for data frames and one for receipt frames; the epoch advances by
`stride` after 1 GiB or one hour. The receiving side keeps, for each recent epoch, a replay window for each
kind of frame.

A cipher is the data its key is derived from, not the key. The AEAD itself is a parameter. `history` is no
field of the source: it records the encryptions an instance has made, for the properties about them.
Instants are nanoseconds, and the clock readings inside one call are one reading.
-/

namespace IPv8Plus.Tunnel
open Lib

/-- 1 GiB. -/
def rotateBytes : Nat := 1073741824

/-- 1 h. -/
def rotateSecs : Nat := 3600 * 10 ^ 9

def graceEpochs : UInt64 := 1

/-- The AEAD keyed by `HKDF(dh, info)`. -/
structure Cipher where
  suite : CipherSuite
  dh : Dh
  info : Bytes
  deriving DecidableEq

/-- The initiator sends in direction 0 and receives in direction 1. -/
def dirBit (isInitiator sending : Bool) : UInt8 :=
  match isInitiator, sending with
  | true, true => 0
  | false, false => 0
  | true, false => 1
  | false, true => 1

def cipherFor (dh : Dh) (suite : CipherSuite) (epoch : UInt64) (isInitiator sending : Bool) : Cipher where
  suite := suite
  dh := dh
  info := [dirBit isInitiator sending] ++ be64 epoch ++ [0x4B, suite.byte]

/-- An AEAD: decryption inverts encryption, a message has one ciphertext, and that is the length of the tag
longer. -/
structure Aead where
  encrypt : Cipher → Bytes → Bytes → Bytes → Bytes
  decrypt : Cipher → Bytes → Bytes → Bytes → Option Bytes
  decrypt_encrypt : ∀ c nonce aad msg, decrypt c nonce aad (encrypt c nonce aad msg) = some msg
  encrypt_of_decrypt : ∀ c nonce aad ct msg, decrypt c nonce aad ct = some msg → ct = encrypt c nonce aad msg
  length_encrypt : ∀ c nonce aad msg, (encrypt c nonce aad msg).length = msg.length + tagSize

section
variable (c : Cipher) (nonce aad msg : Bytes)

/-- A checksum of everything an AEAD authenticates. -/
def sampleTag : Bytes :=
  let input := c.dh.val ++ c.info ++ nonce ++ aad ++ msg
  toBe tagSize (input.foldl (fun acc b => (acc * 257 + b.toNat + 1) % (2 ^ 127 - 1)) 0)

lemma length_sampleTag : (sampleTag c nonce aad msg).length = tagSize := length_toBe _ _

end

/-- A computable AEAD to run the model with: it checks the tag and does not hide the message. -/
def sampleAead : Aead where
  encrypt c nonce aad msg := msg ++ sampleTag c nonce aad msg
  decrypt c nonce aad ct :=
    let msg := ct.take (ct.length - tagSize)
    if ct = msg ++ sampleTag c nonce aad msg then some msg else none
  decrypt_encrypt := by
    intro c nonce aad msg
    have h : (msg ++ sampleTag c nonce aad msg).length - tagSize = msg.length := by
      rw [List.length_append, length_sampleTag, Nat.add_sub_cancel]
    rw [h, List.take_left, if_pos rfl]
  encrypt_of_decrypt := by
    intro c nonce aad ct msg h
    dsimp only at h
    split at h
    · next e =>
      cases h
      exact e
    · cases h
  length_encrypt := by
    intro c nonce aad msg
    rw [List.length_append, length_sampleTag]

def nonceFor (counter : UInt64) : Bytes := List.replicate 4 0 ++ be64 counter

def receiptNonceBit : UInt8 := 0x80

def receiptNonce (counter : UInt64) : Bytes := (nonceFor counter).modify 4 (· ||| receiptNonceBit)

/-- The two kinds of sealed frames. -/
inductive FrameKind where
  | data
  | receipt
  deriving DecidableEq, Repr

def FrameKind.nonce : FrameKind → UInt64 → Bytes
  | data => nonceFor
  | receipt => receiptNonce

/-- One use of a cipher for encryption. -/
structure Encryption where
  kind : FrameKind
  epoch : UInt64
  counter : UInt64
  cipher : Cipher
  aad : Bytes
  msg : Bytes
  deriving DecidableEq

def Encryption.nonce (r : Encryption) : Bytes := r.kind.nonce r.counter

/-- The KeyID of an epoch: the suite in place of the first byte of the epoch. -/
def keyIdFor (suite : CipherSuite) (epoch : UInt64) : KeyId :=
  ⟨(be64 epoch).set 0 suite.byte, by rw [List.length_set, length_be64]⟩

/-- The epoch a KeyID names. -/
def keyEpoch (keyId : KeyId) : UInt64 := ofBe64 keyId.val &&& 0x00FFFFFFFFFFFFFF

/-- Replay window: the largest counter accepted, and bit `k` of the mask for the counter `k` below. -/
structure RxWindow where
  top : UInt64 := 0
  mask : BitVec 128 := 0
  deriving DecidableEq, Repr

def rxWindowBits : UInt64 := 127

def RxWindow.accept (w : RxWindow) (counter : UInt64) : RxWindow × Bool :=
  if counter = 0 then (w, false)
  else if w.top = 0 ∨ w.top < counter then
    let shift := counter - w.top
    let mask := if rxWindowBits ≤ shift then 1 else w.mask <<< shift.toNat ||| 1
    ({ top := counter, mask }, true)
  else
    let back := w.top - counter
    if rxWindowBits ≤ back then (w, false)
    else
      let bit := (1 : BitVec 128) <<< back.toNat
      if w.mask &&& bit ≠ 0 then (w, false)
      else ({ w with mask := w.mask ||| bit }, true)

abbrev RxWindows := Std.ExtTreeMap UInt64 RxWindow

/-- The key state of one end of a tunnel. -/
structure TunnelKeys where
  dh : Dh
  isInitiator : Bool
  suite : CipherSuite
  sendEpoch : UInt64
  epochCreated : Nat
  epochBytes : Nat
  txCounter : UInt64
  txReceiptCounter : UInt64
  shard : UInt64
  stride : UInt64
  rx : RxWindows
  rxReceipt : RxWindows
  sendCipher : Option (UInt64 × Cipher)
  rxCiphers : Std.ExtTreeMap UInt64 Cipher
  history : List Encryption

namespace TunnelKeys

def new (now : Nat) (dh : Dh) (isInitiator : Bool) : TunnelKeys where
  dh := dh
  isInitiator := isInitiator
  suite := .chaCha20Poly1305
  sendEpoch := 0
  epochCreated := now
  epochBytes := 0
  txCounter := 0
  txReceiptCounter := 0
  shard := 0
  stride := 1
  rx := ∅
  rxReceipt := ∅
  sendCipher := none
  rxCiphers := ∅
  history := []

def withSuite (now : Nat) (dh : Dh) (isInitiator : Bool) (suite : CipherSuite) : TunnelKeys :=
  { new now dh isInitiator with suite }

/-- The keys of one shard; the assertion of the source is a panic. -/
def withShard {ε : Type} (now : Nat) (dh : Dh) (isInitiator : Bool) (suite : CipherSuite)
    (shard stride : UInt64) : Outcome ε TunnelKeys :=
  if 1 ≤ stride ∧ shard < stride then
    .ok { withSuite now dh isInitiator suite with shard, stride, sendEpoch := shard }
  else .panic

/-- The keys of a shard of this tunnel, a new instance. -/
def deriveShard {ε : Type} (k : TunnelKeys) (now : Nat) (shard stride : UInt64) : Outcome ε TunnelKeys :=
  if 1 ≤ stride ∧ shard < stride then
    .ok { k with
      shard
      stride
      sendEpoch := shard
      epochCreated := now
      epochBytes := 0
      txCounter := 0
      txReceiptCounter := 0
      rx := ∅
      rxReceipt := ∅
      sendCipher := none
      rxCiphers := ∅
      history := [] }
  else .panic

def setSuite (k : TunnelKeys) (suite : CipherSuite) : TunnelKeys × Bool :=
  if k.sendEpoch ≠ k.shard ∨ k.txCounter ≠ 0 ∨ ¬ k.rx.isEmpty then (k, false)
  else ({ k with suite, sendCipher := none, rxCiphers := ∅ }, true)

def frameKeyId (k : TunnelKeys) (epoch : UInt64) : KeyId := keyIdFor k.suite epoch

/-- Epochs wrap around. -/
def advanceEpoch (k : TunnelKeys) (now : Nat) : TunnelKeys :=
  { k with
    sendEpoch := k.sendEpoch + k.stride
    epochCreated := now
    epochBytes := 0
    txCounter := 0
    txReceiptCounter := 0
    sendCipher := none }

/-- The epoch has had its bytes or its time. -/
def RotationDue (k : TunnelKeys) (now : Nat) : Prop :=
  rotateBytes ≤ k.epochBytes ∨ rotateSecs ≤ now - k.epochCreated

instance (k : TunnelKeys) (now : Nat) : Decidable (k.RotationDue now) :=
  inferInstanceAs (Decidable (_ ∨ _))

def rotateIfDue (k : TunnelKeys) (now : Nat) : TunnelKeys :=
  if k.RotationDue now then k.advanceEpoch now else k

/-- Rotate if it is time, and fill the cache: the keys and the cipher of the send epoch. -/
def sendEpochReady (k : TunnelKeys) (now : Nat) : TunnelKeys × Cipher :=
  let k := k.rotateIfDue now
  match k.sendCipher with
  | some (e, cipher) => if e = k.sendEpoch then (k, cipher) else fill k
  | none => fill k
where
  fill (k : TunnelKeys) : TunnelKeys × Cipher :=
    let cipher := cipherFor k.dh k.suite k.sendEpoch k.isInitiator true
    ({ k with sendCipher := some (k.sendEpoch, cipher) }, cipher)

/-- The send counter of a kind of frame. -/
def tx (k : TunnelKeys) : FrameKind → UInt64
  | .data => k.txCounter
  | .receipt => k.txReceiptCounter

/-- Count one frame. -/
def bump (k : TunnelKeys) : FrameKind → TunnelKeys
  | .data => { k with txCounter := k.txCounter + 1 }
  | .receipt => { k with txReceiptCounter := k.txReceiptCounter + 1 }

/-- The windows of a kind of frame. -/
def windows (k : TunnelKeys) : FrameKind → RxWindows
  | .data => k.rx
  | .receipt => k.rxReceipt

def setWindows (k : TunnelKeys) (kind : FrameKind) (ws : RxWindows) : TunnelKeys :=
  match kind with
  | .data => { k with rx := ws }
  | .receipt => { k with rxReceipt := ws }

/-- The newest epoch of all windows, or the given one. -/
def newestEpoch (k : TunnelKeys) (epoch : UInt64) : UInt64 :=
  max ((k.rx.keys.getLast?.toList ++ k.rxReceipt.keys.getLast?.toList).max?.getD epoch) epoch

/-- The checks before decryption, and the receive cipher, from the cache if it is there. -/
def openCipher (k : TunnelKeys) (keyId : KeyId) : TunnelKeys × Except FrameError (UInt64 × Cipher) :=
  match CipherSuite.fromByte keyId.suiteByte with
  | none => (k, .error .unknownKeyId)
  | some remoteSuite =>
    if remoteSuite ≠ k.suite then (k, .error (.suiteMismatch k.suite remoteSuite))
    else
      let epoch := keyEpoch keyId
      if epoch % k.stride ≠ k.shard then (k, .error (.shardMismatch epoch k.shard k.stride))
      else
        let newest := k.newestEpoch epoch
        if satAdd epoch (satMul graceEpochs k.stride) < newest then (k, .error (.staleEpoch epoch newest))
        else
          match k.rxCiphers[epoch]? with
          | some cipher => (k, .ok (epoch, cipher))
          | none =>
            let cipher := cipherFor k.dh k.suite epoch k.isInitiator false
            ({ k with rxCiphers := k.rxCiphers.insert epoch cipher }, .ok (epoch, cipher))

/-- Drop the windows and ciphers of old epochs. -/
def prune (k : TunnelKeys) : TunnelKeys :=
  match (k.rx.keys ++ k.rxReceipt.keys).max? with
  | none => k
  | some newest =>
    let floor := satSub newest (satMul graceEpochs k.stride)
    { k with
      rx := k.rx.filter fun e _ => floor ≤ e
      rxReceipt := k.rxReceipt.filter fun e _ => floor ≤ e
      rxCiphers := k.rxCiphers.filter fun e _ => floor ≤ e }

/-- A new secret. -/
def rekey (k : TunnelKeys) (now : Nat) (newDh : Dh) : TunnelKeys :=
  { ({ k with dh := newDh } : TunnelKeys).advanceEpoch now with rx := ∅, rxReceipt := ∅, rxCiphers := ∅ }

variable (A : Aead)

/-- What `seal` and `seal_receipt` share: KeyID, and counter followed by ciphertext. -/
def sealWith (kind : FrameKind) (k : TunnelKeys) (now : Nat) (aad plaintext : Bytes) :
    TunnelKeys × KeyId × Bytes :=
  let (k, cipher) := k.sendEpochReady now
  let k := k.bump kind
  let counter := k.tx kind
  let ct := A.encrypt cipher (kind.nonce counter) aad plaintext
  let body := be64 counter ++ ct
  let r : Encryption := { kind, epoch := k.sendEpoch, counter, cipher, aad, msg := plaintext }
  ({ k with epochBytes := k.epochBytes + body.length, history := r :: k.history },
    k.frameKeyId k.sendEpoch, body)

/-- Seal a data frame. -/
def «seal» (k : TunnelKeys) (now : Nat) (aad plaintext : Bytes) : TunnelKeys × KeyId × Bytes :=
  k.sealWith A .data now aad plaintext

def sealReceipt (k : TunnelKeys) (now : Nat) (plaintext : Bytes) : TunnelKeys × KeyId × Bytes :=
  k.sealWith A .receipt now [] plaintext

/-- What `open` and `open_receipt` share: a frame that decrypts is offered to the window of its epoch. -/
def openWith (kind : FrameKind) (k : TunnelKeys) (keyId : KeyId) (body aad : Bytes) :
    TunnelKeys × Except FrameError Bytes :=
  if body.length < 8 then (k, .error .bodyTooShort)
  else
    let counter := ofBe64 (body.take 8)
    let ct := body.drop 8
    match k.openCipher keyId with
    | (k, .error e) => (k, .error e)
    | (k, .ok (epoch, cipher)) =>
      match A.decrypt cipher (kind.nonce counter) aad ct with
      | none => (k, .error .decryptFailed)
      | some pt =>
        let (w, accepted) := ((k.windows kind)[epoch]?.getD {}).accept counter
        let k := (k.setWindows kind ((k.windows kind).insert epoch w)).prune
        if accepted then (k, .ok pt) else (k, .error .replay)

/-- Open a data frame. -/
def «open» (k : TunnelKeys) (keyId : KeyId) (body aad : Bytes) : TunnelKeys × Except FrameError Bytes :=
  k.openWith A .data keyId body aad

def openReceipt (k : TunnelKeys) (keyId : KeyId) (body : Bytes) : TunnelKeys × Except FrameError Bytes :=
  k.openWith A .receipt keyId body []

end TunnelKeys

section
variable {dh dh' : Dh} {suite suite' : CipherSuite} {epoch epoch' : UInt64} {i i' d d' : Bool}

/-- A cipher determines the secret, the suite, the epoch and the direction it was derived from. -/
lemma cipherFor_inj :
    cipherFor dh suite epoch i d = cipherFor dh' suite' epoch' i' d' ↔
      dh = dh' ∧ suite = suite' ∧ epoch = epoch' ∧ dirBit i d = dirBit i' d' := by
  constructor
  · intro h
    have hinfo := congrArg Cipher.info h
    have hlen : ([dirBit i d] ++ be64 epoch).length = ([dirBit i' d'] ++ be64 epoch').length := by
      simp only [List.length_append, length_be64, List.length_singleton]
    obtain ⟨hhead, -⟩ := List.append_inj hinfo hlen
    obtain ⟨hdir, hepoch⟩ := List.append_inj hhead rfl
    exact ⟨congrArg Cipher.dh h, congrArg Cipher.suite h, be64_injective hepoch, List.head_eq_of_cons_eq hdir⟩
  · rintro ⟨rfl, rfl, rfl, hdir⟩
    rw [cipherFor, cipherFor, hdir]

end

section
variable {c c' : UInt64}

lemma nonceFor_injective : Function.Injective nonceFor :=
  fun _ _ h => be64_injective (List.append_cancel_left h)

/-- The counter that a nonce carries: a receipt nonce sets its top bit. -/
def FrameKind.carried : FrameKind → UInt64 → UInt64
  | data, c => c
  | receipt, c => c ||| topBit

lemma FrameKind.nonce_eq (kind : FrameKind) (c : UInt64) : kind.nonce c = nonceFor (kind.carried c) := by
  cases kind with
  | data => rfl
  | receipt => rw [nonceFor, carried, be64_or_topBit, nonce, receiptNonce, nonceFor, be64_eq_cons]; rfl

/-- Two frames have one nonce exactly when their nonces carry one counter. -/
lemma FrameKind.nonce_inj {kind kind' : FrameKind} :
    kind.nonce c = kind'.nonce c' ↔ kind.carried c = kind'.carried c' := by
  rw [nonce_eq, nonce_eq]
  exact nonceFor_injective.eq_iff

/-- Below the top bit, the two kinds have disjoint nonces, and a nonce determines its counter. -/
lemma FrameKind.nonce_inj_of_lt {kind kind' : FrameKind} (hc : c.toNat < 2 ^ 63) (hc' : c'.toNat < 2 ^ 63)
    (h : kind.nonce c = kind'.nonce c') : kind = kind' ∧ c = c' := by
  have hn := congrArg UInt64.toNat (nonce_inj.mp h)
  cases kind with
  | data =>
    cases kind' with
    | data => exact ⟨rfl, UInt64.toNat_inj.mp hn⟩
    | receipt =>
      rw [carried, carried, toNat_or_topBit] at hn
      omega
  | receipt =>
    cases kind' with
    | data =>
      rw [carried, carried, toNat_or_topBit] at hn
      omega
    | receipt =>
      rw [carried, carried, toNat_or_topBit, toNat_or_topBit] at hn
      exact ⟨rfl, UInt64.toNat_inj.mp (by omega)⟩

end

/-- A KeyID tells the suite, and the lower seven bytes of the epoch. -/
lemma suiteByte_keyIdFor (suite : CipherSuite) (epoch : UInt64) :
    (keyIdFor suite epoch).suiteByte = suite.byte := rfl

lemma toNat_keyEpoch_keyIdFor (suite : CipherSuite) (epoch : UInt64) :
    (keyEpoch (keyIdFor suite epoch)).toNat = epoch.toNat % 2 ^ 56 :=
  ofBe64_mask_cons suite.byte epoch

lemma keyEpoch_keyIdFor {suite : CipherSuite} {epoch : UInt64} (h : epoch.toNat < 2 ^ 56) :
    keyEpoch (keyIdFor suite epoch) = epoch := by
  apply UInt64.toNat_inj.mp
  rw [toNat_keyEpoch_keyIdFor, Nat.mod_eq_of_lt h]

/-- The window holds the counters accepted so far. -/
def RxWindow.Holds (w : RxWindow) (seen : Set Nat) : Prop := Represents 127 w.top.toNat w.mask seen

lemma RxWindow.holds_default : ({} : RxWindow).Holds ∅ := represents_empty

/-- `accept` lets a counter in exactly by the sliding window policy, and remembers it. -/
theorem RxWindow.accept_spec {w : RxWindow} {seen : Set Nat} (h : w.Holds seen) {c : UInt64} (hc : c ≠ 0) :
    (Admits 127 seen c.toNat ∧ (w.accept c).2 = true ∧ (w.accept c).1.Holds (insert c.toNat seen)) ∨
      (¬ Admits 127 seen c.toNat ∧ (w.accept c).2 = false ∧ (w.accept c).1 = w) := by
  have hpos : 0 < c.toNat := by
    rcases Nat.eq_zero_or_pos c.toNat with e | hpos
    · exact absurd (UInt64.toNat_inj.mp e) hc
    · exact hpos
  unfold accept
  rw [if_neg hc]
  by_cases htop : w.top = 0 ∨ w.top < c
  · have hlt : w.top.toNat < c.toNat := by
      rcases htop with e | hlt
      · rw [e]
        exact hpos
      · exact UInt64.lt_iff_toNat_lt.mp hlt
    have hsub : (c - w.top).toNat = c.toNat - w.top.toNat :=
      UInt64.toNat_sub_of_le _ _ (UInt64.le_iff_toNat_le.mpr hlt.le)
    have hwide : rxWindowBits ≤ c - w.top ↔ 127 ≤ c.toNat - w.top.toNat := by
      rw [UInt64.le_iff_toNat_le, hsub]
      rfl
    rw [if_pos htop]
    refine .inl ⟨h.admits_above hlt, rfl, ?_⟩
    have hmoved := h.advance (by decide) hlt
    simp only [Holds, hsub, hwide]
    exact hmoved
  · have hle : c ≤ w.top := UInt64.not_lt.mp fun hlt => htop (.inr hlt)
    have hle' : c.toNat ≤ w.top.toNat := UInt64.le_iff_toNat_le.mp hle
    have hsub : (w.top - c).toNat = w.top.toNat - c.toNat := UInt64.toNat_sub_of_le _ _ hle
    have hwide : rxWindowBits ≤ w.top - c ↔ 127 ≤ w.top.toNat - c.toNat := by
      rw [UInt64.le_iff_toNat_le, hsub]
      rfl
    have hadmits := h.admits_below hpos hle'
    rw [if_neg htop]
    simp only [hwide, hsub]
    by_cases hback : 127 ≤ w.top.toNat - c.toNat
    · rw [if_pos hback]
      exact .inr ⟨fun ha => Nat.not_lt.mpr hback (hadmits.mp ha).1, rfl, rfl⟩
    · have hback' : w.top.toNat - c.toNat < 127 := Nat.lt_of_not_le hback
      rw [if_neg hback]
      have hbit : w.mask &&& (1 : BitVec 128) <<< (w.top.toNat - c.toNat) ≠ 0 ↔
          w.mask.getLsbD (w.top.toNat - c.toNat) = true := and_bit_ne_zero (by omega)
      simp only [hbit]
      by_cases hseen : w.mask.getLsbD (w.top.toNat - c.toNat) = true
      · rw [if_pos hseen]
        refine .inr ⟨fun ha => ?_, rfl, rfl⟩
        rw [(hadmits.mp ha).2] at hseen
        cases hseen
      · rw [if_neg hseen]
        exact .inl ⟨hadmits.mpr ⟨hback', Bool.eq_false_iff.mpr hseen⟩, rfl, h.mark (by decide) hpos hle' hback'⟩

end IPv8Plus.Tunnel
