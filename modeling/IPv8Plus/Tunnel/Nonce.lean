import IPv8Plus.Tunnel.Crypto
import IPv8Plus.Lib.Run

/-!
# Nonces of one tunnel

The two counters of an epoch share one budget of bytes, and every frame pays at least 24 bytes of it. So
the counters stay far below the bit that separates the receipt nonces from the data nonces (`Tidy`), and an
encryption is known by its secret, epoch, kind and counter. As long as no rotation takes the epoch past
`2 ^ 64`, the epoch and the counters only go up under one secret (`Ordered`), and no nonce is used twice
with one cipher.
-/

namespace IPv8Plus.Tunnel
open Lib

/-- No two encryptions have the same cipher (secret, suite, epoch, direction) and the same nonce. -/
def NonceUnique (history : List Encryption) : Prop := (history.map fun r => (r.cipher, r.nonce)).Nodup

instance (history : List Encryption) : Decidable (NonceUnique history) :=
  inferInstanceAs (Decidable (List.Nodup _))

/-- The body of the frame that an encryption goes out in. -/
def Encryption.body (A : Aead) (r : Encryption) : Bytes :=
  be64 r.counter ++ A.encrypt r.cipher r.nonce r.aad r.msg

/-- What one end of a tunnel records: the send cipher of the epoch, and a counter within the budget. -/
structure Encryption.Proper (isInitiator : Bool) (r : Encryption) : Prop where
  cipher_eq : r.cipher = cipherFor r.cipher.dh r.cipher.suite r.epoch isInitiator true
  counter_pos : 0 < r.counter.toNat
  counter_le : r.counter.toNat ≤ 2 ^ 27

/-- An encryption is known by its cipher and nonce. -/
lemma Encryption.Proper.key_inj {i : Bool} {r s : Encryption} (hr : r.Proper i) (hs : s.Proper i)
    (hc : r.cipher = s.cipher) (hn : r.nonce = s.nonce) :
    r.epoch = s.epoch ∧ r.kind = s.kind ∧ r.counter = s.counter := by
  have he := hc
  rw [hr.cipher_eq, hs.cipher_eq, cipherFor_inj] at he
  have hr' := hr.counter_le
  have hs' := hs.counter_le
  exact ⟨he.2.2.1, FrameKind.nonce_inj_of_lt (by omega) (by omega) hn⟩

namespace TunnelKeys

variable {k : TunnelKeys} {kind : FrameKind} {now : Nat} {aad plaintext : Bytes}

def sendCipherFor (k : TunnelKeys) : Cipher := cipherFor k.dh k.suite k.sendEpoch k.isInitiator true

/-- The encryption that the next frame of the epoch makes. -/
def encryption (k : TunnelKeys) (kind : FrameKind) (aad plaintext : Bytes) : Encryption where
  kind := kind
  epoch := k.sendEpoch
  counter := k.tx kind + 1
  cipher := k.sendCipherFor
  aad := aad
  msg := plaintext

/-- A cached cipher of the send epoch is the right one. -/
def CacheOk (k : TunnelKeys) : Prop := ∀ cipher, k.sendCipher = some (k.sendEpoch, cipher) → cipher = k.sendCipherFor

lemma CacheOk.rotateIfDue (h : k.CacheOk) (now : Nat) : (k.rotateIfDue now).CacheOk := by
  unfold TunnelKeys.rotateIfDue
  split
  · exact nofun
  · exact h

/-- Whether it comes from the cache or not, the cipher is the send cipher of the epoch. -/
lemma sendEpochReady_eq (h : k.CacheOk) :
    k.sendEpochReady now =
      ({ k.rotateIfDue now with
          sendCipher := some ((k.rotateIfDue now).sendEpoch, (k.rotateIfDue now).sendCipherFor) },
        (k.rotateIfDue now).sendCipherFor) := by
  have hcache := h.rotateIfDue now
  unfold sendEpochReady
  generalize k.rotateIfDue now = k' at hcache ⊢
  dsimp only
  split
  · next e cipher hsome =>
    split
    · next he =>
      subst he
      rw [← hcache cipher hsome, ← hsome]
    · rfl
  · rfl

/-- The keys once an encryption is made and recorded. -/
def record (k : TunnelKeys) (r : Encryption) : TunnelKeys :=
  { k.bump r.kind with
    sendCipher := some (k.sendEpoch, k.sendCipherFor)
    epochBytes := k.epochBytes + (r.msg.length + 24)
    history := r :: k.history }

section
variable (k) (r : Encryption)

@[simp] lemma record_dh : (k.record r).dh = k.dh := by unfold record bump; cases r.kind <;> rfl

@[simp] lemma record_isInitiator : (k.record r).isInitiator = k.isInitiator := by
  unfold record bump; cases r.kind <;> rfl

@[simp] lemma record_suite : (k.record r).suite = k.suite := by unfold record bump; cases r.kind <;> rfl

@[simp] lemma record_sendEpoch : (k.record r).sendEpoch = k.sendEpoch := by
  unfold record bump; cases r.kind <;> rfl

@[simp] lemma record_shard : (k.record r).shard = k.shard := by unfold record bump; cases r.kind <;> rfl

@[simp] lemma record_stride : (k.record r).stride = k.stride := by unfold record bump; cases r.kind <;> rfl

@[simp] lemma record_epochBytes : (k.record r).epochBytes = k.epochBytes + (r.msg.length + 24) := rfl

@[simp] lemma record_sendCipher : (k.record r).sendCipher = some (k.sendEpoch, k.sendCipherFor) := rfl

@[simp] lemma record_history : (k.record r).history = r :: k.history := rfl

lemma record_tx_of_eq {kind : FrameKind} (h : kind = r.kind) : (k.record r).tx kind = k.tx kind + 1 := by
  subst h
  unfold record bump tx; cases r.kind <;> rfl

lemma record_tx_of_ne {kind : FrameKind} (h : kind ≠ r.kind) : (k.record r).tx kind = k.tx kind := by
  unfold record bump tx
  cases hr : r.kind <;> cases kind <;> first | rfl | exact absurd hr.symm h

end

/-- What sealing a frame does. -/
theorem sealWith_eq (A : Aead) (kind : FrameKind) (now : Nat) (aad plaintext : Bytes) (h : k.CacheOk) :
    k.sealWith A kind now aad plaintext =
      let k' := k.rotateIfDue now
      let r := k'.encryption kind aad plaintext
      (k'.record r, keyIdFor k'.suite r.epoch, r.body A) := by
  have hlen : ∀ ct : Bytes, ct.length = plaintext.length + tagSize → ∀ c : UInt64,
      (be64 c ++ ct).length = plaintext.length + 24 := by
    intro ct hct c
    rw [List.length_append, length_be64, hct, tagSize]
    omega
  unfold sealWith
  rw [sendEpochReady_eq h]
  generalize k.rotateIfDue now = k'
  cases kind with
  | data =>
    simp only [hlen _ (A.length_encrypt _ _ _ _)]
    rfl
  | receipt =>
    simp only [hlen _ (A.length_encrypt _ _ _ _)]
    rfl

lemma rotateIfDue_cases (k : TunnelKeys) (now : Nat) :
    (¬ k.RotationDue now ∧ k.rotateIfDue now = k) ∨
      (k.RotationDue now ∧ k.rotateIfDue now = k.advanceEpoch now) := by
  by_cases h : k.RotationDue now
  · exact .inr ⟨h, if_pos h⟩
  · exact .inl ⟨h, if_neg h⟩

@[simp] lemma rotateIfDue_dh : (k.rotateIfDue now).dh = k.dh := by
  unfold rotateIfDue
  split <;> rfl

@[simp] lemma rotateIfDue_isInitiator : (k.rotateIfDue now).isInitiator = k.isInitiator := by
  unfold rotateIfDue
  split <;> rfl

@[simp] lemma rotateIfDue_suite : (k.rotateIfDue now).suite = k.suite := by
  unfold rotateIfDue
  split <;> rfl

@[simp] lemma rotateIfDue_shard : (k.rotateIfDue now).shard = k.shard := by
  unfold rotateIfDue
  split <;> rfl

@[simp] lemma rotateIfDue_stride : (k.rotateIfDue now).stride = k.stride := by
  unfold rotateIfDue
  split <;> rfl

@[simp] lemma rotateIfDue_history : (k.rotateIfDue now).history = k.history := by
  unfold rotateIfDue
  split <;> rfl

/-- After the check for rotation the epoch has bytes left. -/
lemma epochBytes_rotateIfDue_lt (k : TunnelKeys) (now : Nat) : (k.rotateIfDue now).epochBytes < rotateBytes := by
  rcases k.rotateIfDue_cases now with ⟨h, e⟩ | ⟨_, e⟩
  · rw [e]
    exact Nat.lt_of_not_le fun hle => h (.inl hle)
  · rw [e]
    exact Nat.zero_lt_succ _

/-- The send state after any calls: the cache is right, the counters are paid for and few, and so are those
of the encryptions made. -/
structure Tidy (k : TunnelKeys) : Prop where
  cache : k.CacheOk
  budget : 8 * (k.txCounter.toNat + k.txReceiptCounter.toNat) ≤ k.epochBytes
  spent : k.txCounter.toNat + k.txReceiptCounter.toNat ≤ 2 ^ 27
  proper : ∀ r ∈ k.history, r.Proper k.isInitiator

/-- With zero counters and no cached cipher, only the history matters. -/
lemma Tidy.of_reset (hcipher : k.sendCipher = none) (htx : k.txCounter = 0) (hrc : k.txReceiptCounter = 0)
    (hproper : ∀ r ∈ k.history, r.Proper k.isInitiator) : k.Tidy where
  cache := by
    intro cipher h
    rw [hcipher] at h
    cases h
  budget := by rw [htx, hrc]; exact Nat.zero_le _
  spent := by rw [htx, hrc]; exact Nat.zero_le _
  proper := hproper

lemma Tidy.tx_le (h : k.Tidy) (kind : FrameKind) : (k.tx kind).toNat ≤ 2 ^ 27 := by
  cases kind with
  | data => exact (Nat.le_add_right _ _).trans h.spent
  | receipt => exact (Nat.le_add_left _ _).trans h.spent

/-- Counting one frame does not wrap around. -/
lemma Tidy.toNat_tx_succ (h : k.Tidy) (kind : FrameKind) : (k.tx kind + 1).toNat = (k.tx kind).toNat + 1 := by
  have hle := h.tx_le kind
  rw [UInt64.toNat_add, UInt64.toNat_one, Nat.mod_eq_of_lt (by omega)]

lemma Tidy.rotateIfDue (h : k.Tidy) : (k.rotateIfDue now).Tidy := by
  rcases k.rotateIfDue_cases now with ⟨_, e⟩ | ⟨_, e⟩
  · rw [e]
    exact h
  · rw [e]
    exact .of_reset rfl rfl rfl h.proper

/-- One more frame: it pays 24 bytes, and less than 1 GiB was paid before. -/
lemma Tidy.record (h : k.Tidy) (hb : k.epochBytes < rotateBytes) :
    (k.record (k.encryption kind aad plaintext)).Tidy := by
  have hbudget := h.budget
  have hfew : k.txCounter.toNat + k.txReceiptCounter.toNat < 2 ^ 27 := by
    unfold rotateBytes at hb
    omega
  have hsum : (k.record (k.encryption kind aad plaintext)).txCounter.toNat +
      (k.record (k.encryption kind aad plaintext)).txReceiptCounter.toNat =
        k.txCounter.toNat + k.txReceiptCounter.toNat + 1 := by
    have hsucc := h.toNat_tx_succ kind
    cases kind with
    | data =>
      show (k.txCounter + 1).toNat + k.txReceiptCounter.toNat = _
      rw [show (k.txCounter + 1).toNat = _ from hsucc]
      exact Nat.add_right_comm _ _ _
    | receipt =>
      show k.txCounter.toNat + (k.txReceiptCounter + 1).toNat = _
      rw [show (k.txReceiptCounter + 1).toNat = _ from hsucc]
      rfl
  constructor
  · intro cipher hc
    obtain ⟨-, e⟩ := Prod.mk.inj (Option.some.inj hc)
    rw [← e]
    simp only [sendCipherFor, record_dh, record_suite, record_sendEpoch, record_isInitiator]
  · rw [hsum, record_epochBytes]
    omega
  · rw [hsum]
    exact hfew
  · intro r hr
    rw [record_isInitiator]
    rcases List.mem_cons.mp hr with rfl | hr
    · have hsucc := h.toNat_tx_succ kind
      refine ⟨rfl, ?_, ?_⟩
      · show 0 < (k.tx kind + 1).toNat
        rw [hsucc]
        exact Nat.succ_pos _
      · show (k.tx kind + 1).toNat ≤ 2 ^ 27
        rw [hsucc]
        cases kind with
        | data => exact (Nat.succ_le_succ (Nat.le_add_right _ _)).trans hfew
        | receipt => exact (Nat.succ_le_succ (Nat.le_add_left _ _)).trans hfew
    · exact h.proper r hr

/-- The send state as long as epochs do not wrap around: under the current secret, all encryptions are of
earlier epochs, or of this one and counted. -/
structure Ordered (k : TunnelKeys) : Prop where
  stride_pos : 0 < k.stride.toNat
  past : ∀ r ∈ k.history, r.cipher.dh = k.dh →
    r.epoch.toNat < k.sendEpoch.toNat ∨ r.epoch = k.sendEpoch ∧ r.counter.toNat ≤ (k.tx r.kind).toNat
  unique : NonceUnique k.history

/-- A rotation leaves all encryptions in earlier epochs. -/
lemma Ordered.rotateIfDue (h : k.Ordered)
    (hw : k.RotationDue now → k.sendEpoch.toNat + k.stride.toNat < 2 ^ 64) : (k.rotateIfDue now).Ordered := by
  rcases k.rotateIfDue_cases now with ⟨_, e⟩ | ⟨hdue, e⟩
  · rw [e]
    exact h
  · rw [e]
    refine ⟨h.stride_pos, fun r hr hdh => .inl ?_, h.unique⟩
    have hpos := h.stride_pos
    have hnext : (k.sendEpoch + k.stride).toNat = k.sendEpoch.toNat + k.stride.toNat := by
      rw [UInt64.toNat_add, Nat.mod_eq_of_lt (hw hdue)]
    show r.epoch.toNat < (k.sendEpoch + k.stride).toNat
    rcases h.past r hr hdh with hlt | ⟨e, _⟩
    · omega
    · rw [e]
      omega

/-- The next frame has a new epoch, kind or counter, so it has a new nonce. -/
lemma Ordered.record (h : k.Ordered) (ht : k.Tidy) (hb : k.epochBytes < rotateBytes) :
    (k.record (k.encryption kind aad plaintext)).Ordered := by
  have ht' : (k.record (k.encryption kind aad plaintext)).Tidy := ht.record hb
  have hsucc := ht.toNat_tx_succ kind
  constructor
  · rw [record_stride]
    exact h.stride_pos
  · intro r hr hdh
    rw [record_dh] at hdh
    rw [record_sendEpoch]
    rcases List.mem_cons.mp hr with rfl | hr
    · exact .inr ⟨rfl, by rw [record_tx_of_eq k _ rfl]; rfl⟩
    rcases h.past r hr hdh with hlt | ⟨e, hle⟩
    · exact .inl hlt
    refine .inr ⟨e, ?_⟩
    by_cases hk : r.kind = kind
    · rw [record_tx_of_eq k _ hk, hk, hsucc]
      rw [hk] at hle
      exact Nat.le_succ_of_le hle
    · rw [record_tx_of_ne k _ hk]
      exact hle
  · refine List.nodup_cons.mpr ⟨fun hmem => ?_, h.unique⟩
    obtain ⟨s, hs, e⟩ := List.mem_map.mp hmem
    obtain ⟨hcipher, hnonce⟩ := Prod.mk.inj e
    have hmem' : s ∈ (k.record (k.encryption kind aad plaintext)).history := List.mem_cons_of_mem _ hs
    obtain ⟨hepoch, hkind, hcounter⟩ :=
      (ht'.proper s hmem').key_inj (ht'.proper _ List.mem_cons_self) hcipher hnonce
    rcases h.past s hs (by rw [hcipher]; rfl) with hlt | ⟨_, hle⟩
    · rw [hepoch] at hlt
      exact Nat.lt_irrefl _ hlt
    · rw [hkind, hcounter] at hle
      change (k.tx kind + 1).toNat ≤ (k.tx kind).toNat at hle
      omega

/-- The calls of one end of a tunnel that make or change send keys. -/
inductive Call where
  | «seal» (now : Nat) (aad plaintext : Bytes)
  | sealReceipt (now : Nat) (plaintext : Bytes)
  | rekey (now : Nat) (newDh : Dh)
  | setSuite (suite : CipherSuite)

def step (A : Aead) (k : TunnelKeys) : Call → TunnelKeys × Option (KeyId × Bytes)
  | .seal now aad plaintext =>
    let (k, frame) := k.seal A now aad plaintext
    (k, some frame)
  | .sealReceipt now plaintext =>
    let (k, frame) := k.sealReceipt A now plaintext
    (k, some frame)
  | .rekey now newDh => (k.rekey now newDh, none)
  | .setSuite suite => ((k.setSuite suite).1, none)

/-- A rotation at this time stays below `2 ^ 64`. -/
def NoWrap (k : TunnelKeys) (now : Nat) : Prop :=
  k.RotationDue now → k.sendEpoch.toNat + k.stride.toNat < 2 ^ 64

instance (k : TunnelKeys) (now : Nat) : Decidable (k.NoWrap now) :=
  inferInstanceAs (Decidable (_ → _))

/-- The send epoch stays or goes up by the stride. -/
lemma NoWrap.toNat_sendEpoch (h : k.NoWrap now) :
    (k.rotateIfDue now).sendEpoch.toNat = k.sendEpoch.toNat ∨
      (k.rotateIfDue now).sendEpoch.toNat = k.sendEpoch.toNat + k.stride.toNat := by
  rcases k.rotateIfDue_cases now with ⟨_, e⟩ | ⟨hdue, e⟩
  · rw [e]
    exact .inl rfl
  · rw [e]
    refine .inr ?_
    show (k.sendEpoch + k.stride).toNat = _
    rw [UInt64.toNat_add, Nat.mod_eq_of_lt (h hdue)]

/-- Rotations do not wrap around, and a new secret was not used before. -/
def Allows (k : TunnelKeys) : Call → Prop
  | .seal now _ _ => k.NoWrap now
  | .sealReceipt now _ => k.NoWrap now
  | .rekey _ newDh => ∀ r ∈ k.history, r.cipher.dh ≠ newDh
  | .setSuite _ => True

instance (k : TunnelKeys) (c : Call) : Decidable (k.Allows c) := by
  cases c <;> unfold Allows <;> infer_instance

/-- Keys as the constructors make them. -/
inductive Built : TunnelKeys → Prop where
  | new (now : Nat) (dh : Dh) (isInitiator : Bool) : Built (TunnelKeys.new now dh isInitiator)
  | withSuite (now : Nat) (dh : Dh) (isInitiator : Bool) (suite : CipherSuite) :
    Built (TunnelKeys.withSuite now dh isInitiator suite)
  | withShard {now : Nat} {dh : Dh} {isInitiator : Bool} {suite : CipherSuite} {shard stride : UInt64}
    {k : TunnelKeys} (h : (withShard now dh isInitiator suite shard stride : Outcome Empty TunnelKeys) = .ok k) :
    Built k

/-- Keys that have not been used. -/
structure Unused (k : TunnelKeys) : Prop where
  history : k.history = []
  txCounter : k.txCounter = 0
  txReceiptCounter : k.txReceiptCounter = 0
  sendCipher : k.sendCipher = none
  rx : k.rx = ∅
  rxReceipt : k.rxReceipt = ∅
  rxCiphers : k.rxCiphers = ∅
  sendEpoch : k.sendEpoch = k.shard
  shard_lt : k.shard < k.stride

lemma Built.unused (h : k.Built) : k.Unused := by
  cases h with
  | new => exact ⟨rfl, rfl, rfl, rfl, rfl, rfl, rfl, rfl, (by decide : (0 : UInt64) < 1)⟩
  | withSuite => exact ⟨rfl, rfl, rfl, rfl, rfl, rfl, rfl, rfl, (by decide : (0 : UInt64) < 1)⟩
  | withShard h =>
    unfold TunnelKeys.withShard at h
    split at h
    · next hs =>
      cases h
      exact ⟨rfl, rfl, rfl, rfl, rfl, rfl, rfl, rfl, hs.2⟩
    · cases h

lemma Unused.tidy (h : k.Unused) : k.Tidy :=
  .of_reset h.sendCipher h.txCounter h.txReceiptCounter (by rw [h.history]; exact nofun)

lemma Unused.ordered (h : k.Unused) : k.Ordered where
  stride_pos := Nat.zero_lt_of_lt (UInt64.lt_iff_toNat_lt.mp h.shard_lt)
  past := by rw [h.history]; exact nofun
  unique := by rw [h.history]; exact List.nodup_nil

/-- Sealing a frame of either kind. -/
lemma sealWith_tidy (A : Aead) (h : k.Tidy) : (k.sealWith A kind now aad plaintext).1.Tidy := by
  rw [sealWith_eq A _ _ _ _ h.cache]
  exact h.rotateIfDue.record (k.epochBytes_rotateIfDue_lt now)

@[inherit_doc sealWith_tidy]
lemma sealWith_ordered (A : Aead) (ht : k.Tidy) (ho : k.Ordered) (hw : k.NoWrap now) :
    (k.sealWith A kind now aad plaintext).1.Ordered := by
  rw [sealWith_eq A _ _ _ _ ht.cache]
  exact (ho.rotateIfDue hw).record ht.rotateIfDue (k.epochBytes_rotateIfDue_lt now)

lemma setSuite_cases (k : TunnelKeys) (suite : CipherSuite) :
    k.setSuite suite = (k, false) ∨
      k.setSuite suite = ({ k with suite, sendCipher := none, rxCiphers := ∅ }, true) := by
  unfold setSuite
  split
  · exact .inl rfl
  · exact .inr rfl

/-- Every call keeps the send state tidy. -/
theorem step_tidy (A : Aead) (h : k.Tidy) (c : Call) : (k.step A c).1.Tidy := by
  cases c with
  | «seal» now aad plaintext => exact sealWith_tidy A h
  | sealReceipt now plaintext => exact sealWith_tidy A h
  | rekey now newDh => exact .of_reset rfl rfl rfl h.proper
  | setSuite suite =>
    rcases k.setSuite_cases suite with e | e
    · simp only [step, e]
      exact h
    · simp only [step, e]
      exact ⟨nofun, h.budget, h.spent, h.proper⟩

/-- Every allowed call keeps the encryptions in order. -/
theorem step_ordered (A : Aead) (ht : k.Tidy) (ho : k.Ordered) {c : Call} (hc : k.Allows c) :
    (k.step A c).1.Ordered := by
  cases c with
  | «seal» now aad plaintext => exact sealWith_ordered A ht ho hc
  | sealReceipt now plaintext => exact sealWith_ordered A ht ho hc
  | rekey now newDh =>
    -- no encryption is under the new secret
    exact ⟨ho.stride_pos, fun r hr hdh => absurd hdh (hc r hr), ho.unique⟩
  | setSuite suite =>
    rcases k.setSuite_cases suite with e | e
    · simp only [step, e]
      exact ho
    · simp only [step, e]
      exact ⟨ho.stride_pos, ho.past, ho.unique⟩

end TunnelKeys

open TunnelKeys

/-- In every run of one tunnel in which no rotation takes the epoch past `2 ^ 64` and every rekey brings a
new secret, no two encryptions share cipher and nonce, receipt nonces are no data nonces, and both counters
are bounded by the bytes of the epoch and by `2 ^ 56`. -/
theorem nonceUnique_run (A : Aead) {k : TunnelKeys} (hk : k.Built) {calls : List TunnelKeys.Call}
    (h : Along (TunnelKeys.step A) Allows k calls) :
    let k' := (run (TunnelKeys.step A) k calls).1
    NonceUnique k'.history ∧
      (∀ r ∈ k'.history, ∀ s ∈ k'.history, r.kind ≠ s.kind → r.nonce ≠ s.nonce) ∧
      k'.txCounter.toNat + k'.txReceiptCounter.toNat ≤ k'.epochBytes ∧
      k'.txCounter.toNat < 2 ^ 56 ∧ k'.txReceiptCounter.toNat < 2 ^ 56 := by
  intro k'
  obtain ⟨ht, ho⟩ : k'.Tidy ∧ k'.Ordered :=
    invariant_run (I := fun k => k.Tidy ∧ k.Ordered)
      (fun k c hk hc => ⟨step_tidy A hk.1 c, step_ordered A hk.1 hk.2 hc⟩)
      ⟨hk.unused.tidy, hk.unused.ordered⟩ h
  have hbudget := ht.budget
  have hspent := ht.spent
  refine ⟨ho.unique, ?_, by omega, by omega, by omega⟩
  intro r hr s hs hkind hnonce
  have hr' := (ht.proper r hr).counter_le
  have hs' := (ht.proper s hs).counter_le
  exact hkind (FrameKind.nonce_inj_of_lt (by omega) (by omega) hnonce).1

lemma length_sampleDh (b : UInt8) : (List.replicate 32 b).length = 32 := List.length_replicate

def sampleDh (b : UInt8) : Dh := ⟨List.replicate 32 b, length_sampleDh b⟩

/-- One hour in the clock's unit. -/
def hours (n : Nat) : Nat := n * rotateSecs

/-- With stride `2 ^ 63`, the second rotation is back at epoch 0 and counts from 1 again. -/
theorem nonce_reused_after_wrap :
    ∃ k, (withShard 0 (sampleDh 7) true .aes256Gcm 0 0x8000000000000000 : Outcome Empty TunnelKeys) = .ok k ∧
      ¬ NonceUnique (run (TunnelKeys.step sampleAead) k
        [.seal (hours 0) [1] [1], .seal (hours 1) [2] [2], .seal (hours 2) [3] [3]]).1.history :=
  ⟨_, if_pos (by decide), by decide +kernel⟩

/-- Both kinds of frames, a rotation, a rekey and a change of suite. -/
theorem nonceUnique_run_rotated :
    NonceUnique (run (TunnelKeys.step sampleAead) (TunnelKeys.new 0 (sampleDh 7) true)
      [.setSuite .aes256Gcm, .seal (hours 0) [1] [1], .sealReceipt (hours 0) [2], .seal (hours 1) [3] [3],
        .rekey (hours 1) (sampleDh 8), .seal (hours 1) [4] [4]]).1.history :=
  (nonceUnique_run sampleAead (.new 0 (sampleDh 7) true) (by decide +kernel)).1

end IPv8Plus.Tunnel
