import IPv8Plus.Tunnel.Receiver

/-!
# Replay of data frames

A sender, a receiver, and a network that hands the receiver any bytes it likes. The AEAD is ideal in the
run: a frame opens only if the sender made that encryption (`Ideal`). The KeyID has room for epochs below
`2 ^ 56` only (`Low`). Under these two conditions `data_replay` says when exactly a genuine data frame is
accepted, and that it is accepted at most once.
-/

namespace IPv8Plus.Tunnel
open Lib TunnelKeys

/-- The KeyID of the frame that an encryption goes out in. -/
def Encryption.keyId (r : Encryption) : KeyId := keyIdFor r.cipher.suite r.epoch

/-- The accepted frame carries this encryption. -/
def Accepted.Carries (r : Encryption) (a : Accepted) : Prop :=
  a.kind = r.kind ∧ a.epoch = r.epoch ∧ a.kind.nonce a.counter = r.nonce

instance (r : Encryption) : DecidablePred (Accepted.Carries r) :=
  fun _ => inferInstanceAs (Decidable (_ ∧ _))

/-- The two ends of a tunnel or of one of its shards, as built. -/
structure Peers (tx rx : TunnelKeys) : Prop where
  tx_built : tx.Built
  rx_built : rx.Built
  config : rx.config = (tx.dh, !tx.isInitiator, tx.suite, tx.shard, tx.stride)

/-- A sender, a receiver, and the frames the receiver accepted, latest first. -/
structure World where
  tx : TunnelKeys
  rx : TunnelKeys
  accepted : List Accepted

/-- The sender seals, or the network hands a frame to the receiver. -/
inductive WorldCall where
  | «seal» (now : Nat) (aad plaintext : Bytes)
  | sealReceipt (now : Nat) (plaintext : Bytes)
  | «open» (keyId : KeyId) (body aad : Bytes)
  | openReceipt (keyId : KeyId) (body : Bytes)

namespace World

variable (A : Aead)

def start (tx rx : TunnelKeys) : World := { tx, rx, accepted := [] }

/-- Hand a frame to the receiver, and note it if it is accepted. -/
def deliver (w : World) (kind : FrameKind) (keyId : KeyId) (body aad : Bytes) :
    World × Option (Except FrameError Bytes) :=
  let (rx, x) := w.rx.openWith A kind keyId body aad
  let accepted :=
    match x with
    | .ok _ => ⟨kind, keyEpoch keyId, bodyCounter body⟩ :: w.accepted
    | .error _ => w.accepted
  ({ w with rx, accepted }, some x)

def step (w : World) : WorldCall → World × Option (Except FrameError Bytes)
  | .seal now aad plaintext => ({ w with tx := (w.tx.seal A now aad plaintext).1 }, none)
  | .sealReceipt now plaintext => ({ w with tx := (w.tx.sealReceipt A now plaintext).1 }, none)
  | .open keyId body aad => w.deliver A .data keyId body aad
  | .openReceipt keyId body => w.deliver A .receipt keyId body []

/-- If the frame opens, the sender made this encryption: key, nonce, authenticated data and plaintext. -/
def Authentic (w : World) (kind : FrameKind) (keyId : KeyId) (body aad : Bytes) : Prop :=
  ∀ pt ∈ w.rx.opened A kind keyId body aad, ∃ r ∈ w.tx.history,
    r.cipher = w.rx.recvCipherFor (keyEpoch keyId) ∧ r.nonce = kind.nonce (bodyCounter body) ∧
      r.aad = aad ∧ r.msg = pt

instance (w : World) (kind : FrameKind) (keyId : KeyId) (body aad : Bytes) :
    Decidable (w.Authentic A kind keyId body aad) :=
  inferInstanceAs (Decidable (∀ pt ∈ w.rx.opened A kind keyId body aad, _))

/-- The AEAD is ideal at this call. -/
def Ideal (w : World) : WorldCall → Prop
  | .seal _ _ _ => True
  | .sealReceipt _ _ => True
  | .open keyId body aad => w.Authentic A .data keyId body aad
  | .openReceipt keyId body => w.Authentic A .receipt keyId body []

instance (w : World) (c : WorldCall) : Decidable (w.Ideal A c) := by
  cases c <;> unfold Ideal <;> infer_instance

/-- What holds of sender and receiver in every state of a run. -/
structure Inv (w : World) : Prop where
  tidy : w.tx.Tidy
  config : w.rx.config = (w.tx.dh, !w.tx.isInitiator, w.tx.suite, w.tx.shard, w.tx.stride)
  own : ∀ r ∈ w.tx.history, r.cipher = cipherFor w.tx.dh w.tx.suite r.epoch w.tx.isInitiator true
  tracks : Tracks w.rx w.accepted

variable {A} {w : World} {kind : FrameKind} {keyId : KeyId} {body aad plaintext : Bytes} {now : Nat}
  {r : Encryption}

lemma inv_start {tx rx : TunnelKeys} (h : Peers tx rx) : (start tx rx).Inv where
  tidy := h.tx_built.unused.tidy
  config := h.config
  own := by
    intro r hr
    rw [show (start tx rx).tx.history = [] from h.tx_built.unused.history] at hr
    cases hr
  tracks := .start h.rx_built.unused

/-- The receiver's key for an epoch is the sender's. -/
lemma Inv.recvCipherFor (h : w.Inv) (e : UInt64) :
    w.rx.recvCipherFor e = cipherFor w.tx.dh w.tx.suite e w.tx.isInitiator true := by
  have hc := h.config
  simp only [TunnelKeys.config, Prod.mk.injEq] at hc
  unfold TunnelKeys.recvCipherFor
  rw [hc.1, hc.2.1, hc.2.2.1, cipherFor_inj]
  refine ⟨rfl, rfl, rfl, ?_⟩
  cases w.tx.isInitiator <;> rfl

/-- No frame opens with counter 0. -/
lemma counter_ne_zero (h : w.tx.Tidy) (hr : r ∈ w.tx.history) {c : UInt64} (hn : r.nonce = kind.nonce c) : c ≠ 0 := by
  rintro rfl
  have hpos := (h.proper r hr).counter_pos
  have hle := (h.proper r hr).counter_le
  have hcarried := congrArg UInt64.toNat (FrameKind.nonce_inj.mp hn)
  cases hk : r.kind <;> cases kind <;>
    simp only [hk, FrameKind.carried, toNat_or_topBit, UInt64.toNat_zero] at hcarried <;> omega

/-- The sender seals a frame. -/
lemma Inv.sealWith (h : w.Inv) :
    ({ w with tx := (w.tx.sealWith A kind now aad plaintext).1 } : World).Inv := by
  have hstep := sealWith_eq A kind now aad plaintext h.tidy.cache
  constructor
  · exact sealWith_tidy A h.tidy
  · simp only [hstep, record_dh, record_isInitiator, record_suite, record_shard, record_stride, rotateIfDue_dh,
      rotateIfDue_isInitiator, rotateIfDue_suite, rotateIfDue_shard, rotateIfDue_stride]
    exact h.config
  · simp only [hstep, record_dh, record_isInitiator, record_suite, rotateIfDue_dh, rotateIfDue_isInitiator,
      rotateIfDue_suite, record_history, rotateIfDue_history]
    intro r hr
    rcases List.mem_cons.mp hr with rfl | hr
    · simp only [encryption, sendCipherFor, rotateIfDue_dh, rotateIfDue_suite, rotateIfDue_isInitiator]
    · exact h.own r hr
  · exact h.tracks

/-- The network hands over a frame: one that opens is accepted by the policy, any other is refused. -/
theorem Inv.deliver (h : w.Inv) (hid : w.Authentic A kind keyId body aad) :
    (w.deliver A kind keyId body aad).1.Inv ∧
      ((∃ pt, w.rx.opened A kind keyId body aad = some pt ∧
          Admits 127 (seen w.accepted kind (keyEpoch keyId)) (bodyCounter body).toNat ∧
          (w.rx.openWith A kind keyId body aad).2 = .ok pt ∧
          (w.deliver A kind keyId body aad).1.accepted =
            ⟨kind, keyEpoch keyId, bodyCounter body⟩ :: w.accepted) ∨
        ((∀ pt, w.rx.opened A kind keyId body aad = some pt →
            ¬ Admits 127 (seen w.accepted kind (keyEpoch keyId)) (bodyCounter body).toNat) ∧
          (∃ x, (w.rx.openWith A kind keyId body aad).2 = .error x) ∧
          (w.deliver A kind keyId body aad).1.accepted = w.accepted)) := by
  have hconfig : (w.rx.openWith A kind keyId body aad).1.config = _ :=
    (config_openWith h.tracks.cache).trans h.config
  cases ho : w.rx.opened A kind keyId body aad with
  | none =>
    obtain ⟨x, hx, ht⟩ := h.tracks.not_opened ho
    simp only [World.deliver, hx]
    exact ⟨⟨h.tidy, hconfig, h.own, ht⟩, .inr ⟨nofun, ⟨x, rfl⟩, trivial⟩⟩
  | some pt =>
    obtain ⟨r, hr, -, hnonce, -⟩ := hid pt ho
    rcases h.tracks.opened ho (counter_ne_zero h.tidy hr hnonce) with ⟨hadm, hx, ht⟩ | ⟨hadm, hx, ht⟩
    · simp only [World.deliver, hx]
      exact ⟨⟨h.tidy, hconfig, h.own, ht⟩, .inl ⟨pt, rfl, hadm, rfl, trivial⟩⟩
    · simp only [World.deliver, hx]
      exact ⟨⟨h.tidy, hconfig, h.own, ht⟩, .inr ⟨fun _ _ => hadm, ⟨.replay, rfl⟩, trivial⟩⟩

/-- Every call keeps the invariant. -/
theorem Inv.step (h : w.Inv) {c : WorldCall} (hid : w.Ideal A c) : (w.step A c).1.Inv := by
  cases c with
  | «seal» now aad plaintext => exact h.sealWith
  | sealReceipt now plaintext => exact h.sealWith
  | «open» keyId body aad => exact (h.deliver hid).1
  | openReceipt keyId body => exact (h.deliver hid).1

end World

/-- The epoch of the next frame, not wrapped around, fits the seven bytes of the KeyID. -/
def TunnelKeys.LowEpoch (k : TunnelKeys) (now : Nat) : Prop :=
  k.sendEpoch.toNat + (if k.RotationDue now then k.stride.toNat else 0) < 2 ^ 56

instance (k : TunnelKeys) (now : Nat) : Decidable (k.LowEpoch now) := inferInstanceAs (Decidable (_ < _))

/-- The sender's epochs fit the KeyID and are of its shard. -/
structure TunnelKeys.SendsLow (k : TunnelKeys) : Prop where
  residue : k.sendEpoch.toNat % k.stride.toNat = k.shard.toNat
  low : ∀ r ∈ k.history, r.epoch.toNat < 2 ^ 56
  shard : ∀ r ∈ k.history, r.epoch.toNat % k.stride.toNat = k.shard.toNat

namespace TunnelKeys

variable {A : Aead} {k : TunnelKeys} {kind : FrameKind} {now : Nat} {aad plaintext : Bytes}

lemma Unused.sendsLow (h : k.Unused) : k.SendsLow where
  residue := by
    rw [h.sendEpoch]
    exact Nat.mod_eq_of_lt (UInt64.lt_iff_toNat_lt.mp h.shard_lt)
  low := by rw [h.history]; exact nofun
  shard := by rw [h.history]; exact nofun

lemma LowEpoch.noWrap (h : k.LowEpoch now) : k.NoWrap now := by
  intro hdue
  unfold LowEpoch at h
  rw [if_pos hdue] at h
  omega

lemma LowEpoch.sendEpoch_lt (h : k.LowEpoch now) : (k.rotateIfDue now).sendEpoch.toNat < 2 ^ 56 := by
  have hw := h.noWrap
  unfold LowEpoch at h
  rcases k.rotateIfDue_cases now with ⟨hdue, e⟩ | ⟨hdue, e⟩
  · rw [e]
    exact Nat.lt_of_le_of_lt (Nat.le_add_right _ _) h
  · rw [if_pos hdue] at h
    rcases hw.toNat_sendEpoch with e' | e'
    · rw [e']
      exact Nat.lt_of_le_of_lt (Nat.le_add_right _ _) h
    · rw [e']
      exact h

lemma SendsLow.sealWith (h : k.SendsLow) (hc : k.CacheOk) (hlow : k.LowEpoch now) :
    (k.sealWith A kind now aad plaintext).1.SendsLow := by
  have hresidue : (k.rotateIfDue now).sendEpoch.toNat % k.stride.toNat = k.shard.toNat := by
    rcases hlow.noWrap.toNat_sendEpoch with e | e
    · rw [e]
      exact h.residue
    · rw [e, Nat.add_mod_right]
      exact h.residue
  rw [sealWith_eq A kind now aad plaintext hc]
  constructor
  · simp only [record_sendEpoch, record_stride, record_shard, rotateIfDue_stride, rotateIfDue_shard]
    exact hresidue
  · simp only [record_history, rotateIfDue_history]
    exact List.forall_mem_cons.mpr ⟨hlow.sendEpoch_lt, h.low⟩
  · simp only [record_history, rotateIfDue_history, record_stride, record_shard, rotateIfDue_stride,
      rotateIfDue_shard]
    exact List.forall_mem_cons.mpr ⟨hresidue, h.shard⟩

end TunnelKeys

namespace World

variable (A : Aead)

/-- The sender's epochs fit the KeyID. -/
def Low (w : World) : WorldCall → Prop
  | .seal now _ _ => w.tx.LowEpoch now
  | .sealReceipt now _ => w.tx.LowEpoch now
  | .open _ _ _ => True
  | .openReceipt _ _ => True

instance (w : World) (c : WorldCall) : Decidable (w.Low c) := by
  cases c <;> unfold Low <;> infer_instance

/-- The frame was not accepted before, no accepted frame of either kind is more than the grace period ahead
of its epoch, and no accepted data frame of its epoch is 127 or more ahead of its counter. -/
def Fresh (w : World) (r : Encryption) : Prop :=
  (∀ a ∈ w.accepted, ¬ a.Carries r) ∧
    (∀ a ∈ w.accepted, a.epoch.toNat ≤ r.epoch.toNat + graceEpochs.toNat * w.rx.stride.toNat) ∧
    (∀ a ∈ w.accepted, a.kind = .data → a.epoch = r.epoch → a.counter.toNat < r.counter.toNat + 127)

instance (w : World) (r : Encryption) : Decidable (w.Fresh r) := inferInstanceAs (Decidable (_ ∧ _))

/-- A genuine data frame is accepted if it is fresh, with its plaintext, and otherwise refused. -/
def Exact (w : World) : WorldCall → Prop
  | .seal _ _ _ => True
  | .sealReceipt _ _ => True
  | .open keyId body aad =>
    ∀ r ∈ w.tx.history, r.kind = .data → keyId = r.keyId → body = r.body A → aad = r.aad →
      (w.rx.open A keyId body aad).2.toOption = if w.Fresh r then some r.msg else none
  | .openReceipt _ _ => True

instance (w : World) (c : WorldCall) : Decidable (w.Exact A c) := by
  cases c <;> unfold Exact <;> infer_instance

variable {A} {w : World} {r : Encryption}

lemma bodyCounter_body (r : Encryption) : bodyCounter (r.body A) = r.counter := by
  unfold bodyCounter Encryption.body
  rw [List.take_append_of_le_length (length_be64 _).ge, List.take_of_length_le (length_be64 _).le, ofBe64_be64]

lemma drop_body (r : Encryption) : (r.body A).drop 8 = A.encrypt r.cipher r.nonce r.aad r.msg :=
  List.drop_left' (length_be64 _)

/-- A genuine frame of a recent epoch opens, one of another epoch does not. -/
lemma Inv.opened_genuine (h : w.Inv) (hl : w.tx.SendsLow) (hr : r ∈ w.tx.history) :
    w.rx.opened A r.kind r.keyId (r.body A) r.aad = if w.rx.Recent r.epoch then some r.msg else none := by
  have hconfig := h.config
  simp only [TunnelKeys.config, Prod.mk.injEq] at hconfig
  obtain ⟨-, -, hsuite, hshard, hstride⟩ := hconfig
  have hown := h.own r hr
  have hepoch : keyEpoch r.keyId = r.epoch := keyEpoch_keyIdFor (hl.low r hr)
  have hlen : 8 ≤ (r.body A).length := by
    rw [Encryption.body, List.length_append, length_be64]
    exact Nat.le_add_right _ _
  have hpasses : w.rx.Passes r.keyId ↔ w.rx.Recent r.epoch := by
    unfold Passes
    rw [hepoch]
    refine ⟨fun h => h.2.2, fun hrec => ⟨?_, ?_, hrec⟩⟩
    · rw [hsuite, Encryption.keyId, suiteByte_keyIdFor, hown]
      rfl
    · apply UInt64.toNat_inj.mp
      rw [UInt64.toNat_mod, hstride, hshard]
      exact hl.shard r hr
  have hdecrypt : A.decrypt (w.rx.recvCipherFor r.epoch) (r.kind.nonce r.counter) r.aad
      (A.encrypt r.cipher r.nonce r.aad r.msg) = some r.msg := by
    rw [h.recvCipherFor, ← hown]
    exact A.decrypt_encrypt _ _ _ _
  unfold opened
  rw [hepoch, bodyCounter_body, drop_body, hdecrypt]
  simp only [hpasses, hlen, true_and]

/-- Which accepted frames carry a data encryption. -/
lemma carries_data_iff (hk : r.kind = .data) {a : Accepted} :
    a.Carries r ↔ a.kind = .data ∧ a.epoch = r.epoch ∧ a.counter = r.counter := by
  unfold Accepted.Carries Encryption.nonce
  rw [hk]
  constructor
  · rintro ⟨hkind, hepoch, hnonce⟩
    rw [hkind] at hnonce
    exact ⟨hkind, hepoch, nonceFor_injective hnonce⟩
  · rintro ⟨hkind, hepoch, hcounter⟩
    rw [hkind, hcounter]
    exact ⟨rfl, hepoch, rfl⟩

/-- Fresh is what the windows check. -/
lemma Inv.fresh_iff (h : w.Inv) (hk : r.kind = .data) :
    w.Fresh r ↔ w.rx.Recent r.epoch ∧ Admits 127 (seen w.accepted .data r.epoch) r.counter.toNat := by
  have hnew : (∀ a ∈ w.accepted, ¬ a.Carries r) ↔ r.counter.toNat ∉ seen w.accepted .data r.epoch := by
    constructor
    · rintro hall ⟨a, ha, hkind, hepoch, hn⟩
      exact hall a ha ((carries_data_iff hk).mpr ⟨hkind, hepoch, UInt64.toNat_inj.mp hn⟩)
    · intro hnot a ha hcarries
      obtain ⟨hkind, hepoch, hcounter⟩ := (carries_data_iff hk).mp hcarries
      exact hnot ⟨a, ha, hkind, hepoch, by rw [hcounter]⟩
  have hnear : (∀ a ∈ w.accepted, a.kind = .data → a.epoch = r.epoch → a.counter.toNat < r.counter.toNat + 127) ↔
      ∀ n ∈ seen w.accepted .data r.epoch, n < r.counter.toNat + 127 := by
    constructor
    · rintro hall n ⟨a, ha, hkind, hepoch, rfl⟩
      exact hall a ha hkind hepoch
    · intro hall a ha hkind hepoch
      exact hall _ ⟨a, ha, hkind, hepoch, rfl⟩
  have hgrace : graceEpochs.toNat * w.rx.stride.toNat = w.rx.stride.toNat := Nat.one_mul _
  unfold Fresh Admits
  rw [h.tracks.recent_iff, hnew, hnear, hgrace]
  exact and_left_comm

/-- Every genuine data frame is accepted exactly if it is fresh. -/
theorem Inv.exact (h : w.Inv) (hl : w.tx.SendsLow) (c : WorldCall) : w.Exact A c := by
  cases c with
  | «seal» now aad plaintext => trivial
  | sealReceipt now plaintext => trivial
  | openReceipt keyId body => trivial
  | «open» keyId body aad =>
    rintro r hr hk rfl rfl rfl
    have hopened := h.opened_genuine (A := A) hl hr
    have hepoch : keyEpoch r.keyId = r.epoch := keyEpoch_keyIdFor (hl.low r hr)
    have hpos : bodyCounter (r.body A) ≠ 0 := by
      rw [bodyCounter_body]
      have hnonce : r.nonce = FrameKind.data.nonce r.counter := by rw [Encryption.nonce, hk]
      exact counter_ne_zero h.tidy hr hnonce
    rw [hk] at hopened
    show (w.rx.openWith A .data r.keyId (r.body A) r.aad).2.toOption = _
    by_cases hrecent : w.rx.Recent r.epoch
    · rw [if_pos hrecent] at hopened
      rcases h.tracks.opened hopened hpos with ⟨hadm, hx, -⟩ | ⟨hadm, hx, -⟩
      · rw [hepoch, bodyCounter_body] at hadm
        rw [hx, if_pos ((h.fresh_iff hk).mpr ⟨hrecent, hadm⟩)]
        rfl
      · rw [hepoch, bodyCounter_body] at hadm
        rw [hx, if_neg fun hf => hadm ((h.fresh_iff hk).mp hf).2]
        rfl
    · rw [if_neg hrecent] at hopened
      obtain ⟨x, hx, -⟩ := h.tracks.not_opened hopened
      rw [hx, if_neg fun hf => hrecent ((h.fresh_iff hk).mp hf).1]
      rfl

/-- Every call on low epochs keeps the sender's epochs low. -/
lemma Inv.step_sendsLow (h : w.Inv) (hl : w.tx.SendsLow) {c : WorldCall} (hc : w.Low c) :
    (w.step A c).1.tx.SendsLow := by
  cases c with
  | «seal» now aad plaintext => exact hl.sealWith h.tidy.cache hc
  | sealReceipt now plaintext => exact hl.sealWith h.tidy.cache hc
  | «open» keyId body aad => exact hl
  | openReceipt keyId body => exact hl

end World

/-- In a list without repetitions, a property of one element holds at most once. -/
lemma countP_le_one {α : Type} [DecidableEq α] {l : List α} {p : α → Bool} (h : l.Nodup) (b : α)
    (hb : ∀ a ∈ l, p a → a = b) : l.countP p ≤ 1 :=
  calc l.countP p ≤ l.count b := List.countP_mono_left fun a ha hp => beq_iff_eq.mpr (hb a ha hp)
    _ ≤ 1 := List.nodup_iff_count_le_one.mp h b

open World

/-- With an ideal AEAD and epochs that fit the KeyID, every sealed data frame is accepted at most once in a
run, and whenever it is handed over it is accepted exactly if it is fresh. -/
theorem data_replay (A : Aead) {tx rx : TunnelKeys} (h : Peers tx rx) {calls : List WorldCall}
    (hideal : Along (World.step A) (Ideal A) (start tx rx) calls)
    (hlow : Along (World.step A) Low (start tx rx) calls) :
    (let w := (run (World.step A) (start tx rx) calls).1
      ∀ r ∈ w.tx.history, r.kind = .data → w.accepted.countP (fun a => a.Carries r) ≤ 1) ∧
      Along (World.step A) (Exact A) (start tx rx) calls := by
  have hboth := along_and.mpr ⟨hideal, hlow⟩
  have hstart : (start tx rx).Inv ∧ (start tx rx).tx.SendsLow := ⟨inv_start h, h.tx_built.unused.sendsLow⟩
  have hstep : ∀ (w : World) (c : WorldCall), w.Inv ∧ w.tx.SendsLow → w.Ideal A c ∧ w.Low c →
      (w.step A c).1.Inv ∧ (w.step A c).1.tx.SendsLow :=
    fun w c hw hc => ⟨hw.1.step hc.1, hw.1.step_sendsLow hw.2 hc.2⟩
  constructor
  · have hend := (invariant_run hstep hstart hboth).1
    intro w r hr hk
    apply countP_le_one hend.tracks.nodup ⟨.data, r.epoch, r.counter⟩
    rintro ⟨kind, epoch, counter⟩ ha hcarries
    obtain ⟨rfl, rfl, rfl⟩ := (carries_data_iff hk).mp (of_decide_eq_true hcarries)
    rfl
  · exact Along.of_invariant hstep (fun w c hw _ => hw.1.exact hw.2 c) hstart hboth

/-- The encryption of a sample frame: sent by the initiator, under a fixed secret. -/
def sampleEncryption (kind : FrameKind) (epoch counter : UInt64) : Encryption where
  kind := kind
  epoch := epoch
  counter := counter
  cipher := cipherFor (sampleDh 7) .chaCha20Poly1305 epoch true true
  aad := match kind with
    | .data => [1]
    | .receipt => []
  msg := [2]

/-- The call that hands over the sample frame. -/
def sampleOpen (epoch counter : UInt64) : WorldCall :=
  let r := sampleEncryption .data epoch counter
  .open r.keyId (r.body sampleAead) r.aad

@[inherit_doc sampleOpen] def sampleOpenReceipt (epoch counter : UInt64) : WorldCall :=
  let r := sampleEncryption .receipt epoch counter
  .openReceipt r.keyId (r.body sampleAead)

/-- From epoch `2 ^ 56` on, the KeyID names another epoch, and a new genuine frame is refused. -/
theorem data_refused_high_epoch :
    ∃ tx rx,
      (withShard 0 (sampleDh 7) true .chaCha20Poly1305 (2 ^ 56) (2 ^ 56 + 1) : Outcome Empty TunnelKeys) = .ok tx ∧
      (withShard 0 (sampleDh 7) false .chaCha20Poly1305 (2 ^ 56) (2 ^ 56 + 1) : Outcome Empty TunnelKeys) = .ok rx ∧
      Along (World.step sampleAead) (Ideal sampleAead) (start tx rx)
        [.seal 0 [1] [2], sampleOpen (2 ^ 56) 1] ∧
      ¬ Along (World.step sampleAead) (Exact sampleAead) (start tx rx)
        [.seal 0 [1] [2], sampleOpen (2 ^ 56) 1] :=
  ⟨_, _, if_pos (by decide), if_pos (by decide), by decide +kernel, by decide +kernel⟩

/-- Frames out of order, repeated, rewritten on the way, and late after two rotations. -/
theorem data_replay_sample :
    let calls := [.seal 0 [1] [2], .seal 0 [1] [2], .sealReceipt 0 [2],
      .open (sampleEncryption .data 0 2).keyId ((sampleEncryption .data 0 2).body sampleAead) [3], sampleOpen 0 2,
      sampleOpenReceipt 0 1, sampleOpen 0 1, sampleOpen 0 1, .seal (hours 1) [1] [2], .seal (hours 2) [1] [2],
      sampleOpen 1 1, sampleOpen 0 1, sampleOpen 2 1, sampleOpen 0 2]
    let peers := start (TunnelKeys.new 0 (sampleDh 7) true) (TunnelKeys.new 0 (sampleDh 7) false)
    (∀ r ∈ (run (World.step sampleAead) peers calls).1.tx.history, r.kind = .data →
      (run (World.step sampleAead) peers calls).1.accepted.countP (fun a => a.Carries r) ≤ 1) ∧
      Along (World.step sampleAead) (Exact sampleAead) peers calls :=
  data_replay sampleAead ⟨.new 0 (sampleDh 7) true, .new 0 (sampleDh 7) false, rfl⟩ (by decide +kernel)
    (by decide +kernel)

end IPv8Plus.Tunnel
