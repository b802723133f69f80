import IPv8Plus.Tunnel.Replay

/-!
# Replay of receipt frames

The counter field that drives the replay window is sent in clear, and only the nonce authenticates it. The
nonce of a receipt has the top bit of the counter set, so a receipt and its copy with that bit set in the
counter field have one nonce: the copy decrypts, and the window takes it for another counter. `receipt_replay`
says that this is all that goes wrong.
-/

namespace IPv8Plus.Tunnel
open Lib TunnelKeys

/-- The frame body with the top bit of the counter field set. -/
def Encryption.shiftedBody (A : Aead) (r : Encryption) : Bytes := be64 (r.counter ||| topBit) ++ (r.body A).drop 8

namespace World

variable (A : Aead)

/-- No receipt was accepted twice, and no receipt window is past the counters used in its epoch. -/
structure Safe (w : World) : Prop where
  once : ∀ r ∈ w.tx.history, r.kind = .receipt → w.accepted.countP (fun a => a.Carries r) ≤ 1
  window : ∀ (e : UInt64) (win : RxWindow), w.rx.rxReceipt[e]? = some win →
    ∃ r ∈ w.tx.history, r.kind = .receipt ∧ r.epoch = e ∧ win.top.toNat ≤ r.counter.toNat

/-- A copy of a sealed receipt with the top bit of the counter field set is handed over, under a KeyID that
passes the checks. -/
def Shifted (w : World) : WorldCall → Prop
  | .seal _ _ _ => False
  | .sealReceipt _ _ => False
  | .open _ _ _ => False
  | .openReceipt keyId body =>
    w.rx.Passes keyId ∧
      ∃ r ∈ w.tx.history, r.kind = .receipt ∧ r.epoch = keyEpoch keyId ∧ body = r.shiftedBody A

instance (w : World) : (c : WorldCall) → Decidable (w.Shifted A c)
  | .seal _ _ _ => isFalse id
  | .sealReceipt _ _ => isFalse id
  | .open _ _ _ => isFalse id
  | .openReceipt _ _ => inferInstanceAs (Decidable (_ ∧ ∃ r ∈ w.tx.history, _))

/-- Every accepted receipt has the epoch and the counter of a sealed one. -/
structure Genuine (w : World) : Prop where
  aad : ∀ r ∈ w.tx.history, r.kind = .receipt → r.aad = []
  sealed : ∀ a ∈ w.accepted, a.kind = .receipt →
    ∃ r ∈ w.tx.history, r.kind = .receipt ∧ r.epoch = a.epoch ∧ r.counter = a.counter

variable {A} {w : World} {keyId : KeyId} {body pt : Bytes} {c : UInt64}

/-- Two counters with one receipt nonce, the first below the top bit: they are equal, or the second is the
first with the top bit set. -/
lemma receiptNonce_cases {b : UInt64} (hb : b.toNat < 2 ^ 63)
    (h : FrameKind.receipt.nonce b = FrameKind.receipt.nonce c) : c = b ∨ c = b ||| topBit := by
  have hn := congrArg UInt64.toNat (FrameKind.nonce_inj.mp h)
  simp only [FrameKind.carried, toNat_or_topBit] at hn
  have hc := c.toNat_lt
  rcases Nat.lt_or_ge c.toNat (2 ^ 63) with hlt | hge
  · left
    apply UInt64.toNat_inj.mp
    omega
  · right
    apply UInt64.toNat_inj.mp
    rw [toNat_or_topBit]
    omega

lemma genuine_start {tx rx : TunnelKeys} (h : tx.Unused) : (start tx rx).Genuine where
  aad := by
    rw [show (start tx rx).tx.history = [] from h.history]
    exact nofun
  sealed := nofun

/-- The sender seals a frame, a receipt without authenticated data. -/
lemma Genuine.sealWith (hg : w.Genuine) (h : w.Inv) (kind : FrameKind) (now : Nat) {aad : Bytes} (plaintext : Bytes)
    (haad : kind = .receipt → aad = []) :
    ({ w with tx := (w.tx.sealWith A kind now aad plaintext).1 } : World).Genuine := by
  rw [sealWith_eq A kind now aad plaintext h.tidy.cache]
  constructor
  · simp only [record_history, rotateIfDue_history]
    exact List.forall_mem_cons.mpr ⟨haad, hg.aad⟩
  · intro a ha hkind
    obtain ⟨r, hr, hrest⟩ := hg.sealed a ha hkind
    simp only [record_history, rotateIfDue_history]
    exact ⟨r, List.mem_cons_of_mem _ hr, hrest⟩

/-- The network hands over a frame, and it is genuine if it is an accepted receipt. -/
lemma Genuine.deliver (hg : w.Genuine) (h : w.Inv) {kind : FrameKind} {aad : Bytes}
    (hid : w.Authentic A kind keyId body aad)
    (hnew : ∀ pt, w.rx.opened A kind keyId body aad = some pt → kind = .receipt →
      ∃ r ∈ w.tx.history, r.kind = .receipt ∧ r.epoch = keyEpoch keyId ∧ r.counter = bodyCounter body) :
    (w.deliver A kind keyId body aad).1.Genuine := by
  constructor
  · exact hg.aad
  rcases (h.deliver hid).2 with ⟨pt, ho, -, -, hacc⟩ | ⟨-, -, hacc⟩
  · rw [hacc]
    exact List.forall_mem_cons.mpr ⟨hnew pt ho, hg.sealed⟩
  · rw [hacc]
    exact hg.sealed

lemma bodyCounter_shiftedBody (r : Encryption) : bodyCounter (r.shiftedBody A) = r.counter ||| topBit := by
  unfold bodyCounter Encryption.shiftedBody
  rw [List.take_append_of_le_length (length_be64 _).ge, List.take_of_length_le (length_be64 _).le, ofBe64_be64]

lemma drop_shiftedBody (r : Encryption) :
    (r.shiftedBody A).drop 8 = A.encrypt r.cipher r.nonce r.aad r.msg := by
  rw [Encryption.shiftedBody, List.drop_left' (length_be64 _), drop_body]

/-- A run in which every accepted receipt is genuine is safe. -/
theorem Genuine.safe (hg : w.Genuine) (h : w.Inv) : w.Safe where
  once := by
    intro r hr hk
    apply countP_le_one h.tracks.nodup ⟨.receipt, r.epoch, r.counter⟩
    rintro ⟨kind, epoch, counter⟩ ha hcarries
    obtain ⟨hkind, hepoch, hnonce⟩ : Accepted.Carries r _ := of_decide_eq_true hcarries
    rw [hk] at hkind
    cases hkind
    cases hepoch
    obtain ⟨s, hs, -, -, rfl⟩ := hg.sealed _ ha rfl
    have hrc := (h.tidy.proper r hr).counter_le
    have hsc := (h.tidy.proper s hs).counter_le
    rw [Encryption.nonce, hk] at hnonce
    have hn : FrameKind.receipt.nonce s.counter = FrameKind.receipt.nonce r.counter := hnonce
    rw [(FrameKind.nonce_inj_of_lt (by omega) (by omega) hn).2]
  window := by
    intro e win hw
    obtain ⟨hholds, n, hn⟩ := h.tracks.window .receipt e win hw
    -- a window with a counter in it has its largest one
    have hpos : 0 < win.top.toNat := by
      rcases Nat.eq_zero_or_pos n with rfl | hpos
      · exact absurd hn hholds.pos
      · exact Nat.lt_of_lt_of_le hpos (hholds.le_top n hn)
    obtain ⟨b, hb, hkind, rfl, htop⟩ := hholds.top_mem hpos
    obtain ⟨r, hr, hk, hepoch, hcounter⟩ := hg.sealed b hb hkind
    exact ⟨r, hr, hk, hepoch, by rw [← htop, hcounter]⟩

/-- A receipt frame that opens carries a sealed receipt, or is a shifted copy of one. -/
theorem Inv.opened_receipt (h : w.Inv) (hid : w.Authentic A .receipt keyId body [])
    (ho : w.rx.opened A .receipt keyId body [] = some pt) :
    (∃ r ∈ w.tx.history, r.kind = .receipt ∧ r.epoch = keyEpoch keyId ∧ r.counter = bodyCounter body) ∨
      w.Shifted A (.openReceipt keyId body) := by
  obtain ⟨r, hr, hcipher, hnonce, haad, hmsg⟩ := hid pt ho
  have hproper := h.tidy.proper r hr
  have hle := hproper.counter_le
  have hepoch : r.epoch = keyEpoch keyId := by
    rw [h.own r hr, h.recvCipherFor, cipherFor_inj] at hcipher
    exact hcipher.2.2.1
  have hk : r.kind = .receipt := by
    cases hk : r.kind with
    | receipt => rfl
    | data =>
      -- the nonce of a data frame has the top bit clear
      have hn := congrArg UInt64.toNat (FrameKind.nonce_inj.mp hnonce)
      rw [hk, FrameKind.carried, FrameKind.carried, toNat_or_topBit] at hn
      omega
  rw [Encryption.nonce, hk] at hnonce
  rcases receiptNonce_cases (by omega) hnonce with heq | hshift
  · exact .inl ⟨r, hr, hk, hepoch, heq.symm⟩
  · unfold opened at ho
    split at ho
    · next hpass =>
      refine .inr ⟨hpass.2, r, hr, hk, hepoch, ?_⟩
      have hct := A.encrypt_of_decrypt _ _ _ _ _ ho
      rw [← hcipher, ← hnonce] at hct
      have hsame : FrameKind.receipt.nonce r.counter = r.nonce := by rw [Encryption.nonce, hk]
      rw [hsame] at hct
      rw [← List.take_append_drop 8 body, hct, Encryption.shiftedBody, drop_body, haad, hmsg, ← hshift, bodyCounter,
        be64_ofBe64]
      rw [List.length_take, Nat.min_eq_left hpass.1]
    · cases ho

/-- Every call but a shifted copy keeps the accepted receipts genuine. -/
theorem Genuine.step (hg : w.Genuine) (h : w.Inv) {c : WorldCall} (hid : w.Ideal A c) (hc : ¬ w.Shifted A c) :
    (w.step A c).1.Genuine := by
  cases c with
  | «seal» now aad plaintext => exact hg.sealWith h .data now plaintext nofun
  | sealReceipt now plaintext => exact hg.sealWith h .receipt now plaintext fun _ => rfl
  | «open» keyId body aad => exact hg.deliver h hid fun _ _ => nofun
  | openReceipt keyId body =>
    refine hg.deliver h hid fun pt ho _ => ?_
    rcases h.opened_receipt hid ho with hr | hshift
    · exact hr
    · exact absurd hshift hc

/-- A shifted copy opens. -/
lemma Inv.opened_shifted (h : w.Inv) {r : Encryption} (hr : r ∈ w.tx.history) (hk : r.kind = .receipt)
    (hpass : w.rx.Passes keyId) (hepoch : r.epoch = keyEpoch keyId) (haad : r.aad = []) :
    w.rx.opened A .receipt keyId (r.shiftedBody A) [] = some r.msg := by
  have hlen : 8 ≤ (r.shiftedBody A).length := by
    rw [Encryption.shiftedBody, List.length_append, length_be64]
    exact Nat.le_add_right _ _
  have hnonce : FrameKind.receipt.nonce (r.counter ||| topBit) = r.nonce := by
    rw [Encryption.nonce, hk, FrameKind.nonce_inj, FrameKind.carried, FrameKind.carried, UInt64.or_assoc,
      UInt64.or_self]
  unfold opened
  rw [if_pos ⟨hlen, hpass⟩, bodyCounter_shiftedBody, drop_shiftedBody, h.recvCipherFor, ← hepoch, ← h.own r hr,
    hnonce, haad]
  exact A.decrypt_encrypt _ _ _ _

/-- The counter of a shifted copy is above everything accepted, so the window lets it in. -/
lemma Genuine.admits_shifted (hg : w.Genuine) (h : w.Inv) (r : Encryption) (e : UInt64) :
    Admits 127 (seen w.accepted .receipt e) (bodyCounter (r.shiftedBody A)).toNat := by
  have hlow : ∀ n ∈ seen w.accepted .receipt e, n < 2 ^ 63 := by
    rintro n ⟨a, ha, hkind, -, rfl⟩
    obtain ⟨s, hs, -, -, hcounter⟩ := hg.sealed a ha hkind
    have hle := (h.tidy.proper s hs).counter_le
    rw [← hcounter]
    omega
  rw [bodyCounter_shiftedBody, toNat_or_topBit]
  constructor
  · intro hmem
    have := hlow _ hmem
    omega
  · intro n hn
    have := hlow n hn
    omega

/-- A shifted copy of a receipt is accepted, and takes the window where the sender has not been. -/
theorem Genuine.not_safe_of_shifted (hg : w.Genuine) (h : w.Inv) {c : WorldCall} (hid : w.Ideal A c)
    (hc : w.Shifted A c) : ¬ (w.step A c).1.Safe := by
  cases c with
  | «seal» => exact hc.elim
  | sealReceipt => exact hc.elim
  | «open» => exact hc.elim
  | openReceipt keyId body =>
    obtain ⟨hpass, r, hr, hk, hepoch, rfl⟩ := hc
    have ho := h.opened_shifted (A := A) hr hk hpass hepoch (hg.aad r hr hk)
    have hstride : (w.rx.openWith A .receipt keyId (r.shiftedBody A) []).1.stride = w.rx.stride :=
      congrArg (·.2.2.2.2) (config_openWith h.tracks.cache)
    rcases h.deliver hid with ⟨hinv, ⟨pt, -, -, -, hacc⟩ | ⟨hrefused, -⟩⟩
    · have hrecent : (w.deliver A .receipt keyId (r.shiftedBody A) []).1.rx.Recent (keyEpoch keyId) := by
        rw [hinv.tracks.recent_iff, hacc]
        refine List.forall_mem_cons.mpr ⟨Nat.le_add_right _ _, fun a ha => ?_⟩
        exact (h.tracks.recent_iff.mp hpass.2.2 a ha).trans_eq (by rw [← hstride]; rfl)
      obtain ⟨win, hwin, htop⟩ := hinv.tracks.le_top (hacc ▸ List.mem_cons_self) hrecent
      intro hsafe
      obtain ⟨s, hs, -, -, hle⟩ := hsafe.window _ win hwin
      have hlow := (hinv.tidy.proper s hs).counter_le
      rw [bodyCounter_shiftedBody, toNat_or_topBit] at htop
      omega
    · exact absurd (hg.admits_shifted h r _) (hrefused _ ho)

end World

open World

/-- With an ideal AEAD, a run stays safe exactly if no shifted copy of a receipt is handed over: every receipt is
accepted at most once, and no receipt window moves past the counters used. -/
theorem receipt_replay (A : Aead) {tx rx : TunnelKeys} (h : Peers tx rx) {calls : List WorldCall}
    (hideal : Along (World.step A) (Ideal A) (start tx rx) calls) :
    Along (World.step A) (fun w c => (w.step A c).1.Safe) (start tx rx) calls ↔
      Along (World.step A) (fun w c => ¬ w.Shifted A c) (start tx rx) calls := by
  apply Iff.symm
  apply along_congr (I := fun w => w.Inv ∧ w.Genuine) hideal
  · intro w c hw hid hc
    exact ⟨hw.1.step hid, hw.2.step hw.1 hid hc⟩
  · intro w c hw hid
    constructor
    · intro hc
      exact (hw.2.step hw.1 hid hc).safe (hw.1.step hid)
    · intro hsafe hc
      exact hw.2.not_safe_of_shifted hw.1 hid hc hsafe
  · exact ⟨inv_start h, genuine_start h.tx_built.unused⟩

/-- The call that hands over the sample receipt with the top bit of its counter field set. -/
def sampleShifted (epoch counter : UInt64) : WorldCall :=
  let r := sampleEncryption .receipt epoch counter
  .openReceipt r.keyId (r.shiftedBody sampleAead)

/-- The shifted copy of the first receipt: the receipt is accepted twice, the window moves, and the second receipt
is refused. -/
theorem receipt_accepted_twice :
    let peers := start (TunnelKeys.new 0 (sampleDh 7) true) (TunnelKeys.new 0 (sampleDh 7) false)
    let calls := [.sealReceipt 0 [2], .sealReceipt 0 [2], sampleOpenReceipt 0 1, sampleShifted 0 1]
    let w := (run (World.step sampleAead) peers calls).1
    Along (World.step sampleAead) (Ideal sampleAead) peers calls ∧
      sampleEncryption .receipt 0 1 ∈ w.tx.history ∧ sampleEncryption .receipt 0 2 ∈ w.tx.history ∧
      ¬ w.accepted.countP (fun a => a.Carries (sampleEncryption .receipt 0 1)) ≤ 1 ∧
      ¬ w.Safe ∧
      (w.step sampleAead (sampleOpenReceipt 0 2)).2 = some (.error .replay) := by
  intro peers calls w
  have hmem : sampleEncryption .receipt 0 1 ∈ w.tx.history := by decide +kernel
  have htwice : ¬ w.accepted.countP (fun a => a.Carries (sampleEncryption .receipt 0 1)) ≤ 1 := by decide +kernel
  exact ⟨by decide +kernel, hmem, by decide +kernel, htwice, fun hsafe => htwice (hsafe.once _ hmem rfl),
    by decide +kernel⟩

/-- Receipts out of order, repeated, and a shifted copy of a receipt of an epoch that is over. -/
theorem receipt_replay_sample :
    let peers := start (TunnelKeys.new 0 (sampleDh 7) true) (TunnelKeys.new 0 (sampleDh 7) false)
    let calls := [.sealReceipt 0 [2], .sealReceipt 0 [2], .seal 0 [1] [2], sampleOpenReceipt 0 2,
      sampleOpenReceipt 0 1, sampleOpenReceipt 0 2, .sealReceipt (hours 1) [2], .sealReceipt (hours 2) [2],
      sampleOpenReceipt 2 1, sampleShifted 0 1]
    Along (World.step sampleAead) (fun w c => (w.step sampleAead c).1.Safe) peers calls :=
  (receipt_replay sampleAead ⟨.new 0 (sampleDh 7) true, .new 0 (sampleDh 7) false, rfl⟩ (by decide +kernel)).mpr
    (by decide +kernel)

end IPv8Plus.Tunnel
