import IPv8Plus.Tunnel.CipherCache

/-!
# When the suite is fixed

`set_suite` takes keys for unused that stand at their first epoch, have counted no data frame and have no window for one.
Receipt frames show in none of the three, and a receipt of a later epoch can take the windows of the data frames away. The
suite is fixed by the first frame exactly in the runs in which the three always tell whether there was one.
-/

namespace IPv8Plus.Tunnel
open Lib

namespace TunnelKeys

/-- What `set_suite` looks at. -/
def LooksFresh (k : TunnelKeys) : Prop := k.sendEpoch = k.shard ∧ k.txCounter = 0 ∧ k.rx.isEmpty = true

instance (k : TunnelKeys) : Decidable k.LooksFresh := inferInstanceAs (Decidable (_ ∧ _))

/-- Something shows that the keys were used even when a window of this epoch is added: the send side, or a data window
that is not older than one generation. -/
def Shows (k : TunnelKeys) (epoch : UInt64) : Prop :=
  k.sendEpoch ≠ k.shard ∨ k.txCounter ≠ 0 ∨
    ∃ e ∈ k.rx, k.Recent e ∧ epoch.toNat ≤ e.toNat + k.stride.toNat

instance (k : TunnelKeys) (epoch : UInt64) : Decidable (k.Shows epoch) :=
  decidable_of_iff (k.sendEpoch ≠ k.shard ∨ k.txCounter ≠ 0 ∨
    ∃ e ∈ k.rx.keys, k.Recent e ∧ epoch.toNat ≤ e.toNat + k.stride.toNat)
    (by simp only [Shows, Std.ExtTreeMap.mem_keys])

/-- The window of its epoch takes the counter of a frame. -/
def takes (k : TunnelKeys) (kind : FrameKind) (keyId : KeyId) (body : Bytes) : Bool :=
  (((k.windows kind)[keyEpoch keyId]?.getD {}).accept (bodyCounter body)).2

/-- All calls that change the keys. -/
inductive AnyCall where
  | «seal» (now : Nat) (aad plaintext : Bytes)
  | sealReceipt (now : Nat) (plaintext : Bytes)
  | «open» (keyId : KeyId) (body aad : Bytes)
  | openReceipt (keyId : KeyId) (body : Bytes)
  | rekey (now : Nat) (newDh : Dh)
  | setSuite (suite : CipherSuite)

end TunnelKeys

open TunnelKeys

/-- The keys, and whether a frame was sealed or accepted under them. -/
structure Usage where
  keys : TunnelKeys
  used : Bool

/-- The frame was accepted. -/
def accepted : Except FrameError Bytes → Bool
  | .ok _ => true
  | .error _ => false

namespace Usage

variable (A : Aead)

def step (s : Usage) : AnyCall → Usage × Unit
  | .seal now aad plaintext => (⟨(s.keys.seal A now aad plaintext).1, true⟩, ())
  | .sealReceipt now plaintext => (⟨(s.keys.sealReceipt A now plaintext).1, true⟩, ())
  | .open keyId body aad =>
    (⟨(s.keys.open A keyId body aad).1, s.used || accepted (s.keys.open A keyId body aad).2⟩, ())
  | .openReceipt keyId body =>
    (⟨(s.keys.openReceipt A keyId body).1, s.used || accepted (s.keys.openReceipt A keyId body).2⟩, ())
  | .rekey now newDh => (⟨s.keys.rekey now newDh, s.used⟩, ())
  | .setSuite suite => (⟨(s.keys.setSuite suite).1, s.used⟩, ())

/-- What a change of the suite does here: nothing once the keys were used, and before it is made. -/
def Fixed (s : Usage) : Prop :=
  ∀ suite, if s.used then s.keys.setSuite suite = (s.keys, false) else (s.keys.setSuite suite).2 = true

/-- The call leaves it visible whether the keys were used. A receipt is sealed or accepted only where something else shows
the use, a frame that authenticates is refused only by keys that do not look fresh, and keys that look fresh are not
rekeyed. -/
def Visible (s : Usage) : AnyCall → Prop
  | .seal _ _ _ => True
  | .sealReceipt now _ => ¬ (s.keys.rotateIfDue now).LooksFresh
  | .open keyId body aad =>
    (s.keys.opened A .data keyId body aad).isSome → s.keys.takes .data keyId body = true ∨ ¬ s.keys.LooksFresh
  | .openReceipt keyId body =>
    (s.keys.opened A .receipt keyId body []).isSome →
      s.keys.Shows (keyEpoch keyId) ∨ s.keys.takes .receipt keyId body = false ∧ s.keys.LooksFresh
  | .rekey _ _ => ¬ s.keys.LooksFresh ∧ s.keys.sendEpoch + s.keys.stride ≠ s.keys.shard
  | .setSuite _ => True

instance (s : Usage) (c : AnyCall) : Decidable (s.Visible A c) := by
  cases c <;> unfold Visible <;> infer_instance

end Usage

/-! ## What shows -/

namespace TunnelKeys

section
variable {k : TunnelKeys} {kind : FrameKind} {keyId : KeyId} {body aad : Bytes} {now : Nat} {e : UInt64}

lemma looksFresh_iff : k.LooksFresh ↔ k.sendEpoch = k.shard ∧ k.txCounter = 0 ∧ ∀ e, e ∉ k.windows .data := by
  unfold LooksFresh
  rw [Std.ExtTreeMap.isEmpty_iff, Std.ExtTreeMap.eq_empty_iff_forall_not_mem]
  rfl

/-- `set_suite` refuses exactly the keys that do not look fresh. -/
lemma setSuite_eq (k : TunnelKeys) (suite : CipherSuite) : k.setSuite suite =
    if k.LooksFresh then ({ k with suite, sendCipher := none, rxCiphers := ∅ }, true) else (k, false) := by
  unfold setSuite LooksFresh
  split
  · next h => exact (if_neg fun h' => by rcases h with h | h | h; exacts [h h'.1, h h'.2.1, h h'.2.2]).symm
  · next h =>
    rw [not_or, not_or, not_not, not_not, not_not] at h
    exact (if_pos h).symm

/-- The send side. -/
def sendState (k : TunnelKeys) : UInt64 × Nat × UInt64 × UInt64 × Option (UInt64 × Cipher) × List Encryption :=
  (k.sendEpoch, k.epochBytes, k.txCounter, k.txReceiptCounter, k.sendCipher, k.history)

lemma sendState_prune : k.prune.sendState = k.sendState := by
  unfold prune
  split
  · rfl
  · rfl

lemma sendState_offer {w : RxWindow} : (k.offer kind e w).sendState = k.sendState := by
  cases kind with
  | data => rfl
  | receipt => rfl

/-- Receiving does not touch the send side. -/
lemma sendState_openWith {A : Aead} (hc : k.RxCacheOk) : (k.openWith A kind keyId body aad).1.sendState = k.sendState := by
  cases ho : k.opened A kind keyId body aad with
  | none =>
    obtain ⟨m, x, e, -⟩ := openWith_not_opened hc ho
    rw [e]
    rfl
  | some pt =>
    obtain ⟨e, -⟩ := openWith_opened hc ho
    rw [e, sendState_prune, sendState_offer]
    rfl

lemma Tidy.congr {k' : TunnelKeys} (h : k.Tidy) (hconfig : k'.config = k.config) (hsend : k'.sendState = k.sendState) :
    k'.Tidy := by
  obtain ⟨dh, i, suite, epoch, created, bytes, tx, txr, shard, stride, rx, rxr, cipher, ciphers, history⟩ := k
  obtain ⟨dh', i', suite', epoch', created', bytes', tx', txr', shard', stride', rx', rxr', cipher', ciphers', history'⟩ := k'
  cases hconfig
  cases hsend
  exact ⟨h.cache, h.budget, h.spent, h.proper⟩

/-- What `openWith` answers. -/
lemma accepted_openWith {A : Aead} (hc : k.RxCacheOk) : accepted (k.openWith A kind keyId body aad).2 =
    ((k.opened A kind keyId body aad).isSome && k.takes kind keyId body) := by
  cases ho : k.opened A kind keyId body aad with
  | none =>
    obtain ⟨m, x, e, -⟩ := openWith_not_opened hc ho
    rw [e]
    rfl
  | some pt =>
    obtain ⟨e, -⟩ := openWith_opened hc ho
    rw [e, Option.isSome_some, Bool.true_and]
    unfold takes
    cases ((k.windows kind)[keyEpoch keyId]?.getD {}).accept (bodyCounter body) with
    | mk w b =>
      cases b with
      | true => rfl
      | false => rfl

/-- The data windows once a frame has opened. -/
lemma mem_windows_openWith {A : Aead} (hc : k.RxCacheOk) {pt : Bytes} (ho : k.opened A kind keyId body aad = some pt) :
    e ∈ (k.openWith A kind keyId body aad).1.windows .data ↔
      (e ∈ k.windows .data ∨ kind = .data ∧ e = keyEpoch keyId) ∧
        k.Recent e ∧ (keyEpoch keyId).toNat ≤ e.toNat + k.stride.toNat := by
  obtain ⟨heq, -⟩ := openWith_opened hc ho
  have hrecent : ((k.cached (k.ciphersWith (keyEpoch keyId))).offer kind (keyEpoch keyId)
      (((k.windows kind)[keyEpoch keyId]?.getD {}).accept (bodyCounter body)).1).Recent e ↔
        k.Recent e ∧ (keyEpoch keyId).toNat ≤ e.toNat + k.stride.toNat :=
    recent_offer.trans (and_congr_left' recent_cached)
  rw [heq, mem_windows_iff, mem_windows_iff, windows_prune]
  split
  · next hr =>
    rw [and_iff_left (hrecent.mp hr), windows_offer, windows_cached]
    by_cases hnew : FrameKind.data = kind ∧ e = keyEpoch keyId
    · rw [if_pos hnew]
      exact iff_of_true ⟨_, rfl⟩ (.inr ⟨hnew.1.symm, hnew.2⟩)
    · rw [if_neg hnew]
      exact ⟨.inl, fun h => h.resolve_right fun h' => hnew ⟨h'.1.symm, h'.2⟩⟩
  · next hr =>
    apply iff_of_false
    · rintro ⟨_, h⟩
      cases h
    · exact fun h => hr (hrecent.mpr h.2)

end

/-! ## Fresh keys after a call -/

section
variable {k : TunnelKeys} {A : Aead} {kind : FrameKind} {keyId : KeyId} {body aad plaintext pt : Bytes} {now : Nat}

/-- What a frame leaves of the look of fresh keys depends on the data windows alone. -/
lemma looksFresh_openWith (hc : k.RxCacheOk) : (k.openWith A kind keyId body aad).1.LooksFresh ↔
    k.sendEpoch = k.shard ∧ k.txCounter = 0 ∧ ∀ e, e ∉ (k.openWith A kind keyId body aad).1.windows .data := by
  have hconfig : (k.openWith A kind keyId body aad).1.config = k.config := config_openWith hc
  have hsend : (k.openWith A kind keyId body aad).1.sendState = k.sendState := sendState_openWith hc
  simp only [config, sendState, Prod.mk.injEq] at hconfig hsend
  rw [looksFresh_iff, hconfig.2.2.2.1, hsend.1, hsend.2.2.1]

lemma looksFresh_not_opened (hc : k.RxCacheOk) (ho : k.opened A kind keyId body aad = none) :
    (k.openWith A kind keyId body aad).1.LooksFresh ↔ k.LooksFresh := by
  obtain ⟨m, x, e, -⟩ := openWith_not_opened hc ho
  rw [e]
  rfl

/-- A data frame that opens leaves the window of its epoch. -/
lemma not_looksFresh_data (hc : k.RxCacheOk) (ho : k.opened A .data keyId body aad = some pt) :
    ¬ (k.openWith A .data keyId body aad).1.LooksFresh := by
  rw [looksFresh_openWith hc]
  rintro ⟨-, -, hnone⟩
  apply hnone (keyEpoch keyId)
  rw [mem_windows_openWith hc ho]
  exact ⟨.inr ⟨rfl, rfl⟩, (reaches_of_opened ho).2.2.2, Nat.le_add_right _ _⟩

/-- A receipt that opens leaves only what shows anyway. -/
lemma not_looksFresh_receipt (hc : k.RxCacheOk) (ho : k.opened A .receipt keyId body aad = some pt) :
    ¬ (k.openWith A .receipt keyId body aad).1.LooksFresh ↔ k.Shows (keyEpoch keyId) := by
  have hwin : ∀ e, e ∈ (k.openWith A .receipt keyId body aad).1.windows .data ↔
      e ∈ k.rx ∧ k.Recent e ∧ (keyEpoch keyId).toNat ≤ e.toNat + k.stride.toNat := by
    intro e
    rw [mem_windows_openWith hc ho]
    exact and_congr_left' (or_iff_left fun h => nomatch h.1)
  rw [looksFresh_openWith hc, not_and_or, not_and_or, not_forall]
  simp only [not_not, hwin]
  rfl

lemma Shows.not_looksFresh {epoch : UInt64} (h : k.Shows epoch) : ¬ k.LooksFresh := by
  rw [looksFresh_iff]
  rintro ⟨hepoch, htx, hnone⟩
  rcases h with h | h | ⟨e, he, -⟩
  · exact h hepoch
  · exact h htx
  · exact hnone e he

/-- A sealed data frame is counted, a receipt is not. -/
lemma looksFresh_sealWith (h : k.Tidy) : (k.sealWith A kind now aad plaintext).1.LooksFresh ↔
    kind = .receipt ∧ (k.rotateIfDue now).LooksFresh := by
  rw [sealWith_eq A _ _ _ _ h.cache]
  have htidy : (k.rotateIfDue now).Tidy := h.rotateIfDue
  generalize k.rotateIfDue now = k' at htidy
  cases kind with
  | data =>
    have hsucc := htidy.toNat_tx_succ .data
    apply iff_of_false
    · rintro ⟨-, hzero, -⟩
      have hzero : k'.txCounter + 1 = 0 := hzero
      have hnat : (k'.txCounter + 1).toNat = k'.txCounter.toNat + 1 := hsucc
      rw [hzero] at hnat
      exact absurd hnat (Nat.succ_ne_zero _).symm
    · exact fun h => nomatch h.1
  | receipt => exact (and_iff_right rfl).symm

end

end TunnelKeys

/-! ## One call -/

namespace Usage

variable {A : Aead} {s : Usage}

/-- The look of the keys tells whether they were used. -/
def Honest (s : Usage) : Prop := s.used = true ↔ ¬ s.keys.LooksFresh

lemma fixed_iff : s.Fixed ↔ s.Honest := by
  unfold Fixed Honest
  simp only [setSuite_eq]
  cases s.used with
  | true =>
    simp only [if_true, true_iff]
    constructor
    · intro h hfresh
      have hfix := h .aes256Gcm
      rw [if_pos hfresh] at hfix
      have hset : true = false := congrArg Prod.snd hfix
      cases hset
    · exact fun h _ => if_neg h
  | false =>
    simp only [Bool.false_eq_true, if_false, false_iff, not_not]
    constructor
    · intro h
      by_contra hfresh
      have hset := h .aes256Gcm
      rw [if_neg hfresh] at hset
      cases hset
    · intro h _
      rw [if_pos h]

/-- What every call keeps. -/
structure Sane (s : Usage) : Prop where
  tidy : s.keys.Tidy
  cacheOk : s.keys.RxCacheOk
  stride : s.keys.stride ≠ 0

lemma Sane.sealWith (h : s.Sane) {kind : FrameKind} {now : Nat} {aad plaintext : Bytes} {used : Bool} :
    Sane ⟨(s.keys.sealWith A kind now aad plaintext).1, used⟩ where
  tidy := sealWith_tidy A h.tidy
  cacheOk := by
    rw [sealWith_eq A _ _ _ _ h.tidy.cache]
    intro e c hc
    have hrx : ((s.keys.rotateIfDue now).record ((s.keys.rotateIfDue now).encryption kind aad plaintext)).rxCiphers =
        s.keys.rxCiphers := by
      rcases s.keys.rotateIfDue_cases now with ⟨-, e⟩ | ⟨-, e⟩
      · rw [e]
        cases kind with
        | data => rfl
        | receipt => rfl
      · rw [e]
        cases kind with
        | data => rfl
        | receipt => rfl
    rw [show _ = s.keys.rxCiphers from hrx] at hc
    rw [h.cacheOk e c hc]
    simp only [recvCipherFor, record_dh, record_suite, record_isInitiator, rotateIfDue_dh, rotateIfDue_suite,
      rotateIfDue_isInitiator]
  stride := by
    rw [sealWith_eq A _ _ _ _ h.tidy.cache]
    simp only [record_stride, rotateIfDue_stride]
    exact h.stride

lemma Sane.openWith (h : s.Sane) {kind : FrameKind} {keyId : KeyId} {body aad : Bytes} {used : Bool} :
    Sane ⟨(s.keys.openWith A kind keyId body aad).1, used⟩ where
  tidy := h.tidy.congr (config_openWith h.cacheOk) (sendState_openWith h.cacheOk)
  cacheOk := h.cacheOk.openWith
  stride := by
    have hconfig : (s.keys.openWith A kind keyId body aad).1.config = s.keys.config := config_openWith h.cacheOk
    simp only [config, Prod.mk.injEq] at hconfig
    show _ ≠ _
    rw [hconfig.2.2.2.2]
    exact h.stride

lemma Sane.step (h : s.Sane) (c : AnyCall) : (s.step A c).1.Sane := by
  cases c with
  | «seal» now aad plaintext => exact h.sealWith
  | sealReceipt now plaintext => exact h.sealWith
  | «open» keyId body aad => exact h.openWith
  | openReceipt keyId body => exact h.openWith
  | rekey now newDh => exact ⟨.of_reset rfl rfl rfl h.tidy.proper, (s.keys.rekey_silent now newDh).cacheOk, h.stride⟩
  | setSuite suite =>
    rcases s.keys.setSuite_cases suite with e | e
    · simp only [Usage.step, e]
      exact h
    · simp only [Usage.step, e]
      refine ⟨⟨nofun, h.tidy.budget, h.tidy.spent, h.tidy.proper⟩, ?_, h.stride⟩
      intro e c hc
      rw [Std.ExtTreeMap.getElem?_empty] at hc
      cases hc

/-- The keys of this state tell whether they were used after a call exactly if the call leaves it visible. -/
theorem honest_step_iff (hs : s.Sane) (h : s.Honest) (c : AnyCall) : (s.step A c).1.Honest ↔ s.Visible A c := by
  unfold Honest at h
  cases c with
  | «seal» now aad plaintext =>
    refine iff_of_true (iff_of_true rfl fun hfresh => ?_) trivial
    exact nomatch ((looksFresh_sealWith hs.tidy).mp hfresh).1
  | sealReceipt now plaintext =>
    show (true = true ↔ ¬ (s.keys.sealWith A .receipt now [] plaintext).1.LooksFresh) ↔ ¬ (s.keys.rotateIfDue now).LooksFresh
    rw [looksFresh_sealWith hs.tidy, eq_self, true_iff, and_iff_right rfl]
  | «open» keyId body aad =>
    show ((s.used || accepted (s.keys.openWith A .data keyId body aad).2) = true ↔
      ¬ (s.keys.openWith A .data keyId body aad).1.LooksFresh) ↔
        ((s.keys.opened A .data keyId body aad).isSome → s.keys.takes .data keyId body = true ∨ ¬ s.keys.LooksFresh)
    rw [accepted_openWith hs.cacheOk, Bool.or_eq_true, h]
    cases ho : s.keys.opened A .data keyId body aad with
    | none =>
      rw [looksFresh_not_opened hs.cacheOk ho]
      exact iff_of_true (or_iff_left Bool.false_ne_true) fun hsome => absurd hsome Bool.false_ne_true
    | some pt =>
      rw [iff_true_right (not_looksFresh_data hs.cacheOk ho), Option.isSome_some, Bool.true_and, or_comm]
      exact ⟨fun hseen _ => hseen, fun hseen => hseen rfl⟩
  | openReceipt keyId body =>
    show ((s.used || accepted (s.keys.openWith A .receipt keyId body []).2) = true ↔
      ¬ (s.keys.openWith A .receipt keyId body []).1.LooksFresh) ↔
        ((s.keys.opened A .receipt keyId body []).isSome →
          s.keys.Shows (keyEpoch keyId) ∨ s.keys.takes .receipt keyId body = false ∧ s.keys.LooksFresh)
    rw [accepted_openWith hs.cacheOk, Bool.or_eq_true, h]
    cases ho : s.keys.opened A .receipt keyId body [] with
    | none =>
      rw [looksFresh_not_opened hs.cacheOk ho]
      exact iff_of_true (or_iff_left Bool.false_ne_true) fun hsome => absurd hsome Bool.false_ne_true
    | some pt =>
      rw [not_looksFresh_receipt hs.cacheOk ho, Option.isSome_some, Bool.true_and]
      have hshows : s.keys.Shows (keyEpoch keyId) → ¬ s.keys.LooksFresh := Shows.not_looksFresh
      constructor
      · intro hiff _
        by_cases hsh : s.keys.Shows (keyEpoch keyId)
        · exact .inl hsh
        · have hnone := mt hiff.mp hsh
          rw [not_or, not_not, Bool.not_eq_true] at hnone
          exact .inr ⟨hnone.2, hnone.1⟩
      · intro hcases
        rcases hcases rfl with hsh | ⟨hrefused, hfresh⟩
        · exact iff_of_true (.inl (hshows hsh)) hsh
        · refine iff_of_false ?_ fun hsh => hshows hsh hfresh
          rintro (hused | htaken)
          · exact hused hfresh
          · rw [hrefused] at htaken
            cases htaken
  | rekey now newDh =>
    have hfresh : (s.keys.rekey now newDh).LooksFresh ↔ s.keys.sendEpoch + s.keys.stride = s.keys.shard :=
      and_iff_left ⟨rfl, rfl⟩
    show (s.used = true ↔ ¬ (s.keys.rekey now newDh).LooksFresh) ↔ _
    rw [h, hfresh]
    constructor
    · intro hiff
      have hused : ¬ s.keys.LooksFresh := by
        -- the epoch of keys that look fresh goes up by the stride
        intro hlooks
        have hback := not_not.mp fun hne => hiff.mpr hne hlooks
        rw [← hlooks.1] at hback
        exact hs.stride (add_eq_left.mp hback)
      exact ⟨hused, hiff.mp hused⟩
    · rintro ⟨hused, hnext⟩
      exact iff_of_true hused hnext
  | setSuite suite =>
    refine iff_of_true ?_ trivial
    show s.used = true ↔ ¬ (s.keys.setSuite suite).1.LooksFresh
    rw [h, setSuite_eq]
    split
    · next hfresh => exact not_congr (iff_of_true hfresh hfresh)
    · exact Iff.rfl

end Usage

open Usage

/-- In a run from new keys, `set_suite` takes the keys exactly until the first frame is sealed or accepted, in every state
that is reached, if and only if every call leaves it visible whether the keys were used. -/
theorem suite_fixed_iff (A : Aead) {k : TunnelKeys} (hk : k.Built) (calls : List AnyCall) :
    (∀ pre, pre <+: calls → (run (Usage.step A) ⟨k, false⟩ pre).1.Fixed) ↔
      Along (Usage.step A) (Visible A) ⟨k, false⟩ calls := by
  have hfresh : k.LooksFresh := by
    rw [looksFresh_iff]
    refine ⟨hk.unused.sendEpoch, hk.unused.txCounter, fun e he => ?_⟩
    rw [show k.windows .data = ∅ from hk.unused.rx] at he
    exact Std.ExtTreeMap.not_mem_empty he
  have hstart : Usage.Honest ⟨k, false⟩ := iff_of_false nofun (not_not_intro hfresh)
  have hsane : Usage.Sane ⟨k, false⟩ :=
    ⟨hk.unused.tidy, hk.silent.cacheOk, fun h => Nat.not_lt_zero _ (h ▸ UInt64.lt_iff_toNat_lt.mp hk.unused.shard_lt)⟩
  simp only [fixed_iff]
  rw [forall_prefix_iff, and_iff_right hstart]
  apply along_congr (I := fun s => s.Sane ∧ s.Honest) (D := fun _ _ => True) (along_of_forall fun _ _ => trivial)
  · exact fun s c hs _ hnext => ⟨hs.1.step c, hnext⟩
  · exact fun s c hs _ => honest_step_iff hs.1 hs.2 c
  · exact ⟨hsane, hstart⟩

/-- The suite changes after a receipt was sealed. -/
theorem suite_changed_after_receipt :
    ¬ (run (Usage.step sampleAead) ⟨TunnelKeys.new 0 (sampleDh 7) true, false⟩ [.sealReceipt 1 [2]]).1.Fixed := by
  intro h
  have hset := congrArg Prod.snd (h .aes256Gcm)
  revert hset
  decide +kernel

/-- Data frames and receipts, a rotation, a rekey and attempts to change the suite. -/
theorem suite_fixed_iff_sample :
    let calls := [.setSuite .aes256Gcm, .seal (hours 0) [1] [1], .sealReceipt (hours 0) [2], .seal (hours 1) [3] [3],
      .setSuite .aes256Gcm, .rekey (hours 1) (sampleDh 8)]
    (run (Usage.step sampleAead) ⟨TunnelKeys.new 0 (sampleDh 7) true, false⟩ calls).2.length = 6 ∧
      ∀ pre, pre <+: calls → (run (Usage.step sampleAead) ⟨TunnelKeys.new 0 (sampleDh 7) true, false⟩ pre).1.Fixed :=
  ⟨length_run _ _ _, (suite_fixed_iff sampleAead (.new 0 (sampleDh 7) true) _).mpr (by decide +kernel)⟩

end IPv8Plus.Tunnel
