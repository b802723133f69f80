import IPv8Plus.Tunnel.Nonce

/-!
# The receiving side of a tunnel

What `open` and `open_receipt` do, in terms of the windows. Both the check for stale epochs and the pruning
compare an epoch with the epochs that have a window, and they agree: an epoch is `Recent` if no window is
more than one generation ahead of it. `openWith_opened` and `openWith_not_opened` are the specification of
the two calls.
-/

namespace IPv8Plus.Tunnel
open Lib

/-- The counter field of a frame body. -/
def bodyCounter (body : Bytes) : UInt64 := ofBe64 (body.take 8)

namespace TunnelKeys

variable {k : TunnelKeys} {kind : FrameKind} {keyId : KeyId} {body aad : Bytes} {epoch e : UInt64}

def HasWindow (k : TunnelKeys) (e : UInt64) : Prop := ∃ kind, e ∈ k.windows kind

/-- No window is more than one generation ahead. -/
def Recent (k : TunnelKeys) (e : UInt64) : Prop := ∀ e', k.HasWindow e' → e'.toNat ≤ e.toNat + k.stride.toNat

lemma hasWindow_iff : k.HasWindow e ↔ e ∈ k.rx ∨ e ∈ k.rxReceipt := by
  constructor
  · rintro ⟨kind, h⟩
    cases kind with
    | data => exact .inl h
    | receipt => exact .inr h
  · rintro (h | h)
    · exact ⟨.data, h⟩
    · exact ⟨.receipt, h⟩

/-- The last key of a map bounds the others. -/
lemma getLast?_keys_le {m : RxWindows} {b : UInt64} :
    (∀ a ∈ m.keys.getLast?.toList, a ≤ b) ↔ ∀ a ∈ m, a ≤ b := by
  rw [← Std.ExtTreeMap.maxKey?_eq_getLast?_keys]
  constructor
  · intro h a ha
    cases hmax : m.maxKey? with
    | none =>
      rw [Std.ExtTreeMap.maxKey?_eq_none_iff] at hmax
      rw [hmax] at ha
      exact absurd ha Std.ExtTreeMap.not_mem_empty
    | some top =>
      have htop := (Std.ExtTreeMap.maxKey?_eq_some_iff_mem_and_forall.mp hmax).2 a ha
      have hle : a ≤ top := (Std.LawfulOrderOrd.isLE_compare a top).mp htop
      exact UInt64.le_trans hle (h top (by rw [hmax]; exact List.mem_singleton_self _))
  · intro h a ha
    cases hmax : m.maxKey? with
    | none =>
      rw [hmax] at ha
      cases ha
    | some top =>
      rw [hmax] at ha
      rw [List.mem_singleton.mp ha]
      exact h top (Std.ExtTreeMap.maxKey?_eq_some_iff_mem_and_forall.mp hmax).1

/-- The newest epoch is the least bound of the epochs with a window and the given one. -/
lemma newestEpoch_le {b : UInt64} (hb : epoch ≤ b) :
    k.newestEpoch epoch ≤ b ↔ ∀ e, k.HasWindow e → e ≤ b := by
  have hlist : (∀ a ∈ k.rx.keys.getLast?.toList ++ k.rxReceipt.keys.getLast?.toList, a ≤ b) ↔
      ∀ e, k.HasWindow e → e ≤ b := by
    rw [List.forall_mem_append, getLast?_keys_le, getLast?_keys_le]
    simp only [hasWindow_iff, or_imp, forall_and]
  rw [newestEpoch, Std.LawfulOrderSup.max_le_iff, ← hlist]
  generalize k.rx.keys.getLast?.toList ++ k.rxReceipt.keys.getLast?.toList = l
  cases hmax : l.max? with
  | none =>
    rw [List.max?_eq_none_iff.mp hmax]
    exact ⟨fun _ => nofun, fun _ => ⟨hb, hb⟩⟩
  | some top =>
    obtain ⟨hmem, hall⟩ := List.max?_eq_some_iff.mp hmax
    exact ⟨fun h a ha => UInt64.le_trans (hall a ha) h.1, fun h => ⟨h top hmem, hb⟩⟩

/-- The check for stale epochs refuses exactly the epochs that are not recent. -/
lemma not_stale_iff :
    ¬ satAdd epoch (satMul graceEpochs k.stride) < k.newestEpoch epoch ↔ k.Recent epoch := by
  have hb : epoch ≤ satAdd epoch k.stride := by
    rw [← UInt64.not_lt, satAdd_lt]
    omega
  rw [graceEpochs, satMul_one, UInt64.not_lt, newestEpoch_le hb]
  apply forall_congr'
  intro e
  rw [← UInt64.not_lt, satAdd_lt, Nat.not_lt]

instance (k : TunnelKeys) (epoch : UInt64) : Decidable (k.Recent epoch) :=
  decidable_of_iff _ not_stale_iff

/-- What a shard has of its own, and no call of the receiving side changes. -/
def config (k : TunnelKeys) : Dh × Bool × CipherSuite × UInt64 × UInt64 :=
  (k.dh, k.isInitiator, k.suite, k.shard, k.stride)

@[simp] lemma config_prune : k.prune.config = k.config := by
  unfold prune
  split <;> rfl

@[simp] lemma stride_prune : k.prune.stride = k.stride := by
  unfold prune
  split <;> rfl

lemma mem_windows_iff : e ∈ k.windows kind ↔ ∃ w, (k.windows kind)[e]? = some w := by
  rw [Std.ExtTreeMap.mem_iff_isSome_getElem?, Option.isSome_iff_exists]

/-- Pruning goes by the newest epoch with a window. -/
lemma max?_keys_eq_some {n : UInt64} (h : (k.rx.keys ++ k.rxReceipt.keys).max? = some n) :
    k.HasWindow n ∧ ∀ e, k.HasWindow e → e ≤ n := by
  obtain ⟨hmem, hall⟩ := List.max?_eq_some_iff.mp h
  have hkeys : ∀ e, e ∈ k.rx.keys ++ k.rxReceipt.keys ↔ k.HasWindow e := by
    intro e
    rw [List.mem_append, Std.ExtTreeMap.mem_keys, Std.ExtTreeMap.mem_keys, hasWindow_iff]
  exact ⟨(hkeys n).mp hmem, fun e he => hall e ((hkeys e).mpr he)⟩

lemma max?_keys_eq_none (h : (k.rx.keys ++ k.rxReceipt.keys).max? = none) : ¬ k.HasWindow e := by
  rw [List.max?_eq_none_iff, List.append_eq_nil_iff] at h
  rw [hasWindow_iff, ← Std.ExtTreeMap.mem_keys, ← Std.ExtTreeMap.mem_keys, h.1, h.2]
  rintro (h | h) <;> cases h

/-- The floor of the pruning is below exactly the recent epochs. -/
lemma floor_le_iff {n : UInt64} (h : (k.rx.keys ++ k.rxReceipt.keys).max? = some n) :
    satSub n (satMul graceEpochs k.stride) ≤ e ↔ k.Recent e := by
  obtain ⟨hn, hall⟩ := max?_keys_eq_some h
  rw [graceEpochs, satMul_one, satSub_le]
  exact ⟨fun hle e' he' => (UInt64.le_iff_toNat_le.mp (hall e' he')).trans hle, fun hr => hr n hn⟩

/-- Pruning keeps the windows of recent epochs, as the check for stale epochs has it. -/
theorem windows_prune (kind : FrameKind) (e : UInt64) :
    (k.prune.windows kind)[e]? = if k.Recent e then (k.windows kind)[e]? else none := by
  unfold prune
  split
  · next hnone => exact (if_pos fun e' he' => absurd he' (max?_keys_eq_none hnone)).symm
  · next n hsome =>
    have hfilter : ∀ o : Option RxWindow, o.filter (fun _ => decide (k.Recent e)) = if k.Recent e then o else none := by
      rintro (_ | w)
      · exact (ite_self none).symm
      · rw [Option.filter_some]
        simp only [decide_eq_true_eq]
    cases kind with
    | data => simp only [windows, Std.ExtTreeMap.getElem?_filter', floor_le_iff hsome, hfilter]
    | receipt => simp only [windows, Std.ExtTreeMap.getElem?_filter', floor_le_iff hsome, hfilter]

/-- Pruning does not make an epoch recent: the newest window stays. -/
lemma recent_prune : k.prune.Recent e ↔ k.Recent e := by
  constructor
  · intro h
    cases hmax : (k.rx.keys ++ k.rxReceipt.keys).max? with
    | none => exact fun e' he' => absurd he' (max?_keys_eq_none hmax)
    | some n =>
      obtain ⟨⟨kind, hn⟩, hall⟩ := max?_keys_eq_some hmax
      have hrecent : k.Recent n := fun e' he' =>
        (UInt64.le_iff_toNat_le.mp (hall e' he')).trans (Nat.le_add_right _ _)
      obtain ⟨w, hw⟩ := mem_windows_iff.mp hn
      have hkept : k.prune.HasWindow n :=
        ⟨kind, mem_windows_iff.mpr ⟨w, by rw [windows_prune, if_pos hrecent, hw]⟩⟩
      have hle := h n hkept
      rw [stride_prune] at hle
      exact fun e' he' => (UInt64.le_iff_toNat_le.mp (hall e' he')).trans hle
  · rintro h e' ⟨kind, he'⟩
    obtain ⟨w, hw⟩ := mem_windows_iff.mp he'
    rw [windows_prune] at hw
    rw [stride_prune]
    split at hw
    · exact h e' ⟨kind, mem_windows_iff.mpr ⟨w, hw⟩⟩
    · cases hw

/-- Put a window in place. -/
def offer (k : TunnelKeys) (kind : FrameKind) (e : UInt64) (w : RxWindow) : TunnelKeys :=
  k.setWindows kind ((k.windows kind).insert e w)

@[simp] lemma config_offer {w : RxWindow} : (k.offer kind e w).config = k.config := by
  cases kind <;> rfl

lemma windows_offer {kind' : FrameKind} {e' : UInt64} {w : RxWindow} :
    ((k.offer kind e w).windows kind')[e']? =
      if kind' = kind ∧ e' = e then some w else (k.windows kind')[e']? := by
  have hinsert : ∀ m : RxWindows, (m.insert e w)[e']? = if e' = e then some w else m[e']? := by
    intro m
    rw [Std.ExtTreeMap.getElem?_insert]
    simp only [Std.compare_eq_iff_eq, eq_comm (a := e) (b := e')]
  cases kind <;> cases kind' <;> simp [offer, setWindows, windows, hinsert]

lemma hasWindow_offer {e' : UInt64} {w : RxWindow} :
    (k.offer kind e w).HasWindow e' ↔ k.HasWindow e' ∨ e' = e := by
  simp only [HasWindow, mem_windows_iff, windows_offer]
  constructor
  · rintro ⟨kind', w', hw'⟩
    split at hw'
    · next h => exact .inr h.2
    · exact .inl ⟨kind', w', hw'⟩
  · rintro (⟨kind', w', hw'⟩ | rfl)
    · by_cases h : kind' = kind ∧ e' = e
      · exact ⟨kind', w, if_pos h⟩
      · exact ⟨kind', w', by rw [if_neg h, hw']⟩
    · exact ⟨kind, w, if_pos ⟨rfl, rfl⟩⟩

lemma recent_offer {e' : UInt64} {w : RxWindow} :
    (k.offer kind e w).Recent e' ↔ k.Recent e' ∧ e.toNat ≤ e'.toNat + k.stride.toNat := by
  have hstride : (k.offer kind e w).stride = k.stride := by cases kind <;> rfl
  unfold Recent
  simp only [hasWindow_offer, hstride, or_imp, forall_and, forall_eq]

/-- Change the cached receive ciphers. -/
def cached (k : TunnelKeys) (m : Std.ExtTreeMap UInt64 Cipher) : TunnelKeys := { k with rxCiphers := m }

@[simp] lemma windows_cached {m : Std.ExtTreeMap UInt64 Cipher} : (k.cached m).windows kind = k.windows kind := by
  cases kind <;> rfl

lemma recent_cached {m : Std.ExtTreeMap UInt64 Cipher} : (k.cached m).Recent e ↔ k.Recent e := by
  simp only [Recent, HasWindow, windows_cached]
  rfl

/-- The cipher for received frames of an epoch. -/
def recvCipherFor (k : TunnelKeys) (e : UInt64) : Cipher := cipherFor k.dh k.suite e k.isInitiator false

/-- The cached receive ciphers are the right ones. -/
def RxCacheOk (k : TunnelKeys) : Prop := ∀ (e : UInt64) c, k.rxCiphers[e]? = some c → c = k.recvCipherFor e

lemma RxCacheOk.prune (h : k.RxCacheOk) : k.prune.RxCacheOk := by
  unfold TunnelKeys.prune
  split
  · exact h
  · intro e c hc
    rw [Std.ExtTreeMap.getElem?_filter', Option.filter_eq_some_iff] at hc
    exact h e c hc.1

lemma RxCacheOk.offer (h : k.RxCacheOk) (kind : FrameKind) (e : UInt64) (w : RxWindow) :
    (k.offer kind e w).RxCacheOk := by
  cases kind <;> exact h

/-- The checks of `open_cipher`. -/
def Passes (k : TunnelKeys) (keyId : KeyId) : Prop :=
  keyId.suiteByte = k.suite.byte ∧ keyEpoch keyId % k.stride = k.shard ∧ k.Recent (keyEpoch keyId)

instance (k : TunnelKeys) (keyId : KeyId) : Decidable (k.Passes keyId) := inferInstanceAs (Decidable (_ ∧ _))

/-- A KeyID that fails the checks is refused, and nothing changes. -/
lemma openCipher_refuses (h : ¬ k.Passes keyId) :
    ∃ x, k.openCipher keyId = (k, .error x) ∧ x ≠ .decryptFailed ∧ x ≠ .replay := by
  unfold openCipher
  split
  · exact ⟨_, rfl, nofun, nofun⟩
  next suite hsuite =>
  split
  · exact ⟨_, rfl, nofun, nofun⟩
  next hne =>
  dsimp only
  split
  · exact ⟨_, rfl, nofun, nofun⟩
  next hshard =>
  split
  · exact ⟨_, rfl, nofun, nofun⟩
  next hstale =>
  rw [not_not] at hne hshard
  exact absurd ⟨by rw [← CipherSuite.byte_of_fromByte hsuite, hne], hshard, not_stale_iff.mp hstale⟩ h

/-- The cached receive ciphers with that of an epoch. -/
def ciphersWith (k : TunnelKeys) (e : UInt64) : Std.ExtTreeMap UInt64 Cipher :=
  if e ∈ k.rxCiphers then k.rxCiphers else k.rxCiphers.insert e (k.recvCipherFor e)

lemma mem_ciphersWith {e' : UInt64} : e' ∈ k.ciphersWith e ↔ e' ∈ k.rxCiphers ∨ e' = e := by
  unfold ciphersWith
  split
  · next hmem =>
    constructor
    · exact .inl
    · rintro (h | rfl)
      · exact h
      · exact hmem
  · rw [Std.ExtTreeMap.mem_insert, Std.compare_eq_iff_eq, or_comm, eq_comm]

/-- A KeyID that passes the checks gets the receive cipher of its epoch. -/
lemma openCipher_passes (hc : k.RxCacheOk) (h : k.Passes keyId) :
    k.openCipher keyId =
        (k.cached (k.ciphersWith (keyEpoch keyId)), .ok (keyEpoch keyId, k.recvCipherFor (keyEpoch keyId))) ∧
      (k.cached (k.ciphersWith (keyEpoch keyId))).RxCacheOk := by
  obtain ⟨hsuite, hshard, hrecent⟩ := h
  unfold openCipher ciphersWith
  rw [hsuite, CipherSuite.fromByte_byte]
  dsimp only
  rw [if_neg (not_not_intro rfl), if_neg (not_not_intro hshard), if_neg (not_stale_iff.mpr hrecent)]
  split
  · next cipher hcached =>
    rw [if_pos (Std.ExtTreeMap.mem_iff_isSome_getElem?.mpr (by rw [hcached]; rfl))]
    refine ⟨?_, hc⟩
    rw [hc _ _ hcached]
    rfl
  · next hnone =>
    have hnot : keyEpoch keyId ∉ k.rxCiphers := by
      rw [Std.ExtTreeMap.mem_iff_isSome_getElem?, hnone]
      exact Bool.false_ne_true
    rw [if_neg hnot]
    refine ⟨rfl, ?_⟩
    intro e c he
    change (k.rxCiphers.insert _ _)[e]? = some c at he
    rw [Std.ExtTreeMap.getElem?_insert] at he
    split at he
    · next heq =>
      cases he
      rw [← Std.compare_eq_iff_eq.mp heq]
      rfl
    · exact hc e c he

variable (A : Aead)

/-- The frame gets past the checks before decryption. -/
def Reaches (k : TunnelKeys) (keyId : KeyId) (body : Bytes) : Prop := 8 ≤ body.length ∧ k.Passes keyId

instance (k : TunnelKeys) (keyId : KeyId) (body : Bytes) : Decidable (k.Reaches keyId body) :=
  inferInstanceAs (Decidable (_ ∧ _))

/-- The plaintext of a frame that passes the checks and decrypts; it may still be a replay. -/
def opened (k : TunnelKeys) (kind : FrameKind) (keyId : KeyId) (body aad : Bytes) : Option Bytes :=
  if 8 ≤ body.length ∧ k.Passes keyId then
    A.decrypt (k.recvCipherFor (keyEpoch keyId)) (kind.nonce (bodyCounter body)) aad (body.drop 8)
  else none

variable {A}

lemma reaches_of_opened {pt : Bytes} (h : k.opened A kind keyId body aad = some pt) : k.Reaches keyId body := by
  unfold opened at h
  split at h
  · next hp => exact hp
  · cases h

/-- A frame that fails the checks is refused, and nothing changes. -/
lemma openWith_not_reaches (h : ¬ k.Reaches keyId body) :
    ∃ x, k.openWith A kind keyId body aad = (k, .error x) ∧ x ≠ .decryptFailed ∧ x ≠ .replay := by
  unfold openWith
  by_cases hlen : body.length < 8
  · exact ⟨_, if_pos hlen, nofun, nofun⟩
  · rw [if_neg hlen]
    obtain ⟨x, e, hx⟩ := openCipher_refuses fun hp => h ⟨Nat.le_of_not_lt hlen, hp⟩
    simp only [e]
    exact ⟨x, rfl, hx⟩

/-- A frame that passes the checks and does not decrypt leaves the cipher of its epoch in the cache. -/
lemma openWith_forged (hc : k.RxCacheOk) (hr : k.Reaches keyId body) (h : k.opened A kind keyId body aad = none) :
    k.openWith A kind keyId body aad = (k.cached (k.ciphersWith (keyEpoch keyId)), .error .decryptFailed) := by
  unfold opened at h
  rw [if_pos ⟨hr.1, hr.2⟩, bodyCounter] at h
  unfold openWith
  rw [if_neg (Nat.not_lt.mpr hr.1)]
  simp only [(openCipher_passes hc hr.2).1, h]

/-- A frame that does not open is refused, and the windows stay. -/
theorem openWith_not_opened (hc : k.RxCacheOk) (h : k.opened A kind keyId body aad = none) :
    ∃ m x, k.openWith A kind keyId body aad = (k.cached m, .error x) ∧
      (k.cached m).RxCacheOk := by
  by_cases hr : k.Reaches keyId body
  · exact ⟨_, _, openWith_forged hc hr h, (openCipher_passes hc hr.2).2⟩
  · obtain ⟨x, e, -⟩ := openWith_not_reaches hr
    exact ⟨k.rxCiphers, x, e, hc⟩

/-- A frame that opens is offered to the window of its epoch. -/
theorem openWith_opened (hc : k.RxCacheOk) {pt : Bytes} (h : k.opened A kind keyId body aad = some pt) :
    let w := ((k.windows kind)[keyEpoch keyId]?.getD {}).accept (bodyCounter body)
    k.openWith A kind keyId body aad =
        (((k.cached (k.ciphersWith (keyEpoch keyId))).offer kind (keyEpoch keyId) w.1).prune,
          if w.2 then .ok pt else .error .replay) ∧
      (k.cached (k.ciphersWith (keyEpoch keyId))).RxCacheOk := by
  have hr := reaches_of_opened h
  obtain ⟨e, hm⟩ := openCipher_passes hc hr.2
  refine ⟨?_, hm⟩
  unfold opened at h
  rw [if_pos ⟨hr.1, hr.2⟩, bodyCounter] at h
  unfold openWith
  rw [if_neg (Nat.not_lt.mpr hr.1)]
  simp only [e, h]
  cases kind with
  | data =>
    split
    · next hacc => exact Prod.ext rfl (if_pos hacc).symm
    · next hacc => exact Prod.ext rfl (if_neg hacc).symm
  | receipt =>
    split
    · next hacc => exact Prod.ext rfl (if_pos hacc).symm
    · next hacc => exact Prod.ext rfl (if_neg hacc).symm

/-- No call of the receiving side changes the configuration. -/
lemma config_openWith (hc : k.RxCacheOk) : (k.openWith A kind keyId body aad).1.config = k.config := by
  cases ho : k.opened A kind keyId body aad with
  | none =>
    obtain ⟨m, x, e, -⟩ := openWith_not_opened hc ho
    rw [e]
    rfl
  | some pt =>
    obtain ⟨e, -⟩ := openWith_opened hc ho
    rw [e, config_prune, config_offer]
    rfl

lemma RxCacheOk.openWith (hc : k.RxCacheOk) : (k.openWith A kind keyId body aad).1.RxCacheOk := by
  cases ho : k.opened A kind keyId body aad with
  | none =>
    obtain ⟨m, x, e, hm⟩ := openWith_not_opened hc ho
    rw [e]
    exact hm
  | some pt =>
    obtain ⟨e, hm⟩ := openWith_opened hc ho
    rw [e]
    exact (hm.offer _ _ _).prune

end TunnelKeys

/-- A frame that was accepted: its kind, the epoch of its KeyID, its counter field. -/
structure Accepted where
  kind : FrameKind
  epoch : UInt64
  counter : UInt64
  deriving DecidableEq, Repr

/-- The counters accepted in an epoch. -/
def seen (acc : List Accepted) (kind : FrameKind) (e : UInt64) : Set Nat :=
  { n | ∃ a ∈ acc, a.kind = kind ∧ a.epoch = e ∧ a.counter.toNat = n }

lemma seen_cons_self (a : Accepted) (acc : List Accepted) :
    seen (a :: acc) a.kind a.epoch = insert a.counter.toNat (seen acc a.kind a.epoch) := by
  ext n
  constructor
  · rintro ⟨b, hb, hk, he, hn⟩
    rcases List.mem_cons.mp hb with rfl | hb
    · exact .inl hn.symm
    · exact .inr ⟨b, hb, hk, he, hn⟩
  · rintro (rfl | ⟨b, hb, h⟩)
    · exact ⟨a, List.mem_cons_self, rfl, rfl, rfl⟩
    · exact ⟨b, List.mem_cons_of_mem _ hb, h⟩

lemma seen_cons_of_ne {a : Accepted} {kind : FrameKind} {e : UInt64} (h : ¬ (kind = a.kind ∧ e = a.epoch))
    (acc : List Accepted) : seen (a :: acc) kind e = seen acc kind e := by
  ext n
  constructor
  · rintro ⟨b, hb, hk, he, hn⟩
    rcases List.mem_cons.mp hb with rfl | hb
    · exact absurd ⟨hk.symm, he.symm⟩ h
    · exact ⟨b, hb, hk, he, hn⟩
  · rintro ⟨b, hb, h⟩
    exact ⟨b, List.mem_cons_of_mem _ hb, h⟩

/-- The windows know what was accepted: a window holds the counters of its epoch, of which there is at least
one, and an accepted frame without a window is of an epoch that is not recent. -/
structure Tracks (k : TunnelKeys) (acc : List Accepted) : Prop where
  cache : k.RxCacheOk
  window : ∀ (kind : FrameKind) (e : UInt64) (w : RxWindow), (k.windows kind)[e]? = some w →
    w.Holds (seen acc kind e) ∧ (seen acc kind e).Nonempty
  pruned : ∀ a ∈ acc, a.epoch ∈ k.windows a.kind ∨ ¬ k.Recent a.epoch
  nodup : acc.Nodup

namespace Tracks

open TunnelKeys

variable {A : Aead} {k : TunnelKeys} {acc : List Accepted} {kind : FrameKind} {keyId : KeyId} {body aad : Bytes}
  {e : UInt64}

/-- Keys that have not been used have accepted nothing. -/
lemma start (h : k.Unused) : Tracks k [] where
  cache := by
    intro e c hc
    rw [h.rxCiphers, Std.ExtTreeMap.getElem?_empty] at hc
    cases hc
  window := by
    intro kind e w hw
    have hempty : k.windows kind = ∅ := by
      cases kind with
      | data => exact h.rx
      | receipt => exact h.rxReceipt
    rw [hempty, Std.ExtTreeMap.getElem?_empty] at hw
    cases hw
  pruned := nofun
  nodup := List.nodup_nil

/-- An epoch is recent exactly when no accepted frame is more than one generation ahead. -/
theorem recent_iff (h : Tracks k acc) :
    k.Recent e ↔ ∀ a ∈ acc, a.epoch.toNat ≤ e.toNat + k.stride.toNat := by
  constructor
  · intro hr a ha
    by_contra hlt
    rcases h.pruned a ha with hmem | hold
    · exact hlt (hr a.epoch ⟨a.kind, hmem⟩)
    · apply hold
      rintro e' he'
      have := hr e' he'
      omega
  · rintro hall e' ⟨kind, he'⟩
    obtain ⟨w, hw⟩ := mem_windows_iff.mp he'
    obtain ⟨n, a, ha, -, rfl, -⟩ := (h.window kind e' w hw).2
    exact hall a ha

/-- The window of a recent epoch, there or new, holds the counters of the epoch. -/
lemma holds (h : Tracks k acc) (kind : FrameKind) (hr : k.Recent e) : ((k.windows kind)[e]?.getD {}).Holds (seen acc kind e) := by
  cases hw : (k.windows kind)[e]? with
  | some w => exact (h.window kind e w hw).1
  | none =>
    have hempty : seen acc kind e = ∅ := by
      apply Set.eq_empty_of_forall_notMem
      rintro n ⟨a, ha, rfl, rfl, -⟩
      rcases h.pruned a ha with hmem | hold
      · obtain ⟨w, hw'⟩ := mem_windows_iff.mp hmem
        rw [hw] at hw'
        cases hw'
      · exact hold hr
    rw [hempty]
    exact RxWindow.holds_default

/-- An accepted frame of a recent epoch is not above the top of its window. -/
lemma le_top (h : Tracks k acc) {a : Accepted} (ha : a ∈ acc) (hr : k.Recent a.epoch) :
    ∃ w, (k.windows a.kind)[a.epoch]? = some w ∧ a.counter.toNat ≤ w.top.toNat := by
  rcases h.pruned a ha with hmem | hold
  · obtain ⟨w, hw⟩ := mem_windows_iff.mp hmem
    exact ⟨w, hw, (h.window _ _ w hw).1.le_top _ ⟨a, ha, rfl, rfl, rfl⟩⟩
  · exact absurd hr hold

/-- Only the cached ciphers changed. -/
lemma cached (h : Tracks k acc) {m : Std.ExtTreeMap UInt64 Cipher} (hm : (k.cached m).RxCacheOk) :
    Tracks (k.cached m) acc where
  cache := hm
  window := by
    intro kind e w hw
    rw [windows_cached] at hw
    exact h.window kind e w hw
  pruned := by
    intro a ha
    rw [windows_cached, recent_cached]
    exact h.pruned a ha
  nodup := h.nodup

/-- A window is put in place that holds the counters accepted by now, and old windows are pruned. -/
lemma offer (h : Tracks k acc) {acc' : List Accepted} {w : RxWindow}
    (hw : w.Holds (seen acc' kind e)) (hne : (seen acc' kind e).Nonempty) (hnodup : acc'.Nodup)
    (hother : ∀ kind' e', ¬ (kind' = kind ∧ e' = e) → seen acc' kind' e' = seen acc kind' e')
    (hmem : ∀ a ∈ acc', a ∈ acc ∨ a.kind = kind ∧ a.epoch = e) : Tracks (k.offer kind e w).prune acc' where
  cache := (h.cache.offer kind e w).prune
  window := by
    intro kind' e' w' hw'
    rw [windows_prune, windows_offer] at hw'
    split at hw'
    · split at hw'
      · next heq =>
        cases hw'
        rw [heq.1, heq.2]
        exact ⟨hw, hne⟩
      · next heq =>
        rw [hother kind' e' heq]
        exact h.window kind' e' w' hw'
    · cases hw'
  pruned := by
    have hkept : ∀ (kind' : FrameKind) (e' : UInt64), e' ∈ k.windows kind' ∨ kind' = kind ∧ e' = e →
        e' ∈ (k.offer kind e w).prune.windows kind' ∨ ¬ (k.offer kind e w).prune.Recent e' := by
      intro kind' e' hhas
      by_cases hrec : (k.offer kind e w).Recent e'
      · refine .inl (mem_windows_iff.mpr ?_)
        rw [windows_prune, if_pos hrec, windows_offer]
        split
        · exact ⟨w, rfl⟩
        · next heq =>
          rcases hhas with hhas | hhas
          · exact mem_windows_iff.mp hhas
          · exact absurd hhas heq
      · exact .inr fun hrec' => hrec (recent_prune.mp hrec')
    intro a ha
    rcases hmem a ha with ha | heq
    · rcases h.pruned a ha with hwin | hold
      · exact hkept _ _ (.inl hwin)
      · exact .inr fun hrec => hold (recent_offer.mp (recent_prune.mp hrec)).1
    · exact hkept _ _ (.inr heq)
  nodup := hnodup

/-- A frame that does not open is refused. -/
theorem not_opened (h : Tracks k acc) (ho : k.opened A kind keyId body aad = none) :
    ∃ x, (k.openWith A kind keyId body aad).2 = .error x ∧ Tracks (k.openWith A kind keyId body aad).1 acc := by
  obtain ⟨m, x, e, hm⟩ := openWith_not_opened h.cache ho
  rw [e]
  exact ⟨x, rfl, h.cached hm⟩

/-- A frame that opens is accepted exactly by the sliding window policy of its epoch. -/
theorem opened (h : Tracks k acc) {pt : Bytes} (ho : k.opened A kind keyId body aad = some pt)
    (hc : bodyCounter body ≠ 0) :
    (Admits 127 (seen acc kind (keyEpoch keyId)) (bodyCounter body).toNat ∧
        (k.openWith A kind keyId body aad).2 = .ok pt ∧
        Tracks (k.openWith A kind keyId body aad).1 (⟨kind, keyEpoch keyId, bodyCounter body⟩ :: acc)) ∨
      (¬ Admits 127 (seen acc kind (keyEpoch keyId)) (bodyCounter body).toNat ∧
        (k.openWith A kind keyId body aad).2 = .error .replay ∧
        Tracks (k.openWith A kind keyId body aad).1 acc) := by
  have hrecent : k.Recent (keyEpoch keyId) := (reaches_of_opened ho).2.2.2
  obtain ⟨e, hm⟩ := openWith_opened h.cache ho
  have hcached := h.cached hm
  have hholds := h.holds kind hrecent
  rw [e]
  rcases RxWindow.accept_spec hholds hc with ⟨hadm, hacc, hw⟩ | ⟨hadm, hacc, hw⟩
  · rw [hacc]
    refine .inl ⟨hadm, rfl, ?_⟩
    have hself := seen_cons_self ⟨kind, keyEpoch keyId, bodyCounter body⟩ acc
    refine hcached.offer (hself ▸ hw) (hself ▸ Set.insert_nonempty _ _) ?_
      (fun kind' e' hne => seen_cons_of_ne hne acc) ?_
    · exact List.nodup_cons.mpr ⟨fun hmem => hadm.1 ⟨_, hmem, rfl, rfl, rfl⟩, h.nodup⟩
    · intro a ha
      rcases List.mem_cons.mp ha with rfl | ha
      · exact .inr ⟨rfl, rfl⟩
      · exact .inl ha
  · rw [hacc, hw]
    refine .inr ⟨hadm, rfl, ?_⟩
    refine hcached.offer hholds ?_ h.nodup (fun _ _ _ => rfl) fun a ha => .inl ha
    -- a window that refuses is not empty
    by_contra hempty
    apply hadm
    rw [Set.not_nonempty_iff_eq_empty.mp hempty]
    exact ⟨nofun, nofun⟩

end Tracks

end IPv8Plus.Tunnel
