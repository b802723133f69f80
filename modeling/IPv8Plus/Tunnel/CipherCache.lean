import IPv8Plus.Tunnel.Replay

/-!
# The cache of receive ciphers

`open_cipher` caches the receive cipher of an epoch before the frame is authenticated, and pruning comes only
after an authentic frame, and only from below. So the cache follows the epochs that authenticated exactly as
long as no forged frame names an epoch that is not cached yet (`NewForgery`).
-/

namespace IPv8Plus.Tunnel
open Lib TunnelKeys

namespace TunnelKeys

variable {k : TunnelKeys} {e : UInt64}

/-- Keys that have received nothing yet: as built, derived for a shard, or rekeyed. -/
structure Silent (k : TunnelKeys) : Prop where
  rx : k.rx = ∅
  rxReceipt : k.rxReceipt = ∅
  rxCiphers : k.rxCiphers = ∅

lemma Built.silent (h : k.Built) : k.Silent := ⟨h.unused.rx, h.unused.rxReceipt, h.unused.rxCiphers⟩

lemma rekey_silent (k : TunnelKeys) (now : Nat) (newDh : Dh) : (k.rekey now newDh).Silent := ⟨rfl, rfl, rfl⟩

lemma Silent.not_hasWindow (h : k.Silent) : ¬ k.HasWindow e := by
  rw [hasWindow_iff, h.rx, h.rxReceipt]
  rintro (he | he)
  · exact Std.ExtTreeMap.not_mem_empty he
  · exact Std.ExtTreeMap.not_mem_empty he

lemma Silent.cacheOk (h : k.Silent) : k.RxCacheOk := by
  intro e c hc
  rw [h.rxCiphers, Std.ExtTreeMap.getElem?_empty] at hc
  cases hc

/-- Pruning keeps the ciphers of recent epochs. -/
lemma mem_rxCiphers_prune : e ∈ k.prune.rxCiphers ↔ e ∈ k.rxCiphers ∧ k.Recent e := by
  unfold prune
  split
  · next hnone =>
    have hrecent : k.Recent e := fun e' he' => absurd he' (max?_keys_eq_none hnone)
    exact (and_iff_left hrecent).symm
  · next n hsome =>
    show e ∈ k.rxCiphers.filter _ ↔ _
    rw [Std.ExtTreeMap.mem_iff_isSome_getElem?, Std.ExtTreeMap.getElem?_filter', Std.ExtTreeMap.mem_iff_isSome_getElem?]
    simp only [floor_le_iff hsome]
    cases k.rxCiphers[e]? with
    | none => exact ⟨nofun, nofun⟩
    | some c => simp

/-- After pruning there are windows of recent epochs only. -/
lemma hasWindow_prune : k.prune.HasWindow e ↔ k.HasWindow e ∧ k.Recent e := by
  simp only [HasWindow, mem_windows_iff, windows_prune]
  constructor
  · rintro ⟨kind, w, hw⟩
    split at hw
    · next hr => exact ⟨⟨kind, w, hw⟩, hr⟩
    · cases hw
  · rintro ⟨⟨kind, w, hw⟩, hr⟩
    exact ⟨kind, w, by rw [if_pos hr, hw]⟩

end TunnelKeys

/-- A receiver, and the epochs for which some frame authenticated, latest first. -/
structure Receiver where
  keys : TunnelKeys
  authenticated : List UInt64

/-- The network hands any bytes to `open` or to `open_receipt`. -/
inductive ReceiverCall where
  | «open» (keyId : KeyId) (body aad : Bytes)
  | openReceipt (keyId : KeyId) (body : Bytes)

/-- A frame authenticated if it is delivered, and if only the replay window refused it. -/
def authentic : Except FrameError Bytes → Bool
  | .ok _ => true
  | .error .replay => true
  | .error _ => false

namespace Receiver

variable (A : Aead)

def start (keys : TunnelKeys) : Receiver := { keys, authenticated := [] }

def deliver (s : Receiver) (kind : FrameKind) (keyId : KeyId) (body aad : Bytes) :
    Receiver × Except FrameError Bytes :=
  let (keys, x) := s.keys.openWith A kind keyId body aad
  ({ keys, authenticated := if authentic x then keyEpoch keyId :: s.authenticated else s.authenticated }, x)

def step (s : Receiver) : ReceiverCall → Receiver × Except FrameError Bytes
  | .open keyId body aad => s.deliver A .data keyId body aad
  | .openReceipt keyId body => s.deliver A .receipt keyId body []

/-- Every cached epoch is within the grace period of the newest epoch that authenticated, and not above it. -/
def NearNewest (s : Receiver) : Prop :=
  (∀ e ∈ s.keys.rxCiphers, ∃ n ∈ s.authenticated, (∀ a ∈ s.authenticated, a ≤ n) ∧ e ≤ n ∧
      n.toNat ≤ e.toNat + graceEpochs.toNat * s.keys.stride.toNat) ∧
    s.keys.rxCiphers.size ≤ graceEpochs.toNat + 1

/-- A frame that fails to decrypt changes no window and caches no epoch, and the cache follows the epochs that
authenticated. -/
def Unpolluted (s : Receiver) (c : ReceiverCall) : Prop :=
  ((s.step A c).2 = .error .decryptFailed →
      (s.step A c).1.keys.rx = s.keys.rx ∧ (s.step A c).1.keys.rxReceipt = s.keys.rxReceipt ∧
        ∀ e, e ∈ (s.step A c).1.keys.rxCiphers ↔ e ∈ s.keys.rxCiphers) ∧
    (s.step A c).1.NearNewest

/-- The frame gets past the checks before decryption, does not decrypt, and names an epoch that is not cached. -/
def Forges (s : Receiver) (kind : FrameKind) (keyId : KeyId) (body aad : Bytes) : Prop :=
  s.keys.Reaches keyId body ∧ s.keys.opened A kind keyId body aad = none ∧ keyEpoch keyId ∉ s.keys.rxCiphers

instance (s : Receiver) (kind : FrameKind) (keyId : KeyId) (body aad : Bytes) :
    Decidable (s.Forges A kind keyId body aad) := inferInstanceAs (Decidable (_ ∧ _))

@[inherit_doc Forges] def NewForgery (s : Receiver) : ReceiverCall → Prop
  | .open keyId body aad => s.Forges A .data keyId body aad
  | .openReceipt keyId body => s.Forges A .receipt keyId body []

instance NewForgery.decidable (s : Receiver) : ∀ c, Decidable (s.NewForgery A c)
  | .open keyId body aad => inferInstanceAs (Decidable (s.Forges A .data keyId body aad))
  | .openReceipt keyId body => inferInstanceAs (Decidable (s.Forges A .receipt keyId body []))

/-- What holds of a receiver as long as nothing was forged: every cached epoch has a window, the windows are of
recent epochs that authenticated, and an epoch that authenticated has a window or is not recent. -/
structure Clean (s : Receiver) : Prop where
  cacheOk : s.keys.RxCacheOk
  window : ∀ e ∈ s.keys.rxCiphers, s.keys.HasWindow e
  shard : ∀ e ∈ s.keys.rxCiphers, e % s.keys.stride = s.keys.shard
  recent : ∀ e, s.keys.HasWindow e → s.keys.Recent e
  heard : ∀ e, s.keys.HasWindow e → e ∈ s.authenticated
  pruned : ∀ e ∈ s.authenticated, s.keys.HasWindow e ∨ ¬ s.keys.Recent e

variable {A} {s : Receiver} {kind : FrameKind} {keyId : KeyId} {body aad : Bytes}

lemma clean_start {k : TunnelKeys} (h : k.Silent) : (start k).Clean where
  cacheOk := h.cacheOk
  window := by
    intro e he
    rw [show (start k).keys.rxCiphers = ∅ from h.rxCiphers] at he
    exact absurd he Std.ExtTreeMap.not_mem_empty
  shard := by
    intro e he
    rw [show (start k).keys.rxCiphers = ∅ from h.rxCiphers] at he
    exact absurd he Std.ExtTreeMap.not_mem_empty
  recent := fun e he => absurd he h.not_hasWindow
  heard := fun e he => absurd he h.not_hasWindow
  pruned := nofun

/-- Three epochs of one residue do not fit in the grace period. -/
lemma three_epochs {a b c n s : Nat} (hab : a < b) (hbc : b < c) (hc : c ≤ n) (hn : n ≤ a + s)
    (hmod : a % s = b % s) (hmod' : b % s = c % s) : False := by
  have h1 : a + s ≤ b := Nat.ModEq.add_le_of_lt hmod hab
  have h2 : b + s ≤ c := Nat.ModEq.add_le_of_lt hmod' hbc
  omega

/-- The newest window is of the newest epoch that authenticated. -/
lemma Clean.newest (h : s.Clean) {e : UInt64} (he : s.keys.HasWindow e) :
    ∃ n ∈ s.authenticated, (∀ a ∈ s.authenticated, a ≤ n) ∧ s.keys.HasWindow n ∧
      ∀ e', s.keys.HasWindow e' → e' ≤ n := by
  cases hmax : (s.keys.rx.keys ++ s.keys.rxReceipt.keys).max? with
  | none => exact absurd he (max?_keys_eq_none hmax)
  | some n =>
    obtain ⟨hn, hall⟩ := max?_keys_eq_some hmax
    refine ⟨n, h.heard n hn, ?_, hn, hall⟩
    intro a ha
    rcases h.pruned a ha with hwin | hold
    · exact hall a hwin
    · -- an epoch that is not recent is below a window
      by_contra hlt
      apply hold
      intro e' he'
      have hle := UInt64.le_iff_toNat_le.mp (hall e' he')
      have hlt' := UInt64.lt_iff_toNat_lt.mp (UInt64.not_le.mp hlt)
      omega

lemma Clean.nearNewest (h : s.Clean) : s.NearNewest := by
  have hnear : ∀ e ∈ s.keys.rxCiphers, ∃ n ∈ s.authenticated, (∀ a ∈ s.authenticated, a ≤ n) ∧
      s.keys.HasWindow n ∧ e ≤ n ∧ n.toNat ≤ e.toNat + s.keys.stride.toNat := by
    intro e he
    have hwin := h.window e he
    obtain ⟨n, hn, hmax, hnwin, htop⟩ := h.newest hwin
    exact ⟨n, hn, hmax, hnwin, htop e hwin, h.recent e hwin n hnwin⟩
  constructor
  · intro e he
    obtain ⟨n, hn, hmax, -, hle, hgrace⟩ := hnear e he
    refine ⟨n, hn, hmax, hle, ?_⟩
    rw [show graceEpochs.toNat = 1 from rfl, Nat.one_mul]
    exact hgrace
  · rw [show graceEpochs.toNat + 1 = 2 from rfl, ← Std.ExtTreeMap.length_keys]
    have hsorted : s.keys.rxCiphers.keys.Pairwise (compare · · = .lt) := Std.ExtTreeMap.ordered_keys
    have hmem : ∀ e ∈ s.keys.rxCiphers.keys, e ∈ s.keys.rxCiphers := fun e => Std.ExtTreeMap.mem_keys.mp
    generalize s.keys.rxCiphers.keys = l at hsorted hmem
    by_contra hlong
    obtain ⟨a, b, c, l, rfl⟩ : ∃ a b c l', l = a :: b :: c :: l' := by
      rcases l with _ | ⟨a, _ | ⟨b, _ | ⟨c, l⟩⟩⟩
      · exact absurd (Nat.zero_le 2) hlong
      · exact absurd (Nat.le_succ 1) hlong
      · exact absurd (Nat.le_refl 2) hlong
      · exact ⟨a, b, c, l, rfl⟩
    have ha := hmem a List.mem_cons_self
    have hb := hmem b (List.mem_cons_of_mem _ List.mem_cons_self)
    have hc := hmem c (List.mem_cons_of_mem _ (List.mem_cons_of_mem _ List.mem_cons_self))
    obtain ⟨hfrom, hrest⟩ := List.pairwise_cons.mp hsorted
    have hab : a < b := Std.compare_eq_lt.mp (hfrom b List.mem_cons_self)
    have hbc : b < c := Std.compare_eq_lt.mp ((List.pairwise_cons.mp hrest).1 c List.mem_cons_self)
    obtain ⟨n, hn, hmax, hnwin, -, hgrace⟩ := hnear a ha
    have hcn : c ≤ n := by
      obtain ⟨n', hn', -, -, hle, -⟩ := hnear c hc
      exact UInt64.le_trans hle (hmax n' hn')
    have hresidue : ∀ e ∈ s.keys.rxCiphers, e.toNat % s.keys.stride.toNat = s.keys.shard.toNat := by
      intro e he
      rw [← UInt64.toNat_mod, h.shard e he]
    exact three_epochs (UInt64.lt_iff_toNat_lt.mp hab) (UInt64.lt_iff_toNat_lt.mp hbc)
      (UInt64.le_iff_toNat_le.mp hcn) hgrace ((hresidue a ha).trans (hresidue b hb).symm)
      ((hresidue b hb).trans (hresidue c hc).symm)

/-- An authentic frame caches its epoch together with a window, and old epochs go. -/
lemma Clean.opened (h : s.Clean) {pt : Bytes} (ho : s.keys.opened A kind keyId body aad = some pt) :
    (s.deliver A kind keyId body aad).1.Clean ∧
      (s.deliver A kind keyId body aad).2 ≠ .error .decryptFailed := by
  obtain ⟨e, hm⟩ := openWith_opened h.cacheOk ho
  have hpasses := (reaches_of_opened ho).2
  have hconfig : (s.keys.openWith A kind keyId body aad).1.config = s.keys.config := config_openWith h.cacheOk
  have hauth : authentic (s.keys.openWith A kind keyId body aad).2 = true := by
    rw [e]
    dsimp only
    split <;> rfl
  simp only [deliver, hauth, if_true]
  generalize (((s.keys.windows kind)[keyEpoch keyId]?.getD {}).accept (bodyCounter body)) = w at e
  have hcached : (s.keys.cached (s.keys.ciphersWith (keyEpoch keyId))).HasWindow = s.keys.HasWindow := by
    funext e'
    simp only [HasWindow, windows_cached]
  have hwin : ∀ e', (s.keys.openWith A kind keyId body aad).1.HasWindow e' ↔
      (s.keys.HasWindow e' ∨ e' = keyEpoch keyId) ∧ (s.keys.openWith A kind keyId body aad).1.Recent e' := by
    intro e'
    rw [e, hasWindow_prune, recent_prune, hasWindow_offer, hcached]
  have hciphers : ∀ e', e' ∈ (s.keys.openWith A kind keyId body aad).1.rxCiphers ↔
      (e' ∈ s.keys.rxCiphers ∨ e' = keyEpoch keyId) ∧ (s.keys.openWith A kind keyId body aad).1.Recent e' := by
    intro e'
    rw [e, mem_rxCiphers_prune, recent_prune, ← mem_ciphersWith]
    cases kind <;> exact Iff.rfl
  have hrecent : ∀ e', (s.keys.openWith A kind keyId body aad).1.Recent e' → s.keys.Recent e' := by
    intro e' hr
    rw [e, recent_prune, recent_offer, recent_cached] at hr
    exact hr.1
  have hshard : (s.keys.openWith A kind keyId body aad).1.shard = s.keys.shard :=
    congrArg (·.2.2.2.1) hconfig
  have hstride : (s.keys.openWith A kind keyId body aad).1.stride = s.keys.stride :=
    congrArg (·.2.2.2.2) hconfig
  constructor
  · constructor
    · rw [e]
      exact (hm.offer kind _ _).prune
    · intro e' he'
      obtain ⟨hin, hr⟩ := (hciphers e').mp he'
      exact (hwin e').mpr ⟨hin.imp_left (h.window e'), hr⟩
    · intro e' he'
      rw [hshard, hstride]
      rcases ((hciphers e').mp he').1 with hin | rfl
      · exact h.shard e' hin
      · exact hpasses.2.1
    · intro e' he'
      exact ((hwin e').mp he').2
    · intro e' he'
      rcases ((hwin e').mp he').1 with hin | rfl
      · exact List.mem_cons_of_mem _ (h.heard e' hin)
      · exact List.mem_cons_self
    · intro e' he'
      by_cases hr : (s.keys.openWith A kind keyId body aad).1.Recent e'
      · refine .inl ((hwin e').mpr ⟨?_, hr⟩)
        rcases List.mem_cons.mp he' with rfl | he'
        · exact .inr rfl
        · rcases h.pruned e' he' with hin | hold
          · exact .inl hin
          · exact absurd (hrecent e' hr) hold
      · exact .inr hr
  · rw [e]
    dsimp only
    split
    · intro hx
      cases hx
    · intro hx
      cases hx

lemma authentic_eq_false {x : FrameError} (h : x ≠ .replay) : authentic (.error x) = false := by
  cases x with
  | replay => exact absurd rfl h
  | _ => rfl

/-- A frame that fails the checks changes nothing. -/
lemma deliver_not_reaches (h : ¬ s.keys.Reaches keyId body) :
    ∃ x, s.deliver A kind keyId body aad = (s, .error x) ∧ x ≠ .decryptFailed := by
  obtain ⟨x, e, hfail, hreplay⟩ :
      ∃ x, s.keys.openWith A kind keyId body aad = (s.keys, .error x) ∧ x ≠ .decryptFailed ∧ x ≠ .replay :=
    openWith_not_reaches h
  refine ⟨x, ?_, hfail⟩
  simp only [deliver, e, authentic_eq_false hreplay]
  rfl

/-- A forged frame leaves its epoch in the cache, and nothing else. -/
lemma deliver_forged (h : s.keys.RxCacheOk) (hr : s.keys.Reaches keyId body)
    (ho : s.keys.opened A kind keyId body aad = none) :
    s.deliver A kind keyId body aad =
      ({ s with keys := s.keys.cached (s.keys.ciphersWith (keyEpoch keyId)) }, .error .decryptFailed) := by
  simp only [deliver, openWith_forged h hr ho]
  rfl

/-- One frame, in a receiver for which nothing was forged: the cache stays clean exactly if the frame does not
forge a new epoch. -/
theorem Clean.deliver (h : s.Clean) (hf : ¬ s.Forges A kind keyId body aad) :
    (s.deliver A kind keyId body aad).1.Clean ∧
      ((s.deliver A kind keyId body aad).2 = .error .decryptFailed → (s.deliver A kind keyId body aad).1 = s) := by
  by_cases hr : s.keys.Reaches keyId body
  · cases ho : s.keys.opened A kind keyId body aad with
    | some pt =>
      obtain ⟨hclean, hne⟩ := h.opened ho
      exact ⟨hclean, fun e => absurd e hne⟩
    | none =>
      have hcached : keyEpoch keyId ∈ s.keys.rxCiphers := by
        by_contra hnew
        exact hf ⟨hr, ho, hnew⟩
      have hsame : s.keys.cached (s.keys.ciphersWith (keyEpoch keyId)) = s.keys := by
        rw [ciphersWith, if_pos hcached]
        rfl
      rw [deliver_forged h.cacheOk hr ho, hsame]
      exact ⟨h, fun _ => rfl⟩
  · obtain ⟨x, e, hne⟩ : ∃ x, s.deliver A kind keyId body aad = (s, .error x) ∧ x ≠ .decryptFailed :=
      deliver_not_reaches hr
    rw [e]
    exact ⟨h, fun _ => rfl⟩

/-- A frame that forges a new epoch fails to decrypt, and caches the epoch. -/
lemma Forges.caches (hf : s.Forges A kind keyId body aad) (h : s.keys.RxCacheOk) :
    (s.deliver A kind keyId body aad).2 = .error .decryptFailed ∧
      keyEpoch keyId ∈ (s.deliver A kind keyId body aad).1.keys.rxCiphers := by
  rw [deliver_forged h hf.1 hf.2.1]
  exact ⟨rfl, mem_ciphersWith.mpr (.inr rfl)⟩

/-- Every call that does not forge a new epoch keeps the receiver clean. -/
theorem Clean.step (h : s.Clean) {c : ReceiverCall} (hc : ¬ s.NewForgery A c) : (s.step A c).1.Clean := by
  cases c with
  | «open» keyId body aad => exact (h.deliver hc).1
  | openReceipt keyId body => exact (h.deliver hc).1

/-- A call pollutes the cache exactly if it forges a new epoch. -/
theorem Clean.unpolluted_iff (h : s.Clean) (c : ReceiverCall) : s.Unpolluted A c ↔ ¬ s.NewForgery A c := by
  constructor
  · intro hu hc
    cases c with
    | «open» keyId body aad =>
      obtain ⟨hfail, hin⟩ := hc.caches h.cacheOk
      exact hc.2.2 (((hu.1 hfail).2.2 _).mp hin)
    | openReceipt keyId body =>
      obtain ⟨hfail, hin⟩ := hc.caches h.cacheOk
      exact hc.2.2 (((hu.1 hfail).2.2 _).mp hin)
  · intro hc
    refine ⟨?_, (h.step hc).nearNewest⟩
    have hsame : (s.step A c).2 = .error .decryptFailed → (s.step A c).1 = s := by
      cases c with
      | «open» keyId body aad => exact (h.deliver hc).2
      | openReceipt keyId body => exact (h.deliver hc).2
    intro hfail
    rw [hsame hfail]
    exact ⟨rfl, rfl, fun _ => Iff.rfl⟩

end Receiver

open Receiver

/-- From keys that have received nothing, forged frames change no window and cache no epoch, and the cache stays
within the grace period of the newest epoch that authenticated, exactly as long as no forged frame that passes
the checks names an epoch that is not cached. -/
theorem cache_unpolluted (A : Aead) {k : TunnelKeys} (h : k.Silent) {calls : List ReceiverCall} :
    Along (Receiver.step A) (Unpolluted A) (start k) calls ↔
      Along (Receiver.step A) (fun s c => ¬ s.NewForgery A c) (start k) calls := by
  have hany : Along (Receiver.step A) (fun _ _ => True) (start k) calls := along_of_forall fun _ _ => trivial
  exact (along_congr (I := Clean) hany (fun s c hs _ hc => hs.step hc) (fun s c hs _ => (hs.unpolluted_iff c).symm)
    (clean_start h)).symm

/-- A frame of an epoch that nobody sealed: eight zero bytes and no ciphertext. -/
def sampleForgery (epoch : UInt64) : ReceiverCall := .open (keyIdFor .chaCha20Poly1305 epoch) (List.replicate 8 0) []

/-- Three forged frames far ahead: all fail to decrypt, and all three epochs stay in the cache, though nothing has
authenticated. -/
theorem cache_polluted :
    let k := TunnelKeys.new 0 (sampleDh 7) false
    let calls := [sampleForgery 5, sampleForgery 1000, sampleForgery 70000]
    let s := run (Receiver.step sampleAead) (start k) calls
    s.2 = [.error .decryptFailed, .error .decryptFailed, .error .decryptFailed] ∧
      s.1.authenticated = [] ∧ s.1.keys.rxCiphers.keys = [5, 1000, 70000] ∧
      ¬ Along (Receiver.step sampleAead) (Unpolluted sampleAead) (start k) calls := by
  refine ⟨by decide +kernel, by decide +kernel, by decide +kernel, ?_⟩
  rintro ⟨hu, -⟩
  have hin := (hu.1 (by decide +kernel)).2.2 5
  exact absurd (hin.mp (by decide +kernel)) (by decide +kernel)

/-- Genuine frames and a receipt over two rotations, and forged frames of cached, of stale and of foreign epochs. -/
theorem cache_unpolluted_sample :
    let k := TunnelKeys.new 0 (sampleDh 7) false
    let genuine := fun (epoch : UInt64) =>
      let r := sampleEncryption .data epoch 1
      ReceiverCall.open r.keyId (r.body sampleAead) r.aad
    Along (Receiver.step sampleAead) (Unpolluted sampleAead) (start k)
      [genuine 0, sampleForgery 0, genuine 1, genuine 0, genuine 2, sampleForgery 0, sampleForgery 1] :=
  (cache_unpolluted sampleAead (Built.new 0 (sampleDh 7) false).silent).mpr (by decide +kernel)

end IPv8Plus.Tunnel
