import IPv8Plus.Tunnel.CipherCache
import IPv8Plus.Tunnel.Flow
import IPv8Plus.Tunnel.Shards

/-!
# Routing of frames to shards

Shard `k` of `n` seals in epochs of residue `k`, and rotates and rekeys in steps of `n`. So a frame says without
being opened which worker of the peer has its keys. `shard_routing` says that the two ends agree on this for all
frames, and when a worker finds a frame too old.
-/

namespace IPv8Plus.Tunnel
open Lib Codec TunnelKeys

/-- What happens to the two ends of a shard: a frame is sealed or handed over, or an end gets a new secret. -/
inductive LaneCall where
  | frame (c : WorldCall)
  | rekeySender (now : Nat) (newDh : Dh)
  | rekeyReceiver (now : Nat) (newDh : Dh)

namespace World

variable (A : Aead)

/-- A rekeyed receiver has accepted nothing under its new secret. -/
def laneStep (w : World) : LaneCall → World × Option (Except FrameError Bytes)
  | .frame c => w.step A c
  | .rekeySender now newDh => ({ w with tx := w.tx.rekey now newDh }, none)
  | .rekeyReceiver now newDh => ({ w with rx := w.rx.rekey now newDh, accepted := [] }, none)

/-- The AEAD is ideal at this call. -/
def LaneIdeal (w : World) : LaneCall → Prop
  | .frame c => w.Ideal A c
  | .rekeySender _ _ => True
  | .rekeyReceiver _ _ => True

instance LaneIdeal.decidable (w : World) : ∀ c, Decidable (w.LaneIdeal A c)
  | .frame c => inferInstanceAs (Decidable (w.Ideal A c))
  | .rekeySender _ _ => isTrue trivial
  | .rekeyReceiver _ _ => isTrue trivial

/-- The sender's epochs fit the KeyID. -/
def LaneLow (w : World) : LaneCall → Prop
  | .frame c => w.Low c
  | .rekeySender _ _ => w.tx.sendEpoch.toNat + w.tx.stride.toNat < 2 ^ 56
  | .rekeyReceiver _ _ => True

instance LaneLow.decidable (w : World) : ∀ c, Decidable (w.LaneLow c)
  | .frame c => inferInstanceAs (Decidable (w.Low c))
  | .rekeySender _ _ => inferInstanceAs (Decidable (_ < _))
  | .rekeyReceiver _ _ => isTrue trivial

/-- What holds of the two ends of a shard. -/
structure LaneInv (w : World) : Prop where
  tidy : w.tx.Tidy
  low : w.tx.SendsLow
  suite : ∀ r ∈ w.tx.history, r.cipher.suite = w.tx.suite
  config : w.rx.suite = w.tx.suite ∧ w.rx.shard = w.tx.shard ∧ w.rx.stride = w.tx.stride
  tracks : Tracks w.rx w.accepted

end World

namespace TunnelKeys

variable {k : TunnelKeys} {kind : FrameKind} {now : Nat} {aad plaintext : Bytes} {keyId : KeyId} {epoch : UInt64}
  {newDh : Dh}

/-- Rekeying moves on by one stride. -/
lemma SendsLow.rekey (h : k.SendsLow) (hlow : k.sendEpoch.toNat + k.stride.toNat < 2 ^ 56) :
    (k.rekey now newDh).SendsLow where
  residue := by
    have hadd : (k.sendEpoch + k.stride).toNat = k.sendEpoch.toNat + k.stride.toNat := by
      rw [UInt64.toNat_add]
      exact Nat.mod_eq_of_lt (hlow.trans (by norm_num))
    show (k.sendEpoch + k.stride).toNat % k.stride.toNat = k.shard.toNat
    rw [hadd, Nat.add_mod_right]
    exact h.residue
  low := h.low
  shard := h.shard

/-- The newest epoch with a window, if the given epoch is stale. -/
lemma hasWindow_newestEpoch (h : ¬ k.Recent epoch) :
    k.HasWindow (k.newestEpoch epoch) ∧
      epoch.toNat + graceEpochs.toNat * k.stride.toNat < (k.newestEpoch epoch).toNat := by
  have hstale : satAdd epoch (satMul graceEpochs k.stride) < k.newestEpoch epoch := by
    by_contra hn
    exact h (not_stale_iff.mp hn)
  rw [graceEpochs, satMul_one, satAdd_lt] at hstale
  have hle : epoch ≤ k.newestEpoch epoch := UInt64.le_iff_toNat_le.mpr (by omega)
  have hall := (newestEpoch_le hle).mp (UInt64.le_refl _)
  refine ⟨?_, by rw [show graceEpochs.toNat = 1 from rfl, Nat.one_mul]; exact hstale⟩
  -- otherwise all windows and the epoch are at most the predecessor
  by_contra hnone
  have hpred : (k.newestEpoch epoch - 1).toNat = (k.newestEpoch epoch).toNat - 1 :=
    UInt64.toNat_sub_of_le _ _ (UInt64.le_iff_toNat_le.mpr (by rw [UInt64.toNat_one]; omega))
  have hbelow : k.newestEpoch epoch ≤ k.newestEpoch epoch - 1 := by
    refine (newestEpoch_le (UInt64.le_iff_toNat_le.mpr (by omega))).mpr fun e he => ?_
    have hne : e.toNat ≠ (k.newestEpoch epoch).toNat := fun heq => hnone (UInt64.toNat_inj.mp heq ▸ he)
    have hmax := UInt64.le_iff_toNat_le.mp (hall e he)
    exact UInt64.le_iff_toNat_le.mpr (by omega)
  have := UInt64.le_iff_toNat_le.mp hbelow
  omega

/-- With the suite and the residue right, `open_cipher` refuses stale epochs only. -/
lemma openCipher_error (hsuite : keyId.suiteByte = k.suite.byte) (hshard : keyEpoch keyId % k.stride = k.shard)
    {x : FrameError} (h : (k.openCipher keyId).2 = .error x) :
    x = .staleEpoch (keyEpoch keyId) (k.newestEpoch (keyEpoch keyId)) ∧ ¬ k.Recent (keyEpoch keyId) := by
  unfold openCipher at h
  rw [hsuite, CipherSuite.fromByte_byte] at h
  dsimp only at h
  rw [if_neg (not_not_intro rfl), if_neg (not_not_intro hshard)] at h
  split at h
  · next hstale =>
    cases h
    exact ⟨rfl, fun hr => not_stale_iff.mpr hr hstale⟩
  · split at h
    · cases h
    · cases h

/-- Silent keys have accepted nothing. -/
lemma Silent.tracks (h : k.Silent) : Tracks k [] where
  cache := h.cacheOk
  window := by
    intro kind e w hw
    exact absurd ⟨kind, mem_windows_iff.mpr ⟨w, hw⟩⟩ h.not_hasWindow
  pruned := nofun
  nodup := List.nodup_nil

end TunnelKeys

namespace World

variable {A : Aead} {w : World} {kind : FrameKind} {keyId : KeyId} {body aad plaintext : Bytes} {now : Nat}
  {r : Encryption}

lemma LaneInv.sealWith (h : w.LaneInv) (hlow : w.tx.LowEpoch now) :
    ({ w with tx := (w.tx.sealWith A kind now aad plaintext).1 } : World).LaneInv where
  tidy := sealWith_tidy A h.tidy
  low := h.low.sealWith h.tidy.cache hlow
  suite := by
    intro r hr
    have hstep := sealWith_eq A kind now aad plaintext h.tidy.cache
    simp only [hstep, record_history, record_suite, rotateIfDue_history, rotateIfDue_suite] at hr ⊢
    rcases List.mem_cons.mp hr with rfl | hr
    · exact rotateIfDue_suite
    · exact h.suite r hr
  config := by
    have hstep := sealWith_eq A kind now aad plaintext h.tidy.cache
    simp only [hstep, record_suite, record_shard, record_stride, rotateIfDue_suite, rotateIfDue_shard,
      rotateIfDue_stride]
    exact h.config
  tracks := h.tracks

lemma LaneInv.deliver (h : w.LaneInv) (hid : w.Authentic A kind keyId body aad) :
    (w.deliver A kind keyId body aad).1.LaneInv := by
  have hconfig : (w.rx.openWith A kind keyId body aad).1.config = w.rx.config := config_openWith h.tracks.cache
  have hrx : (w.rx.openWith A kind keyId body aad).1.suite = w.tx.suite ∧
      (w.rx.openWith A kind keyId body aad).1.shard = w.tx.shard ∧
      (w.rx.openWith A kind keyId body aad).1.stride = w.tx.stride := by
    obtain ⟨hsuite, hshard, hstride⟩ := h.config
    exact ⟨(congrArg (·.2.2.1) hconfig).trans hsuite, (congrArg (·.2.2.2.1) hconfig).trans hshard,
      (congrArg (·.2.2.2.2) hconfig).trans hstride⟩
  cases ho : w.rx.opened A kind keyId body aad with
  | none =>
    obtain ⟨x, hx, ht⟩ := h.tracks.not_opened ho
    simp only [World.deliver, hx]
    exact ⟨h.tidy, h.low, h.suite, hrx, ht⟩
  | some pt =>
    obtain ⟨r, hr, -, hnonce, -⟩ := hid pt ho
    rcases h.tracks.opened ho (counter_ne_zero h.tidy hr hnonce) with ⟨-, hx, ht⟩ | ⟨-, hx, ht⟩
    · simp only [World.deliver, hx]
      exact ⟨h.tidy, h.low, h.suite, hrx, ht⟩
    · simp only [World.deliver, hx]
      exact ⟨h.tidy, h.low, h.suite, hrx, ht⟩

theorem LaneInv.step (h : w.LaneInv) {c : LaneCall} (hid : w.LaneIdeal A c) (hlow : w.LaneLow c) :
    (w.laneStep A c).1.LaneInv := by
  cases c with
  | frame c =>
    cases c with
    | «seal» now aad plaintext => exact h.sealWith hlow
    | sealReceipt now plaintext => exact h.sealWith hlow
    | «open» keyId body aad => exact h.deliver hid
    | openReceipt keyId body => exact h.deliver hid
  | rekeySender now newDh =>
    exact ⟨step_tidy A h.tidy (.rekey now newDh), h.low.rekey hlow, h.suite, h.config, h.tracks⟩
  | rekeyReceiver now newDh =>
    exact ⟨h.tidy, h.low, h.suite, h.config, (rekey_silent _ _ _).tracks⟩

/-- The KeyID of a frame names its epoch to the receiver, which has the suite and the residue. -/
lemma LaneInv.named (h : w.LaneInv) (hr : r ∈ w.tx.history) :
    r.keyId.suiteByte = w.rx.suite.byte ∧ keyEpoch r.keyId = r.epoch ∧ r.epoch % w.rx.stride = w.rx.shard := by
  obtain ⟨hsuite, hshard, hstride⟩ := h.config
  refine ⟨?_, keyEpoch_keyIdFor (h.low.low r hr), ?_⟩
  · rw [hsuite, Encryption.keyId, suiteByte_keyIdFor, h.suite r hr]
  · apply UInt64.toNat_inj.mp
    rw [UInt64.toNat_mod, hstride, hshard]
    exact h.low.shard r hr

/-- The newest window is of the newest epoch that was accepted. -/
lemma LaneInv.newest (h : w.LaneInv) {e : UInt64} (he : ¬ w.rx.Recent e) :
    ∃ a ∈ w.accepted, a.epoch = w.rx.newestEpoch e ∧ ∀ b ∈ w.accepted, b.epoch ≤ a.epoch := by
  obtain ⟨⟨kind, hwin⟩, -⟩ := hasWindow_newestEpoch he
  obtain ⟨v, hv⟩ := mem_windows_iff.mp hwin
  obtain ⟨n, a, ha, -, hepoch, -⟩ := (h.tracks.window _ _ v hv).2
  have hbelow : ∀ e', w.rx.HasWindow e' → e' ≤ w.rx.newestEpoch e := by
    have hle : e ≤ w.rx.newestEpoch e := by
      have hlt := (hasWindow_newestEpoch he).2
      exact UInt64.le_iff_toNat_le.mpr (by omega)
    exact (newestEpoch_le hle).mp (UInt64.le_refl _)
  refine ⟨a, ha, hepoch, fun b hb => ?_⟩
  rw [hepoch]
  rcases h.tracks.pruned b hb with hmem | hold
  · exact hbelow b.epoch ⟨b.kind, hmem⟩
  · by_contra hgt
    apply hold
    intro e' he'
    have hle := UInt64.le_iff_toNat_le.mp (hbelow e' he')
    have hlt := UInt64.lt_iff_toNat_lt.mp (UInt64.not_le.mp hgt)
    omega

/-- A frame of the sender is refused before decryption only if it is stale. -/
theorem LaneInv.openCipher (h : w.LaneInv) (hr : r ∈ w.tx.history) {x : FrameError}
    (hx : (w.rx.openCipher r.keyId).2 = .error x) :
    ∃ a ∈ w.accepted, (∀ b ∈ w.accepted, b.epoch ≤ a.epoch) ∧ x = .staleEpoch r.epoch a.epoch ∧
      r.epoch.toNat + graceEpochs.toNat * w.rx.stride.toNat < a.epoch.toNat := by
  obtain ⟨hsuite, hepoch, hshard⟩ := h.named hr
  obtain ⟨rfl, hstale⟩ := openCipher_error hsuite (by rw [hepoch, hshard]) hx
  obtain ⟨a, ha, hnewest, hmax⟩ := h.newest hstale
  refine ⟨a, ha, hmax, by rw [hnewest, hepoch], ?_⟩
  have hlt := (hasWindow_newestEpoch hstale).2
  rw [hnewest]
  rw [hepoch] at hlt ⊢
  exact hlt

end World

namespace FlowShards

variable {A : Aead} {f : FlowShards} {instant : Nat} {keyId : KeyId} {rest : Bytes}

/-- The router reads the epoch as `open_cipher` does, only that it clears the suite byte instead of masking it. -/
lemma shardOf_eq (f : FlowShards) (keyId : KeyId) : f.shardOf keyId = (keyEpoch keyId).toNat % f.workers.length := by
  obtain ⟨l, hl⟩ := keyId
  cases l with
  | nil => cases hl
  | cons b rest =>
    have hrest : rest.length = 7 := Nat.succ.inj hl
    have hbound : ofBe rest < 2 ^ 56 := by
      have hlt := ofBe_lt rest
      rw [hrest] at hlt
      exact hlt.trans_eq (by norm_num)
    have hclear : (ofBe64 (0 :: rest)).toNat = ofBe rest := by
      have hzero : ofBe (0 :: rest) = ofBe rest := by
        rw [ofBe, UInt8.toNat_zero, Nat.zero_mul, Nat.zero_add]
      rw [ofBe64, hzero]
      exact UInt64.toNat_ofNat_of_lt' (hbound.trans (by norm_num))
    have hmask : (keyEpoch ⟨b :: rest, hl⟩).toNat = ofBe rest := by
      have hword : rest = toBe 7 (UInt64.ofNat (ofBe rest)).toNat := by
        rw [UInt64.toNat_ofNat_of_lt' (hbound.trans (by norm_num)), ← hrest, toBe_ofBe]
      have hmasked := ofBe64_mask_cons b (UInt64.ofNat (ofBe rest))
      rw [← hword, UInt64.toNat_ofNat_of_lt' (hbound.trans (by norm_num)), Nat.mod_eq_of_lt hbound] at hmasked
      exact hmasked
    rw [hmask, shardOf]
    exact congrArg (· % f.workers.length) hclear

/-- A data frame goes to the worker of its epoch. -/
lemma handleInbound_data {w : Worker} (hok : f.ok = true) (hw : f.workers[f.shardOf keyId]? = some w) :
    f.handleInbound A instant (writeHead [] .data keyId ++ rest) =
      ({ f with workers := f.workers.set (f.shardOf keyId) (w.data A instant (writeHead [] .data keyId ++ rest)).1 },
        some (w.data A instant (writeHead [] .data keyId ++ rest)).2) := by
  unfold handleInbound
  rw [hok, parseHead_writeHead]
  simp only [hw]
  rfl

end FlowShards

section
variable {e e' : Engine} {base base' : TunnelKeys} {now now' : Nat} {n : UInt64} {k : Nat} {tx rx : TunnelKeys}

/-- The keys of a shard that an engine was split into. -/
lemma shardKeys_of_split {shards : List TunnelKeys} {config : IPv8Address × IPv8Address × Nat}
    (h : (e.splitShards now n).2 = .ok (shards, config)) (hk : shards[k]? = some tx) :
    k < n.toNat ∧ ∃ base, tx = Engine.shardKeys base now n k := by
  rcases Engine.splitShards_cases e now n with hno | ⟨base, -, -, hsplit⟩
  · rw [hno] at h
    cases h
  · rw [hsplit] at h
    cases h
    rw [List.getElem?_map] at hk
    obtain ⟨i, hi, rfl⟩ := Option.map_eq_some_iff.mp hk
    obtain ⟨hlt, hget⟩ := List.getElem?_eq_some_iff.mp hi
    rw [List.length_range] at hlt
    rw [List.getElem_range] at hget
    subst hget
    exact ⟨hlt, base, rfl⟩

lemma toNat_shard (hk : k < n.toNat) : (UInt64.ofNat k).toNat = k :=
  UInt64.toNat_ofNat_of_lt' (hk.trans n.toNat_lt)

lemma shardKeys_unused (hk : k < n.toNat) : (Engine.shardKeys base now n k).Unused := by
  refine ⟨rfl, rfl, rfl, rfl, rfl, rfl, rfl, rfl, ?_⟩
  show UInt64.ofNat k < n
  rw [UInt64.lt_iff_toNat_lt, toNat_shard hk]
  exact hk

/-- Two ends that were split alike. -/
lemma World.laneInv_start (hk : k < n.toNat)
    (hsuite : (Engine.shardKeys base now n k).suite = (Engine.shardKeys base' now' n k).suite) :
    (World.start (Engine.shardKeys base now n k) (Engine.shardKeys base' now' n k)).LaneInv where
  tidy := (shardKeys_unused hk).tidy
  low := (shardKeys_unused hk).sendsLow
  suite := nofun
  config := ⟨hsuite.symm, rfl, rfl⟩
  tracks := Silent.tracks ⟨rfl, rfl, rfl⟩

end

/-- No call moves an end to another shard. -/
lemma World.shard_laneStep {A : Aead} {w : World} (h : w.LaneInv) (c : LaneCall) :
    (w.laneStep A c).1.tx.shard = w.tx.shard ∧ (w.laneStep A c).1.tx.stride = w.tx.stride := by
  have hseal : ∀ kind now aad plaintext, (w.tx.sealWith A kind now aad plaintext).1.shard = w.tx.shard ∧
      (w.tx.sealWith A kind now aad plaintext).1.stride = w.tx.stride := by
    intro kind now aad plaintext
    rw [sealWith_eq A kind now aad plaintext h.tidy.cache]
    exact ⟨(record_shard _ _).trans rotateIfDue_shard, (record_stride _ _).trans rotateIfDue_stride⟩
  cases c with
  | frame c =>
    cases c with
    | «seal» now aad plaintext => exact hseal .data now aad plaintext
    | sealReceipt now plaintext => exact hseal .receipt now [] plaintext
    | «open» keyId body aad => exact ⟨rfl, rfl⟩
    | openReceipt keyId body => exact ⟨rfl, rfl⟩
  | rekeySender now newDh => exact ⟨rfl, rfl⟩
  | rekeyReceiver now newDh => exact ⟨rfl, rfl⟩

/-- Two engines are split into `n` shards with one suite. Whatever shard `k` of the one and shard `k` of the other
seal, get and rekey, in epochs that fit the KeyID: the sender's epochs are `k` modulo `n`, the receiver's router
takes every data frame to worker `k`, and before decryption the worker refuses a frame only as stale, if it is
more than the grace period behind the newest epoch that the worker has accepted under its secret. -/
theorem shard_routing (A : Aead) {e e' : Engine} {now now' : Nat} {n : UInt64} {shards shards' : List TunnelKeys}
    {config config' : IPv8Address × IPv8Address × Nat} {k : Nat} {tx rx : TunnelKeys}
    (hsplit : (e.splitShards now n).2 = .ok (shards, config))
    (hsplit' : (e'.splitShards now' n).2 = .ok (shards', config'))
    (htx : shards[k]? = some tx) (hrx : shards'[k]? = some rx) (hsuite : tx.suite = rx.suite)
    {calls : List LaneCall} (hideal : Along (World.laneStep A) (World.LaneIdeal A) (World.start tx rx) calls)
    (hlow : Along (World.laneStep A) World.LaneLow (World.start tx rx) calls) :
    let w := (run (World.laneStep A) (World.start tx rx) calls).1
    w.tx.sendEpoch.toNat % n.toNat = k ∧
      ∀ r ∈ w.tx.history, r.epoch.toNat % n.toNat = k ∧
        (∀ (f : FlowShards) instant rest, f.ok = true → f.workers.length = n.toNat →
          ∃ v, f.workers[k]? = some v ∧ f.handleInbound A instant (writeHead [] .data r.keyId ++ rest) =
            ({ f with workers := f.workers.set k (v.data A instant (writeHead [] .data r.keyId ++ rest)).1 },
              some (v.data A instant (writeHead [] .data r.keyId ++ rest)).2)) ∧
        ∀ x, (w.rx.openCipher r.keyId).2 = .error x →
          ∃ a ∈ w.accepted, (∀ b ∈ w.accepted, b.epoch ≤ a.epoch) ∧ x = .staleEpoch r.epoch a.epoch ∧
            r.epoch.toNat + graceEpochs.toNat * n.toNat < a.epoch.toNat := by
  obtain ⟨hk, base, rfl⟩ := shardKeys_of_split hsplit htx
  obtain ⟨-, base', rfl⟩ := shardKeys_of_split hsplit' hrx
  intro w
  obtain ⟨hinv, hshard, hstride⟩ :
      w.LaneInv ∧ w.tx.shard = UInt64.ofNat k ∧ w.tx.stride = n := by
    refine invariant_run (I := fun w => w.LaneInv ∧ w.tx.shard = UInt64.ofNat k ∧ w.tx.stride = n) ?_
      ⟨World.laneInv_start hk hsuite, rfl, rfl⟩ (along_and.mpr ⟨hideal, hlow⟩)
    rintro w c ⟨h, hshard, hstride⟩ ⟨hid, hlow⟩
    obtain ⟨hs, ht⟩ := World.shard_laneStep (A := A) h c
    exact ⟨h.step hid hlow, hs.trans hshard, ht.trans hstride⟩
  have hresidue := hinv.low.residue
  have hframes := hinv.low.shard
  rw [hshard, hstride, toNat_shard hk] at hresidue hframes
  refine ⟨hresidue, fun r hr => ⟨hframes r hr, ?_, ?_⟩⟩
  · intro f instant rest hok hlen
    have hroute : f.shardOf r.keyId = k := by
      rw [FlowShards.shardOf_eq, (hinv.named hr).2.1, hlen]
      exact hframes r hr
    have hlt : k < f.workers.length := by
      rw [hlen]
      exact hk
    have hget : f.workers[f.shardOf r.keyId]? = some f.workers[k] := by
      rw [hroute]
      exact List.getElem?_eq_getElem hlt
    refine ⟨f.workers[k], List.getElem?_eq_getElem hlt, ?_⟩
    rw [FlowShards.handleInbound_data hok hget, hroute]
  · intro x hx
    obtain ⟨a, ha, hmax, hstale, hlt⟩ := hinv.openCipher hr hx
    rw [hinv.config.2.2, hstride] at hlt
    exact ⟨a, ha, hmax, hstale, hlt⟩

/-- Shard 1 of 2 seals before and after a rotation and a rekey on both sides. -/
theorem shard_routing_sample :
    let calls : List LaneCall := [.frame (.seal 0 [1] [2]), .frame (sampleOpen 1 1), .frame (.seal (hours 1) [1] [2]),
      .frame (sampleOpen 3 1), .rekeySender (hours 1) (sampleDh 8), .frame (.seal (hours 1) [1] [2]),
      .rekeyReceiver (hours 1) (sampleDh 8)]
    ∀ r ∈ (run (World.laneStep sampleAead) (World.start (Engine.shardKeys (.new 0 (sampleDh 7) true) 0 2 1)
        (Engine.shardKeys (.new 0 (sampleDh 7) false) 0 2 1)) calls).1.tx.history,
      r.epoch.toNat % (2 : UInt64).toNat = 1 := by
  intro calls
  have hsplit : ∀ initiator, ∃ shards config,
      (({ sampleEngine with state := .established, keys := some (.new 0 (sampleDh 7) initiator) } : Engine).splitShards
        0 2).2 = .ok (shards, config) ∧
      shards[1]? = some (Engine.shardKeys (.new 0 (sampleDh 7) initiator) 0 2 1) := by
    intro initiator
    exact ⟨_, _, rfl, rfl⟩
  obtain ⟨_, _, hsplit1, htx⟩ := hsplit true
  obtain ⟨_, _, hsplit2, hrx⟩ := hsplit false
  have hideal : Along (World.laneStep sampleAead) (World.LaneIdeal sampleAead)
      (World.start (Engine.shardKeys (.new 0 (sampleDh 7) true) 0 2 1)
        (Engine.shardKeys (.new 0 (sampleDh 7) false) 0 2 1)) calls := by
    decide +kernel
  have hrouting := shard_routing sampleAead hsplit1 hsplit2 htx hrx rfl hideal (by decide +kernel)
  exact fun r hr => (hrouting.2 r hr).1

end IPv8Plus.Tunnel
