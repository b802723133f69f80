import IPv8Plus.Tunnel.Engine

/-!
# Nonces across the split into shards

A node is an engine that seals frames itself until its keys are split, and then the shards. Every shard
keeps to the epochs of its own residue modulo the number of shards, so shards never share an epoch. But
shard `i` starts in epoch `i` with counters at 0, whatever the engine sealed in that epoch before the split.
-/

namespace IPv8Plus.Tunnel
open Lib

/-- An engine and its shards. `retired` is what the engine itself sealed before the split. -/
structure Node where
  engine : Engine
  retired : List Encryption
  shards : List TunnelKeys

/-- A call to the engine, the split, or a call to shard `i`. -/
inductive NodeCall where
  | engine (c : Engine.Call)
  | split (now : Nat) (n : UInt64)
  | «seal» (i : Nat) (now : Nat) (aad plaintext : Bytes)
  | sealReceipt (i : Nat) (now : Nat) (plaintext : Bytes)

namespace Node

variable (A : Aead)

/-- A node at the end of a handshake. -/
def established (e : Engine) (now : Nat) (dh : Dh) (isInitiator : Bool) : Node where
  engine := e.install (TunnelKeys.new now dh isInitiator)
  retired := []
  shards := []

/-- What the engine itself sealed. -/
def parentHistory (s : Node) : List Encryption :=
  match s.engine.keys with
  | some keys => keys.history
  | none => s.retired

/-- All encryptions of a node. -/
def history (s : Node) : List Encryption := s.parentHistory ++ s.shards.flatMap (·.history)

def sealShard (s : Node) (i : Nat) (kind : FrameKind) (now : Nat) (aad plaintext : Bytes) :
    Node × Option (List Bytes) :=
  match s.shards[i]? with
  | none => (s, none)
  | some k =>
    let (k, keyId, body) := k.sealWith A kind now aad plaintext
    ({ s with shards := s.shards.set i k }, some [keyId.val, body])

def step (s : Node) : NodeCall → Node × Option (List Bytes)
  | .engine c =>
    let (engine, x) := s.engine.step A c
    ({ s with engine }, x)
  | .split now n =>
    match s.engine.splitShards now n with
    | (engine, .ok (shards, _)) => ({ engine, retired := s.parentHistory, shards }, none)
    | (engine, _) => ({ s with engine }, none)
  | .seal i now aad plaintext => s.sealShard A i .data now aad plaintext
  | .sealReceipt i now plaintext => s.sealShard A i .receipt now [] plaintext

/-- The engine sealed a frame of this kind in this epoch. -/
def ParentUsed (s : Node) (kind : FrameKind) (epoch : UInt64) : Prop :=
  ∃ r ∈ s.parentHistory, r.kind = kind ∧ r.epoch = epoch

instance (s : Node) (kind : FrameKind) (epoch : UInt64) : Decidable (s.ParentUsed kind epoch) :=
  inferInstanceAs (Decidable (∃ r ∈ _, _))

/-- Shard `i` may seal: its epoch does not wrap around, and the engine sealed no frame of the kind in it. -/
def ShardAllows (s : Node) (i : Nat) (kind : FrameKind) (now : Nat) : Prop :=
  ∀ k ∈ s.shards[i]?, k.NoWrap now ∧ ¬ s.ParentUsed kind (k.rotateIfDue now).sendEpoch

instance (s : Node) (i : Nat) (kind : FrameKind) (now : Nat) : Decidable (s.ShardAllows i kind now) :=
  inferInstanceAs (Decidable (∀ k ∈ s.shards[i]?, _))

def Allows (s : Node) : NodeCall → Prop
  | .engine _ => True
  | .split _ _ => True
  | .seal i now _ _ => s.ShardAllows i .data now
  | .sealReceipt i now _ => s.ShardAllows i .receipt now

instance (s : Node) (c : NodeCall) : Decidable (s.Allows c) := by
  cases c <;> unfold Allows <;> infer_instance

end Node

/-- The keys the engine seals with. Counting frames bounds the epoch: every rotation comes with a frame. -/
structure TunnelKeys.ParentKeys (i : Bool) (k : TunnelKeys) : Prop where
  tidy : k.Tidy
  isInitiator : k.isInitiator = i
  ordered : k.history.length < 2 ^ 64 →
    k.Ordered ∧ k.stride = 1 ∧ k.sendEpoch.toNat ≤ k.history.length

/-- The keys of shard `j` of `n` beside what the engine sealed. -/
structure TunnelKeys.ShardKeys (i : Bool) (parent : List Encryption) (n j : Nat) (k : TunnelKeys) : Prop where
  tidy : k.Tidy
  isInitiator : k.isInitiator = i
  ordered : k.Ordered
  stride : k.stride.toNat = n
  residue : k.sendEpoch.toNat % n = j
  own : ∀ r ∈ k.history, r.epoch.toNat % n = j
  fresh : ∀ r ∈ k.history, ∀ q ∈ parent, ¬ (q.kind = r.kind ∧ q.epoch = r.epoch)

namespace TunnelKeys

variable {k : TunnelKeys} {A : Aead} {i : Bool} {now : Nat} {kind : FrameKind} {aad plaintext : Bytes}

lemma ParentKeys.sealWith (h : k.ParentKeys i) : (k.sealWith A kind now aad plaintext).1.ParentKeys i := by
  have ht : (k.sealWith A kind now aad plaintext).1.Tidy := sealWith_tidy A h.tidy
  have hstep := sealWith_eq A kind now aad plaintext h.tidy.cache
  constructor
  · exact ht
  · rw [hstep, record_isInitiator, rotateIfDue_isInitiator]
    exact h.isInitiator
  · rw [hstep, record_history, List.length_cons, rotateIfDue_history, record_stride, rotateIfDue_stride,
      record_sendEpoch, ← hstep]
    intro hlen
    obtain ⟨ho, hstride, hepoch⟩ := h.ordered (Nat.lt_of_succ_lt hlen)
    have hone : k.stride.toNat = 1 := by rw [hstride]; rfl
    have hw : k.NoWrap now := fun _ => by omega
    refine ⟨sealWith_ordered A h.tidy ho hw, hstride, ?_⟩
    rcases hw.toNat_sendEpoch with e | e
    · omega
    · omega

lemma ShardKeys.sealWith {parent : List Encryption} {n j : Nat} (h : k.ShardKeys i parent n j)
    (hw : k.NoWrap now)
    (hfresh : ∀ q ∈ parent, ¬ (q.kind = kind ∧ q.epoch = (k.rotateIfDue now).sendEpoch)) :
    (k.sealWith A kind now aad plaintext).1.ShardKeys i parent n j := by
  have ht : (k.sealWith A kind now aad plaintext).1.Tidy := sealWith_tidy A h.tidy
  have ho : (k.sealWith A kind now aad plaintext).1.Ordered := sealWith_ordered A h.tidy h.ordered hw
  have hstep := sealWith_eq A kind now aad plaintext h.tidy.cache
  have hresidue : (k.rotateIfDue now).sendEpoch.toNat % n = j := by
    rcases hw.toNat_sendEpoch with e | e
    · rw [e]
      exact h.residue
    · rw [e, h.stride, Nat.add_mod_right]
      exact h.residue
  constructor
  · exact ht
  · rw [hstep, record_isInitiator, rotateIfDue_isInitiator]
    exact h.isInitiator
  · exact ho
  · rw [hstep, record_stride, rotateIfDue_stride]
    exact h.stride
  · rw [hstep, record_sendEpoch]
    exact hresidue
  · rw [hstep, record_history, rotateIfDue_history]
    intro r hr
    rcases List.mem_cons.mp hr with rfl | hr
    · exact hresidue
    · exact h.own r hr
  · rw [hstep, record_history, rotateIfDue_history]
    intro r hr
    rcases List.mem_cons.mp hr with rfl | hr
    · exact hfresh
    · exact h.fresh r hr

/-- A new shard has sealed nothing. -/
lemma shardKeys_start {base : TunnelKeys} (hbase : base.isInitiator = i) (parent : List Encryption) {n : UInt64}
    {j : Nat} (hj : j < n.toNat) : (Engine.shardKeys base now n j).ShardKeys i parent n.toNat j where
  tidy := .of_reset rfl rfl rfl nofun
  isInitiator := hbase
  ordered := ⟨Nat.zero_lt_of_lt hj, nofun, List.nodup_nil⟩
  stride := rfl
  residue := by
    show (UInt64.ofNat j).toNat % n.toNat = j
    rw [UInt64.toNat_ofNat_of_lt' (hj.trans n.toNat_lt), Nat.mod_eq_of_lt hj]
  own := nofun
  fresh := nofun

end TunnelKeys

namespace Node

/-- What holds of a node in every state of a run: either the engine has keys and there are no shards, or the
keys are split. -/
structure Inv (i : Bool) (s : Node) : Prop where
  parent : ∀ k ∈ s.engine.keys, k.ParentKeys i ∧ s.shards = []
  proper : ∀ r ∈ s.retired, r.Proper i
  unique : s.retired.length < 2 ^ 64 → NonceUnique s.retired
  shards : ∀ (j : Nat) (k : TunnelKeys), s.shards[j]? = some k →
    k.ShardKeys i s.parentHistory s.shards.length j

variable {A : Aead} {i : Bool} {s : Node}

lemma parentHistory_of_keys {k : TunnelKeys} (h : s.engine.keys = some k) : s.parentHistory = k.history := by
  unfold parentHistory
  rw [h]

lemma parentHistory_of_none (h : s.engine.keys = none) : s.parentHistory = s.retired := by
  unfold parentHistory
  rw [h]

lemma Inv.parentProper (h : s.Inv i) : ∀ r ∈ s.parentHistory, r.Proper i := by
  cases hkeys : s.engine.keys with
  | none =>
    rw [parentHistory_of_none hkeys]
    exact h.proper
  | some k =>
    have hk := (h.parent k hkeys).1
    rw [parentHistory_of_keys hkeys, ← hk.isInitiator]
    exact hk.tidy.proper

lemma Inv.parentUnique (h : s.Inv i) (hlen : s.parentHistory.length < 2 ^ 64) : NonceUnique s.parentHistory := by
  cases hkeys : s.engine.keys with
  | none =>
    rw [parentHistory_of_none hkeys] at hlen ⊢
    exact h.unique hlen
  | some k =>
    rw [parentHistory_of_keys hkeys] at hlen ⊢
    exact ((h.parent k hkeys).1.ordered hlen).1.unique

/-- Once there are shards, the engine has no keys. -/
lemma Inv.keys_none (h : s.Inv i) {j : Nat} {k : TunnelKeys} (hk : s.shards[j]? = some k) :
    s.engine.keys = none := by
  cases hkeys : s.engine.keys with
  | none => rfl
  | some base =>
    rw [(h.parent base hkeys).2] at hk
    cases hk

lemma inv_established (e : Engine) (now : Nat) (dh : Dh) (i : Bool) : (established e now dh i).Inv i where
  parent := by
    rintro k ⟨⟩
    have hunused : (TunnelKeys.new now dh i).Unused := (TunnelKeys.Built.new now dh i).unused
    refine ⟨?_, rfl⟩
    rcases (TunnelKeys.new now dh i).setSuite_cases e.cipherSuite with h | h
    · rw [h]
      exact ⟨hunused.tidy, rfl, fun _ => ⟨hunused.ordered, rfl, Nat.zero_le _⟩⟩
    · rw [h]
      exact ⟨.of_reset rfl rfl rfl nofun, rfl, fun _ => ⟨⟨Nat.one_pos, nofun, List.nodup_nil⟩, rfl, Nat.zero_le _⟩⟩
  proper := nofun
  unique := fun _ => List.nodup_nil
  shards := nofun

/-- A call to the engine. -/
lemma Inv.engine (h : s.Inv i) (c : Engine.Call) : (s.step A (.engine c)).1.Inv i where
  parent := Engine.step_keys (P := fun k => k.ParentKeys i ∧ s.shards = [])
    (fun _ _ _ _ _ hk => ⟨hk.1.sealWith, hk.2⟩) h.parent c
  proper := h.proper
  unique := h.unique
  shards := by
    intro j k hk
    have hnone := h.keys_none hk
    have hnone' : (s.engine.step A c).1.keys = none := by
      apply Option.eq_none_iff_forall_not_mem.mpr
      exact Engine.step_keys (P := fun _ => False) (fun _ _ _ _ _ hk => hk)
        (by rw [hnone]; exact nofun) c
    have hsame : (s.step A (.engine c)).1.parentHistory = s.parentHistory := by
      rw [parentHistory_of_none hnone, parentHistory_of_none hnone']
      rfl
    rw [hsame]
    exact h.shards j k hk

/-- The split: the new shards have sealed nothing. -/
lemma Inv.split (h : s.Inv i) (now : Nat) (n : UInt64) : (s.step A (.split now n)).1.Inv i := by
  rcases s.engine.splitShards_cases now n with e | ⟨base, hbase, _, e⟩
  · simp only [step, e]
    exact h
  simp only [step, e]
  refine ⟨nofun, h.parentProper, h.parentUnique, ?_⟩
  intro j k hk
  obtain ⟨hj, rfl⟩ : j < n.toNat ∧ k = Engine.shardKeys base now n j := by
    rw [List.getElem?_map, Option.map_eq_some_iff] at hk
    obtain ⟨j', hj', rfl⟩ := hk
    obtain ⟨hlt, e⟩ := List.getElem?_eq_some_iff.mp hj'
    rw [List.getElem_range] at e
    rw [List.length_range] at hlt
    exact ⟨hlt, by rw [e]⟩
  rw [List.length_map, List.length_range]
  exact TunnelKeys.shardKeys_start (h.parent base hbase).1.isInitiator _ hj

/-- A frame of a shard. -/
lemma Inv.sealShard (h : s.Inv i) {j : Nat} {kind : FrameKind} {now : Nat} {aad plaintext : Bytes}
    (hallows : s.ShardAllows j kind now) : (s.sealShard A j kind now aad plaintext).1.Inv i := by
  unfold Node.sealShard
  split
  · exact h
  next k hk =>
  obtain ⟨hw, hfresh⟩ := hallows k hk
  have hnone := h.keys_none hk
  refine ⟨?_, h.proper, h.unique, ?_⟩
  · intro base hbase
    rw [show s.engine.keys = some base from hbase] at hnone
    cases hnone
  · intro j' k' hk'
    rw [List.length_set]
    rw [List.getElem?_set] at hk'
    split at hk'
    · next hj =>
      subst hj
      split at hk'
      · cases hk'
        exact (h.shards j k hk).sealWith hw fun q hq e => hfresh ⟨q, hq, e⟩
      · cases hk'
    · exact h.shards j' k' hk'

/-- Every allowed call keeps the invariant. -/
theorem step_inv (h : s.Inv i) {c : NodeCall} (hc : s.Allows c) : (s.step A c).1.Inv i := by
  cases c with
  | engine c => exact h.engine c
  | split now n => exact h.split now n
  | «seal» j now aad plaintext => exact h.sealShard hc
  | sealReceipt j now plaintext => exact h.sealShard hc

/-- Shards have no epoch in common with each other, nor epoch and kind with the engine. -/
theorem Inv.nonceUnique (h : s.Inv i) (hlen : s.parentHistory.length < 2 ^ 64) : NonceUnique s.history := by
  have hproper : ∀ (j : Nat) (k : TunnelKeys), s.shards[j]? = some k → ∀ r ∈ k.history, r.Proper i := by
    intro j k hk
    have hs := h.shards j k hk
    rw [← hs.isInitiator]
    exact hs.tidy.proper
  unfold NonceUnique history
  rw [List.map_append, List.map_flatMap, List.nodup_append]
  refine ⟨h.parentUnique hlen, List.nodup_flatMap.mpr ⟨?_, ?_⟩, ?_⟩
  · intro k hk
    obtain ⟨j, hj⟩ := List.getElem?_of_mem hk
    exact (h.shards j k hj).ordered.unique
  · rw [List.pairwise_iff_getElem]
    intro j j' hj hj' hlt
    apply List.disjoint_left.mpr
    intro x hx hx'
    obtain ⟨r, hr, rfl⟩ := List.mem_map.mp hx
    obtain ⟨r', hr', e⟩ := List.mem_map.mp hx'
    obtain ⟨hcipher, hnonce⟩ := Prod.mk.inj e
    have hk := List.getElem?_eq_getElem hj
    have hk' := List.getElem?_eq_getElem hj'
    have hepoch := ((hproper j' _ hk' r' hr').key_inj (hproper j _ hk r hr) hcipher hnonce).1
    have hown := (h.shards j _ hk).own r hr
    have hown' := (h.shards j' _ hk').own r' hr'
    rw [hepoch, hown] at hown'
    exact absurd hown' (Nat.ne_of_lt hlt)
  · intro x hx y hy e
    subst e
    obtain ⟨q, hq, rfl⟩ := List.mem_map.mp hx
    obtain ⟨k, hk, hy⟩ := List.mem_flatMap.mp hy
    obtain ⟨r, hr, e⟩ := List.mem_map.mp hy
    obtain ⟨hcipher, hnonce⟩ := Prod.mk.inj e
    obtain ⟨j, hj⟩ := List.getElem?_of_mem hk
    obtain ⟨hepoch, hkind, _⟩ := (hproper j k hj r hr).key_inj (h.parentProper q hq) hcipher hnonce
    exact (h.shards j k hj).fresh r hr q hq ⟨hkind.symm, hepoch.symm⟩

end Node

open Node

/-- In every run of a node whose engine seals fewer than `2 ^ 64` frames, in which no shard's epoch wraps
around and no shard seals a kind of frame in an epoch in which the engine sealed that kind, no two
encryptions share cipher and nonce. -/
theorem nonceUnique_split (A : Aead) (e : Engine) (now : Nat) (dh : Dh) (isInitiator : Bool)
    {calls : List NodeCall} (h : Along (Node.step A) Allows (established e now dh isInitiator) calls)
    (hlen : (run (Node.step A) (established e now dh isInitiator) calls).1.parentHistory.length < 2 ^ 64) :
    NonceUnique (run (Node.step A) (established e now dh isInitiator) calls).1.history :=
  (invariant_run (I := Inv isInitiator) (fun _ _ hs hc => step_inv hs hc)
    (inv_established e now dh isInitiator) h).nonceUnique hlen

/-- An engine before its handshake. -/
def sampleEngine : Engine where
  state := .idle
  keys := none
  cipherSuite := .aes256Gcm
  localAddr := ⟨0xFB14, 0, 0, 0, 0, 0, 0, 0⟩
  peerAddr := ⟨0xFB15, 0, 0, 0, 0, 0, 0, 0⟩
  mtu := 1472
  fragId := 0
  sealedOutbound := 0
  fragmentsSent := 0
  sharded := false

/-- The first shard starts in the engine's epoch, at the engine's first counter. -/
theorem nonce_reused_after_split :
    ¬ NonceUnique (run (Node.step sampleAead) (established sampleEngine 0 (sampleDh 7) true)
      [.engine (.sealFrame 0 [0x45]), .split 0 1, .seal 0 0 [1] [2]]).1.history := by
  decide +kernel

/-- Two shards, of which the first waits for its next epoch with data frames. -/
theorem nonceUnique_split_waiting :
    NonceUnique (run (Node.step sampleAead) (established sampleEngine 0 (sampleDh 7) true)
      [.engine (.sealFrame 0 [0x45]), .split 0 2, .seal 1 0 [1] [2], .sealReceipt 0 0 [3],
        .seal 0 (hours 1) [4] [5]]).1.history :=
  nonceUnique_split sampleAead sampleEngine 0 (sampleDh 7) true (by decide +kernel) (by decide +kernel)

end IPv8Plus.Tunnel
