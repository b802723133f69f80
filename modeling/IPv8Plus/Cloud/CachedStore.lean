import IPv8Plus.Cloud.Store
import IPv8Plus.Lib.Lru
import IPv8Plus.Lib.Run

/-!
# A cache before a store

`cloud/resolver/src/cached_store.rs`: entries are kept in a bounded cache, and absent addresses for some time in a
table of their own. What is cached is stored, and what is known to be absent is not: a store behind the cache answers as
it does by itself, except that remembering an absent address panics when the time to remember it for is past the end
of the clock.
-/

namespace IPv8Plus.Cloud
open Lib Codec

structure CacheConfig where
  maxEntries : ℕ
  negativeTtl : Duration

structure CachedStore (L : Lru IPv8Address Entry) (S : Type) where
  inner : S
  config : CacheConfig
  cache : L.Cache
  negative : AddrMap Instant

namespace CachedStore

variable {L : Lru IPv8Address Entry} {S : Type} [Store S]

omit [Store S] in
def new (inner : S) (config : CacheConfig) : Outcome Empty (CachedStore L S) :=
  if h : 0 < config.maxEntries then .ok ⟨inner, config, L.new config.maxEntries h, ∅⟩ else .panic

/-- Neither of the two caches knew the address. -/
def miss (s : CachedStore L S) (clock : ℕ → Reading) (addr : IPv8Address) :
    CachedStore L S × Outcome Empty (Option Entry) :=
  let (inner, result) := Store.get s.inner (fun i => clock (i + 2)) addr
  match result with
  | .ok (some e) => ({ s with inner := inner, cache := L.put s.cache addr e }, .ok (some e))
  | .ok none =>
    match checkedAdd (clock 1).instant s.config.negativeTtl with
    | some expiresAt => ({ s with inner := inner, negative := s.negative.insert addr expiresAt }, .ok none)
    | none => ({ s with inner := inner }, .panic)
  | .err e => ({ s with inner := inner }, .err e)
  | .panic => ({ s with inner := inner }, .panic)

def get (s : CachedStore L S) (clock : ℕ → Reading) (addr : IPv8Address) :
    CachedStore L S × Outcome Empty (Option Entry) :=
  match L.get s.cache addr with
  | (cache, some e) => ({ s with cache := cache }, .ok (some e))
  | (cache, none) =>
    match s.negative[addr]? with
    | some expiresAt =>
      if (clock 0).instant < expiresAt then ({ s with cache := cache }, .ok none)
      else { s with cache := cache, negative := s.negative.erase addr }.miss clock addr
    | none => { s with cache := cache }.miss clock addr

def insert (s : CachedStore L S) (clock : ℕ → Reading) (addr : IPv8Address) (e : Entry) : CachedStore L S :=
  { s with
    inner := Store.insert s.inner clock addr e
    cache := L.put s.cache addr e
    negative := s.negative.erase addr }

def sweepExpired (s : CachedStore L S) (clock : ℕ → Reading) (now : Instant) : CachedStore L S × ℕ :=
  let (inner, removedInner) := Store.sweepExpired s.inner clock now
  let expiredKeys := ((L.iter s.cache).filter fun x => x.2.record.isExpired now).map Prod.fst
  ({ s with
      inner := inner
      cache := expiredKeys.foldl L.pop s.cache
      negative := s.negative.filter fun _ expires => now < expires },
    removedInner + expiredKeys.length)

instance : Store (CachedStore L S) where
  get := get
  insert := insert
  sweepExpired := sweepExpired
  len s := Store.len s.inner

section Transparent

variable [LawfulStore S]

/-- What is cached is stored, and what is known to be absent is not. -/
structure Transparent (s : CachedStore L S) : Prop where
  inner : LawfulStore.Valid s.inner
  cached : ∀ {a e}, L.peek s.cache a = some e → LawfulStore.view s.inner a = some e
  negative : ∀ {a}, a ∈ s.negative → LawfulStore.view s.inner a = none

variable {s : CachedStore L S} {clock : ℕ → Reading} {a b : IPv8Address} {e : Entry} {now : Instant}

lemma transparent_new {inner : S} {config : CacheConfig} (hinner : LawfulStore.Valid inner)
    (h : CachedStore.new inner config = .ok s) : Transparent s := by
  rw [CachedStore.new] at h
  split at h
  · cases h
    refine ⟨hinner, fun hpeek => ?_, fun hmem => absurd hmem Std.ExtTreeMap.not_mem_empty⟩
    rw [L.peek_new] at hpeek
    cases hpeek
  · cases h

/-- What a call may leave of the caches. -/
lemma Transparent.drop {cache : L.Cache} {negative : AddrMap Instant} (h : Transparent s)
    (hcache : ∀ a e, L.peek cache a = some e → L.peek s.cache a = some e) (hnegative : ∀ a ∈ negative, a ∈ s.negative) :
    Transparent { s with cache := cache, negative := negative } :=
  ⟨h.inner, fun hpeek => h.cached (hcache _ _ hpeek), fun hmem => h.negative (hnegative _ hmem)⟩

lemma Transparent.touch (h : Transparent s) : Transparent { s with cache := (L.get s.cache a).1 } :=
  h.drop (fun b _ hpeek => (L.peek_get s.cache a b).symm.trans hpeek) fun _ hmem => hmem

/-- A miss asks the store behind the cache. -/
lemma Transparent.miss (h : Transparent s) : Transparent (s.miss clock a).1 ∧
    LawfulStore.view (s.miss clock a).1.inner = LawfulStore.view s.inner ∧
    Tells (LawfulStore.view s.inner a) (s.miss clock a).2 := by
  have hvalid := LawfulStore.get_valid s.inner (fun i => clock (i + 2)) a h.inner
  have hview := LawfulStore.get_view s.inner (fun i => clock (i + 2)) a h.inner
  have hinner : Transparent { s with inner := (Store.get s.inner (fun i => clock (i + 2)) a).1 } :=
    ⟨hvalid, fun hpeek => hview ▸ h.cached hpeek, fun hmem => hview ▸ h.negative hmem⟩
  rw [CachedStore.miss]
  rcases LawfulStore.get_answer s.inner (fun i => clock (i + 2)) a h.inner with hok | ⟨hnone, hpanic⟩
  · dsimp only
    rw [hok]
    cases hstored : LawfulStore.view s.inner a with
    | some e =>
      refine ⟨⟨hvalid, fun {b e'} hpeek => ?_, hinner.negative⟩, hview, .inl rfl⟩
      by_cases hab : a = b
      · subst hab
        rw [L.peek_put_self] at hpeek
        rw [hview, hstored]
        exact hpeek
      · rcases L.peek_put_ne s.cache a e b hab with hsame | hnone
        · exact hinner.cached (hsame.symm.trans hpeek)
        · rw [hnone] at hpeek
          cases hpeek
    | none =>
      dsimp only
      cases checkedAdd (clock 1).instant s.config.negativeTtl with
      | some expiresAt =>
        refine ⟨⟨hvalid, hinner.cached, fun {b} hmem => ?_⟩, hview, .inl rfl⟩
        rcases Std.ExtTreeMap.mem_insert.mp hmem with he | hmem
        · rw [← Std.LawfulEqCmp.compare_eq_iff_eq.mp he, hview]
          exact hstored
        · exact hinner.negative hmem
      | none => exact ⟨hinner, hview, .inr ⟨rfl, rfl⟩⟩
  · dsimp only
    rw [hpanic]
    exact ⟨hinner, hview, .inr ⟨hnone, rfl⟩⟩

lemma Transparent.get (h : Transparent s) : Transparent (s.get clock a).1 ∧
    LawfulStore.view (s.get clock a).1.inner = LawfulStore.view s.inner ∧
    Tells (LawfulStore.view s.inner a) (s.get clock a).2 := by
  have htouch := h.touch (a := a)
  have hanswer := L.get_answer s.cache a
  rw [CachedStore.get]
  cases hget : L.get s.cache a with
  | mk cache found =>
    rw [hget] at htouch hanswer
    cases found with
    | some e => exact ⟨htouch, rfl, .inl (by rw [h.cached hanswer.symm])⟩
    | none =>
      dsimp only
      cases hneg : s.negative[a]? with
      | none => exact htouch.miss
      | some expiresAt =>
        dsimp only
        have hmem : a ∈ s.negative := Std.ExtTreeMap.mem_iff_isSome_getElem?.mpr (Option.isSome_of_mem hneg)
        split
        · exact ⟨htouch, rfl, .inl (by rw [h.negative hmem])⟩
        · exact (htouch.drop (fun _ _ hpeek => hpeek) fun _ => Std.ExtTreeMap.mem_of_mem_erase).miss

lemma Transparent.insert (h : Transparent s) : Transparent (s.insert clock a e) := by
  have hview := LawfulStore.insert_view s.inner clock a
  refine ⟨LawfulStore.insert_valid s.inner clock a e h.inner, fun {b e'} hpeek => ?_, fun {b} hmem => ?_⟩
  · rw [CachedStore.insert] at hpeek ⊢
    rw [hview b e h.inner]
    by_cases hab : a = b
    · subst hab
      rw [if_pos rfl]
      exact (L.peek_put_self s.cache a e).symm.trans hpeek
    · rw [if_neg hab]
      rcases L.peek_put_ne s.cache a e b hab with hsame | hnone
      · exact h.cached (hsame.symm.trans hpeek)
      · rw [hnone] at hpeek
        cases hpeek
  · rw [CachedStore.insert] at hmem ⊢
    have hmem' := Std.ExtTreeMap.mem_erase.mp hmem
    have hab : a ≠ b := fun he => hmem'.1 (Std.LawfulEqCmp.compare_eq_iff_eq.mpr he)
    rw [hview b e h.inner, if_neg hab]
    exact h.negative hmem'.2

omit [Store S] [LawfulStore S] in
lemma peek_foldl_pop {keys : List IPv8Address} {cache : L.Cache} :
    L.peek (keys.foldl L.pop cache) b = if b ∈ keys then none else L.peek cache b := by
  induction keys generalizing cache with
  | nil => rfl
  | cons k keys ih =>
    rw [List.foldl_cons, ih]
    by_cases hmem : b ∈ keys
    · rw [if_pos hmem, if_pos (List.mem_cons_of_mem _ hmem)]
    · by_cases hk : k = b
      · subst hk
        rw [if_neg hmem, if_pos List.mem_cons_self]
        exact L.peek_pop_self cache k
      · rw [if_neg hmem, if_neg fun h => (List.mem_cons.mp h).elim (hk ∘ Eq.symm) hmem]
        exact L.peek_pop_ne cache k b hk

omit [LawfulStore S] in
/-- What is left in the cache after a sweep. -/
lemma peek_sweepExpired (hpeek : L.peek (s.sweepExpired clock now).1.cache a = some e) :
    L.peek s.cache a = some e ∧ e.record.isExpired now = false := by
  rw [CachedStore.sweepExpired] at hpeek
  dsimp only at hpeek
  rw [peek_foldl_pop] at hpeek
  split at hpeek
  · cases hpeek
  · next hmem =>
    refine ⟨hpeek, Bool.eq_false_iff.mpr fun hexp => hmem ?_⟩
    exact List.mem_map.mpr ⟨(a, e), List.mem_filter.mpr ⟨(L.mem_iter _ _ _).mpr hpeek, hexp⟩, rfl⟩

lemma Transparent.sweepExpired (h : Transparent s) : Transparent (s.sweepExpired clock now).1 := by
  have hview := fun a => LawfulStore.sweep_view s.inner clock now a h.inner
  refine ⟨LawfulStore.sweep_valid s.inner clock now h.inner, fun {a e} hpeek => ?_, fun {a} hmem => ?_⟩
  · obtain ⟨hold, hlive⟩ := peek_sweepExpired hpeek
    rw [CachedStore.sweepExpired]
    dsimp only
    rw [hview, h.cached hold, Option.filter_some, hlive]
    rfl
  · have hold : a ∈ s.negative := Std.ExtTreeMap.mem_of_mem_filter hmem
    rw [CachedStore.sweepExpired]
    dsimp only
    rw [hview, h.negative hold]
    rfl

instance : LawfulStore (CachedStore L S) where
  Valid := Transparent
  view s := LawfulStore.view s.inner
  get_valid _ _ _ h := h.get.1
  get_view _ _ _ h := h.get.2.1
  get_answer _ _ _ h := h.get.2.2
  insert_valid _ _ _ _ h := h.insert
  insert_view s clock a b e h := LawfulStore.insert_view s.inner clock a b e h.inner
  sweep_valid _ _ _ h := h.sweepExpired
  sweep_view s clock now a h := LawfulStore.sweep_view s.inner clock now a h.inner

end Transparent

section Memory

variable {s : CachedStore L MemStore} {clock : ℕ → Reading} {a : IPv8Address} {o : StoreCall} {ops : List StoreCall}

/-- An address that is absent, and not known to be, can be remembered as absent. -/
def Fits (s : CachedStore L MemStore) : StoreCall → Prop
  | .get clock a => s.inner.get a = none → (∀ t, s.negative[a]? = some t → t ≤ (clock 0).instant) →
      (checkedAdd (clock 1).instant s.config.negativeTtl).isSome = true
  | _ => True

lemma miss_inner : (s.miss clock a).1.inner = s.inner := by
  rw [miss]
  dsimp only [Store.get]
  cases s.inner.get a with
  | some e => rfl
  | none => cases checkedAdd (clock 1).instant s.config.negativeTtl <;> rfl

lemma get_inner : (s.get clock a).1.inner = s.inner := by
  rw [get]
  split
  · rfl
  · split
    · split
      · rfl
      · exact miss_inner
    · exact miss_inner

/-- A miss panics when the address is absent and cannot be remembered. -/
lemma miss_answer : (s.miss clock a).2 = .ok (s.inner.get a) ↔
    (s.inner.get a = none → (checkedAdd (clock 1).instant s.config.negativeTtl).isSome = true) := by
  rw [miss]
  dsimp only [Store.get]
  cases s.inner.get a with
  | some e => simp
  | none => cases checkedAdd (clock 1).instant s.config.negativeTtl <;> simp

lemma get_answer (h : Transparent s) : (s.get clock a).2 = .ok (s.inner.get a) ↔ Fits s (.get clock a) := by
  have hanswer := L.get_answer s.cache a
  rw [get, Fits]
  cases hget : L.get s.cache a with
  | mk cache found =>
    rw [hget] at hanswer
    cases found with
    | some e =>
      have hstored : s.inner.get a = some e := h.cached hanswer.symm
      rw [hstored]
      simp
    | none =>
      dsimp only
      cases hneg : s.negative[a]? with
      | none =>
        rw [miss_answer]
        simp
      | some expiresAt =>
        have hmem : a ∈ s.negative := Std.ExtTreeMap.mem_iff_isSome_getElem?.mpr (Option.isSome_of_mem hneg)
        have habsent : s.inner.get a = none := h.negative hmem
        dsimp only
        split
        · next hlt =>
          rw [habsent]
          simp only [true_iff, forall_const, Option.some.injEq, forall_eq']
          exact fun hle => absurd hlt (not_lt.mpr hle)
        · next hle =>
          rw [miss_answer]
          simp only [habsent, forall_const, Option.some.injEq, forall_eq', not_lt.mp hle]

lemma step_inner : (Store.step s o).1.inner = (Store.step s.inner o).1 := by
  cases o with
  | get clock a => exact get_inner
  | insert clock a e => rfl
  | sweepExpired clock now => rfl
  | len => rfl

lemma Transparent.step (h : Transparent s) : Transparent (Store.step s o).1 := by
  cases o with
  | get clock a => exact h.get.1
  | insert clock a e => exact h.insert
  | sweepExpired clock now =>
    show Transparent (s.sweepExpired clock now).1
    exact h.sweepExpired
  | len => exact h

lemma step_reads (h : Transparent s) : (Store.step s o).2.reads = (Store.step s.inner o).2.reads ↔ Fits s o := by
  cases o with
  | get clock a =>
    rw [← get_answer h]
    exact ⟨fun he => StoreAnswer.got.inj he, fun he => congrArg StoreAnswer.got he⟩
  | insert clock a e => exact iff_of_true rfl trivial
  | sweepExpired clock now => exact iff_of_true rfl trivial
  | len => exact iff_of_true rfl trivial

lemma run_reads (h : Transparent s) : (run Store.step s ops).2.map StoreAnswer.reads =
    (run Store.step s.inner ops).2.map StoreAnswer.reads ↔ Along Store.step Fits s ops := by
  induction ops generalizing s with
  | nil => exact iff_of_true rfl trivial
  | cons o ops ih =>
    rw [run_cons, run_cons, List.map_cons, List.map_cons, List.cons.injEq, along_cons, step_reads h, ← step_inner,
      ih h.step]

/-- Every `get` and `len` answers as the store in memory does by itself exactly when no time to remember an absent
address for is past the end of the clock. -/
theorem transparent_iff {inner : MemStore} {config : CacheConfig} (h : CachedStore.new (L := L) inner config = .ok s)
    (ops : List StoreCall) : (run Store.step s ops).2.map StoreAnswer.reads =
      (run Store.step inner ops).2.map StoreAnswer.reads ↔ Along Store.step Fits s ops := by
  have hinner : s.inner = inner := by
    rw [CachedStore.new] at h
    split at h
    · cases h
      rfl
    · cases h
  rw [← hinner]
  exact run_reads (transparent_new trivial h)

def sampleAddress : IPv8Address := ⟨1, 2, 3, 4, 5, 6, 7, 8⟩

lemma length_zeroKey : (List.replicate 32 (0 : UInt8)).length = 32 := rfl

def sampleEntry (registeredAt : Instant) (ttl : Duration) : Entry where
  edPub := ⟨List.replicate 32 0, length_zeroKey⟩
  record := ⟨"10.0.0.1:4000", [], true, 1432, registeredAt, ttl, none, []⟩

/-- A cache of one entry before an empty store. -/
def sampleCache (negativeTtl : Duration) : CachedStore (Lru.recent IPv8Address Entry) MemStore :=
  ⟨⟨∅⟩, ⟨1, negativeTtl⟩, (Lru.recent IPv8Address Entry).new 1 Nat.one_pos, ∅⟩

lemma new_sampleCache (negativeTtl : Duration) :
    CachedStore.new ⟨∅⟩ ⟨1, negativeTtl⟩ = .ok (sampleCache negativeTtl) := rfl

/-- Absent, stored, evicted, read again. -/
theorem transparent_sample :
    let entry := sampleEntry 0 (.fromSecs 300)
    let other := { sampleAddress with sessionId := 9 }
    let calls := [.get (fun _ => ⟨0, 0⟩) sampleAddress, .insert (fun _ => ⟨1, 1⟩) sampleAddress entry,
      .insert (fun _ => ⟨2, 2⟩) other entry, .get (fun _ => ⟨3, 3⟩) sampleAddress, .len]
    (run Store.step (sampleCache (.fromSecs 10)) calls).2.map StoreAnswer.reads =
      (run Store.step (⟨∅⟩ : MemStore) calls).2.map StoreAnswer.reads :=
  (transparent_iff (new_sampleCache _) _).mpr ⟨fun _ _ => by decide, trivial, trivial, fun _ _ => by decide, trivial, trivial⟩

lemma duration_pos : 0 < 2 ^ 64 * 10 ^ 9 := by decide

/-- `Duration::MAX`. -/
def maxDuration : Duration := ⟨2 ^ 64 * 10 ^ 9 - 1, Nat.sub_one_lt_of_lt duration_pos⟩

/-- A cache that remembers absent addresses for good panics at the first of them. -/
theorem forever_panics : CachedStore.new ⟨∅⟩ ⟨1, maxDuration⟩ = .ok (sampleCache maxDuration) ∧
    (run Store.step (sampleCache maxDuration) [.get (fun _ => ⟨0, 0⟩) sampleAddress]).2 = [.got .panic] ∧
    (run Store.step (⟨∅⟩ : MemStore) [.get (fun _ => ⟨0, 0⟩) sampleAddress]).2 = [.got (.ok none)] :=
  ⟨rfl, by decide +kernel, by decide +kernel⟩

end Memory

end CachedStore

end IPv8Plus.Cloud
