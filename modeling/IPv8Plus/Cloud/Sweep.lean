import IPv8Plus.Cloud.CachedStore
import IPv8Plus.Cloud.DhtStore

/-!
# Sweeps

What `sweep_expired` leaves of a store. In memory, before or behind a database, and behind caches, a sweep takes out the
entries that have expired. The store of a ring node sweeps the node's own table, by the entries as it decodes them.
-/

namespace IPv8Plus.Cloud
open Lib Codec Routing

/-- What a `SqliteStore` writes to, with its times as seconds of the wall clock. No answer depends on it. -/
class Database (T : Type) where
  upsert : T → Reading → (ℕ → Reading) → IPv8Address → Entry → T
  deleteExpired : T → Reading → Instant → T

/-- `cloud/resolver/src/sqlite_store.rs`. -/
structure SqliteStore (T : Type) where
  cache : AddrMap Entry
  conn : T
  base : Reading

namespace SqliteStore

variable {T : Type} [Database T]

omit [Database T] in
def get (s : SqliteStore T) (addr : IPv8Address) : Option Entry := s.cache[addr]?

/-- A failed write to the database is only logged. -/
def insert (s : SqliteStore T) (clock : ℕ → Reading) (addr : IPv8Address) (e : Entry) : SqliteStore T :=
  { s with conn := Database.upsert s.conn s.base clock addr e, cache := s.cache.insert addr e }

/-- The count is that of the entries in memory. -/
def sweepExpired (s : SqliteStore T) (now : Instant) : SqliteStore T × ℕ :=
  let cache := s.cache.filter fun _ e => !e.record.isExpired now
  ({ s with cache := cache, conn := Database.deleteExpired s.conn s.base now }, s.cache.size - cache.size)

instance : Store (SqliteStore T) where
  get s _ addr := (s, .ok (s.get addr))
  insert := insert
  sweepExpired s _ now := s.sweepExpired now
  len s := s.cache.size

instance : LawfulStore (SqliteStore T) where
  Valid _ := True
  view := get
  get_valid _ _ _ _ := trivial
  get_view _ _ _ _ := rfl
  get_answer _ _ _ _ := .inl rfl
  insert_valid _ _ _ _ _ := trivial
  insert_view s _ _ _ _ _ := MemStore.get_insert (m := ⟨s.cache⟩)
  sweep_valid _ _ _ _ := trivial
  sweep_view s _ _ _ _ := MemStore.get_sweepExpired (m := ⟨s.cache⟩)

end SqliteStore

section Stores

variable {S : Type} [Store S] {s : S}

/-- What is found after a sweep is what was found before it and has not expired. -/
def Sweeps (s : S) : Prop := ∀ (clock clock₁ clock₂ : ℕ → Reading) (now : Instant) (a : IPv8Address) (e : Entry),
  (Store.get (Store.sweepExpired s clock now).1 clock₁ a).2 = .ok (some e) ↔
    (Store.get s clock₂ a).2 = .ok (some e) ∧ e.record.isExpired now = false

/-- A sweep answers how many entries there are less. -/
def CountsSwept (s : S) : Prop := ∀ (clock : ℕ → Reading) (now : Instant),
  (Store.sweepExpired s clock now).2 + Store.len (Store.sweepExpired s clock now).1 = Store.len s

variable [LawfulStore S] {clock : ℕ → Reading} {a : IPv8Address} {e : Entry} {o : StoreCall} {ops : List StoreCall}

lemma found_iff (h : LawfulStore.Valid s) : (Store.get s clock a).2 = .ok (some e) ↔ LawfulStore.view s a = some e := by
  rcases LawfulStore.get_answer s clock a h with hok | ⟨hnone, hpanic⟩
  · rw [hok, Outcome.ok.injEq]
  · rw [hnone, hpanic]
    exact iff_of_false (fun h => by cases h) (fun h => by cases h)

lemma sweeps_of_valid (h : LawfulStore.Valid s) : Sweeps s := by
  intro clock clock₁ clock₂ now a e
  rw [found_iff (LawfulStore.sweep_valid s clock now h), found_iff h, LawfulStore.sweep_view s clock now a h,
    Option.filter_eq_some_iff, Bool.not_eq_true']

lemma valid_step (h : LawfulStore.Valid s) : LawfulStore.Valid (Store.step s o).1 := by
  cases o with
  | get clock a => exact LawfulStore.get_valid s clock a h
  | insert clock a e => exact LawfulStore.insert_valid s clock a e h
  | sweepExpired clock now => exact LawfulStore.sweep_valid s clock now h
  | len => exact h

end Stores

namespace DhtStore

/-- The table of the store's own node. -/
def slots (s : DhtStore InProcessRpc) : Std.ExtTreeMap NodeId Bytes :=
  ((s.rpc.getNode s.node).map ChordNode.store).getD ∅

def len (s : DhtStore InProcessRpc) : ℕ := s.slots.size

/-- What cannot be decoded counts as expired. -/
def slotExpired (clock : ℕ → Reading) (now : Instant) (data : Bytes) : Outcome Empty Bool :=
  match decodeEntry clock data with
  | .ok e => .ok (e.record.isExpired now)
  | .err _ => .ok true
  | .panic => .panic

/-- Each slot is decoded by clock readings of its own. -/
def expiredKeys (clock : NodeId → ℕ → Reading) (now : Instant) : List (NodeId × Bytes) → Outcome Empty (List NodeId)
  | [] => .ok []
  | (key, data) :: rest => do
    let expired ← slotExpired (clock key) now data
    let toRemove ← expiredKeys clock now rest
    return if expired then key :: toRemove else toRemove

def sweepExpired (s : DhtStore InProcessRpc) (clock : NodeId → ℕ → Reading) (now : Instant) :
    Outcome Empty (DhtStore InProcessRpc × ℕ) := do
  let toRemove ← expiredKeys clock now s.slots.toList
  let rpc := s.rpc.write s.node fun node => { node with store := toRemove.foldl Std.ExtTreeMap.erase node.store }
  return ({ s with rpc := rpc }, toRemove.length)

/-- The slot of the key is in the node's own table and has expired. -/
def Expired (s : DhtStore InProcessRpc) (clock : NodeId → ℕ → Reading) (now : Instant) (key : NodeId) : Prop :=
  ∃ data, s.slots[key]? = some data ∧ slotExpired (clock key) now data = .ok true

/-- A sweep of the node's own table. -/
structure Swept (s s' : DhtStore InProcessRpc) (clock : NodeId → ℕ → Reading) (now : Instant) (removed : ℕ) : Prop where
  len : removed + s'.len = s.len
  expired : ∀ key, s.Expired clock now key → s'.slots[key]? = none
  other : ∀ key, ¬ s.Expired clock now key → s'.slots[key]? = s.slots[key]?
  others : ∀ n ≠ s.node, s'.rpc.getNode n = s.rpc.getNode n
  get_expired : ∀ n clock' addr owner, s.rpc.iterativeFindSuccessor n (addrToKey addr) = some owner → owner.id = s.node →
    s.Expired clock now (addrToKey addr) → get ⟨n, s'.rpc⟩ clock' addr = .ok none
  get_other : ∀ n clock' addr, (∀ owner, s.rpc.iterativeFindSuccessor n (addrToKey addr) = some owner → owner.id = s.node →
    ¬ s.Expired clock now (addrToKey addr)) → get ⟨n, s'.rpc⟩ clock' addr = get ⟨n, s.rpc⟩ clock' addr

variable {s s' : DhtStore InProcessRpc} {clock : NodeId → ℕ → Reading} {now : Instant} {key : NodeId} {removed : ℕ}
  {l : List (NodeId × Bytes)} {keys : List NodeId}

lemma expiredKeys_eq (h : expiredKeys clock now l = .ok keys) :
    keys = (l.filter fun x => slotExpired (clock x.1) now x.2 = .ok true).map Prod.fst := by
  induction l generalizing keys with
  | nil =>
    cases h
    rfl
  | cons x l ih =>
    rw [expiredKeys] at h
    obtain ⟨expired, hx, h⟩ := Outcome.bind_eq_ok.mp h
    obtain ⟨rest, hrest, h⟩ := Outcome.bind_eq_ok.mp h
    cases h
    rw [List.filter_cons, hx]
    cases expired with
    | true => exact congrArg (List.cons x.1) (ih hrest)
    | false => exact ih hrest

lemma expiredKeys_returns :
    (∃ keys, expiredKeys clock now l = .ok keys) ↔ ∀ x ∈ l, slotExpired (clock x.1) now x.2 ≠ .panic := by
  induction l with
  | nil => exact iff_of_true ⟨[], rfl⟩ fun _ h => absurd h List.not_mem_nil
  | cons x l ih =>
    rw [List.forall_mem_cons, ← ih, expiredKeys]
    cases slotExpired (clock x.1) now x.2 with
    | ok expired =>
      cases expiredKeys clock now l with
      | ok keys => exact iff_of_true ⟨_, rfl⟩ ⟨(fun h => by cases h), keys, rfl⟩
      | err e => cases e
      | panic => exact iff_of_false (fun h => by obtain ⟨_, h⟩ := h; cases h) fun h => by obtain ⟨_, _, h⟩ := h; cases h
    | err e => cases e
    | panic => exact iff_of_false (fun h => by obtain ⟨_, h⟩ := h; cases h) fun h => h.1 rfl

lemma mem_expiredKeys (h : expiredKeys clock now s.slots.toList = .ok keys) (key : NodeId) : key ∈ keys ↔ s.Expired clock now key := by
  rw [expiredKeys_eq h, List.mem_map]
  constructor
  · rintro ⟨⟨k, data⟩, hmem, rfl⟩
    rw [List.mem_filter, Std.ExtTreeMap.mem_toList_iff_getElem?_eq_some, decide_eq_true_eq] at hmem
    exact ⟨data, hmem⟩
  · rintro ⟨data, hdata, hexp⟩
    refine ⟨(key, data), ?_, rfl⟩
    rw [List.mem_filter, Std.ExtTreeMap.mem_toList_iff_getElem?_eq_some, decide_eq_true_eq]
    exact ⟨hdata, hexp⟩

lemma nodup_expiredKeys (h : expiredKeys clock now s.slots.toList = .ok keys) : keys.Nodup := by
  rw [expiredKeys_eq h]
  have hdistinct : s.slots.toList.Pairwise fun x y => x.1 ≠ y.1 :=
    Std.ExtTreeMap.distinct_keys_toList.imp fun hne he => hne (Std.LawfulEqCmp.compare_eq_iff_eq.mpr he)
  exact List.pairwise_map.mpr (hdistinct.filter _)

section Erase

variable {t : Std.ExtTreeMap NodeId Bytes}

lemma getElem?_foldl_erase (keys : List NodeId) (t : Std.ExtTreeMap NodeId Bytes) (key : NodeId) :
    (keys.foldl Std.ExtTreeMap.erase t)[key]? = if key ∈ keys then none else t[key]? := by
  induction keys generalizing t with
  | nil => rfl
  | cons k keys ih =>
    rw [List.foldl_cons, ih, getElem?_erase_ite]
    by_cases hmem : key ∈ keys
    · rw [if_pos hmem, if_pos (List.mem_cons_of_mem _ hmem)]
    · by_cases hk : k = key
      · rw [if_neg hmem, if_pos hk, if_pos (hk ▸ List.mem_cons_self)]
      · rw [if_neg hmem, if_neg hk, if_neg fun h => (List.mem_cons.mp h).elim (hk ∘ Eq.symm) hmem]

lemma size_foldl_erase (hn : keys.Nodup) (hmem : ∀ k ∈ keys, k ∈ t) :
    keys.length + (keys.foldl Std.ExtTreeMap.erase t).size = t.size := by
  induction keys generalizing t with
  | nil => exact Nat.zero_add _
  | cons k keys ih =>
    have hk := hmem k List.mem_cons_self
    have hrest : ∀ k' ∈ keys, k' ∈ t.erase k := fun k' hk' => Std.ExtTreeMap.mem_erase.mpr
      ⟨fun he => (List.nodup_cons.mp hn).1 (Std.LawfulEqCmp.compare_eq_iff_eq.mp he ▸ hk'), hmem k' (List.mem_cons_of_mem _ hk')⟩
    have hsize := ih (List.nodup_cons.mp hn).2 hrest
    have hpos : 0 < t.size := by
      rw [Nat.pos_iff_ne_zero, Ne, ← Std.ExtTreeMap.eq_empty_iff_size_eq_zero]
      rintro rfl
      exact Std.ExtTreeMap.not_mem_empty hk
    rw [Std.ExtTreeMap.size_erase, if_pos (Std.ExtTreeMap.mem_iff_contains.mp hk)] at hsize
    rw [List.length_cons, List.foldl_cons]
    omega

end Erase

/-- The table that is left, and what is not touched. -/
lemma write_slots {f : Std.ExtTreeMap NodeId Bytes → Std.ExtTreeMap NodeId Bytes} (hf : f ∅ = ∅) :
    let rpc := s.rpc.write s.node fun node => { node with store := f node.store }
    slots { s with rpc := rpc } = f s.slots ∧ (∀ n ≠ s.node, rpc.getNode n = s.rpc.getNode n) ∧
      ∀ n k, rpc.iterativeFindSuccessor n k = s.rpc.iterativeFindSuccessor n k := by
  dsimp only [InProcessRpc.write, slots]
  cases hnode : s.rpc.getNode s.node with
  | none =>
    dsimp only
    rw [hnode]
    exact ⟨hf.symm, fun _ _ => rfl, fun _ _ => rfl⟩
  | some node =>
    dsimp only
    rw [InProcessRpc.getNode_put_self]
    exact ⟨rfl, fun n hn => InProcessRpc.getNode_put_ne hn.symm, fun n k => InProcessRpc.hops_store hnode fingerCount⟩

/-- A read that ends at the store's own node. -/
lemma dhtGet_own {rpc : InProcessRpc} {n node : NodeId} {owner : NodeInfo}
    (h : rpc.iterativeFindSuccessor n key = some owner) (hown : owner.id = node) :
    rpc.dhtGet n key = (slots ⟨node, rpc⟩)[key]? := by
  rw [InProcessRpc.dhtGet, h, slots]
  dsimp only
  rw [hown]
  cases rpc.getNode node with
  | none => exact Std.ExtTreeMap.getElem?_empty.symm
  | some node => rfl

/-- What a sweep that returns has done. -/
lemma swept_of_returns (h : s.sweepExpired clock now = .ok (s', removed)) : Swept s s' clock now removed := by
  rw [sweepExpired] at h
  obtain ⟨keys, hkeys, h⟩ := Outcome.bind_eq_ok.mp h
  cases h
  have hempty : keys.foldl Std.ExtTreeMap.erase (∅ : Std.ExtTreeMap NodeId Bytes) = ∅ := by
    refine Std.ExtTreeMap.ext_getElem? fun k => ?_
    rw [getElem?_foldl_erase, Std.ExtTreeMap.getElem?_empty, ite_self]
  obtain ⟨hslots, hothers, hfind⟩ := write_slots (s := s) (f := fun t => keys.foldl Std.ExtTreeMap.erase t) hempty
  have hmem := mem_expiredKeys hkeys
  have hslot := getElem?_foldl_erase keys s.slots
  rw [← hslots] at hslot
  have hgone : ∀ key, s.Expired clock now key → _ := fun key hexp => (hslot key).trans (if_pos ((hmem key).mpr hexp))
  have hkept : ∀ key, ¬ s.Expired clock now key → _ := fun key hexp => (hslot key).trans (if_neg fun hk => hexp ((hmem key).mp hk))
  refine ⟨?_, hgone, hkept, hothers, fun n clock' addr owner howner hown hexp => ?_, fun n clock' addr hother => ?_⟩
  · rw [len, len, hslots]
    refine size_foldl_erase (nodup_expiredKeys hkeys) fun k hk => ?_
    obtain ⟨data, hdata, -⟩ := (hmem k).mp hk
    exact Std.ExtTreeMap.mem_iff_isSome_getElem?.mpr (Option.isSome_of_mem hdata)
  · have hread := (dhtGet_own ((hfind n _).trans howner) hown).trans (hgone _ hexp)
    rw [get]
    dsimp only [ChordRpc.dhtGet]
    rw [hread]
  · rw [get, get]
    dsimp only [ChordRpc.dhtGet]
    cases howner : s.rpc.iterativeFindSuccessor n (addrToKey addr) with
    | none => rw [InProcessRpc.dhtGet, InProcessRpc.dhtGet, hfind, howner]
    | some owner =>
      by_cases hown : owner.id = s.node
      · rw [dhtGet_own ((hfind n _).trans howner) hown, dhtGet_own howner hown]
        rw [hkept _ (hother owner howner hown)]
      · rw [InProcessRpc.dhtGet, InProcessRpc.dhtGet, hfind, howner]
        dsimp only
        rw [hothers owner.id hown]

lemma sweepExpired_returns : (∃ s' removed, s.sweepExpired clock now = .ok (s', removed)) ↔
    ∀ key data, s.slots[key]? = some data → slotExpired (clock key) now data ≠ .panic := by
  have hslots : (∀ x ∈ s.slots.toList, slotExpired (clock x.1) now x.2 ≠ .panic) ↔
      ∀ key data, s.slots[key]? = some data → slotExpired (clock key) now data ≠ .panic := by
    refine ⟨fun h key data hdata => ?_, fun h x hx => ?_⟩
    · exact h (key, data) (Std.ExtTreeMap.mem_toList_iff_getElem?_eq_some.mpr hdata)
    · exact h x.1 x.2 (Std.ExtTreeMap.mem_toList_iff_getElem?_eq_some.mp hx)
  rw [← hslots, ← expiredKeys_returns, sweepExpired]
  constructor
  · rintro ⟨s', removed, h⟩
    obtain ⟨keys, hkeys, -⟩ := Outcome.bind_eq_ok.mp h
    exact ⟨keys, hkeys⟩
  · rintro ⟨keys, hkeys⟩
    rw [hkeys]
    exact ⟨_, _, rfl⟩

end DhtStore

/-- An entry for five minutes, in the cache and in the memory behind it. -/
def sampleCached : CachedStore (Lru.recent IPv8Address Entry) MemStore :=
  (run Store.step (CachedStore.sampleCache (.fromSecs 10))
    [.insert (fun _ => ⟨0, 0⟩) CachedStore.sampleAddress (CachedStore.sampleEntry 0 (.fromSecs 300))]).1

/-- A node of a ring of two whose other node keeps an entry for five minutes. -/
def sampleNeighbour : DhtStore InProcessRpc :=
  ⟨0, (run dhtStep InProcessRpc.pairRing [.insert (pairInsert (sessionAddress 8))]).1⟩

end IPv8Plus.Cloud
