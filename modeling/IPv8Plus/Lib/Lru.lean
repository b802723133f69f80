import Mathlib

/-!
# Bounded caches

The interface of a cache that keeps some of the entries it was given: it may drop entries to stay within its capacity,
and never makes one up. `Lru.recent` is such a cache, which drops what has not been used for the longest time.
-/

namespace Lib

/-- A cache with a capacity. `get` marks an entry as used, `peek` only looks, `iter` lists all entries. -/
structure Lru (K V : Type) where
  Cache : Type
  new : (cap : ℕ) → 0 < cap → Cache
  get : Cache → K → Cache × Option V
  peek : Cache → K → Option V
  put : Cache → K → V → Cache
  pop : Cache → K → Cache
  iter : Cache → List (K × V)
  peek_new : ∀ cap h k, peek (new cap h) k = none
  get_answer : ∀ c k, (get c k).2 = peek c k
  peek_get : ∀ c k k', peek (get c k).1 k' = peek c k'
  peek_put_self : ∀ c k v, peek (put c k v) k = some v
  peek_put_ne : ∀ c k v k', k ≠ k' → peek (put c k v) k' = peek c k' ∨ peek (put c k v) k' = none
  peek_pop_self : ∀ c k, peek (pop c k) k = none
  peek_pop_ne : ∀ c k k', k ≠ k' → peek (pop c k) k' = peek c k'
  mem_iter : ∀ c k v, (k, v) ∈ iter c ↔ peek c k = some v

/-- The entries of a cache, the one used last first. -/
structure Recent (K V : Type) where
  cap : ℕ
  entries : List (Sigma fun _ : K => V)
  cap_pos : 0 < cap
  nodup : entries.NodupKeys
  bounded : entries.length ≤ cap

namespace Recent

variable {K V : Type} [DecidableEq K]

def peek (c : Recent K V) (k : K) : Option V := c.entries.dlookup k

def pop (c : Recent K V) (k : K) : Recent K V :=
  { c with
    entries := c.entries.kerase k
    nodup := c.nodup.kerase k
    bounded := (List.kerase_sublist k c.entries).length_le.trans c.bounded }

def put (c : Recent K V) (k : K) (v : V) : Recent K V :=
  { c with
    entries := (⟨k, v⟩ :: c.entries.kerase k).take c.cap
    nodup := .sublist (List.take_sublist _ _) (List.nodupKeys_cons.mpr ⟨List.notMem_keys_kerase k c.nodup, c.nodup.kerase k⟩)
    bounded := (List.length_take_le _ _) }

def get (c : Recent K V) (k : K) : Recent K V × Option V :=
  match c.peek k with
  | some v => (c.put k v, some v)
  | none => (c, none)

def iter (c : Recent K V) : List (K × V) := c.entries.map fun e => (e.1, e.2)

variable {c : Recent K V} {k k' : K} {v : V}

lemma mem_iter : (k, v) ∈ c.iter ↔ c.peek k = some v := by
  have hmem : (k, v) ∈ c.iter ↔ (⟨k, v⟩ : Sigma fun _ : K => V) ∈ c.entries := by
    rw [iter, List.mem_map]
    constructor
    · rintro ⟨e, he, hkv⟩
      cases hkv
      exact he
    · exact fun he => ⟨_, he, rfl⟩
  rw [hmem, peek, ← Option.mem_def]
  exact (List.mem_dlookup_iff c.nodup).symm

lemma peek_put_self : (c.put k v).peek k = some v := by
  have hcap := c.cap_pos
  rw [peek, put]
  dsimp only
  cases hc : c.cap with
  | zero => omega
  | succ n => exact List.dlookup_cons_eq _ _ _

/-- What is there after an entry was put was there before. -/
lemma peek_put_ne (h : k ≠ k') : (c.put k v).peek k' = c.peek k' ∨ (c.put k v).peek k' = none := by
  cases hp : (c.put k v).peek k' with
  | none => exact .inr rfl
  | some w =>
    have hmem : (⟨k', w⟩ : Sigma fun _ : K => V) ∈ (c.put k v).entries := List.of_mem_dlookup hp
    have hold := List.mem_cons.mp (List.mem_of_mem_take hmem)
    rcases hold with he | hold
    · cases he
      exact absurd rfl h
    · have hw : c.peek k' = some w := (List.mem_dlookup_iff c.nodup).mpr ((List.kerase_sublist k c.entries).subset hold)
      exact .inl hw.symm

/-- A hit moves its entry to the front, and drops nothing. -/
lemma peek_get : (c.get k).1.peek k' = c.peek k' := by
  rw [get]
  cases hk : c.peek k with
  | none => rfl
  | some v =>
    dsimp only
    by_cases h : k = k'
    · subst h
      rw [peek_put_self, hk]
    · obtain ⟨w, before, after, -, hsplit, herase⟩ := List.exists_of_kerase (List.dlookup_isSome.mp (Option.isSome_of_mem hk))
      have hbound := c.bounded
      have hfits : ((⟨k, v⟩ : Sigma fun _ : K => V) :: c.entries.kerase k).length ≤ c.cap := by
        rw [herase, List.length_cons, List.length_append]
        rw [hsplit, List.length_append, List.length_cons] at hbound
        omega
      rw [peek, put]
      dsimp only
      rw [List.take_of_length_le hfits, List.dlookup_cons_ne _ _ (Ne.symm h)]
      exact List.dlookup_kerase_ne (Ne.symm h)

end Recent

/-- The cache that drops what has not been used for the longest time. -/
def Lru.recent (K V : Type) [DecidableEq K] : Lru K V where
  Cache := Recent K V
  new cap h := ⟨cap, [], h, List.nodupKeys_nil, cap.zero_le⟩
  get := Recent.get
  peek := Recent.peek
  put := Recent.put
  pop := Recent.pop
  iter := Recent.iter
  peek_new _ _ _ := rfl
  get_answer c k := by
    rw [Recent.get]
    split
    · next v hv => exact hv.symm
    · next hn => exact hn.symm
  peek_get _ _ _ := Recent.peek_get
  peek_put_self _ _ _ := Recent.peek_put_self
  peek_put_ne _ _ _ _ := Recent.peek_put_ne
  peek_pop_self c k := List.dlookup_kerase k c.nodup
  peek_pop_ne c k k' h := List.dlookup_kerase_ne (Ne.symm h)
  mem_iter _ _ _ := Recent.mem_iter

end Lib
