import IPv8Plus.Cloud.DhtEntry
import IPv8Plus.Lib.Run
import IPv8Plus.Routing.ChordLookup

/-!
# Entries on a ring

`cloud/resolver/src/dht_store.rs`: the stores of the nodes of a ring keep their entries in the table that the ring makes
up. The key of an address is its region: addresses that differ behind the region share one slot of the table. On a ring
that reads what was stored last, the stores answer with what was inserted last under the key.
-/

namespace IPv8Plus.Cloud
open Lib Codec Routing

/-- Calls from a node of the ring, about a key. -/
class ChordRpc (R : Type) where
  dhtPut : R → NodeId → NodeId → Bytes → R × Option NodeId
  dhtGet : R → NodeId → NodeId → Option Bytes

instance : ChordRpc InProcessRpc where
  dhtPut := InProcessRpc.dhtPut
  dhtGet := InProcessRpc.dhtGet

/-- The store of a node. All nodes share the ring. -/
structure DhtStore (R : Type) where
  node : NodeId
  rpc : R

/-- The subnets, the node and the session are left out. -/
def addrToKey (addr : IPv8Address) : NodeId :=
  let asn := (addr.regionHi.toUInt32 <<< 16) ||| addr.protocol.toUInt32
  let hostId := (addr.regionMid.toUInt32 <<< 16) ||| addr.regionLo.toUInt32
  nodeId asn hostId

variable {R : Type} [ChordRpc R]

namespace DhtStore

def get (s : DhtStore R) (clock : ℕ → Reading) (addr : IPv8Address) : Outcome Empty (Option Entry) :=
  match ChordRpc.dhtGet s.rpc s.node (addrToKey addr) with
  | none => .ok none
  | some data =>
    match decodeEntry clock data with
    | .ok e => .ok (some e)
    | .err _ => .ok none
    | .panic => .panic

/-- That nothing was stored goes unnoticed. -/
def insert (s : DhtStore R) (clock : ℕ → Reading) (addr : IPv8Address) (e : Entry) : DhtStore R :=
  { s with rpc := (ChordRpc.dhtPut s.rpc s.node (addrToKey addr) (encodeEntry clock e)).1 }

end DhtStore

structure DhtInsert where
  node : NodeId
  clock : ℕ → Reading
  addr : IPv8Address
  entry : Entry

inductive DhtCall where
  | get (node : NodeId) (clock : ℕ → Reading) (addr : IPv8Address)
  | insert (i : DhtInsert)

def DhtCall.node : DhtCall → NodeId
  | .get node _ _ => node
  | .insert i => i.node

def DhtCall.addr : DhtCall → IPv8Address
  | .get _ _ addr => addr
  | .insert i => i.addr

/-- Calls of the nodes' stores on one ring. -/
def dhtStep (r : R) : DhtCall → R × StoreAnswer
  | .get node clock addr => (r, .got (DhtStore.get ⟨node, r⟩ clock addr))
  | .insert i => ((DhtStore.insert ⟨i.node, r⟩ i.clock i.addr i.entry).rpc, .done)

structure DhtPut where
  node : NodeId
  key : NodeId
  value : Bytes

def putAll (r : R) (puts : List DhtPut) : R := puts.foldl (fun r p => (ChordRpc.dhtPut r p.node p.key p.value).1) r

/-- From these nodes, under these keys, the ring reads what was stored last. -/
def ReadsLast (r : R) (nodes keys : Set NodeId) : Prop :=
  ∀ puts : List DhtPut, (∀ p ∈ puts, p.node ∈ nodes ∧ p.key ∈ keys) → ∀ n ∈ nodes, ∀ k ∈ keys,
    ChordRpc.dhtGet (putAll r puts) n k = ((puts.filter fun p => p.key = k).getLast?).map DhtPut.value

def inserts (calls : List DhtCall) : List DhtInsert :=
  calls.filterMap fun
    | .insert i => some i
    | .get _ _ _ => none

/-- The last insert under the key. -/
def lastUnder (key : NodeId) (calls : List DhtCall) : Option DhtInsert :=
  ((inserts calls).filter fun i => addrToKey i.addr = key).getLast?

/-- The last insert for the address itself. -/
def lastFor (addr : IPv8Address) (calls : List DhtCall) : Option DhtInsert :=
  ((inserts calls).filter fun i => i.addr = addr).getLast?

def DhtInsert.put (i : DhtInsert) : DhtPut := ⟨i.node, addrToKey i.addr, encodeEntry i.clock i.entry⟩

def DhtInsert.onWall (i : DhtInsert) : Entry := i.entry.onWall i.clock

/-- The encoding has room for the entry, and the clocks are sane. -/
structure DhtInsert.Fits (i : DhtInsert) : Prop where
  entry : Encodable i.entry
  clock : ∀ n, (i.clock n).Sane

/-- The answer is the entry of that insert, to the second. -/
def Answers (clock : ℕ → Reading) (last : Option DhtInsert) (answer : Outcome Empty (Option Entry)) : Prop :=
  ∃ found, answer = .ok found ∧ found.map (Entry.onWall clock) = last.map DhtInsert.onWall

variable {r : R} {nodes keys : Set NodeId} {calls : List DhtCall} {n : NodeId} {a b : IPv8Address} {clock : ℕ → Reading}
  {i : DhtInsert}

lemma run_eq : (run dhtStep r calls).1 = putAll r ((inserts calls).map DhtInsert.put) := by
  induction calls generalizing r with
  | nil => rfl
  | cons c calls ih =>
    rw [run_cons, ih]
    cases c with
    | get node clock addr => rfl
    | insert i => rfl

/-- What the ring holds under a key. -/
lemma dhtGet_run (hr : ReadsLast r nodes keys) (hcalls : ∀ c ∈ calls, c.node ∈ nodes ∧ addrToKey c.addr ∈ keys)
    (hn : n ∈ nodes) (ha : addrToKey a ∈ keys) :
    ChordRpc.dhtGet (run dhtStep r calls).1 n (addrToKey a) =
      (lastUnder (addrToKey a) calls).map fun i => encodeEntry i.clock i.entry := by
  have hputs : ∀ p ∈ (inserts calls).map DhtInsert.put, p.node ∈ nodes ∧ p.key ∈ keys := by
    intro p hp
    obtain ⟨i, hi, rfl⟩ := List.mem_map.mp hp
    obtain ⟨c, hc, hci⟩ := List.mem_filterMap.mp hi
    cases c with
    | get node clock addr => cases hci
    | insert j =>
      cases hci
      exact hcalls _ hc
  rw [run_eq, hr _ hputs n hn _ ha, List.filter_map, List.getLast?_map, Option.map_map]
  rfl

/-- The stores answer with the last insert under the key. -/
lemma get_run (hr : ReadsLast r nodes keys) (hcalls : ∀ c ∈ calls, c.node ∈ nodes ∧ addrToKey c.addr ∈ keys)
    (hn : n ∈ nodes) (ha : addrToKey a ∈ keys) (hclock : ∀ i, (clock i).Sane)
    (hfits : ∀ i ∈ lastUnder (addrToKey a) calls, i.Fits) :
    Answers clock (lastUnder (addrToKey a) calls) (DhtStore.get ⟨n, (run dhtStep r calls).1⟩ clock a) := by
  rw [DhtStore.get, dhtGet_run hr hcalls hn ha]
  cases hlast : lastUnder (addrToKey a) calls with
  | none => exact ⟨none, rfl, rfl⟩
  | some i =>
    have hi := hfits i hlast
    obtain ⟨e', he', hwall⟩ := decodeEntry_encodeEntry hi.clock hclock hi.entry
    refine ⟨some e', ?_, congrArg some hwall⟩
    dsimp only [Option.map_some]
    rw [he']

lemma Answers.unique {i j : Option DhtInsert} {answer : Outcome Empty (Option Entry)} (hi : Answers clock i answer) :
    Answers clock j answer ↔ i.map DhtInsert.onWall = j.map DhtInsert.onWall := by
  obtain ⟨found, hfound, hi⟩ := hi
  constructor
  · rintro ⟨found', hfound', hj⟩
    rw [hfound] at hfound'
    cases hfound'
    exact hi.symm.trans hj
  · exact fun h => ⟨found, hfound, hi.trans h⟩

/-- An insert under another key is not seen. -/
lemma get_insert (hr : ReadsLast r nodes keys) (hcalls : ∀ c ∈ calls, c.node ∈ nodes ∧ addrToKey c.addr ∈ keys)
    (hn : n ∈ nodes) (ha : addrToKey a ∈ keys) (hi : i.node ∈ nodes ∧ addrToKey i.addr ∈ keys)
    (hne : addrToKey i.addr ≠ addrToKey a) :
    DhtStore.get ⟨n, (run dhtStep r (calls ++ [.insert i])).1⟩ clock a =
      DhtStore.get ⟨n, (run dhtStep r calls).1⟩ clock a := by
  have hcalls' : ∀ c ∈ calls ++ [.insert i], c.node ∈ nodes ∧ addrToKey c.addr ∈ keys := by
    intro c hc
    rcases List.mem_append.mp hc with hc | hc
    · exact hcalls c hc
    · cases List.mem_singleton.mp hc
      exact hi
  have hlast : lastUnder (addrToKey a) (calls ++ [.insert i]) = lastUnder (addrToKey a) calls := by
    have hsplit : inserts (calls ++ [.insert i]) = inserts calls ++ [i] := List.filterMap_append
    have hnot : [i].filter (fun i => addrToKey i.addr = addrToKey a) = [] :=
      List.filter_cons_of_neg fun h => hne (of_decide_eq_true h)
    rw [lastUnder, lastUnder, hsplit, List.filter_append, hnot, List.append_nil]
  rw [DhtStore.get, DhtStore.get, dhtGet_run hr hcalls' hn ha, dhtGet_run hr hcalls hn ha, hlast]

/-- The stores keep a map of addresses exactly as long as no other address of the region holds the slot, and no insert
into the slot of another region is seen. -/
theorem refines_iff (hr : ReadsLast r nodes keys) (hcalls : ∀ c ∈ calls, c.node ∈ nodes ∧ addrToKey c.addr ∈ keys)
    (hn : n ∈ nodes) (ha : addrToKey a ∈ keys) (hclock : ∀ i, (clock i).Sane)
    (hfits : ∀ i ∈ lastUnder (addrToKey a) calls, i.Fits) :
    (Answers clock (lastFor a calls) (DhtStore.get ⟨n, (run dhtStep r calls).1⟩ clock a) ↔
      (lastUnder (addrToKey a) calls).map DhtInsert.onWall = (lastFor a calls).map DhtInsert.onWall) ∧
    ∀ i : DhtInsert, i.node ∈ nodes → addrToKey i.addr ∈ keys → addrToKey i.addr ≠ addrToKey a →
      DhtStore.get ⟨n, (run dhtStep r (calls ++ [.insert i])).1⟩ clock a =
        DhtStore.get ⟨n, (run dhtStep r calls).1⟩ clock a :=
  ⟨(get_run hr hcalls hn ha hclock hfits).unique, fun _ hin hik hne => get_insert hr hcalls hn ha ⟨hin, hik⟩ hne⟩

/-- A converged ring whose nodes are empty. -/
structure Fresh (r : InProcessRpc) : Prop where
  converged : r.Converged
  empty : ∀ {n node}, r.getNode n = some node → node.store = ∅

/-- What stores leave of a fresh ring: the same lookups, and under each key what was stored last. -/
structure Stored (r r' : InProcessRpc) (puts : List DhtPut) : Prop where
  hops : ∀ k left m, r'.hops k left m = r.hops k left m
  value : ∀ {k x}, k ∉ r.ids → r.Points k x → ∃ node, r'.getNode x.id = some node ∧
    node.store[k]? = ((puts.filter fun p => p.key = k).getLast?).map DhtPut.value

lemma Stored.dhtPut {r r' : InProcessRpc} {puts : List DhtPut} {p : DhtPut} (hr : Fresh r) (h : Stored r r' puts)
    (hnode : p.node ∈ r.ids) (hkey : p.key ∉ r.ids) :
    Stored r (r'.dhtPut p.node p.key p.value).1 (puts ++ [p]) := by
  obtain ⟨owner, howner⟩ := hr.converged.exists_points p.key
  obtain ⟨node, hget, -⟩ := h.value hkey howner
  have hfind : r'.iterativeFindSuccessor p.node p.key = some owner :=
    (h.hops _ _ _).trans ((hr.converged.agrees_away hkey howner).iterative _ hnode)
  rw [InProcessRpc.dhtPut_eq hfind hget]
  refine ⟨fun k left m => (InProcessRpc.hops_store hget left).trans (h.hops k left m), fun {k x} hk hx => ?_⟩
  obtain ⟨node', hget', hvalue⟩ := h.value hk hx
  rw [List.filter_append, List.filter_singleton]
  by_cases hid : owner.id = x.id
  · rw [← hid, hget] at hget'
    cases hget'
    refine ⟨{ node with store := node.store.insert p.key p.value }, ?_, ?_⟩
    · rw [← hid]
      exact InProcessRpc.getNode_put_self
    dsimp only
    rw [getElem?_insert_ite]
    by_cases hpk : p.key = k
    · rw [if_pos hpk, decide_eq_true hpk, cond_true, List.getLast?_concat]
      rfl
    · rw [if_neg hpk, decide_eq_false hpk, cond_false, List.append_nil]
      exact hvalue
  · refine ⟨node', (InProcessRpc.getNode_put_ne hid).trans hget', ?_⟩
    have hpk : p.key ≠ k := fun he => hid (congrArg _ ((he ▸ howner).unique hx))
    rw [decide_eq_false hpk, cond_false, List.append_nil]
    exact hvalue

/-- Away from node ids the nodes of a fresh ring read what was stored last. -/
theorem Fresh.readsLast {r : InProcessRpc} (hr : Fresh r) : ReadsLast r r.ids {k | k ∉ r.ids} := by
  intro puts hputs n hn k hk
  have hstored : Stored r (putAll r puts) puts := by
    induction puts using List.reverseRecOn with
    | nil =>
      refine ⟨fun _ _ _ => rfl, fun {k x} _ hx => ?_⟩
      obtain ⟨node, hnode, -⟩ := hx.1
      refine ⟨node, hnode, ?_⟩
      rw [hr.empty hnode]
      exact Std.ExtTreeMap.getElem?_empty
    | append_singleton puts p ih =>
      have hp := hputs p List.mem_concat_self
      rw [putAll, List.foldl_append]
      exact (ih fun q hq => hputs q (List.mem_append_left _ hq)).dhtPut hr hp.1 hp.2
  obtain ⟨owner, howner⟩ := hr.converged.exists_points k
  obtain ⟨node, hnode, hvalue⟩ := hstored.value hk howner
  have hfind : (putAll r puts).iterativeFindSuccessor n k = some owner :=
    (hstored.hops _ _ _).trans ((hr.converged.agrees_away hk howner).iterative _ hn)
  exact (InProcessRpc.dhtGet_eq hfind hnode).trans hvalue

lemma fresh_pairRing : Fresh InProcessRpc.pairRing where
  converged := InProcessRpc.converged_pairRing
  empty h := by
    rcases InProcessRpc.getNode_pairRing h with ⟨-, rfl⟩ | ⟨-, rfl⟩
    · rfl
    · rfl

/-- The sessions of a node. -/
def sessionAddress (sessionId : UInt16) : IPv8Address := ⟨1, 2, 3, 4, 5, 6, 7, sessionId⟩

/-- The machine was started at the epoch. -/
def steadyClock (t : Int) : ℕ → Reading := fun _ => ⟨t, t⟩

lemma sane_steadyClock {t : Int} (h0 : 0 ≤ t) (h : t < clockEnd) (i : ℕ) : (steadyClock t i).Sane := ⟨h0, le_rfl, h⟩

lemma length_zeroEdPub : (List.replicate 32 (0 : UInt8)).length = 32 := rfl

def emptyEntry : Entry where
  edPub := ⟨List.replicate 32 0, length_zeroEdPub⟩
  record := ⟨"", [], true, 1432, 0, .fromSecs 300, none, []⟩

def pairInsert (addr : IPv8Address) : DhtInsert := ⟨0, steadyClock 0, addr, emptyEntry⟩

lemma encodable_emptyEntry : Encodable emptyEntry where
  tunnelEntry := Nat.two_pow_pos 16
  altEntries := ⟨by decide, fun _ h => absurd h List.not_mem_nil⟩
  ttl := ⟨300, rfl⟩
  observed _ h := by cases h
  localCandidates := ⟨by decide, fun _ h => absurd h List.not_mem_nil⟩

lemma fits_pairInsert (addr : IPv8Address) : (pairInsert addr).Fits where
  entry := encodable_emptyEntry
  clock := sane_steadyClock le_rfl (by decide)

/-- An entry read at the other node after an insert in another region. -/
theorem refines_sample :
    let other := { sessionAddress 8 with regionLo := 9 }
    let calls := [.insert (pairInsert (sessionAddress 8)), .insert (pairInsert other)]
    Answers (steadyClock 1) (some (pairInsert (sessionAddress 8)))
      (DhtStore.get ⟨InProcessRpc.farId, (run dhtStep InProcessRpc.pairRing calls).1⟩ (steadyClock 1) (sessionAddress 8)) :=
  (refines_iff fresh_pairRing.readsLast (by decide) (by decide) (by decide) (sane_steadyClock (by decide) (by decide))
    fun i hi => by cases hi; exact fits_pairInsert _).1.mpr rfl

/-- The entry of one session is found for another. -/
theorem sessions_share : ReadsLast InProcessRpc.pairRing InProcessRpc.pairRing.ids {k | k ∉ InProcessRpc.pairRing.ids} ∧
    let calls := [.insert (pairInsert (sessionAddress 8))]
    lastFor (sessionAddress 9) calls = none ∧
    Answers (steadyClock 1) (some (pairInsert (sessionAddress 8)))
      (DhtStore.get ⟨InProcessRpc.farId, (run dhtStep InProcessRpc.pairRing calls).1⟩ (steadyClock 1) (sessionAddress 9)) :=
  ⟨fresh_pairRing.readsLast, rfl, get_run fresh_pairRing.readsLast (by decide) (by decide) (by decide)
    (sane_steadyClock (by decide) (by decide)) fun i hi => by cases hi; exact fits_pairInsert _⟩

end IPv8Plus.Cloud
