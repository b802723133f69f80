import IPv8Plus.Codec.Layouts
import IPv8Plus.Lib.Maps

/-!
# Resolver entries and where they are stored

`cloud/resolver/src/lib.rs`: the entry of an address, the interface of a store, and the store in memory. Clock readings
inside a call are inputs of the call. An instant is a number of nanoseconds with its seconds in an `i64`, a duration one
with its seconds in a `u64`.
-/

namespace IPv8Plus.Cloud
open Lib Codec

abbrev Instant := Int

abbrev Duration := Fin (2 ^ 64 * 10 ^ 9)

def Duration.fromSecs (secs : UInt64) : Duration := ⟨secs.toNat * 10 ^ 9, by have := secs.toNat_lt; omega⟩

/-- `Instant::checked_add`. -/
def checkedAdd (t : Instant) (d : Duration) : Option Instant :=
  if t + d.val < 2 ^ 63 * 10 ^ 9 then some (t + d.val) else none

def addSecs (base : Instant) (d : Duration) : Instant := (checkedAdd base d).getD base

structure NodeRecord where
  tunnelEntry : String
  altEntries : List String
  ipv8Capable : Bool
  mtu : UInt32
  registeredAt : Instant
  ttl : Duration
  observed : Option (String × Instant)
  localCandidates : List String
  deriving DecidableEq

structure Entry where
  edPub : PublicKey
  record : NodeRecord
  deriving DecidableEq

def NodeRecord.isExpired (r : NodeRecord) (now : Instant) : Bool := addSecs r.registeredAt r.ttl ≤ now

/-- The order by which addresses are looked up. -/
def addrCmp : IPv8Address → IPv8Address → Ordering := compareOn IPv8Address.toBytes

instance : Std.TransCmp addrCmp := by
  unfold addrCmp
  infer_instance

instance : Std.LawfulEqCmp addrCmp where
  eq_of_compare h := IPv8Address.toBytes_injective (Std.LawfulEqCmp.eq_of_compare h)

abbrev AddrMap (β : Type) := Std.ExtTreeMap IPv8Address β addrCmp

/-- What `Instant::now` and `SystemTime::now` read, the latter in nanoseconds since the epoch. -/
structure Reading where
  instant : Int
  system : Int

/-- A call reads the clocks as often as it needs to. A store may panic instead of answering a `get`. -/
class Store (S : Type) where
  get : S → (ℕ → Reading) → IPv8Address → S × Outcome Empty (Option Entry)
  insert : S → (ℕ → Reading) → IPv8Address → Entry → S
  sweepExpired : S → (ℕ → Reading) → Instant → S × ℕ
  len : S → ℕ

/-- The answer is what is stored. About an absent address the store may panic. -/
def Tells (stored : Option Entry) (answer : Outcome Empty (Option Entry)) : Prop :=
  answer = .ok stored ∨ stored = none ∧ answer = .panic

/-- A store that keeps what it is given: `view` is the table that `get` reads, and `Valid` holds of the states that the
calls lead to. Its sweep takes out the entries that have expired. -/
class LawfulStore (S : Type) [Store S] where
  Valid : S → Prop
  view : S → IPv8Address → Option Entry
  get_valid (s : S) (clock : ℕ → Reading) (a : IPv8Address) : Valid s → Valid (Store.get s clock a).1
  get_view (s : S) (clock : ℕ → Reading) (a : IPv8Address) : Valid s → view (Store.get s clock a).1 = view s
  get_answer (s : S) (clock : ℕ → Reading) (a : IPv8Address) : Valid s → Tells (view s a) (Store.get s clock a).2
  insert_valid (s : S) (clock : ℕ → Reading) (a : IPv8Address) (e : Entry) : Valid s → Valid (Store.insert s clock a e)
  insert_view (s : S) (clock : ℕ → Reading) (a b : IPv8Address) (e : Entry) : Valid s →
    view (Store.insert s clock a e) b = if a = b then some e else view s b
  sweep_valid (s : S) (clock : ℕ → Reading) (now : Instant) : Valid s → Valid (Store.sweepExpired s clock now).1
  sweep_view (s : S) (clock : ℕ → Reading) (now : Instant) (a : IPv8Address) : Valid s →
    view (Store.sweepExpired s clock now).1 a = (view s a).filter fun e => !e.record.isExpired now

inductive StoreCall where
  | get (clock : ℕ → Reading) (addr : IPv8Address)
  | insert (clock : ℕ → Reading) (addr : IPv8Address) (e : Entry)
  | sweepExpired (clock : ℕ → Reading) (now : Instant)
  | len

inductive StoreAnswer where
  | got (entry : Outcome Empty (Option Entry))
  | done
  | swept (removed : ℕ)
  | size (len : ℕ)
  deriving DecidableEq

def Store.step {S : Type} [Store S] (s : S) : StoreCall → S × StoreAnswer
  | .get clock addr => ((Store.get s clock addr).1, .got (Store.get s clock addr).2)
  | .insert clock addr e => (Store.insert s clock addr e, .done)
  | .sweepExpired clock now => ((Store.sweepExpired s clock now).1, .swept (Store.sweepExpired s clock now).2)
  | .len => (s, .size (Store.len s))

/-- The answers of `get` and `len` alone. -/
def StoreAnswer.reads : StoreAnswer → StoreAnswer
  | .swept _ => .done
  | answer => answer

structure MemStore where
  byAddr : AddrMap Entry

namespace MemStore

def get (m : MemStore) (addr : IPv8Address) : Option Entry := m.byAddr[addr]?

def insert (m : MemStore) (addr : IPv8Address) (e : Entry) : MemStore := ⟨m.byAddr.insert addr e⟩

def sweepExpired (m : MemStore) (now : Instant) : MemStore × ℕ :=
  let byAddr := m.byAddr.filter fun _ e => !e.record.isExpired now
  (⟨byAddr⟩, m.byAddr.size - byAddr.size)

def len (m : MemStore) : ℕ := m.byAddr.size

instance : Store MemStore where
  get m _ addr := (m, .ok (m.get addr))
  insert m _ addr e := m.insert addr e
  sweepExpired m _ now := m.sweepExpired now
  len := len

variable {m : MemStore} {a b : IPv8Address} {e : Entry} {now : Instant}

lemma get_insert : (m.insert a e).get b = if a = b then some e else m.get b := getElem?_insert_ite

lemma get_sweepExpired : (m.sweepExpired now).1.get a = (m.get a).filter fun e => !e.record.isExpired now :=
  Std.ExtTreeMap.getElem?_filter'

lemma len_sweepExpired : (m.sweepExpired now).2 + (m.sweepExpired now).1.len = m.len :=
  Nat.sub_add_cancel Std.ExtTreeMap.size_filter_le_size

instance : LawfulStore MemStore where
  Valid _ := True
  view := get
  get_valid _ _ _ _ := trivial
  get_view _ _ _ _ := rfl
  get_answer _ _ _ _ := .inl rfl
  insert_valid _ _ _ _ _ := trivial
  insert_view _ _ _ _ _ _ := get_insert
  sweep_valid _ _ _ _ := trivial
  sweep_view _ _ _ _ _ := get_sweepExpired

end MemStore

end IPv8Plus.Cloud
