import IPv8Plus.Cloud.JsonStrings
import IPv8Plus.Cloud.Sweep
import IPv8Plus.Codec.AddrText

/-!
# Restarts of a store with a database

The database of `cloud/resolver/src/sqlite_store.rs` as a table of rows, with exact numbers for its times. Instants go
into the rows as wall-clock time, by what the clocks read when the process was started, and come back by what they read
at the next start, at most one hour before it. Times past the end of the wall clock are left out when they are written.
-/

namespace IPv8Plus.Cloud
open Lib Codec

structure Row where
  edPub : Bytes
  tunnelEntry : String
  altEntries : String
  ipv8Capable : Int
  mtu : Int
  registeredAt : ℚ
  ttlSecs : ℚ
  observedAddr : Option String
  observedAt : Option ℚ
  localCands : String

/-- The rows by the texts of their addresses. -/
abbrev SqlTable := Std.ExtTreeMap Bytes Row

/-- `checked_sub` of a time. -/
def checkedSub (t d : Int) : Option Int := if -clockEnd ≤ t - d then some (t - d) else none

def toSystem (base : Reading) (t : Int) : Int :=
  if base.instant ≤ t then base.system + (t - base.instant) else (checkedSub base.system (base.instant - t)).getD 0

def maxBack : Int := 3600 * 10 ^ 9

/-- At most an hour before the start. -/
def toInstant (base : Reading) (t : Int) : Outcome Unit Int :=
  if base.system ≤ t then
    let t' := base.instant + (t - base.system)
    if t' < clockEnd then .ok t' else .panic
  else .ok ((checkedSub base.instant (min (base.system - t) maxBack)).getD base.instant)

def systemToSecs (t : Int) : ℚ := if 0 ≤ t then t / 10 ^ 9 else 0

def secsToSystem (s : ℚ) : Outcome Unit Int :=
  let t := round (max s 0 * 10 ^ 9)
  if t < clockEnd then .ok t else .panic

def durationFromSecs (s : ℚ) : Outcome Unit Duration :=
  let d := (round (s * 10 ^ 9)).toNat
  if h : d < 2 ^ 64 * 10 ^ 9 then .ok ⟨d, h⟩ else .panic

/-- What `upsert_db` writes. -/
def Entry.row (base : Reading) (e : Entry) : Row where
  edPub := e.edPub.val
  tunnelEntry := e.record.tunnelEntry
  altEntries := encodeJsonStrings e.record.altEntries
  ipv8Capable := if e.record.ipv8Capable then 1 else 0
  mtu := e.record.mtu.toNat
  registeredAt := systemToSecs (toSystem base e.record.registeredAt)
  ttlSecs := e.record.ttl.val / 10 ^ 9
  observedAddr := e.record.observed.map Prod.fst
  observedAt := e.record.observed.map fun x => systemToSecs (toSystem base x.2)
  localCands := encodeJsonStrings e.record.localCandidates

instance : Database SqlTable where
  upsert table base _ addr e := table.insert addr.toCanonicalString (e.row base)
  deleteExpired table base now :=
    table.filter fun _ row => !decide (row.registeredAt + row.ttlSecs ≤ systemToSecs (toSystem base now))

/-- A time without an address, or an address without a time, is nothing. -/
def decodeObserved (base : Reading) : Option String → Option ℚ → Outcome Unit (Option (String × Instant))
  | some addr, some s => do
    let t ← secsToSystem s
    let t ← toInstant base t
    return some (addr, t)
  | _, _ => .ok none

/-- A row that is damaged is an error. -/
def decodeRow (base : Reading) (addrHex : Bytes) (row : Row) : Outcome Unit (IPv8Address × Entry) := do
  let addr ← (IPv8Address.fromCanonicalStr addrHex).mapErr fun _ => ()
  let edPub : PublicKey ← if h : row.edPub.length = 32 then .ok ⟨row.edPub, h⟩ else .err ()
  let t ← secsToSystem row.registeredAt
  let registeredAt ← toInstant base t
  let ttl ← durationFromSecs (max row.ttlSecs 0)
  let observed ← decodeObserved base row.observedAddr row.observedAt
  return (addr, ⟨edPub, ⟨row.tunnelEntry, decodeJsonStrings row.altEntries, decide (row.ipv8Capable ≠ 0),
    .ofNat (row.mtu % 2 ^ 32).toNat, registeredAt, ttl, observed, decodeJsonStrings row.localCands⟩⟩)

/-- Damaged rows are skipped. -/
def loadRows (base : Reading) : List (Bytes × Row) → Outcome Empty (List (IPv8Address × Entry))
  | [] => .ok []
  | (addrHex, row) :: rows =>
    match decodeRow base addrHex row with
    | .ok entry => do
      let entries ← loadRows base rows
      return entry :: entries
    | .err _ => loadRows base rows
    | .panic => .panic

/-- The rows that have not expired when the process starts. -/
def SqliteStore.«open» (table : SqlTable) (base : Reading) : Outcome Empty (SqliteStore SqlTable) := do
  let nowSecs := systemToSecs base.system
  let entries ← loadRows base (table.toList.filter fun x => nowSecs < x.2.registeredAt + x.2.ttlSecs)
  return ⟨.ofList entries addrCmp, table, base⟩

/-- The wall-clock time of an instant of the process. -/
def Reading.wall (base : Reading) (t : Int) : Int := base.system + (t - base.instant)

/-- The entry with wall-clock times for its instants. -/
def Entry.atWall (base : Reading) (e : Entry) : Entry :=
  { e with record :=
    { e.record with
      registeredAt := base.wall e.record.registeredAt
      observed := e.record.observed.map fun x => (x.1, base.wall x.2) } }

/-- When the entry expires, by the wall clock. -/
def Entry.expiry (base : Reading) (e : Entry) : Int := base.wall (addSecs e.record.registeredAt e.record.ttl)

/-- What is found after the restart of what was there before: nothing if it has expired, or else the same entry. -/
def Restored (base base' : Reading) (last found : Option Entry) : Prop :=
  match last with
  | none => found = none
  | some e =>
    if e.record.isExpired (base.instant + (base'.system - base.system)) then found = none
    else ∃ e', found = some e' ∧ e'.expiry base' = e.expiry base ∧ e'.atWall base' = e.atWall base

/-- An entry that has not expired has an address with the magic number, and is not older than an hour; nor is what was
observed. -/
def Recoverable (base base' : Reading) (a : IPv8Address) (e : Entry) : Prop :=
  e.record.isExpired (base.instant + (base'.system - base.system)) = false →
    a.protocol = protocolMagic ∧ base'.system - base.wall e.record.registeredAt ≤ maxBack ∧
      ∀ x ∈ e.record.observed, base'.system - base.wall x.2 ≤ maxBack

def maxTtl : Int := 24 * 3600 * 10 ^ 9

/-- The times of an entry are within the wall clock. -/
structure Entry.Timely (base : Reading) (e : Entry) : Prop where
  ttl : e.record.ttl.val ≤ maxTtl
  start : 0 ≤ base.wall e.record.registeredAt
  stop : base.wall e.record.registeredAt + maxTtl < clockEnd
  observed : ∀ x ∈ e.record.observed, 0 ≤ base.wall x.2 ∧ base.wall x.2 < clockEnd

/-- The instant that a wall-clock time comes back as. -/
def Reading.back (base : Reading) (t : Int) : Int := base.instant + max (t - base.system) (-maxBack)

/-- The entry that comes back. -/
def Entry.restore (base base' : Reading) (e : Entry) : Entry :=
  { e with record :=
    { e.record with
      registeredAt := base'.back (base.wall e.record.registeredAt)
      observed := e.record.observed.map fun x => (x.1, base'.back (base.wall x.2)) } }

variable {base base' : Reading} {t : Int} {e : Entry} {a : IPv8Address}

lemma toSystem_eq (h : 0 ≤ base.wall t) : toSystem base t = base.wall t := by
  rw [toSystem]
  split
  · rfl
  · rw [Reading.wall] at h ⊢
    rw [checkedSub, if_pos (by rw [clockEnd]; omega), Option.getD_some]
    omega

lemma secsToSystem_systemToSecs (h0 : 0 ≤ t) (h : t < clockEnd) : secsToSystem (systemToSecs t) = .ok t := by
  have hround : round (max ((t : ℚ) / 10 ^ 9) 0 * 10 ^ 9) = t := by
    have hpos : (0 : ℚ) ≤ (t : ℚ) / 10 ^ 9 := div_nonneg (Int.cast_nonneg h0) (by norm_num)
    rw [max_eq_left hpos, div_mul_cancel₀ _ (by norm_num), round_intCast]
  rw [secsToSystem, systemToSecs, if_pos h0, hround]
  exact if_pos h

lemma toInstant_eq (hb : base.Sane) (h : t < clockEnd) : toInstant base t = .ok (base.back t) := by
  obtain ⟨h0, hle, hend⟩ := hb
  rw [toInstant, Reading.back, maxBack]
  split
  · dsimp only
    rw [if_pos (by omega), max_eq_left (by omega)]
  · rw [checkedSub, if_pos (by rw [clockEnd]; omega), Option.getD_some]
    congr 1
    omega

lemma wall_back : base.wall (base.back t) = max t (base.system - maxBack) := by
  rw [Reading.wall, Reading.back]
  omega

lemma durationFromSecs_eq (d : Duration) : durationFromSecs (max ((d.val : ℚ) / 10 ^ 9) 0) = .ok d := by
  have hround : (round (max ((d.val : ℚ) / 10 ^ 9) 0 * 10 ^ 9)).toNat = d.val := by
    have hpos : (0 : ℚ) ≤ (d.val : ℚ) / 10 ^ 9 := div_nonneg (Nat.cast_nonneg _) (by norm_num)
    rw [max_eq_left hpos, div_mul_cancel₀ _ (by norm_num), round_natCast, Int.toNat_natCast]
  rw [durationFromSecs, dif_pos (by rw [hround]; exact d.isLt)]
  congr 1
  exact Fin.ext hround

lemma decodeObserved_eq (hb : base'.Sane) {observed : Option (String × Instant)}
    (h : ∀ x ∈ observed, 0 ≤ base.wall x.2 ∧ base.wall x.2 < clockEnd) :
    decodeObserved base' (observed.map Prod.fst) (observed.map fun x => systemToSecs (toSystem base x.2)) =
      .ok (observed.map fun x => (x.1, base'.back (base.wall x.2))) := by
  cases observed with
  | none => rfl
  | some x =>
    obtain ⟨h0, hend⟩ := h x rfl
    dsimp only [Option.map_some]
    rw [decodeObserved, toSystem_eq h0, secsToSystem_systemToSecs h0 hend, Outcome.ok_bind, toInstant_eq hb hend,
      Outcome.ok_bind, Outcome.pure_def]

/-- A row is read back as the entry with its instants brought back. -/
lemma decodeRow_row (hb : base'.Sane) (he : e.Timely base) : decodeRow base' a.toCanonicalString (e.row base) =
    if a.protocol = protocolMagic then .ok (a, e.restore base base') else .err () := by
  rw [decodeRow, fromCanonicalStr_toCanonicalString]
  by_cases hmagic : a.protocol = protocolMagic
  · have hend : base.wall e.record.registeredAt < clockEnd := by
      have hstop := he.stop
      rw [maxTtl] at hstop
      omega
    have hcapable : decide ((if e.record.ipv8Capable then 1 else 0 : Int) ≠ 0) = e.record.ipv8Capable := by
      cases e.record.ipv8Capable with
      | true => rfl
      | false => rfl
    have hmtu : UInt32.ofNat ((e.record.mtu.toNat : Int) % 2 ^ 32).toNat = e.record.mtu := by
      have hlt := e.record.mtu.toNat_lt
      have hmod : ((e.record.mtu.toNat : Int) % 2 ^ 32).toNat = e.record.mtu.toNat := by omega
      rw [hmod, UInt32.ofNat_toNat]
    rw [if_pos hmagic, if_pos hmagic, Entry.row]
    dsimp only [Outcome.mapErr]
    rw [Outcome.ok_bind, dif_pos e.edPub.property, Outcome.ok_bind, toSystem_eq he.start,
      secsToSystem_systemToSecs he.start hend, Outcome.ok_bind, toInstant_eq hb hend, Outcome.ok_bind,
      durationFromSecs_eq, Outcome.ok_bind, decodeObserved_eq hb he.observed, Outcome.ok_bind, Outcome.pure_def,
      decodeJsonStrings_encodeJsonStrings, decodeJsonStrings_encodeJsonStrings, hcapable, hmtu]
    rfl
  · rw [if_neg hmagic, if_neg hmagic]
    rfl

lemma expiry_eq (hb : base.Sane) (he : e.Timely base) :
    addSecs e.record.registeredAt e.record.ttl = e.record.registeredAt + e.record.ttl.val := by
  obtain ⟨h0, hle, hend⟩ := hb
  have httl := he.ttl
  have hstop := he.stop
  rw [Reading.wall, clockEnd] at hstop
  have hint : ∀ t d s i m : Int, d ≤ m → i ≤ s → s + (t - i) + m < 2 ^ 63 * 10 ^ 9 → t + d < 2 ^ 63 * 10 ^ 9 := by omega
  rw [addSecs, checkedAdd, if_pos (hint _ _ _ _ _ httl hle hstop), Option.getD_some]

/-- The query selects what has not expired. -/
lemma fresh_iff (hb : base.Sane) (hb' : base'.Sane) (he : e.Timely base) :
    systemToSecs base'.system < (e.row base).registeredAt + (e.row base).ttlSecs ↔
      e.record.isExpired (base.instant + (base'.system - base.system)) = false := by
  have h0 : 0 ≤ base'.system := hb'.1.trans hb'.2.1
  have hexp := expiry_eq hb he
  have hrat : ∀ x y z : Int, (x : ℚ) / 10 ^ 9 < (y : ℚ) / 10 ^ 9 + (z : ℚ) / 10 ^ 9 ↔ x < y + z := by
    intro x y z
    rw [← add_div, div_lt_div_iff_of_pos_right (by norm_num), ← Int.cast_add, Int.cast_lt]
  have hrow := hrat base'.system (base.wall e.record.registeredAt) e.record.ttl.val
  rw [Int.cast_natCast] at hrow
  rw [Entry.row]
  dsimp only
  rw [toSystem_eq he.start, systemToSecs, systemToSecs, if_pos h0, if_pos he.start, hrow, NodeRecord.isExpired, hexp,
    decide_eq_false_iff_not, Reading.wall]
  have hint : ∀ x s y i d : Int, x < s + (y - i) + d ↔ ¬ y + d ≤ i + (x - s) := by omega
  exact hint _ _ _ _ _

/-- The inserts of a run, each with what its call read from the clocks. -/
abbrev Inserts := List ((ℕ → Reading) × IPv8Address × Entry)

def SqliteStore.insertAll (s : SqliteStore SqlTable) (inserts : Inserts) : SqliteStore SqlTable :=
  inserts.foldl (fun s x => s.insert x.1 x.2.1 x.2.2) s

/-- The entry that was inserted last for the address. -/
def lastEntry (a : IPv8Address) (inserts : Inserts) : Option Entry :=
  ((inserts.filter fun x => x.2.1 = a).getLast?).map fun x => x.2.2

variable {inserts : Inserts} {l : List (Bytes × Row)} {entries : List (IPv8Address × Entry)} {e' : Entry}

lemma lastEntry_append {x : (ℕ → Reading) × IPv8Address × Entry} :
    lastEntry a (inserts ++ [x]) = if x.2.1 = a then some x.2.2 else lastEntry a inserts := by
  rw [lastEntry, lastEntry, List.filter_append, List.filter_singleton]
  by_cases h : x.2.1 = a
  · rw [decide_eq_true h, cond_true, List.getLast?_concat, if_pos h]
    rfl
  · rw [decide_eq_false h, cond_false, List.append_nil, if_neg h]

/-- The table holds the last entry of every address, and nothing else. -/
lemma insertAll_conn (base : Reading) (inserts : Inserts) : (SqliteStore.insertAll ⟨∅, ∅, base⟩ inserts).base = base ∧
    (∀ a, (SqliteStore.insertAll ⟨∅, ∅, base⟩ inserts).conn[a.toCanonicalString]? =
      (lastEntry a inserts).map fun e => e.row base) ∧
    ∀ k row, (SqliteStore.insertAll ⟨∅, ∅, base⟩ inserts).conn[k]? = some row → ∃ a : IPv8Address, k = a.toCanonicalString := by
  induction inserts using List.reverseRecOn with
  | nil =>
    refine ⟨rfl, fun a => Std.ExtTreeMap.getElem?_empty, fun k row h => ?_⟩
    have hnone : (∅ : SqlTable)[k]? = none := Std.ExtTreeMap.getElem?_empty
    exact absurd (h.symm.trans hnone) (Option.some_ne_none _)
  | append_singleton inserts x ih =>
    obtain ⟨hbase, hvalue, hkeys⟩ := ih
    rw [SqliteStore.insertAll, List.foldl_append]
    refine ⟨hbase, fun a => ?_, fun k row h => ?_⟩
    · rw [lastEntry_append]
      refine getElem?_insert_ite.trans ?_
      by_cases hx : x.2.1 = a
      · rw [if_pos (congrArg _ hx), if_pos hx, Option.map_some]
        exact congrArg (fun b => some (x.2.2.row b)) hbase
      · rw [if_neg fun h => hx (toCanonicalString_injective h), if_neg hx]
        exact hvalue a
    · have hget := (Std.ExtTreeMap.getElem?_insert (k := x.2.1.toCanonicalString) (a := k)).symm.trans h
      split at hget
      · next hk => exact ⟨x.2.1, (Std.LawfulEqCmp.compare_eq_iff_eq.mp hk).symm⟩
      · exact hkeys k row hget

lemma loadRows_eq (base' : Reading) (h : ∀ x ∈ l, decodeRow base' x.1 x.2 ≠ .panic) :
    loadRows base' l = .ok (l.filterMap fun x => (decodeRow base' x.1 x.2).toOption) := by
  induction l with
  | nil => rfl
  | cons x l ih =>
    have hrest := ih fun y hy => h y (List.mem_cons_of_mem _ hy)
    have hx := h x List.mem_cons_self
    rw [loadRows, hrest, List.filterMap_cons]
    cases hrow : decodeRow base' x.1 x.2 with
    | ok entry => rfl
    | err e => rfl
    | panic => exact absurd hrow hx

/-- What the store finds for an address after a restart. -/
lemma open_insertAll (hb : base.Sane) (hb' : base'.Sane) (hfit : ∀ x ∈ inserts, x.2.2.Timely base) :
    ∃ s, SqliteStore.open (SqliteStore.insertAll ⟨∅, ∅, base⟩ inserts).conn base' = .ok s ∧
      ∀ a e', s.cache[a]? = some e' ↔ a.protocol = protocolMagic ∧ ∃ e, lastEntry a inserts = some e ∧
        e.record.isExpired (base.instant + (base'.system - base.system)) = false ∧ e' = e.restore base base' := by
  obtain ⟨-, hvalue, hkeys⟩ := insertAll_conn base inserts
  generalize (SqliteStore.insertAll ⟨∅, ∅, base⟩ inserts).conn = table at hvalue hkeys
  have htimely : ∀ a e, lastEntry a inserts = some e → e.Timely base := by
    intro a e h
    obtain ⟨x, hx, rfl⟩ := Option.map_eq_some_iff.mp h
    exact hfit x (List.mem_filter.mp (List.mem_of_getLast? hx)).1
  -- every row is the last entry of an address
  have hrow : ∀ x ∈ table.toList, ∃ a e, x.1 = a.toCanonicalString ∧ lastEntry a inserts = some e ∧ x.2 = e.row base := by
    intro x hx
    have hget := Std.ExtTreeMap.mem_toList_iff_getElem?_eq_some.mp hx
    obtain ⟨a, ha⟩ := hkeys x.1 x.2 hget
    rw [ha, hvalue a] at hget
    obtain ⟨e, he, hxe⟩ := Option.map_eq_some_iff.mp hget
    exact ⟨a, e, ha, he, hxe.symm⟩
  have hload := loadRows_eq base'
    (l := table.toList.filter fun x => systemToSecs base'.system < x.2.registeredAt + x.2.ttlSecs) <| by
      intro x hx
      obtain ⟨a, e, ha, he, hxe⟩ := hrow x (List.mem_filter.mp hx).1
      rw [ha, hxe, decodeRow_row hb' (htimely a e he)]
      split
      · exact fun h => by cases h
      · exact fun h => by cases h
  have hdecode : ∀ x ∈ table.toList, ∀ y, (decodeRow base' x.1 x.2).toOption = some y → x.1 = y.1.toCanonicalString ∧
      y.1.protocol = protocolMagic ∧ ∃ e, lastEntry y.1 inserts = some e ∧ x.2 = e.row base ∧ y.2 = e.restore base base' := by
    intro x hx y hy
    obtain ⟨a, e, ha, he, hxe⟩ := hrow x hx
    rw [ha, hxe, decodeRow_row hb' (htimely a e he)] at hy
    split at hy
    · next hmagic =>
      cases hy
      exact ⟨ha, hmagic, e, he, hxe, rfl⟩
    · cases hy
  generalize hentries : (table.toList.filter _).filterMap _ = entries at hload
  have hmem : ∀ a e', (a, e') ∈ entries ↔ a.protocol = protocolMagic ∧ ∃ e, lastEntry a inserts = some e ∧
      e.record.isExpired (base.instant + (base'.system - base.system)) = false ∧ e' = e.restore base base' := by
    intro a e'
    rw [← hentries, List.mem_filterMap]
    constructor
    · rintro ⟨x, hx, hy⟩
      obtain ⟨hx, hfresh⟩ := List.mem_filter.mp hx
      obtain ⟨-, hmagic, e, he, hxe, hrestore⟩ := hdecode x hx _ hy
      rw [hxe] at hfresh
      exact ⟨hmagic, e, he, (fresh_iff hb hb' (htimely a e he)).mp (of_decide_eq_true hfresh), hrestore⟩
    · rintro ⟨hmagic, e, he, hfresh, rfl⟩
      have hget : table[a.toCanonicalString]? = some (e.row base) := by rw [hvalue, he, Option.map_some]
      refine ⟨(a.toCanonicalString, e.row base), List.mem_filter.mpr ⟨?_, ?_⟩, ?_⟩
      · exact Std.ExtTreeMap.mem_toList_iff_getElem?_eq_some.mpr hget
      · exact decide_eq_true ((fresh_iff hb hb' (htimely a e he)).mpr hfresh)
      · rw [decodeRow_row hb' (htimely a e he), if_pos hmagic]
        rfl
  have hdistinct : entries.Pairwise fun x y => ¬ addrCmp x.1 y.1 = .eq := by
    rw [← hentries, List.pairwise_filterMap]
    refine (Std.ExtTreeMap.distinct_keys_toList.filter _).imp_of_mem fun {x x'} hx hx' hne y hy y' hy' heq => hne ?_
    have hkey := (hdecode x (List.mem_filter.mp hx).1 y hy).1
    have hkey' := (hdecode x' (List.mem_filter.mp hx').1 y' hy').1
    rw [hkey, hkey', Std.LawfulEqCmp.compare_eq_iff_eq.mp heq]
    exact Std.ReflCmp.compare_self
  refine ⟨⟨.ofList entries addrCmp, table, base'⟩, ?_, fun a e' => ?_⟩
  · rw [SqliteStore.open, hload, Outcome.ok_bind, Outcome.pure_def]
  · rw [← hmem]
    constructor
    · intro hget
      have hin : a ∈ (Std.ExtTreeMap.ofList entries addrCmp) :=
        Std.ExtTreeMap.mem_iff_isSome_getElem?.mpr (Option.isSome_of_mem hget)
      obtain ⟨⟨a', e''⟩, he'', rfl⟩ := List.mem_map.mp (List.contains_iff_mem.mp (Std.ExtTreeMap.mem_ofList.mp hin))
      have hsame := Std.ExtTreeMap.getElem?_ofList_of_mem Std.ReflCmp.compare_self hdistinct he''
      rw [hsame] at hget
      cases hget
      exact he''
    · exact fun h => Std.ExtTreeMap.getElem?_ofList_of_mem Std.ReflCmp.compare_self hdistinct h

lemma wall_back_iff : base'.wall (base'.back t) = t ↔ base'.system - t ≤ maxBack := by
  rw [wall_back]
  omega

/-- The instants come back exactly when none is older than an hour. -/
lemma atWall_restore : (e.restore base base').atWall base' = e.atWall base ↔
    base'.system - base.wall e.record.registeredAt ≤ maxBack ∧
      ∀ x ∈ e.record.observed, base'.system - base.wall x.2 ≤ maxBack := by
  rw [← wall_back_iff]
  constructor
  · intro h
    have hreg := congrArg (fun e => e.record.registeredAt) h
    have hobs := congrArg (fun e => e.record.observed) h
    refine ⟨hreg, fun x hx => wall_back_iff.mp ?_⟩
    dsimp only [Entry.atWall, Entry.restore] at hobs
    rw [Option.mem_def.mp hx] at hobs
    exact congrArg Prod.snd (Option.some_inj.mp hobs)
  · rintro ⟨hreg, hobs⟩
    have hmap : (e.record.observed.map fun x => (x.1, base'.back (base.wall x.2))).map (fun x => (x.1, base'.wall x.2)) =
        e.record.observed.map fun x => (x.1, base.wall x.2) := by
      rw [Option.map_map]
      exact Option.map_congr fun x hx => Prod.ext rfl (wall_back_iff.mpr (hobs x hx))
    rw [Entry.atWall, Entry.atWall, Entry.restore]
    dsimp only
    rw [hreg]
    exact congrArg (fun o => (⟨e.edPub, { e.record with registeredAt := base.wall e.record.registeredAt, observed := o }⟩ : Entry))
      hmap

lemma expiry_restore (hb : base.Sane) (hb' : base'.Sane) (he : e.Timely base)
    (hback : base'.system - base.wall e.record.registeredAt ≤ maxBack) :
    (e.restore base base').expiry base' = e.expiry base := by
  obtain ⟨h0, hle, hend⟩ := hb'
  have httl := he.ttl
  have hstop := he.stop
  have hold := expiry_eq hb he
  have hlater : base'.back (base.wall e.record.registeredAt) + e.record.ttl.val < 2 ^ 63 * 10 ^ 9 := by
    rw [Reading.back, maxBack] at *
    rw [clockEnd] at hstop hend
    omega
  have hnew : addSecs (base'.back (base.wall e.record.registeredAt)) e.record.ttl =
      base'.back (base.wall e.record.registeredAt) + e.record.ttl.val := by
    rw [addSecs, checkedAdd, if_pos hlater, Option.getD_some]
  have hsum : ∀ (r : Reading) (t d : Int), r.wall (t + d) = r.wall t + d := by
    intro r t d
    rw [Reading.wall, Reading.wall]
    omega
  rw [Entry.expiry, Entry.expiry, hold, hsum]
  refine (congrArg base'.wall hnew).trans ?_
  rw [hsum, wall_back_iff.mpr hback]

/-- An entry comes back after a restart as it was exactly when its address has the magic number and it is not older than
an hour, or when it has expired. -/
theorem restart_iff (hb : base.Sane) (hb' : base'.Sane) (hfit : ∀ x ∈ inserts, x.2.2.Timely base) :
    ∃ s, SqliteStore.open (SqliteStore.insertAll ⟨∅, ∅, base⟩ inserts).conn base' = .ok s ∧
      ∀ a, Restored base base' (lastEntry a inserts) (s.get a) ↔ ∀ e ∈ lastEntry a inserts, Recoverable base base' a e := by
  obtain ⟨s, hopen, hget⟩ := open_insertAll hb hb' hfit
  refine ⟨s, hopen, fun a => ?_⟩
  have hfound : ∀ e', s.get a = some e' ↔ _ := hget a
  cases hlast : lastEntry a inserts with
  | none =>
    refine iff_of_true ?_ fun e he => absurd he (Option.not_mem_none e)
    refine Option.eq_none_iff_forall_ne_some.mpr fun e' he' => ?_
    obtain ⟨-, e, he, -⟩ := (hfound e').mp he'
    rw [hlast] at he
    cases he
  | some e =>
    have hrestored : ∀ e', s.get a = some e' ↔ a.protocol = protocolMagic ∧
        e.record.isExpired (base.instant + (base'.system - base.system)) = false ∧ e' = e.restore base base' := by
      intro e'
      rw [hfound, hlast]
      simp only [Option.some.injEq, exists_eq_left']
    have he : e.Timely base := by
      obtain ⟨x, hx, rfl⟩ := Option.map_eq_some_iff.mp hlast
      exact hfit x (List.mem_filter.mp (List.mem_of_getLast? hx)).1
    simp only [Option.mem_def, Option.some.injEq, forall_eq']
    rw [Restored, Recoverable]
    split
    · next hexp =>
      refine iff_of_true ?_ fun hlive => ?_
      · refine Option.eq_none_iff_forall_ne_some.mpr fun e' he' => ?_
        rw [hexp] at hrestored
        exact Bool.true_eq_false.mp ((hrestored e').mp he').2.1
      · rw [hexp] at hlive
        cases hlive
    · next hlive =>
      rw [Bool.not_eq_true] at hlive
      simp only [hlive, forall_const]
      constructor
      · rintro ⟨e', he', -, hwall⟩
        obtain ⟨hmagic, -, rfl⟩ := (hrestored e').mp he'
        exact ⟨hmagic, atWall_restore.mp hwall⟩
      · rintro ⟨hmagic, hback, hobs⟩
        exact ⟨_, (hrestored _).mpr ⟨hmagic, hlive, rfl⟩, expiry_restore hb hb' he hback, atWall_restore.mpr ⟨hback, hobs⟩⟩

/-- A machine that was started at the epoch. -/
def startedAt (secs : Int) : Reading := ⟨secs * 10 ^ 9, secs * 10 ^ 9⟩

lemma sane_startedAt {secs : Int} (h0 : 0 ≤ secs) (h : secs < 2 ^ 63) : (startedAt secs).Sane := by
  rw [startedAt, Reading.Sane, clockEnd]
  dsimp only
  omega

/-- An entry for two hours. -/
def twoHours : Entry := CachedStore.sampleEntry 0 (.fromSecs 7200)

lemma timely_twoHours : twoHours.Timely (startedAt 0) := ⟨by decide, by decide, by decide, fun _ h => by cases h⟩

def magicAddress : IPv8Address := { CachedStore.sampleAddress with protocol := protocolMagic }

def oneInsert : Inserts := [(fun _ => startedAt 0, magicAddress, twoHours)]

lemma timely_oneInsert : ∀ x ∈ oneInsert, x.2.2.Timely (startedAt 0) := by
  intro x hx
  cases List.mem_singleton.mp hx
  exact timely_twoHours

/-- Half an hour later the entry comes back as it was. -/
theorem restart_sample : ∃ s, SqliteStore.open (SqliteStore.insertAll ⟨∅, ∅, startedAt 0⟩ oneInsert).conn (startedAt 1800) = .ok s ∧
    Restored (startedAt 0) (startedAt 1800) (some twoHours) (s.get magicAddress) := by
  obtain ⟨s, hopen, hiff⟩ := restart_iff (sane_startedAt (by decide) (by decide))
    (@sane_startedAt 1800 (by decide) (by decide)) timely_oneInsert
  exact ⟨s, hopen, (hiff magicAddress).mpr fun e he => by cases he; exact fun _ => ⟨rfl, by decide, fun _ h => by cases h⟩⟩

/-- An hour and a half later it is an hour old, and expires half an hour too late. -/
theorem restart_prolongs : ∃ s e', SqliteStore.open (SqliteStore.insertAll ⟨∅, ∅, startedAt 0⟩ oneInsert).conn (startedAt 5400) = .ok s ∧
    s.get magicAddress = some e' ∧ twoHours.expiry (startedAt 0) = 7200 * 10 ^ 9 ∧
    e'.expiry (startedAt 5400) = 9000 * 10 ^ 9 := by
  obtain ⟨s, hopen, hget⟩ := open_insertAll (sane_startedAt (by decide) (by decide))
    (@sane_startedAt 5400 (by decide) (by decide)) timely_oneInsert
  exact ⟨s, _, hopen, (hget magicAddress _).mpr ⟨rfl, twoHours, rfl, by decide, rfl⟩, by decide, by decide⟩

end IPv8Plus.Cloud
