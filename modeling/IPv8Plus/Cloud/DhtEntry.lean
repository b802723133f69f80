import IPv8Plus.Cloud.Store
import IPv8Plus.Lib.Reader

/-!
# Entries as bytes

The encoding of `cloud/resolver/src/dht_store.rs`. Instants go into the bytes as whole seconds of the wall clock, by what
the two clocks read when the entry is written, and come back by what they read then; each instant has its own readings.
An entry whose texts and lists are short and whose time to live is a number of seconds is read back as it is, its
instants to the second.
-/

namespace IPv8Plus.Cloud
open Lib Codec

/-- Where the seconds of a clock end. -/
def clockEnd : Int := 2 ^ 63 * 10 ^ 9

/-- The two clocks of a machine that runs since its start. -/
def Reading.Sane (r : Reading) : Prop := 0 ≤ r.instant ∧ r.instant ≤ r.system ∧ r.system < clockEnd

/-- Whole seconds of the wall clock. -/
def instantToSystemSecs (r : Reading) (t : Int) : UInt64 :=
  let s := r.system + (t - r.instant)
  if r.instant ≤ t then
    if s < clockEnd ∧ 0 ≤ s then UInt64.ofNat (s.toNat / 10 ^ 9) else 0x7FFFFFFFFFFFFFFF
  else if 0 ≤ s then UInt64.ofNat (s.toNat / 10 ^ 9) else 0

/-- Instants and times that cannot be represented panic. -/
def systemSecsToInstant (r : Reading) (secs : UInt64) : Outcome Unit Instant :=
  let target : Int := secs.toNat * 10 ^ 9
  let t := r.instant + (target - r.system)
  if clockEnd ≤ target then .panic
  else if r.system ≤ target then
    if t < clockEnd then .ok t else .panic
  else if -clockEnd ≤ t then .ok t else .panic

/-- The length is cut off to 16 bits. -/
def encodeString (s : String) : Bytes := le16 (UInt16.ofNat (utf8 s).length) ++ utf8 s

def encodeStrings (l : List String) : Bytes := le16 (UInt16.ofNat l.length) ++ l.flatMap encodeString

def encodeObserved (r : Reading) : Option (String × Instant) → Bytes
  | none => [0]
  | some (addr, t) => 1 :: encodeString addr ++ le64 (instantToSystemSecs r t)

def encodeEntry (clock : ℕ → Reading) (e : Entry) : Bytes :=
  e.edPub.val ++ encodeString e.record.tunnelEntry ++ encodeStrings e.record.altEntries ++
    [if e.record.ipv8Capable then 1 else 0] ++ le32 e.record.mtu ++ le64 (instantToSystemSecs (clock 0) e.record.registeredAt) ++
    le64 (UInt64.ofNat (e.record.ttl.val / 10 ^ 9)) ++ encodeObserved (clock 1) e.record.observed ++
    encodeStrings e.record.localCandidates

def readKey : Reader PublicKey := fun data =>
  if h : 32 ≤ data.length then some (⟨data.take 32, List.length_take_of_le h⟩, data.drop 32) else none

def readU8 : Reader UInt8
  | [] => none
  | b :: data => some (b, data)

def readU16 : Reader UInt16 := readWith 2 ofLe16

def readU32 : Reader UInt32 := readWith 4 ofLe32

def readU64 : Reader UInt64 := readWith 8 ofLe64

def readStr (len : ℕ) : Reader String := readWith len fromUtf8Lossy

def readString : Reader String := fun data => do
  let (len, data) ← readU16 data
  readStr len.toNat data

def readStrings : Reader (List String) := fun data => do
  let (count, data) ← readU16 data
  readMany readString count.toNat data

/-- Reading past the end is an error. -/
def orErr {α : Type} : Option α → Outcome Unit α
  | some a => .ok a
  | none => .err ()

def readObserved (r : Reading) (data : Bytes) : Outcome Unit (Option (String × Instant) × Bytes) := do
  let (tag, data) ← orErr (readU8 data)
  if tag = 0 then return (none, data)
  else if tag = 1 then
    let (addr, data) ← orErr (readString data)
    let (secs, data) ← orErr (readU64 data)
    let t ← systemSecsToInstant r secs
    return (some (addr, t), data)
  else .err ()

def decodeEntry (clock : ℕ → Reading) (data : Bytes) : Outcome Unit Entry := do
  let (edPub, data) ← orErr (readKey data)
  let (tunnelEntry, data) ← orErr (readString data)
  let (altEntries, data) ← orErr (readStrings data)
  let (capable, data) ← orErr (readU8 data)
  let (mtu, data) ← orErr (readU32 data)
  let (regSecs, data) ← orErr (readU64 data)
  let (ttlSecs, data) ← orErr (readU64 data)
  let (observed, data) ← readObserved (clock 1) data
  let (localCandidates, _) ← orErr (readStrings data)
  let registeredAt ← systemSecsToInstant (clock 0) regSecs
  return ⟨edPub, ⟨tunnelEntry, altEntries, capable != 0, mtu, registeredAt, .fromSecs ttlSecs, observed, localCandidates⟩⟩

/-- The text's length fits 16 bits. -/
def Short (s : String) : Prop := (utf8 s).length < 2 ^ 16

def ShortList (l : List String) : Prop := l.length < 2 ^ 16 ∧ ∀ s ∈ l, Short s

/-- What the encoding has room for. -/
structure Encodable (e : Entry) : Prop where
  tunnelEntry : Short e.record.tunnelEntry
  altEntries : ShortList e.record.altEntries
  ttl : 10 ^ 9 ∣ e.record.ttl.val
  observed : ∀ x ∈ e.record.observed, Short x.1
  localCandidates : ShortList e.record.localCandidates

/-- The entry with its instants as seconds of the wall clock. -/
def Entry.onWall (clock : ℕ → Reading) (e : Entry) : Entry :=
  { e with record :=
    { e.record with
      registeredAt := (instantToSystemSecs (clock 0) e.record.registeredAt).toNat
      observed := e.record.observed.map fun x => (x.1, (instantToSystemSecs (clock 1) x.2).toNat) } }

variable {clock clock' : ℕ → Reading} {r r' : Reading} {t : Int} {secs : UInt64} {rest : Bytes} {s : String} {l : List String} {e : Entry}

/-- Seconds that the clock can show come back. -/
lemma systemSecsToInstant_eq (hr : r.Sane) (h : (secs.toNat : Int) * 10 ^ 9 < clockEnd) :
    ∃ t, systemSecsToInstant r secs = .ok t ∧ instantToSystemSecs r t = secs := by
  obtain ⟨h0, hle, hend⟩ := hr
  refine ⟨r.instant + (secs.toNat * 10 ^ 9 - r.system), ?_, ?_⟩
  · rw [systemSecsToInstant, if_neg (not_le.mpr h)]
    rw [clockEnd] at h hend ⊢
    split
    · exact if_pos (by omega)
    · exact if_pos (by omega)
  · have hback : r.system + (r.instant + (secs.toNat * 10 ^ 9 - r.system) - r.instant) = secs.toNat * 10 ^ 9 := by omega
    have hsecs : UInt64.ofNat (((secs.toNat : Int) * 10 ^ 9).toNat / 10 ^ 9) = secs := by
      have hdiv : ((secs.toNat : Int) * 10 ^ 9).toNat / 10 ^ 9 = secs.toNat := by omega
      rw [hdiv, UInt64.ofNat_toNat]
    rw [instantToSystemSecs, hback]
    split
    · rw [if_pos ⟨h, by omega⟩, hsecs]
    · rw [if_pos (by omega), hsecs]

lemma instantToSystemSecs_lt (hr : r.Sane) : ((instantToSystemSecs r t).toNat : Int) * 10 ^ 9 < clockEnd := by
  obtain ⟨h0, hle, hend⟩ := hr
  have hsecs : ∀ s : Int, 0 ≤ s → s < clockEnd → ((UInt64.ofNat (s.toNat / 10 ^ 9)).toNat : Int) * 10 ^ 9 < clockEnd := by
    intro s hs hlt
    rw [clockEnd] at hlt ⊢
    have hfit : s.toNat / 10 ^ 9 < UInt64.size := by
      rw [UInt64.size]
      omega
    rw [UInt64.toNat_ofNat_of_lt' hfit]
    omega
  rw [instantToSystemSecs]
  split
  · split
    · next h => exact hsecs _ h.2 h.1
    · decide
  · next hnow =>
    split
    · next h => exact hsecs _ h (by omega)
    · decide

lemma orErr_some {α : Type} {x : Option α} {a : α} (h : x = some a) : orErr x = .ok a := by
  rw [h]
  rfl

lemma orErr_bind {α β : Type} {x : Option α} {a : α} {f : α → Outcome Unit β} (h : x = some a) : (orErr x >>= f) = f a := by
  rw [orErr_some h, Outcome.ok_bind]

lemma readU8_cons {b : UInt8} : readU8 (b :: rest) = some (b, rest) := rfl

lemma readU16_append {v : UInt16} : readU16 (le16 v ++ rest) = some (v, rest) := by
  rw [readU16, readWith_append (length_le16 v), ofLe16_le16]

lemma readU32_append {v : UInt32} : readU32 (le32 v ++ rest) = some (v, rest) := by
  rw [readU32, readWith_append (length_le32 v), ofLe32_le32]

lemma readU64_append {v : UInt64} : readU64 (le64 v ++ rest) = some (v, rest) := by
  rw [readU64, readWith_append (length_le64 v), ofLe64_le64]

lemma readKey_append {key : PublicKey} : readKey (key.val ++ rest) = some (key, rest) := by
  have hroom : 32 ≤ (key.val ++ rest).length := by
    rw [List.length_append, key.property]
    omega
  rw [readKey, dif_pos hroom]
  exact congrArg some (Prod.ext (Subtype.ext (List.take_left' key.property)) (List.drop_left' key.property))

lemma readString_append (h : Short s) : readString (encodeString s ++ rest) = some (s, rest) := by
  have hlen : (UInt16.ofNat (utf8 s).length).toNat = (utf8 s).length := UInt16.toNat_ofNat_of_lt' h
  rw [readString, encodeString, List.append_assoc, readU16_append]
  dsimp only [Option.bind_eq_bind, Option.bind_some]
  rw [hlen, readStr, readWith_append rfl, fromUtf8Lossy_utf8]

lemma readStrings_append (h : ShortList l) : readStrings (encodeStrings l ++ rest) = some (l, rest) := by
  have hlen : (UInt16.ofNat l.length).toNat = l.length := UInt16.toNat_ofNat_of_lt' h.1
  rw [readStrings, encodeStrings, List.append_assoc, readU16_append]
  dsimp only [Option.bind_eq_bind, Option.bind_some]
  rw [hlen]
  exact readMany_flatMap fun s hs _ => readString_append (h.2 s hs)

lemma readObserved_none : readObserved r (encodeObserved r' none ++ rest) = .ok (none, rest) := rfl

lemma readObserved_some (hr : r.Sane) (hr' : r'.Sane) (h : Short s) : ∃ t',
    readObserved r' (encodeObserved r (some (s, t)) ++ rest) = .ok (some (s, t'), rest) ∧
      instantToSystemSecs r' t' = instantToSystemSecs r t := by
  have hend := instantToSystemSecs_lt (t := t) hr
  generalize hsecs : instantToSystemSecs r t = secs at hend
  obtain ⟨t', ht, hback⟩ := systemSecsToInstant_eq hr' hend
  have hbytes : encodeObserved r (some (s, t)) ++ rest = 1 :: (encodeString s ++ (le64 secs ++ rest)) := by
    rw [encodeObserved, List.cons_append, List.cons_append, List.append_assoc, hsecs]
  refine ⟨t', ?_, hback⟩
  rw [hbytes, readObserved, orErr_bind readU8_cons]
  dsimp only
  rw [if_neg (by decide), if_pos rfl, orErr_bind (readString_append h)]
  dsimp only
  rw [orErr_bind readU64_append]
  dsimp only
  rw [ht, Outcome.ok_bind, Outcome.pure_def]

lemma readObserved_append (hr : r.Sane) (hr' : r'.Sane) {observed : Option (String × Instant)}
    (h : ∀ x ∈ observed, Short x.1) : ∃ observed', readObserved r' (encodeObserved r observed ++ rest) = .ok (observed', rest) ∧
      observed'.map (fun x => (x.1, ((instantToSystemSecs r' x.2).toNat : Instant))) =
        observed.map fun x => (x.1, ((instantToSystemSecs r x.2).toNat : Instant)) := by
  cases observed with
  | none => exact ⟨none, readObserved_none, rfl⟩
  | some x =>
    obtain ⟨t, ht, hsecs⟩ := @readObserved_some _ _ x.2 rest _ hr hr' (h x rfl)
    refine ⟨some (x.1, t), ht, ?_⟩
    rw [Option.map_some, Option.map_some, hsecs]

/-- An entry is read back with its instants to the second. -/
theorem decodeEntry_encodeEntry (hr : ∀ i, (clock i).Sane) (hr' : ∀ i, (clock' i).Sane) (he : Encodable e) :
    ∃ e', decodeEntry clock' (encodeEntry clock e) = .ok e' ∧ e'.onWall clock' = e.onWall clock := by
  obtain ⟨t, ht, hsecs⟩ := systemSecsToInstant_eq (hr' 0) (instantToSystemSecs_lt (t := e.record.registeredAt) (hr 0))
  obtain ⟨observed, hobserved, hwall⟩ :=
    @readObserved_append _ _ (encodeStrings e.record.localCandidates) (hr 1) (hr' 1) _ he.observed
  have httl : Duration.fromSecs (UInt64.ofNat (e.record.ttl.val / 10 ^ 9)) = e.record.ttl := by
    have hlt := e.record.ttl.isLt
    have hfit : e.record.ttl.val / 10 ^ 9 < UInt64.size := by
      rw [UInt64.size]
      omega
    refine Fin.ext ?_
    rw [Duration.fromSecs]
    dsimp only
    rw [UInt64.toNat_ofNat_of_lt' hfit]
    exact Nat.div_mul_cancel he.ttl
  have hcapable : ((if e.record.ipv8Capable then 1 else 0 : UInt8) != 0) = e.record.ipv8Capable := by
    cases e.record.ipv8Capable with
    | true => rfl
    | false => rfl
  refine ⟨⟨e.edPub, { e.record with registeredAt := t, observed := observed }⟩, ?_, ?_⟩
  · have hend : readStrings (encodeStrings e.record.localCandidates) = some (e.record.localCandidates, []) := by
      have h := @readStrings_append [] _ he.localCandidates
      rw [List.append_nil] at h
      exact h
    rw [decodeEntry, encodeEntry]
    simp only [List.append_assoc]
    rw [orErr_bind readKey_append]
    dsimp only
    rw [orErr_bind (readString_append he.tunnelEntry)]
    dsimp only
    rw [orErr_bind (readStrings_append he.altEntries)]
    dsimp only
    rw [List.singleton_append, orErr_bind readU8_cons]
    dsimp only
    rw [orErr_bind readU32_append]
    dsimp only
    rw [orErr_bind readU64_append]
    dsimp only
    rw [orErr_bind readU64_append]
    dsimp only
    rw [hobserved, Outcome.ok_bind]
    dsimp only
    rw [orErr_bind hend]
    dsimp only
    rw [ht, Outcome.ok_bind, httl, hcapable, Outcome.pure_def]
  · rw [Entry.onWall, Entry.onWall]
    dsimp only
    rw [hsecs, hwall]

end IPv8Plus.Cloud
