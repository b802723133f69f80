import IPv8Plus.Neigh.Neighbor
import IPv8Plus.Lib.Blocks
import IPv8Plus.Lib.Reader
import IPv8Plus.Lib.Run

/-!
# The neighbor file

`NeighborStore::encode_vec` and `decode_slice` of `ipv8-neigh/src/lib.rs`: two magics, a version, a count of 32 bits, and
records of 64 bytes. A file may have a key more than once; reading puts its records into an empty table one after another.
-/

namespace IPv8Plus.Neigh
open Lib

def storeMagic1 : Bytes := [0x49, 0x50, 0x38, 0x4E]

def storeMagic2 : Bytes := [0x4E, 0x42, 0x48, 0x52]

def storeHdrLen : Nat := 13

def recordLen : Nat := 64

def storeVersion : UInt8 := 1

inductive StoreError where
  | storeTooShort
  | storeMagic
  | storeVersion (v : UInt8)
  | storeLength (expect got : Nat)
  deriving DecidableEq, Repr

namespace NeighborStore

/-- `u32::try_from(len).unwrap_or(u32::MAX)` -/
def fileCount (n : Nat) : UInt32 := if n < 2 ^ 32 then UInt32.ofNat n else 0xFFFFFFFF

def fileHead (count : UInt32) : Bytes := storeMagic1 ++ storeMagic2 ++ [Neigh.storeVersion] ++ le32 count

/-- A record with zeros for its padding; the time goes in as the `u64` of the same bits. -/
def encodeRecord (p : NeighborRecord) : Bytes :=
  p.mac.val ++ List.replicate 2 0 ++ p.addr.val ++ p.pubkey.val ++ le64 (UInt64.ofInt p.ts)

def encodeVec (s : NeighborStore) : Bytes := fileHead (fileCount s.peers.length) ++ s.peers.flatMap encodeRecord

/-- One record goes into the table. -/
def readRecord (store : NeighborStore) (rec : Bytes) : Outcome StoreError NeighborStore := do
  let mac ← copyFromSlice 6 (← slice rec 0 6)
  let addr ← copyFromSlice 16 (← slice rec 8 24)
  let pubkey ← copyFromSlice 32 (← slice rec 24 56)
  let ts ← copyFromSlice 8 (← slice rec 56 64)
  return store.upsert mac addr pubkey (ofLe64 ts.val).toInt64.toInt

def readRecords (buf : Bytes) (count : Nat) : Outcome StoreError NeighborStore :=
  (List.range count).foldlM (fun store i => do
    let base := storeHdrLen + i * recordLen
    readRecord store (← slice buf base (base + recordLen))) .new

def decodeSlice (buf : Bytes) : Outcome StoreError NeighborStore :=
  if buf.length < storeHdrLen then .err .storeTooShort
  else do
    let m1 ← slice buf 0 4
    let m2 ← slice buf 4 8
    if m1 ≠ storeMagic1 ∨ m2 ≠ storeMagic2 then .err .storeMagic
    else do
      let ver ← idx buf 8
      if ver ≠ Neigh.storeVersion then .err (.storeVersion ver)
      else do
        let count := (ofLe32 [← idx buf 9, ← idx buf 10, ← idx buf 11, ← idx buf 12]).toNat
        let expect := storeHdrLen + count * recordLen
        if buf.length ≠ expect then .err (.storeLength expect buf.length) else readRecords buf count

end NeighborStore

/-- A call of a table; times are `i64`. -/
inductive StoreCall where
  | upsert (mac : Mac) (addr : Addr) (pubkey : PublicKey) (ts : Int64)
  | removePubkey (pubkey : PublicKey)
  | removePubkeyPrefix (start : Bytes)
  | removeAddr (addr : Addr)
  | removeMac (mac : Mac)
  deriving DecidableEq

namespace NeighborStore

/-- Removals answer whether there was something to remove. -/
def step (s : NeighborStore) : StoreCall → NeighborStore × Option Bool
  | .upsert mac addr pubkey ts => (s.upsert mac addr pubkey ts.toInt, none)
  | .removePubkey pubkey => (s.removePubkey pubkey).map id some
  | .removePubkeyPrefix start => (s.removePubkeyPrefix start).map id some
  | .removeAddr addr => (s.removeAddr addr).map id some
  | .removeMac mac => (s.removeMac mac).map id some

end NeighborStore

/-! ## Records of a file -/

/-- A record as it is in a file, with any padding. -/
structure FileRecord where
  mac : Mac
  pad : Arr UInt8 2
  addr : Addr
  pubkey : PublicKey
  ts : Int64
  deriving DecidableEq

namespace FileRecord

def toBytes (r : FileRecord) : Bytes := r.mac.val ++ r.pad.val ++ r.addr.val ++ r.pubkey.val ++ le64 r.ts.toUInt64

def record (r : FileRecord) : NeighborRecord := ⟨r.mac, r.addr, r.pubkey, r.ts.toInt⟩

/-- The record of a table as it is written. -/
def ofRecord (p : NeighborRecord) : FileRecord :=
  ⟨p.mac, ⟨List.replicate 2 0, List.length_replicate⟩, p.addr, p.pubkey, Int64.ofInt p.ts⟩

variable (r : FileRecord) {p : NeighborRecord}

lemma length_toBytes : r.toBytes.length = recordLen := by
  simp only [toBytes, List.length_append, r.mac.property, r.pad.property, r.addr.property, r.pubkey.property, length_le64]
  rfl

lemma encodeRecord_eq (p : NeighborRecord) : NeighborStore.encodeRecord p = (ofRecord p).toBytes := by
  have hbits : UInt64.ofInt p.ts = (Int64.ofInt p.ts).toUInt64 := by
    apply UInt64.toNat_inj.mp
    have hlt : (p.ts % 2 ^ 64).toNat < 2 ^ 64 := by omega
    rw [UInt64.ofInt, UInt64.toNat_ofNat_of_lt' hlt]
    exact (BitVec.toNat_ofInt ..).symm
  rw [NeighborStore.encodeRecord, hbits]
  rfl

lemma record_ofRecord (hlow : -2 ^ 63 ≤ p.ts) (hhigh : p.ts < 2 ^ 63) : (ofRecord p).record = p := by
  rw [ofRecord, record]
  dsimp only
  rw [Int64.toInt_ofInt_of_le hlow hhigh]

/-- Every string of 64 bytes is a record. -/
lemma exists_toBytes {b : Bytes} (h : b.length = recordLen) : ∃ r : FileRecord, r.toBytes = b := by
  obtain ⟨mac, rest, rfl, hpad⟩ := exists_arr_append (n := 6) 58 h
  obtain ⟨pad, rest, rfl, haddr⟩ := exists_arr_append (n := 2) 56 hpad
  obtain ⟨addr, rest, rfl, hkey⟩ := exists_arr_append (n := 16) 40 haddr
  obtain ⟨pubkey, ts, rfl, hts⟩ := exists_arr_append (n := 32) 8 hkey
  refine ⟨⟨mac, pad, addr, pubkey, (ofLe64 ts).toInt64⟩, ?_⟩
  rw [toBytes]
  dsimp only
  rw [UInt64.toUInt64_toInt64, le64_ofLe64 hts]
  simp only [List.append_assoc]

/-- The fields stand where they are read. -/
lemma readRecord_toBytes (store : NeighborStore) :
    NeighborStore.readRecord store r.toBytes = .ok (store.upsert r.mac r.addr r.pubkey r.ts.toInt) := by
  have hfield : ∀ (front field rest : Bytes) (i j : Nat), front.length = i → i + field.length = j →
      r.toBytes = front ++ field ++ rest → (slice r.toBytes i j : Outcome StoreError Bytes) = .ok field := by
    intro front field rest i j hfront hfield hbytes
    rw [hbytes, List.append_assoc]
    exact slice_mid hfront hfield
  have hpad : (r.mac.val ++ r.pad.val).length = 8 := by rw [List.length_append, r.mac.property, r.pad.property]
  have haddr : (r.mac.val ++ r.pad.val ++ r.addr.val).length = 24 := by rw [List.length_append, hpad, r.addr.property]
  have hkey : (r.mac.val ++ r.pad.val ++ r.addr.val ++ r.pubkey.val).length = 56 := by
    rw [List.length_append, haddr, r.pubkey.property]
  have h1 := hfield [] r.mac.val (r.pad.val ++ r.addr.val ++ r.pubkey.val ++ le64 r.ts.toUInt64) 0 6 rfl
    ((Nat.zero_add _).trans r.mac.property) (by simp only [toBytes, List.append_assoc, List.nil_append])
  have h2 := hfield _ r.addr.val (r.pubkey.val ++ le64 r.ts.toUInt64) 8 24 hpad (congrArg (8 + ·) r.addr.property)
    (by simp only [toBytes, List.append_assoc])
  have h3 := hfield _ r.pubkey.val (le64 r.ts.toUInt64) 24 56 haddr (congrArg (24 + ·) r.pubkey.property) rfl
  have h4 := hfield _ (le64 r.ts.toUInt64) [] 56 64 hkey (congrArg (56 + ·) (length_le64 _)) (List.append_nil _).symm
  have harr : (copyFromSlice 8 (le64 r.ts.toUInt64) : Outcome StoreError (Arr UInt8 8)) = .ok ⟨_, length_le64 _⟩ :=
    copyFromSlice_val ⟨le64 r.ts.toUInt64, length_le64 _⟩
  rw [NeighborStore.readRecord, h1, h2, h3, h4]
  simp only [Outcome.ok_bind, copyFromSlice_val, harr, ofLe64_le64, Int64.toInt64_toUInt64, Outcome.pure_def]

end FileRecord

/-! ## Tables of a file -/

namespace NeighborStore

variable {s : NeighborStore} {recs : List FileRecord} {count : UInt32} {buf : Bytes}

@[ext] lemma ext {s' : NeighborStore} (h : s.peers = s'.peers) : s = s' := by
  cases s
  cases h
  rfl

/-- The table that has these records put into it. -/
def ofRecords (recs : List FileRecord) : NeighborStore :=
  recs.foldl (fun s r => s.upsert r.mac r.addr r.pubkey r.ts.toInt) .new

lemma peers_ofRecords (recs : List FileRecord) : (ofRecords recs).peers = putAll NeighborRecord.pubkey (recs.map FileRecord.record) := by
  induction recs using List.reverseRecOn with
  | nil => rfl
  | append_singleton recs r ih =>
    rw [List.map_append, List.map_singleton, putAll_concat, ← ih, ofRecords, List.foldl_concat, ← ofRecords]
    exact upsertPeers_eq ..

lemma length_fileHead (count : UInt32) : (fileHead count).length = storeHdrLen := by
  rw [fileHead, List.length_append, length_le32]
  rfl

/-- What is checked of a buffer with room for a head. -/
lemma decodeSlice_of_le (h : storeHdrLen ≤ buf.length) : decodeSlice buf =
    if buf.take 4 ≠ storeMagic1 ∨ (buf.drop 4).take 4 ≠ storeMagic2 then .err .storeMagic
    else if buf.getD 8 0 ≠ Neigh.storeVersion then .err (.storeVersion (buf.getD 8 0))
    else
      let count := (ofLe32 ((buf.drop 9).take 4)).toNat
      if buf.length ≠ storeHdrLen + count * recordLen then .err (.storeLength (storeHdrLen + count * recordLen) buf.length)
      else readRecords buf count := by
  have hhdr : storeHdrLen = 13 := rfl
  have hget : ∀ i, i < 13 → buf[i]? = some (buf.getD i 0) := by
    intro i hi
    rw [List.getD_eq_getElem _ _ (by omega), List.getElem?_eq_getElem]
  have hidx : ∀ i, i < 13 → (idx buf i : Outcome StoreError UInt8) = .ok (buf.getD i 0) := fun i hi => idx_of_getElem? (hget i hi)
  have hcount : (buf.drop 9).take 4 = [buf.getD 9 0, buf.getD 10 0, buf.getD 11 0, buf.getD 12 0] := by
    rw [take_drop_succ (hget 9 (by omega)), take_drop_succ (hget 10 (by omega)), take_drop_succ (hget 11 (by omega)),
      take_drop_succ (hget 12 (by omega)), List.take_zero]
  rw [decodeSlice, if_neg (Nat.not_lt.mpr h), slice_of_le (Nat.zero_le 4) (by omega), slice_of_le (by omega) (by omega),
    hidx 8 (by omega), hidx 9 (by omega), hidx 10 (by omega), hidx 11 (by omega), hidx 12 (by omega), hcount]
  rfl

/-- The head of a file says how many records there are to read. -/
lemma decodeSlice_head (count : UInt32) (rest : Bytes) : decodeSlice (fileHead count ++ rest) =
    if rest.length ≠ count.toNat * recordLen then .err (.storeLength (storeHdrLen + count.toNat * recordLen) (storeHdrLen + rest.length))
    else readRecords (fileHead count ++ rest) count.toNat := by
  have hlen : (fileHead count ++ rest).length = storeHdrLen + rest.length := by rw [List.length_append, length_fileHead]
  have hm1 : (fileHead count ++ rest).take 4 = storeMagic1 := rfl
  have hm2 : ((fileHead count ++ rest).drop 4).take 4 = storeMagic2 := rfl
  have hversion : (fileHead count ++ rest).getD 8 0 = Neigh.storeVersion := rfl
  have hcount : ((fileHead count ++ rest).drop 9).take 4 = le32 count := rfl
  rw [decodeSlice_of_le (by omega), hm1, hm2, hversion, hcount, ofLe32_le32, hlen, if_neg (by decide), if_neg (not_not_intro rfl)]
  exact if_congr (not_congr Nat.add_left_cancel_iff) rfl rfl

/-- A file with these records is read as their table. -/
lemma decodeSlice_file (h : recs.length = count.toNat) :
    decodeSlice (fileHead count ++ recs.flatMap FileRecord.toBytes) = .ok (ofRecords recs) := by
  rw [decodeSlice_head, length_blocks FileRecord.length_toBytes, h, if_neg (not_not_intro rfl), readRecords, ← h]
  apply foldlM_range
  intro store i r hr
  have hslice := slice_blocks (ε := StoreError) FileRecord.length_toBytes (fileHead count) [] hr
  rw [List.append_nil, length_fileHead] at hslice
  dsimp only
  rw [hslice, Outcome.ok_bind, r.readRecord_toBytes]

/-- What the head of an accepted file looks like. -/
structure StoreFile (buf : Bytes) : Prop where
  magic1 : buf.take 4 = storeMagic1
  magic2 : (buf.drop 4).take 4 = storeMagic2
  version : buf[8]? = some Neigh.storeVersion
  length : buf.length = storeHdrLen + (ofLe32 ((buf.drop 9).take 4)).toNat * recordLen

/-- A file of the right form is a head and records. -/
lemma StoreFile.exists_records (h : StoreFile buf) :
    ∃ recs : List FileRecord, recs.length = (ofLe32 ((buf.drop 9).take 4)).toNat ∧
      buf = fileHead (ofLe32 ((buf.drop 9).take 4)) ++ recs.flatMap FileRecord.toBytes := by
  have hlen := h.length
  have hhdr : storeHdrLen = 13 := rfl
  have hcount : ((buf.drop 9).take 4).length = 4 := List.length_take_of_le (by rw [List.length_drop]; omega)
  obtain ⟨recs, hrecs, hbytes⟩ := exists_blocks (fun _ hb => FileRecord.exists_toBytes hb)
    (b := buf.drop 13) (k := (ofLe32 ((buf.drop 9).take 4)).toNat) (by rw [List.length_drop]; omega)
  refine ⟨recs, hrecs, ?_⟩
  have hver : (buf.drop 8).take 1 = [Neigh.storeVersion] := take_drop_succ h.version
  rw [fileHead, le32_ofLe32 hcount, hbytes, ← h.magic1, ← h.magic2, ← hver, ← List.take_add, ← List.take_add, ← List.take_add,
    List.take_append_drop]

/-- A buffer is refused, or it has the right form. -/
lemma decodeSlice_cases (buf : Bytes) : (∃ e, decodeSlice buf = .err e) ∨ StoreFile buf := by
  by_cases hshort : buf.length < storeHdrLen
  · exact .inl ⟨_, if_pos hshort⟩
  have hroom := Nat.not_lt.mp hshort
  have hhdr : storeHdrLen = 13 := rfl
  rw [decodeSlice_of_le hroom]
  dsimp only
  split_ifs with hmagic hversion hlen
  · exact .inl ⟨_, rfl⟩
  · exact .inl ⟨_, rfl⟩
  · exact .inl ⟨_, rfl⟩
  · obtain ⟨hmagic1, hmagic2⟩ := not_or.mp hmagic
    refine .inr ⟨not_not.mp hmagic1, not_not.mp hmagic2, ?_, not_not.mp hlen⟩
    rw [← not_not.mp hversion, List.getD_eq_getElem _ _ (by omega), List.getElem?_eq_getElem]

/-! ## Tables of a run -/

/-- The times of a table are `i64`. -/
def Timely (s : NeighborStore) : Prop := ∀ p ∈ s.peers, -2 ^ 63 ≤ p.ts ∧ p.ts < 2 ^ 63

lemma timely_step {s : NeighborStore} (h : s.Timely) (c : StoreCall) : (s.step c).1.Timely := by
  have hretain : ∀ keep, (s.retain keep).1.Timely := fun keep p hp => h p (List.mem_of_mem_filter hp)
  cases c with
  | upsert mac addr pubkey ts =>
    intro p hp
    have hp : p ∈ upsertPeers mac addr pubkey ts.toInt s.peers := hp
    rw [upsertPeers_eq, mem_putBy s.nodup] at hp
    rcases hp with rfl | ⟨hp, -⟩
    · exact ⟨Int64.le_toInt ts, Int64.toInt_lt ts⟩
    · exact h p hp
  | removePubkey pubkey => exact hretain _
  | removePubkeyPrefix start =>
    rw [step, removePubkeyPrefix]
    split
    · exact h
    · exact hretain _
  | removeAddr addr => exact hretain _
  | removeMac mac => exact hretain _

lemma timely_run (calls : List StoreCall) : (run step .new calls).1.Timely := by
  have hnew : Timely .new := fun _ hp => absurd hp List.not_mem_nil
  exact invariant_run_all (I := Timely) (fun _ c h => timely_step h c) hnew calls

/-- A table whose count fits is read back. -/
lemma decodeSlice_encodeVec {s : NeighborStore} (h : s.Timely) (hlen : s.peers.length < 2 ^ 32) : decodeSlice s.encodeVec = .ok s := by
  have hsame : (s.peers.map FileRecord.ofRecord).map FileRecord.record = s.peers := by
    rw [List.map_map]
    refine (List.map_congr_left fun p hp => ?_).trans s.peers.map_id
    exact FileRecord.record_ofRecord (h p hp).1 (h p hp).2
  have hbytes : s.peers.flatMap encodeRecord = (s.peers.map FileRecord.ofRecord).flatMap FileRecord.toBytes := by
    rw [List.flatMap_map, funext FileRecord.encodeRecord_eq]
  have hcount : (fileCount s.peers.length).toNat = s.peers.length := by
    rw [fileCount, if_pos hlen, UInt32.toNat_ofNat_of_lt' hlen]
  rw [encodeVec, hbytes, decodeSlice_file (by rw [List.length_map, hcount])]
  congr 1
  ext1
  rw [peers_ofRecords, hsame, putAll_of_nodup s.nodup]

/-- From 2^32 records on the count of the file is too small. -/
lemma decodeSlice_encodeVec_full {s : NeighborStore} (hlen : 2 ^ 32 ≤ s.peers.length) :
    ∃ expect got, decodeSlice s.encodeVec = .err (.storeLength expect got) := by
  have hrecord : ∀ p, (encodeRecord p).length = recordLen := fun p => by rw [FileRecord.encodeRecord_eq, FileRecord.length_toBytes]
  have hmax : (0xFFFFFFFF : UInt32).toNat = 4294967295 := rfl
  have hmore : s.peers.length * recordLen ≠ 4294967295 * recordLen := by
    rw [recordLen]
    omega
  rw [encodeVec, fileCount, if_neg (Nat.not_lt.mpr hlen), decodeSlice_head, length_blocks hrecord, hmax, if_pos hmore]
  exact ⟨_, _, rfl⟩

/-- What a file is read as. Its keys stand in the order of their first records, with the data of their last ones. -/
structure Reads (recs : List FileRecord) (s : NeighborStore) : Prop where
  nodup : s.keys.Nodup
  keys : s.keys = (recs.map FileRecord.pubkey).eraseDups
  last : ∀ p, p ∈ s.peers ↔ ∃ before r after, recs = before ++ r :: after ∧ r.record = p ∧ ∀ r' ∈ after, r'.pubkey ≠ p.pubkey

lemma reads_ofRecords (recs : List FileRecord) : Reads recs (ofRecords recs) := by
  have hpeers := peers_ofRecords recs
  refine ⟨(ofRecords recs).nodup, ?_, ?_⟩
  · rw [keys, hpeers, map_putAll, List.map_map]
    rfl
  · intro p
    rw [hpeers, mem_putAll]
    constructor
    · rintro ⟨before, after, hsplit, hlast⟩
      obtain ⟨before, rest, rfl, rfl, hrest⟩ := List.map_eq_append_iff.mp hsplit
      obtain ⟨r, after, rfl, rfl, rfl⟩ := List.map_eq_cons_iff.mp hrest
      exact ⟨before, r, after, rfl, rfl, fun r' hr' => hlast _ (List.mem_map_of_mem hr')⟩
    · rintro ⟨before, r, after, rfl, rfl, hlast⟩
      refine ⟨before.map FileRecord.record, after.map FileRecord.record, by rw [List.map_append, List.map_cons], ?_⟩
      intro z hz
      obtain ⟨r', hr', rfl⟩ := List.mem_map.mp hz
      exact hlast r' hr'

/-- **The codec of the neighbor file.** The table of a run is read back exactly when its count fits in 32 bits; reading does not
panic, accepts the files of the right form, and gives each key once with the data of its last record. -/
theorem neighborFile_codec :
    (∀ calls, let s := (run step .new calls).1; decodeSlice s.encodeVec = .ok s ↔ s.peers.length < 2 ^ 32) ∧
    ∀ buf, decodeSlice buf ≠ .panic ∧ ((∃ s, decodeSlice buf = .ok s) ↔ StoreFile buf) ∧
      ∀ s, decodeSlice buf = .ok s → ∃ recs : List FileRecord, recs.length = (ofLe32 ((buf.drop 9).take 4)).toNat ∧
        buf.drop storeHdrLen = recs.flatMap FileRecord.toBytes ∧ Reads recs s := by
  refine ⟨fun calls => ⟨fun h => ?_, decodeSlice_encodeVec (timely_run calls)⟩, fun buf => ?_⟩
  · by_contra hfull
    obtain ⟨expect, got, herr⟩ := decodeSlice_encodeVec_full (Nat.not_lt.mp hfull)
    rw [herr] at h
    cases h
  have hfile : StoreFile buf → ∃ recs : List FileRecord, recs.length = (ofLe32 ((buf.drop 9).take 4)).toNat ∧
      buf.drop storeHdrLen = recs.flatMap FileRecord.toBytes ∧ decodeSlice buf = .ok (ofRecords recs) := by
    intro h
    obtain ⟨recs, hcount, hbuf⟩ := h.exists_records
    refine ⟨recs, hcount, ?_, hbuf ▸ decodeSlice_file hcount⟩
    rw [hbuf, List.drop_left' (length_fileHead _)]
  rcases decodeSlice_cases buf with ⟨e, herr⟩ | h
  · refine ⟨fun hpanic => ?_, ⟨?_, fun h => ?_⟩, fun s hs => ?_⟩
    · rw [herr] at hpanic
      cases hpanic
    · rintro ⟨s, hs⟩
      rw [herr] at hs
      cases hs
    · obtain ⟨recs, -, -, hok⟩ := hfile h
      rw [herr] at hok
      cases hok
    · rw [herr] at hs
      cases hs
  · obtain ⟨recs, hcount, hbytes, hok⟩ := hfile h
    refine ⟨fun hpanic => ?_, ⟨fun _ => h, fun _ => ⟨_, hok⟩⟩, fun s hs => ?_⟩
    · rw [hok] at hpanic
      cases hpanic
    · rw [hok] at hs
      cases hs
      exact ⟨recs, hcount, hbytes, reads_ofRecords recs⟩

/-- The call that adds a record. -/
def addCall (r : FileRecord) : StoreCall := .upsert r.mac r.addr r.pubkey r.ts

lemma run_addCalls (recs : List FileRecord) : (run step .new (recs.map addCall)).1 = ofRecords recs := by
  have hfold : ∀ s : NeighborStore, (run step s (recs.map addCall)).1 = recs.foldl (fun s r => s.upsert r.mac r.addr r.pubkey r.ts.toInt) s := by
    induction recs with
    | nil => exact fun s => rfl
    | cons r recs ih => exact fun s => ih _
  exact hfold .new

/-- Records whose keys are the numbers from zero on. -/
def numbered (n : Nat) : FileRecord :=
  ⟨⟨List.replicate 6 0, List.length_replicate⟩, ⟨List.replicate 2 0, List.length_replicate⟩,
    ⟨List.replicate 16 0, List.length_replicate⟩, ⟨toBe 32 n, length_toBe 32 n⟩, 0⟩

lemma length_ofRecords_numbered {n : Nat} (h : n ≤ 256 ^ 32) : (ofRecords ((List.range n).map numbered)).peers.length = n := by
  have hnodup : ((((List.range n).map numbered).map FileRecord.record).map NeighborRecord.pubkey).Nodup := by
    rw [List.map_map, List.map_map]
    refine List.nodup_range.map_on ?_
    intro i hi j hj hkey
    have hbytes : toBe 32 i = toBe 32 j := congrArg Subtype.val hkey
    rw [← ofBe_toBe (lt_of_lt_of_le (List.mem_range.mp hi) h), hbytes, ofBe_toBe (lt_of_lt_of_le (List.mem_range.mp hj) h)]
  rw [peers_ofRecords, putAll_of_nodup hnodup, List.length_map, List.length_map, List.length_range]

/-- A table of 2^32 neighbors is written and not read back. -/
theorem full_table_not_read_back : ¬ ∀ calls, decodeSlice (run step .new calls).1.encodeVec = .ok (run step .new calls).1 := by
  intro h
  have hread := h (((List.range (2 ^ 32)).map numbered).map addCall)
  rw [run_addCalls] at hread
  have hfull : 2 ^ 32 ≤ (ofRecords ((List.range (2 ^ 32)).map numbered)).peers.length := by
    rw [length_ofRecords_numbered (by decide)]
  obtain ⟨expect, got, herr⟩ := decodeSlice_encodeVec_full hfull
  rw [herr] at hread
  cases hread

end NeighborStore

end IPv8Plus.Neigh
