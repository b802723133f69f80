import IPv8Plus.Driver.Registry
import IPv8Plus.Lib.Blocks
import IPv8Plus.Lib.Reader

/-!
# The snapshot of the bindings

`IPv8IoctlBindings` writes one entry for each binding into the buffer of the request, and three programs read the
answer: `driver_query_bindings` of the client, `l2_query_bindings` of the node and `ReloadAdapters` of the property
page. The buffer holds what was in it before; `snapshot_discloses` says how much of that comes out.
-/

namespace IPv8Plus.Driver
open Lib

def bindingsHdrLen : Nat := 16

def bindingEntryLen : Nat := 180

def bindingNameChars : Nat := 64

namespace OpenContext

/-- The part of the name that there is room for in front of the terminator. -/
def shortName (c : OpenContext) : List UInt16 := c.adapterName.take (min c.adapterName.length (bindingNameChars - 1))

def mac (c : OpenContext) : Arr UInt8 6 := c.currentMac.getD ⟨List.replicate 6 0, rfl⟩

end OpenContext

/-- The name of an entry, and its length, which stands in front of it and is written last. -/
def writeName (buf : Bytes) (base : Nat) (name : List UInt16) : Option Bytes := do
  let buf ← writeAt buf (base + 52) (name.flatMap le16)
  let buf ← writeAt buf (base + 52 + 2 * name.length) (le16 0)
  writeAt buf (base + 48) (le32 (UInt32.ofNat name.length))

/-- An entry, field by field. -/
def writeEntry (buf : Bytes) (base : Nat) (c : OpenContext) : Option Bytes := do
  let buf ← writeAt buf base (le64 c.packetsReceived)
  let buf ← writeAt buf (base + 8) (le64 c.txPackets)
  let buf ← writeAt buf (base + 16) (le64 c.rxDropped)
  let buf ← writeAt buf (base + 24) (le64 c.txDropped)
  let buf ← writeAt buf (base + 32) (le32 (if c.bound then 1 else 0))
  let buf ← writeAt buf (base + 36) (le32 c.ifIndex)
  let buf ← writeAt buf (base + 40) c.mac.val
  let buf ← writeAt buf (base + 46) [0, 0]
  writeName buf base c.shortName

/-- The loop over the list: the buffer, and how many entries are written of how many bindings. -/
def bindingsLoop (maxEntries : Nat) : List OpenContext → Bytes → Nat → Nat → Option (Bytes × Nat × Nat)
  | [], buf, count, total => some (buf, count, total)
  | c :: rest, buf, count, total =>
    if count < maxEntries then do
      let buf ← writeEntry buf (bindingsHdrLen + count * bindingEntryLen) c
      bindingsLoop maxEntries rest buf (count + 1) (total + 1)
    else bindingsLoop maxEntries rest buf count (total + 1)

def bindingsHdr (total count : Nat) : Bytes :=
  le32 ioctlMagic ++ le32 (UInt32.ofNat total) ++ le32 (UInt32.ofNat count) ++ le32 0

/-- How many entries there is room for. -/
def maxEntries (outputBufferLength : Nat) : Nat := (outputBufferLength - bindingsHdrLen) / bindingEntryLen

/-- `IPv8IoctlBindings` -/
def ioctlBindings (irp : Irp) (openList : List OpenContext) : Completed :=
  if irp.outputBufferLength < bindingsHdrLen then irp.fail .bufferTooSmall
  else
    match bindingsLoop (maxEntries irp.outputBufferLength) openList irp.systemBuffer 0 0 with
    | some (buf, count, total) =>
      let information := bindingsHdrLen + count * bindingEntryLen
      { irp, status := .success, information, written := information, systemBuffer := writeAt buf 0 (bindingsHdr total count) }
    | none => { irp, status := .success, information := 0, written := 0, systemBuffer := none }

/-- What the program gets: the first bytes of the buffer of the request, in the place of its own. -/
def Completed.copyOut (c : Completed) (user : Bytes) : Option Bytes :=
  c.systemBuffer.map fun buf => buf.take c.information ++ user.drop c.information

/-! ## Readers -/

section
variable {ε : Type}

def rdU16 (b : Bytes) (off : Nat) : Outcome ε UInt16 := ofLe16 <$> slice b off (off + 2)

def rdU32 (b : Bytes) (off : Nat) : Outcome ε UInt32 := ofLe32 <$> slice b off (off + 4)

def rdU64 (b : Bytes) (off : Nat) : Outcome ε UInt64 := ofLe64 <$> slice b off (off + 8)

/-- Entries one after the other, as long as they are in the answer. `none` skips an entry. -/
def readEntries {α : Type} (read : Nat → Outcome ε (Option α)) (n : Nat) : List Nat → Outcome ε (List α)
  | [] => .ok []
  | i :: rest =>
    let base := bindingsHdrLen + i * bindingEntryLen
    if n < base + bindingEntryLen then .ok []
    else do
      let x ← read base
      let xs ← readEntries read n rest
      return x.toList ++ xs

end

/-- `String::from_utf16_lossy` -/
def fromUtf16Lossy : List UInt16 → List Char
  | [] => []
  | u :: us =>
    if u < 0xD800 ∨ 0xDFFF < u then Char.ofNat u.toNat :: fromUtf16Lossy us
    else if 0xDC00 ≤ u then '\uFFFD' :: fromUtf16Lossy us
    else
      match us with
      | [] => ['\uFFFD']
      | v :: rest =>
        if v < 0xDC00 ∨ 0xDFFF < v then '\uFFFD' :: fromUtf16Lossy (v :: rest)
        else Char.ofNat (0x10000 + (u.toNat - 0xD800) * 0x400 + (v.toNat - 0xDC00)) :: fromUtf16Lossy rest

structure BindingInfo where
  name : List Char
  bound : Bool
  ifIndex : UInt32
  mac : Arr UInt8 6
  rx : UInt64
  tx : UInt64
  rxDropped : UInt64
  txDropped : UInt64
  deriving DecidableEq, Repr

/-- The entry at an offset, as the client reads it. -/
def readBindingInfo (buf : Bytes) (base : Nat) : Outcome String (Option BindingInfo) := do
  let chars := min (← rdU32 buf (base + 48)).toNat bindingNameChars
  let name ← (List.range chars).mapM fun c => rdU16 buf (base + 52 + c * 2)
  let mac ← slice buf (base + 40) (base + 46)
  let mac ← copyFromSlice 6 mac
  let bound ← rdU32 buf (base + 32)
  let ifIndex ← rdU32 buf (base + 36)
  let rx ← rdU64 buf base
  let tx ← rdU64 buf (base + 8)
  let rxDropped ← rdU64 buf (base + 16)
  let txDropped ← rdU64 buf (base + 24)
  return some { name := fromUtf16Lossy name, bound := bound ≠ 0, ifIndex, mac, rx, tx, rxDropped, txDropped }

/-- `driver_query_bindings`, from the answer on. -/
def driverQueryBindings (n : Nat) (buf : Bytes) : Outcome String (List BindingInfo) := do
  let invalid := "绑定响应格式无效（驱动版本过旧？需要 v0.10+）"
  if n < bindingsHdrLen then .err invalid
  else if (← rdU32 buf 0) ≠ ioctlMagic then .err invalid
  else
    let count := min (← rdU32 buf 8).toNat 1024
    readEntries (readBindingInfo buf) n (List.range count)

structure L2Binding where
  ifIndex : UInt32
  mac : Arr UInt8 6
  deriving DecidableEq, Repr

/-- The entry at an offset, as the node reads it: what is being unbound is left out. -/
def readL2Binding (buf : Bytes) (base : Nat) : Outcome String (Option L2Binding) := do
  if (← rdU32 buf (base + 32)) = 0 then return none
  else
    let ifIndex ← rdU32 buf (base + 36)
    let mac ← slice buf (base + 40) (base + 46)
    let mac ← copyFromSlice 6 mac
    return some { ifIndex, mac }

/-- `l2_query_bindings`, from the answer on. -/
def l2QueryBindings (n : Nat) (buf : Bytes) : Outcome String (List L2Binding) := do
  let invalid := "绑定响应格式无效（驱动版本过旧？需要 ipv8proto.sys v0.10+）"
  if n < bindingsHdrLen then .err invalid
  else if (← rdU32 buf 0) ≠ ioctlMagic then .err invalid
  else
    let count := (← rdU32 buf 8).toNat
    readEntries (readL2Binding buf) n (List.range count)

/-- A row of the property page; the counts are shown of what is bound. -/
structure AdapterRow where
  mac : Bytes
  name : List UInt16
  counts : Option (UInt64 × UInt64 × UInt64 × UInt64)
  deriving DecidableEq, Repr

/-- `FillAdapterRow`, without the aliases. -/
def fillAdapterRow (buf : Bytes) (base : Nat) : Outcome Unit AdapterRow := do
  let mac ← slice buf (base + 40) (base + 46)
  let cc := min (← rdU32 buf (base + 48)).toNat bindingNameChars
  let name ← (List.range cc).mapM fun c => rdU16 buf (base + 52 + c * 2)
  if (← rdU32 buf (base + 32)) ≠ 0 then
    let rx ← rdU64 buf base
    let tx ← rdU64 buf (base + 8)
    let rxDropped ← rdU64 buf (base + 16)
    let txDropped ← rdU64 buf (base + 24)
    return { mac, name, counts := some (rx, tx, rxDropped, txDropped) }
  else return { mac, name, counts := none }

/-- `ReloadAdapters`, from the answer on. It trusts the count. -/
def reloadAdapters (n : Nat) (buf : Bytes) : Outcome Unit (List AdapterRow) := do
  if n = 0 then .err ()
  else if (← rdU32 buf 0) ≠ ioctlMagic then .err ()
  else
    let count := (← rdU32 buf 8).toNat
    (List.range count).mapM fun i => fillAdapterRow buf (bindingsHdrLen + i * bindingEntryLen)

/-! ## What is written -/

namespace OpenContext

/-- The bytes of an entry up to the terminator of the name. -/
def entryFields (c : OpenContext) : Bytes :=
  le64 c.packetsReceived ++ le64 c.txPackets ++ le64 c.rxDropped ++ le64 c.txDropped ++ le32 (if c.bound then 1 else 0) ++
    le32 c.ifIndex ++ c.mac.val ++ [0, 0] ++ (le32 (UInt32.ofNat c.shortName.length) ++ (c.shortName.flatMap le16 ++ le16 0))

/-- An entry in the place of what was there: behind the terminator nothing is written. -/
def entryOver (c : OpenContext) (old : Bytes) : Bytes := c.entryFields ++ old.drop c.entryFields.length

end OpenContext

variable {buf : Bytes} {base : Nat} {c : OpenContext} {name : List UInt16}

lemma length_units : (name.flatMap le16).length = 2 * name.length := by
  rw [length_blocks length_le16, Nat.mul_comm]

lemma length_shortName : c.shortName.length ≤ bindingNameChars - 1 := by
  unfold OpenContext.shortName
  rw [List.length_take]
  exact (min_le_left _ _).trans (min_le_right _ _)

lemma length_entryFields : c.entryFields.length = 54 + 2 * c.shortName.length := by
  unfold OpenContext.entryFields
  simp only [List.length_append, length_le64, length_le32, length_le16, length_units, c.mac.property, List.length_cons, List.length_nil]
  omega

lemma length_entryOver {old : Bytes} (hold : old.length = bindingEntryLen) : (c.entryOver old).length = bindingEntryLen := by
  have hshort := @length_shortName c
  rw [bindingNameChars] at hshort
  rw [OpenContext.entryOver, List.length_append, List.length_drop, length_entryFields, hold, bindingEntryLen]
  omega

/-- Two writes in a row, and what follows. -/
lemma writeAt_bind {β : Type} {off off' : Nat} {data data' : Bytes} (h : off' = off + data.length) (k : Bytes → Option β) :
    (writeAt buf off data >>= fun b => writeAt b off' data' >>= k) = writeAt buf off (data ++ data') >>= k := by
  rw [← bind_assoc, writeAt_behind h]

lemma writeName_eq : writeName buf base name =
    writeAt buf (base + 48) (le32 (UInt32.ofNat name.length) ++ (name.flatMap le16 ++ le16 0)) := by
  unfold writeName
  rw [writeAt_bind (by rw [length_units])]
  exact writeAt_before (by rw [length_le32])

/-- The fields of an entry are written as one piece. -/
lemma writeEntry_eq : writeEntry buf base c = writeAt buf base c.entryFields := by
  unfold writeEntry
  simp only [writeName_eq]
  rw [writeAt_bind, writeAt_bind, writeAt_bind, writeAt_bind, writeAt_bind, writeAt_bind, writeAt_bind]
  · refine writeAt_behind ?_
    simp only [List.length_append, length_le64, length_le32, c.mac.property, List.length_cons, List.length_nil]
  all_goals simp only [List.length_append, length_le64, length_le32, c.mac.property]

lemma writeEntry_mid {pre old post : Bytes} (hpre : pre.length = base) (hold : old.length = bindingEntryLen) :
    writeEntry (pre ++ (old ++ post)) base c = some (pre ++ (c.entryOver old ++ post)) := by
  have hfit : c.entryFields.length ≤ old.length := by
    have hshort := @length_shortName c
    rw [bindingNameChars] at hshort
    rw [length_entryFields, hold, bindingEntryLen]
    omega
  have htake : (old.take c.entryFields.length).length = c.entryFields.length := List.length_take_of_le hfit
  rw [writeEntry_eq, OpenContext.entryOver, List.append_assoc]
  conv_lhs => rw [← List.take_append_drop c.entryFields.length old, List.append_assoc]
  exact writeAt_mid hpre htake

/-- A block of the buffer, and the binding that is written over it. -/
def entryBytes (e : Arr UInt8 bindingEntryLen × OpenContext) : Bytes := e.2.entryOver e.1.val

lemma length_entryBytes (e : Arr UInt8 bindingEntryLen × OpenContext) : (entryBytes e).length = bindingEntryLen :=
  length_entryOver e.1.property

/-- The loop writes over one block after the other, until the list or the room ends. -/
lemma bindingsLoop_eq {maxEntries : Nat} (openList : List OpenContext) (blocks : List (Arr UInt8 bindingEntryLen)) (pre post : Bytes)
    (count total : Nat) (hpre : pre.length = bindingsHdrLen + count * bindingEntryLen)
    (hblocks : blocks.length = min (maxEntries - count) openList.length) :
    bindingsLoop maxEntries openList (pre ++ (blocks.flatMap Subtype.val ++ post)) count total =
      some (pre ++ ((blocks.zip openList).flatMap entryBytes ++ post), count + blocks.length, total + openList.length) := by
  induction openList generalizing blocks pre count total with
  | nil =>
    rw [List.length_nil, Nat.min_zero] at hblocks
    rw [List.length_eq_zero_iff.mp hblocks]
    rfl
  | cons c openList ih =>
    unfold bindingsLoop
    split
    · next hlt =>
      cases blocks with
      | nil =>
        rw [List.length_nil, List.length_cons] at hblocks
        omega
      | cons block blocks =>
        have hwrite : writeEntry (pre ++ ((block :: blocks).flatMap Subtype.val ++ post)) (bindingsHdrLen + count * bindingEntryLen) c =
            some ((pre ++ c.entryOver block.val) ++ (blocks.flatMap Subtype.val ++ post)) := by
          rw [List.flatMap_cons, List.append_assoc, List.append_assoc pre]
          exact writeEntry_mid hpre block.property
        have hnext : (pre ++ c.entryOver block.val).length = bindingsHdrLen + (count + 1) * bindingEntryLen := by
          rw [List.length_append, hpre, length_entryOver block.property, Nat.succ_mul, Nat.add_assoc]
        have hrest : blocks.length = min (maxEntries - (count + 1)) openList.length := by
          rw [List.length_cons, List.length_cons] at hblocks
          omega
        rw [hwrite]
        refine (ih blocks _ _ _ hnext hrest).trans ?_
        rw [List.zip_cons_cons, List.flatMap_cons, List.append_assoc, List.append_assoc, List.length_cons, List.length_cons,
          Nat.add_right_comm count, Nat.add_right_comm total]
        rfl
    · next hge =>
      have hnone : blocks = [] := List.length_eq_zero_iff.mp (by omega)
      subst hnone
      have hrest : ([] : List (Arr UInt8 bindingEntryLen)).length = min (maxEntries - count) openList.length := by
        rw [List.length_nil]
        omega
      refine (ih [] pre count (total + 1) hpre hrest).trans ?_
      rw [List.length_cons, Nat.add_right_comm total]
      rfl

lemma length_bindingsHdr {total count : Nat} : (bindingsHdr total count).length = bindingsHdrLen := by
  unfold bindingsHdr
  simp only [List.length_append, length_le32]
  rfl

/-- The answer: the header and the entries, over what was in the buffer. -/
lemma ioctlBindings_eq {irp : Irp} (openList : List OpenContext) (hlen : bindingsHdrLen ≤ irp.outputBufferLength) :
    ∃ (hdr : Arr UInt8 bindingsHdrLen) (blocks : List (Arr UInt8 bindingEntryLen)) (post : Bytes),
      irp.systemBuffer = hdr.val ++ (blocks.flatMap Subtype.val ++ post) ∧
      blocks.length = min (maxEntries irp.outputBufferLength) openList.length ∧
      ioctlBindings irp openList = {
        irp, status := .success
        information := bindingsHdrLen + blocks.length * bindingEntryLen
        written := bindingsHdrLen + blocks.length * bindingEntryLen
        systemBuffer := some (bindingsHdr openList.length blocks.length ++
          ((blocks.zip openList).flatMap entryBytes ++ post)) } := by
  have hbuf : irp.outputBufferLength ≤ irp.systemBuffer.length := by
    rw [irp.size]
    exact le_max_right _ _
  have hroom : min (maxEntries irp.outputBufferLength) openList.length * bindingEntryLen ≤ irp.systemBuffer.length - bindingsHdrLen := by
    refine (Nat.mul_le_mul_right _ (min_le_left _ _)).trans ?_
    exact (Nat.div_mul_le_self _ _).trans (Nat.sub_le_sub_right hbuf _)
  have hfront : irp.systemBuffer.length = bindingsHdrLen + (irp.systemBuffer.length - bindingsHdrLen) :=
    (Nat.add_sub_cancel' (hlen.trans hbuf)).symm
  obtain ⟨hdr, rest, hhdr, hrest⟩ := exists_arr_append (irp.systemBuffer.length - bindingsHdrLen) hfront
  have htake : (rest.take (min (maxEntries irp.outputBufferLength) openList.length * bindingEntryLen)).length =
      min (maxEntries irp.outputBufferLength) openList.length * bindingEntryLen := List.length_take_of_le (hrest ▸ hroom)
  obtain ⟨blocks, hcount, hblocks⟩ := exists_blocks (f := (Subtype.val : Arr UInt8 bindingEntryLen → Bytes))
    (fun b hb => ⟨⟨b, hb⟩, rfl⟩) htake
  have hsplit : irp.systemBuffer = hdr.val ++ (blocks.flatMap Subtype.val ++
      rest.drop (min (maxEntries irp.outputBufferLength) openList.length * bindingEntryLen)) := by
    rw [hblocks, List.take_append_drop, ← hhdr]
  refine ⟨hdr, blocks, _, hsplit, hcount, ?_⟩
  have hpre : hdr.val.length = bindingsHdrLen + 0 * bindingEntryLen := hdr.property
  have hblocks : blocks.length = min (maxEntries irp.outputBufferLength - 0) openList.length := hcount
  have hloop := bindingsLoop_eq openList blocks hdr.val
    (rest.drop (min (maxEntries irp.outputBufferLength) openList.length * bindingEntryLen)) 0 0 hpre hblocks
  rw [← hsplit, Nat.zero_add, Nat.zero_add] at hloop
  unfold ioctlBindings
  rw [if_neg (Nat.not_lt.mpr hlen), hloop]
  refine congrArg (fun buf => Completed.mk irp .success _ _ buf) ?_
  exact writeAt_mid (Eq.refl ([] : Bytes).length) (hdr.property.trans length_bindingsHdr.symm)

/-! ## What is read -/

/-- The fields of a binding stand at an offset. -/
def EntryAt (buf : Bytes) (base : Nat) (c : OpenContext) : Prop := ∃ pre post, buf = pre ++ (c.entryFields ++ post) ∧ pre.length = base

section
variable {ε : Type}

lemma rdU64_mid {pre post : Bytes} {off : Nat} {x : UInt64} (hbuf : buf = pre ++ (le64 x ++ post)) (hpre : pre.length = off) :
    (rdU64 buf off : Outcome ε UInt64) = .ok x := by
  rw [rdU64, hbuf, slice_mid hpre (by rw [length_le64]), Outcome.map_ok, ofLe64_le64]

lemma rdU32_mid {pre post : Bytes} {off : Nat} {x : UInt32} (hbuf : buf = pre ++ (le32 x ++ post)) (hpre : pre.length = off) :
    (rdU32 buf off : Outcome ε UInt32) = .ok x := by
  rw [rdU32, hbuf, slice_mid hpre (by rw [length_le32]), Outcome.map_ok, ofLe32_le32]

lemma rdU16_mid {pre post : Bytes} {off : Nat} {x : UInt16} (hbuf : buf = pre ++ (le16 x ++ post)) (hpre : pre.length = off) :
    (rdU16 buf off : Outcome ε UInt16) = .ok x := by
  rw [rdU16, hbuf, slice_mid hpre (by rw [length_le16]), Outcome.map_ok, ofLe16_le16]

/-- What is read of a binding. -/
structure ReadsEntry (ε : Type) (buf : Bytes) (base : Nat) (c : OpenContext) : Prop where
  rx : (rdU64 buf base : Outcome ε UInt64) = .ok c.packetsReceived
  tx : (rdU64 buf (base + 8) : Outcome ε UInt64) = .ok c.txPackets
  rxDropped : (rdU64 buf (base + 16) : Outcome ε UInt64) = .ok c.rxDropped
  txDropped : (rdU64 buf (base + 24) : Outcome ε UInt64) = .ok c.txDropped
  bound : (rdU32 buf (base + 32) : Outcome ε UInt32) = .ok (if c.bound then 1 else 0)
  ifIndex : (rdU32 buf (base + 36) : Outcome ε UInt32) = .ok c.ifIndex
  mac : (slice buf (base + 40) (base + 46) : Outcome ε Bytes) = .ok c.mac.val
  nameChars : (rdU32 buf (base + 48) : Outcome ε UInt32) = .ok (UInt32.ofNat c.shortName.length)
  name : (List.range c.shortName.length).mapM (fun i => (rdU16 buf (base + 52 + i * 2) : Outcome ε UInt16)) = .ok c.shortName

lemma EntryAt.reads (h : EntryAt buf base c) : ReadsEntry ε buf base c := by
  obtain ⟨pre, post, rfl, hpre⟩ := h
  unfold OpenContext.entryFields
  simp only [List.append_assoc]
  have hmac := c.mac.property
  have hlen := And.intro hpre hmac
  constructor
  · exact rdU64_mid rfl hpre
  · iterate 1 rw [← List.append_assoc]
    exact rdU64_mid rfl (by simp only [List.length_append, length_le64]; omega)
  · iterate 2 rw [← List.append_assoc]
    exact rdU64_mid rfl (by simp only [List.length_append, length_le64]; omega)
  · iterate 3 rw [← List.append_assoc]
    exact rdU64_mid rfl (by simp only [List.length_append, length_le64]; omega)
  · iterate 4 rw [← List.append_assoc]
    exact rdU32_mid rfl (by simp only [List.length_append, length_le64]; omega)
  · iterate 5 rw [← List.append_assoc]
    exact rdU32_mid rfl (by simp only [List.length_append, length_le64, length_le32]; omega)
  · iterate 6 rw [← List.append_assoc]
    exact slice_mid (by simp only [List.length_append, length_le64, length_le32]; omega) (by omega)
  · iterate 8 rw [← List.append_assoc]
    exact rdU32_mid rfl (by
      simp only [List.length_append, length_le64, length_le32, List.length_cons, List.length_nil]
      omega)
  · iterate 9 rw [← List.append_assoc]
    refine mapM_range fun i x hi => ?_
    obtain ⟨front, back, hmid, hfront⟩ := exists_around length_le16 _ _ hi
    exact rdU16_mid hmid (hfront.trans (by
      simp only [List.length_append, length_le64, length_le32, List.length_cons, List.length_nil]
      omega))

/-- What the client makes of a binding. -/
def OpenContext.info (c : OpenContext) : BindingInfo where
  name := fromUtf16Lossy c.shortName
  bound := c.bound
  ifIndex := c.ifIndex
  mac := c.mac
  rx := c.packetsReceived
  tx := c.txPackets
  rxDropped := c.rxDropped
  txDropped := c.txDropped

/-- What the node makes of it. -/
def OpenContext.l2Binding (c : OpenContext) : L2Binding := ⟨c.ifIndex, c.mac⟩

/-- And the property page. -/
def OpenContext.row (c : OpenContext) : AdapterRow where
  mac := c.mac.val
  name := c.shortName
  counts := if c.bound then some (c.packetsReceived, c.txPackets, c.rxDropped, c.txDropped) else none

lemma nameChars_eq : min (UInt32.ofNat c.shortName.length).toNat bindingNameChars = c.shortName.length := by
  have hshort := @length_shortName c
  rw [bindingNameChars] at hshort ⊢
  rw [UInt32.toNat_ofNat_of_lt' (show c.shortName.length < UInt32.size by
    have hsize : UInt32.size = 4294967296 := rfl
    omega)]
  omega

lemma flag_ne_zero : decide ((if c.bound then (1 : UInt32) else 0) ≠ 0) = c.bound := by
  cases c.bound with
  | true => rfl
  | false => rfl

lemma readBindingInfo_eq (h : EntryAt buf base c) : readBindingInfo buf base = .ok (some c.info) := by
  have hreads := h.reads (ε := String)
  unfold readBindingInfo
  rw [hreads.nameChars, Outcome.ok_bind, nameChars_eq]
  dsimp only
  rw [hreads.name, Outcome.ok_bind, hreads.mac, Outcome.ok_bind, copyFromSlice_val, Outcome.ok_bind, hreads.bound, Outcome.ok_bind,
    hreads.ifIndex, Outcome.ok_bind, hreads.rx, Outcome.ok_bind, hreads.tx, Outcome.ok_bind, hreads.rxDropped, Outcome.ok_bind,
    hreads.txDropped, Outcome.ok_bind, flag_ne_zero]
  rfl

lemma readL2Binding_eq (h : EntryAt buf base c) : readL2Binding buf base = .ok (if c.bound then some c.l2Binding else none) := by
  have hreads := h.reads (ε := String)
  unfold readL2Binding
  rw [hreads.bound, Outcome.ok_bind]
  cases c.bound with
  | false => rfl
  | true =>
    rw [if_pos rfl, if_neg (by decide), hreads.ifIndex, Outcome.ok_bind, hreads.mac, Outcome.ok_bind, copyFromSlice_val,
      Outcome.ok_bind]
    rfl

lemma fillAdapterRow_eq (h : EntryAt buf base c) : fillAdapterRow buf base = .ok c.row := by
  have hreads := h.reads (ε := Unit)
  unfold fillAdapterRow OpenContext.row
  rw [hreads.mac, Outcome.ok_bind, hreads.nameChars, Outcome.ok_bind, nameChars_eq]
  dsimp only
  rw [hreads.name, Outcome.ok_bind, hreads.bound, Outcome.ok_bind]
  cases c.bound with
  | false => rfl
  | true =>
    rw [if_pos rfl, if_pos (by decide), hreads.rx, Outcome.ok_bind, hreads.tx, Outcome.ok_bind, hreads.rxDropped, Outcome.ok_bind,
      hreads.txDropped, Outcome.ok_bind]
    rfl

/-- The loop over entries that are all in the answer. -/
lemma readEntries_eq {α : Type} {read : Nat → Outcome ε (Option α)} {f : OpenContext → Option α} {n k : Nat} {cs : List OpenContext}
    (hread : ∀ i c, cs[i]? = some c → read (bindingsHdrLen + (k + i) * bindingEntryLen) = .ok (f c))
    (hn : bindingsHdrLen + (k + cs.length) * bindingEntryLen ≤ n) :
    readEntries read n (List.range' k cs.length) = .ok (cs.filterMap f) := by
  induction cs generalizing k with
  | nil => rfl
  | cons c cs ih =>
    have hhead : read (bindingsHdrLen + k * bindingEntryLen) = .ok (f c) := hread 0 c rfl
    have htail := @ih (k + 1) (fun i c hi => by
      rw [Nat.add_right_comm k 1 i]
      exact hread (i + 1) c hi) (by
      rw [List.length_cons] at hn
      rw [Nat.add_right_comm]
      exact hn)
    have hin : ¬ n < bindingsHdrLen + k * bindingEntryLen + bindingEntryLen := by
      rw [List.length_cons, Nat.add_succ, Nat.succ_mul, Nat.add_mul] at hn
      omega
    rw [List.length_cons, List.range'_succ, readEntries, if_neg hin, hhead, Outcome.ok_bind, htail, Outcome.ok_bind]
    cases hf : f c with
    | none =>
      rw [List.filterMap_cons_none hf]
      rfl
    | some x =>
      rw [List.filterMap_cons_some hf]
      rfl

end

/-! ## The answer -/

variable {irp irp' : Irp} {openList : List OpenContext} {blocks : List (Arr UInt8 bindingEntryLen)} {rest user : Bytes}

/-- The entries stand one after the other behind the header. -/
lemma entryAt_answer {hdr : Bytes} {i : Nat} (hhdr : hdr.length = bindingsHdrLen) (hlen : blocks.length ≤ openList.length)
    (hi : (openList.take blocks.length)[i]? = some c) :
    EntryAt (hdr ++ ((blocks.zip openList).flatMap entryBytes ++ rest)) (bindingsHdrLen + i * bindingEntryLen) c := by
  obtain ⟨hlt, hc⟩ := List.getElem?_eq_some_iff.mp hi
  rw [List.length_take, Nat.min_eq_left hlen] at hlt
  rw [List.getElem_take] at hc
  have hentry : (blocks.zip openList)[i]? = some (blocks[i], c) := by
    rw [List.getElem?_zip_eq_some]
    exact ⟨List.getElem?_eq_getElem hlt, List.getElem?_eq_some_iff.mpr ⟨hlt.trans_le hlen, hc⟩⟩
  obtain ⟨pre, post, hbuf, hpre⟩ := exists_around length_entryBytes hdr rest hentry
  rw [hhdr] at hpre
  refine ⟨pre, blocks[i].val.drop c.entryFields.length ++ post, ?_, hpre⟩
  rw [hbuf, entryBytes, OpenContext.entryOver, List.append_assoc]

/-- What comes out of the request. -/
structure Answered (irp : Irp) (openList : List OpenContext) (user buf : Bytes) : Prop where
  copied : (ioctlBindings irp openList).copyOut user = some buf
  success : (ioctlBindings irp openList).status = .success
  fits : (ioctlBindings irp openList).written ≤ irp.outputBufferLength
  count : (ioctlBindings irp openList).information =
    bindingsHdrLen + (openList.take (maxEntries irp.outputBufferLength)).length * bindingEntryLen
  header : ∃ rest, buf =
    bindingsHdr openList.length (openList.take (maxEntries irp.outputBufferLength)).length ++ rest
  entries : ∀ i c, (openList.take (maxEntries irp.outputBufferLength))[i]? = some c →
    EntryAt buf (bindingsHdrLen + i * bindingEntryLen) c

lemma answered (openList : List OpenContext) (user : Bytes) (hlen : bindingsHdrLen ≤ irp.outputBufferLength) :
    ∃ buf, Answered irp openList user buf := by
  obtain ⟨hdr, blocks, post, -, hblocks, heq⟩ := ioctlBindings_eq openList hlen
  have htake : openList.take (maxEntries irp.outputBufferLength) = openList.take blocks.length := by
    rw [hblocks, List.take_eq_take_iff]
    omega
  have hlist : blocks.length ≤ openList.length := hblocks ▸ min_le_right _ _
  have hshown : (openList.take blocks.length).length = blocks.length := List.length_take_of_le hlist
  have hzip : ((blocks.zip openList).flatMap entryBytes).length = blocks.length * bindingEntryLen := by
    rw [length_blocks length_entryBytes, List.length_zip, Nat.min_eq_left hlist]
  have hfront : (bindingsHdr openList.length blocks.length ++ (blocks.zip openList).flatMap entryBytes).length =
      bindingsHdrLen + blocks.length * bindingEntryLen := by
    rw [List.length_append, length_bindingsHdr, hzip]
  have hroom : blocks.length * bindingEntryLen ≤ irp.outputBufferLength - bindingsHdrLen := by
    rw [hblocks]
    exact (Nat.mul_le_mul_right _ (min_le_left _ _)).trans (Nat.div_mul_le_self _ _)
  refine ⟨bindingsHdr openList.length blocks.length ++ ((blocks.zip openList).flatMap entryBytes ++
    user.drop (bindingsHdrLen + blocks.length * bindingEntryLen)), ?_, ?_, ?_, ?_, ?_, ?_⟩
  · rw [heq, Completed.copyOut, Option.map_some, ← List.append_assoc, List.take_left' hfront, List.append_assoc]
  · rw [heq]
  · rw [heq]
    dsimp only
    omega
  · rw [heq, htake, hshown]
  · rw [htake, hshown]
    exact ⟨_, rfl⟩
  · intro i c hi
    rw [htake] at hi
    exact entryAt_answer length_bindingsHdr hlist hi

namespace Answered

variable {ε : Type} {buf : Bytes}

lemma magic (h : Answered irp openList user buf) : (rdU32 buf 0 : Outcome ε UInt32) = .ok ioctlMagic := by
  obtain ⟨rest, rfl⟩ := h.header
  have hbuf : ∀ total count, bindingsHdr total count ++ rest =
      [] ++ (le32 ioctlMagic ++ (le32 (UInt32.ofNat total) ++ le32 (UInt32.ofNat count) ++ le32 0 ++ rest)) := by
    intro total count
    unfold bindingsHdr
    simp only [List.append_assoc, List.nil_append]
  exact rdU32_mid (hbuf _ _) rfl

lemma readCount (h : Answered irp openList user buf) :
    (rdU32 buf 8 : Outcome ε UInt32) = .ok (UInt32.ofNat (openList.take (maxEntries irp.outputBufferLength)).length) := by
  obtain ⟨rest, rfl⟩ := h.header
  have hbuf : ∀ total count, bindingsHdr total count ++ rest =
      (le32 ioctlMagic ++ le32 (UInt32.ofNat total)) ++ (le32 (UInt32.ofNat count) ++ (le32 0 ++ rest)) := by
    intro total count
    unfold bindingsHdr
    simp only [List.append_assoc]
  exact rdU32_mid (hbuf _ _) (by rw [List.length_append, length_le32, length_le32])

end Answered

lemma filterMap_ite {α β : Type} {p : α → Bool} {f : α → β} {l : List α} :
    (l.filterMap fun x => if p x then some (f x) else none) = (l.filter p).map f := by
  induction l with
  | nil => rfl
  | cons x l ih =>
    rw [List.filterMap_cons]
    cases hp : p x with
    | true =>
      rw [List.filter_cons_of_pos hp, List.map_cons, ← ih]
      rfl
    | false =>
      rw [List.filter_cons_of_neg (Bool.eq_false_iff.mp hp), ← ih]
      rfl

namespace Answered

variable {buf : Bytes} {shown : List OpenContext}

/-- Room, header and entries of an answer, in terms of the bindings that are shown. -/
lemma parts (h : Answered irp openList user buf) (hulong : irp.outputBufferLength < 2 ^ 32)
    (hshown : openList.take (maxEntries irp.outputBufferLength) = shown) :
    (ioctlBindings irp openList).information = bindingsHdrLen + shown.length * bindingEntryLen ∧
      (∀ ε, (rdU32 buf 8 : Outcome ε UInt32) = .ok (UInt32.ofNat shown.length)) ∧
      (UInt32.ofNat shown.length).toNat = shown.length ∧
      ∀ i c, shown[i]? = some c → EntryAt buf (bindingsHdrLen + i * bindingEntryLen) c := by
  subst hshown
  refine ⟨h.count, fun ε => h.readCount, UInt32.toNat_ofNat_of_lt' (?_ : _ < UInt32.size), h.entries⟩
  have hle := List.length_take_le (maxEntries irp.outputBufferLength) openList
  exact hle.trans_lt ((Nat.div_le_self _ _).trans_lt ((Nat.sub_le _ _).trans_lt hulong))

lemma driverQueryBindings_eq (h : Answered irp openList user buf) (hulong : irp.outputBufferLength < 2 ^ 32)
    (hshown : openList.take (maxEntries irp.outputBufferLength) = shown) :
    driverQueryBindings (ioctlBindings irp openList).information buf = .ok ((shown.take 1024).map OpenContext.info) := by
  obtain ⟨hn, hread, hmax, hentries⟩ := h.parts hulong hshown
  unfold driverQueryBindings
  rw [hn, if_neg (Nat.not_lt.mpr (Nat.le_add_right _ _)), h.magic, Outcome.ok_bind, if_neg (not_not.mpr rfl), hread, Outcome.ok_bind,
    hmax, Nat.min_comm, ← List.length_take]
  dsimp only
  rw [List.range_eq_range', ← List.filterMap_eq_map']
  refine readEntries_eq (fun i c hi => ?_) ?_
  · rw [Nat.zero_add]
    have hlt := (List.getElem?_eq_some_iff.mp hi).1
    rw [List.length_take] at hlt
    exact readBindingInfo_eq (hentries i c ((List.getElem?_take_of_lt (by omega)).symm.trans hi))
  · rw [Nat.zero_add, List.length_take]
    exact Nat.add_le_add_left (Nat.mul_le_mul_right _ (min_le_right _ _)) _

lemma l2QueryBindings_eq (h : Answered irp openList user buf) (hulong : irp.outputBufferLength < 2 ^ 32)
    (hshown : openList.take (maxEntries irp.outputBufferLength) = shown) :
    l2QueryBindings (ioctlBindings irp openList).information buf =
      .ok ((shown.filter OpenContext.bound).map OpenContext.l2Binding) := by
  obtain ⟨hn, hread, hmax, hentries⟩ := h.parts hulong hshown
  unfold l2QueryBindings
  rw [hn, if_neg (Nat.not_lt.mpr (Nat.le_add_right _ _)), h.magic, Outcome.ok_bind, if_neg (not_not.mpr rfl), hread, Outcome.ok_bind,
    hmax]
  dsimp only
  rw [List.range_eq_range', ← filterMap_ite]
  refine readEntries_eq (fun i c hi => ?_) ?_
  · rw [Nat.zero_add]
    exact readL2Binding_eq (hentries i c hi)
  · rw [Nat.zero_add]

lemma reloadAdapters_eq (h : Answered irp openList user buf) (hulong : irp.outputBufferLength < 2 ^ 32)
    (hshown : openList.take (maxEntries irp.outputBufferLength) = shown) :
    reloadAdapters (ioctlBindings irp openList).information buf = .ok (shown.map OpenContext.row) := by
  obtain ⟨hn, hread, hmax, hentries⟩ := h.parts hulong hshown
  unfold reloadAdapters
  rw [hn, if_neg (by rw [bindingsHdrLen]; omega), h.magic, Outcome.ok_bind, if_neg (not_not.mpr rfl), hread, Outcome.ok_bind, hmax]
  have hrows := @mapM_range Unit AdapterRow (shown.map OpenContext.row)
    (fun i => fillAdapterRow buf (bindingsHdrLen + i * bindingEntryLen)) fun i row hi => ?_
  · rw [List.length_map] at hrows
    exact hrows
  · rw [List.getElem?_map] at hi
    obtain ⟨c, hc, rfl⟩ := Option.map_eq_some_iff.mp hi
    exact fillAdapterRow_eq (hentries i c hc)

end Answered

/-- The request of a program that asks with a buffer of so many bytes, in which something was. -/
def Irp.ofQuery (outputBufferLength : Nat) (fill : UInt8) : Irp where
  fileObject := 0
  inputBufferLength := 0
  outputBufferLength := outputBufferLength
  systemBuffer := List.replicate outputBufferLength fill
  size := by
    rw [List.length_replicate, Nat.zero_max]

/-- The bindings in the order of the list. -/
def Registry.snapshot (s : Registry) : List OpenContext := s.openList.filterMap s.contexts

lemma mem_snapshot {s : Registry} (hc : c ∈ s.snapshot) : ∃ h ∈ s.openList, s.contexts h = some c := List.mem_filterMap.mp hc

open Registry in
/-- What the node picks out of a snapshot stays what it is: at the time of the snapshot the card is found by the number and has
the address that was read, and whoever is found by the number later is a context of the same bind. -/
theorem picked_binding (pre post : List BindAction) (irp : Irp) (user : Bytes) (hlen : bindingsHdrLen ≤ irp.outputBufferLength)
    (hulong : irp.outputBufferLength < 2 ^ 32) (hmax : (run step {} (pre ++ post)).1.opened.length < 2 ^ 32 - 1) :
    ∃ buf picks, (ioctlBindings irp (run step {} pre).1.snapshot).copyOut user = some buf ∧
      l2QueryBindings (ioctlBindings irp (run step {} pre).1.snapshot).information buf = .ok picks ∧
      ∀ b ∈ picks, b.ifIndex ≠ 0 ∧ b.ifIndex ≠ ifIndexAny ∧ ∃ h n c, (run step {} pre).1.lookup b.ifIndex = some h ∧
        (run step {} pre).1.serial h = some n ∧ (run step {} pre).1.contexts h = some c ∧ c.mac = b.mac ∧
        ∀ h', (run step {} (pre ++ post)).1.lookup b.ifIndex = some h' → (run step {} (pre ++ post)).1.serial h' = some n := by
  obtain ⟨buf, h⟩ := answered (run step {} pre).1.snapshot user hlen
  refine ⟨buf, _, h.copied, h.l2QueryBindings_eq hulong rfl, fun b hb => ?_⟩
  obtain ⟨c, hc, rfl⟩ := List.mem_map.mp hb
  obtain ⟨hshown, hbound⟩ := List.mem_filter.mp hc
  obtain ⟨i, hmem, hi⟩ := mem_snapshot (List.mem_of_mem_take hshown)
  have hgrow := length_opened_le pre post
  obtain ⟨hlookup, n, hn, hserial, hnumber⟩ := lookup_bound (registered_run pre) (by omega) hmem hi hbound
  refine ⟨fun hzero => ?_, fun hany => ?_, i, n, c, hlookup, hserial, hi, rfl, fun h' hlater => ?_⟩
  · have hnat := congrArg UInt32.toNat hzero
    rw [OpenContext.l2Binding, hnumber] at hnat
    cases hnat
  · have hnat := congrArg UInt32.toNat hany
    have hlast : ifIndexAny.toNat = 2 ^ 32 - 1 := rfl
    rw [OpenContext.l2Binding, hnumber, hlast] at hnat
    omega
  · exact lookup_later (registered_run (pre ++ post)) (by omega) hnumber hlater

/-- A card is bound. -/
def bindOne (h : Nat) : List BindAction := [
  .bindAdapter 7 [0x45] (some h) true .success, .insertOpen h, .countOpen h,
  .queryCurrentMac h true ⟨.success, 6, ⟨[2, 0, 0, 0, 0, 1], rfl⟩⟩, .setPacketFilter h false ⟨.success, 0, ⟨[0, 0, 0, 0, 0, 0], rfl⟩⟩,
  .completeBind h]

open Registry in
theorem picked_binding_sample : ∃ buf picks,
    (ioctlBindings (.ofQuery 400 0xAA) (run step {} (bindOne 3)).1.snapshot).copyOut [] = some buf ∧
      l2QueryBindings (ioctlBindings (.ofQuery 400 0xAA) (run step {} (bindOne 3)).1.snapshot).information buf = .ok picks ∧
      ∀ b ∈ picks, b.ifIndex ≠ 0 ∧ b.ifIndex ≠ ifIndexAny ∧ ∃ h n c, (run step {} (bindOne 3)).1.lookup b.ifIndex = some h ∧
        (run step {} (bindOne 3)).1.serial h = some n ∧ (run step {} (bindOne 3)).1.contexts h = some c ∧ c.mac = b.mac ∧
        ∀ h', (run step {} (bindOne 3 ++ bindOne 4)).1.lookup b.ifIndex = some h' →
          (run step {} (bindOne 3 ++ bindOne 4)).1.serial h' = some n :=
  picked_binding (bindOne 3) (bindOne 4) (.ofQuery 400 0xAA) [] (by decide) (by decide) (by decide)

/-! ## What was in the buffer -/

/-- Behind the terminator of the name of an entry. -/
def behindName (buf : Bytes) (i : Nat) (c : OpenContext) : Bytes :=
  ((buf.drop (bindingsHdrLen + i * bindingEntryLen)).take bindingEntryLen).drop c.entryFields.length

/-- The bytes that come out. -/
def Completed.answer (c : Completed) : Option Bytes := c.systemBuffer.map (List.take c.information)

lemma entryBytes_inj {b b' : Arr UInt8 bindingEntryLen} :
    entryBytes (b, c) = entryBytes (b', c) ↔ b.val.drop c.entryFields.length = b'.val.drop c.entryFields.length :=
  iff_of_eq (List.append_cancel_left_eq ..)

/-- A block of the buffer of a request. -/
lemma behindName_eq {hdr post : Bytes} {i : Nat} {b : Arr UInt8 bindingEntryLen} (hhdr : hdr.length = bindingsHdrLen)
    (hb : blocks[i]? = some b) :
    behindName (hdr ++ (blocks.flatMap Subtype.val ++ post)) i c = b.val.drop c.entryFields.length := by
  have hval : ∀ x : Arr UInt8 bindingEntryLen, x.val.length = bindingEntryLen := fun x => x.property
  obtain ⟨pre, rest, hbuf, hpre⟩ := exists_around hval hdr post hb
  rw [hhdr] at hpre
  rw [behindName, hbuf, List.drop_left' hpre, List.take_left' b.property]

/-- The answers to two requests of one size are equal if and only if their buffers have held the same behind the names of the
entries that come out: so much of the kernel's memory is disclosed. -/
theorem snapshot_discloses (irp irp' : Irp) (openList : List OpenContext) (hlen : bindingsHdrLen ≤ irp.outputBufferLength)
    (hsame : irp'.outputBufferLength = irp.outputBufferLength) :
    (ioctlBindings irp openList).answer = (ioctlBindings irp' openList).answer ↔
      ∀ i c, (openList.take (maxEntries irp.outputBufferLength))[i]? = some c →
        behindName irp.systemBuffer i c = behindName irp'.systemBuffer i c := by
  obtain ⟨hdr, blocks, post, hbuf, hblocks, heq⟩ := ioctlBindings_eq openList hlen
  obtain ⟨hdr', blocks', post', hbuf', hblocks', heq'⟩ := ioctlBindings_eq openList (hlen.trans hsame.ge)
  rw [hsame] at hblocks'
  have hcount : blocks.length = blocks'.length := hblocks.trans hblocks'.symm
  have hlist : blocks.length ≤ openList.length := hblocks ▸ min_le_right _ _
  have hzip : (blocks.zip openList).length = (blocks'.zip openList).length := by
    rw [List.length_zip, List.length_zip, hcount]
  have hshown : openList.take (maxEntries irp.outputBufferLength) = openList.take blocks.length := by
    rw [hblocks, List.take_eq_take_iff]
    omega
  have hfront : ∀ bs : List (Arr UInt8 bindingEntryLen), bs.length = blocks.length →
      (bindingsHdr openList.length blocks.length ++ (bs.zip openList).flatMap entryBytes).length =
        bindingsHdrLen + blocks.length * bindingEntryLen := by
    intro bs hbs
    rw [List.length_append, length_bindingsHdr, length_blocks length_entryBytes, List.length_zip, hbs, Nat.min_eq_left hlist]
  rw [heq, heq', ← hcount, Completed.answer, Completed.answer, Option.map_some, Option.map_some, Option.some_inj, ← List.append_assoc,
    ← List.append_assoc, List.take_left' (hfront blocks rfl), List.take_left' (hfront blocks' hcount.symm), List.append_right_inj,
    flatMap_eq_iff length_entryBytes hzip, hshown, hbuf, hbuf']
  constructor
  · intro h i c hc
    obtain ⟨hi, hc⟩ := List.getElem?_eq_some_iff.mp hc
    rw [List.length_take, Nat.min_eq_left hlist] at hi
    rw [List.getElem_take] at hc
    have hc : openList[i]? = some c := List.getElem?_eq_some_iff.mpr ⟨hi.trans_le hlist, hc⟩
    have hi' : i < blocks'.length := hcount ▸ hi
    rw [behindName_eq hdr.property (List.getElem?_eq_getElem hi), behindName_eq hdr'.property (List.getElem?_eq_getElem hi')]
    exact entryBytes_inj.mp (h i (blocks[i], c) (blocks'[i], c)
      (List.getElem?_zip_eq_some.mpr ⟨List.getElem?_eq_getElem hi, hc⟩)
      (List.getElem?_zip_eq_some.mpr ⟨List.getElem?_eq_getElem hi', hc⟩))
  · rintro h i ⟨b, c⟩ ⟨b', c'⟩ hb hb'
    obtain ⟨hb, hc⟩ := List.getElem?_zip_eq_some.mp hb
    obtain ⟨hb', hc'⟩ := List.getElem?_zip_eq_some.mp hb'
    obtain rfl : c = c' := Option.some_injective _ (hc.symm.trans hc')
    have htail := h i c (by
      rw [List.getElem?_take_of_lt (List.getElem?_eq_some_iff.mp hb).1]
      exact hc)
    rw [behindName_eq hdr.property hb, behindName_eq hdr'.property hb'] at htail
    exact entryBytes_inj.mpr htail

theorem snapshot_discloses_sample :
    (ioctlBindings (.ofQuery 400 0xAA) [{ adapterName := [0x45], ifIndex := 1 }]).answer =
      (ioctlBindings (.ofQuery 400 0xBB) [{ adapterName := [0x45], ifIndex := 1 }]).answer ↔
      ∀ i c, ([{ adapterName := [0x45], ifIndex := 1 }] : List OpenContext)[i]? = some c →
        behindName (List.replicate 400 0xAA) i c = behindName (List.replicate 400 0xBB) i c :=
  snapshot_discloses (.ofQuery 400 0xAA) (.ofQuery 400 0xBB) [{ adapterName := [0x45], ifIndex := 1 }] (by decide) rfl

end IPv8Plus.Driver
