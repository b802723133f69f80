import IPv8Plus.Codec.Fragment
import IPv8Plus.Lib.Run

/-!
# The reassembler

`Reassembler` of `ipv8-codec/src/fragment.rs`. Fragments are collected in groups by source, destination
and identification; a group keeps the contiguous prefix of the payload and a backlog of pieces ahead of it.
`insert` returns the rebuilt packet when a fragment completes its group. Instants are nanoseconds, and the
clock readings inside one call are one reading.

`Group.take` is what a group does with a fragment that was let in; `insert_cases` says what a call does to
the reassembler, and the later modules use these two and not the body of `insert`.
-/

namespace IPv8Plus.Codec
open Lib

/-- Largest number of groups at a time. -/
def maxGroups : Nat := 64

/-- Largest number of payload bytes in a group. -/
def maxGroupBytes : Nat := 65467

/-- Age at which a group is reaped: 30 s. -/
def reassemblyTimeout : Nat := 30 * 10 ^ 9

inductive ReassemblyError where
  | flagMismatch
  | notFirstExt
  | overlap
  | beyondTotal
  | misaligned
  | oversize
  | offsetOverflow
  | tooManyGroups
  deriving DecidableEq, Repr

/-- The fragments of one packet. `origExt` comes from the first piece, the other header fields from the
fragment that arrived first. -/
structure Group where
  origExt : Option (List ExtensionHeader)
  flags : UInt16
  version : UInt8
  minCompatVer : UInt8
  hopLimit : UInt8
  src : IPv8Address
  dst : IPv8Address
  chunks : Backlog UInt8
  pos : Nat
  total : Option Nat
  payload : Bytes
  created : Nat

/-- Source, destination, identification. -/
abbrev GroupKey := Bytes × Bytes × UInt32

/-- The order by which groups are looked up. -/
def GroupKey.cmp : GroupKey → GroupKey → Ordering :=
  compareLex (compareOn (·.1)) (compareLex (compareOn (·.2.1)) (compareOn (·.2.2)))

instance : Std.TransCmp GroupKey.cmp := by
  unfold GroupKey.cmp
  infer_instance

instance : Std.LawfulEqCmp GroupKey.cmp where
  eq_of_compare := by
    intro a b h
    rw [GroupKey.cmp, compareLex_eq_eq, compareLex_eq_eq] at h
    obtain ⟨h1, h2, h3⟩ := h
    have e1 : a.1 = b.1 := Std.LawfulEqCmp.eq_of_compare h1
    have e2 : a.2.1 = b.2.1 := Std.LawfulEqCmp.eq_of_compare h2
    have e3 : a.2.2 = b.2.2 := Std.LawfulEqCmp.eq_of_compare h3
    exact Prod.ext e1 (Prod.ext e2 e3)

structure Reassembler where
  groups : Std.ExtTreeMap GroupKey Group GroupKey.cmp

def Reassembler.new : Reassembler := ⟨∅⟩

def Reassembler.activeGroups (r : Reassembler) : Nat := r.groups.size

/-- Position of a fragment's first byte in the payload. -/
def FragmentInfo.start (f : FragmentInfo) : Nat := f.offset.toNat * 8

/-- The checks of `insert` that look at the fragment alone. -/
def checkFragment (hdr : IPv8Header) (payload : Bytes) : Except ReassemblyError FragmentInfo :=
  let fFlag := hdr.flags &&& flags.fragment != 0
  match hdr.extHeaders.head?.bind FragmentInfo.parse with
  | none => .error .flagMismatch
  | some frag =>
    if !fFlag then .error .flagMismatch
    else if hdr.extHeaders.head?.map (·.extType) ≠ some .fragment then .error .notFirstExt
    else if 0x1FFF * 8 < frag.start then .error .offsetOverflow
    else if frag.more ∧ payload.length % 8 ≠ 0 then .error .misaligned
    else .ok frag

/-- The group a fragment belongs to. -/
def groupKey (hdr : IPv8Header) (frag : FragmentInfo) : GroupKey :=
  (hdr.srcAddr.toBytes, hdr.dstAddr.toBytes, frag.id)

/-- The group a first fragment opens. -/
def Group.new (hdr : IPv8Header) (now : Nat) : Group where
  origExt := none
  flags := hdr.flags &&& ~~~(flags.fragment ||| flags.hasExtension)
  version := hdr.version
  minCompatVer := hdr.minCompatVer
  hopLimit := hdr.hopLimit
  src := hdr.srcAddr
  dst := hdr.dstAddr
  chunks := ∅
  pos := 0
  total := none
  payload := []
  created := now

/-- The checks of `insert` against the group, made before the group changes. -/
def Group.refuses (g : Group) (frag : FragmentInfo) (len : Nat) : Option ReassemblyError :=
  if frag.start < g.pos then some .overlap
  else if g.total.any (· < frag.start + len) then some .beyondTotal
  else if frag.more then none
  else if maxGroupBytes < frag.start + len then some .oversize
  else if g.total.any (· ≠ frag.start + len) then some .beyondTotal
  else none

/-- The total length, once this fragment is in. -/
def Group.totalWith (g : Group) (frag : FragmentInfo) (len : Nat) : Option Nat :=
  if frag.more then g.total else some (frag.start + len)

/-- The original chain, once this fragment is in. -/
def Group.chainWith (g : Group) (hdr : IPv8Header) (frag : FragmentInfo) : Option (List ExtensionHeader) :=
  if frag.start = 0 ∧ g.origExt.isNone then some (hdr.extHeaders.drop 1) else g.origExt

/-- Note the total and the chain, and put the piece to the backlog: it replaces a piece with its start. -/
def Group.buffer (g : Group) (hdr : IPv8Header) (frag : FragmentInfo) (payload : Bytes) : Group :=
  { g with
    total := g.totalWith frag payload.length
    origExt := g.chainWith hdr frag
    chunks := g.chunks.insert frag.start payload }

/-- Move the pieces that continue the prefix out of the backlog. -/
def Group.advance (g : Group) : Group :=
  let (chunks, pos, payload) := drain g.chunks g.pos g.payload
  { g with chunks, pos, payload }

/-- The header of the rebuilt packet. -/
def Group.outHeader (g : Group) (total : Nat) : IPv8Header :=
  let hdr : IPv8Header :=
    { version := g.version
      minCompatVer := g.minCompatVer
      flags := g.flags
      payloadLen := UInt16.ofNat total
      hopLimit := g.hopLimit
      nextHeader := 0
      srcAddr := g.src
      dstAddr := g.dst
      extHeaders := [] }
  hdr.attachExtHeaders (g.origExt.getD [])

/-- The rebuilt packet; an encoding error is a panic. -/
def Group.rebuild (g : Group) (total : Nat) : Outcome ReassemblyError Bytes := do
  let (pkt, _) ← (encodeHeader (g.outHeader total) []).expect
  return pkt ++ g.payload

/-- What a group does with a fragment: the group afterwards, none if it is complete, and the answer. -/
def Group.take (g : Group) (hdr : IPv8Header) (frag : FragmentInfo) (payload : Bytes) :
    Option Group × Outcome ReassemblyError (Option Bytes) :=
  match g.refuses frag payload.length with
  | some e => (some g, .err e)
  | none =>
    if frag.start ∈ g.chunks then (some (g.buffer hdr frag payload), .err .overlap)
    else
      let g := (g.buffer hdr frag payload).advance
      if g.total = some g.pos then (none, some <$> g.rebuild g.pos)
      else (some g, .ok none)

/-- Remove the groups that are too old. -/
def Reassembler.reap (r : Reassembler) (now : Nat) : Reassembler :=
  ⟨r.groups.filter fun _ g => now - g.created < reassemblyTimeout⟩

/-- Room for the group: a new group needs a free slot, if necessary after another round of reaping. -/
def Reassembler.makeRoom (r : Reassembler) (now : Nat) (key : GroupKey) : Reassembler × Bool :=
  if key ∉ r.groups ∧ maxGroups ≤ r.groups.size then
    let r := r.reap now
    (r, decide (r.groups.size < maxGroups))
  else (r, true)

/-- Insert a decoded fragment. -/
def Reassembler.insert (r : Reassembler) (now : Nat) (hdr : IPv8Header) (payload : Bytes) :
    Reassembler × Outcome ReassemblyError (Option Bytes) :=
  match checkFragment hdr payload with
  | .error e => (r, .err e)
  | .ok frag =>
    let key := groupKey hdr frag
    let (r, hasRoom) := (r.reap now).makeRoom now key
    if !hasRoom then (r, .err .tooManyGroups)
    else
      let g := (r.groups[key]?).getD (Group.new hdr now)
      match g.take hdr frag payload with
      | (some g, x) => (⟨r.groups.insert key g⟩, x)
      | (none, x) => (⟨r.groups.erase key⟩, x)

/-- The calls of a reassembler. -/
inductive Call where
  | insert (now : Nat) (d : Decoded)
  | reap (now : Nat)

/-- One call; reaping has no answer of its own. -/
def Reassembler.step (r : Reassembler) (c : Call) : Reassembler × Outcome ReassemblyError (Option Bytes) :=
  match c with
  | .insert now d => r.insert now d.header d.payload
  | .reap now => (r.reap now, .ok none)

/-! ## What a call does -/

/-- The group a fragment meets. -/
def Reassembler.groupFor (r : Reassembler) (now : Nat) (hdr : IPv8Header) (frag : FragmentInfo) : Group :=
  ((r.reap now).groups[groupKey hdr frag]?).getD (Group.new hdr now)

/-- There is a group for the fragment, or a free slot. -/
def Reassembler.HasRoom (r : Reassembler) (now : Nat) (key : GroupKey) : Prop :=
  key ∈ (r.reap now).groups ∨ (r.reap now).groups.size < maxGroups

/-- Reaping keeps the young groups. -/
lemma getElem?_reap {r : Reassembler} {now : Nat} {key : GroupKey} {g : Group} :
    (r.reap now).groups[key]? = some g ↔
      r.groups[key]? = some g ∧ now - g.created < reassemblyTimeout := by
  rw [Reassembler.reap, Std.ExtTreeMap.getElem?_filter', Option.filter_eq_some_iff, decide_eq_true_eq]

lemma reap_reap (r : Reassembler) (now : Nat) : (r.reap now).reap now = r.reap now := by
  rw [Reassembler.mk.injEq]
  apply Std.ExtTreeMap.ext_getElem?
  intro key
  apply Option.ext
  intro g
  rw [getElem?_reap, and_iff_left_of_imp]
  intro h
  exact (getElem?_reap.mp h).2

lemma size_reap_le (r : Reassembler) (now : Nat) : (r.reap now).groups.size ≤ r.groups.size :=
  Std.ExtTreeMap.size_filter_le_size

open Classical in
lemma makeRoom_reap (r : Reassembler) (now : Nat) (key : GroupKey) :
    (r.reap now).makeRoom now key = (r.reap now, decide (r.HasRoom now key)) := by
  rw [Reassembler.makeRoom, reap_reap]
  split_ifs with h
  · have hroom : r.HasRoom now key ↔ (r.reap now).groups.size < maxGroups := or_iff_right h.1
    simp only [hroom]
  · have hroom : r.HasRoom now key := by
      by_contra hn
      rw [Reassembler.HasRoom, not_or, not_lt] at hn
      exact h hn
    simp only [hroom, decide_true]

/-- A group does one of four things with a fragment: refuse it, let it replace the piece with its start,
buffer it, or complete the packet with it. -/
theorem take_cases (g : Group) (hdr : IPv8Header) (frag : FragmentInfo) (payload : Bytes) :
    (∃ e, g.refuses frag payload.length = some e ∧ g.take hdr frag payload = (some g, .err e)) ∨
    g.refuses frag payload.length = none ∧
      (frag.start ∈ g.chunks ∧
          g.take hdr frag payload = (some (g.buffer hdr frag payload), .err .overlap) ∨
        frag.start ∉ g.chunks ∧
          ((g.buffer hdr frag payload).advance.total ≠ some (g.buffer hdr frag payload).advance.pos ∧
              g.take hdr frag payload = (some (g.buffer hdr frag payload).advance, .ok none) ∨
            (g.buffer hdr frag payload).advance.total = some (g.buffer hdr frag payload).advance.pos ∧
              g.take hdr frag payload =
                (none, some <$> (g.buffer hdr frag payload).advance.rebuild
                  (g.buffer hdr frag payload).advance.pos))) := by
  rw [Group.take]
  cases hr : g.refuses frag payload.length with
  | some e => exact .inl ⟨e, rfl, rfl⟩
  | none =>
    refine .inr ⟨rfl, ?_⟩
    dsimp only
    split_ifs with hdup hdone
    · exact .inl ⟨hdup, rfl⟩
    · exact .inr ⟨hdup, .inr ⟨hdone, rfl⟩⟩
    · exact .inr ⟨hdup, .inl ⟨hdone, rfl⟩⟩

/-- A call of `insert` ends in one of three ways: the fragment is malformed, there is no room for its group,
or the group takes it. -/
theorem insert_cases (r : Reassembler) (now : Nat) (hdr : IPv8Header) (payload : Bytes) :
    (∃ e, checkFragment hdr payload = .error e ∧ r.insert now hdr payload = (r, .err e)) ∨
    ∃ frag, checkFragment hdr payload = .ok frag ∧
      (¬ r.HasRoom now (groupKey hdr frag) ∧
          r.insert now hdr payload = (r.reap now, .err .tooManyGroups) ∨
        r.HasRoom now (groupKey hdr frag) ∧
          r.insert now hdr payload =
            (⟨match ((r.groupFor now hdr frag).take hdr frag payload).1 with
              | some g => (r.reap now).groups.insert (groupKey hdr frag) g
              | none => (r.reap now).groups.erase (groupKey hdr frag)⟩,
              ((r.groupFor now hdr frag).take hdr frag payload).2)) := by
  cases hc : checkFragment hdr payload with
  | error e => exact .inl ⟨e, rfl, by rw [Reassembler.insert, hc]⟩
  | ok frag =>
    refine .inr ⟨frag, rfl, ?_⟩
    rw [Reassembler.insert, hc]
    simp only [makeRoom_reap]
    by_cases hroom : r.HasRoom now (groupKey hdr frag)
    · refine .inr ⟨hroom, ?_⟩
      simp only [hroom, decide_true, Bool.not_true, Bool.false_eq_true, if_false]
      rw [Reassembler.groupFor]
      split
      · rename_i g x h
        rw [h]
      · rename_i x h
        rw [h]
    · refine .inl ⟨hroom, ?_⟩
      simp only [hroom, decide_false, Bool.not_false, if_true]

/-- What every call keeps of all groups: a property that holds of new groups and that `take` keeps. -/
theorem groups_invariant {P : Group → Prop} {r : Reassembler} {now : Nat} {hdr : IPv8Header} {payload : Bytes}
    (hr : ∀ (key : GroupKey) g, r.groups[key]? = some g → P g) (hnew : P (Group.new hdr now))
    (htake : ∀ frag g g', checkFragment hdr payload = .ok frag → g = r.groupFor now hdr frag → P g →
      (g.take hdr frag payload).1 = some g' → P g') :
    ∀ (key : GroupKey) g, (r.insert now hdr payload).1.groups[key]? = some g → P g := by
  have hreap : ∀ (key : GroupKey) g, (r.reap now).groups[key]? = some g → P g :=
    fun key g h => hr key g (getElem?_reap.mp h).1
  intro key g
  obtain ⟨e, -, h⟩ | ⟨frag, hc, ⟨-, h⟩ | ⟨-, h⟩⟩ := insert_cases r now hdr payload
  · rw [h]
    exact hr key g
  · rw [h]
    exact hreap key g
  · rw [h]
    have hg : P (r.groupFor now hdr frag) := by
      rw [Reassembler.groupFor]
      cases e : (r.reap now).groups[groupKey hdr frag]? with
      | none => exact hnew
      | some g => exact hreap _ g e
    cases ht : ((r.groupFor now hdr frag).take hdr frag payload).1 with
    | none =>
      dsimp only
      rw [Std.ExtTreeMap.getElem?_erase]
      split
      · exact nofun
      · exact hreap key g
    | some g' =>
      dsimp only
      rw [Std.ExtTreeMap.getElem?_insert]
      split
      · intro h
        cases h
        exact htake frag _ _ hc rfl hg ht
      · exact hreap key g

end IPv8Plus.Codec
