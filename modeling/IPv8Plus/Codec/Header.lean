import IPv8Plus.Lib.Outcome
import IPv8Plus.Lib.BigEndian
import IPv8Plus.Lib.Mask

/-!
# The IPv8+ base header

The data model of `ipv8-codec/src/header.rs`: the 40-byte base header, the 16-byte addresses, the flag
word and the chain of extension headers. `usize` lengths are `Nat`; every field that goes on the wire has
the width it has in the source.
-/

namespace IPv8Plus.Codec
open Lib

/-- Length of the base header in bytes. -/
def baseHeaderSize : Nat := 40

/-- Largest `payload_len`: 65535 - 20 (IPv4) - 8 (UDP) - 40 (base header). -/
def maxPayloadLen : UInt16 := 65467

/-- Largest packet: 65535 - 20 (IPv4) - 8 (UDP). -/
def maxPacketLen : Nat := 65507

/-- The protocol version. -/
def protoVersion : UInt8 := 0x8

/-- Largest number of extension headers in a chain. -/
def maxExtChain : Nat := 64

/-- An IPv8+ address (128 bits). -/
structure IPv8Address where
  protocol : UInt16
  regionHi : UInt16
  regionMid : UInt16
  regionLo : UInt16
  subnet1 : UInt16
  subnet2 : UInt16
  nodeHash : UInt16
  sessionId : UInt16
  deriving DecidableEq, Repr

/-- The 16-byte wire form (`write_to` and `to_bytes`). -/
def IPv8Address.toBytes (a : IPv8Address) : Bytes :=
  be16 a.protocol ++ be16 a.regionHi ++ be16 a.regionMid ++ be16 a.regionLo ++
    be16 a.subnet1 ++ be16 a.subnet2 ++ be16 a.nodeHash ++ be16 a.sessionId

namespace flags

/-- Bit 4: the payload is encrypted. -/
def encrypted : UInt16 := 0x10

/-- Bit 5: this packet is a fragment. -/
def fragment : UInt16 := 0x20

/-- Bit 6: an extension chain is present. -/
def hasExtension : UInt16 := 0x40

/-- Bits 7-15: reserved, must be zero. -/
def reservedMask : UInt16 := 0xFF80

end flags

/-- The reserved bits of a flag word are zero. -/
def Flags.reservedOk (f : UInt16) : Bool := f &&& flags.reservedMask == 0

/-- The types of extension headers. -/
inductive ExtType where
  | none
  | identityToken
  | semanticTag
  | qosReservation
  | agentCard
  | routeTrace
  | fragment
  /-- A number outside the registry, kept so that the chain can be skipped over. -/
  | unknown (v : UInt8)
  deriving DecidableEq, Repr

/-- The number of a type on the wire; zero ends a chain. -/
def ExtType.wire : ExtType → UInt8
  | .none => 0
  | .identityToken => 1
  | .semanticTag => 2
  | .qosReservation => 3
  | .agentCard => 4
  | .routeTrace => 5
  | .fragment => 6
  | .unknown v => v

/-- The type a number on the wire stands for. -/
def ExtType.fromU8 (v : UInt8) : ExtType :=
  if v = 0 then .none
  else if v = 1 then .identityToken
  else if v = 2 then .semanticTag
  else if v = 3 then .qosReservation
  else if v = 4 then .agentCard
  else if v = 5 then .routeTrace
  else if v = 6 then .fragment
  else .unknown v

/-- One extension header; the pointer to the next one exists only on the wire. -/
structure ExtensionHeader where
  extType : ExtType
  payload : Bytes
  deriving DecidableEq, Repr

/-- The checked constructor: no `None` type, a payload of 1 to 255 units of 8 bytes. -/
def ExtensionHeader.new (extType : ExtType) (payload : Bytes) : Option ExtensionHeader :=
  if extType = .none then none
  else if payload.length % 8 ≠ 0 ∨ payload.length / 8 = 0 ∨ 255 < payload.length / 8 then none
  else some ⟨extType, payload⟩

/-- The `ExtLen` byte, in units of 8 bytes. -/
def ExtensionHeader.extLen (e : ExtensionHeader) : UInt8 := UInt8.ofNat (e.payload.length / 8)

/-- Length on the wire, with the two bytes of type pointer and length. -/
def ExtensionHeader.wireSize (e : ExtensionHeader) : Nat := 2 + e.payload.length

/-- The base header and its extension chain. -/
structure IPv8Header where
  version : UInt8
  minCompatVer : UInt8
  flags : UInt16
  payloadLen : UInt16
  hopLimit : UInt8
  nextHeader : UInt8
  srcAddr : IPv8Address
  dstAddr : IPv8Address
  extHeaders : List ExtensionHeader
  deriving DecidableEq, Repr

/-- The type number of the first header of a chain, zero for the empty chain. -/
def firstWire (chain : List ExtensionHeader) : UInt8 :=
  match chain with
  | [] => 0
  | e :: _ => e.extType.wire

/-- Total length of a chain on the wire. -/
def chainSize (chain : List ExtensionHeader) : Nat := (chain.map (·.wireSize)).sum

/-- A header without extensions. -/
def IPv8Header.new (srcAddr dstAddr : IPv8Address) (payloadLen : UInt16) : IPv8Header where
  version := protoVersion
  minCompatVer := 0
  flags := 0
  payloadLen := payloadLen
  hopLimit := 64
  nextHeader := 0
  srcAddr := srcAddr
  dstAddr := dstAddr
  extHeaders := []

/-- Attach a chain and re-derive `next_header` and the `HAS_EXTENSION` bit from it. -/
def IPv8Header.attachExtHeaders (h : IPv8Header) (chain : List ExtensionHeader) : IPv8Header :=
  { h with
    nextHeader := firstWire chain
    flags := if chain.isEmpty then h.flags &&& ~~~flags.hasExtension else h.flags ||| flags.hasExtension
    extHeaders := chain }

@[simp] lemma IPv8Address.length_toBytes (a : IPv8Address) : a.toBytes.length = 16 := by
  simp [IPv8Address.toBytes]

/-- An address is determined by its wire form. -/
lemma IPv8Address.toBytes_injective : Function.Injective IPv8Address.toBytes := by
  intro a b h
  simp only [IPv8Address.toBytes] at h
  have split := fun (x y : UInt16) (s t : Bytes) (e : s ++ be16 x = t ++ be16 y) =>
    List.append_inj' e (by simp)
  obtain ⟨h, e8⟩ := split _ _ _ _ h
  obtain ⟨h, e7⟩ := split _ _ _ _ h
  obtain ⟨h, e6⟩ := split _ _ _ _ h
  obtain ⟨h, e5⟩ := split _ _ _ _ h
  obtain ⟨h, e4⟩ := split _ _ _ _ h
  obtain ⟨h, e3⟩ := split _ _ _ _ h
  obtain ⟨e1, e2⟩ := split _ _ _ _ h
  cases a
  cases b
  simp only [IPv8Address.mk.injEq]
  exact ⟨be16_injective e1, be16_injective e2, be16_injective e3, be16_injective e4,
    be16_injective e5, be16_injective e6, be16_injective e7, be16_injective e8⟩

/-- A type read off the wire has the number it was read from. -/
@[simp] lemma ExtType.wire_fromU8 (v : UInt8) : (ExtType.fromU8 v).wire = v := by
  unfold ExtType.fromU8
  split_ifs with h0 h1 h2 h3 h4 h5 h6
  all_goals simp_all [ExtType.wire]

/-- Only the end marker of a chain reads as `None`. -/
lemma ExtType.fromU8_eq_none {v : UInt8} : ExtType.fromU8 v = .none ↔ v = 0 := by
  constructor
  · intro h
    have e := ExtType.wire_fromU8 v
    rw [h] at e
    exact e.symm
  · intro h
    simp [ExtType.fromU8, h]

@[simp] lemma chainSize_nil : chainSize [] = 0 := rfl

@[simp] lemma chainSize_cons (e : ExtensionHeader) (chain : List ExtensionHeader) :
    chainSize (e :: chain) = e.wireSize + chainSize chain := by
  simp [chainSize]

/-- The well-formed extension headers: what `new` builds and what decoding produces. -/
structure ExtensionHeader.WF (e : ExtensionHeader) : Prop where
  typed : ∃ v, e.extType = ExtType.fromU8 v
  wire_ne_zero : e.extType.wire ≠ 0
  aligned : e.payload.length % 8 = 0
  nonempty : 0 < e.payload.length
  bounded : e.payload.length ≤ 255 * 8

namespace ExtensionHeader.WF

variable {e : ExtensionHeader} (wf : e.WF)
include wf

/-- The `ExtLen` byte does not lose the length. -/
lemma extLen_toNat : e.extLen.toNat * 8 = e.payload.length := by
  have h1 := wf.aligned
  have h2 := wf.bounded
  have h3 : e.extLen.toNat = e.payload.length / 8 % 2 ^ 8 := UInt8.toNat_ofNat'
  omega

lemma extLen_ne_zero : e.extLen ≠ 0 := by
  intro h
  have h1 := wf.extLen_toNat
  have h2 := wf.nonempty
  rw [h] at h1
  simp at h1
  omega

lemma fromU8_wire : ExtType.fromU8 e.extType.wire = e.extType := by
  obtain ⟨v, hv⟩ := wf.typed
  rw [hv, ExtType.wire_fromU8]

end ExtensionHeader.WF

/-- `ExtensionHeader::new` on a type that came from a number builds a well-formed header. -/
lemma ExtensionHeader.new_wf {v : UInt8} {payload : Bytes} {e : ExtensionHeader}
    (h : ExtensionHeader.new (ExtType.fromU8 v) payload = some e) : e.WF := by
  unfold ExtensionHeader.new at h
  split_ifs at h with h1 h2
  cases h
  push Not at h2
  obtain ⟨ha, hn, hb⟩ := h2
  refine ⟨⟨v, rfl⟩, ?_, ha, ?_, ?_⟩
  · intro e
    rw [ExtType.wire_fromU8] at e
    exact h1 (ExtType.fromU8_eq_none.mpr e)
  · show 0 < payload.length
    omega
  · show payload.length ≤ 255 * 8
    omega

end IPv8Plus.Codec
