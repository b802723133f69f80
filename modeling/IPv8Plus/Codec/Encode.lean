import IPv8Plus.Codec.Header

/-!
# Encoding headers and packets

`encode_header` and `encode` of `ipv8-codec/src/encode.rs`. A packet is the 40-byte head, the chain of
extension headers with their re-derived type pointers, and the payload. `Encodable` collects what
`encode_header` checks; `encodeHeader_eq_ok` is its specification, and later proofs use nothing else.
-/

namespace IPv8Plus.Codec
open Lib

inductive EncodeError where
  | badVersion (v : UInt8)
  | fieldOverflow (name : String)
  | reservedBits
  | payloadTooLong (n : UInt16)
  | payloadLengthMismatch (header actual : Nat)
  | tooManyExtHeaders (n : Nat)
  | packetTooLong
  | nextHeaderMismatch (expect got : UInt8)
  | flagMismatch (name : String)
  | addressReserved
  deriving DecidableEq, Repr

/-- The 40 bytes of the base header; the encoder writes zero for the padding byte 39. -/
def IPv8Header.headBytes (h : IPv8Header) (pad : UInt8) : Bytes :=
  [h.version <<< 4 ||| h.minCompatVer &&& 0x0F] ++ be16 h.flags ++ be16 h.payloadLen ++
    [h.hopLimit, h.nextHeader] ++ h.srcAddr.toBytes ++ h.dstAddr.toBytes ++ [pad]

/-- The chain on the wire: pointer to the next type (zero at the end), length, payload. -/
def chainBytes : List ExtensionHeader → Bytes
  | [] => []
  | e :: chain => firstWire chain :: e.extLen :: (e.payload ++ chainBytes chain)

/-- Append a header and its chain to `out`; also returns the number of bytes written. -/
def encodeHeader (hdr : IPv8Header) (out : Bytes) : Outcome EncodeError (Bytes × Nat) :=
  if hdr.version ≠ protoVersion then
    .err (.badVersion hdr.version)
  else if 15 < hdr.minCompatVer then
    .err (.fieldOverflow "min_compat_ver")
  else if !Flags.reservedOk hdr.flags then
    .err .reservedBits
  else if maxPayloadLen < hdr.payloadLen then
    .err (.payloadTooLong hdr.payloadLen)
  else if maxExtChain < hdr.extHeaders.length then
    .err (.tooManyExtHeaders hdr.extHeaders.length)
  else if maxPacketLen < baseHeaderSize + chainSize hdr.extHeaders + hdr.payloadLen.toNat then
    .err .packetTooLong
  else if hdr.nextHeader ≠ firstWire hdr.extHeaders then
    .err (.nextHeaderMismatch (firstWire hdr.extHeaders) hdr.nextHeader)
  else if (hdr.flags &&& flags.hasExtension != 0) ≠ !hdr.extHeaders.isEmpty then
    .err (.flagMismatch "HAS_EXTENSION")
  else
    -- `write_to` always returns true, so `AddressReserved` is never answered
    let out' := out ++ hdr.headBytes 0 ++ chainBytes hdr.extHeaders
    .ok (out', out'.length - out.length)

/-- Encode a header and its payload into one packet. -/
def encode (hdr : IPv8Header) (payload : Bytes) : Outcome EncodeError Bytes :=
  if payload.length ≠ hdr.payloadLen.toNat then
    .err (.payloadLengthMismatch hdr.payloadLen.toNat payload.length)
  else do
    let (out, _) ← encodeHeader hdr []
    return out ++ payload

@[simp] lemma IPv8Header.length_headBytes (h : IPv8Header) (pad : UInt8) :
    (h.headBytes pad).length = baseHeaderSize := by
  simp [IPv8Header.headBytes, baseHeaderSize]

@[simp] lemma length_chainBytes (chain : List ExtensionHeader) :
    (chainBytes chain).length = chainSize chain := by
  induction chain with
  | nil => rfl
  | cons e chain ih =>
    simp only [chainBytes, List.length_cons, List.length_append, ih, chainSize_cons,
      ExtensionHeader.wireSize]
    omega

/-- The conditions under which a header can be encoded. -/
structure IPv8Header.Encodable (h : IPv8Header) : Prop where
  version : h.version = protoVersion
  compat : h.minCompatVer ≤ 15
  reserved : Flags.reservedOk h.flags = true
  payload : h.payloadLen ≤ maxPayloadLen
  chain : h.extHeaders.length ≤ maxExtChain
  total : baseHeaderSize + chainSize h.extHeaders + h.payloadLen.toNat ≤ maxPacketLen
  next : h.nextHeader = firstWire h.extHeaders
  flag : h.flags &&& flags.hasExtension ≠ 0 ↔ h.extHeaders ≠ []

/-- `encode_header` succeeds exactly on the encodable headers and appends head and chain. -/
theorem encodeHeader_eq_ok {hdr : IPv8Header} {out : Bytes} {r : Bytes × Nat} :
    encodeHeader hdr out = .ok r ↔
      hdr.Encodable ∧
        r = (out ++ hdr.headBytes 0 ++ chainBytes hdr.extHeaders,
          baseHeaderSize + chainSize hdr.extHeaders) := by
  unfold encodeHeader
  split_ifs with h1 h2 h3 h4 h5 h6 h7 h8
  · exact ⟨nofun, fun h => absurd h.1.version h1⟩
  · exact ⟨nofun, fun h => absurd h.1.compat (UInt8.not_le.mpr h2)⟩
  · exact ⟨nofun, fun h => by simp [h.1.reserved] at h3⟩
  · exact ⟨nofun, fun h => absurd h.1.payload (UInt16.not_le.mpr h4)⟩
  · exact ⟨nofun, fun h => absurd h.1.chain (by omega)⟩
  · exact ⟨nofun, fun h => absurd h.1.total (by omega)⟩
  · exact ⟨nofun, fun h => absurd h.1.next h7⟩
  · refine ⟨nofun, fun h => absurd ?_ h8⟩
    have hf := h.1.flag
    cases hc : hdr.extHeaders <;> simp_all
  · have enc : hdr.Encodable := by
      refine ⟨not_not.mp h1, UInt8.not_lt.mp h2, by simpa using h3, UInt16.not_lt.mp h4,
        by omega, by omega, not_not.mp h7, ?_⟩
      cases hc : hdr.extHeaders <;> simp_all
    have hl : (out ++ hdr.headBytes 0 ++ chainBytes hdr.extHeaders).length - out.length
        = baseHeaderSize + chainSize hdr.extHeaders := by
      simp only [List.length_append, IPv8Header.length_headBytes, length_chainBytes]
      omega
    simp only [hl, Outcome.ok.injEq, enc, true_and]
    exact eq_comm

/-- `encode_header` has no panicking operation. -/
lemma encodeHeader_ne_panic (hdr : IPv8Header) (out : Bytes) : encodeHeader hdr out ≠ .panic := by
  unfold encodeHeader
  split_ifs <;> simp

/-- `encode` succeeds exactly on an encodable header whose length field fits the payload. -/
theorem encode_eq_ok {hdr : IPv8Header} {payload bytes : Bytes} :
    encode hdr payload = .ok bytes ↔
      hdr.Encodable ∧ payload.length = hdr.payloadLen.toNat ∧
        bytes = hdr.headBytes 0 ++ chainBytes hdr.extHeaders ++ payload := by
  unfold encode
  split_ifs with h
  · exact ⟨nofun, fun e => absurd e.2.1 h⟩
  · rw [Outcome.bind_eq_ok]
    constructor
    · rintro ⟨⟨out, n⟩, e, rest⟩
      obtain ⟨enc, e⟩ := encodeHeader_eq_ok.mp e
      cases e
      cases rest
      exact ⟨enc, not_not.mp h, rfl⟩
    · rintro ⟨enc, hl, rfl⟩
      exact ⟨_, encodeHeader_eq_ok.mpr ⟨enc, rfl⟩, rfl⟩

/-- `encode` has no panicking operation. -/
lemma encode_ne_panic (hdr : IPv8Header) (payload : Bytes) : encode hdr payload ≠ .panic := by
  unfold encode
  split_ifs
  · simp
  · intro h
    cases e : encodeHeader hdr [] with
    | ok r => simp [e] at h
    | err e' => simp [e] at h
    | panic => exact encodeHeader_ne_panic _ _ e

/-- Attaching a chain always leaves pointer and flag consistent with the chain. -/
lemma IPv8Header.attachExtHeaders_flag (h : IPv8Header) (chain : List ExtensionHeader) :
    (h.attachExtHeaders chain).flags &&& flags.hasExtension ≠ 0 ↔ chain ≠ [] := by
  cases chain with
  | nil =>
    have e : h.flags &&& ~~~flags.hasExtension &&& flags.hasExtension = 0 :=
      read_clear_of_subset (by decide)
    simp [IPv8Header.attachExtHeaders, e]
  | cons x chain =>
    have e : (h.flags ||| flags.hasExtension) &&& flags.hasExtension ≠ 0 :=
      read_set_ne_zero (by decide)
    simp [IPv8Header.attachExtHeaders, e]

end IPv8Plus.Codec
