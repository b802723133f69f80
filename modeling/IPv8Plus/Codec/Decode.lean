import IPv8Plus.Codec.Encode

/-!
# Decoding packets

`decode` of `ipv8-codec/src/decode.rs`, with every index and subslice of the source as a checked access
that panics out of range. The walk over the extension chain follows the type pointers on the wire and
stops at a repeated type, a truncated or empty header, the end marker or the length cap.

`decode_eq_ok` is the specification: `decode` accepts exactly the byte strings of the form
head ‖ chain ‖ payload ‖ rest for a well-formed header, and `decode_ne_panic` says that no access of it
is out of range.
-/

namespace IPv8Plus.Codec
open Lib

inductive DecodeError where
  | tooShort (n : Nat)
  | badVersion (v : UInt8)
  | payloadTooLong (n : UInt16)
  | payloadBeyondBuffer (need have' : Nat)
  | packetTooLong
  | extHeaderTruncated
  | tooManyExtHeaders
  | extLenZero
  | extChainCycle
  | flagMismatch
  deriving DecidableEq, Repr

/-- A decoded packet. `payload` borrows from the input; `offset` is where it starts there. -/
structure Decoded where
  header : IPv8Header
  payload : Bytes
  offset : Nat
  deriving DecidableEq, Repr

section
variable {ε : Type}

/-- `u16::from_be_bytes([b[i], b[i + 1]])`. -/
def readU16 (b : Bytes) (i : Nat) : Outcome ε UInt16 := do
  let hi ← idx b i
  let lo ← idx b (i + 1)
  return ofBe16 [hi, lo]

def readAddr (b : Bytes) : Outcome ε IPv8Address := do
  let protocol ← readU16 b 0
  let regionHi ← readU16 b 2
  let regionMid ← readU16 b 4
  let regionLo ← readU16 b 6
  let subnet1 ← readU16 b 8
  let subnet2 ← readU16 b 10
  let nodeHash ← readU16 b 12
  let sessionId ← readU16 b 14
  return { protocol, regionHi, regionMid, regionLo, subnet1, subnet2, nodeHash, sessionId }

end

/-- The fixed part of `decode`: bytes 0 to 39. -/
def decodeHead (buf : Bytes) : Outcome DecodeError IPv8Header :=
  if buf.length < baseHeaderSize then
    .err (.tooShort buf.length)
  else do
    let b0 ← idx buf 0
    let version := b0 >>> 4
    let minCompatVer := b0 &&& 0x0F
    if version ≠ protoVersion then
      .err (.badVersion version)
    else do
      let flags ← readU16 buf 1
      let payloadLen ← readU16 buf 3
      if maxPayloadLen < payloadLen then
        .err (.payloadTooLong payloadLen)
      else do
        let hopLimit ← idx buf 5
        let nextHeader ← idx buf 6
        let srcAddr ← readAddr (← slice buf 7 23)
        let dstAddr ← readAddr (← slice buf 23 39)
        return { version, minCompatVer, flags, payloadLen, hopLimit, nextHeader, srcAddr, dstAddr,
                 extHeaders := [] }

/-- The loop over the extension chain: where it ends, and the headers it collected. -/
def decodeChain (buf : Bytes) (cursor : Nat) (curType : UInt8) (idx' : Nat) (seen : List UInt8)
    (extHeaders : List ExtensionHeader) : Outcome DecodeError (Nat × List ExtensionHeader) :=
  let ty := ExtType.fromU8 curType
  if curType ∈ seen then
    .err .extChainCycle
  else if buf.length < cursor + 2 then
    .err .extHeaderTruncated
  else do
    let ptrNext ← idx buf cursor
    let extLen ← idx buf (cursor + 1)
    if extLen = 0 then
      .err .extLenZero
    else
      let plen := extLen.toNat * 8
      if _h : buf.length < cursor + 2 + plen then
        .err .extHeaderTruncated
      else do
        let payload ← slice buf (cursor + 2) (cursor + 2 + plen)
        let extHeaders := extHeaders ++ [{ extType := ty, payload }]
        if maxExtChain < idx' + 1 then
          .err .tooManyExtHeaders
        else if ptrNext = 0 then
          .ok (cursor + 2 + plen, extHeaders)
        else
          decodeChain buf (cursor + 2 + plen) ptrNext (idx' + 1) (seen ++ [curType]) extHeaders
termination_by buf.length - cursor

/-- The chain part of `decode`: no loop when the base header points to no extension. -/
def decodeExts (buf : Bytes) (nextHeader : UInt8) : Outcome DecodeError (Nat × List ExtensionHeader) :=
  if nextHeader ≠ 0 then decodeChain buf baseHeaderSize nextHeader 0 [] []
  else .ok (baseHeaderSize, [])

/-- The last part of `decode`: the flag, the payload and the length cap. -/
def decodePayload (buf : Bytes) (hdr : IPv8Header) (cursor : Nat) (extHeaders : List ExtensionHeader) :
    Outcome DecodeError Decoded :=
  if (hdr.flags &&& flags.hasExtension != 0) ≠ !extHeaders.isEmpty then
    .err .flagMismatch
  else if buf.length < cursor + hdr.payloadLen.toNat then
    .err (.payloadBeyondBuffer hdr.payloadLen.toNat (buf.length - cursor))
  else do
    let payload ← slice buf cursor (cursor + hdr.payloadLen.toNat)
    if maxPacketLen < cursor + hdr.payloadLen.toNat then
      .err .packetTooLong
    else
      return { header := { hdr with extHeaders }, payload, offset := cursor }

/-- Decode a packet from the front of a buffer. -/
def decode (buf : Bytes) : Outcome DecodeError Decoded := do
  let hdr ← decodeHead buf
  let r ← decodeExts buf hdr.nextHeader
  decodePayload buf hdr r.1 r.2

/-! ## The fixed part -/

lemma readAddr_toBytes {ε : Type} (a : IPv8Address) : (readAddr a.toBytes : Outcome ε IPv8Address) = .ok a := by
  have e : (readAddr a.toBytes : Outcome ε IPv8Address) =
      .ok { protocol := ofBe16 (be16 a.protocol), regionHi := ofBe16 (be16 a.regionHi),
            regionMid := ofBe16 (be16 a.regionMid), regionLo := ofBe16 (be16 a.regionLo),
            subnet1 := ofBe16 (be16 a.subnet1), subnet2 := ofBe16 (be16 a.subnet2),
            nodeHash := ofBe16 (be16 a.nodeHash), sessionId := ofBe16 (be16 a.sessionId) } := rfl
  simp only [e, ofBe16_be16]

/-- Every string of 16 bytes is the wire form of an address. -/
lemma exists_toBytes {b : Bytes} (h : b.length = 16) : ∃ a : IPv8Address, a.toBytes = b := by
  match b, h with
  | [b0, b1, b2, b3, b4, b5, b6, b7, b8, b9, b10, b11, b12, b13, b14, b15], _ =>
    refine ⟨⟨ofBe16 [b0, b1], ofBe16 [b2, b3], ofBe16 [b4, b5], ofBe16 [b6, b7],
      ofBe16 [b8, b9], ofBe16 [b10, b11], ofBe16 [b12, b13], ofBe16 [b14, b15]⟩, ?_⟩
    simp only [IPv8Address.toBytes, be16_ofBe16 (show [_, _].length = 2 from rfl), List.cons_append, List.nil_append]

/-- Splitting a byte into its two halves and joining them again. -/
lemma join_nibbles (b : UInt8) : (b >>> 4) <<< 4 ||| (b &&& 0x0F) &&& 0x0F = b := by
  have h : ∀ n : Fin 256, (UInt8.ofFin n >>> 4) <<< 4 ||| (UInt8.ofFin n &&& 0x0F) &&& 0x0F = UInt8.ofFin n := by
    decide +kernel
  exact h b.toFin

lemma split_nibbles {v c : UInt8} (hv : v < 16) (hc : c < 16) :
    (v <<< 4 ||| c &&& 0x0F) >>> 4 = v ∧ (v <<< 4 ||| c &&& 0x0F) &&& 0x0F = c := by
  have h : ∀ m n : Fin 16,
      (UInt8.ofNat m <<< 4 ||| UInt8.ofNat n &&& 0x0F) >>> 4 = UInt8.ofNat m ∧
        (UInt8.ofNat m <<< 4 ||| UInt8.ofNat n &&& 0x0F) &&& 0x0F = UInt8.ofNat n := by
    decide +kernel
  have hv' : v.toNat < 16 := UInt8.lt_iff_toNat_lt.mp hv
  have hc' : c.toNat < 16 := UInt8.lt_iff_toNat_lt.mp hc
  have e := h ⟨v.toNat, hv'⟩ ⟨c.toNat, hc'⟩
  simpa only [UInt8.ofNat_toNat] using e

/-- The headers whose first byte does not mix up version and compatibility version. -/
structure IPv8Header.Nibbles (h : IPv8Header) : Prop where
  version : h.version < 16
  compat : h.minCompatVer < 16

lemma exists_fixed : ∀ {b : Bytes}, b.length = 7 →
    ∃ b0 f0 f1 p0 p1 hop next : UInt8, b = [b0, f0, f1, p0, p1, hop, next]
  | [_, _, _, _, _, _, _], _ => ⟨_, _, _, _, _, _, _, rfl⟩

/-- Every buffer of at least 40 bytes starts with a head. -/
lemma exists_headBytes {buf : Bytes} (h : baseHeaderSize ≤ buf.length) :
    ∃ (hdr : IPv8Header) (pad : UInt8) (rest : Bytes),
      buf = hdr.headBytes pad ++ rest ∧ hdr.Nibbles ∧ hdr.extHeaders = [] := by
  have split := fun (n : Nat) (b : Bytes) (hb : n ≤ b.length) =>
    (⟨b.take n, b.drop n, (List.take_append_drop n b).symm, by simp [hb]⟩ :
      ∃ x y : Bytes, b = x ++ y ∧ x.length = n)
  obtain ⟨fixed, t, rfl, hfixed⟩ := split 7 buf (by simp only [baseHeaderSize] at h; omega)
  obtain ⟨s, t, rfl, hs⟩ := split 16 t (by simp only [baseHeaderSize, List.length_append] at h; omega)
  obtain ⟨d, t, rfl, hd⟩ := split 16 t (by simp only [baseHeaderSize, List.length_append] at h; omega)
  obtain ⟨last, rest, rfl, hlast⟩ :=
    split 1 t (by simp only [baseHeaderSize, List.length_append] at h; omega)
  obtain ⟨src, rfl⟩ := exists_toBytes hs
  obtain ⟨dst, rfl⟩ := exists_toBytes hd
  obtain ⟨b0, f0, f1, p0, p1, hop, next, rfl⟩ := exists_fixed hfixed
  obtain ⟨pad, rfl⟩ := List.length_eq_one_iff.mp hlast
  refine ⟨⟨b0 >>> 4, b0 &&& 0x0F, ofBe16 [f0, f1], ofBe16 [p0, p1], hop, next, src, dst, []⟩,
    pad, rest, ?_, ⟨?_, ?_⟩, rfl⟩
  · simp only [IPv8Header.headBytes, join_nibbles, be16_ofBe16 (show [_, _].length = 2 from rfl), List.cons_append,
      List.nil_append, List.append_assoc]
  · have e : ∀ n : Fin 256, UInt8.ofFin n >>> 4 < 16 := by decide +kernel
    exact e b0.toFin
  · have e : ∀ n : Fin 256, UInt8.ofFin n &&& 0x0F < 16 := by decide +kernel
    exact e b0.toFin

/-- What the fixed part of `decode` does with a head. -/
lemma decodeHead_headBytes {hdr : IPv8Header} (hn : hdr.Nibbles) (pad : UInt8) (rest : Bytes) :
    decodeHead (hdr.headBytes pad ++ rest) =
      if hdr.version ≠ protoVersion then .err (.badVersion hdr.version)
      else if maxPayloadLen < hdr.payloadLen then .err (.payloadTooLong hdr.payloadLen)
      else .ok { hdr with extHeaders := [] } := by
  obtain ⟨hv, hc⟩ := split_nibbles hn.version hn.compat
  have hlen : ¬ (hdr.headBytes pad ++ rest).length < baseHeaderSize := by
    simp only [List.length_append, IPv8Header.length_headBytes]
    omega
  have h0 : (idx (hdr.headBytes pad ++ rest) 0 : Outcome DecodeError UInt8) =
      .ok (hdr.version <<< 4 ||| hdr.minCompatVer &&& 0x0F) := rfl
  have h1 : (readU16 (hdr.headBytes pad ++ rest) 1 : Outcome DecodeError UInt16) =
      .ok (ofBe16 (be16 hdr.flags)) := rfl
  have h3 : (readU16 (hdr.headBytes pad ++ rest) 3 : Outcome DecodeError UInt16) =
      .ok (ofBe16 (be16 hdr.payloadLen)) := rfl
  have h5 : (idx (hdr.headBytes pad ++ rest) 5 : Outcome DecodeError UInt8) = .ok hdr.hopLimit := rfl
  have h6 : (idx (hdr.headBytes pad ++ rest) 6 : Outcome DecodeError UInt8) = .ok hdr.nextHeader := rfl
  have h7 : (slice (hdr.headBytes pad ++ rest) 7 23 : Outcome DecodeError Bytes) =
      .ok hdr.srcAddr.toBytes := by
    rw [slice_of_le (by omega) (by simp [baseHeaderSize]; omega)]
    rfl
  have h23 : (slice (hdr.headBytes pad ++ rest) 23 39 : Outcome DecodeError Bytes) =
      .ok hdr.dstAddr.toBytes := by
    rw [slice_of_le (by omega) (by simp [baseHeaderSize]; omega)]
    rfl
  simp only [decodeHead, if_neg hlen, h0, h1, h3, h5, h6, h7, h23, Outcome.ok_bind, hv, hc, ofBe16_be16,
    readAddr_toBytes, Outcome.pure_def]

/-! ## The extension chain -/

/-- Two bytes inside the buffer can be read at the cursor. -/
lemma exists_two_bytes {buf : Bytes} {cursor : Nat} (h : cursor + 2 ≤ buf.length) :
    ∃ ptr len rest, buf.drop cursor = ptr :: len :: rest := by
  have e := List.length_drop (i := cursor) (l := buf)
  match hb : buf.drop cursor with
  | ptr :: len :: rest => exact ⟨ptr, len, rest, rfl⟩
  | [] => simp only [hb, List.length_nil] at e; omega
  | [_] => simp only [hb, List.length_cons, List.length_nil] at e; omega

/-- One round of the chain loop, once the two bytes at the cursor are known. -/
lemma decodeChain_step {buf rest : Bytes} {cursor i : Nat} {cur ptr len : UInt8} {seen : List UInt8}
    {exts : List ExtensionHeader} (hd : buf.drop cursor = ptr :: len :: rest) (hs : cur ∉ seen) :
    decodeChain buf cursor cur i seen exts =
      if len = 0 then .err .extLenZero
      else if rest.length < len.toNat * 8 then .err .extHeaderTruncated
      else if maxExtChain < i + 1 then .err .tooManyExtHeaders
      else if ptr = 0 then
        .ok (cursor + 2 + len.toNat * 8, exts ++ [⟨.fromU8 cur, rest.take (len.toNat * 8)⟩])
      else
        decodeChain buf (cursor + 2 + len.toNat * 8) ptr (i + 1) (seen ++ [cur])
          (exts ++ [⟨.fromU8 cur, rest.take (len.toNat * 8)⟩]) := by
  have hl : buf.length = cursor + 2 + rest.length := by
    have e := congrArg List.length hd
    simp only [List.length_drop, List.length_cons] at e
    omega
  have h0 : (idx buf cursor : Outcome DecodeError UInt8) = .ok ptr := by
    apply idx_of_getElem?
    have e := congrArg (·[0]?) hd
    simpa using e
  have h1 : (idx buf (cursor + 1) : Outcome DecodeError UInt8) = .ok len := by
    apply idx_of_getElem?
    have e := congrArg (·[1]?) hd
    simpa using e
  have h2 : buf.drop (cursor + 2) = rest := by
    rw [← List.drop_drop, hd]
    rfl
  rw [decodeChain]
  simp only [if_neg hs, if_neg (show ¬ buf.length < cursor + 2 by omega), h0, h1, Outcome.ok_bind]
  by_cases hz : len = 0
  · simp only [if_pos hz]
  by_cases ht : rest.length < len.toNat * 8
  · simp only [if_neg hz, if_pos ht, dif_pos (show buf.length < cursor + 2 + len.toNat * 8 by omega)]
  have hsl : (slice buf (cursor + 2) (cursor + 2 + len.toNat * 8) : Outcome DecodeError Bytes) =
      .ok (rest.take (len.toNat * 8)) := by
    rw [slice_of_le (by omega) (by omega), h2]
    congr 2
    omega
  simp only [if_neg hz, if_neg ht, dif_neg (show ¬ buf.length < cursor + 2 + len.toNat * 8 by omega), hsl,
    Outcome.ok_bind]

/-- The chains the loop accepts, with `seen` the types before them and `i` their number. -/
structure ChainOk (seen : List UInt8) (i : Nat) (chain : List ExtensionHeader) : Prop where
  ne_nil : chain ≠ []
  wf : ∀ e ∈ chain, e.WF
  nodup : (chain.map (·.extType.wire)).Nodup
  fresh : ∀ e ∈ chain, e.extType.wire ∉ seen
  count : i + chain.length ≤ maxExtChain

/-- An accepted chain can be taken apart at its first header. -/
lemma ChainOk.tail {seen : List UInt8} {i : Nat} {e e' : ExtensionHeader} {chain : List ExtensionHeader}
    (ok : ChainOk seen i (e :: e' :: chain)) : ChainOk (seen ++ [e.extType.wire]) (i + 1) (e' :: chain) := by
  obtain ⟨_, wf, nodup, fresh, count⟩ := ok
  rw [List.map_cons, List.nodup_cons] at nodup
  refine ⟨nofun, fun x hx => wf x (List.mem_cons_of_mem _ hx), nodup.2, ?_, ?_⟩
  · intro x hx hm
    rw [List.mem_append, List.mem_singleton] at hm
    cases hm with
    | inl h => exact fresh x (List.mem_cons_of_mem _ hx) h
    | inr h => exact nodup.1 (h ▸ List.mem_map_of_mem hx)
  · simp only [List.length_cons] at count ⊢
    omega

/-- Put a header in front of an accepted chain. -/
lemma ChainOk.cons {seen : List UInt8} {i : Nat} {e : ExtensionHeader} {chain : List ExtensionHeader}
    (ok : ChainOk (seen ++ [e.extType.wire]) (i + 1) chain) (wf : e.WF) (hs : e.extType.wire ∉ seen) :
    ChainOk seen i (e :: chain) := by
  refine ⟨nofun, ?_, ?_, ?_, ?_⟩
  · intro x hx
    cases hx with
    | head => exact wf
    | tail _ hx => exact ok.wf x hx
  · rw [List.map_cons, List.nodup_cons]
    refine ⟨fun hm => ?_, ok.nodup⟩
    obtain ⟨x, hx, e⟩ := List.mem_map.mp hm
    exact ok.fresh x hx (by simp [e])
  · intro x hx
    cases hx with
    | head => exact hs
    | tail _ hx => exact fun hm => ok.fresh x hx (List.mem_append_left _ hm)
  · have h := ok.count
    simp only [List.length_cons]
    omega

/-- A chain of one header. -/
lemma ChainOk.single {seen : List UInt8} {i : Nat} {e : ExtensionHeader} (wf : e.WF)
    (hs : e.extType.wire ∉ seen) (hc : i + 1 ≤ maxExtChain) : ChainOk seen i [e] := by
  refine ⟨nofun, ?_, by simp, ?_, by simpa using hc⟩
  · intro x hx
    rwa [List.mem_singleton.mp hx]
  · intro x hx
    rwa [List.mem_singleton.mp hx]

/-- The loop reads back a chain that stands at the cursor. -/
lemma decodeChain_complete {buf rest : Bytes} {chain : List ExtensionHeader} :
    ∀ {cursor i : Nat} {seen : List UInt8} {exts : List ExtensionHeader}, ChainOk seen i chain →
      buf.drop cursor = chainBytes chain ++ rest →
      decodeChain buf cursor (firstWire chain) i seen exts =
        .ok (cursor + chainSize chain, exts ++ chain) := by
  induction chain with
  | nil => exact fun ok _ => absurd rfl ok.ne_nil
  | cons e chain ih =>
    intro cursor i seen exts ok hd
    have wf := ok.wf e List.mem_cons_self
    have hlen := wf.extLen_toNat
    have hcount := ok.count
    simp only [List.length_cons] at hcount
    simp only [chainBytes, List.cons_append, List.append_assoc] at hd
    have htake : (e.payload ++ (chainBytes chain ++ rest)).take e.payload.length = e.payload :=
      List.take_left
    rw [firstWire, decodeChain_step hd (ok.fresh e List.mem_cons_self), if_neg wf.extLen_ne_zero,
      if_neg (by rw [hlen, List.length_append]; omega), if_neg (by omega), hlen, htake, wf.fromU8_wire]
    cases chain with
    | nil =>
      simp only [firstWire, if_true, chainSize_cons, chainSize_nil, ExtensionHeader.wireSize, Nat.add_assoc,
        Nat.add_zero]
    | cons e' chain =>
      have hne : firstWire (e' :: chain) ≠ 0 := (ok.wf e' (by simp)).wire_ne_zero
      have hd' : buf.drop (cursor + 2 + e.payload.length) = chainBytes (e' :: chain) ++ rest := by
        rw [Nat.add_assoc, ← List.drop_drop, hd, Nat.add_comm 2]
        exact List.drop_left
      rw [if_neg hne, ih ok.tail hd']
      simp only [chainSize_cons, ExtensionHeader.wireSize, List.append_assoc, List.singleton_append,
        Nat.add_assoc]

/-- Whatever the loop returns is a chain that stands at the cursor. -/
lemma decodeChain_sound {buf : Bytes} {r : Nat × List ExtensionHeader} :
    ∀ {cursor i : Nat} {cur : UInt8} {seen : List UInt8} {exts : List ExtensionHeader}, cur ≠ 0 →
      decodeChain buf cursor cur i seen exts = .ok r →
      ∃ chain rest, ChainOk seen i chain ∧ firstWire chain = cur ∧
        buf.drop cursor = chainBytes chain ++ rest ∧ r = (cursor + chainSize chain, exts ++ chain) := by
  intro cursor
  -- every round moves the cursor forward inside the buffer
  induction hn : buf.length - cursor using Nat.strong_induction_on generalizing cursor with
  | _ n ih =>
    intro i cur seen exts hcur h
    by_cases hs : cur ∈ seen
    · rw [decodeChain, if_pos hs] at h
      cases h
    by_cases hb : buf.length < cursor + 2
    · rw [decodeChain, if_neg hs, if_pos hb] at h
      cases h
    obtain ⟨ptr, len, rest, hd⟩ := exists_two_bytes (not_lt.mp hb)
    rw [decodeChain_step hd hs] at h
    split_ifs at h with hz ht hc hp
    -- the header read in this round
    all_goals
      have hl : 0 < len.toNat := Nat.pos_of_ne_zero fun e => hz (UInt8.toNat_inj.mp e)
      have hlt := len.toNat_lt
      have hpl : (rest.take (len.toNat * 8)).length = len.toNat * 8 := by
        rw [List.length_take]; omega
      have wf : (⟨.fromU8 cur, rest.take (len.toNat * 8)⟩ : ExtensionHeader).WF := by
        refine ⟨⟨cur, rfl⟩, by rwa [ExtType.wire_fromU8], ?_, ?_, ?_⟩ <;> simp only [hpl] <;> omega
      have hel : (⟨.fromU8 cur, rest.take (len.toNat * 8)⟩ : ExtensionHeader).extLen = len := by
        have e := wf.extLen_toNat
        simp only [hpl] at e
        exact UInt8.toNat_inj.mp (by omega)
      have hw : (⟨.fromU8 cur, rest.take (len.toNat * 8)⟩ : ExtensionHeader).extType.wire = cur :=
        ExtType.wire_fromU8 cur
    · cases h
      refine ⟨[⟨.fromU8 cur, rest.take (len.toNat * 8)⟩], rest.drop (len.toNat * 8), ?_, hw, ?_, ?_⟩
      · exact .single wf (by rwa [hw]) (by omega)
      · rw [hd, chainBytes, hel, hp]
        simp [firstWire, chainBytes]
      · simp only [chainSize_cons, chainSize_nil, ExtensionHeader.wireSize, hpl, Nat.add_assoc, Nat.add_zero]
    · have hr : rest.length = buf.length - cursor - 2 := by
        have e := congrArg List.length hd
        simp only [List.length_drop, List.length_cons] at e
        omega
      obtain ⟨chain, rest', ok, hf, hd', e⟩ := ih (buf.length - (cursor + 2 + len.toNat * 8)) (by omega) rfl hp h
      refine ⟨⟨.fromU8 cur, rest.take (len.toNat * 8)⟩ :: chain, rest', ?_, hw, ?_, ?_⟩
      · exact ChainOk.cons (by rwa [hw]) wf (by rwa [hw])
      · have hdr : rest.drop (len.toNat * 8) = chainBytes chain ++ rest' := by
          rw [← hd', Nat.add_assoc, ← List.drop_drop, hd, Nat.add_comm 2]
          rfl
        rw [hd, chainBytes, hel, hf, List.cons_append, List.cons_append, List.append_assoc, ← hdr,
          List.take_append_drop]
      · rw [e]
        simp only [chainSize_cons, ExtensionHeader.wireSize, hpl, List.append_assoc, List.singleton_append,
          Nat.add_assoc]

/-- No access of the chain loop is out of range. -/
lemma decodeChain_ne_panic {buf : Bytes} {cursor i : Nat} {cur : UInt8} {seen : List UInt8}
    {exts : List ExtensionHeader} : decodeChain buf cursor cur i seen exts ≠ .panic := by
  induction hn : buf.length - cursor using Nat.strong_induction_on generalizing cursor i cur seen exts with
  | _ n ih =>
    by_cases hs : cur ∈ seen
    · rw [decodeChain, if_pos hs]
      nofun
    by_cases hb : buf.length < cursor + 2
    · rw [decodeChain, if_neg hs, if_pos hb]
      nofun
    obtain ⟨ptr, len, rest, hd⟩ := exists_two_bytes (not_lt.mp hb)
    rw [decodeChain_step hd hs]
    split_ifs
    · nofun
    · nofun
    · nofun
    · nofun
    · exact ih _ (by omega) rfl

/-! ## Whole packets -/

/-- The packets `decode` accepts. -/
structure Decoded.WF (d : Decoded) : Prop where
  version : d.header.version = protoVersion
  compat : d.header.minCompatVer ≤ 15
  payloadLen : d.header.payloadLen ≤ maxPayloadLen
  length : d.payload.length = d.header.payloadLen.toNat
  chain : ∀ e ∈ d.header.extHeaders, e.WF
  nodup : (d.header.extHeaders.map (·.extType.wire)).Nodup
  count : d.header.extHeaders.length ≤ maxExtChain
  next : d.header.nextHeader = firstWire d.header.extHeaders
  flag : d.header.flags &&& flags.hasExtension ≠ 0 ↔ d.header.extHeaders ≠ []
  offset : d.offset = baseHeaderSize + chainSize d.header.extHeaders
  total : d.offset + d.payload.length ≤ maxPacketLen

/-- The number of bytes a decoded packet occupies at the front of the buffer. -/
def Decoded.consumed (d : Decoded) : Nat :=
  baseHeaderSize + chainSize d.header.extHeaders + d.header.payloadLen.toNat

/-- The chain part accepts exactly the chains that stand behind the head. -/
lemma decodeExts_eq_ok {hdr : IPv8Header} {next pad : UInt8} {rest : Bytes}
    {r : Nat × List ExtensionHeader} :
    decodeExts (hdr.headBytes pad ++ rest) next = .ok r ↔
      ∃ chain rest', (∀ e ∈ chain, e.WF) ∧ (chain.map (·.extType.wire)).Nodup ∧
        chain.length ≤ maxExtChain ∧ next = firstWire chain ∧
        rest = chainBytes chain ++ rest' ∧ r = (baseHeaderSize + chainSize chain, chain) := by
  have hdrop : (hdr.headBytes pad ++ rest).drop baseHeaderSize = rest := by
    rw [← hdr.length_headBytes pad]
    exact List.drop_left
  unfold decodeExts
  constructor
  · intro h
    split_ifs at h with hn
    · obtain ⟨chain, rest', ok, hf, hd, e⟩ := decodeChain_sound hn h
      rw [hdrop] at hd
      exact ⟨chain, rest', ok.wf, ok.nodup, by simpa using ok.count, hf.symm, hd, e⟩
    · cases h
      rw [not_not] at hn
      exact ⟨[], rest, by simp, by simp, by simp, hn, rfl, rfl⟩
  · rintro ⟨chain, rest', wf, nodup, count, rfl, rfl, rfl⟩
    cases chain with
    | nil => rfl
    | cons e chain =>
      have ok : ChainOk [] 0 (e :: chain) := ⟨nofun, wf, nodup, by simp, by simpa using count⟩
      rw [if_pos (show firstWire (e :: chain) ≠ 0 from (wf e List.mem_cons_self).wire_ne_zero)]
      exact decodeChain_complete ok hdrop

lemma decodeExts_ne_panic (buf : Bytes) (next : UInt8) : decodeExts buf next ≠ .panic := by
  unfold decodeExts
  split_ifs
  · exact decodeChain_ne_panic
  · nofun

/-- What the last part of `decode` accepts. -/
lemma decodePayload_eq_ok {buf : Bytes} {hdr : IPv8Header} {cursor : Nat}
    {exts : List ExtensionHeader} {d : Decoded} :
    decodePayload buf hdr cursor exts = .ok d ↔
      (hdr.flags &&& flags.hasExtension ≠ 0 ↔ exts ≠ []) ∧
        cursor + hdr.payloadLen.toNat ≤ buf.length ∧
        cursor + hdr.payloadLen.toNat ≤ maxPacketLen ∧
        d = ⟨{ hdr with extHeaders := exts }, (buf.drop cursor).take hdr.payloadLen.toNat, cursor⟩ := by
  have hflag : (hdr.flags &&& flags.hasExtension != 0) ≠ !exts.isEmpty ↔
      ¬ (hdr.flags &&& flags.hasExtension ≠ 0 ↔ exts ≠ []) := by
    cases exts <;> simp
  unfold decodePayload
  split_ifs with h1 h2 h3
  · exact ⟨nofun, fun h => absurd h.1 (hflag.mp h1)⟩
  · exact ⟨nofun, fun h => absurd h.2.1 (by omega)⟩
  · rw [slice_of_le (Nat.le_add_right cursor _) (not_lt.mp h2), Outcome.ok_bind]
    exact ⟨nofun, fun h => absurd h.2.2.1 (by omega)⟩
  · rw [hflag, not_not] at h1
    rw [slice_of_le (Nat.le_add_right cursor _) (not_lt.mp h2), Outcome.ok_bind,
      Nat.add_sub_cancel_left, Outcome.pure_def, Outcome.ok.injEq, eq_comm]
    exact ⟨fun h => ⟨h1, not_lt.mp h2, not_lt.mp h3, h⟩, fun h => h.2.2.2⟩

lemma decodePayload_ne_panic (buf : Bytes) (hdr : IPv8Header) (cursor : Nat)
    (exts : List ExtensionHeader) : decodePayload buf hdr cursor exts ≠ .panic := by
  unfold decodePayload
  split_ifs with h1 h2
  · nofun
  · nofun
  all_goals
    rw [slice_of_le (Nat.le_add_right cursor _) (not_lt.mp h2), Outcome.ok_bind]
    nofun

/-- The fixed part accepts exactly the heads with the right version and a bounded length. -/
lemma decodeHead_eq_ok {buf : Bytes} {hdr : IPv8Header} :
    decodeHead buf = .ok hdr ↔
      hdr.version = protoVersion ∧ hdr.minCompatVer ≤ 15 ∧ hdr.payloadLen ≤ maxPayloadLen ∧
        hdr.extHeaders = [] ∧ ∃ pad rest, buf = hdr.headBytes pad ++ rest := by
  constructor
  · intro h
    by_cases hb : buf.length < baseHeaderSize
    · rw [decodeHead, if_pos hb] at h
      cases h
    obtain ⟨hdr', pad, rest, rfl, hn, hx⟩ := exists_headBytes (not_lt.mp hb)
    rw [decodeHead_headBytes hn] at h
    split_ifs at h with hv hp
    have e : hdr = hdr' := by
      cases h
      rw [← hx]
    subst e
    have hc := UInt8.lt_iff_toNat_lt.mp hn.compat
    exact ⟨not_not.mp hv, UInt8.le_iff_toNat_le.mpr (Nat.le_of_lt_succ hc), UInt16.not_lt.mp hp, hx,
      pad, rest, rfl⟩
  · rintro ⟨hv, hc, hp, hx, pad, rest, rfl⟩
    have hn : hdr.Nibbles := by
      refine ⟨?_, UInt8.lt_of_le_of_lt hc (by decide)⟩
      rw [hv]
      decide
    rw [decodeHead_headBytes hn, if_neg (not_not.mpr hv), if_neg (UInt16.not_lt.mpr hp), ← hx]

lemma decodeHead_ne_panic (buf : Bytes) : decodeHead buf ≠ .panic := by
  by_cases hb : buf.length < baseHeaderSize
  · rw [decodeHead, if_pos hb]
    nofun
  · obtain ⟨hdr, pad, rest, rfl, hn, -⟩ := exists_headBytes (not_lt.mp hb)
    rw [decodeHead_headBytes hn]
    split_ifs <;> nofun

/-- No access of `decode` is out of range. -/
theorem decode_ne_panic (buf : Bytes) : decode buf ≠ .panic := by
  unfold decode
  cases hh : decodeHead buf with
  | err e => nofun
  | panic => exact absurd hh (decodeHead_ne_panic buf)
  | ok hdr =>
    rw [Outcome.ok_bind]
    cases hc : decodeExts buf hdr.nextHeader with
    | err e => nofun
    | panic => exact absurd hc (decodeExts_ne_panic _ _)
    | ok r => exact decodePayload_ne_panic _ _ _ _

/-- Behind head and chain stands the payload. -/
lemma drop_head_chain (hdr : IPv8Header) (pad : UInt8) (chain : List ExtensionHeader) (rest : Bytes) :
    (hdr.headBytes pad ++ (chainBytes chain ++ rest)).drop (baseHeaderSize + chainSize chain) = rest := by
  rw [← hdr.length_headBytes pad, ← length_chainBytes, ← List.drop_drop, List.drop_left, List.drop_left]

/-- `decode` accepts exactly the buffers of the form head ‖ chain ‖ payload ‖ rest. -/
theorem decode_eq_ok {buf : Bytes} {d : Decoded} :
    decode buf = .ok d ↔
      d.WF ∧ ∃ pad rest,
        buf = d.header.headBytes pad ++ (chainBytes d.header.extHeaders ++ (d.payload ++ rest)) := by
  unfold decode
  constructor
  · intro h
    obtain ⟨hdr, hh, h⟩ := Outcome.bind_eq_ok.mp h
    obtain ⟨r, hr, h⟩ := Outcome.bind_eq_ok.mp h
    obtain ⟨hv, hc, hp, -, pad, rest, rfl⟩ := decodeHead_eq_ok.mp hh
    obtain ⟨chain, rest', wf, nodup, count, hnext, rfl, rfl⟩ := decodeExts_eq_ok.mp hr
    obtain ⟨hflag, hlen, htotal, rfl⟩ := decodePayload_eq_ok.mp h
    simp only [List.length_append, IPv8Header.length_headBytes, length_chainBytes] at hlen
    have hpl : (rest'.take hdr.payloadLen.toNat).length = hdr.payloadLen.toNat := by
      rw [List.length_take]
      omega
    rw [drop_head_chain]
    refine ⟨⟨hv, hc, hp, hpl, wf, nodup, count, hnext, hflag, rfl, ?_⟩, pad,
      rest'.drop hdr.payloadLen.toNat, ?_⟩
    · rw [hpl]
      exact htotal
    · rw [List.take_append_drop]
      rfl
  · rintro ⟨wf, pad, rest, rfl⟩
    have htotal := wf.total
    have hoff := wf.offset
    have hpl := wf.length
    rw [hpl] at htotal
    have hh := (@decodeHead_eq_ok _ { d.header with extHeaders := [] }).mpr
      ⟨wf.version, wf.compat, wf.payloadLen, rfl, pad,
        chainBytes d.header.extHeaders ++ (d.payload ++ rest), rfl⟩
    have hr := (@decodeExts_eq_ok d.header _ pad _ _).mpr
      ⟨d.header.extHeaders, d.payload ++ rest, wf.chain, wf.nodup, wf.count, rfl, rfl, rfl⟩
    apply Outcome.bind_eq_ok.mpr ⟨_, hh, ?_⟩
    apply Outcome.bind_eq_ok.mpr ⟨_, by rw [wf.next]; exact hr, ?_⟩
    apply decodePayload_eq_ok.mpr ⟨wf.flag, ?_, by rw [← hoff]; exact htotal, ?_⟩
    · simp only [List.length_append, IPv8Header.length_headBytes, length_chainBytes]
      omega
    · rw [drop_head_chain, ← hpl, List.take_left, ← hoff]

/-- A decoded packet is at least as long as what it consumed. -/
lemma decode_consumed_le {buf : Bytes} {d : Decoded} (h : decode buf = .ok d) :
    d.consumed ≤ buf.length := by
  obtain ⟨wf, pad, rest, rfl⟩ := decode_eq_ok.mp h
  have hl := wf.length
  simp only [Decoded.consumed, List.length_append, IPv8Header.length_headBytes, length_chainBytes]
  omega

end IPv8Plus.Codec
