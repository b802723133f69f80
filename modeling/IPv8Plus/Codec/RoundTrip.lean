import IPv8Plus.Codec.Decode

/-!
# Round trips of the codec

`encode` and `decode` enforce different rules on a chain: the decoder takes a repeated type for a cycle of
the type pointers, the encoder does not look at the types at all. Apart from that the two are inverse to
each other, up to the bits the decoder ignores: the reserved flag bits and the padding byte 39.
-/

namespace IPv8Plus.Codec
open Lib

/-- A header as callers build it: `new`, then the fields the caller sets, then the chain. -/
def IPv8Header.build (srcAddr dstAddr : IPv8Address) (payloadLen flags : UInt16) (hopLimit minCompatVer : UInt8)
    (chain : List ExtensionHeader) : IPv8Header :=
  { IPv8Header.new srcAddr dstAddr payloadLen with flags, hopLimit, minCompatVer }.attachExtHeaders chain

/-- The chains of headers that `ExtensionHeader::new` built with a type of `ExtType::from_u8`. -/
def Constructed (chain : List ExtensionHeader) : Prop :=
  ∀ e ∈ chain, ∃ v payload, ExtensionHeader.new (ExtType.fromU8 v) payload = some e

lemma Constructed.wf {chain : List ExtensionHeader} (hc : Constructed chain) : ∀ e ∈ chain, e.WF := by
  intro e he
  obtain ⟨v, payload, h⟩ := hc e he
  exact ExtensionHeader.new_wf h

/-- An encoded packet decodes to what was encoded, if no type occurs twice in its chain. -/
lemma decode_encode {hdr : IPv8Header} {payload bytes : Bytes} (h : encode hdr payload = .ok bytes)
    (wf : ∀ e ∈ hdr.extHeaders, e.WF) (nodup : (hdr.extHeaders.map (·.extType.wire)).Nodup) (rest : Bytes) :
    decode (bytes ++ rest) = .ok ⟨hdr, payload, baseHeaderSize + chainSize hdr.extHeaders⟩ := by
  obtain ⟨enc, hl, rfl⟩ := encode_eq_ok.mp h
  apply decode_eq_ok.mpr
  refine ⟨⟨enc.version, enc.compat, enc.payload, hl, wf, nodup, enc.chain, enc.next, enc.flag, rfl, ?_⟩, ?_⟩
  · rw [hl]
    exact enc.total
  · exact ⟨0, rest, by simp only [List.append_assoc]⟩

/-- A header that was built and then encoded is decoded again exactly when its types are distinct. -/
theorem decode_encode_iff_nodup {srcAddr dstAddr : IPv8Address} {payloadLen flags : UInt16}
    {hopLimit minCompatVer : UInt8} {chain : List ExtensionHeader} {payload bytes : Bytes}
    (hc : Constructed chain)
    (h : encode (.build srcAddr dstAddr payloadLen flags hopLimit minCompatVer chain) payload = .ok bytes) :
    (∃ offset, decode bytes =
      .ok ⟨.build srcAddr dstAddr payloadLen flags hopLimit minCompatVer chain, payload, offset⟩) ↔
      (chain.map (·.extType.wire)).Nodup := by
  constructor
  · intro ⟨offset, hd⟩
    obtain ⟨wf, -⟩ := decode_eq_ok.mp hd
    exact wf.nodup
  · intro nodup
    have hd := decode_encode h hc.wf nodup []
    rw [List.append_nil] at hd
    exact ⟨_, hd⟩

/-- Two identity tokens in one chain: the packet is encoded and not decoded. -/
theorem decode_encode_repeated_type :
    ¬ ∀ (srcAddr dstAddr : IPv8Address) (payloadLen flags : UInt16) (hopLimit minCompatVer : UInt8)
        (chain : List ExtensionHeader) (payload bytes : Bytes), Constructed chain →
        encode (.build srcAddr dstAddr payloadLen flags hopLimit minCompatVer chain) payload = .ok bytes →
        ∃ offset, decode bytes =
          .ok ⟨.build srcAddr dstAddr payloadLen flags hopLimit minCompatVer chain, payload, offset⟩ := by
  intro h
  let a : IPv8Address := ⟨0xFB14, 0, 0, 0, 0, 0, 0, 0⟩
  let token : ExtensionHeader := ⟨.identityToken, List.replicate 8 0⟩
  let hdr := IPv8Header.build a a 0 0 64 0 [token, token]
  have hc : Constructed [token, token] := by
    intro e he
    have e' : e = token := by simpa using he
    exact ⟨1, List.replicate 8 0, by rw [e']; decide⟩
  have henc : encode hdr [] = .ok (hdr.headBytes 0 ++ chainBytes [token, token] ++ []) := by decide
  obtain ⟨offset, hd⟩ := h _ _ _ _ _ _ _ _ _ hc henc
  obtain ⟨wf, -⟩ := decode_eq_ok.mp hd
  have dup : ¬ ([token, token].map (·.extType.wire)).Nodup := by decide
  exact dup wf.nodup

/-- The round trip of a header with one token and a payload of two bytes. -/
theorem decode_encode_iff_nodup_token :
    ∃ bytes offset, decode bytes =
      .ok ⟨.build ⟨0xFB14, 0, 0, 0, 0, 0, 0, 0⟩ ⟨0xFB14, 0, 0, 0, 0, 0, 0, 1⟩ 2 0x10 64 0
        [⟨.identityToken, List.replicate 8 0⟩], [7, 9], offset⟩ := by
  let hdr := IPv8Header.build ⟨0xFB14, 0, 0, 0, 0, 0, 0, 0⟩ ⟨0xFB14, 0, 0, 0, 0, 0, 0, 1⟩ 2 0x10 64 0
    [⟨.identityToken, List.replicate 8 0⟩]
  have hc : Constructed [⟨.identityToken, List.replicate 8 0⟩] := by
    intro e he
    exact ⟨1, List.replicate 8 0, by rw [List.mem_singleton.mp he]; decide⟩
  have henc : encode hdr [7, 9] = .ok (hdr.headBytes 0 ++ chainBytes hdr.extHeaders ++ [7, 9]) := by decide
  exact ⟨_, (decode_encode_iff_nodup hc henc).mpr (by decide)⟩

/-- The flag word of a decoded header stands in bytes 1 and 2. -/
lemma readU16_headBytes {ε : Type} (hdr : IPv8Header) (pad : UInt8) (rest : Bytes) :
    (readU16 (hdr.headBytes pad ++ rest) 1 : Outcome ε UInt16) = .ok hdr.flags := by
  have e : (readU16 (hdr.headBytes pad ++ rest) 1 : Outcome ε UInt16) = .ok (ofBe16 (be16 hdr.flags)) := rfl
  rw [e, ofBe16_be16]

/-- Well-formed chains are told apart by their bytes, whatever follows them. -/
lemma chainBytes_inj {c c' : List ExtensionHeader} {rest rest' : Bytes} (wf : ∀ e ∈ c, e.WF)
    (wf' : ∀ e ∈ c', e.WF) (hfirst : firstWire c = firstWire c')
    (h : chainBytes c ++ rest = chainBytes c' ++ rest') : c = c' := by
  induction c generalizing c' with
  | nil =>
    cases c' with
    | nil => rfl
    | cons e' c' => exact absurd hfirst.symm (wf' e' List.mem_cons_self).wire_ne_zero
  | cons e c ih =>
    cases c' with
    | nil => exact absurd hfirst (wf e List.mem_cons_self).wire_ne_zero
    | cons e' c' =>
      have we := wf e List.mem_cons_self
      have we' := wf' e' List.mem_cons_self
      simp only [chainBytes, List.cons_append, List.append_assoc, List.cons.injEq] at h
      obtain ⟨hnext, hlen, hbody⟩ := h
      have hpl : e.payload.length = e'.payload.length := by
        rw [← we.extLen_toNat, ← we'.extLen_toNat, hlen]
      obtain ⟨hpay, hrest⟩ := List.append_inj hbody hpl
      have htype : e.extType = e'.extType := by
        rw [← we.fromU8_wire, ← we'.fromU8_wire]
        exact congrArg ExtType.fromU8 hfirst
      have hhead : e = e' := by
        cases e
        cases e'
        cases htype
        cases hpay
        rfl
      have htail := ih (fun x hx => wf x (List.mem_cons_of_mem _ hx))
        (fun x hx => wf' x (List.mem_cons_of_mem _ hx)) hnext hrest
      rw [hhead, htail]

/-- A decoded packet is encoded again, with a padding byte of zero. -/
lemma encode_decoded {d : Decoded} (wf : d.WF) (hr : Flags.reservedOk d.header.flags = true) :
    encode d.header d.payload =
      .ok (d.header.headBytes 0 ++ chainBytes d.header.extHeaders ++ d.payload) := by
  apply encode_eq_ok.mpr
  have htotal := wf.total
  rw [wf.offset, wf.length] at htotal
  exact ⟨⟨wf.version, wf.compat, hr, wf.payloadLen, wf.count, htotal, wf.next, wf.flag⟩, wf.length, rfl⟩

/-- `decode` reads inside its input, accepts bounded packets only, and `encode` restores the prefix that was
consumed when the bits `decode` ignores are zero. -/
theorem decode_total_encode_decode (buf : Bytes) :
    decode buf ≠ .panic ∧
      ∀ d, decode buf = .ok d →
        d.consumed ≤ maxPacketLen ∧ d.consumed ≤ buf.length ∧
        d.header.extHeaders.length ≤ maxExtChain ∧
        (d.header.extHeaders.map (·.extType.wire)).Nodup ∧
        (∀ e ∈ d.header.extHeaders, e.payload.length ≠ 0 ∧ e.payload.length % 8 = 0) ∧
        (d.header.flags &&& flags.hasExtension ≠ 0 ↔ d.header.extHeaders ≠ []) ∧
        (∀ w, readU16 buf 1 = (.ok w : Outcome DecodeError UInt16) → Flags.reservedOk w = true →
          buf[39]? = some 0 →
          encode d.header d.payload = .ok (buf.take d.consumed)) := by
  refine ⟨decode_ne_panic buf, ?_⟩
  intro d h
  obtain ⟨wf, pad, rest, rfl⟩ := decode_eq_ok.mp h
  refine ⟨?_, decode_consumed_le h, wf.count, wf.nodup, ?_, wf.flag, ?_⟩
  · have htotal := wf.total
    rw [wf.offset, wf.length] at htotal
    exact htotal
  · intro e he
    have hpos := (wf.chain e he).nonempty
    exact ⟨by omega, (wf.chain e he).aligned⟩
  · intro w hw hr hpad
    rw [readU16_headBytes] at hw
    cases hw
    -- byte 39 is the padding byte of the head
    have hp : pad = 0 := by
      have e : (d.header.headBytes pad ++ (chainBytes d.header.extHeaders ++ (d.payload ++ rest)))[39]?
          = some pad := rfl
      rw [e] at hpad
      exact Option.some.inj hpad
    subst hp
    have hlen : d.consumed =
        (d.header.headBytes 0 ++ chainBytes d.header.extHeaders ++ d.payload).length := by
      simp only [Decoded.consumed, List.length_append, IPv8Header.length_headBytes, length_chainBytes,
        wf.length]
    rw [encode_decoded wf hr, hlen]
    simp only [← List.append_assoc]
    rw [List.take_left]

/-- A packet with a token and two bytes behind its payload: the prefix is restored. -/
theorem decode_total_encode_decode_token :
    ∃ buf d, decode buf = .ok d ∧ buf.length = d.consumed + 2 ∧
      encode d.header d.payload = .ok (buf.take d.consumed) := by
  let hdr := IPv8Header.build ⟨0xFB14, 0, 0, 0, 0, 0, 0, 0⟩ ⟨0xFB14, 0, 0, 0, 0, 0, 0, 1⟩ 2 0x10 64 0
    [⟨.identityToken, List.replicate 8 0⟩]
  let buf := hdr.headBytes 0 ++ chainBytes hdr.extHeaders ++ [7, 9] ++ [1, 1]
  have hd : decode buf = .ok ⟨hdr, [7, 9], 50⟩ := by decide +kernel
  obtain ⟨-, -, -, -, -, -, henc⟩ := (decode_total_encode_decode buf).2 _ hd
  exact ⟨buf, _, hd, by decide, henc (hdr.flags) (by decide) (by decide) (by decide)⟩

end IPv8Plus.Codec
