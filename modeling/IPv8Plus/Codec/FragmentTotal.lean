import IPv8Plus.Codec.FragmentRoundTrip

/-!
# When a decodable packet can be cut

`decode` is laxer than `encode_header`: it ignores the reserved flags and what stands behind the payload, and it accepts
chains of 64 entries, to which a fragment adds one. So `fragment_packet` can fail on a packet that was decoded, and a long
packet without payload is cut into no pieces at all. The condition under which the pieces are complete is exact.
-/

namespace IPv8Plus.Codec
open Lib

/-- The packet is cut into at least one fragment, and the payloads of the decoded fragments are its payload. In
particular no header is refused by the encoder. -/
def CutsWhole (packet : Bytes) (d : Decoded) (maxLen : Nat) (id : UInt32) : Prop :=
  ∃ frags, fragmentPacket packet maxLen id = .ok frags ∧ frags ≠ [] ∧
    ∃ ds : List Decoded, frags.map decode = ds.map .ok ∧ (ds.map (·.payload)).flatten = d.payload

/-- The room for payload in a fragment. -/
def pieceSize (d : Decoded) (maxLen : Nat) : Nat :=
  (maxLen - (baseHeaderSize + fragExtWire + chainSize d.header.extHeaders)) / 8 * 8

/-- What the header of the first fragment needs, and a payload to put behind it. -/
structure Cuttable (d : Decoded) (maxLen : Nat) : Prop where
  payload : d.payload ≠ []
  reserved : Flags.reservedOk d.header.flags = true
  count : d.header.extHeaders.length < maxExtChain
  total : baseHeaderSize + fragExtWire + chainSize d.header.extHeaders + min (pieceSize d maxLen) d.payload.length ≤
    maxPacketLen

section
variable {d : Decoded} {id : UInt32} {units : UInt16} {maxLen pos take : Nat}

/-- The reserved flags of a fragment are those of the packet. -/
lemma reservedOk_fragmentHeader :
    Flags.reservedOk (fragmentHeader d id units pos take).flags = Flags.reservedOk d.header.flags := by
  have hset (f : UInt16) : (f ||| flags.fragment) &&& flags.reservedMask = f &&& flags.reservedMask :=
    read_set_of_disjoint (by decide)
  have hclear : d.header.flags &&& ~~~(flags.hasExtension ||| flags.fragment) &&& flags.reservedMask =
      d.header.flags &&& flags.reservedMask := read_clear_of_disjoint (by decide)
  refine (congrArg (· == 0) (hset _)).trans ?_
  refine (reservedOk_attachExtHeaders _ _).trans ?_
  exact congrArg (· == 0) hclear

lemma chainSize_fragmentHeader : chainSize (fragmentHeader d id units pos take).extHeaders =
    fragExtWire + if pos = 0 then chainSize d.header.extHeaders else 0 := by
  have hfrag (f : FragmentInfo) : f.toExt.wireSize = fragExtWire := by
    rw [ExtensionHeader.wireSize, FragmentInfo.length_toExt, fragExtWire]
  show chainSize (if pos = 0 then _ else _) = _
  split
  · rw [chainSize_cons, hfrag]
  · rw [chainSize_cons, hfrag, chainSize_nil]

/-- The header of a piece can be encoded exactly if these three of its fields can. -/
lemma fragmentHeader_encodable_iff (wf : d.WF) (htake : take ≤ d.payload.length) :
    (fragmentHeader d id units pos take).Encodable ↔
      Flags.reservedOk d.header.flags = true ∧ (pos = 0 → d.header.extHeaders.length < maxExtChain) ∧
        baseHeaderSize + (fragExtWire + if pos = 0 then chainSize d.header.extHeaders else 0) + take ≤ maxPacketLen := by
  have hmax := htake.trans (length_le_maxGroupBytes wf)
  have hlen : (fragmentHeader d id units pos take).payloadLen.toNat = take :=
    UInt16.toNat_ofNat_of_lt' (hmax.trans_lt (by decide))
  have hcount : (fragmentHeader d id units pos take).extHeaders.length ≤ maxExtChain ↔
      (pos = 0 → d.header.extHeaders.length < maxExtChain) := by
    show List.length (if pos = 0 then _ else _) ≤ _ ↔ _
    split
    · next h => exact ⟨fun hle _ => hle, fun hlt => hlt h⟩
    · next h => exact iff_of_true (Nat.succ_le_of_lt (by decide : 0 < maxExtChain)) fun h' => absurd h' h
  constructor
  · intro h
    have htotal := h.total
    rw [chainSize_fragmentHeader, hlen] at htotal
    exact ⟨reservedOk_fragmentHeader ▸ h.reserved, hcount.mp h.chain, htotal⟩
  · rintro ⟨hreserved, hchain, htotal⟩
    refine ⟨wf.version, wf.compat, reservedOk_fragmentHeader.trans hreserved, ?_, hcount.mpr hchain, ?_, rfl, ?_⟩
    · rw [UInt16.le_iff_toNat_le, hlen]
      exact hmax
    · rw [chainSize_fragmentHeader, hlen]
      exact htotal
    · have hset (f : UInt16) : (f ||| flags.fragment) &&& flags.hasExtension = f &&& flags.hasExtension :=
        read_set_of_disjoint (by decide)
      unfold fragmentHeader
      dsimp only
      rw [hset]
      exact IPv8Header.attachExtHeaders_flag _ _

/-- What the first fragment needs is enough for all of them. -/
lemma Cuttable.encodable (h : Cuttable d maxLen) (wf : d.WF) (htake : take ≤ min (pieceSize d maxLen) d.payload.length) :
    (fragmentHeader d id units pos take).Encodable := by
  have htotal := h.total
  refine (fragmentHeader_encodable_iff wf (htake.trans (Nat.min_le_right _ _))).mpr ⟨h.reserved, fun _ => h.count, ?_⟩
  split
  · omega
  · omega

/-- The loop ends with a list of fragments if every header can be encoded. -/
lemma fragmentLoop_total {chunk : Nat} (hc : 8 ≤ chunk)
    (henc : ∀ units pos take, take ≤ min chunk d.payload.length → (fragmentHeader d id units pos take).Encodable) :
    ∃ frags, fragmentLoop d id chunk hc units pos = .ok frags := by
  induction hn : d.payload.length - pos using Nat.strong_induction_on generalizing units pos with
  | _ n ih =>
    rw [fragmentLoop]
    split
    case isFalse => exact ⟨[], rfl⟩
    case isTrue hlt =>
      have hbuf := (@encodeHeader_eq_ok _ [] _).mpr
        ⟨henc units pos (min chunk (d.payload.length - pos)) (by omega), rfl⟩
      have hpiece : (slice d.payload pos (pos + min chunk (d.payload.length - pos)) : Outcome FragmentError Bytes) = _ :=
        slice_of_le (Nat.le_add_right _ _) (by omega)
      obtain ⟨rest, hrest⟩ := @ih _ (by omega) (units + UInt16.ofNat (min chunk (d.payload.length - pos) / 8))
        (pos + min chunk (d.payload.length - pos)) rfl
      dsimp only
      rw [hbuf, Outcome.mapErr_ok, Outcome.ok_bind, hpiece, Outcome.ok_bind, hrest, Outcome.ok_bind]
      exact ⟨_, rfl⟩

/-- The pieces of a tiling spell the string. -/
lemma flatten_tile {α : Type} {pos : Nat} {data : List α} {pieces : List (Nat × List α)} (h : Tile pos data pieces) :
    (pieces.map (·.2)).flatten = data := by
  induction pieces generalizing pos data with
  | nil => exact h.symm
  | cons p pieces ih =>
    obtain ⟨-, -, data', rfl, htile⟩ := h
    rw [List.map_cons, List.flatten_cons, ih htile]

/-- A packet that is cut goes through the loop. -/
lemma fragmentPacket_long {packet : Bytes} (hd : decode packet = .ok d)
    (hfree : ∀ e ∈ d.header.extHeaders, e.extType ≠ .fragment) (hlong : ¬ packet.length ≤ maxLen)
    (hroom : 8 ≤ pieceSize d maxLen) :
    fragmentPacket packet maxLen id = fragmentLoop d id (pieceSize d maxLen) hroom 0 0 := by
  obtain ⟨wf, -⟩ := decode_eq_ok.mp hd
  have hany : ¬ d.header.extHeaders.any (·.extType == .fragment) = true := by
    intro h
    obtain ⟨e, he, hf⟩ := List.any_eq_true.mp h
    exact hfree e he (beq_iff_eq.mp hf)
  unfold fragmentPacket
  rw [hd, Outcome.mapErr_ok, Outcome.ok_bind]
  dsimp only
  rw [if_neg hany, if_neg hlong, if_neg (not_not.mpr wf.length)]
  exact dif_neg (Nat.not_lt.mpr hroom)

/-- Fragmentation is total and lossless exactly if the packet fits already, or its first fragment can be encoded and there
is a payload. -/
theorem cutsWhole_iff (packet : Bytes) (d : Decoded) (maxLen : Nat) (id : UInt32) (hd : decode packet = .ok d)
    (hfree : ∀ e ∈ d.header.extHeaders, e.extType ≠ .fragment)
    (hbudget : 8 ≤ maxLen - (baseHeaderSize + fragExtWire + chainSize d.header.extHeaders)) :
    CutsWhole packet d maxLen id ↔ packet.length ≤ maxLen ∨ Cuttable d maxLen := by
  obtain ⟨wf, -⟩ := decode_eq_ok.mp hd
  have hroom : 8 ≤ pieceSize d maxLen := by
    unfold pieceSize
    omega
  have h8 : 8 ∣ pieceSize d maxLen := Nat.dvd_mul_left 8 _
  by_cases hshort : packet.length ≤ maxLen
  · refine iff_of_true ⟨[packet], ?_, List.cons_ne_nil _ _, [d], ?_, List.append_nil _⟩ (.inl hshort)
    · have hany : ¬ d.header.extHeaders.any (·.extType == .fragment) = true := by
        intro h
        obtain ⟨e, he, hf⟩ := List.any_eq_true.mp h
        exact hfree e he (beq_iff_eq.mp hf)
      unfold fragmentPacket
      rw [hd, Outcome.mapErr_ok, Outcome.ok_bind]
      exact (if_neg hany).trans (if_pos hshort)
    · rw [List.map_singleton, List.map_singleton, hd]
  · rw [or_iff_right hshort]
    unfold CutsWhole
    rw [fragmentPacket_long hd hfree hshort hroom]
    constructor
    · rintro ⟨frags, hfrags, hne, -⟩
      obtain ⟨hcut, henc⟩ := fragmentLoop_eq_ok h8 (fun _ => ⟨rfl, Nat.dvd_zero 8⟩) hfrags
      have hpayload : d.payload ≠ [] := by
        intro e
        rw [e, List.drop_nil, cut_nil] at hcut
        exact hne hcut
      have hfirst := henc (0, d.payload.take (pieceSize d maxLen)) (mem_cut_zero.mpr (zero_mem_tiles hpayload))
      obtain ⟨hreserved, hcount, htotal⟩ := (fragmentHeader_encodable_iff wf (List.length_take_le' _ _)).mp hfirst
      rw [if_pos rfl, List.length_take] at htotal
      exact ⟨hpayload, hreserved, hcount rfl, by omega⟩
    · intro h
      have hloop : ∃ frags, fragmentLoop d id (pieceSize d maxLen) hroom 0 0 = .ok frags :=
        fragmentLoop_total hroom fun units pos take htake => h.encodable wf htake
      obtain ⟨frags, hfrags⟩ := hloop
      obtain ⟨hcut, henc⟩ := fragmentLoop_eq_ok h8 (fun _ => ⟨rfl, Nat.dvd_zero 8⟩) hfrags
      rw [List.drop_zero] at hcut henc
      refine ⟨frags, hfrags, ?_, (cut (pieceSize d maxLen) (by omega) 0 d.payload).map
        fun q => fragmentDecoded d id q.1 q.2, ?_, ?_⟩
      · rw [hcut, cut_of_ne_nil h.payload]
        exact List.cons_ne_nil _ _
      · rw [hcut, List.map_map, List.map_map]
        refine List.map_congr_left fun q hq => ?_
        have hlen := tiles_length (mem_cut_zero.mp hq)
        have hmax := length_le_maxGroupBytes wf
        have hword : maxGroupBytes < 2 ^ 16 := by decide
        exact decode_fragmentBytes wf hfree (by omega) (henc q hq)
      · rw [List.map_map]
        exact flatten_tile (tile_cut 0)

end

/-- A packet without extensions. -/
def plainPacket (flags : UInt16) (len : Nat) : Decoded where
  header := .build ⟨0xFB14, 0, 0, 0, 0, 0, 0, 0⟩ ⟨0xFB14, 0, 0, 0, 0, 0, 0, 1⟩ (UInt16.ofNat len) flags 64 0 []
  payload := List.replicate len 0
  offset := 40

theorem cutsWhole_iff_plain :
    CutsWhole ((plainPacket 0 24).header.headBytes 0 ++ (plainPacket 0 24).payload) (plainPacket 0 24) 58 7 ↔
      ((plainPacket 0 24).header.headBytes 0 ++ (plainPacket 0 24).payload).length ≤ 58 ∨ Cuttable (plainPacket 0 24) 58 :=
  cutsWhole_iff ((plainPacket 0 24).header.headBytes 0 ++ (plainPacket 0 24).payload) (plainPacket 0 24) 58 7
    (by decide +kernel) nofun (by decide +kernel)

/-- Two packets that are accepted and not cut: a reserved flag reaches the encoder, and twenty bytes behind an empty
payload make a packet long that has nothing to cut. -/
theorem fragmentPacket_not_total :
    let flagged := (plainPacket 0x80 24).header.headBytes 0 ++ (plainPacket 0x80 24).payload
    let empty := (plainPacket 0 0).header.headBytes 0 ++ List.replicate 20 0
    (decode flagged = .ok (plainPacket 0x80 24) ∧ decode empty = .ok (plainPacket 0 0) ∧ 8 ≤ 58 - (baseHeaderSize + fragExtWire)) ∧
    fragmentPacket flagged 58 7 = .err (.notAValidPacket (decodeErrFromEncode .reservedBits)) ∧
      fragmentPacket empty 58 7 = .ok [] := by
  decide +kernel

end IPv8Plus.Codec
