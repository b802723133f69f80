import IPv8Plus.Codec.RoundTrip
import IPv8Plus.Lib.Reassembly

/-!
# Fragmentation

`FragmentInfo` and `fragment_packet` of `ipv8-codec/src/fragment.rs`. A packet that is longer than the
limit is cut into pieces whose length is a multiple of 8; each piece travels behind a copy of the base
header with a Fragment extension in front, and the first piece alone carries the original chain.
-/

namespace IPv8Plus.Codec
open Lib

/-- Length of the Fragment extension on the wire. -/
def fragExtWire : Nat := 10

/-- The Fragment header: identification, offset in units of 8 bytes, and whether more pieces follow. -/
structure FragmentInfo where
  id : UInt32
  offset : UInt16
  more : Bool
  deriving DecidableEq, Repr

def FragmentInfo.toExt (f : FragmentInfo) : ExtensionHeader :=
  let word := (f.offset &&& 0x1FFF) <<< 3 ||| (if f.more then (1 : UInt16) else 0) <<< 2
  { extType := .fragment, payload := be32 f.id ++ be16 word ++ [0, 0] }

def FragmentInfo.parse (ext : ExtensionHeader) : Option FragmentInfo :=
  if ext.extType ≠ .fragment ∨ ext.payload.length ≠ 8 then none
  else
    let id := ofBe32 (ext.payload.take 4)
    let word := ofBe16 ((ext.payload.drop 4).take 2)
    some { id, offset := (word >>> 3) &&& 0x1FFF, more := word &&& 0x4 != 0 }

inductive FragmentError where
  | notAValidPacket (e : DecodeError)
  | alreadyFragmented
  | lengthMismatch
  | mtuTooSmall (m : Nat)
  deriving DecidableEq, Repr

def decodeErrFromEncode : EncodeError → DecodeError
  | .payloadTooLong n => .payloadTooLong n
  | _ => .tooShort 0

/-- The header of the piece of `take` bytes at `pos`. -/
def fragmentHeader (d : Decoded) (id : UInt32) (offsetUnits : UInt16) (pos take : Nat) : IPv8Header :=
  let more := decide (pos + take < d.payload.length)
  let frag := FragmentInfo.toExt { id, offset := offsetUnits, more }
  let chain := if pos = 0 then frag :: d.header.extHeaders else [frag]
  let hdr : IPv8Header :=
    { version := d.header.version
      minCompatVer := d.header.minCompatVer
      flags := d.header.flags &&& ~~~(flags.hasExtension ||| flags.fragment)
      payloadLen := UInt16.ofNat take
      hopLimit := d.header.hopLimit
      nextHeader := 0
      srcAddr := d.header.srcAddr
      dstAddr := d.header.dstAddr
      extHeaders := [] }
  let hdr := hdr.attachExtHeaders chain
  { hdr with flags := hdr.flags ||| flags.fragment }

/-- The loop of `fragment_packet` from `pos` on. -/
def fragmentLoop (d : Decoded) (id : UInt32) (chunk : Nat) (hc : 8 ≤ chunk) (offsetUnits : UInt16) (pos : Nat) :
    Outcome FragmentError (List Bytes) :=
  if _h : pos < d.payload.length then
    let take := min chunk (d.payload.length - pos)
    do
      let (buf, _) ← (encodeHeader (fragmentHeader d id offsetUnits pos take) []).mapErr
        (.notAValidPacket ∘ decodeErrFromEncode)
      let piece ← slice d.payload pos (pos + take)
      let out ← fragmentLoop d id chunk hc (offsetUnits + UInt16.ofNat (take / 8)) (pos + take)
      return (buf ++ piece) :: out
  else .ok []
termination_by d.payload.length - pos

/-- Cut a packet into fragments of at most `maxLen` bytes. -/
def fragmentPacket (packet : Bytes) (maxLen : Nat) (id : UInt32) : Outcome FragmentError (List Bytes) := do
  let d ← (decode packet).mapErr .notAValidPacket
  if d.header.extHeaders.any (·.extType == .fragment) then
    .err .alreadyFragmented
  else if packet.length ≤ maxLen then
    .ok [packet]
  else if d.payload.length ≠ d.header.payloadLen.toNat then
    .err .lengthMismatch
  else
    let extTotal := chainSize d.header.extHeaders
    let budget := maxLen - (baseHeaderSize + fragExtWire + extTotal)
    -- `budget & !7`
    let chunk := budget / 8 * 8
    if hc : chunk < 8 then
      .err (.mtuTooSmall maxLen)
    else
      fragmentLoop d id chunk (not_lt.mp hc) 0 0

/-! ## The Fragment header -/

lemma FragmentInfo.length_toExt (f : FragmentInfo) : f.toExt.payload.length = 8 := by
  simp [FragmentInfo.toExt]

lemma FragmentInfo.toExt_wf (f : FragmentInfo) : f.toExt.WF := by
  refine ⟨⟨6, rfl⟩, ?_, ?_, ?_, ?_⟩
  · show (6 : UInt8) ≠ 0
    decide
  · rw [f.length_toExt]
  · rw [f.length_toExt]
    exact Nat.succ_pos 7
  · rw [f.length_toExt]
    decide

/-- The two fields of the offset word do not touch each other. -/
lemma offsetWord (o : UInt16) (m : Bool) :
    (((o &&& 0x1FFF) <<< 3 ||| (if m then (1 : UInt16) else 0) <<< 2) >>> 3) &&& 0x1FFF = o &&& 0x1FFF ∧
      (((o &&& 0x1FFF) <<< 3 ||| (if m then (1 : UInt16) else 0) <<< 2) &&& 0x4 != 0) = m := by
  have more_of_offset : (o &&& 0x1FFF) <<< 3 &&& 0x4 = 0 := by
    apply UInt16.toBitVec_inj.mp
    ext i hi
    interval_cases i <;> simp
  have offset_of_offset : ((o &&& 0x1FFF) <<< 3 >>> 3) &&& 0x1FFF = o &&& 0x1FFF := by
    apply UInt16.toBitVec_inj.mp
    ext i hi
    interval_cases i <;> simp
  have offset_of_both : (((o &&& 0x1FFF) <<< 3 ||| 4) >>> 3) &&& 0x1FFF = o &&& 0x1FFF := by
    apply UInt16.toBitVec_inj.mp
    ext i hi
    interval_cases i <;> simp
  cases m with
  | false => simp [more_of_offset, offset_of_offset]
  | true =>
    have more_of_both : ((o &&& 0x1FFF) <<< 3 ||| 4) &&& 0x4 ≠ 0 := read_set_ne_zero (by decide)
    rw [if_pos rfl, show (1 : UInt16) <<< 2 = 4 from rfl]
    exact ⟨offset_of_both, by simp [more_of_both]⟩

/-- A Fragment header whose offset fits is read back. -/
lemma FragmentInfo.parse_toExt {f : FragmentInfo} (h : f.offset &&& 0x1FFF = f.offset) :
    FragmentInfo.parse f.toExt = some f := by
  have htake : (f.toExt.payload).take 4 = be32 f.id := by
    rw [FragmentInfo.toExt, List.append_assoc, ← length_be32 f.id, List.take_left]
  have hdrop : ((f.toExt.payload).drop 4).take 2 =
      be16 ((f.offset &&& 0x1FFF) <<< 3 ||| (if f.more then (1 : UInt16) else 0) <<< 2) := by
    rw [FragmentInfo.toExt, List.append_assoc, ← length_be32 f.id, List.drop_left]
    exact List.take_left' (length_be16 _)
  obtain ⟨ho, hm⟩ := offsetWord f.offset f.more
  have hform : ¬ (f.toExt.extType ≠ .fragment ∨ f.toExt.payload.length ≠ 8) := by
    rw [f.length_toExt]
    exact fun e => e.elim (fun e => e rfl) (fun e => e rfl)
  rw [FragmentInfo.parse, if_neg hform, htake, hdrop, ofBe32_be32, ofBe16_be16]
  simp only [ho, hm]
  rw [h]

/-! ## What `fragment_packet` returns -/

/-- The fragment that carries the piece `b` from `s` on. -/
def fragmentBytes (d : Decoded) (id : UInt32) (s : Nat) (b : Bytes) : Bytes :=
  let hdr := fragmentHeader d id (UInt16.ofNat (s / 8)) s b.length
  hdr.headBytes 0 ++ chainBytes hdr.extHeaders ++ b

/-- The loop returns one fragment for each piece of the payload. -/
lemma fragmentLoop_eq_ok {d : Decoded} {id : UInt32} {chunk : Nat} {hc : 8 ≤ chunk} (h8 : 8 ∣ chunk) :
    ∀ {offsetUnits : UInt16} {pos : Nat} {frags : List Bytes},
      (pos < d.payload.length → offsetUnits = UInt16.ofNat (pos / 8) ∧ 8 ∣ pos) →
      fragmentLoop d id chunk hc offsetUnits pos = .ok frags →
      frags = (cut chunk (by omega) pos (d.payload.drop pos)).map (fun p => fragmentBytes d id p.1 p.2) ∧
        ∀ p ∈ cut chunk (by omega) pos (d.payload.drop pos),
          (fragmentHeader d id (UInt16.ofNat (p.1 / 8)) p.1 p.2.length).Encodable := by
  intro offsetUnits pos
  induction hn : d.payload.length - pos using Nat.strong_induction_on generalizing offsetUnits pos with
  | _ n ih =>
    intro frags hpos h
    rw [fragmentLoop] at h
    split at h
    case isFalse hlt =>
      cases h
      rw [List.drop_eq_nil_of_le (not_lt.mp hlt), cut_nil]
      exact ⟨rfl, fun p hp => by cases hp⟩
    case isTrue hlt =>
      obtain ⟨rfl, hd⟩ := hpos hlt
      obtain ⟨⟨buf, size⟩, henc, h⟩ := Outcome.bind_eq_ok.mp h
      obtain ⟨piece, hpiece, h⟩ := Outcome.bind_eq_ok.mp h
      obtain ⟨out, hout, h⟩ := Outcome.bind_eq_ok.mp h
      cases h
      have hne : d.payload.drop pos ≠ [] := by
        rw [Ne, List.drop_eq_nil_iff]
        omega
      have hpl : ((d.payload.drop pos).take chunk).length = min chunk (d.payload.length - pos) := by
        rw [List.length_take, List.length_drop]
      have hpiece' : piece = (d.payload.drop pos).take chunk := by
        rw [slice_of_le (Nat.le_add_right _ _) (by omega), Nat.add_sub_cancel_left] at hpiece
        cases hpiece
        rw [List.take_eq_take_min (i := chunk), List.length_drop]
      obtain ⟨encodable, hbuf⟩ := encodeHeader_eq_ok.mp (Outcome.mapErr_eq_ok.mp henc)
      cases hbuf
      -- the rest of the payload, seen from the next piece
      have hnext : cut chunk (by omega) (pos + min chunk (d.payload.length - pos))
          (d.payload.drop (pos + min chunk (d.payload.length - pos))) =
          cut chunk (by omega) (pos + chunk) ((d.payload.drop pos).drop chunk) := by
        rw [List.drop_drop]
        obtain hle | hle := Nat.le_total chunk (d.payload.length - pos)
        · rw [Nat.min_eq_left hle]
        · rw [Nat.min_eq_right hle, List.drop_eq_nil_of_le (by omega), List.drop_eq_nil_of_le (by omega),
            cut_nil, cut_nil]
      have hunits : pos + min chunk (d.payload.length - pos) < d.payload.length →
          UInt16.ofNat (pos / 8) + UInt16.ofNat (min chunk (d.payload.length - pos) / 8) =
            UInt16.ofNat ((pos + min chunk (d.payload.length - pos)) / 8) ∧
          8 ∣ pos + min chunk (d.payload.length - pos) := by
        intro hlt'
        have hmin : min chunk (d.payload.length - pos) = chunk := by omega
        have hunits : pos / 8 + chunk / 8 = (pos + chunk) / 8 := by omega
        rw [hmin, ← UInt16.ofNat_add, hunits]
        exact ⟨rfl, Nat.dvd_add hd h8⟩
      obtain ⟨hrest, hall⟩ := ih _ (by omega) rfl hunits hout
      rw [hnext] at hrest hall
      rw [cut_of_ne_nil hne, List.map_cons, ← hpl]
      refine ⟨?_, ?_⟩
      · rw [hrest, fragmentBytes, hpiece', hpl]
        rfl
      · intro p hp
        cases hp with
        | head =>
          rw [hpl]
          exact encodable
        | tail _ hp => exact hall p hp

lemma fragmentLoop_ne_panic (d : Decoded) (id : UInt32) {chunk : Nat} (hc : 8 ≤ chunk) (units : UInt16) (pos : Nat) :
    fragmentLoop d id chunk hc units pos ≠ .panic := by
  induction hn : d.payload.length - pos using Nat.strong_induction_on generalizing units pos with
  | _ n ih =>
    rw [fragmentLoop]
    split
    case isFalse => exact nofun
    case isTrue hlt =>
      dsimp only
      cases hhead : encodeHeader (fragmentHeader d id units pos (min chunk (d.payload.length - pos))) [] with
      | err e => exact nofun
      | panic => exact absurd hhead (encodeHeader_ne_panic _ _)
      | ok buf =>
        have hpiece : (slice d.payload pos (pos + min chunk (d.payload.length - pos)) : Outcome FragmentError Bytes) = _ :=
          slice_of_le (Nat.le_add_right _ _) (by omega)
        have hrest := ih _ (by omega) (units + UInt16.ofNat (min chunk (d.payload.length - pos) / 8))
          (pos + min chunk (d.payload.length - pos)) rfl
        rw [Outcome.mapErr_ok, Outcome.ok_bind, hpiece, Outcome.ok_bind]
        generalize fragmentLoop d id chunk hc _ _ = out at hrest
        cases out with
        | ok out => exact nofun
        | err e => exact nofun
        | panic => exact absurd rfl hrest

/-- A packet is cut at places within it. -/
lemma fragmentPacket_ne_panic (packet : Bytes) (maxLen : Nat) (id : UInt32) : fragmentPacket packet maxLen id ≠ .panic := by
  unfold fragmentPacket
  cases hd : decode packet with
  | err e => exact nofun
  | panic => exact absurd hd (decode_ne_panic packet)
  | ok d =>
    rw [Outcome.mapErr_ok, Outcome.ok_bind]
    dsimp only
    split_ifs
    · exact nofun
    · exact nofun
    · exact nofun
    · exact nofun
    · exact fragmentLoop_ne_panic d id _ 0 0

/-- What `fragment_packet` returns: the packet itself, or its pieces. -/
theorem fragmentPacket_cases {packet : Bytes} {maxLen : Nat} {id : UInt32} {frags : List Bytes} {d : Decoded}
    (hd : decode packet = .ok d) (h : fragmentPacket packet maxLen id = .ok frags) :
    frags = [packet] ∨
      ∃ (chunk : Nat) (hc : 0 < chunk), 8 ∣ chunk ∧
        (∀ e ∈ d.header.extHeaders, e.extType ≠ .fragment) ∧
        baseHeaderSize + fragExtWire + chainSize d.header.extHeaders + chunk ≤ maxLen ∧
        frags = (cut chunk hc 0 d.payload).map (fun p => fragmentBytes d id p.1 p.2) ∧
        ∀ p ∈ cut chunk hc 0 d.payload,
          (fragmentHeader d id (UInt16.ofNat (p.1 / 8)) p.1 p.2.length).Encodable := by
  rw [fragmentPacket, hd, Outcome.mapErr_ok, Outcome.ok_bind] at h
  dsimp only at h
  split_ifs at h with hfrag hshort hpl hc
  · cases h
    exact .inl rfl
  · have h8 : 8 ∣ (maxLen - (baseHeaderSize + fragExtWire + chainSize d.header.extHeaders)) / 8 * 8 :=
      Nat.dvd_mul_left 8 _
    obtain ⟨hfrags, hall⟩ := fragmentLoop_eq_ok h8 (fun _ => ⟨rfl, Nat.dvd_zero 8⟩) h
    refine .inr ⟨_, by omega, h8, ?_, by omega, hfrags, hall⟩
    intro e he hf
    apply hfrag
    rw [List.any_eq_true]
    exact ⟨e, he, by rw [hf]; rfl⟩

/-- A packet that is really cut: the size of the pieces and the fragments. -/
theorem fragmentPacket_eq_ok {packet : Bytes} {maxLen : Nat} {id : UInt32} {frags : List Bytes} {d : Decoded}
    (hd : decode packet = .ok d) (h : fragmentPacket packet maxLen id = .ok frags) (hlen : 1 < frags.length) :
    ∃ (chunk : Nat) (hc : 0 < chunk), 8 ∣ chunk ∧
      (∀ e ∈ d.header.extHeaders, e.extType ≠ .fragment) ∧
      baseHeaderSize + fragExtWire + chainSize d.header.extHeaders + chunk ≤ maxLen ∧
      frags = (cut chunk hc 0 d.payload).map (fun p => fragmentBytes d id p.1 p.2) ∧
      ∀ p ∈ cut chunk hc 0 d.payload,
        (fragmentHeader d id (UInt16.ofNat (p.1 / 8)) p.1 p.2.length).Encodable := by
  cases fragmentPacket_cases hd h with
  | inl hone =>
    rw [hone] at hlen
    exact absurd hlen (lt_irrefl 1)
  | inr hcut => exact hcut

/-! ## What the receiver sees of a fragment -/

/-- The Fragment header of the piece `b` at `s`. -/
def fragmentInfo (d : Decoded) (id : UInt32) (s : Nat) (b : Bytes) : FragmentInfo :=
  { id, offset := UInt16.ofNat (s / 8), more := decide (s + b.length < d.payload.length) }

/-- The fragment that carries the piece `b` from `s` on, decoded. -/
def fragmentDecoded (d : Decoded) (id : UInt32) (s : Nat) (b : Bytes) : Decoded :=
  let hdr := fragmentHeader d id (UInt16.ofNat (s / 8)) s b.length
  { header := hdr, payload := b, offset := baseHeaderSize + chainSize hdr.extHeaders }

section
variable {d : Decoded} {id : UInt32} {s : Nat} {b : Bytes}

lemma extHeaders_fragmentHeader :
    (fragmentHeader d id (UInt16.ofNat (s / 8)) s b.length).extHeaders =
      if s = 0 then (fragmentInfo d id s b).toExt :: d.header.extHeaders else [(fragmentInfo d id s b).toExt] :=
  rfl

/-- The flags of a fragment: both bits are set, the others are those of the packet. -/
lemma flags_fragmentHeader :
    (fragmentHeader d id (UInt16.ofNat (s / 8)) s b.length).flags =
      d.header.flags &&& ~~~(flags.hasExtension ||| flags.fragment) ||| flags.hasExtension ||| flags.fragment := by
  have hne : (if s = 0 then (fragmentInfo d id s b).toExt :: d.header.extHeaders
      else [(fragmentInfo d id s b).toExt]).isEmpty = false := by
    split <;> rfl
  simp only [fragmentHeader, IPv8Header.attachExtHeaders]
  simp only [fragmentInfo] at hne
  rw [hne]
  rfl

/-- A type that is not the Fragment header has another number. -/
lemma wire_ne_fragment {e : ExtensionHeader} (wf : e.WF) (h : e.extType ≠ .fragment) :
    e.extType.wire ≠ ExtType.fragment.wire := by
  intro hw
  apply h
  rw [← wf.fromU8_wire, hw]
  rfl

lemma decode_fragmentBytes (wf : d.WF) (hfree : ∀ e ∈ d.header.extHeaders, e.extType ≠ .fragment)
    (hb : b.length < 2 ^ 16)
    (henc : (fragmentHeader d id (UInt16.ofNat (s / 8)) s b.length).Encodable) :
    decode (fragmentBytes d id s b) = .ok (fragmentDecoded d id s b) := by
  have hl : b.length = (fragmentHeader d id (UInt16.ofNat (s / 8)) s b.length).payloadLen.toNat :=
    (UInt16.toNat_ofNat_of_lt' hb).symm
  have hencode := encode_eq_ok.mpr ⟨henc, hl, rfl⟩
  have hext := @extHeaders_fragmentHeader d id s b
  have hwf : ∀ e ∈ (fragmentHeader d id (UInt16.ofNat (s / 8)) s b.length).extHeaders, e.WF := by
    rw [hext]
    intro e he
    split at he
    · cases he with
      | head => exact FragmentInfo.toExt_wf _
      | tail _ he => exact wf.chain e he
    · rw [List.mem_singleton.mp he]
      exact FragmentInfo.toExt_wf _
  have hnodup : ((fragmentHeader d id (UInt16.ofNat (s / 8)) s b.length).extHeaders.map
      (·.extType.wire)).Nodup := by
    rw [hext]
    split
    · rw [List.map_cons, List.nodup_cons]
      refine ⟨fun hm => ?_, wf.nodup⟩
      obtain ⟨e, he, hw⟩ := List.mem_map.mp hm
      exact wire_ne_fragment (wf.chain e he) (hfree e he) hw
    · exact List.nodup_singleton _
  have h := decode_encode hencode hwf hnodup []
  rw [List.append_nil] at h
  exact h

/-- No fragment is longer than what was budgeted for it. -/
lemma length_fragmentBytes_le {chunk maxLen : Nat} (hb : b.length ≤ chunk)
    (hmax : baseHeaderSize + fragExtWire + chainSize d.header.extHeaders + chunk ≤ maxLen) :
    (fragmentBytes d id s b).length ≤ maxLen := by
  have hfrag : (fragmentInfo d id s b).toExt.wireSize = fragExtWire := by
    rw [ExtensionHeader.wireSize, FragmentInfo.length_toExt, fragExtWire]
  have hchain : chainSize (fragmentHeader d id (UInt16.ofNat (s / 8)) s b.length).extHeaders ≤
      fragExtWire + chainSize d.header.extHeaders := by
    rw [extHeaders_fragmentHeader]
    split
    · rw [chainSize_cons, hfrag]
    · rw [chainSize_cons, hfrag, chainSize_nil]
      omega
  simp only [fragmentBytes, List.length_append, IPv8Header.length_headBytes, length_chainBytes]
  omega

end

end IPv8Plus.Codec
