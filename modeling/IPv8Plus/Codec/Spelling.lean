import IPv8Plus.Codec.FragmentRoundTrip
import IPv8Plus.Codec.Rebuilt

/-!
# Pieces of one payload

A reassembler tells groups apart by addresses and identification only. A group that takes in nothing but pieces of
one payload, of any cut and any number of times, rebuilds this payload (`Finishes.payload`).
-/

namespace IPv8Plus.Codec
open Lib

/-- The group holds nothing but pieces of the string. -/
structure Group.Spells (g : Group) (data : Bytes) : Prop where
  pieces : Lib.Spells data g.chunks g.pos g.payload
  total : ∀ t, g.total = some t → t = data.length

/-- The piece of a fragment stands in the string at its place, and a last piece ends where the string ends. -/
def FragmentInfo.Spells (frag : FragmentInfo) (piece data : Bytes) : Prop :=
  piece <+: data.drop frag.start ∧ (frag.more = false → frag.start + piece.length = data.length)

instance FragmentInfo.Spells.decidable (frag : FragmentInfo) (piece data : Bytes) :
    Decidable (frag.Spells piece data) := inferInstanceAs (Decidable (_ ∧ _))

/-- The packet carries the string as its payload, or is a fragment with a piece of it. -/
@[irreducible] def PartOf (data packet : Bytes) : Prop :=
  match decode packet with
  | .ok d =>
    match checkFragment d.header d.payload with
    | .ok frag => frag.Spells d.payload data
    | .error _ => d.header.flags &&& flags.fragment = 0 ∧ d.payload = data
  | .err _ => False
  | .panic => False

instance PartOf.decidable (data packet : Bytes) : Decidable (PartOf data packet) := by
  unfold PartOf
  split
  · split
    · infer_instance
    · infer_instance
  · infer_instance
  · infer_instance

section
variable {d : Decoded} {frag : FragmentInfo} {data packet : Bytes}

lemma PartOf.spells (h : PartOf data packet) (hd : decode packet = .ok d)
    (hc : checkFragment d.header d.payload = .ok frag) : frag.Spells d.payload data := by
  unfold PartOf at h
  rw [hd] at h
  dsimp only at h
  rw [hc] at h
  exact h

/-- A packet without the FRAGMENT bit carries all of it. -/
lemma PartOf.whole (h : PartOf data packet) (hd : decode packet = .ok d) (hflag : d.header.flags &&& flags.fragment = 0) :
    d.payload = data := by
  unfold PartOf at h
  rw [hd] at h
  dsimp only at h
  cases hc : checkFragment d.header d.payload with
  | error e =>
    rw [hc] at h
    exact h.2
  | ok frag =>
    unfold checkFragment at hc
    rw [hflag] at hc
    split at hc
    · cases hc
    · cases hc

end

/-! ## The packets that carry a payload -/

section
variable {d : Decoded} {id : UInt32} {n s : Nat} {b : Bytes}

lemma fragmentInfo_spells (wf : d.WF) (h8 : 8 ∣ n) (h : (s, b) ∈ tiles n d.payload) :
    (fragmentInfo d id s b).Spells b d.payload := by
  have hlen : b.length = min n (d.payload.length - s) := tiles_length h
  have hlt : s < d.payload.length := h.2.1
  unfold FragmentInfo.Spells
  rw [start_fragmentInfo wf h8 h]
  refine ⟨?_, fun hm => ?_⟩
  · have hpiece : b = (d.payload.drop s).take n := h.2.2
    rw [hpiece]
    exact List.take_prefix _ _
  · have hm : ¬ s + b.length < d.payload.length := of_decide_eq_false hm
    omega

/-- A fragment carries a piece of the payload. -/
lemma fragmentBytes_partOf (wf : d.WF) (hfree : ∀ e ∈ d.header.extHeaders, e.extType ≠ .fragment) (h8 : 8 ∣ n)
    (h : (s, b) ∈ tiles n d.payload) (henc : (fragmentHeader d id (UInt16.ofNat (s / 8)) s b.length).Encodable) :
    PartOf d.payload (fragmentBytes d id s b) := by
  have hb : b.length < 2 ^ 16 := by
    have hlen : b.length = min n (d.payload.length - s) := tiles_length h
    have hmax := length_le_maxGroupBytes wf
    have hlt : maxGroupBytes < 2 ^ 16 := by decide
    omega
  have hcheck : checkFragment (fragmentDecoded d id s b).header (fragmentDecoded d id s b).payload =
      .ok (fragmentInfo d id s b) := checkFragment_fragmentDecoded wf h8 h
  unfold PartOf
  rw [decode_fragmentBytes wf hfree hb henc]
  dsimp only
  rw [hcheck]
  exact fragmentInfo_spells wf h8 h

/-- All packets that a packet without a chain is sent in carry its payload or pieces of it. -/
theorem fragmentPacket_partOf {whole : Bytes} {maxLen : Nat} {packets : List Bytes} (hd : decode whole = .ok d)
    (hchain : d.header.extHeaders = []) (hflag : d.header.flags &&& flags.fragment = 0)
    (hfrag : fragmentPacket whole maxLen id = .ok packets) {packet : Bytes} (hp : packet ∈ packets) :
    PartOf d.payload packet := by
  have wf : d.WF := (decode_eq_ok.mp hd).1
  cases fragmentPacket_cases hd hfrag with
  | inl hone =>
    rw [hone] at hp
    cases List.mem_singleton.mp hp
    have hnot : checkFragment d.header d.payload = .error .flagMismatch := by
      unfold checkFragment
      rw [hchain]
      rfl
    unfold PartOf
    rw [hd]
    dsimp only
    rw [hnot]
    exact ⟨hflag, rfl⟩
  | inr hcut =>
    obtain ⟨chunk, hc, h8, hfree, -, rfl, hencs⟩ := hcut
    obtain ⟨⟨s, b⟩, hq, rfl⟩ := List.mem_map.mp hp
    have henc : (fragmentHeader d id (UInt16.ofNat (s / 8)) s b.length).Encodable := hencs (s, b) hq
    have htile : (s, b) ∈ tiles chunk d.payload := mem_cut_zero.mp hq
    exact fragmentBytes_partOf wf hfree h8 htile henc

end

/-! ## Groups -/

section
variable {g g' : Group} {hdr : IPv8Header} {d : Decoded} {frag : FragmentInfo} {piece data : Bytes} {t now : Nat}

lemma Group.new_spells (hdr : IPv8Header) (now : Nat) (data : Bytes) : (Group.new hdr now).Spells data :=
  ⟨spells_empty data, nofun⟩

lemma Group.Spells.buffer (hg : g.Spells data) (hf : frag.Spells piece data) : (g.buffer hdr frag piece).Spells data := by
  refine ⟨hg.pieces.insert hf.1, fun t ht => ?_⟩
  have ht : g.totalWith frag piece.length = some t := ht
  unfold Group.totalWith at ht
  split at ht
  · exact hg.total t ht
  · next hm =>
    cases ht
    exact hf.2 (Bool.eq_false_iff.mpr hm)

lemma Group.Spells.advance (hg : g.Spells data) : g.advance.Spells data := ⟨drain_spells hg.pieces, hg.total⟩

/-- What a group keeps when it does not refuse a piece of its payload. -/
lemma Group.Spells.take (hg : g.Spells data) (hf : frag.Spells piece data)
    (h : (g.take hdr frag piece).1 = some g') : g'.Spells data := by
  obtain ⟨e, -, ht⟩ | ⟨-, ⟨-, ht⟩ | ⟨-, ⟨-, ht⟩ | ⟨-, ht⟩⟩⟩ := take_cases g hdr frag piece
  · rw [ht] at h
    cases h
    exact hg
  · rw [ht] at h
    cases h
    exact hg.buffer hf
  · rw [ht] at h
    cases h
    exact (hg.buffer hf).advance
  · rw [ht] at h
    cases h

/-- A group that is finished by a piece of its payload has the payload. -/
lemma Finishes.payload {r : Reassembler} (h : Finishes r now d frag t) (hg : (r.groupFor now d.header frag).Spells data)
    (hf : frag.Spells d.payload data) : ((r.groupFor now d.header frag).joined d.header frag d.payload).payload = data := by
  have hjoined : ((r.groupFor now d.header frag).joined d.header frag d.payload).Spells data := (hg.buffer hf).advance
  obtain ⟨htotal, hpos⟩ := (@advance_done_iff _ d.header _ _ t).mpr h.complete
  have htotal : ((r.groupFor now d.header frag).joined d.header frag d.payload).total = some t := htotal
  have hpos : ((r.groupFor now d.header frag).joined d.header frag d.payload).pos = t := hpos
  exact hjoined.pieces.full (hpos.trans (hjoined.total t htotal))

end

/-- The groups after a call: one that the fragment does not belong to is an old one. -/
lemma insert_group {r : Reassembler} {now : Nat} {hdr : IPv8Header} {payload : Bytes} {key : GroupKey} {g : Group}
    (h : (r.insert now hdr payload).1.groups[key]? = some g) :
    (r.groups[key]? = some g ∧ ∀ frag, checkFragment hdr payload = .ok frag → groupKey hdr frag ≠ key) ∨
      ∃ frag, checkFragment hdr payload = .ok frag ∧ groupKey hdr frag = key ∧
        ((r.groupFor now hdr frag).take hdr frag payload).1 = some g := by
  obtain ⟨e, hc, hins⟩ | ⟨frag, hc, ⟨hroom, hins⟩ | ⟨-, hins⟩⟩ := insert_cases r now hdr payload
  · rw [hins] at h
    refine .inl ⟨h, fun frag hok => ?_⟩
    rw [hc] at hok
    cases hok
  · rw [hins] at h
    refine .inl ⟨(getElem?_reap.mp h).1, fun frag' hok hkey => ?_⟩
    rw [hc] at hok
    cases hok
    -- a group of this key would be room enough
    apply hroom
    rw [hkey]
    refine .inl (Std.ExtTreeMap.mem_iff_isSome_getElem?.mpr ?_)
    rw [h]
    rfl
  · rw [hins] at h
    by_cases hkey : groupKey hdr frag = key
    · refine .inr ⟨frag, hc, hkey, ?_⟩
      subst hkey
      cases ht : ((r.groupFor now hdr frag).take hdr frag payload).1 with
      | none =>
        rw [ht] at h
        dsimp only at h
        rw [Std.ExtTreeMap.getElem?_erase_self] at h
        cases h
      | some g' =>
        rw [ht] at h
        dsimp only at h
        rw [Std.ExtTreeMap.getElem?_insert_self] at h
        exact h
    · have hold : (r.reap now).groups[key]? = some g := by
        cases ht : ((r.groupFor now hdr frag).take hdr frag payload).1 with
        | none =>
          rw [ht] at h
          dsimp only at h
          rw [Std.ExtTreeMap.getElem?_erase] at h
          split at h
          · cases h
          · exact h
        | some g' =>
          rw [ht] at h
          dsimp only at h
          rw [Std.ExtTreeMap.getElem?_insert] at h
          split at h
          · next he => exact absurd (Std.LawfulEqCmp.eq_of_compare he) hkey
          · exact h
      refine .inl ⟨(getElem?_reap.mp hold).1, fun frag' hok => ?_⟩
      rw [hc] at hok
      cases hok
      exact hkey

end IPv8Plus.Codec
