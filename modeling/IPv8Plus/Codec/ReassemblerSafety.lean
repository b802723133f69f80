import IPv8Plus.Codec.Reassembler

/-!
# When reassembly panics, and what it stores

Two properties of every run of the reassembler on decoded packets. The packet that a complete group is
rebuilt into need not be encodable, because the decoder ignores the reserved flag bits and because the
original chain and the total length come from different fragments; then the call panics. The pieces in a
backlog need not be apart, because a piece is compared with the prefix and with the pieces of the same
start only. For both the condition on a step is given under which nothing of this happens.
-/

namespace IPv8Plus.Codec
open Lib

/-- The packets of the calls are decoded from byte strings. -/
def Call.FromWire : Call → Prop
  | .insert _ d => ∃ buf, decode buf = .ok d
  | .reap _ => True

/-- With this fragment the pieces cover everything up to the total `t`. -/
def Group.Completes (g : Group) (frag : FragmentInfo) (payload : Bytes) (t : Nat) : Prop :=
  g.totalWith frag payload.length = some t ∧ Reaches (g.chunks.insert frag.start payload) g.pos t ∧
    ∀ b, (g.chunks.insert frag.start payload)[t]? = some b → b = []

/-- The code's test for completeness. -/
lemma advance_done_iff {g : Group} {hdr : IPv8Header} {frag : FragmentInfo} {payload : Bytes} {t : Nat} :
    (g.buffer hdr frag payload).advance.total = some t ∧ (g.buffer hdr frag payload).advance.pos = t ↔
      g.Completes frag payload t :=
  and_congr_right fun _ => drain_end_iff

/-- A fragment that is let in and completes its group with the total `t`. -/
structure Finishes (r : Reassembler) (now : Nat) (d : Decoded) (frag : FragmentInfo) (t : Nat) : Prop where
  check : checkFragment d.header d.payload = .ok frag
  room : r.HasRoom now (groupKey d.header frag)
  accepted : (r.groupFor now d.header frag).refuses frag d.payload.length = none
  fresh : frag.start ∉ (r.groupFor now d.header frag).chunks
  complete : (r.groupFor now d.header frag).Completes frag d.payload t

/-! ## Panics -/

/-- The group's flags, chain and total fit into one packet. -/
structure Group.Rebuildable (g : Group) (hdr : IPv8Header) (frag : FragmentInfo) (t : Nat) : Prop where
  reserved : Flags.reservedOk g.flags = true
  total : baseHeaderSize + chainSize ((g.chainWith hdr frag).getD []) + t ≤ maxPacketLen

/-- A call does not complete a group that cannot be rebuilt. -/
def Reassembler.Rebuilds (r : Reassembler) : Call → Prop
  | .reap _ => True
  | .insert now d => ∀ frag t, Finishes r now d frag t →
      (r.groupFor now d.header frag).Rebuildable d.header frag t

/-- What the fields of a group owe to the decoder. -/
structure Group.Sound (g : Group) : Prop where
  version : g.version = protoVersion
  compat : g.minCompatVer ≤ 15
  chain : ∀ c, g.origExt = some c → c.length ≤ maxExtChain
  total : ∀ t, g.total = some t → t ≤ maxGroupBytes

lemma reservedOk_attachExtHeaders (h : IPv8Header) (chain : List ExtensionHeader) :
    Flags.reservedOk (h.attachExtHeaders chain).flags = Flags.reservedOk h.flags := by
  rw [Flags.reservedOk, Flags.reservedOk]
  cases chain with
  | nil =>
    have e : h.flags &&& ~~~flags.hasExtension &&& flags.reservedMask = h.flags &&& flags.reservedMask :=
      read_clear_of_disjoint (by decide)
    exact congrArg (· == 0) e
  | cons x chain =>
    have e : (h.flags ||| flags.hasExtension) &&& flags.reservedMask = h.flags &&& flags.reservedMask :=
      read_set_of_disjoint (by decide)
    exact congrArg (· == 0) e

/-- The header of a packet of `t` bytes can be encoded exactly when the group is rebuildable. -/
lemma outHeader_encodable_iff {g : Group} {t : Nat} (hs : g.Sound) (ht : t ≤ maxGroupBytes) :
    (g.outHeader t).Encodable ↔
      Flags.reservedOk g.flags = true ∧ baseHeaderSize + chainSize (g.origExt.getD []) + t ≤ maxPacketLen := by
  have hlt : t < 2 ^ 16 := lt_of_le_of_lt ht (by decide)
  have hlen : (g.outHeader t).payloadLen.toNat = t := UInt16.toNat_ofNat_of_lt' hlt
  have hext : (g.outHeader t).extHeaders = g.origExt.getD [] := rfl
  have hres : Flags.reservedOk (g.outHeader t).flags = Flags.reservedOk g.flags :=
    reservedOk_attachExtHeaders _ _
  constructor
  · intro h
    have htotal := h.total
    rw [hext, hlen] at htotal
    exact ⟨hres ▸ h.reserved, htotal⟩
  · intro ⟨hr, htotal⟩
    refine ⟨hs.version, hs.compat, hres.trans hr, ?_, ?_, ?_, rfl, ?_⟩
    · rw [UInt16.le_iff_toNat_le, hlen]
      exact ht
    · rw [hext]
      cases hc : g.origExt with
      | none => exact Nat.zero_le _
      | some c => exact hs.chain c hc
    · rw [hext, hlen]
      exact htotal
    · exact IPv8Header.attachExtHeaders_flag _ _

lemma rebuild_eq_panic_iff {g : Group} {t : Nat} :
    g.rebuild t = .panic ↔ ¬ (g.outHeader t).Encodable := by
  rw [Group.rebuild]
  cases h : encodeHeader (g.outHeader t) [] with
  | ok r =>
    have henc := (encodeHeader_eq_ok.mp h).1
    exact ⟨nofun, fun hn => absurd henc hn⟩
  | err e =>
    refine ⟨fun _ henc => ?_, fun _ => rfl⟩
    rw [encodeHeader_eq_ok.mpr ⟨henc, rfl⟩] at h
    cases h
  | panic => exact absurd h (encodeHeader_ne_panic _ _)

lemma Group.new_sound {hdr : IPv8Header} (hv : hdr.version = protoVersion) (hc : hdr.minCompatVer ≤ 15)
    (now : Nat) : (Group.new hdr now).Sound :=
  ⟨hv, hc, nofun, nofun⟩

/-- An accepted total is bounded. -/
lemma totalWith_le {g : Group} (hs : g.Sound) {frag : FragmentInfo} {len t : Nat}
    (hr : g.refuses frag len = none) (ht : g.totalWith frag len = some t) : t ≤ maxGroupBytes := by
  rw [Group.totalWith] at ht
  rw [Group.refuses] at hr
  split_ifs at hr with h1 h2 h3 h4 h5
  · rw [if_pos h3] at ht
    exact hs.total t ht
  · rw [if_neg h3] at ht
    cases ht
    exact not_lt.mp h4

lemma Group.Sound.buffer {g : Group} (hs : g.Sound) {hdr : IPv8Header} (hext : hdr.extHeaders.length ≤ maxExtChain)
    {frag : FragmentInfo} {payload : Bytes} (hr : g.refuses frag payload.length = none) :
    (g.buffer hdr frag payload).Sound := by
  refine ⟨hs.version, hs.compat, ?_, fun t ht => totalWith_le hs hr ht⟩
  intro c hc
  have hc : g.chainWith hdr frag = some c := hc
  rw [Group.chainWith] at hc
  split_ifs at hc
  · cases hc
    rw [List.length_drop]
    exact le_trans (Nat.sub_le _ _) hext
  · exact hs.chain c hc

lemma Group.Sound.advance {g : Group} (hs : g.Sound) : g.advance.Sound := ⟨hs.version, hs.compat, hs.chain, hs.total⟩

lemma Group.Sound.take {g g' : Group} (hs : g.Sound) {hdr : IPv8Header} (hext : hdr.extHeaders.length ≤ maxExtChain)
    {frag : FragmentInfo} {payload : Bytes} (h : (g.take hdr frag payload).1 = some g') : g'.Sound := by
  obtain ⟨e, -, ht⟩ | ⟨hr, ⟨-, ht⟩ | ⟨-, ⟨-, ht⟩ | ⟨-, ht⟩⟩⟩ := take_cases g hdr frag payload
  · rw [ht] at h
    cases h
    exact hs
  · rw [ht] at h
    cases h
    exact hs.buffer hext hr
  · rw [ht] at h
    cases h
    exact (hs.buffer hext hr).advance
  · rw [ht] at h
    cases h

/-- All groups of a reassembler are sound. -/
def Reassembler.Sound (r : Reassembler) : Prop := ∀ (key : GroupKey) g, r.groups[key]? = some g → g.Sound

lemma Reassembler.Sound.step {r : Reassembler} (hs : r.Sound) {c : Call} (hc : c.FromWire) : (r.step c).1.Sound := by
  cases c with
  | reap now => exact fun key g h => hs key g (getElem?_reap.mp h).1
  | insert now d =>
    obtain ⟨buf, hd⟩ := hc
    obtain ⟨wf, -⟩ := decode_eq_ok.mp hd
    exact groups_invariant hs (Group.new_sound wf.version wf.compat now)
      fun frag g g' _ _ hg h => hg.take wf.count h

lemma Reassembler.Sound.groupFor {r : Reassembler} (hs : r.Sound) {now : Nat} {hdr : IPv8Header}
    (hv : hdr.version = protoVersion) (hc : hdr.minCompatVer ≤ 15) (frag : FragmentInfo) :
    (r.groupFor now hdr frag).Sound := by
  rw [Reassembler.groupFor]
  cases e : (r.reap now).groups[groupKey hdr frag]? with
  | none => exact Group.new_sound hv hc now
  | some g => exact hs _ g (getElem?_reap.mp e).1

/-- A call finishes its group and rebuilds the packet, or it has no packet to answer with. -/
theorem finishes_or (r : Reassembler) (now : Nat) (d : Decoded) :
    (∃ frag t, Finishes r now d frag t ∧
        ((r.groupFor now d.header frag).buffer d.header frag d.payload).advance.total = some t ∧
        ((r.groupFor now d.header frag).buffer d.header frag d.payload).advance.pos = t ∧
        (r.insert now d.header d.payload).2 =
          some <$> ((r.groupFor now d.header frag).buffer d.header frag d.payload).advance.rebuild t) ∨
      (∀ frag t, ¬ Finishes r now d frag t) ∧
        ((r.insert now d.header d.payload).2 = .ok none ∨ ∃ e, (r.insert now d.header d.payload).2 = .err e) := by
  obtain ⟨e, hchk, h⟩ | ⟨frag, hchk, ⟨hroom, h⟩ | ⟨hroom, h⟩⟩ := insert_cases r now d.header d.payload
  · rw [h]
    refine .inr ⟨fun frag t hf => ?_, .inr ⟨e, rfl⟩⟩
    rw [hf.check] at hchk
    cases hchk
  · rw [h]
    refine .inr ⟨fun frag' t hf => ?_, .inr ⟨_, rfl⟩⟩
    have he := hf.check
    rw [hchk] at he
    cases he
    exact absurd hf.room hroom
  · rw [h]
    -- what the group refuses, the call does not finish
    have other : (∀ t, ¬ Finishes r now d frag t) → ∀ frag t, ¬ Finishes r now d frag t := by
      intro hn frag' t hf
      have he := hf.check
      rw [hchk] at he
      cases he
      exact hn t hf
    obtain ⟨e, hr, ht⟩ | ⟨hr, ⟨hdup, ht⟩ | ⟨hdup, ⟨hdone, ht⟩ | ⟨hdone, ht⟩⟩⟩ :=
      take_cases (r.groupFor now d.header frag) d.header frag d.payload
    · rw [ht]
      refine .inr ⟨other fun t hf => ?_, .inr ⟨e, rfl⟩⟩
      rw [hf.accepted] at hr
      cases hr
    · rw [ht]
      exact .inr ⟨other fun t hf => absurd hdup hf.fresh, .inr ⟨_, rfl⟩⟩
    · rw [ht]
      refine .inr ⟨other fun t hf => ?_, .inl rfl⟩
      obtain ⟨h1, h2⟩ := (@advance_done_iff _ d.header _ _ t).mpr hf.complete
      exact hdone (h1.trans (congrArg some h2.symm))
    · rw [ht]
      exact .inl ⟨frag, _, ⟨hchk, hroom, hr, hdup, advance_done_iff.mp ⟨hdone, rfl⟩⟩, hdone, rfl, rfl⟩

/-- The fragment and the total of a call that finishes its group are determined. -/
lemma Finishes.unique {r : Reassembler} {now : Nat} {d : Decoded} {frag frag' : FragmentInfo} {t t' : Nat}
    (h : Finishes r now d frag t) (h' : Finishes r now d frag' t') : frag = frag' ∧ t = t' := by
  have he := h.check
  rw [h'.check] at he
  cases he
  obtain ⟨-, hpos⟩ := (@advance_done_iff _ d.header _ _ t).mpr h.complete
  obtain ⟨-, hpos'⟩ := (@advance_done_iff _ d.header _ _ t').mpr h'.complete
  exact ⟨rfl, hpos.symm.trans hpos'⟩

/-- A call panics exactly when it completes a group that cannot be rebuilt. -/
lemma step_ne_panic_iff {r : Reassembler} (hs : r.Sound) {c : Call} (hc : c.FromWire) :
    (r.step c).2 ≠ .panic ↔ r.Rebuilds c := by
  cases c with
  | reap now => exact ⟨fun _ => trivial, fun _ => nofun⟩
  | insert now d =>
    obtain ⟨buf, hd⟩ := hc
    obtain ⟨wf, -⟩ := decode_eq_ok.mp hd
    show (r.insert now d.header d.payload).2 ≠ .panic ↔ _
    obtain ⟨frag, t, hf, htotal, -, h⟩ | ⟨hn, h⟩ := finishes_or r now d
    · have hg : (r.groupFor now d.header frag).Sound := hs.groupFor wf.version wf.compat frag
      have hsound := (hg.buffer wf.count hf.accepted).advance
      rw [h, Ne, Outcome.map_eq_panic, rebuild_eq_panic_iff, not_not,
        outHeader_encodable_iff hsound (hsound.total _ htotal)]
      constructor
      · rintro ⟨hres, hlen⟩ frag' t' hf'
        obtain ⟨rfl, rfl⟩ := hf.unique hf'
        exact ⟨hres, hlen⟩
      · intro hreb
        exact ⟨(hreb frag t hf).reserved, (hreb frag t hf).total⟩
    · refine ⟨fun _ frag t hf => absurd hf (hn frag t), fun _ => ?_⟩
      rcases h with h | ⟨e, h⟩
      · rw [h]
        exact nofun
      · rw [h]
        exact nofun

/-- A run on decoded packets is free of panics exactly when no call completes a group that cannot be
rebuilt. -/
theorem run_ne_panic_iff {calls : List Call} (hdec : ∀ c ∈ calls, c.FromWire) :
    (∀ x ∈ (run Reassembler.step Reassembler.new calls).2, x ≠ .panic) ↔
      Along Reassembler.step Reassembler.Rebuilds Reassembler.new calls := by
  have hnew : Reassembler.new.Sound := fun key g h => by
    simp [Reassembler.new] at h
  refine Iff.trans (Iff.symm (@along_answer _ _ _ Reassembler.step _ _ (fun x => x ≠ .panic))) ?_
  exact along_congr (along_of_forall hdec) (fun _ _ hs hc _ => hs.step hc)
    (fun _ _ hs hc => step_ne_panic_iff hs hc) hnew

/-- A fragment of `len` zero bytes, with the given flags next to the two bits. -/
def sampleFragment (flags offset : UInt16) (more : Bool) (len : Nat) : Decoded where
  header := IPv8Header.build ⟨0xFB14, 0, 0, 0, 0, 0, 0, 0⟩ ⟨0xFB14, 0, 0, 0, 0, 0, 0, 1⟩ (UInt16.ofNat len)
    (0x20 ||| flags) 64 0 [FragmentInfo.toExt { id := 7, offset, more }]
  payload := List.replicate len 0
  offset := 50

/-- The sample on the wire. -/
def sampleBytes (d : Decoded) : Bytes := d.header.headBytes 0 ++ chainBytes d.header.extHeaders ++ d.payload

/-- A reserved flag bit, which the decoder ignores, makes the reassembler panic. -/
theorem run_panics_reserved_flag :
    ¬ ∀ calls : List Call, (∀ c ∈ calls, c.FromWire) →
        ∀ x ∈ (run Reassembler.step Reassembler.new calls).2, x ≠ .panic := by
  intro h
  have hd : decode (sampleBytes (sampleFragment 0x80 0 false 8)) = .ok (sampleFragment 0x80 0 false 8) := by decide +kernel
  have hdec : ∀ c ∈ [Call.insert 0 (sampleFragment 0x80 0 false 8)], c.FromWire := by
    intro c hc
    rw [List.mem_singleton.mp hc]
    exact ⟨_, hd⟩
  have hrun : (run Reassembler.step Reassembler.new [.insert 0 (sampleFragment 0x80 0 false 8)]).2 = [.panic] := by
    decide +kernel
  apply h _ hdec .panic _ rfl
  rw [hrun]
  exact List.mem_singleton.mpr rfl

/-- Without reserved bits the lone fragment is a run that never completes a group it cannot rebuild. -/
theorem run_ne_panic_iff_lone :
    Along Reassembler.step Reassembler.Rebuilds Reassembler.new [.insert 0 (sampleFragment 0 0 false 8)] := by
  have hd : decode (sampleBytes (sampleFragment 0 0 false 8)) = .ok (sampleFragment 0 0 false 8) := by decide +kernel
  have hdec : ∀ c ∈ [Call.insert 0 (sampleFragment 0 0 false 8)], c.FromWire := by
    intro c hc
    rw [List.mem_singleton.mp hc]
    exact ⟨_, hd⟩
  exact (run_ne_panic_iff hdec).mp (by decide +kernel)

/-! ## Storage -/

/-- What a group stores: disjoint pieces ahead of the prefix, below the total, and not too much of it. -/
structure Group.Tidy (g : Group) : Prop where
  length : g.payload.length = g.pos
  packed : Packed g.chunks g.pos
  within : ∀ t, g.total = some t → g.pos ≤ t ∧ Within g.chunks t
  bytes : g.pos + stored g.chunks ≤ maxGroupBytes

/-- The payload positions a group has accepted. -/
def Group.Holds (g : Group) (i : Nat) : Prop :=
  i < g.pos ∨ ∃ s b, g.chunks[s]? = some b ∧ i ∈ span s b

/-- A fragment that a group buffers avoids the pieces at other positions, does not fix a total below them,
and does not bring the group over its limit; the last two do not matter if it completes the packet. -/
structure Group.Fits (g : Group) (frag : FragmentInfo) (payload : Bytes) : Prop where
  apart : ∀ s b, g.chunks[s]? = some b → frag.start ≠ s → Disjoint (span frag.start payload) (span s b)
  room : frag.start ∈ g.chunks ∨ (∀ t, ¬ g.Completes frag payload t) →
    (frag.more = false → Within (g.chunks.erase frag.start) (frag.start + payload.length)) ∧
      g.pos + stored (g.chunks.insert frag.start payload) ≤ maxGroupBytes

/-- After a call all groups are tidy, and a fragment that was not answered by an error had no position in
common with what its group held. -/
def Reassembler.Keeps (r : Reassembler) (c : Call) : Prop :=
  (∀ (key : GroupKey) g, (r.step c).1.groups[key]? = some g → g.Tidy) ∧
    match c with
    | .reap _ => True
    | .insert now d => ∀ frag, checkFragment d.header d.payload = .ok frag → (∀ e, (r.step c).2 ≠ .err e) →
        ∀ i ∈ span frag.start d.payload, ¬ (r.groupFor now d.header frag).Holds i

/-- A call buffers no fragment that does not fit. -/
def Reassembler.Fits (r : Reassembler) : Call → Prop
  | .reap _ => True
  | .insert now d => ∀ frag, checkFragment d.header d.payload = .ok frag → r.HasRoom now (groupKey d.header frag) →
      (r.groupFor now d.header frag).refuses frag d.payload.length = none →
      (r.groupFor now d.header frag).Fits frag d.payload

lemma Group.new_tidy (hdr : IPv8Header) (now : Nat) : (Group.new hdr now).Tidy := by
  refine ⟨rfl, packed_empty 0, nofun, ?_⟩
  show 0 + stored (∅ : Backlog UInt8) ≤ maxGroupBytes
  rw [stored_empty]
  exact Nat.zero_le _

/-- What the checks against the group establish. -/
lemma refuses_eq_none {g : Group} {frag : FragmentInfo} {len : Nat} (h : g.refuses frag len = none) :
    g.pos ≤ frag.start ∧ (∀ t, g.total = some t → frag.start + len ≤ t) ∧
      (frag.more = false → ∀ t, g.total = some t → t = frag.start + len) := by
  rw [Group.refuses] at h
  split_ifs at h with h1 h2 h3 h4 h5
  all_goals
    have hle : ∀ t, g.total = some t → frag.start + len ≤ t := by
      intro t ht
      rw [ht] at h2
      simpa using h2
  · exact ⟨not_lt.mp h1, hle, fun hm => by rw [hm] at h3; cases h3⟩
  · refine ⟨not_lt.mp h1, hle, fun _ t ht => ?_⟩
    rw [ht] at h5
    simpa using h5

/-- The group stays tidy when it buffers a fragment that fits. -/
lemma Group.Tidy.buffer {g : Group} (hg : g.Tidy) {frag : FragmentInfo} {payload : Bytes}
    (hr : g.refuses frag payload.length = none) (hfit : g.Fits frag payload)
    (hroom : frag.start ∈ g.chunks ∨ ∀ t, ¬ g.Completes frag payload t) (hdr : IPv8Header) :
    (g.buffer hdr frag payload).Tidy := by
  obtain ⟨hpos, hle, hfix⟩ := refuses_eq_none hr
  obtain ⟨hw, hb⟩ := hfit.room hroom
  refine ⟨hg.length, hg.packed.insert hpos hfit.apart, ?_, hb⟩
  intro t ht
  have ht : g.totalWith frag payload.length = some t := ht
  rw [Group.totalWith] at ht
  split_ifs at ht with hm
  · obtain ⟨hp, hold⟩ := hg.within t ht
    exact ⟨hp, hold.insert (hle t ht)⟩
  · cases ht
    refine ⟨le_trans hpos (Nat.le_add_right _ _), ?_⟩
    intro s b h i hi
    obtain ⟨rfl, rfl⟩ | ⟨hne, h⟩ := getElem?_insert_eq_some.mp h
    · exact (mem_span.mp hi).2
    · exact hw (by simpa using hm) s b (getElem?_erase_eq_some.mpr ⟨hne, h⟩) i hi

lemma Group.Tidy.advance {g : Group} (hg : g.Tidy) : g.advance.Tidy := by
  obtain ⟨hlen, hsum⟩ := @drain_stored _ g.chunks _ _ hg.length
  refine ⟨hlen, drain_packed hg.packed, ?_, ?_⟩
  · intro t ht
    obtain ⟨hp, hw⟩ := hg.within t ht
    exact ⟨(drain_within hw hp).2, (drain_within hw hp).1⟩
  · have hb := hg.bytes
    show (drain g.chunks g.pos g.payload).2.1 + stored (drain g.chunks g.pos g.payload).1 ≤ maxGroupBytes
    rw [hsum]
    exact hb

/-- A fragment that fits has no position in common with what the group holds. -/
lemma Group.Fits.not_holds {g : Group} {frag : FragmentInfo} {payload : Bytes} (hfit : g.Fits frag payload)
    (hr : g.refuses frag payload.length = none) (hdup : frag.start ∉ g.chunks) :
    ∀ i ∈ span frag.start payload, ¬ g.Holds i := by
  obtain ⟨hpos, -, -⟩ := refuses_eq_none hr
  intro i hi hh
  cases hh with
  | inl hlt => exact absurd (le_trans hpos (mem_span.mp hi).1) (not_le.mpr hlt)
  | inr hh =>
    obtain ⟨s, b, hb, hi'⟩ := hh
    have hne : frag.start ≠ s := by
      rintro rfl
      rw [Std.ExtTreeMap.mem_iff_isSome_getElem?, hb] at hdup
      exact hdup rfl
    exact Set.disjoint_left.mp (hfit.apart s b hb hne) hi hi'

/-- What `take` keeps of a tidy group, exactly if the fragment fits. -/
lemma take_tidy_iff {g : Group} (hg : g.Tidy) {hdr : IPv8Header} {frag : FragmentInfo} {payload : Bytes}
    (hr : g.refuses frag payload.length = none) :
    ((∀ g', (g.take hdr frag payload).1 = some g' → g'.Tidy) ∧
      ((∀ e, (g.take hdr frag payload).2 ≠ .err e) → ∀ i ∈ span frag.start payload, ¬ g.Holds i)) ↔
      g.Fits frag payload := by
  obtain ⟨hpos, hle, hfix⟩ := refuses_eq_none hr
  have apart : (∀ i ∈ span frag.start payload, ¬ g.Holds i) → ∀ s b, g.chunks[s]? = some b →
      frag.start ≠ s → Disjoint (span frag.start payload) (span s b) := by
    intro h s b hb _
    rw [Set.disjoint_left]
    exact fun i hi hi' => h i hi (.inr ⟨s, b, hb, hi'⟩)
  obtain ⟨e, hr', -⟩ | ⟨-, ⟨hdup, ht⟩ | ⟨hdup, ⟨hdone, ht⟩ | ⟨hdone, ht⟩⟩⟩ := take_cases g hdr frag payload
  · rw [hr] at hr'
    cases hr'
  · -- the piece with the same start is replaced, and the call answers an error
    rw [ht]
    constructor
    · rintro ⟨htidy, -⟩
      have h := htidy _ rfl
      refine ⟨?_, fun _ => ⟨?_, h.bytes⟩⟩
      · intro s b hb hne
        exact h.packed.disjoint frag.start payload s b (getElem?_insert_eq_some.mpr (.inl ⟨rfl, rfl⟩))
          (getElem?_insert_eq_some.mpr (.inr ⟨hne, hb⟩)) hne
      · intro hm
        have htot : (g.buffer hdr frag payload).total = some (frag.start + payload.length) := by
          show g.totalWith frag payload.length = _
          rw [Group.totalWith, hm]
          rfl
        intro s b hb i hi
        obtain ⟨hne, hb⟩ := getElem?_erase_eq_some.mp hb
        exact (h.within _ htot).2 s b (getElem?_insert_eq_some.mpr (.inr ⟨hne, hb⟩)) i hi
    · intro hfit
      refine ⟨?_, fun h => absurd rfl (h _)⟩
      intro g' h
      cases h
      exact hg.buffer hr hfit (.inl hdup) hdr
  · rw [ht]
    have hnot : ∀ t, ¬ g.Completes frag payload t := by
      intro t hc
      obtain ⟨h1, h2⟩ := (@advance_done_iff _ hdr _ _ t).mpr hc
      exact hdone (h1.trans (congrArg some h2.symm))
    constructor
    · intro ⟨htidy, hacc⟩
      have h := htidy _ rfl
      have hsum := (@drain_stored _ (g.chunks.insert frag.start payload) _ _ hg.length).2
      refine ⟨apart (hacc nofun), fun _ => ⟨?_, ?_⟩⟩
      · intro hm
        have htot : (g.buffer hdr frag payload).advance.total = some (frag.start + payload.length) := by
          show g.totalWith frag payload.length = _
          rw [Group.totalWith, hm]
          rfl
        obtain ⟨hend, hw⟩ := h.within _ htot
        have hw := within_of_drain hw hend
        intro s b hb i hi
        obtain ⟨hne, hb⟩ := getElem?_erase_eq_some.mp hb
        exact hw s b (getElem?_insert_eq_some.mpr (.inr ⟨hne, hb⟩)) i hi
      · rw [← hsum]
        exact h.bytes
    · intro hfit
      refine ⟨?_, fun _ => hfit.not_holds hr hdup⟩
      intro g' h
      cases h
      exact (hg.buffer hr hfit (.inr hnot) hdr).advance
  · rw [ht]
    have hcomplete := (advance_done_iff).mp ⟨hdone, rfl⟩
    constructor
    · rintro ⟨-, hacc⟩
      refine ⟨apart (hacc ?_), fun h => ?_⟩
      · intro e he
        -- rebuilding either panics or returns the packet
        have hreb : ∀ x : Outcome ReassemblyError Bytes, x ≠ .err e → some <$> x ≠ .err e := by
          intro x hx hm
          cases x with
          | ok a => cases hm
          | err e' => cases hm; exact hx rfl
          | panic => cases hm
        refine hreb _ ?_ he
        rw [Group.rebuild]
        cases encodeHeader ((g.buffer hdr frag payload).advance.outHeader _) [] with
        | ok r => exact nofun
        | err e' => exact nofun
        | panic => exact nofun
      · cases h with
        | inl h => exact absurd h hdup
        | inr h => exact absurd hcomplete (h _)
    · intro hfit
      exact ⟨nofun, fun _ => hfit.not_holds hr hdup⟩

/-- A group that is kept is found under its key. -/
lemma getElem?_put {groups : Std.ExtTreeMap GroupKey Group GroupKey.cmp} {key : GroupKey} {x : Option Group} {g : Group}
    (h : x = some g) :
    (match x with
      | some g => groups.insert key g
      | none => groups.erase key)[key]? = some g := by
  rw [h]
  exact Std.ExtTreeMap.getElem?_insert_self

/-- One call keeps tidy groups tidy, and accepts no overlap, exactly if it buffers no fragment that does not
fit. -/
lemma keeps_iff_fits {r : Reassembler} (hr : ∀ (key : GroupKey) g, r.groups[key]? = some g → g.Tidy) (c : Call) :
    r.Keeps c ↔ r.Fits c := by
  have hreap : ∀ now (key : GroupKey) g, (r.reap now).groups[key]? = some g → g.Tidy :=
    fun now key g h => hr key g (getElem?_reap.mp h).1
  cases c with
  | reap now => exact ⟨fun _ => trivial, fun _ => ⟨hreap now, trivial⟩⟩
  | insert now d =>
    have hg : ∀ frag, (r.groupFor now d.header frag).Tidy := by
      intro frag
      rw [Reassembler.groupFor]
      cases e : (r.reap now).groups[groupKey d.header frag]? with
      | none => exact Group.new_tidy _ _
      | some g => exact hreap now _ g e
    -- the two parts of `Keeps`, once the fragment is known
    have only : ∀ {frag : FragmentInfo} {Q : FragmentInfo → Prop},
        checkFragment d.header d.payload = .ok frag → Q frag →
          ∀ frag', checkFragment d.header d.payload = .ok frag' → Q frag' := by
      intro frag Q h hq frag' h'
      rw [h] at h'
      cases h'
      exact hq
    obtain ⟨e, hchk, h⟩ | ⟨frag, hchk, ⟨hroom, h⟩ | ⟨hroom, h⟩⟩ := insert_cases r now d.header d.payload
    · rw [Reassembler.Keeps, Reassembler.step, h]
      refine ⟨fun _ frag hf => ?_, fun _ => ⟨hr, fun frag hf => ?_⟩⟩
      all_goals
        rw [hchk] at hf
        cases hf
    · rw [Reassembler.Keeps, Reassembler.step, h]
      refine ⟨fun _ => only hchk fun hroom' => absurd hroom' hroom, fun _ => ⟨hreap now, ?_⟩⟩
      exact fun _ _ hne => absurd rfl (hne _)
    · rw [Reassembler.Keeps, Reassembler.step, h]
      cases hr' : (r.groupFor now d.header frag).refuses frag d.payload.length with
      | some e =>
        -- a refused fragment changes nothing
        have ht : (r.groupFor now d.header frag).take d.header frag d.payload =
            (some (r.groupFor now d.header frag), .err e) := by
          rw [Group.take, hr']
        rw [ht]
        refine ⟨fun _ => only hchk fun _ hn => ?_, fun _ => ⟨?_, fun _ _ hne => absurd rfl (hne _)⟩⟩
        · rw [hr'] at hn
          cases hn
        · intro key g hk
          dsimp only at hk
          rw [Std.ExtTreeMap.getElem?_insert] at hk
          split at hk
          · cases hk
            exact hg frag
          · exact hreap now key g hk
      | none =>
        have hiff := @take_tidy_iff _ (hg frag) d.header _ _ hr'
        constructor
        · rintro ⟨htidy, hacc⟩
          refine only hchk fun _ _ => hiff.mp ⟨fun g' ht => htidy _ g' (getElem?_put ht), hacc frag hchk⟩
        · intro hfits
          obtain ⟨htidy, hacc⟩ := hiff.mpr (hfits frag hchk hroom hr')
          refine ⟨?_, only hchk hacc⟩
          intro key g hk
          cases ht : ((r.groupFor now d.header frag).take d.header frag d.payload).1 with
          | none =>
            rw [ht] at hk
            dsimp only at hk
            rw [Std.ExtTreeMap.getElem?_erase] at hk
            split at hk
            · cases hk
            · exact hreap now key g hk
          | some g' =>
            rw [ht] at hk
            dsimp only at hk
            rw [Std.ExtTreeMap.getElem?_insert] at hk
            split at hk
            · cases hk
              exact htidy g ht
            · exact hreap now key g hk

/-- In a run every group stays tidy and no overlap is accepted, exactly if no fragment is buffered that does
not fit. -/
theorem run_keeps_iff (calls : List Call) :
    Along Reassembler.step Reassembler.Keeps Reassembler.new calls ↔
      Along Reassembler.step Reassembler.Fits Reassembler.new calls := by
  refine along_congr (I := fun r => ∀ (key : GroupKey) g, r.groups[key]? = some g → g.Tidy)
    (D := fun _ _ => True) (along_of_forall fun _ _ => trivial) ?_ ?_ ?_
  · exact fun _ _ _ _ hk => hk.1
  · exact fun _ c hr _ => keeps_iff_fits hr c
  · intro key g h
    simp [Reassembler.new] at h

/-- The pieces from 8 to 24 and from 16 to 24 are both accepted. -/
theorem run_accepts_overlap :
    ¬ ∀ calls : List Call, (∀ c ∈ calls, c.FromWire) →
        Along Reassembler.step Reassembler.Keeps Reassembler.new calls := by
  intro h
  let a := sampleFragment 0 1 true 16
  let b := sampleFragment 0 2 true 8
  have hdec : ∀ c ∈ [Call.insert 0 a, Call.insert 0 b], c.FromWire := by
    intro c hc
    rw [List.mem_cons, List.mem_singleton] at hc
    cases hc with
    | inl hc =>
      rw [hc]
      exact ⟨sampleBytes a, by decide +kernel⟩
    | inr hc =>
      rw [hc]
      exact ⟨sampleBytes b, by decide +kernel⟩
  let r := (Reassembler.new.step (.insert 0 a)).1
  obtain ⟨-, hb, -⟩ := h _ hdec
  have hans : (r.step (.insert 0 b)).2 = .ok none := by decide +kernel
  have hchk : checkFragment b.header b.payload = .ok { id := 7, offset := 2, more := true } := by decide +kernel
  have hwait : (r.groupFor 0 b.header { id := 7, offset := 2, more := true }).chunks[8]? =
      some (List.replicate 16 0) := by decide +kernel
  refine hb.2 _ hchk ?_ 16 ⟨by decide, by decide⟩ (.inr ⟨8, _, hwait, by decide, by decide⟩)
  intro e he
  rw [hans] at he
  cases he

end IPv8Plus.Codec
