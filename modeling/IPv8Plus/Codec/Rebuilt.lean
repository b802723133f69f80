import IPv8Plus.Codec.ReassemblerSafety
import IPv8Plus.Codec.RoundTrip

/-!
# Rebuilt packets

What a reassembler hands out when a fragment completes its group: header, original chain and payload of the group,
which decode as such (`decode_whole`). `insert_eq_some_iff` says when it hands out what.
-/

namespace IPv8Plus.Codec
open Lib

/-- What the fields of a group owe to the decoder and to the way the payload is collected. -/
structure Group.Kept (g : Group) : Prop where
  sound : g.Sound
  length : g.payload.length = g.pos
  chain : ∀ c, g.origExt = some c → (∀ e ∈ c, e.WF) ∧ (c.map (·.extType.wire)).Nodup

/-- The group when a fragment is in. -/
def Group.joined (g : Group) (hdr : IPv8Header) (frag : FragmentInfo) (payload : Bytes) : Group :=
  (g.buffer hdr frag payload).advance

/-- The packet of a group. -/
def Group.whole (g : Group) : Decoded where
  header := g.outHeader g.pos
  payload := g.payload
  offset := baseHeaderSize + chainSize (g.origExt.getD [])

/-- The packet on the wire. -/
def Decoded.bytes (d : Decoded) : Bytes := d.header.headBytes 0 ++ chainBytes d.header.extHeaders ++ d.payload

def Reassembler.Kept (r : Reassembler) : Prop := ∀ (key : GroupKey) g, r.groups[key]? = some g → g.Kept

section
variable {g g' : Group} {hdr : IPv8Header} {d : Decoded} {frag : FragmentInfo} {payload whole : Bytes} {t : Nat}

lemma Group.Kept.buffer (hg : g.Kept) (wf : d.WF) (hr : g.refuses frag payload.length = none) :
    (g.buffer d.header frag payload).Kept where
  sound := hg.sound.buffer wf.count hr
  length := hg.length
  chain := by
    intro c hc
    have hc : g.chainWith d.header frag = some c := hc
    unfold Group.chainWith at hc
    split at hc
    · cases hc
      refine ⟨fun e he => wf.chain e (List.mem_of_mem_drop he), ?_⟩
      rw [List.map_drop]
      exact wf.nodup.sublist (List.drop_sublist _ _)
    · exact hg.chain c hc

lemma Group.Kept.advance (hg : g.Kept) : g.advance.Kept where
  sound := hg.sound.advance
  length := (drain_stored hg.length).1
  chain := hg.chain

lemma Group.Kept.joined (hg : g.Kept) (wf : d.WF) (hr : g.refuses frag payload.length = none) :
    (g.joined d.header frag payload).Kept := (hg.buffer wf hr).advance

lemma Group.Kept.take (hg : g.Kept) (wf : d.WF) (h : (g.take d.header frag payload).1 = some g') : g'.Kept := by
  obtain ⟨e, -, ht⟩ | ⟨hr, ⟨-, ht⟩ | ⟨-, ⟨-, ht⟩ | ⟨-, ht⟩⟩⟩ := take_cases g d.header frag payload
  · rw [ht] at h
    cases h
    exact hg
  · rw [ht] at h
    cases h
    exact hg.buffer wf hr
  · rw [ht] at h
    cases h
    exact hg.joined wf hr
  · rw [ht] at h
    cases h

lemma Group.new_kept (wf : d.WF) (now : Nat) : (Group.new d.header now).Kept :=
  ⟨Group.new_sound wf.version wf.compat now, rfl, nofun⟩

/-- A group that is rebuilt gives its packet on the wire. -/
lemma Group.rebuild_eq_ok : g.rebuild g.pos = .ok whole ↔ (g.outHeader g.pos).Encodable ∧ whole = g.whole.bytes := by
  unfold Group.rebuild
  cases h : encodeHeader (g.outHeader g.pos) [] with
  | ok r =>
    obtain ⟨henc, rfl⟩ := encodeHeader_eq_ok.mp h
    show Outcome.ok _ = Outcome.ok _ ↔ _
    rw [Outcome.ok.injEq, eq_comm, and_iff_right henc]
    exact Iff.rfl
  | err e =>
    refine ⟨nofun, fun ⟨henc, _⟩ => ?_⟩
    rw [encodeHeader_eq_ok.mpr ⟨henc, rfl⟩] at h
    cases h
  | panic => exact absurd h (encodeHeader_ne_panic _ _)

/-- The packet of a group decodes. -/
lemma Group.Kept.decode_whole (hg : g.Kept) (htotal : g.total = some g.pos) (henc : (g.outHeader g.pos).Encodable) :
    decode g.whole.bytes = .ok g.whole := by
  have hfit : (UInt16.ofNat g.pos).toNat = g.pos :=
    UInt16.toNat_ofNat_of_lt' (Nat.lt_of_le_of_lt (hg.sound.total _ htotal) (by decide))
  have hchain : (∀ e ∈ g.origExt.getD [], e.WF) ∧ ((g.origExt.getD []).map (·.extType.wire)).Nodup := by
    cases hc : g.origExt with
    | none => exact ⟨nofun, List.nodup_nil⟩
    | some c => exact hg.chain c hc
  have henc' : encode g.whole.header g.whole.payload = .ok g.whole.bytes :=
    encode_eq_ok.mpr ⟨henc, hg.length.trans hfit.symm, rfl⟩
  have hdec := decode_encode henc' hchain.1 hchain.2 []
  rw [List.append_nil] at hdec
  exact hdec

end

section
variable {r : Reassembler} {now : Nat} {d : Decoded} {frag : FragmentInfo} {whole : Bytes} {t : Nat}

lemma Reassembler.new_kept : Reassembler.new.Kept := by
  intro key g h
  rw [Reassembler.new, Std.ExtTreeMap.getElem?_empty] at h
  cases h

lemma Reassembler.Kept.insert (hr : r.Kept) (wf : d.WF) : (r.insert now d.header d.payload).1.Kept :=
  groups_invariant hr (Group.new_kept wf now) fun _ _ _ _ _ hg h => hg.take wf h

lemma Reassembler.Kept.groupFor (hr : r.Kept) (wf : d.WF) : (r.groupFor now d.header frag).Kept := by
  unfold Reassembler.groupFor
  cases e : (r.reap now).groups[groupKey d.header frag]? with
  | none => exact Group.new_kept wf now
  | some g => exact hr _ g (getElem?_reap.mp e).1

/-- A call hands out a packet exactly if its fragment finishes a group that can be rebuilt, and it is the packet of
the group. -/
theorem insert_eq_some_iff (hr : r.Kept) (wf : d.WF) :
    (r.insert now d.header d.payload).2 = .ok (some whole) ↔
      ∃ frag t, Finishes r now d frag t ∧ (r.groupFor now d.header frag).Rebuildable d.header frag t ∧
        whole = ((r.groupFor now d.header frag).joined d.header frag d.payload).whole.bytes := by
  obtain ⟨frag, t, hf, htotal, hpos, h⟩ | ⟨hn, h⟩ := finishes_or r now d
  · have hg : ((r.groupFor now d.header frag).joined d.header frag d.payload).Kept :=
      (hr.groupFor wf).joined wf hf.accepted
    have hsome : ∀ x : Outcome ReassemblyError Bytes, some <$> x = .ok (some whole) ↔ x = .ok whole := by
      rintro (a | e | _)
      · exact ⟨fun e => by cases e; rfl, fun e => by cases e; rfl⟩
      · exact ⟨nofun, nofun⟩
      · exact ⟨nofun, nofun⟩
    have hrebuild : ((r.groupFor now d.header frag).joined d.header frag d.payload).rebuild t = .ok whole ↔
        (((r.groupFor now d.header frag).joined d.header frag d.payload).outHeader t).Encodable ∧
          whole = ((r.groupFor now d.header frag).joined d.header frag d.payload).whole.bytes := by
      have hpos : ((r.groupFor now d.header frag).joined d.header frag d.payload).pos = t := hpos
      rw [← hpos]
      exact Group.rebuild_eq_ok
    rw [h, hsome]
    refine hrebuild.trans ?_
    rw [outHeader_encodable_iff hg.sound (hg.sound.total t htotal)]
    constructor
    · rintro ⟨⟨hres, hlen⟩, hwhole⟩
      exact ⟨frag, t, hf, ⟨hres, hlen⟩, hwhole⟩
    · rintro ⟨frag', t', hf', hreb, hwhole⟩
      obtain ⟨rfl, rfl⟩ := hf.unique hf'
      exact ⟨⟨hreb.reserved, hreb.total⟩, hwhole⟩
  · constructor
    · intro hw
      rcases h with h | ⟨e, h⟩
      · rw [h] at hw
        cases hw
      · rw [h] at hw
        cases hw
    · rintro ⟨frag, t, hf, -⟩
      exact absurd hf (hn frag t)

/-- The packet that a call hands out decodes. -/
theorem Finishes.decode (hr : r.Kept) (wf : d.WF) (hf : Finishes r now d frag t)
    (hreb : (r.groupFor now d.header frag).Rebuildable d.header frag t) :
    Codec.decode ((r.groupFor now d.header frag).joined d.header frag d.payload).whole.bytes =
      .ok ((r.groupFor now d.header frag).joined d.header frag d.payload).whole := by
  have hg : ((r.groupFor now d.header frag).joined d.header frag d.payload).Kept :=
    (hr.groupFor wf).joined wf hf.accepted
  obtain ⟨htotal, hpos⟩ := (@advance_done_iff _ d.header _ _ t).mpr hf.complete
  have htotal : ((r.groupFor now d.header frag).joined d.header frag d.payload).total = some t := htotal
  have hpos : ((r.groupFor now d.header frag).joined d.header frag d.payload).pos = t := hpos
  have hfit := hg.sound.total t htotal
  subst hpos
  exact hg.decode_whole htotal ((outHeader_encodable_iff hg.sound hfit).mpr ⟨hreb.reserved, hreb.total⟩)

end

end IPv8Plus.Codec
