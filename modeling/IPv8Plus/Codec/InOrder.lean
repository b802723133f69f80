import IPv8Plus.Codec.FragmentRoundTrip

/-!
# Fragments one after the other

The fragments of a packet as a tunnel hands them over: in the order they were made, with nothing in between. With one
free slot at the start there is always room for them, and `fragment_inOrder` says what every one of them is answered.
-/

namespace IPv8Plus.Codec
open Lib

/-- The calls that insert packets one after the other. -/
def insertsAt (clock : Nat → Nat) (ds : List Decoded) : List Call := ds.mapIdx fun i d => .insert (clock i) d

section
variable {r : Reassembler} {key : GroupKey} {c : Call} {clock : Nat → Nat} {ds : List Decoded}

lemma insertsAt_cons (d : Decoded) :
    insertsAt clock (d :: ds) = .insert (clock 0) d :: insertsAt (fun i => clock (i + 1)) ds := List.mapIdx_cons

lemma insertsAt_eq_nil : insertsAt clock ds = [] ↔ ds = [] := List.mapIdx_eq_nil_iff

lemma mem_insertsAt (h : c ∈ insertsAt clock ds) : ∃ i < ds.length, ∃ d ∈ ds, c = .insert (clock i) d := by
  obtain ⟨i, hi, rfl⟩ := List.mem_mapIdx.mp h
  exact ⟨i, hi, ds[i], List.getElem_mem hi, rfl⟩

/-- The key of a call is that of its fragment. -/
lemma groupKey_of_packetFor {now : Nat} {d : Decoded} (h : (Call.insert now d).packetFor key ≠ none) {frag : FragmentInfo}
    (hc : checkFragment d.header d.payload = .ok frag) : groupKey d.header frag = key := by
  rw [checkFragment] at hc
  rw [Call.packetFor] at h
  cases hp : d.header.extHeaders.head?.bind FragmentInfo.parse with
  | none =>
    rw [hp] at hc
    cases hc
  | some frag' =>
    rw [hp] at h hc
    dsimp only at h hc
    split_ifs at hc
    cases hc
    by_contra hne
    rw [if_neg hne] at h
    exact h rfl

lemma size_erase_reap_le (r : Reassembler) (now : Nat) (key : GroupKey) :
    ((r.reap now).groups.erase key).size ≤ (r.groups.erase key).size := by
  have hfilter : (r.reap now).groups.erase key =
      (r.groups.erase key).filter fun _ g => now - g.created < reassemblyTimeout := by
    apply Std.ExtTreeMap.ext_getElem?
    intro k
    rw [Reassembler.reap, Std.ExtTreeMap.getElem?_erase, Std.ExtTreeMap.getElem?_filter',
      Std.ExtTreeMap.getElem?_filter', Std.ExtTreeMap.getElem?_erase]
    split
    · rfl
    · rfl
  rw [hfilter]
  exact Std.ExtTreeMap.size_filter_le_size

/-- A call for one group adds no other. -/
lemma size_erase_step_le (h : c.packetFor key ≠ none) :
    ((r.step c).1.groups.erase key).size ≤ (r.groups.erase key).size := by
  cases c with
  | reap now => exact absurd rfl h
  | insert now d =>
    show ((r.insert now d.header d.payload).1.groups.erase key).size ≤ _
    obtain ⟨e, -, hi⟩ | ⟨frag, hchk, ⟨-, hi⟩ | ⟨-, hi⟩⟩ := insert_cases r now d.header d.payload
    · rw [hi]
    · rw [hi]
      exact size_erase_reap_le r now key
    · rw [hi, groupKey_of_packetFor h hchk]
      refine le_trans (le_of_eq ?_) (size_erase_reap_le r now key)
      apply congrArg Std.ExtTreeMap.size
      apply Std.ExtTreeMap.ext_getElem?
      intro k
      rw [Std.ExtTreeMap.getElem?_erase, Std.ExtTreeMap.getElem?_erase]
      split
      · rfl
      · next hne =>
        cases ((r.groupFor now d.header frag).take d.header frag d.payload).1 with
        | none => exact (Std.ExtTreeMap.getElem?_erase).trans (if_neg hne)
        | some g => exact (Std.ExtTreeMap.getElem?_insert).trans (if_neg hne)

lemma size_erase_run_le {calls : List Call} (hall : ∀ c ∈ calls, c.packetFor key ≠ none) :
    ((run Reassembler.step r calls).1.groups.erase key).size ≤ (r.groups.erase key).size := by
  have hcalls : Along Reassembler.step (fun _ c => c.packetFor key ≠ none) r calls := along_of_forall hall
  exact invariant_run (I := fun r' => (r'.groups.erase key).size ≤ (r.groups.erase key).size)
    (fun r' c hr hc => (size_erase_step_le hc).trans hr) le_rfl hcalls

/-- If there is room for a group once, there is room for all its fragments. -/
lemma along_hasRoom {calls : List Call} (hall : ∀ c ∈ calls, c.packetFor key ≠ none)
    (h : (r.groups.erase key).size < maxGroups) :
    Along Reassembler.step (fun r c => c.packetFor key ≠ none → (r.groups.erase key).size < maxGroups) r calls := by
  have hcalls : Along Reassembler.step (fun _ c => c.packetFor key ≠ none) r calls := along_of_forall hall
  exact Along.of_invariant (I := fun r => (r.groups.erase key).size < maxGroups)
    (fun r c hr hc => lt_of_le_of_lt (size_erase_step_le hc) hr) (fun r c hr _ _ => hr) h hcalls

lemma packetsFor_insertsAt (hall : ∀ d ∈ ds, ∀ now, (Call.insert now d).packetFor key = some d) :
    packetsFor key (insertsAt clock ds) = ds := by
  induction ds generalizing clock with
  | nil => rfl
  | cons d ds ih =>
    obtain ⟨hd, hds⟩ := List.forall_mem_cons.mp hall
    rw [insertsAt_cons, packetsFor, List.filterMap_cons, hd]
    exact congrArg (d :: ·) (ih hds)

lemma answersFor_eq {α : Type} {calls : List Call} {answers : List α} (hall : ∀ c ∈ calls, c.packetFor key ≠ none)
    (hlen : answers.length = calls.length) : answersFor key calls answers = answers := by
  have hfilter : (calls.zip answers).filter (fun x => (x.1.packetFor key).isSome) = calls.zip answers := by
    apply List.filter_eq_self.mpr
    rintro ⟨c, a⟩ hmem
    exact Option.isSome_iff_ne_none.mpr (hall c (List.of_mem_zip hmem).1)
  rw [answersFor, hfilter, List.map_snd_zip hlen.le]

end

/-- What the receiver of a fragment sees: it is one, and nothing stands behind its payload. -/
structure IsFragment (packet : Bytes) (d : Decoded) : Prop where
  decodes : decode packet = .ok d
  flag : d.header.flags &&& flags.fragment ≠ 0
  whole : packet.length = d.consumed

/-- A packet that fits is not cut, and one that does not is cut in two pieces at least. -/
lemma length_fragments {packet : Bytes} {maxLen : Nat} {id : UInt32} {frags : List Bytes} {d : Decoded}
    (hd : decode packet = .ok d) (hwhole : d.consumed = packet.length) (h : fragmentPacket packet maxLen id = .ok frags) :
    frags = [packet] ∨ 1 < frags.length := by
  by_cases hfit : packet.length ≤ maxLen
  · refine .inl ?_
    rw [fragmentPacket, hd, Outcome.mapErr_ok, Outcome.ok_bind] at h
    dsimp only at h
    split_ifs at h
    cases h
    rfl
  cases fragmentPacket_cases hd h with
  | inl hone => exact .inl hone
  | inr hcut =>
    obtain ⟨n, hn, -, -, hmax, rfl, -⟩ := hcut
    obtain ⟨wf, -⟩ := decode_eq_ok.mp hd
    have hlen := wf.length
    rw [Decoded.consumed] at hwhole
    have hlong : n < d.payload.length := by omega
    have hne : d.payload ≠ [] := List.ne_nil_of_length_pos (by omega)
    have hrest : d.payload.drop n ≠ [] := by
      apply List.ne_nil_of_length_pos
      rw [List.length_drop]
      omega
    refine .inr ?_
    rw [List.length_map, cut_of_ne_nil hne, cut_of_ne_nil hrest, List.length_cons, List.length_cons]
    omega

lemma isFragment_fragmentBytes {d : Decoded} {id : UInt32} {n s : Nat} {b : Bytes} (wf : d.WF)
    (hfree : ∀ e ∈ d.header.extHeaders, e.extType ≠ .fragment) (h : (s, b) ∈ tiles n d.payload)
    (henc : (fragmentHeader d id (UInt16.ofNat (s / 8)) s b.length).Encodable) :
    IsFragment (fragmentBytes d id s b) (fragmentDecoded d id s b) := by
  have hshort : b.length < 2 ^ 16 := by
    have hl : b.length = min n (d.payload.length - s) := tiles_length h
    have hm := length_le_maxGroupBytes wf
    have hlt : maxGroupBytes < 2 ^ 16 := by decide
    omega
  refine ⟨decode_fragmentBytes wf hfree hshort henc, ?_, ?_⟩
  · show (fragmentHeader d id (UInt16.ofNat (s / 8)) s b.length).flags &&& flags.fragment ≠ 0
    rw [flags_fragmentHeader]
    exact read_set_ne_zero (by decide)
  · have hlen : (UInt16.ofNat b.length).toNat = b.length := UInt16.toNat_ofNat_of_lt' hshort
    unfold fragmentBytes
    rw [List.length_append, List.length_append, IPv8Header.length_headBytes, length_chainBytes]
    exact congrArg (_ + ·) hlen.symm

/-- The fragments of a packet, inserted as they were made, are answered nothing up to the last one, and that one the
packet. Afterwards there are no more groups than before. -/
theorem fragment_inOrder {hdr : IPv8Header} {payload p : Bytes} {d : Decoded} {maxLen : Nat} {id : UInt32}
    {frags : List Bytes} (hp : encode hdr payload = .ok p) (hd : decode p = .ok d) (hwhole : d.consumed = p.length)
    (hflag : d.header.flags &&& flags.fragment = 0) (h : fragmentPacket p maxLen id = .ok frags)
    (hlen : 1 < frags.length) {r : Reassembler}
    (hfresh : (d.header.srcAddr.toBytes, d.header.dstAddr.toBytes, id) ∉ r.groups) (hroom : r.groups.size < maxGroups)
    {clock : Nat → Nat} (hyoung : ∀ i < frags.length, ∀ j < frags.length, clock j - clock i < reassemblyTimeout) :
    ∃ ds, List.Forall₂ IsFragment frags ds ∧
      (run Reassembler.step r (insertsAt clock ds)).2 = List.replicate (frags.length - 1) (.ok none) ++ [.ok (some p)] ∧
      (run Reassembler.step r (insertsAt clock ds)).1.groups.size ≤ r.groups.size := by
  obtain ⟨wf, -⟩ := decode_eq_ok.mp hd
  obtain ⟨n, hn, h8, hfree, -, hfrags, henc⟩ := fragmentPacket_eq_ok hd h hlen
  have hpiece : ∀ q ∈ cut n hn 0 d.payload, IsFragment (fragmentBytes d id q.1 q.2) (fragmentDecoded d id q.1 q.2) := by
    intro q hq
    have htile : (q.1, q.2) ∈ tiles n d.payload := mem_cut_zero.mp hq
    exact isFragment_fragmentBytes wf hfree htile (henc q hq)
  have hpacket : ∀ q ∈ cut n hn 0 d.payload, ∀ now, (Call.insert now (fragmentDecoded d id q.1 q.2)).packetFor
      (d.header.srcAddr.toBytes, d.header.dstAddr.toBytes, id) = some (fragmentDecoded d id q.1 q.2) :=
    fun q hq now => packetFor_fragmentDecoded wf h8 (mem_cut_zero.mp hq) now
  generalize hds : (cut n hn 0 d.payload).map (fun q => fragmentDecoded d id q.1 q.2) = ds
  have hkey : ∀ fd ∈ ds, ∀ now, (Call.insert now fd).packetFor
      (d.header.srcAddr.toBytes, d.header.dstAddr.toBytes, id) = some fd := by
    rw [← hds]
    exact List.forall_mem_map.mpr hpacket
  have hcalls : ∀ c ∈ insertsAt clock ds,
      c.packetFor (d.header.srcAddr.toBytes, d.header.dstAddr.toBytes, id) ≠ none := by
    intro c hc
    obtain ⟨i, -, fd, hfd, rfl⟩ := mem_insertsAt hc
    rw [hkey fd hfd]
    exact Option.some_ne_none _
  have hforall : List.Forall₂ IsFragment frags ds := by
    rw [hfrags, ← hds, List.forall₂_map_left_iff, List.forall₂_map_right_iff]
    exact List.forall₂_same.mpr hpiece
  have hcount : ds.length = frags.length := hforall.length_eq.symm
  have hdecode : frags.map decode = ds.map .ok := by
    rw [hfrags, ← hds, List.map_map, List.map_map]
    exact List.map_congr_left fun q hq => (hpiece q hq).decodes
  have hsize : (r.groups.erase (d.header.srcAddr.toBytes, d.header.dstAddr.toBytes, id)).size < maxGroups :=
    lt_of_le_of_lt Std.ExtTreeMap.size_erase_le hroom
  obtain ⟨hanswers, hgone⟩ := answers_fragments hp hd hwhole hflag h hlen hdecode (r := r) rfl
    hfresh (List.Perm.of_eq (packetsFor_insertsAt hkey)) (by
      intro c hc _ c' hc'
      obtain ⟨i, hi, fd, -, rfl⟩ := mem_insertsAt hc
      obtain ⟨j, hj, fd', -, rfl⟩ := mem_insertsAt hc'
      exact hyoung i (hcount ▸ hi) j (hcount ▸ hj)) (along_hasRoom hcalls hsize)
  rw [answersFor_eq hcalls (length_run _ _ _)] at hanswers
  refine ⟨ds, hforall, hanswers, ?_⟩
  -- the group of the packet is gone, and no other was added
  rw [← Std.ExtTreeMap.contains_iff_mem] at hgone
  have hothers := size_erase_run_le (r := r) hcalls
  rw [Std.ExtTreeMap.size_erase, if_neg hgone] at hothers
  exact hothers.trans Std.ExtTreeMap.size_erase_le

end IPv8Plus.Codec
