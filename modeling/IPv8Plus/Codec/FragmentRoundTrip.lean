import IPv8Plus.Codec.ReassemblerSafety

/-!
# Fragmentation and reassembly

The fragments of a packet, inserted in any order and between any calls for other groups, give the packet
back. The invariant is that a group which has seen the pieces `R` of the payload has the longest prefix
they cover, keeps the others, knows the total once the last piece came and the chain once the first did.
-/

namespace IPv8Plus.Codec
open Lib

/-- The packet a call inserts into the group `key`. -/
def Call.packetFor (key : GroupKey) : Call → Option Decoded
  | .reap _ => none
  | .insert _ d =>
    match d.header.extHeaders.head?.bind FragmentInfo.parse with
    | none => none
    | some frag => if groupKey d.header frag = key then some d else none

/-- The clock of a call. -/
def Call.now : Call → Nat
  | .insert now _ => now
  | .reap now => now

/-- The packets the calls insert into one group. -/
def packetsFor (key : GroupKey) (calls : List Call) : List Decoded := calls.filterMap (Call.packetFor key)

/-- The answers to the calls for one group. -/
def answersFor {α : Type} (key : GroupKey) (calls : List Call) (answers : List α) : List α :=
  ((calls.zip answers).filter fun x => (x.1.packetFor key).isSome).map (·.2)

/-- Where the piece of a fragment starts. -/
def fragmentStart (d : Decoded) : Nat :=
  ((d.header.extHeaders.head?.bind FragmentInfo.parse).map (·.start)).getD 0

/-! ## One fragment of the packet -/

section
variable {d : Decoded} {id : UInt32} {n s : Nat} {b : Bytes}

lemma length_le_maxGroupBytes (wf : d.WF) : d.payload.length ≤ maxGroupBytes := by
  rw [wf.length]
  exact UInt16.le_iff_toNat_le.mp wf.payloadLen

/-- An offset of 13 bits is kept by the Fragment header. -/
lemma offset_fits {k : Nat} (h : k < 2 ^ 13) :
    (UInt16.ofNat k).toNat = k ∧ UInt16.ofNat k &&& 0x1FFF = UInt16.ofNat k := by
  have hk : (UInt16.ofNat k).toNat = k := UInt16.toNat_ofNat_of_lt' (lt_trans h (by decide))
  refine ⟨hk, ?_⟩
  apply UInt16.toNat_inj.mp
  rw [UInt16.toNat_and, hk, show (0x1FFF : UInt16).toNat = 2 ^ 13 - 1 from rfl, Nat.and_two_pow_sub_one_eq_mod,
    Nat.mod_eq_of_lt h]

/-- The offset of a piece is a number of 13 bits. -/
lemma tile_offset (wf : d.WF) (h8 : 8 ∣ n) (h : (s, b) ∈ tiles n d.payload) :
    s / 8 < 2 ^ 13 ∧ s / 8 * 8 = s := by
  have hlen := length_le_maxGroupBytes wf
  have hlt : s < d.payload.length := h.2.1
  have hmax : maxGroupBytes < 2 ^ 13 * 8 := by decide
  have hd : 8 ∣ s := Nat.dvd_trans h8 h.1
  exact ⟨by omega, Nat.div_mul_cancel hd⟩

lemma start_fragmentInfo (wf : d.WF) (h8 : 8 ∣ n) (h : (s, b) ∈ tiles n d.payload) :
    (fragmentInfo d id s b).start = s := by
  obtain ⟨hlt, hs⟩ := tile_offset wf h8 h
  rw [FragmentInfo.start, fragmentInfo, (offset_fits hlt).1]
  exact hs

/-- The Fragment header of a piece is read back. -/
lemma parse_fragmentDecoded (wf : d.WF) (h8 : 8 ∣ n) (h : (s, b) ∈ tiles n d.payload) :
    (fragmentDecoded d id s b).header.extHeaders.head?.bind FragmentInfo.parse =
      some (fragmentInfo d id s b) := by
  have hparse : FragmentInfo.parse (fragmentInfo d id s b).toExt = some (fragmentInfo d id s b) :=
    FragmentInfo.parse_toExt (offset_fits (tile_offset wf h8 h).1).2
  have hext : (fragmentDecoded d id s b).header.extHeaders =
      if s = 0 then (fragmentInfo d id s b).toExt :: d.header.extHeaders else [(fragmentInfo d id s b).toExt] :=
    extHeaders_fragmentHeader
  rw [hext]
  split
  · exact hparse
  · exact hparse

/-- A piece passes the checks on a single fragment. -/
lemma checkFragment_fragmentDecoded (wf : d.WF) (h8 : 8 ∣ n) (h : (s, b) ∈ tiles n d.payload) :
    checkFragment (fragmentDecoded d id s b).header b = .ok (fragmentInfo d id s b) := by
  have hext : (fragmentDecoded d id s b).header.extHeaders =
      if s = 0 then (fragmentInfo d id s b).toExt :: d.header.extHeaders else [(fragmentInfo d id s b).toExt] :=
    extHeaders_fragmentHeader
  have hflag : (fragmentDecoded d id s b).header.flags &&& flags.fragment ≠ 0 := by
    have e : (fragmentDecoded d id s b).header.flags = _ := flags_fragmentHeader
    rw [e]
    exact read_set_ne_zero (by decide)
  have htype : (fragmentDecoded d id s b).header.extHeaders.head?.map (·.extType) = some .fragment := by
    rw [hext]
    split <;> rfl
  have hstart : ¬ 0x1FFF * 8 < (fragmentInfo d id s b).start := by
    rw [start_fragmentInfo wf h8 h]
    obtain ⟨hlt, hs⟩ := tile_offset wf h8 h
    omega
  have halign : ¬ ((fragmentInfo d id s b).more = true ∧ b.length % 8 ≠ 0) := by
    rintro ⟨hm, hb⟩
    have hm : s + b.length < d.payload.length := of_decide_eq_true hm
    have hlen : b.length = min n (d.payload.length - s) := tiles_length h
    have hn : b.length = n := by omega
    rw [hn] at hb
    exact hb (Nat.mod_eq_zero_of_dvd h8)
  rw [checkFragment, parse_fragmentDecoded wf h8 h]
  simp only [htype, ne_eq, not_true, if_false, if_neg hstart, if_neg halign]
  rw [if_neg]
  simpa using hflag

lemma packetFor_fragmentDecoded (wf : d.WF) (h8 : 8 ∣ n) (h : (s, b) ∈ tiles n d.payload) (now : Nat) :
    (Call.insert now (fragmentDecoded d id s b)).packetFor
      (d.header.srcAddr.toBytes, d.header.dstAddr.toBytes, id) = some (fragmentDecoded d id s b) := by
  rw [Call.packetFor, parse_fragmentDecoded wf h8 h]
  exact if_pos rfl

end

/-! ## The group of the packet -/

/-- The group has seen the pieces `R` of the packet `d`, cut into pieces of length `n`. -/
structure Group.Collects (g : Group) (d : Decoded) (n : Nat) (R : Set (Nat × Bytes)) : Prop where
  received : Received n d.payload R g.chunks g.pos g.payload
  version : g.version = d.header.version
  compat : g.minCompatVer = d.header.minCompatVer
  hop : g.hopLimit = d.header.hopLimit
  src : g.src = d.header.srcAddr
  dst : g.dst = d.header.dstAddr
  flags : g.flags = d.header.flags &&& ~~~(flags.fragment ||| flags.hasExtension)
  chain : g.origExt = some d.header.extHeaders ∨ g.origExt = none ∧ ∀ b, (0, b) ∉ R
  total : g.total = some d.payload.length ∨
    g.total = none ∧ ∀ p ∈ R, p.1 + p.2.length ≠ d.payload.length

section
variable {d : Decoded} {id : UInt32} {n s : Nat} {b : Bytes} {g : Group} {R : Set (Nat × Bytes)}

/-- The group keeps the packet's flags without the two bits. -/
lemma clear_flags_fragmentHeader :
    (fragmentDecoded d id s b).header.flags &&& ~~~(flags.fragment ||| flags.hasExtension) =
      d.header.flags &&& ~~~(flags.fragment ||| flags.hasExtension) := by
  have e : (fragmentDecoded d id s b).header.flags = _ := flags_fragmentHeader
  rw [e, and_or_distrib, and_or_distrib, UInt16.and_assoc,
    show ~~~(flags.hasExtension ||| flags.fragment) &&& ~~~(flags.fragment ||| flags.hasExtension) =
      ~~~(flags.fragment ||| flags.hasExtension) from by decide,
    show flags.hasExtension &&& ~~~(flags.fragment ||| flags.hasExtension) = 0 from by decide,
    show flags.fragment &&& ~~~(flags.fragment ||| flags.hasExtension) = 0 from by decide,
    UInt16.or_zero, UInt16.or_zero]

/-- The group that any fragment of the packet opens. -/
lemma Group.new_collects (hn : 0 < n) (hne : d.payload ≠ []) (now : Nat) :
    (Group.new (fragmentDecoded d id s b).header now).Collects d n ∅ :=
  ⟨received_empty hn hne, rfl, rfl, rfl, rfl, rfl, clear_flags_fragmentHeader,
    .inr ⟨rfl, fun _ => Set.notMem_empty _⟩, .inr ⟨rfl, fun _ hp => absurd hp (Set.notMem_empty _)⟩⟩

/-- A piece that is new to the group is not refused. -/
lemma Group.Collects.refuses (hg : g.Collects d n R) (wf : d.WF) (h8 : 8 ∣ n)
    (h : (s, b) ∈ tiles n d.payload) (hnew : (s, b) ∉ R) :
    g.refuses (fragmentInfo d id s b) b.length = none := by
  have hstart : (fragmentInfo d id s b).start = s := start_fragmentInfo wf h8 h
  obtain ⟨hpos, -, -⟩ := hg.received.insert h hnew
  have hlen : b.length = min n (d.payload.length - s) := tiles_length h
  have hlt : s < d.payload.length := h.2.1
  have hmax := length_le_maxGroupBytes wf
  have hbeyond : g.total.any (· < s + b.length) = false := by
    cases hg.total with
    | inl e =>
      rw [e]
      exact decide_eq_false (by omega)
    | inr e => rw [e.1]; rfl
  rw [Group.refuses, hstart, if_neg (not_lt.mpr hpos), hbeyond, if_neg Bool.false_ne_true]
  cases hm : (fragmentInfo d id s b).more with
  | true => rfl
  | false =>
    have hend : s + b.length = d.payload.length := by
      have hm : ¬ s + b.length < d.payload.length := of_decide_eq_false hm
      omega
    have hother : g.total.any (· ≠ s + b.length) = false := by
      cases hg.total with
      | inl e =>
        rw [e, hend]
        exact decide_eq_false (not_not.mpr rfl)
      | inr e => rw [e.1]; rfl
    rw [if_neg Bool.false_ne_true, if_neg (by omega), hother, if_neg Bool.false_ne_true]

/-- The group after a new piece was buffered and what it allows was moved to the prefix. -/
lemma Group.Collects.buffer (hg : g.Collects d n R) (wf : d.WF) (h8 : 8 ∣ n)
    (h : (s, b) ∈ tiles n d.payload) (hnew : (s, b) ∉ R) :
    ((g.buffer (fragmentDecoded d id s b).header (fragmentInfo d id s b) b).advance).Collects d n
      (insert (s, b) R) := by
  have hstart : (fragmentInfo d id s b).start = s := start_fragmentInfo wf h8 h
  obtain ⟨-, -, hrec⟩ := hg.received.insert h hnew
  have hext : (fragmentDecoded d id s b).header.extHeaders =
      if s = 0 then (fragmentInfo d id s b).toExt :: d.header.extHeaders else [(fragmentInfo d id s b).toExt] :=
    extHeaders_fragmentHeader
  refine ⟨?_, hg.version, hg.compat, hg.hop, hg.src, hg.dst, hg.flags, ?_, ?_⟩
  · have hdr := drain_received hrec
    show Received n d.payload _ (drain (g.chunks.insert (fragmentInfo d id s b).start b) g.pos g.payload).1
      (drain (g.chunks.insert (fragmentInfo d id s b).start b) g.pos g.payload).2.1
      (drain (g.chunks.insert (fragmentInfo d id s b).start b) g.pos g.payload).2.2
    rw [hstart]
    exact hdr
  · show g.chainWith (fragmentDecoded d id s b).header (fragmentInfo d id s b) = _ ∨
      g.chainWith (fragmentDecoded d id s b).header (fragmentInfo d id s b) = _ ∧ _
    rw [Group.chainWith, hstart]
    cases hg.chain with
    | inl e =>
      rw [e]
      exact .inl (if_neg fun hh => by cases hh.2)
    | inr e =>
      rw [e.1]
      cases Nat.decEq s 0 with
      | isTrue hs =>
        refine .inl ?_
        rw [if_pos ⟨hs, rfl⟩, hext, if_pos hs]
        rfl
      | isFalse hs =>
        refine .inr ⟨if_neg fun hh => hs hh.1, fun b' hb' => ?_⟩
        cases hb' with
        | inl hb' => exact hs (congrArg Prod.fst hb').symm
        | inr hb' => exact e.2 b' hb'
  · show g.totalWith (fragmentInfo d id s b) b.length = _ ∨
      g.totalWith (fragmentInfo d id s b) b.length = _ ∧ _
    rw [Group.totalWith, hstart]
    cases hm : (fragmentInfo d id s b).more with
    | false =>
      have hm : ¬ s + b.length < d.payload.length := of_decide_eq_false hm
      have hlen : b.length = min n (d.payload.length - s) := tiles_length h
      have hlt : s < d.payload.length := h.2.1
      refine .inl ?_
      rw [if_neg Bool.false_ne_true]
      congr 1
      omega
    | true =>
      have hm : s + b.length < d.payload.length := of_decide_eq_true hm
      rw [if_pos rfl]
      cases hg.total with
      | inl e => exact .inl e
      | inr e =>
        refine .inr ⟨e.1, fun p hp => ?_⟩
        cases hp with
        | inl hp =>
          rw [hp]
          exact Nat.ne_of_lt hm
        | inr hp => exact e.2 p hp

/-- The header a complete group is rebuilt with is the header of the packet. -/
lemma Group.Collects.outHeader (hg : g.Collects d n R) (wf : d.WF) (hflag : d.header.flags &&& flags.fragment = 0)
    (hext : g.origExt = some d.header.extHeaders) : g.outHeader d.payload.length = d.header := by
  have hlen : UInt16.ofNat d.payload.length = d.header.payloadLen := by
    rw [wf.length, UInt16.ofNat_toNat]
  have hclear : d.header.flags &&& ~~~(flags.fragment ||| flags.hasExtension) =
      d.header.flags &&& ~~~flags.hasExtension := by
    rw [show ~~~(flags.fragment ||| flags.hasExtension) = ~~~flags.fragment &&& ~~~flags.hasExtension from by decide,
      ← UInt16.and_assoc, clear_of_read_eq_zero hflag]
  have hflags : (if d.header.extHeaders.isEmpty then
        (d.header.flags &&& ~~~flags.hasExtension) &&& ~~~flags.hasExtension
      else (d.header.flags &&& ~~~flags.hasExtension) ||| flags.hasExtension) = d.header.flags := by
    cases hc : d.header.extHeaders with
    | nil =>
      have hx : d.header.flags &&& flags.hasExtension = 0 := by
        by_contra hne
        exact wf.flag.mp hne hc
      rw [if_pos List.isEmpty_nil, clear_of_read_eq_zero hx, clear_of_read_eq_zero hx]
    | cons e chain =>
      have hx : d.header.flags &&& flags.hasExtension ≠ 0 := wf.flag.mpr (by rw [hc]; exact List.cons_ne_nil _ _)
      rw [if_neg (by exact Bool.false_ne_true)]
      have hbit : d.header.flags &&& flags.hasExtension = flags.hasExtension := read_bit 6 (by decide) hx
      have hread := clear_or_read d.header.flags flags.hasExtension
      rwa [hbit] at hread
  have hnext := wf.next
  rw [Group.outHeader, hg.version, hg.compat, hg.flags, hg.hop, hg.src, hg.dst, hext, hlen, hclear]
  simp only [IPv8Header.attachExtHeaders, Option.getD_some]
  rw [hflags, ← hnext]

/-- A new piece completes the packet if it is the last one, and is kept otherwise. -/
theorem Group.Collects.take (hg : g.Collects d n R) (wf : d.WF) (hres : Flags.reservedOk d.header.flags = true)
    (hflag : d.header.flags &&& flags.fragment = 0) (h8 : 8 ∣ n) (h : (s, b) ∈ tiles n d.payload)
    (hnew : (s, b) ∉ R) :
    (insert (s, b) R = tiles n d.payload ∧
      g.take (fragmentDecoded d id s b).header (fragmentInfo d id s b) b =
        (none, .ok (some (d.header.headBytes 0 ++ chainBytes d.header.extHeaders ++ d.payload)))) ∨
    insert (s, b) R ≠ tiles n d.payload ∧
      ∃ g', g.take (fragmentDecoded d id s b).header (fragmentInfo d id s b) b = (some g', .ok none) ∧
        g'.Collects d n (insert (s, b) R) ∧ g'.created = g.created := by
  have hc : ((g.buffer (fragmentDecoded d id s b).header (fragmentInfo d id s b) b).advance).Collects d n
      (insert (s, b) R) := hg.buffer wf h8 h hnew
  have hstuck : ((g.buffer (fragmentDecoded d id s b).header (fragmentInfo d id s b) b).advance).chunks[
      ((g.buffer (fragmentDecoded d id s b).header (fragmentInfo d id s b) b).advance).pos]? = none :=
    drain_stuck _ _ _
  have hcomplete := hc.received.complete hstuck
  have hne : d.payload ≠ [] := List.ne_nil_of_length_pos (Nat.zero_lt_of_lt h.2.1)
  have hfresh : (fragmentInfo d id s b).start ∉ g.chunks := by
    rw [start_fragmentInfo wf h8 h, Std.ExtTreeMap.mem_iff_isSome_getElem?, (hg.received.insert h hnew).2.1]
    exact Bool.false_ne_true
  rw [Group.take, hg.refuses wf h8 h hnew]
  dsimp only
  rw [if_neg hfresh]
  cases Classical.em (insert (s, b) R = tiles n d.payload) with
  | inl hall =>
    have hpos := hcomplete.mpr hall
    have htotal : (g.buffer (fragmentDecoded d id s b).header (fragmentInfo d id s b) b).advance.total =
        some d.payload.length := by
      cases hc.total with
      | inl e => exact e
      | inr e =>
        obtain ⟨p, hp, hend⟩ := exists_last_tile hc.received.unit hne
        rw [← hall] at hp
        exact absurd hend (e.2 p hp)
    have hext : (g.buffer (fragmentDecoded d id s b).header (fragmentInfo d id s b) b).advance.origExt =
        some d.header.extHeaders := by
      cases hc.chain with
      | inl e => exact e
      | inr e =>
        have hz := zero_mem_tiles (n := n) hne
        rw [← hall] at hz
        exact absurd hz (e.2 _)
    have hpay := hc.received.payload
    rw [hpos, List.take_length] at hpay
    have henc := (encode_eq_ok.mp (encode_decoded wf hres)).1
    refine .inl ⟨hall, ?_⟩
    rw [htotal, hpos, if_pos rfl, Group.rebuild, hc.outHeader wf hflag hext, hpay,
      encodeHeader_eq_ok.mpr ⟨henc, rfl⟩]
    rfl
  | inr hall =>
    refine .inr ⟨hall, _, ?_, hc, rfl⟩
    rw [if_neg]
    intro e
    have hpos : (g.buffer (fragmentDecoded d id s b).header (fragmentInfo d id s b) b).advance.pos =
        d.payload.length := by
      cases hc.total with
      | inl e' =>
        rw [e'] at e
        exact (Option.some.inj e).symm
      | inr e' =>
        rw [e'.1] at e
        cases e
    exact hall (hcomplete.mp hpos)

end

/-! ## A run with the fragments of the packet -/

/-- A call for another group leaves the group as it is, unless it is too old. -/
lemma step_frame {r : Reassembler} {key : GroupKey} {c : Call} (h : c.packetFor key = none) :
    (r.step c).1.groups[key]? = r.groups[key]? ∨
      (r.step c).1.groups[key]? = (r.reap c.now).groups[key]? := by
  cases c with
  | reap now => exact .inr rfl
  | insert now d =>
    show (r.insert now d.header d.payload).1.groups[key]? = _ ∨
      (r.insert now d.header d.payload).1.groups[key]? = (r.reap now).groups[key]?
    obtain ⟨e, -, hi⟩ | ⟨frag, hchk, ⟨-, hi⟩ | ⟨-, hi⟩⟩ := insert_cases r now d.header d.payload
    · rw [hi]
      exact .inl rfl
    · rw [hi]
      exact .inr rfl
    · rw [hi]
      refine .inr ?_
      have hkey : groupKey d.header frag ≠ key := by
        intro e
        rw [Call.packetFor] at h
        rw [checkFragment] at hchk
        cases hp : d.header.extHeaders.head?.bind FragmentInfo.parse with
        | none =>
          rw [hp] at hchk
          cases hchk
        | some frag' =>
          rw [hp] at h hchk
          dsimp only at h hchk
          split_ifs at hchk
          cases hchk
          rw [if_pos e] at h
          cases h
      cases ((r.groupFor now d.header frag).take d.header frag d.payload).1 with
      | none => exact (Std.ExtTreeMap.getElem?_erase).trans (if_neg fun e => hkey (Std.LawfulEqCmp.eq_of_compare e))
      | some g => exact (Std.ExtTreeMap.getElem?_insert).trans (if_neg fun e => hkey (Std.LawfulEqCmp.eq_of_compare e))

/-- The answers to the missing pieces: the last one gets the packet. -/
def expectedAnswers (packet : Bytes) (missing : List (Nat × Bytes)) :
    List (Outcome ReassemblyError (Option Bytes)) :=
  match missing with
  | [] => []
  | _ :: rest => List.replicate rest.length (.ok none) ++ [.ok (some packet)]

/-- No group, before the first piece and after the last one; in between a group that is young for all
calls to come. -/
def Collecting (d : Decoded) (n : Nat) (key : GroupKey) (r : Reassembler) (R : Set (Nat × Bytes))
    (calls : List Call) : Prop :=
  (R = ∅ ∨ R = tiles n d.payload) ∧ r.groups[key]? = none ∨
    R ≠ tiles n d.payload ∧ ∃ g, r.groups[key]? = some g ∧ g.Collects d n R ∧ ∀ c ∈ calls, c.now - g.created < reassemblyTimeout

section
variable {d : Decoded} {id : UInt32} {n : Nat} {key : GroupKey} {r : Reassembler} {R : Set (Nat × Bytes)}

/-- A call for another group. -/
lemma Collecting.other {c : Call} {calls : List Call} (hs : Collecting d n key r R (c :: calls))
    (h : c.packetFor key = none) : Collecting d n key (r.step c).1 R calls := by
  cases hs with
  | inl hs =>
    refine .inl ⟨hs.1, ?_⟩
    obtain e | e := step_frame (r := r) h
    · rw [e]
      exact hs.2
    · rw [e]
      cases e' : (r.reap c.now).groups[key]? with
      | none => rfl
      | some g =>
        have hg := (getElem?_reap.mp e').1
        rw [hs.2] at hg
        cases hg
  | inr hs =>
    obtain ⟨hall, g, hg, hc, hyoung⟩ := hs
    refine .inr ⟨hall, g, ?_, hc, fun c' hc' => hyoung c' (List.mem_cons_of_mem _ hc')⟩
    obtain e | e := step_frame (r := r) h
    · rw [e]
      exact hg
    · rw [e]
      exact getElem?_reap.mpr ⟨hg, hyoung c List.mem_cons_self⟩

/-- A call with a missing piece. -/
lemma Collecting.piece {now s : Nat} {b : Bytes} {calls : List Call} (wf : d.WF)
    (hres : Flags.reservedOk d.header.flags = true) (hflag : d.header.flags &&& flags.fragment = 0)
    (hn : 0 < n) (h8 : 8 ∣ n) (hkey : key = (d.header.srcAddr.toBytes, d.header.dstAddr.toBytes, id))
    (hs : Collecting d n key r R (.insert now (fragmentDecoded d id s b) :: calls))
    (hroom : (r.groups.erase key).size < maxGroups) (hyoung : ∀ c ∈ calls, c.now - now < reassemblyTimeout)
    (h : (s, b) ∈ tiles n d.payload) (hnew : (s, b) ∉ R) :
    (insert (s, b) R = tiles n d.payload ∧
      (r.step (.insert now (fragmentDecoded d id s b))).2 =
        .ok (some (d.header.headBytes 0 ++ chainBytes d.header.extHeaders ++ d.payload)) ∨
      insert (s, b) R ≠ tiles n d.payload ∧
        (r.step (.insert now (fragmentDecoded d id s b))).2 = .ok none) ∧
    Collecting d n key (r.step (.insert now (fragmentDecoded d id s b))).1 (insert (s, b) R) calls := by
  have hne : d.payload ≠ [] := List.ne_nil_of_length_pos (Nat.zero_lt_of_lt h.2.1)
  have hchk : checkFragment (fragmentDecoded d id s b).header b = .ok (fragmentInfo d id s b) :=
    checkFragment_fragmentDecoded wf h8 h
  have hgk : groupKey (fragmentDecoded d id s b).header (fragmentInfo d id s b) = key := hkey.symm
  have hready : r.HasRoom now key ∧
      (r.groupFor now (fragmentDecoded d id s b).header (fragmentInfo d id s b)).Collects d n R ∧
      ∀ c ∈ calls, c.now - (r.groupFor now (fragmentDecoded d id s b).header (fragmentInfo d id s b)).created <
        reassemblyTimeout := by
    rw [Reassembler.groupFor, hgk]
    cases hs with
    | inl hs =>
      have hnone : (r.reap now).groups[key]? = none := by
        cases e : (r.reap now).groups[key]? with
        | none => rfl
        | some g =>
          have hg := (getElem?_reap.mp e).1
          rw [hs.2] at hg
          cases hg
      have hR : R = ∅ := by
        cases hs.1 with
        | inl hR => exact hR
        | inr hR => exact absurd (hR ▸ h) hnew
      rw [hnone, hR]
      refine ⟨.inr ?_, Group.new_collects hn hne now, hyoung⟩
      have hsize : (r.groups.erase key).size = r.groups.size := by
        rw [Std.ExtTreeMap.size_erase, if_neg]
        rw [Std.ExtTreeMap.contains_eq_isSome_getElem?, hs.2]
        exact Bool.false_ne_true
      exact lt_of_le_of_lt (size_reap_le r now) (hsize ▸ hroom)
    | inr hs =>
      obtain ⟨-, g, hg, hc, hold⟩ := hs
      have hsome : (r.reap now).groups[key]? = some g :=
        getElem?_reap.mpr ⟨hg, hold (.insert now _) List.mem_cons_self⟩
      rw [hsome]
      refine ⟨.inl ?_, hc, fun c hc' => hold c (List.mem_cons_of_mem _ hc')⟩
      rw [Std.ExtTreeMap.mem_iff_isSome_getElem?, hsome]
      rfl
  obtain ⟨hhas, hcol, hold⟩ := hready
  have hstep : r.step (.insert now (fragmentDecoded d id s b)) =
      r.insert now (fragmentDecoded d id s b).header b := rfl
  obtain ⟨e, hchk', -⟩ | ⟨frag, hchk', hi⟩ := insert_cases r now (fragmentDecoded d id s b).header b
  · rw [hchk] at hchk'
    cases hchk'
  rw [hchk] at hchk'
  cases hchk'
  rw [hgk] at hi
  obtain ⟨hno, -⟩ | ⟨-, hi⟩ := hi
  · exact absurd hhas hno
  rw [hstep, hi]
  obtain ⟨hall, ht⟩ | ⟨hall, g', ht, hcol', hcreated⟩ := hcol.take wf hres hflag h8 h hnew
  · rw [ht]
    exact ⟨.inl ⟨hall, rfl⟩, .inl ⟨.inr hall, Std.ExtTreeMap.getElem?_erase_self⟩⟩
  · rw [ht]
    refine ⟨.inr ⟨hall, rfl⟩, .inr ⟨hall, g', Std.ExtTreeMap.getElem?_insert_self, hcol', ?_⟩⟩
    rw [hcreated]
    exact hold

lemma packetFor_eq_some {c : Call} {d' : Decoded} (h : c.packetFor key = some d') :
    ∃ now, c = .insert now d' := by
  cases c with
  | reap now => cases h
  | insert now d =>
    rw [Call.packetFor] at h
    split at h
    · cases h
    · split_ifs at h
      cases h
      exact ⟨now, rfl⟩

/-- The run lemma: the missing pieces come in any order between other calls. -/
theorem run_collecting (wf : d.WF) (hres : Flags.reservedOk d.header.flags = true)
    (hflag : d.header.flags &&& flags.fragment = 0) (hn : 0 < n) (h8 : 8 ∣ n)
    (hkey : key = (d.header.srcAddr.toBytes, d.header.dstAddr.toBytes, id)) (calls : List Call) :
    ∀ (r : Reassembler) (R : Set (Nat × Bytes)) (missing : List (Nat × Bytes)), missing.Nodup →
      R ⊆ tiles n d.payload → (∀ p, p ∈ missing ↔ p ∈ tiles n d.payload ∧ p ∉ R) →
      Collecting d n key r R calls →
      (packetsFor key calls).Perm (missing.map fun p => fragmentDecoded d id p.1 p.2) →
      (∀ c ∈ calls, c.packetFor key ≠ none → ∀ c' ∈ calls, c'.now - c.now < reassemblyTimeout) →
      Along Reassembler.step (fun r c => c.packetFor key ≠ none → (r.groups.erase key).size < maxGroups) r calls →
      answersFor key calls (run Reassembler.step r calls).2 =
          expectedAnswers (d.header.headBytes 0 ++ chainBytes d.header.extHeaders ++ d.payload) missing ∧
        Collecting d n key (run Reassembler.step r calls).1 (tiles n d.payload) [] := by
  induction calls with
  | nil =>
    intro r R missing _ hsub hmiss hs hperm _ _
    have hnil : missing = [] := by
      cases missing with
      | nil => rfl
      | cons p missing => exact absurd hperm.length_eq (by simp [packetsFor])
    have hR : R = tiles n d.payload := by
      refine Set.Subset.antisymm hsub fun p hp => ?_
      by_contra hnot
      have hm := (hmiss p).mpr ⟨hp, hnot⟩
      rw [hnil] at hm
      cases hm
    rw [hnil, ← hR]
    exact ⟨rfl, hs⟩
  | cons c calls ih =>
    intro r R missing hnodup hsub hmiss hs hperm hyoung hroom
    have hyoung' : ∀ x ∈ calls, x.packetFor key ≠ none → ∀ y ∈ calls, y.now - x.now < reassemblyTimeout :=
      fun x hx hp y hy => hyoung x (List.mem_cons_of_mem _ hx) hp y (List.mem_cons_of_mem _ hy)
    rw [run_cons]
    cases hp : c.packetFor key with
    | none =>
      have hperm' : (packetsFor key calls).Perm (missing.map fun p => fragmentDecoded d id p.1 p.2) := by
        rwa [packetsFor, List.filterMap_cons, hp] at hperm
      obtain ⟨hans, hfin⟩ := ih _ R missing hnodup hsub hmiss (hs.other hp) hperm' hyoung' hroom.2
      refine ⟨?_, hfin⟩
      rw [answersFor, List.zip_cons_cons, List.filter_cons, if_neg (by rw [hp]; exact Bool.false_ne_true)]
      exact hans
    | some d' =>
      obtain ⟨now, rfl⟩ := packetFor_eq_some hp
      rw [packetsFor, List.filterMap_cons, hp] at hperm
      -- the packet of this call is one of the missing pieces
      obtain ⟨⟨s, b⟩, hm, rfl⟩ := List.mem_map.mp (hperm.subset List.mem_cons_self)
      obtain ⟨htile, hnew⟩ := (hmiss (s, b)).mp hm
      have hsplit := List.perm_cons_erase hm
      have hperm' : (packetsFor key calls).Perm
          ((missing.erase (s, b)).map fun p => fragmentDecoded d id p.1 p.2) :=
        (hperm.trans (hsplit.map _)).cons_inv
      have hne : (Call.insert now (fragmentDecoded d id s b)).packetFor key ≠ none := by
        rw [hp]
        exact Option.some_ne_none _
      obtain ⟨hans, hs'⟩ := hs.piece wf hres hflag hn h8 hkey (hroom.1 hne)
        (fun c hc => hyoung _ List.mem_cons_self hne c (List.mem_cons_of_mem _ hc)) htile hnew
      have hmiss' : ∀ p, p ∈ missing.erase (s, b) ↔ p ∈ tiles n d.payload ∧ p ∉ insert (s, b) R := by
        intro p
        rw [hnodup.mem_erase_iff, hmiss, Set.mem_insert_iff, not_or]
        exact ⟨fun h => ⟨h.2.1, h.1, h.2.2⟩, fun h => ⟨h.2.1, h.1, h.2.2⟩⟩
      obtain ⟨hrest, hfin⟩ := ih _ _ (missing.erase (s, b)) (hnodup.erase _) (Set.insert_subset htile hsub)
        hmiss' hs' hperm' hyoung' hroom.2
      refine ⟨?_, hfin⟩
      have hcons : ∀ (x : Outcome ReassemblyError (Option Bytes)) xs,
          answersFor key (.insert now (fragmentDecoded d id s b) :: calls) (x :: xs) =
            x :: answersFor key calls xs := by
        intro x xs
        rw [answersFor, List.zip_cons_cons, List.filter_cons, if_pos (by rw [hp]; rfl), List.map_cons]
        rfl
      have hlen : missing.length = (missing.erase (s, b)).length + 1 := hsplit.length_eq
      rw [hcons, hrest]
      cases he : missing.erase (s, b) with
      | nil =>
        rw [he] at hlen
        obtain ⟨p, hone⟩ := List.length_eq_one_iff.mp hlen
        obtain ⟨-, hx⟩ | ⟨hall, -⟩ := hans
        · rw [hx, hone]
          rfl
        · -- nothing is missing any more
          refine absurd (Set.Subset.antisymm (Set.insert_subset htile hsub) fun p hp => ?_) hall
          by_contra hnot
          have hmem := (hmiss' p).mpr ⟨hp, hnot⟩
          rw [he] at hmem
          cases hmem
      | cons q rest =>
        obtain ⟨hall, -⟩ | ⟨-, hx⟩ := hans
        · have hmem := (hmiss' q).mp (by rw [he]; exact List.mem_cons_self)
          exact absurd (hall ▸ hmem.1) hmem.2
        · cases missing with
          | nil => cases hlen
          | cons p missing =>
            rw [he, List.length_cons, List.length_cons] at hlen
            rw [hx, expectedAnswers, expectedAnswers, show missing.length = rest.length + 1 by omega,
              List.replicate_succ]
            rfl

end

/-! ## The round trip -/

/-- A packet whose extensions have the form `ExtensionHeader::new` gives them decodes to its last byte. -/
lemma consumed_of_wf {hdr : IPv8Header} {payload p : Bytes} {d : Decoded} (hp : encode hdr payload = .ok p)
    (hd : decode p = .ok d) (hwf : ∀ e ∈ hdr.extHeaders, e.WF) : d.consumed = p.length := by
  obtain ⟨enc, hl, rfl⟩ := encode_eq_ok.mp hp
  obtain ⟨wf, pad, rest, e⟩ := decode_eq_ok.mp hd
  rw [List.append_assoc] at e
  have hnext : some hdr.nextHeader = some d.header.nextHeader := congrArg (·[6]?) e
  have hpl : (.ok hdr.payloadLen : Outcome DecodeError UInt16) = .ok d.header.payloadLen := by
    have h := congrArg (readU16 (ε := DecodeError) · 3) e
    have h1 : (.ok (ofBe16 (be16 hdr.payloadLen)) : Outcome DecodeError UInt16) =
        .ok (ofBe16 (be16 d.header.payloadLen)) := h
    rwa [ofBe16_be16, ofBe16_be16] at h1
  have hfirst : firstWire hdr.extHeaders = firstWire d.header.extHeaders := by
    rw [← enc.next, ← wf.next]
    exact Option.some.inj hnext
  have hbody := (List.append_inj e (by simp only [IPv8Header.length_headBytes])).2
  have hchain := chainBytes_inj hwf wf.chain hfirst hbody
  rw [Decoded.consumed, ← hchain, ← Outcome.ok.inj hpl]
  simp only [List.length_append, IPv8Header.length_headBytes, length_chainBytes, hl]

/-- An encoded packet that decodes to its last byte is head, chain and payload. -/
lemma whole_packet {hdr : IPv8Header} {payload p : Bytes} {d : Decoded} (hp : encode hdr payload = .ok p)
    (hd : decode p = .ok d) (hwhole : d.consumed = p.length) :
    Flags.reservedOk d.header.flags = true ∧
      p = d.header.headBytes 0 ++ chainBytes d.header.extHeaders ++ d.payload := by
  obtain ⟨enc, -, hbytes⟩ := encode_eq_ok.mp hp
  obtain ⟨wf, pad, rest, e⟩ := decode_eq_ok.mp hd
  have hflags : (Outcome.ok hdr.flags : Outcome DecodeError UInt16) = .ok d.header.flags := by
    rw [← readU16_headBytes hdr 0 (chainBytes hdr.extHeaders ++ payload), ← List.append_assoc, ← hbytes, e,
      readU16_headBytes]
  have hpad : some (0 : UInt8) = some pad := by
    have h0 : (hdr.headBytes 0 ++ chainBytes hdr.extHeaders ++ payload)[39]? = some 0 := by
      rw [List.append_assoc]
      rfl
    rw [← h0, ← hbytes, e]
    rfl
  have hrest : rest = [] := by
    have hlen := congrArg List.length e
    have hpl := wf.length
    rw [← hwhole, Decoded.consumed] at hlen
    simp only [List.length_append, IPv8Header.length_headBytes, length_chainBytes] at hlen
    exact List.eq_nil_of_length_eq_zero (by omega)
  cases hpad
  refine ⟨?_, ?_⟩
  · rw [← Outcome.ok.inj hflags]
    exact enc.reserved
  · rw [e, hrest, List.append_nil, List.append_assoc]

/-- The fragments of the packet `p` fit into the limit, decode, tile the payload, and give the packet back
when they are inserted in any order between other calls: each insert but the last waits, the last returns
`p`, and no group is left. The other calls leave a free slot, and no call comes when the group is too old. -/
def FragmentsReassemble (p : Bytes) (d : Decoded) (maxLen : Nat) (id : UInt32) (frags : List Bytes) : Prop :=
  (∀ f ∈ frags, f.length ≤ maxLen ∧ ∃ fd, decode f = .ok fd) ∧
    ∀ ds : List Decoded, frags.map decode = ds.map .ok →
      Tile 0 d.payload (ds.map fun f => (fragmentStart f, f.payload)) ∧
      ∀ (key : GroupKey) (r : Reassembler) (calls : List Call),
        key = (d.header.srcAddr.toBytes, d.header.dstAddr.toBytes, id) →
        key ∉ r.groups → (packetsFor key calls).Perm ds →
        (∀ c ∈ calls, c.packetFor key ≠ none → ∀ c' ∈ calls, c'.now - c.now < reassemblyTimeout) →
        Along Reassembler.step (fun r c => c.packetFor key ≠ none → (r.groups.erase key).size < maxGroups)
          r calls →
        answersFor key calls (run Reassembler.step r calls).2 =
            List.replicate (frags.length - 1) (.ok none) ++ [.ok (some p)] ∧
          key ∉ (run Reassembler.step r calls).1.groups

section
variable {hdr : IPv8Header} {payload p : Bytes} {d : Decoded} {maxLen : Nat} {id : UInt32} {frags : List Bytes}

/-- What the fragments of a packet are, and what they decode to. -/
lemma exists_cut (hd : decode p = .ok d) (h : fragmentPacket p maxLen id = .ok frags) (hlen : 1 < frags.length) :
    ∃ (n : Nat) (hn : 0 < n), 8 ∣ n ∧ frags = (cut n hn 0 d.payload).map (fun q => fragmentBytes d id q.1 q.2) ∧
      (∀ f ∈ frags, f.length ≤ maxLen ∧ ∃ fd, decode f = .ok fd) ∧
      ∀ ds : List Decoded, frags.map decode = ds.map .ok →
        ds = (cut n hn 0 d.payload).map fun q => fragmentDecoded d id q.1 q.2 := by
  obtain ⟨wf, -⟩ := decode_eq_ok.mp hd
  obtain ⟨n, hn, h8, hfree, hmax, rfl, henc⟩ := fragmentPacket_eq_ok hd h hlen
  have hpiece : ∀ q ∈ cut n hn 0 d.payload, q.2.length ≤ n ∧ q.2.length < 2 ^ 16 := by
    intro q hq
    have hl := tiles_length (mem_cut_zero.mp hq)
    have hm := length_le_maxGroupBytes wf
    have hlt : maxGroupBytes < 2 ^ 16 := by decide
    omega
  have hdec : ∀ q ∈ cut n hn 0 d.payload,
      decode (fragmentBytes d id q.1 q.2) = .ok (fragmentDecoded d id q.1 q.2) :=
    fun q hq => decode_fragmentBytes wf hfree (hpiece q hq).2 (henc q hq)
  refine ⟨n, hn, h8, rfl, ?_, ?_⟩
  · intro f hf
    obtain ⟨q, hq, rfl⟩ := List.mem_map.mp hf
    exact ⟨length_fragmentBytes_le (hpiece q hq).1 hmax, _, hdec q hq⟩
  · intro ds hds
    have hinj : Function.Injective (Outcome.ok : Decoded → Outcome DecodeError Decoded) := fun _ _ e => by
      cases e
      rfl
    apply List.map_injective_iff.mpr hinj
    rw [← hds, List.map_map, List.map_map]
    exact List.map_congr_left hdec

/-- The fragments give the packet back, inserted in any order between other calls. -/
lemma answers_fragments (hp : encode hdr payload = .ok p) (hd : decode p = .ok d) (hwhole : d.consumed = p.length)
    (hflag : d.header.flags &&& flags.fragment = 0) (h : fragmentPacket p maxLen id = .ok frags) (hlen : 1 < frags.length)
    {ds : List Decoded} (hds : frags.map decode = ds.map .ok) {key : GroupKey} {r : Reassembler} {calls : List Call}
    (hkey : key = (d.header.srcAddr.toBytes, d.header.dstAddr.toBytes, id)) (hfresh : key ∉ r.groups)
    (hperm : (packetsFor key calls).Perm ds)
    (hyoung : ∀ c ∈ calls, c.packetFor key ≠ none → ∀ c' ∈ calls, c'.now - c.now < reassemblyTimeout)
    (hroom : Along Reassembler.step (fun r c => c.packetFor key ≠ none → (r.groups.erase key).size < maxGroups) r calls) :
    answersFor key calls (run Reassembler.step r calls).2 =
        List.replicate (frags.length - 1) (.ok none) ++ [.ok (some p)] ∧
      key ∉ (run Reassembler.step r calls).1.groups := by
  obtain ⟨hres, hbytes⟩ := whole_packet hp hd hwhole
  obtain ⟨wf, -⟩ := decode_eq_ok.mp hd
  obtain ⟨n, hn, h8, rfl, -, hdecoded⟩ := exists_cut hd h hlen
  have hnone : r.groups[key]? = none := by
    rw [Std.ExtTreeMap.mem_iff_isSome_getElem?, Bool.not_eq_true, Option.isSome_eq_false_iff,
      Option.isNone_iff_eq_none] at hfresh
    exact hfresh
  obtain ⟨hans, hfin⟩ := run_collecting wf hres hflag hn h8 hkey calls r ∅ (cut n hn 0 d.payload)
    (nodup_cut 0) (Set.empty_subset _) (fun q => by rw [mem_cut_zero]; simp) (.inl ⟨.inl rfl, hnone⟩)
    (hdecoded ds hds ▸ hperm) hyoung hroom
  refine ⟨?_, ?_⟩
  · rw [hans, ← hbytes, List.length_map]
    cases he : cut n hn 0 d.payload with
    | nil =>
      rw [he] at hlen
      exact absurd hlen (Nat.not_lt_zero 1)
    | cons q rest => rfl
  · cases hfin with
    | inl hfin =>
      rw [Std.ExtTreeMap.mem_iff_isSome_getElem?, hfin.2]
      exact Bool.false_ne_true
    | inr hfin => exact absurd rfl hfin.1

end

/-- Fragmentation and reassembly of a packet that decodes to its last byte. -/
theorem fragment_reassemble {hdr : IPv8Header} {payload p : Bytes} {d : Decoded} {maxLen : Nat} {id : UInt32}
    {frags : List Bytes} (hp : encode hdr payload = .ok p) (hd : decode p = .ok d)
    (hwhole : d.consumed = p.length) (hflag : d.header.flags &&& flags.fragment = 0)
    (h : fragmentPacket p maxLen id = .ok frags) (hlen : 1 < frags.length) :
    FragmentsReassemble p d maxLen id frags := by
  obtain ⟨wf, -⟩ := decode_eq_ok.mp hd
  obtain ⟨n, hn, h8, -, hfits, hdecoded⟩ := exists_cut hd h hlen
  refine ⟨hfits, ?_⟩
  intro ds hds
  refine ⟨?_, ?_⟩
  · have hstarts : (ds.map fun f => (fragmentStart f, f.payload)) = cut n hn 0 d.payload := by
      rw [hdecoded ds hds, List.map_map]
      refine (List.map_congr_left fun q hq => ?_).trans (List.map_id _)
      have ht := mem_cut_zero.mp hq
      have hs : fragmentStart (fragmentDecoded d id q.1 q.2) = q.1 := by
        rw [fragmentStart, parse_fragmentDecoded wf h8 ht]
        exact start_fragmentInfo wf h8 ht
      exact Prod.ext hs rfl
    rw [hstarts]
    exact tile_cut 0
  · intro key r calls hkey hfresh hperm hyoung hroom
    exact answers_fragments hp hd hwhole hflag h hlen hds hkey hfresh hperm hyoung hroom

/-- A header with one semantic tag of `len` bytes and a payload of 24 bytes. -/
def taggedHeader (len : Nat) : IPv8Header :=
  .build ⟨0xFB14, 0, 0, 0, 0, 0, 0, 0⟩ ⟨0xFB14, 0, 0, 0, 0, 0, 0, 1⟩ 24 0x10 64 0
    [⟨.semanticTag, List.replicate len 0xCD⟩]

/-- The header as it stands behind its encoding, when the tag has a multiple of eight bytes. -/
def taggedPacket (tag : Nat) (data : Bytes) : Decoded where
  header := taggedHeader tag
  payload := data
  offset := 42 + tag

/-- The calls that insert the packets one after another. -/
def insertAll (ds : List Decoded) : List Call := ds.map (Call.insert 0)

/-- A tag of 12 bytes: the encoder writes all of them and counts 8, the packet decodes with four bytes
behind its payload, and these are lost. -/
theorem fragment_loses_trailing :
    ¬ ∀ (hdr : IPv8Header) (payload p : Bytes) (d : Decoded) (maxLen : Nat) (id : UInt32) (frags : List Bytes),
        encode hdr payload = .ok p → decode p = .ok d →
        (∀ e ∈ d.header.extHeaders, e.extType ≠ .fragment) → d.header.flags &&& flags.fragment = 0 →
        fragmentPacket p maxLen id = .ok frags → 1 < frags.length → FragmentsReassemble p d maxLen id frags := by
  intro h
  let hdr := taggedHeader 12
  let p := hdr.headBytes 0 ++ chainBytes hdr.extHeaders ++ List.replicate 24 0
  let d := taggedPacket 8 (List.replicate 4 0xCD ++ List.replicate 20 0)
  let ds := (cut 8 (by decide) 0 d.payload).map fun q => fragmentDecoded d 7 q.1 q.2
  let frags := (cut 8 (by decide) 0 d.payload).map fun q => fragmentBytes d 7 q.1 q.2
  have hp : encode hdr (List.replicate 24 0) = .ok p := by decide +kernel
  have hd : decode p = .ok d := by decide +kernel
  have hf : fragmentPacket p 68 7 = .ok frags := by decide +kernel
  have hds : frags.map decode = ds.map .ok := by decide +kernel
  obtain ⟨-, h⟩ := h hdr _ p d 68 7 frags hp hd (by decide) (by decide) hf (by decide +kernel)
  obtain ⟨-, h⟩ := h ds hds
  let key : GroupKey := (d.header.srcAddr.toBytes, d.header.dstAddr.toBytes, 7)
  have hperm : packetsFor key (insertAll ds) = ds := by decide +kernel
  obtain ⟨hans, -⟩ := h key Reassembler.new (insertAll ds) rfl (by decide +kernel) (.of_eq hperm)
    (by decide +kernel) (by decide +kernel)
  exact absurd hans (by decide +kernel)

/-- Three fragments, inserted in reverse order. -/
theorem fragment_reassemble_tagged :
    ∃ (p : Bytes) (ds : List Decoded) (key : GroupKey), ds.length = 3 ∧
      answersFor key (insertAll ds.reverse) (run Reassembler.step Reassembler.new (insertAll ds.reverse)).2 =
        [.ok none, .ok none, .ok (some p)] := by
  let hdr := taggedHeader 8
  let data := (List.range 24).map UInt8.ofNat
  let p := hdr.headBytes 0 ++ chainBytes hdr.extHeaders ++ data
  let d := taggedPacket 8 data
  let ds := (cut 8 (by decide) 0 d.payload).map fun q => fragmentDecoded d 7 q.1 q.2
  let frags := (cut 8 (by decide) 0 d.payload).map fun q => fragmentBytes d 7 q.1 q.2
  have hp : encode hdr data = .ok p := by decide +kernel
  have hd : decode p = .ok d := by decide +kernel
  have hf : fragmentPacket p 68 7 = .ok frags := by decide +kernel
  have hds : frags.map decode = ds.map .ok := by decide +kernel
  obtain ⟨-, h⟩ := fragment_reassemble hp hd (by decide) (by decide) hf (by decide +kernel)
  obtain ⟨-, h⟩ := h ds hds
  let key : GroupKey := (d.header.srcAddr.toBytes, d.header.dstAddr.toBytes, 7)
  have hperm : packetsFor key (insertAll ds.reverse) = ds.reverse := by decide +kernel
  obtain ⟨hans, -⟩ := h key Reassembler.new (insertAll ds.reverse) rfl (by decide +kernel)
    ((List.Perm.of_eq hperm).trans (List.reverse_perm ds)) (by decide +kernel) (by decide +kernel)
  rw [show frags.length = 3 by decide +kernel] at hans
  exact ⟨p, ds, key, by decide +kernel, hans⟩

end IPv8Plus.Codec
