import IPv8Plus.Compat.Errors

/-!
# The outbound pipeline

`core/ipv8-compat/src/ttl.rs` and `process_outbound` of `lib.rs`: what a packet goes through before it enters the tunnel.
Multicast and broadcast pass as they are; a packet whose hops are used up, or that is too big, is answered with an error.
-/

namespace IPv8Plus.Compat
open Lib

/-! ## Hops -/

/-- The packet with one hop less, and whether it may go on. -/
def decrementTtl (p : Bytes) : Call (Bytes × Bool) :=
  if ipVersion p = 4 then
    if p.length < 20 then return (p, false)
    else do
      let ttl ← ipv4Ttl p
      if ttl = 0 then return (p, false)
      else do
        let newTtl := ttl - 1
        let p ← setIpv4Ttl p newTtl
        let (cs, p) ← ipHeaderChecksum p
        let p ← if 12 ≤ p.length then putHalves p 10 cs else pure p
        return (p, decide (0 < newTtl))
  else if ipVersion p = 6 then
    if p.length < 40 then return (p, false)
    else do
      let hl ← ipv6HopLimit p
      if hl = 0 then return (p, false)
      else do
        let newHl := hl - 1
        let p ← setIpv6HopLimit p newHl
        return (p, decide (0 < newHl))
  else return (p, false)

def isMulticastOrBroadcast (p : Bytes) : Call Bool :=
  if ipVersion p = 4 then do
    match ← ipv4Dst p with
    | none => return false
    | some o =>
      if octet o 0 &&& 0xF0 = 0xE0 then return true
      else if o = [255, 255, 255, 255] then return true
      else return decide (octet o 3 = 255 ∧ octet o 0 ≠ 0)
  else if ipVersion p = 6 then do
    match ← ipv6Dst p with
    | none => return false
    | some o => return decide (octet o 0 = 0xFF)
  else return false

/-! ## The pipeline -/

inductive Outcome where
  | forward
  | injectIcmp (pkt : Bytes)
  | drop
  deriving DecidableEq, Repr

/-- An error is injected, and where there is none the packet is dropped. -/
def Outcome.ofError : Option Bytes → Outcome
  | some pkt => .injectIcmp pkt
  | none => .drop

/-- The packet afterwards, and what becomes of it. -/
def processOutbound (packet : Bytes) (effectiveMtu : Nat) (mssTarget : Option UInt16) (ourAddrV4 : Arr UInt8 4)
    (ourAddrV6 : Option (Arr UInt8 16)) : Call (Bytes × Outcome) :=
  let ver := ipVersion packet
  if ver ≠ 4 ∧ ver ≠ 6 then return (packet, .forward)
  else do
    if ← isMulticastOrBroadcast packet then return (packet, .forward)
    else do
      let (packet, alive) ← decrementTtl packet
      if ¬ alive then do
        let icmp ← if ver = 4 then generateTimeExceededV4 packet ourAddrV4
          else match ourAddrV6 with
            | some a6 => generateTimeExceededV6 packet a6
            | none => pure none
        return (packet, .ofError icmp)
      else do
        let pktLen := packet.length
        if ver = 4 ∧ (← ipv4DfSet packet) ∧ effectiveMtu < pktLen then do
          let icmp ← generateFragNeededV4 packet ourAddrV4 (UInt16.ofNat effectiveMtu)
          return (packet, .ofError icmp)
        else if ver = 6 ∧ effectiveMtu < pktLen then do
          let icmp ← match ourAddrV6 with
            | some a6 => generatePacketTooBigV6 packet a6 (UInt32.ofNat effectiveMtu)
            | none => pure none
          return (packet, .ofError icmp)
        else do
          let target := mssTarget.getD (UInt16.ofNat (effectiveMtu - if ver = 6 then 60 else 40))
          let (packet, _) ← clampMss packet target
          return (packet, .forward)

variable {p p' : Bytes} {i n : Nat} {effectiveMtu : Nat} {mssTarget : Option UInt16} {ourAddrV4 : Arr UInt8 4}
  {ourAddrV6 : Option (Arr UInt8 16)}

/-! ## Multicast and broadcast -/

/-- Multicast, or broadcast as far as an address alone can show it. -/
def Multi (p : Bytes) : Prop :=
  (IsV4 p ∧ 20 ≤ p.length ∧ (octet p 16 &&& 0xF0 = 0xE0 ∨ (p.drop 16).take 4 = [255, 255, 255, 255] ∨ octet p 19 = 255 ∧ octet p 16 ≠ 0)) ∨
    (IsV6 p ∧ 40 ≤ p.length ∧ octet p 24 = 0xFF)

instance (p : Bytes) : Decidable (Multi p) := inferInstanceAs (Decidable (_ ∨ _))

lemma octet_segment {a : Nat} (h : i < n) : octet ((p.drop a).take n) i = octet p (a + i) := by
  rw [octet, octet, List.getD_eq_getElem?_getD, List.getD_eq_getElem?_getD, List.getElem?_take_of_lt h, List.getElem?_drop]

lemma isMulticastOrBroadcast_eq (p : Bytes) : isMulticastOrBroadcast p = .ok (decide (Multi p)) := by
  rw [isMulticastOrBroadcast]
  by_cases h4 : IsV4 p
  · have h6 := h4.not_isV6
    rw [if_pos (isV4_iff.mp h4), ipv4Dst]
    by_cases hlen : p.length < 20
    · have hnot : ¬ Multi p := by
        rintro (⟨-, h20, -⟩ | ⟨hver, -⟩)
        · omega
        · exact h6 hver
      rw [if_pos hlen, decide_eq_false hnot]
      rfl
    · rw [if_neg hlen, slice_of_le (by omega) (by omega), Outcome.map_ok, Outcome.ok_bind]
      dsimp only
      rw [octet_segment (by omega), octet_segment (by omega)]
      split_ifs with hmulti hall
      · exact congrArg Outcome.ok (decide_eq_true (.inl ⟨h4, by omega, .inl hmulti⟩)).symm
      · exact congrArg Outcome.ok (decide_eq_true (.inl ⟨h4, by omega, .inr (.inl hall)⟩)).symm
      · refine congrArg Outcome.ok (decide_eq_decide.mpr ⟨fun h => .inl ⟨h4, by omega, .inr (.inr h)⟩, ?_⟩)
        rintro (⟨-, -, h | h | h⟩ | ⟨hver, -⟩)
        · exact absurd h hmulti
        · exact absurd h hall
        · exact h
        · exact absurd hver h6
  · rw [if_neg (mt isV4_iff.mpr h4)]
    by_cases h6 : IsV6 p
    · rw [if_pos (isV6_iff.mp h6), ipv6Dst]
      by_cases hlen : p.length < 40
      · have hnot : ¬ Multi p := by
          rintro (⟨hver, -⟩ | ⟨-, h40, -⟩)
          · exact h4 hver
          · omega
        rw [if_pos hlen, decide_eq_false hnot]
        rfl
      · rw [if_neg hlen, slice_of_le (by omega) (by omega), Outcome.map_ok, Outcome.ok_bind]
        dsimp only
        rw [octet_segment (by omega)]
        refine congrArg Outcome.ok (decide_eq_decide.mpr ⟨fun h => .inr ⟨h6, by omega, h⟩, ?_⟩)
        rintro (⟨hver, -⟩ | ⟨-, -, h⟩)
        · exact absurd hver h4
        · exact h
    · have hnot : ¬ Multi p := by
        rintro (⟨hver, -⟩ | ⟨hver, -⟩)
        · exact h4 hver
        · exact h6 hver
      rw [if_neg (mt isV6_iff.mpr h6), decide_eq_false hnot]
      rfl

/-! ## A hop -/

/-- Where a packet counts its hops. -/
def ttlAt (p : Bytes) : Nat := if IsV4 p then 8 else 7

/-- The bytes that a packet of its version has at least. -/
def fixedSize (p : Bytes) : Nat := if IsV4 p then 20 else 40

/-- A packet with one hop less, and with the checksum of its header. -/
structure Hop (p p' : Bytes) : Prop where
  length : p'.length = p.length
  hops : (octet p' (ttlAt p)).toNat = (octet p (ttlAt p)).toNat - 1
  same : ∀ i, i ≠ ttlAt p → ¬ (IsV4 p ∧ (i = 10 ∨ i = 11)) → octet p' i = octet p i
  header : IsV4 p → HeaderV4 p → octet p 8 ≠ 0 → HeaderVerifies p'

lemma Hop.refl (h : octet p (ttlAt p) = 0) : Hop p p := by
  refine ⟨rfl, by rw [h]; rfl, fun _ _ _ => rfl, fun hver _ h8 => ?_⟩
  rw [ttlAt, if_pos hver] at h
  exact absurd h h8

lemma toNat_pred {b : UInt8} (h : b ≠ 0) : (b - 1).toNat = b.toNat - 1 := by
  have hpos : 1 ≤ b := UInt8.le_iff_toNat_le.mpr (Nat.pos_of_ne_zero fun h0 => h (UInt8.toNat_inj.mp h0))
  exact UInt8.toNat_sub_of_le _ _ hpos

/-- One hop less in version 4; a header that is announced longer than the packet gets the checksum zero. -/
def hopV4 (p : Bytes) : Bytes :=
  let p' := p.set 8 (octet p 8 - 1)
  putWord p' 10 (if headerSize p ≤ p.length then checksum ((putWord p' 10 0).take (headerSize p)) else 0)

lemma lt_pred {b : UInt8} (h : b ≠ 0) : decide (0 < b - 1) = decide (1 < b.toNat) := by
  refine decide_eq_decide.mpr ?_
  rw [UInt8.lt_iff_toNat_lt, toNat_pred h]
  exact Nat.lt_sub_iff_add_lt

lemma decrementTtl_v4 (hver : IsV4 p) (h20 : 20 ≤ p.length) (h8 : octet p 8 ≠ 0) :
    decrementTtl p = .ok (hopV4 p, decide (1 < (octet p 8).toNat)) := by
  have hlen : (p.set 8 (octet p 8 - 1)).length = p.length := List.length_set
  have hsize : headerSize (p.set 8 (octet p 8 - 1)) = headerSize p := headerSize_congr (octet_set_ne (by decide) _)
  rw [decrementTtl, if_pos (isV4_iff.mp hver), if_neg (Nat.not_lt.mpr h20), ipv4Ttl, if_neg (by omega), idx_eq (by omega), Outcome.ok_bind,
    if_neg h8]
  dsimp only
  rw [setIpv4Ttl, if_pos (by omega), put_eq (by omega), Outcome.ok_bind, lt_pred h8, hopV4]
  by_cases hfits : headerSize p ≤ p.length
  · rw [ipHeaderChecksum_eq (by omega) (by omega), Outcome.ok_bind, hsize]
    dsimp only
    rw [if_pos (by rw [length_putWord]; omega), putHalves_eq (by rw [length_putWord]; omega), Outcome.ok_bind, putWord_putWord, if_pos hfits]
    rfl
  · rw [ipHeaderChecksum_short (.inr (by omega)), Outcome.ok_bind]
    dsimp only
    rw [if_pos (by omega), putHalves_eq (by omega), Outcome.ok_bind, if_neg hfits]
    rfl

lemma hop_hopV4 (hver : IsV4 p) (h20 : 20 ≤ p.length) (h8 : octet p 8 ≠ 0) : Hop p (hopV4 p) := by
  have httl : ttlAt p = 8 := if_pos hver
  have hlen : (p.set 8 (octet p 8 - 1)).length = p.length := List.length_set
  refine ⟨?_, ?_, fun i hi hsum => ?_, fun _ hheader _ => ?_⟩
  · rw [hopV4, length_putWord, hlen]
  · rw [httl, hopV4, octet_putWord_ne (by decide) (by decide), octet_set (by omega), toNat_pred h8]
  · rw [httl] at hi
    rw [hopV4, octet_putWord_ne (fun h => hsum ⟨hver, .inl h⟩) (fun h => hsum ⟨hver, .inr h⟩), octet_set_ne hi.symm]
  · have hleast := hheader.least
    have hfits := hheader.fits
    have hsize : headerSize (hopV4 p) = headerSize p := by
      refine headerSize_congr ?_
      rw [hopV4, octet_putWord_ne (by decide) (by decide), octet_set_ne (by decide)]
    rw [HeaderVerifies, hsize, hopV4, if_pos hfits]
    exact folded_withHeaderSum headerSize_le_limit hleast (by omega)

lemma decrementTtl_v6 (hver : IsV6 p) (h40 : 40 ≤ p.length) (h7 : octet p 7 ≠ 0) :
    decrementTtl p = .ok (p.set 7 (octet p 7 - 1), decide (1 < (octet p 7).toNat)) := by
  have h4 : ¬ ipVersion p = 4 := fun h => (isV4_iff.mpr h).not_isV6 hver
  rw [decrementTtl, if_neg h4, if_pos (isV6_iff.mp hver), if_neg (Nat.not_lt.mpr h40), ipv6HopLimit, if_neg (by omega), idx_eq (by omega),
    Outcome.ok_bind, if_neg h7]
  dsimp only
  rw [setIpv6HopLimit, if_pos (by omega), put_eq (by omega), Outcome.ok_bind, lt_pred h7]
  rfl

lemma hop_v6 (hver : IsV6 p) (h40 : 40 ≤ p.length) (h7 : octet p 7 ≠ 0) : Hop p (p.set 7 (octet p 7 - 1)) := by
  have h4 : ¬ IsV4 p := fun h => h.not_isV6 hver
  have httl : ttlAt p = 7 := if_neg h4
  refine ⟨List.length_set, ?_, fun i hi _ => ?_, fun hver4 => absurd hver4 h4⟩
  · rw [httl, octet_set (by omega), toNat_pred h7]
  · rw [httl] at hi
    exact octet_set_ne hi.symm _

/-- A packet of its version has one hop less, and goes on when it had more than one. -/
lemma decrementTtl_cases (hver : IsV4 p ∨ IsV6 p) (hlen : fixedSize p ≤ p.length) :
    ∃ p', decrementTtl p = .ok (p', decide (1 < (octet p (ttlAt p)).toNat)) ∧ Hop p p' := by
  by_cases hzero : octet p (ttlAt p) = 0
  · refine ⟨p, ?_, Hop.refl hzero⟩
    rw [hzero, decrementTtl]
    rcases hver with h4 | h6
    · rw [ttlAt, if_pos h4] at hzero
      rw [fixedSize, if_pos h4] at hlen
      rw [if_pos (isV4_iff.mp h4), if_neg (Nat.not_lt.mpr hlen), ipv4Ttl, if_neg (by omega), idx_eq (by omega), Outcome.ok_bind, if_pos hzero]
      rfl
    · have h4 : ¬ IsV4 p := fun h => h.not_isV6 h6
      rw [ttlAt, if_neg h4] at hzero
      rw [fixedSize, if_neg h4] at hlen
      rw [if_neg (mt isV4_iff.mpr h4), if_pos (isV6_iff.mp h6), if_neg (Nat.not_lt.mpr hlen), ipv6HopLimit, if_neg (by omega), idx_eq (by omega),
        Outcome.ok_bind, if_pos hzero]
      rfl
  · rcases hver with h4 | h6
    · rw [ttlAt, if_pos h4] at hzero ⊢
      rw [fixedSize, if_pos h4] at hlen
      exact ⟨_, decrementTtl_v4 h4 hlen hzero, hop_hopV4 h4 hlen hzero⟩
    · have h4 : ¬ IsV4 p := fun h => h.not_isV6 h6
      rw [ttlAt, if_neg h4] at hzero ⊢
      rw [fixedSize, if_neg h4] at hlen
      exact ⟨_, decrementTtl_v6 h6 hlen hzero, hop_v6 h6 hlen hzero⟩

lemma decrementTtl_short (hver : IsV4 p ∨ IsV6 p) (hlen : p.length < fixedSize p) : decrementTtl p = .ok (p, false) := by
  rw [decrementTtl]
  rcases hver with h4 | h6
  · rw [fixedSize, if_pos h4] at hlen
    rw [if_pos (isV4_iff.mp h4), if_pos hlen]
    rfl
  · have h4 : ¬ IsV4 p := fun h => h.not_isV6 h6
    rw [fixedSize, if_neg h4] at hlen
    rw [if_neg (mt isV4_iff.mpr h4), if_pos (isV6_iff.mp h6), if_pos hlen]
    rfl

/-! ## The pipeline -/

lemma Hop.isV4 (h : Hop p p') : IsV4 p' ↔ IsV4 p := by
  refine isV4_congr (h.same 0 ?_ (by omega))
  rw [ttlAt]
  split_ifs <;> decide

lemma Hop.isV6 (h : Hop p p') : IsV6 p' ↔ IsV6 p := by
  refine isV6_congr (h.same 0 ?_ (by omega))
  rw [ttlAt]
  split_ifs <;> decide

lemma segment_congr {q : Bytes} {a n : Nat} (hlen : q.length = p.length) (h : ∀ i, a ≤ i → octet q i = octet p i) :
    (q.drop a).take n = (p.drop a).take n := by
  congr 1
  refine List.ext_getElem (by rw [List.length_drop, List.length_drop, hlen]) fun i hq hp => ?_
  rw [List.length_drop] at hq hp
  have heq := h (a + i) (Nat.le_add_right _ _)
  rw [octet, octet, List.getD_eq_getElem?_getD, List.getD_eq_getElem?_getD, List.getElem?_eq_getElem (by omega),
    List.getElem?_eq_getElem (by omega)] at heq
  rw [List.getElem_drop, List.getElem_drop]
  exact heq

/-- The source is not changed by a hop. -/
lemma Hop.srcV4 (h : Hop p p') (hver : IsV4 p) : (p'.drop 12).take 4 = (p.drop 12).take 4 := by
  have httl : ttlAt p = 8 := if_pos hver
  exact segment_congr h.length fun i hi => h.same i (by omega) (by omega)

lemma Hop.srcV6 (h : Hop p p') (hver : IsV6 p) : (p'.drop 8).take 16 = (p.drop 8).take 16 := by
  have h4 : ¬ IsV4 p := fun h => h.not_isV6 hver
  have httl : ttlAt p = 7 := if_neg h4
  exact segment_congr h.length fun i hi => h.same i (by omega) fun hsum => h4 hsum.1

/-- What the pipeline does with a packet: what it leaves of it, and what becomes of it. -/
structure Outbound (p p' : Bytes) (o : Outcome) (ourAddrV4 : Arr UInt8 4) (ourAddrV6 : Option (Arr UInt8 16)) : Prop where
  multi : Multi p → p' = p ∧ o = .forward
  forward : ¬ Multi p → o = .forward → (IsV4 p ∧ HeaderV4 p) ∨ (IsV6 p ∧ 40 ≤ p.length) →
    (octet p' (ttlAt p)).toNat + 1 = (octet p (ttlAt p)).toNat ∧ 0 < (octet p' (ttlAt p)).toNat ∧ (IsV4 p → HeaderVerifies p')
  error : ∀ pkt, o = .injectIcmp pkt → Hop p p' ∧
    ((IsV4 p ∧ ErrorV4 pkt ourAddrV4 ((p.drop 12).take 4) (quotedV4 p')) ∨
      ∃ a6, IsV6 p ∧ ourAddrV6 = some a6 ∧ ErrorV6 pkt a6 ((p.drop 8).take 16) (quotedV6 p'))

variable (effectiveMtu mssTarget ourAddrV4 ourAddrV6)

lemma outbound_drop {p'} (h : ¬ Multi p) : Outbound p p' .drop ourAddrV4 ourAddrV6 :=
  ⟨fun hmulti => absurd hmulti h, nofun, nofun⟩

lemma outbound_errorV4 (h : ¬ Multi p) (hver : IsV4 p) (h20 : 20 ≤ p.length) (hhop : Hop p p') (type code : UInt8) (mtu : UInt16) :
    ∃ pkt, errorV4 type code mtu p' ourAddrV4 = .ok (some pkt) ∧ Outbound p p' (.injectIcmp pkt) ourAddrV4 ourAddrV6 := by
  obtain ⟨pkt, heq, hpkt⟩ := errorV4_spec type code mtu ourAddrV4 (hhop.isV4.mpr hver) (hhop.length ▸ h20)
  refine ⟨pkt, heq, fun hmulti => absurd hmulti h, nofun, ?_⟩
  rintro _ ⟨⟩
  rw [hhop.srcV4 hver] at hpkt
  exact ⟨hhop, .inl ⟨hver, hpkt⟩⟩

lemma outbound_errorV6 (h : ¬ Multi p) (hver : IsV6 p) (h40 : 40 ≤ p.length) (hhop : Hop p p') (type code : UInt8) (mtu : UInt32)
    (a6 : Arr UInt8 16) (ha6 : ourAddrV6 = some a6) :
    ∃ pkt, errorV6 type code mtu p' a6 = .ok (some pkt) ∧ Outbound p p' (.injectIcmp pkt) ourAddrV4 ourAddrV6 := by
  obtain ⟨pkt, heq, hpkt⟩ := errorV6_spec type code mtu a6 (hhop.isV6.mpr hver) (hhop.length ▸ h40)
  refine ⟨pkt, heq, fun hmulti => absurd hmulti h, nofun, ?_⟩
  rintro _ ⟨⟩
  rw [hhop.srcV6 hver] at hpkt
  exact ⟨hhop, .inr ⟨a6, hver, ha6, hpkt⟩⟩

/-- Clamping does not touch the hops, and leaves the header of version 4 with a right checksum. -/
lemma outbound_clamped (h : ¬ Multi p) (hhop : Hop p p') (halive : 1 < (octet p (ttlAt p)).toNat)
    (target : UInt16) : ∃ p'' b, clampMss p' target = .ok (p'', b) ∧ Outbound p p'' .forward ourAddrV4 ourAddrV6 := by
  have h8 : IsV4 p → octet p 8 ≠ 0 := by
    intro h4 hzero
    rw [ttlAt, if_pos h4, hzero] at halive
    exact absurd halive (by decide)
  have hhops := hhop.hops
  rcases clampMss_cases p' target with ⟨b, heq, -⟩ | ⟨l4, pos, hmss, -, heq⟩
  · refine ⟨p', b, heq, fun hmulti => absurd hmulti h, fun _ _ hwell => ⟨by omega, by omega, fun h4 => ?_⟩, nofun⟩
    rcases hwell with ⟨-, hheader⟩ | ⟨h6, -⟩
    · exact hhop.header h4 hheader (h8 h4)
    · exact absurd h6 h4.not_isV6
  · have httl : octet (clamped p' l4 pos target) (ttlAt p) = octet p' (ttlAt p) := by
      have hbounds := hmss.bounds
      have hleast := hmss.syn.tcp.least
      refine octet_clamped ?_
      rw [Patched, hhop.isV4, ttlAt]
      split_ifs <;> omega
    refine ⟨_, true, heq, fun hmulti => absurd hmulti h, fun _ _ _ => ?_, nofun⟩
    rw [httl]
    exact ⟨by omega, by omega, fun h4 => hmss.headerVerifies (hhop.isV4.mpr h4)⟩

lemma ipv4DfSet_ok (p : Bytes) : ∃ b, ipv4DfSet p = .ok b := by
  rw [ipv4DfSet]
  split_ifs with hlen
  · exact ⟨false, rfl⟩
  · rw [idx_eq (by omega), Outcome.ok_bind]
    exact ⟨_, rfl⟩

lemma known_version (hver : IsV4 p ∨ IsV6 p) : ¬ (ipVersion p ≠ 4 ∧ ipVersion p ≠ 6) := by
  rintro ⟨h4, h6⟩
  rcases hver with hver | hver
  · exact h4 (isV4_iff.mp hver)
  · exact h6 (isV6_iff.mp hver)

section
variable (h : ¬ Multi p) (hver : IsV4 p ∨ IsV6 p)
include h hver

/-- What is left to do for a packet with its hops used up. -/
lemma processOutbound_expired (hhop : decrementTtl p = .ok (p', false)) :
    processOutbound p effectiveMtu mssTarget ourAddrV4 ourAddrV6 = (do
      let icmp ← if ipVersion p = 4 then generateTimeExceededV4 p' ourAddrV4
        else match ourAddrV6 with
          | some a6 => generateTimeExceededV6 p' a6
          | none => pure none
      return (p', .ofError icmp)) := by
  rw [processOutbound]
  dsimp only
  rw [if_neg (known_version hver), isMulticastOrBroadcast_eq, Outcome.ok_bind, decide_eq_false h, if_neg (by decide), hhop, Outcome.ok_bind]
  exact if_pos Bool.false_ne_true

/-- What is left to do for a packet that has hops. -/
lemma processOutbound_alive (hhop : decrementTtl p = .ok (p', true)) :
    processOutbound p effectiveMtu mssTarget ourAddrV4 ourAddrV6 = (do
      if ipVersion p = 4 ∧ (← ipv4DfSet p') ∧ effectiveMtu < p'.length then do
        let icmp ← generateFragNeededV4 p' ourAddrV4 (UInt16.ofNat effectiveMtu)
        return (p', .ofError icmp)
      else if ipVersion p = 6 ∧ effectiveMtu < p'.length then do
        let icmp ← match ourAddrV6 with
          | some a6 => generatePacketTooBigV6 p' a6 (UInt32.ofNat effectiveMtu)
          | none => pure none
        return (p', .ofError icmp)
      else do
        let (p'', _) ← clampMss p' (mssTarget.getD (UInt16.ofNat (effectiveMtu - if ipVersion p = 6 then 60 else 40)))
        return (p'', .forward)) := by
  rw [processOutbound]
  dsimp only
  rw [if_neg (known_version hver), isMulticastOrBroadcast_eq, Outcome.ok_bind, decide_eq_false h, if_neg (by decide), hhop, Outcome.ok_bind]
  exact if_neg (not_not_intro rfl)

end

/-- A packet of version 4 whose hops are used up. -/
lemma outbound_expiredV4 (h : ¬ Multi p) (hver : IsV4 p) (h20 : 20 ≤ p.length) (hdead : ¬ 1 < (octet p (ttlAt p)).toNat) :
    ∃ p' pkt, processOutbound p effectiveMtu mssTarget ourAddrV4 ourAddrV6 = .ok (p', .injectIcmp pkt) ∧
      Outbound p p' (.injectIcmp pkt) ourAddrV4 ourAddrV6 := by
  have hlen : fixedSize p ≤ p.length := by rwa [fixedSize, if_pos hver]
  obtain ⟨p', hhopEq, hhop⟩ := decrementTtl_cases (.inl hver) hlen
  rw [decide_eq_false hdead] at hhopEq
  obtain ⟨pkt, hpkt, hspec⟩ := outbound_errorV4 ourAddrV4 ourAddrV6 h hver h20 hhop 11 0 0
  refine ⟨p', pkt, ?_, hspec⟩
  rw [processOutbound_expired _ _ _ _ h (.inl hver) hhopEq, if_pos (isV4_iff.mp hver), generateTimeExceededV4, hpkt]
  rfl

lemma outbound_v4 (h : ¬ Multi p) (hver : IsV4 p) : ∃ p' o,
    processOutbound p effectiveMtu mssTarget ourAddrV4 ourAddrV6 = .ok (p', o) ∧ Outbound p p' o ourAddrV4 ourAddrV6 := by
  by_cases h20 : 20 ≤ p.length
  · by_cases halive : 1 < (octet p (ttlAt p)).toNat
    · obtain ⟨p', hhopEq, hhop⟩ := decrementTtl_cases (.inl hver) (by rwa [fixedSize, if_pos hver])
      rw [decide_eq_true halive] at hhopEq
      obtain ⟨df, hdf⟩ := ipv4DfSet_ok p'
      rw [processOutbound_alive _ _ _ _ h (.inl hver) hhopEq, hdf, Outcome.ok_bind]
      by_cases hbig : ipVersion p = 4 ∧ df = true ∧ effectiveMtu < p'.length
      · obtain ⟨pkt, hpkt, hspec⟩ := outbound_errorV4 ourAddrV4 ourAddrV6 h hver h20 hhop 3 4 (UInt16.ofNat effectiveMtu)
        rw [if_pos hbig, generateFragNeededV4, hpkt]
        exact ⟨p', _, rfl, hspec⟩
      · obtain ⟨p'', b, hclamp, hspec⟩ := outbound_clamped ourAddrV4 ourAddrV6 h hhop halive
          (mssTarget.getD (UInt16.ofNat (effectiveMtu - if ipVersion p = 6 then 60 else 40)))
        rw [if_neg hbig, if_neg fun hv6 => hver.not_isV6 (isV6_iff.mpr hv6.1), hclamp]
        exact ⟨p'', .forward, rfl, hspec⟩
    · obtain ⟨p', pkt, heq, hspec⟩ := outbound_expiredV4 effectiveMtu mssTarget ourAddrV4 ourAddrV6 h hver h20 halive
      exact ⟨p', _, heq, hspec⟩
  · have hshort : decrementTtl p = .ok (p, false) := decrementTtl_short (.inl hver) (by rw [fixedSize, if_pos hver]; omega)
    rw [processOutbound_expired _ _ _ _ h (.inl hver) hshort, if_pos (isV4_iff.mp hver), generateTimeExceededV4, errorV4,
      if_pos (.inr (Nat.not_le.mp h20))]
    exact ⟨p, .drop, rfl, outbound_drop _ _ h⟩

lemma outbound_v6 (h : ¬ Multi p) (hver : IsV6 p) : ∃ p' o,
    processOutbound p effectiveMtu mssTarget ourAddrV4 ourAddrV6 = .ok (p', o) ∧ Outbound p p' o ourAddrV4 ourAddrV6 := by
  have h4 : ¬ IsV4 p := fun h => h.not_isV6 hver
  have hversion4 : ¬ ipVersion p = 4 := mt isV4_iff.mpr h4
  by_cases hlen : fixedSize p ≤ p.length
  · obtain ⟨p', hhopEq, hhop⟩ := decrementTtl_cases (.inr hver) hlen
    rw [fixedSize, if_neg h4] at hlen
    by_cases halive : 1 < (octet p (ttlAt p)).toNat
    · rw [decide_eq_true halive] at hhopEq
      obtain ⟨df, hdf⟩ := ipv4DfSet_ok p'
      rw [processOutbound_alive _ _ _ _ h (.inr hver) hhopEq, hdf, Outcome.ok_bind, if_neg fun hbig => hversion4 hbig.1]
      by_cases hbig : ipVersion p = 6 ∧ effectiveMtu < p'.length
      · rw [if_pos hbig]
        cases ha6 : ourAddrV6 with
        | none => exact ⟨p', .drop, rfl, outbound_drop _ _ h⟩
        | some a6 =>
          obtain ⟨pkt, hpkt, hspec⟩ := outbound_errorV6 ourAddrV4 (some a6) h hver hlen hhop 2 0 (UInt32.ofNat effectiveMtu) a6 rfl
          dsimp only
          rw [generatePacketTooBigV6, hpkt]
          exact ⟨p', _, rfl, hspec⟩
      · obtain ⟨p'', b, hclamp, hspec⟩ := outbound_clamped ourAddrV4 ourAddrV6 h hhop halive
          (mssTarget.getD (UInt16.ofNat (effectiveMtu - if ipVersion p = 6 then 60 else 40)))
        rw [if_neg hbig, hclamp]
        exact ⟨p'', .forward, rfl, hspec⟩
    · rw [decide_eq_false halive] at hhopEq
      rw [processOutbound_expired _ _ _ _ h (.inr hver) hhopEq, if_neg hversion4]
      cases ha6 : ourAddrV6 with
      | none => exact ⟨p', .drop, rfl, outbound_drop _ _ h⟩
      | some a6 =>
        obtain ⟨pkt, hpkt, hspec⟩ := outbound_errorV6 ourAddrV4 (some a6) h hver hlen hhop 3 0 0 a6 rfl
        dsimp only
        rw [generateTimeExceededV6, hpkt]
        exact ⟨p', _, rfl, hspec⟩
  · rw [processOutbound_expired _ _ _ _ h (.inr hver) (decrementTtl_short (.inr hver) (Nat.not_le.mp hlen)), if_neg hversion4]
    rw [fixedSize, if_neg h4] at hlen
    cases ha6 : ourAddrV6 with
    | none => exact ⟨p, .drop, rfl, outbound_drop _ _ h⟩
    | some a6 =>
      dsimp only
      rw [generateTimeExceededV6, errorV6, if_pos (.inr (Nat.not_le.mp hlen))]
      exact ⟨p, .drop, rfl, outbound_drop _ _ h⟩

/-- **The outbound pipeline.** It never panics; multicast and broadcast come back as they were; what is forwarded has one hop
less, and some left; and every error is well formed, goes back to the source and quotes the packet as the hop left it. -/
theorem processOutbound_spec (p : Bytes) (effectiveMtu : Nat) (mssTarget : Option UInt16) (ourAddrV4 : Arr UInt8 4)
    (ourAddrV6 : Option (Arr UInt8 16)) : ∃ p' o,
    processOutbound p effectiveMtu mssTarget ourAddrV4 ourAddrV6 = .ok (p', o) ∧ Outbound p p' o ourAddrV4 ourAddrV6 := by
  by_cases hmulti : Multi p
  · refine ⟨p, .forward, ?_, fun _ => ⟨rfl, rfl⟩, fun h => absurd hmulti h, nofun⟩
    have hver : IsV4 p ∨ IsV6 p := hmulti.imp And.left And.left
    rw [processOutbound]
    dsimp only
    rw [if_neg (known_version hver), isMulticastOrBroadcast_eq, Outcome.ok_bind, decide_eq_true hmulti]
    rfl
  · by_cases h4 : IsV4 p
    · exact outbound_v4 _ _ _ _ hmulti h4
    · by_cases h6 : IsV6 p
      · exact outbound_v6 _ _ _ _ hmulti h6
      · refine ⟨p, .forward, if_pos ⟨mt isV4_iff.mpr h4, mt isV6_iff.mpr h6⟩, fun h => absurd h hmulti, fun _ _ hwell => ?_, nofun⟩
        rcases hwell with ⟨hver, -⟩ | ⟨hver, -⟩
        · exact absurd hver h4
        · exact absurd hver h6

/-- An echo request with one hop left. -/
def lastHop : Bytes := [0x45, 0, 0, 28, 0, 0, 0, 0, 1, 1, 0, 0, 10, 0, 0, 1, 10, 0, 0, 2, 8, 0, 0, 0, 0, 0, 0, 0]

/-- The error quotes a header that has no hop left. -/
theorem lastHop_quoted : ∃ p' pkt,
    processOutbound lastHop 1392 none ⟨[10, 0, 0, 1], rfl⟩ none = .ok (p', .injectIcmp pkt) ∧ (pkt.drop 28).take 20 ≠ lastHop.take 20 := by
  have hver : IsV4 lastHop := by decide
  obtain ⟨p', pkt, heq, hspec⟩ := outbound_expiredV4 (p := lastHop) 1392 none ⟨[10, 0, 0, 1], rfl⟩ none (by decide) hver (by decide) (by decide)
  refine ⟨p', pkt, heq, fun hquote => ?_⟩
  obtain ⟨hhop, ⟨-, herror⟩ | ⟨a6, hver6, -⟩⟩ := hspec.error pkt rfl
  · have hcount : octet p' 8 = 0 := UInt8.toNat_inj.mp hhop.hops
    have hlen := hhop.length
    have h0 : octet p' 0 = octet lastHop 0 := hhop.same 0 (by decide) (by decide)
    have hheader : HeaderV4 p' := headerV4_congr (by decide) hlen h0
    have hsize : headerSize p' = 20 := headerSize_congr h0
    have hoctet : octet ((quotedV4 p').take 20) 8 = octet p' 8 := by
      rw [quotedV4, if_pos hheader, hsize, List.take_take]
      exact octet_segment (a := 0) (by decide)
    rw [herror.quote] at hquote
    rw [hquote, hcount] at hoctet
    revert hoctet
    decide
  · exact absurd hver6 hver.not_isV6

end IPv8Plus.Compat
