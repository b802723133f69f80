import IPv8Plus.Codec.Layouts
import IPv8Plus.Cloud.Ans

/-!
# Payload layouts

The layouts of `ipv8-codec/src/layouts.rs` that have reserved bytes: `QosReservation`, `AgentCardSummary` and `RouteTrace`.
What is written has zeros there, what is read may have anything there. A layout of this form is read back from a packet that
carries it (`Layout.Reserves.faithful`).
-/

namespace IPv8Plus.Codec
open Lib

/-- The errors of a layout that are about rates. -/
inductive RateError where
  | badLen
  | rateTooLarge
  deriving DecidableEq, Repr

/-- A promised rate. -/
structure QosReservation where
  rateKibs : UInt32
  burstSize : UInt16
  queueHint : UInt8
  deriving DecidableEq, Repr

namespace QosReservation

def payloadLen : Nat := 8

/-- The rate takes 24 bits. -/
def toPayload (r : QosReservation) : Except RateError Bytes :=
  if (1 : UInt32) <<< 24 ≤ r.rateKibs then .error .rateTooLarge
  else .ok ((be32 r.rateKibs).drop 1 ++ be16 r.burstSize ++ [r.queueHint] ++ List.replicate 2 0)

def fromPayload (p : Bytes) : Outcome RateError QosReservation :=
  if p.length ≠ payloadLen then .err .badLen
  else do
    let hi ← idx p 0
    let mid ← idx p 1
    let lo ← idx p 2
    let burstSize ← readU16 p 3
    let queueHint ← idx p 5
    return { rateKibs := ofBe32 [0, hi, mid, lo], burstSize, queueHint }

end QosReservation

/-- The summary of a card as the name service has it. -/
abbrev AgentCardSummary := Cloud.Ans.AgentCardSummary

namespace AgentCardSummary

def payloadLen : Nat := 128

def toPayload (c : AgentCardSummary) : Bytes :=
  [c.version] ++ List.replicate 7 0 ++ c.cardHash.val ++ be64 c.notAfter ++ c.agentPubkey.val ++ c.cardSig.val

def fromPayload (p : Bytes) : Outcome LayoutError AgentCardSummary :=
  if p.length ≠ payloadLen then .err .badLen
  else do
    let version ← idx p 0
    let cardHash ← copyFromSlice 16 (← slice p 8 24)
    let notAfter ← copyFromSlice 8 (← slice p 24 32)
    let agentPubkey ← copyFromSlice 32 (← slice p 32 64)
    let cardSig ← copyFromSlice 64 (← slice p 64 128)
    return { version, cardHash, notAfter := ofBe64 notAfter.val, agentPubkey, cardSig }

end AgentCardSummary

/-- How a value is written as the payload of an extension, and where the reserved bytes are in it. -/
structure Layout (ε α : Type) where
  start : Nat
  count : Nat
  toPayload : α → Except ε Bytes
  fromPayload : Bytes → Outcome ε α

namespace Layout

variable {ε α : Type} {l : Layout ε α} {x : α} {p : Bytes}

/-- The payload with zeros for the reserved bytes. -/
def zeroed (l : Layout ε α) (p : Bytes) : Bytes := p.take l.start ++ List.replicate l.count 0 ++ p.drop (l.start + l.count)

/-- What is written is read back, also from a packet of constructed extensions of distinct types; what is read is written
again up to the reserved bytes. -/
structure Faithful (l : Layout ε α) : Prop where
  roundTrip : ∀ x p, l.toPayload x = .ok p → l.fromPayload p = .ok x
  fits : ∀ x p, l.toPayload x = .ok p → ∀ ty : ExtType, ty ≠ .none → ExtensionHeader.new ty p = some ⟨ty, p⟩
  carried : ∀ x p (hdr : IPv8Header) (payload bytes : Bytes), l.toPayload x = .ok p → encode hdr payload = .ok bytes → Constructed hdr.extHeaders →
    (hdr.extHeaders.map (·.extType)).Nodup → ∀ (i : Nat) ty, hdr.extHeaders[i]? = some ⟨ty, p⟩ →
      ∃ d e, decode bytes = .ok d ∧ d.header.extHeaders[i]? = some e ∧ e.extType = ty ∧
        (∀ e' ∈ d.header.extHeaders, e'.extType = ty → e' = e) ∧ l.fromPayload e.payload = .ok x
  rewritten : ∀ p x, l.fromPayload p = .ok x → l.toPayload x = .ok (l.zeroed p)

/-- A layout with bytes of the value in front of the reserved bytes and behind them. -/
structure Reserves (l : Layout ε α) (valid : α → Prop) (front back : α → Bytes) : Prop where
  write : ∀ x p, l.toPayload x = .ok p ↔ valid x ∧ p = front x ++ List.replicate l.count 0 ++ back x
  read : ∀ p x, l.fromPayload p = .ok x ↔ valid x ∧ ∃ rsv : Bytes, rsv.length = l.count ∧ p = front x ++ rsv ++ back x
  length_front : ∀ x, (front x).length = l.start
  aligned : ∀ x, (l.start + l.count + (back x).length) % 8 = 0
  bounds : ∀ x, valid x → 0 < l.start + l.count + (back x).length ∧ l.start + l.count + (back x).length ≤ 255 * 8

end Layout

/-- Constructed headers of distinct types have distinct type numbers. -/
lemma Constructed.nodup_wire {chain : List ExtensionHeader} (hc : Constructed chain) (hnodup : (chain.map (·.extType)).Nodup) :
    (chain.map (·.extType.wire)).Nodup := by
  have hmap : (chain.map (·.extType)).map ExtType.wire = chain.map (·.extType.wire) := List.map_map
  rw [← hmap]
  refine hnodup.map_on ?_
  intro ty hty ty' hty' hwire
  obtain ⟨e, he, rfl⟩ := List.mem_map.mp hty
  obtain ⟨e', he', rfl⟩ := List.mem_map.mp hty'
  rw [← (hc.wf e he).fromU8_wire, ← (hc.wf e' he').fromU8_wire, hwire]

namespace Layout

variable {ε α : Type} {l : Layout ε α} {valid : α → Prop} {front back : α → Bytes}

/-- A layout of this form is faithful. -/
theorem Reserves.faithful (h : l.Reserves valid front back) : l.Faithful := by
  have hround : ∀ x p, l.toPayload x = .ok p → l.fromPayload p = .ok x := by
    intro x p hp
    obtain ⟨hvalid, rfl⟩ := (h.write x p).mp hp
    exact (h.read _ x).mpr ⟨hvalid, _, List.length_replicate, rfl⟩
  refine ⟨hround, ?_, ?_, ?_⟩
  · intro x p hp ty hty
    obtain ⟨hvalid, rfl⟩ := (h.write x p).mp hp
    have hlen : (front x ++ List.replicate l.count 0 ++ back x).length = l.start + l.count + (back x).length := by
      rw [List.length_append, List.length_append, List.length_replicate, h.length_front]
    have haligned := h.aligned x
    have hbounds := h.bounds x hvalid
    rw [ExtensionHeader.new, if_neg hty, hlen, if_neg (by omega)]
  · intro x p hdr payload bytes hp henc hc hnodup i ty hi
    have hdec := decode_encode henc hc.wf (hc.nodup_wire hnodup) []
    rw [List.append_nil] at hdec
    refine ⟨_, ⟨ty, p⟩, hdec, hi, rfl, ?_, hround x p hp⟩
    intro e he hty
    exact List.inj_on_of_nodup_map hnodup he (List.mem_of_getElem? hi) hty
  · intro p x hp
    obtain ⟨hvalid, rsv, hrsv, rfl⟩ := (h.read p x).mp hp
    have hstart := h.length_front x
    have hcut : (front x ++ rsv).length = l.start + l.count := by rw [List.length_append, hstart, hrsv]
    refine (h.write x _).mpr ⟨hvalid, ?_⟩
    rw [zeroed, List.drop_left' hcut, List.append_assoc (front x) rsv, List.take_left' hstart]

end Layout
namespace QosReservation

/-- Two reserved bytes at the end. -/
def layout : Layout RateError QosReservation := ⟨6, 2, toPayload, fromPayload⟩

def frontBytes (r : QosReservation) : Bytes := (be32 r.rateKibs).drop 1 ++ be16 r.burstSize ++ [r.queueHint]

lemma exists_eight : ∀ {b : Bytes}, b.length = 8 → ∃ b0 b1 b2 b3 b4 b5 b6 b7 : UInt8, b = [b0, b1, b2, b3, b4, b5, b6, b7]
  | [_, _, _, _, _, _, _, _], _ => ⟨_, _, _, _, _, _, _, _, rfl⟩

/-- The rates of 24 bits are those whose first byte is zero. -/
lemma rate_iff {rate : UInt32} : ¬ (1 : UInt32) <<< 24 ≤ rate ↔ be32 rate = 0 :: (be32 rate).drop 1 := by
  have hfirst : be32 rate = UInt8.ofNat (rate.toNat / 16777216) :: (be32 rate).drop 1 := rfl
  have hlt := rate.toNat_lt
  rw [UInt32.le_iff_toNat_le, Nat.not_le]
  change rate.toNat < 16777216 ↔ _
  constructor
  · intro h
    rw [Nat.div_eq_of_lt h] at hfirst
    exact hfirst
  · intro h
    rw [h] at hfirst
    have hzero := congrArg UInt8.toNat (List.head_eq_of_cons_eq hfirst)
    rw [UInt8.toNat_ofNat'] at hzero
    change 0 = _ at hzero
    omega

/-- Whatever the reserved bytes are, the payload is read. -/
lemma fromPayload_append {r : QosReservation} {rsv : Bytes} (h : ¬ (1 : UInt32) <<< 24 ≤ r.rateKibs) (hrsv : rsv.length = 2) :
    fromPayload (r.frontBytes ++ rsv) = .ok r := by
  obtain ⟨a, b, rfl⟩ := List.length_eq_two.mp hrsv
  have hread : fromPayload (r.frontBytes ++ [a, b]) =
      .ok ⟨ofBe32 (0 :: (be32 r.rateKibs).drop 1), ofBe16 (be16 r.burstSize), r.queueHint⟩ := rfl
  rw [hread, ← rate_iff.mp h, ofBe32_be32, ofBe16_be16]

lemma layout_reserves : layout.Reserves (fun r => ¬ (1 : UInt32) <<< 24 ≤ r.rateKibs) frontBytes fun _ => [] := by
  refine ⟨?_, ?_, fun r => rfl, fun r => rfl, fun r _ => by decide⟩
  · intro r p
    rw [List.append_nil]
    change toPayload r = .ok p ↔ _ ∧ p = r.frontBytes ++ List.replicate 2 0
    rw [toPayload, frontBytes]
    split_ifs with hrate
    · exact iff_of_false nofun fun h => h.1 hrate
    · exact ⟨fun h => ⟨hrate, (Except.ok.inj h).symm⟩, fun h => congrArg Except.ok h.2.symm⟩
  · intro p r
    constructor
    · intro h
      have hlen : p.length = 8 := by
        by_contra hne
        rw [show layout.fromPayload p = .err .badLen from if_pos hne] at h
        cases h
      obtain ⟨b0, b1, b2, b3, b4, b5, b6, b7, rfl⟩ := exists_eight hlen
      have hread : layout.fromPayload [b0, b1, b2, b3, b4, b5, b6, b7] = .ok ⟨ofBe32 [0, b0, b1, b2], ofBe16 [b3, b4], b5⟩ := rfl
      rw [hread] at h
      cases h
      have hrate : be32 (ofBe32 [0, b0, b1, b2]) = [0, b0, b1, b2] := be32_ofBe32 rfl
      refine ⟨rate_iff.mpr ?_, [b6, b7], rfl, ?_⟩
      · rw [hrate]
        rfl
      · rw [frontBytes, hrate, be16_ofBe16 rfl]
        rfl
    · rintro ⟨hrate, rsv, hrsv, rfl⟩
      rw [List.append_nil]
      exact fromPayload_append hrate hrsv

end QosReservation

namespace AgentCardSummary

/-- Seven reserved bytes behind the version. -/
def layout : Layout LayoutError AgentCardSummary := ⟨1, 7, fun c => .ok c.toPayload, fromPayload⟩

def backBytes (c : AgentCardSummary) : Bytes := c.cardHash.val ++ be64 c.notAfter ++ c.agentPubkey.val ++ c.cardSig.val

lemma length_backBytes (c : AgentCardSummary) : (backBytes c).length = 120 := by
  rw [backBytes, List.length_append, List.length_append, List.length_append, length_be64, c.cardHash.property,
    c.agentPubkey.property, c.cardSig.property]

/-- Whatever the reserved bytes are, the payload is read. -/
lemma fromPayload_append {c : AgentCardSummary} {rsv : Bytes} (hrsv : rsv.length = 7) :
    fromPayload ([c.version] ++ rsv ++ backBytes c) = .ok c := by
  have hhead : ([c.version] ++ rsv).length = 8 := by
    rw [List.length_append, hrsv]
    rfl
  have hlen : ([c.version] ++ rsv ++ backBytes c).length = payloadLen := by
    rw [List.length_append, hhead, length_backBytes, payloadLen]
  have hversion : (idx ([c.version] ++ rsv ++ backBytes c) 0 : Outcome LayoutError UInt8) = .ok c.version := rfl
  have hhash : (slice ([c.version] ++ rsv ++ backBytes c) 8 24 : Outcome LayoutError Bytes) = .ok c.cardHash.val := by
    rw [backBytes, List.append_assoc c.cardHash.val, List.append_assoc c.cardHash.val]
    exact slice_mid hhead (congrArg (8 + ·) c.cardHash.property)
  have hexpiry : (slice ([c.version] ++ rsv ++ backBytes c) 24 32 : Outcome LayoutError Bytes) = .ok (be64 c.notAfter) := by
    rw [backBytes, List.append_assoc (c.cardHash.val ++ _), List.append_assoc c.cardHash.val, ← List.append_assoc _ c.cardHash.val]
    refine slice_mid ?_ (congrArg (24 + ·) (length_be64 _))
    rw [List.length_append, hhead, c.cardHash.property]
  have hkey : (slice ([c.version] ++ rsv ++ backBytes c) 32 64 : Outcome LayoutError Bytes) = .ok c.agentPubkey.val := by
    rw [backBytes, List.append_assoc (c.cardHash.val ++ _), ← List.append_assoc _ (c.cardHash.val ++ _)]
    refine slice_mid ?_ (congrArg (32 + ·) c.agentPubkey.property)
    rw [List.length_append, hhead, List.length_append, c.cardHash.property, length_be64]
  have hsig : (slice ([c.version] ++ rsv ++ backBytes c) 64 128 : Outcome LayoutError Bytes) = .ok c.cardSig.val := by
    rw [backBytes, ← List.append_assoc, ← List.append_nil (_ ++ c.cardSig.val), List.append_assoc _ c.cardSig.val]
    refine slice_mid ?_ (congrArg (64 + ·) c.cardSig.property)
    rw [List.length_append, hhead, List.length_append, List.length_append, c.cardHash.property, length_be64, c.agentPubkey.property]
  have harr : (copyFromSlice 8 (be64 c.notAfter) : Outcome LayoutError (Arr UInt8 8)) = .ok ⟨be64 c.notAfter, length_be64 _⟩ :=
    copyFromSlice_val ⟨be64 c.notAfter, length_be64 _⟩
  rw [fromPayload, if_neg (not_not_intro hlen), hversion, hhash, hexpiry, hkey, hsig]
  simp only [Outcome.ok_bind, copyFromSlice_val, harr, ofBe64_be64, Outcome.pure_def]

/-- 128 bytes are a summary with some reserved bytes. -/
lemma exists_append {p : Bytes} (h : p.length = payloadLen) :
    ∃ (c : AgentCardSummary) (rsv : Bytes), rsv.length = 7 ∧ p = [c.version] ++ rsv ++ backBytes c := by
  obtain ⟨version, rest, rfl, hrsv⟩ := exists_arr_append (n := 1) 127 h
  obtain ⟨rsv, rest, rfl, hhash⟩ := exists_arr_append (n := 7) 120 hrsv
  obtain ⟨cardHash, rest, rfl, hexpiry⟩ := exists_arr_append (n := 16) 104 hhash
  obtain ⟨expiry, rest, rfl, hkey⟩ := exists_arr_append (n := 8) 96 hexpiry
  obtain ⟨agentPubkey, rest, rfl, hsig⟩ := exists_arr_append (n := 32) 64 hkey
  obtain ⟨v, hversion⟩ := List.length_eq_one_iff.mp version.property
  refine ⟨⟨v, cardHash, ofBe64 expiry.val, agentPubkey, ⟨rest, hsig⟩⟩, rsv.val, rsv.property, ?_⟩
  simp only [backBytes, hversion, be64_ofBe64 expiry.property, List.append_assoc]

lemma layout_reserves : layout.Reserves (fun _ => True) (fun c => [c.version]) backBytes := by
  refine ⟨?_, ?_, fun c => rfl, ?_, ?_⟩
  · intro c p
    have hpayload : c.toPayload = [c.version] ++ List.replicate 7 0 ++ backBytes c := by
      rw [toPayload, backBytes]
      simp only [List.append_assoc]
    change Except.ok c.toPayload = .ok p ↔ _
    rw [hpayload]
    exact ⟨fun h => ⟨trivial, (Except.ok.inj h).symm⟩, fun h => congrArg Except.ok h.2.symm⟩
  · intro p c
    constructor
    · intro h
      have hlen : p.length = payloadLen := by
        by_contra hne
        rw [show layout.fromPayload p = .err .badLen from if_pos hne] at h
        cases h
      obtain ⟨c', rsv, hrsv, rfl⟩ := exists_append hlen
      rw [show layout.fromPayload _ = .ok c' from fromPayload_append hrsv] at h
      cases h
      exact ⟨trivial, rsv, hrsv, rfl⟩
    · rintro ⟨-, rsv, hrsv, rfl⟩
      exact fromPayload_append hrsv
  · intro c
    rw [length_backBytes]
    rfl
  · intro c _
    rw [length_backBytes]
    decide

end AgentCardSummary

namespace RouteTrace

/-- Six reserved bytes in front of the hops. -/
def layout : Layout LayoutError RouteTrace := ⟨98, 6, toPayload, fromPayload⟩

lemma layout_reserves : layout.Reserves (fun t => 0 < t.hops.length ∧ t.hops.length ≤ maxHops) frontBytes fun t => hopBytes t.hops := by
  refine ⟨?_, fun p t => fromPayload_eq_ok, length_frontBytes, ?_, ?_⟩
  · intro t p
    rw [and_assoc]
    exact toPayload_eq_ok
  · intro t
    rw [length_hopBytes]
    change (98 + 6 + 16 * t.hops.length) % 8 = 0
    omega
  · rintro t ⟨hpos, hle⟩
    rw [maxHops] at hle
    rw [length_hopBytes]
    change 0 < 98 + 6 + 16 * t.hops.length ∧ 98 + 6 + 16 * t.hops.length ≤ 255 * 8
    omega

end RouteTrace

/-- **The layouts are read back.** Routes of 1 to 64 hops, all summaries and all reservations that can be written are read from
the packets that carry them among constructed extensions of distinct types. -/
theorem layouts_faithful :
    (∀ t : RouteTrace, (∃ p, t.toPayload = .ok p) ↔ 0 < t.hops.length ∧ t.hops.length ≤ RouteTrace.maxHops) ∧
    RouteTrace.layout.Faithful ∧ AgentCardSummary.layout.Faithful ∧ QosReservation.layout.Faithful := by
  refine ⟨fun t => ?_, RouteTrace.layout_reserves.faithful, AgentCardSummary.layout_reserves.faithful,
    QosReservation.layout_reserves.faithful⟩
  constructor
  · rintro ⟨p, hp⟩
    exact ((RouteTrace.layout_reserves.write t p).mp hp).1
  · intro hvalid
    exact ⟨_, (RouteTrace.layout_reserves.write t _).mpr ⟨hvalid, rfl⟩⟩

/-- A token of 12 bytes, which `ExtensionHeader::new` refuses, stands before a reservation: the packet is encoded, and its decoder
loses the chain. -/
theorem behind_odd_token_lost :
    ¬ ∀ (r : QosReservation) (p : Bytes) (hdr : IPv8Header) (payload bytes : Bytes), r.toPayload = .ok p →
      encode hdr payload = .ok bytes → (hdr.extHeaders.map (·.extType)).Nodup →
        ∀ i : Nat, hdr.extHeaders[i]? = some ⟨.qosReservation, p⟩ →
          ∃ d e, decode bytes = .ok d ∧ d.header.extHeaders[i]? = some e ∧ QosReservation.fromPayload e.payload = .ok r := by
  intro h
  let a : IPv8Address := ⟨0xFB14, 0, 0, 0, 0, 0, 0, 0⟩
  let p : Bytes := [0, 4, 0, 0, 16, 3, 0, 0]
  let hdr := IPv8Header.build a a 0 0 64 0 [⟨.identityToken, List.replicate 12 0⟩, ⟨.qosReservation, p⟩]
  have hwrite : (⟨1024, 16, 3⟩ : QosReservation).toPayload = .ok p := by decide
  have henc : encode hdr [] = .ok (hdr.headBytes 0 ++ chainBytes hdr.extHeaders ++ []) := by decide
  have hdec : decode (hdr.headBytes 0 ++ chainBytes hdr.extHeaders ++ []) = .err .extLenZero := by decide +kernel
  obtain ⟨d, e, hd, -⟩ := h _ p hdr [] _ hwrite henc (by decide) 1 rfl
  rw [hdec] at hd
  cases hd

end IPv8Plus.Codec
