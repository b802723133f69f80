import IPv8Plus.Codec.RoundTrip
import IPv8Plus.Lib.Blocks

/-!
# The RouteTrace extension

The payload of a RouteTrace header and the message its signature is made of, from
`ipv8-codec/src/layouts.rs`. The message determines the fields it is made from (`routeTraceMessage_inj`), so
a signature over it is one over these fields.
-/

namespace IPv8Plus.Codec
open Lib

inductive LayoutError where
  | badLen
  | emptyHops
  | tooManyHops
  deriving DecidableEq, Repr

/-- The domain that separates path signatures from all other signatures: `ipv8plus-routetrace`. -/
def routeTraceDomain : Bytes :=
  [0x69, 0x70, 0x76, 0x38, 0x70, 0x6C, 0x75, 0x73, 0x2D, 0x72, 0x6F, 0x75, 0x74, 0x65, 0x74, 0x72, 0x61, 0x63, 0x65]

/-- A public key of the signature scheme. -/
abbrev PublicKey := Arr UInt8 32

abbrev Signature := Arr UInt8 64

/-- A source route with its signature. The last hop is the destination. -/
structure RouteTrace where
  srcPubkey : PublicKey
  pathSig : Signature
  initHopLimit : UInt8
  hops : List IPv8Address
  deriving DecidableEq, Repr

namespace RouteTrace

/-- Key, signature, the two counts and six reserved bytes. -/
def headerLen : Nat := 32 + 64 + 8

def hopcountIdx : Nat := 96

def inithlIdx : Nat := 97

def maxHops : Nat := 64

end RouteTrace

def hopBytes (hops : List IPv8Address) : Bytes := hops.flatMap IPv8Address.toBytes

namespace RouteTrace

def toPayload (t : RouteTrace) : Except LayoutError Bytes :=
  if t.hops.isEmpty then .error .emptyHops
  else if maxHops < t.hops.length then .error .tooManyHops
  else
    .ok (t.srcPubkey.val ++ t.pathSig.val ++ [UInt8.ofNat t.hops.length, t.initHopLimit] ++ List.replicate 6 0 ++
      hopBytes t.hops)

/-- The loop over the hop list. -/
def readHops (p : Bytes) (n : Nat) : Outcome LayoutError (List IPv8Address) :=
  (List.range n).mapM fun i => do
    let b ← slice p (headerLen + 16 * i) (headerLen + 16 * (i + 1))
    readAddr b

/-- The length must be exactly what the hop count says; the reserved bytes are ignored. -/
def fromPayload (p : Bytes) : Outcome LayoutError RouteTrace :=
  if p.length < headerLen then .err .badLen
  else do
    let n := (← idx p hopcountIdx).toNat
    if n = 0 then .err .emptyHops
    else if maxHops < n then .err .tooManyHops
    else if p.length ≠ headerLen + 16 * n then .err .badLen
    else do
      let hops ← readHops p n
      let srcPubkey ← copyFromSlice 32 (← slice p 0 32)
      let pathSig ← copyFromSlice 64 (← slice p 32 96)
      let initHopLimit ← idx p inithlIdx
      return { srcPubkey, pathSig, initHopLimit, hops }

end RouteTrace

/-- What a path signature covers. -/
structure TraceSigInput where
  srcAddr : IPv8Address
  dstAddr : IPv8Address
  minCompatVer : UInt8
  flags : UInt16
  payloadLen : UInt16
  initHopLimit : UInt8
  srcPubkey : PublicKey
  hops : List IPv8Address
  deriving DecidableEq, Repr

/-- The signed message: domain, key, bytes 0 to 6 of the base header with the initial hop limit and RouteTrace as
first extension, both addresses, and the hop list. -/
def routeTraceMessage (i : TraceSigInput) : Bytes :=
  routeTraceDomain ++ i.srcPubkey.val ++ [protoVersion <<< 4 ||| (i.minCompatVer &&& 0x0F)] ++ be16 i.flags ++
    be16 i.payloadLen ++ [i.initHopLimit, ExtType.routeTrace.wire] ++ i.srcAddr.toBytes ++ i.dstAddr.toBytes ++
    [UInt8.ofNat i.hops.length] ++ hopBytes i.hops

@[simp] lemma hopBytes_nil : hopBytes [] = [] := rfl

@[simp] lemma hopBytes_cons (h : IPv8Address) (hops : List IPv8Address) :
    hopBytes (h :: hops) = h.toBytes ++ hopBytes hops := rfl

@[simp] lemma length_hopBytes (hops : List IPv8Address) : (hopBytes hops).length = 16 * hops.length := by
  rw [hopBytes, length_blocks IPv8Address.length_toBytes, Nat.mul_comm]

/-- A multiple of 16 bytes is a hop list. -/
lemma exists_hopBytes {b : Bytes} {n : Nat} (h : b.length = 16 * n) : ∃ hops : List IPv8Address, hops.length = n ∧ hopBytes hops = b := by
  rw [Nat.mul_comm] at h
  exact exists_blocks (fun _ hb => exists_toBytes hb) h

/-- Hop lists are told apart by their bytes. -/
lemma hopBytes_injective : Function.Injective hopBytes := by
  intro hops hops' h
  induction hops generalizing hops' with
  | nil =>
    cases hops' with
    | nil => rfl
    | cons a hops' =>
      have hlen := congrArg List.length h
      rw [length_hopBytes, length_hopBytes, List.length_nil, List.length_cons] at hlen
      omega
  | cons a hops ih =>
    cases hops' with
    | nil =>
      have hlen := congrArg List.length h
      rw [length_hopBytes, length_hopBytes, List.length_nil, List.length_cons] at hlen
      omega
    | cons a' hops' =>
      rw [hopBytes_cons, hopBytes_cons] at h
      obtain ⟨hhead, htail⟩ := List.append_inj h (by rw [IPv8Address.length_toBytes, IPv8Address.length_toBytes])
      rw [IPv8Address.toBytes_injective hhead, ih htail]

/-- The message determines every field, the compatibility version up to its upper half. -/
theorem routeTraceMessage_inj {i i' : TraceSigInput} (h : routeTraceMessage i = routeTraceMessage i') :
    i.srcPubkey = i'.srcPubkey ∧ i.minCompatVer &&& 0x0F = i'.minCompatVer &&& 0x0F ∧ i.flags = i'.flags ∧
      i.payloadLen = i'.payloadLen ∧ i.initHopLimit = i'.initHopLimit ∧ i.srcAddr = i'.srcAddr ∧
      i.dstAddr = i'.dstAddr ∧ i.hops = i'.hops := by
  have hnibble : ∀ c : UInt8, (protoVersion <<< 4 ||| (c &&& 0x0F)) &&& 0x0F = c &&& 0x0F := by
    intro c
    have hall : ∀ n : Fin 256, (protoVersion <<< 4 ||| (UInt8.ofFin n &&& 0x0F)) &&& 0x0F = UInt8.ofFin n &&& 0x0F := by
      decide +kernel
    exact hall c.toFin
  unfold routeTraceMessage at h
  simp only [List.append_assoc] at h
  obtain ⟨-, h⟩ := List.append_inj h rfl
  obtain ⟨hkey, h⟩ := List.append_inj h (by rw [i.srcPubkey.property, i'.srcPubkey.property])
  obtain ⟨hver, h⟩ := List.append_inj h rfl
  obtain ⟨hflags, h⟩ := List.append_inj h (by rw [length_be16, length_be16])
  obtain ⟨hlen, h⟩ := List.append_inj h (by rw [length_be16, length_be16])
  obtain ⟨hhop, h⟩ := List.append_inj h rfl
  obtain ⟨hsrc, h⟩ := List.append_inj h (by rw [IPv8Address.length_toBytes, IPv8Address.length_toBytes])
  obtain ⟨hdst, h⟩ := List.append_inj h (by rw [IPv8Address.length_toBytes, IPv8Address.length_toBytes])
  obtain ⟨-, h⟩ := List.append_inj h rfl
  refine ⟨Subtype.ext hkey, ?_, be16_injective hflags, be16_injective hlen, List.head_eq_of_cons_eq hhop,
    IPv8Address.toBytes_injective hsrc, IPv8Address.toBytes_injective hdst, hopBytes_injective h⟩
  rw [← hnibble i.minCompatVer, List.head_eq_of_cons_eq hver, hnibble]

namespace RouteTrace

/-- The hops written behind any 104 bytes are read back. -/
lemma readHops_hopBytes {pre : Bytes} (hpre : pre.length = headerLen) (hops : List IPv8Address) :
    readHops (pre ++ hopBytes hops) hops.length = .ok hops := by
  rw [readHops]
  apply mapM_range
  intro i a ha
  have hslice := slice_blocks (ε := LayoutError) IPv8Address.length_toBytes pre [] ha
  rw [List.append_nil, hpre, Nat.add_assoc, ← Nat.succ_mul, Nat.mul_comm i, Nat.mul_comm i.succ] at hslice
  rw [hopBytes, hslice, Outcome.ok_bind, readAddr_toBytes]

/-- The fixed part of the payload. -/
def headBytes (t : RouteTrace) : Bytes :=
  t.srcPubkey.val ++ t.pathSig.val ++ [UInt8.ofNat t.hops.length, t.initHopLimit] ++ List.replicate 6 0

lemma toPayload_eq_ok {t : RouteTrace} {p : Bytes} :
    t.toPayload = .ok p ↔ 0 < t.hops.length ∧ t.hops.length ≤ maxHops ∧ p = t.headBytes ++ hopBytes t.hops := by
  unfold toPayload
  cases hh : t.hops with
  | nil =>
    constructor
    · intro h
      cases h
    · rintro ⟨h, -⟩
      exact absurd h (Nat.lt_irrefl 0)
  | cons a hops =>
    rw [if_neg (by exact Bool.false_ne_true)]
    split_ifs with hmany
    · constructor
      · intro h
        cases h
      · rintro ⟨-, h, -⟩
        exact absurd hmany (Nat.not_lt.mpr h)
    · constructor
      · intro h
        cases h
        refine ⟨Nat.succ_pos _, Nat.le_of_not_lt hmany, ?_⟩
        rw [headBytes, hh]
      · rintro ⟨-, -, rfl⟩
        rw [headBytes, hh]

/-- Key, signature and the two counts. -/
def frontBytes (t : RouteTrace) : Bytes := t.srcPubkey.val ++ t.pathSig.val ++ [UInt8.ofNat t.hops.length, t.initHopLimit]

/-- The reserved bytes are written as zeros. -/
lemma headBytes_eq (t : RouteTrace) : t.headBytes = t.frontBytes ++ List.replicate 6 0 := rfl

lemma length_frontBytes (t : RouteTrace) : t.frontBytes.length = 98 := by
  simp only [frontBytes, List.length_append, t.srcPubkey.property, t.pathSig.property, List.length_cons, List.length_nil]

section
variable (t : RouteTrace) (rest : Bytes)

/-- A byte behind key and signature. -/
lemma getElem?_frontBytes {k : Nat} {b : UInt8} (h : [UInt8.ofNat t.hops.length, t.initHopLimit][k]? = some b) :
    (t.frontBytes ++ rest)[96 + k]? = some b := by
  have hfront : (t.srcPubkey.val ++ t.pathSig.val).length = 96 := by
    rw [List.length_append, t.srcPubkey.property, t.pathSig.property]
  have hk : k < [UInt8.ofNat t.hops.length, t.initHopLimit].length := (List.getElem?_eq_some_iff.mp h).1
  rw [frontBytes, List.append_assoc, List.getElem?_append_right (by omega), hfront, Nat.add_sub_cancel_left,
    List.getElem?_append_left hk]
  exact h

lemma slice_srcPubkey : (slice (t.frontBytes ++ rest) 0 32 : Outcome LayoutError Bytes) = .ok t.srcPubkey.val := by
  rw [frontBytes, List.append_assoc, List.append_assoc, ← List.nil_append (t.srcPubkey.val ++ _)]
  exact slice_mid rfl ((Nat.zero_add _).trans t.srcPubkey.property)

lemma slice_pathSig : (slice (t.frontBytes ++ rest) 32 96 : Outcome LayoutError Bytes) = .ok t.pathSig.val := by
  rw [frontBytes, List.append_assoc, List.append_assoc]
  exact slice_mid t.srcPubkey.property (congrArg (32 + ·) t.pathSig.property)

end

/-- Whatever the reserved bytes are, the payload is read. -/
lemma fromPayload_append {t : RouteTrace} {rsv : Bytes} (hpos : 0 < t.hops.length) (hle : t.hops.length ≤ maxHops)
    (hrsv : rsv.length = 6) : fromPayload (t.frontBytes ++ rsv ++ hopBytes t.hops) = .ok t := by
  have hcount : (UInt8.ofNat t.hops.length).toNat = t.hops.length :=
    UInt8.toNat_ofNat_of_lt' (Nat.lt_of_le_of_lt hle (by decide))
  have hhead : (t.frontBytes ++ rsv).length = headerLen := by
    rw [List.length_append, length_frontBytes, hrsv, headerLen]
  have hlen : (t.frontBytes ++ rsv ++ hopBytes t.hops).length = headerLen + 16 * t.hops.length := by
    rw [List.length_append, hhead, length_hopBytes]
  have hread := readHops_hopBytes hhead t.hops
  rw [List.append_assoc] at hlen hread ⊢
  have hn : (idx (t.frontBytes ++ (rsv ++ hopBytes t.hops)) hopcountIdx : Outcome LayoutError UInt8) =
      .ok (UInt8.ofNat t.hops.length) := idx_of_getElem? (t.getElem?_frontBytes _ (k := 0) rfl)
  have hhop : (idx (t.frontBytes ++ (rsv ++ hopBytes t.hops)) inithlIdx : Outcome LayoutError UInt8) =
      .ok t.initHopLimit := idx_of_getElem? (t.getElem?_frontBytes _ (k := 1) rfl)
  unfold fromPayload
  rw [if_neg (by omega), hn]
  simp only [Outcome.ok_bind, hcount]
  rw [if_neg (by omega), if_neg (Nat.not_lt.mpr hle), if_neg (not_not_intro hlen), hread, slice_srcPubkey, slice_pathSig, hhop]
  simp only [Outcome.ok_bind, copyFromSlice_val, Outcome.pure_def]

/-- A payload that was written is read back. -/
theorem fromPayload_toPayload {t : RouteTrace} {p : Bytes} (h : t.toPayload = .ok p) : fromPayload p = .ok t := by
  obtain ⟨hpos, hle, rfl⟩ := toPayload_eq_ok.mp h
  rw [headBytes_eq]
  exact fromPayload_append hpos hle List.length_replicate

/-- Key, signature and counts in front of any bytes. -/
lemma exists_frontBytes {p : Bytes} {hops : List IPv8Address} (hlen : 98 ≤ p.length)
    (hcount : p[96]? = some (UInt8.ofNat hops.length)) : ∃ t : RouteTrace, t.hops = hops ∧ t.frontBytes = p.take 98 := by
  have hkey : (p.take 32).length = 32 := List.length_take_of_le (by omega)
  have hsig : ((p.drop 32).take 64).length = 64 := List.length_take_of_le (by rw [List.length_drop]; omega)
  refine ⟨⟨⟨p.take 32, hkey⟩, ⟨(p.drop 32).take 64, hsig⟩, p[97], hops⟩, rfl, ?_⟩
  have hcut : p.take 98 = p.take 32 ++ ((p.drop 32).take 64 ++ ((p.drop 96).take 2)) := by
    rw [show 98 = 32 + (64 + 2) from rfl, List.take_add, List.take_add, List.drop_drop]
  have htwo : (p.drop 96).take 2 = [UInt8.ofNat hops.length, p[97]] := by
    rw [take_drop_succ hcount, take_drop_succ (List.getElem?_eq_getElem (by omega)), List.take_zero]
  rw [hcut, htwo, frontBytes, List.append_assoc]

/-- What is read are the payloads of source routes, whatever their reserved bytes are. -/
lemma fromPayload_eq_ok {t : RouteTrace} {p : Bytes} : fromPayload p = .ok t ↔
    (0 < t.hops.length ∧ t.hops.length ≤ maxHops) ∧ ∃ rsv : Bytes, rsv.length = 6 ∧ p = t.frontBytes ++ rsv ++ hopBytes t.hops := by
  constructor
  · intro h
    have hread := h
    unfold fromPayload at h
    split_ifs at h with hshort
    obtain ⟨c, hc, h⟩ := Outcome.bind_eq_ok.mp h
    dsimp only at h
    split_ifs at h with hzero hmany hlen
    have hlen := not_not.mp hlen
    rw [headerLen] at hlen hshort
    obtain ⟨hops, hcount, hbytes⟩ := exists_hopBytes (b := p.drop 104) (n := c.toNat) (by rw [List.length_drop]; omega)
    have hstored : p[96]? = some (UInt8.ofNat hops.length) := by
      rw [hcount, UInt8.ofNat_toNat]
      exact idx_eq_ok.mp hc
    obtain ⟨t', rfl, hfront⟩ := exists_frontBytes (by omega) hstored
    have hsplit : p = t'.frontBytes ++ (p.drop 98).take 6 ++ hopBytes t'.hops := by
      rw [hfront, hbytes, ← List.take_add, List.take_append_drop]
    have hrsv : ((p.drop 98).take 6).length = 6 := List.length_take_of_le (by rw [List.length_drop]; omega)
    have hbounds : 0 < t'.hops.length ∧ t'.hops.length ≤ maxHops := by omega
    rw [hsplit, fromPayload_append hbounds.1 hbounds.2 hrsv] at hread
    cases hread
    exact ⟨hbounds, _, hrsv, hsplit⟩
  · rintro ⟨⟨hpos, hle⟩, rsv, hrsv, rfl⟩
    exact fromPayload_append hpos hle hrsv

end RouteTrace

end IPv8Plus.Codec
