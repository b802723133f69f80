import IPv8Plus.Compat.WholeSegment

/-!
# Errors

`core/ipv8-compat/src/icmp.rs`: the errors Time Exceeded, Fragmentation Needed and Packet Too Big, with the header of the
packet they are about and the eight bytes behind it. Their checksums are right, whatever the packet.
-/

namespace IPv8Plus.Compat
open Lib

/-- An error message before its checksum: type, code, a word that ends the eight bytes of its header, and what it quotes. -/
def icmpError (type code : UInt8) (off : Nat) (word payload : Bytes) : Call Bytes := do
  let icmp ← put (List.replicate (8 + payload.length) 0) 0 type
  let icmp ← put icmp 1 code
  let icmp ← copyInto icmp off 8 word
  copyInto icmp 8 icmp.length payload

/-- A packet of version 4 from us, with the header before its checksum and nothing behind it yet. -/
def outerV4 (totalLen : Nat) (ourAddr : Arr UInt8 4) (src : Bytes) : Call Bytes := do
  let pkt ← put (List.replicate totalLen 0) 0 0x45
  let pkt ← copyInto pkt 2 4 (be16 (UInt16.ofNat totalLen))
  let pkt ← put pkt 8 64
  let pkt ← put pkt 9 1
  let pkt ← setIpv4Src pkt ourAddr
  setIpv4Dst pkt src

/-- A packet of version 6 from us, with the header and nothing behind it yet. -/
def outerV6 (icmpLen : Nat) (ourAddr : Arr UInt8 16) (src : Bytes) : Call Bytes := do
  let pkt ← put (List.replicate (40 + icmpLen) 0) 0 0x60
  let pkt ← copyInto pkt 4 6 (be16 (UInt16.ofNat icmpLen))
  let pkt ← put pkt 6 58
  let pkt ← put pkt 7 64
  let pkt ← setIpv6Src pkt ourAddr
  setIpv6Dst pkt src

/-- An error of version 4, with the next hop's MTU. -/
def errorV4 (type code : UInt8) (mtu : UInt16) (original : Bytes) (ourAddr : Arr UInt8 4) : Call (Option Bytes) :=
  if ipVersion original ≠ 4 ∨ original.length < 20 then return none
  else do
    match ← ipv4Src original with
    | none => return none
    | some src =>
      let origIhl ← ipv4Ihl original
      let payload ← slice original 0 (min (origIhl + 8) original.length)
      let icmp ← icmpError type code 6 (be16 mtu) payload
      let (cs, icmp) ← icmpChecksum icmp
      let icmp ← putHalves icmp 2 cs
      let pkt ← outerV4 (20 + icmp.length) ourAddr src
      let (ipCs, pkt) ← ipHeaderChecksum pkt
      let pkt ← putHalves pkt 10 ipCs
      return some (← copyInto pkt 20 pkt.length icmp)

/-- An error of version 6, with the MTU. -/
def errorV6 (type code : UInt8) (mtu : UInt32) (original : Bytes) (ourAddr : Arr UInt8 16) : Call (Option Bytes) :=
  if ipVersion original ≠ 6 ∨ original.length < 40 then return none
  else do
    match ← ipv6Src original with
    | none => return none
    | some src =>
      let payload ← slice original 0 (min (40 + 8) original.length)
      let icmp ← icmpError type code 4 (be32 mtu) payload
      let pkt ← outerV6 icmp.length ourAddr src
      let pkt ← copyInto pkt 40 pkt.length icmp
      let (cs, pkt) ← icmpv6Checksum pkt
      return some (← putHalves pkt 42 cs)

/-- The word of a Time Exceeded is not used, and stays zero. -/
def generateTimeExceededV4 (original : Bytes) (ourAddr : Arr UInt8 4) : Call (Option Bytes) := errorV4 11 0 0 original ourAddr

def generateFragNeededV4 (original : Bytes) (ourAddr : Arr UInt8 4) (mtu : UInt16) : Call (Option Bytes) :=
  errorV4 3 4 mtu original ourAddr

def generateTimeExceededV6 (original : Bytes) (ourAddr : Arr UInt8 16) : Call (Option Bytes) := errorV6 3 0 0 original ourAddr

def generatePacketTooBigV6 (original : Bytes) (ourAddr : Arr UInt8 16) (mtu : UInt32) : Call (Option Bytes) :=
  errorV6 2 0 mtu original ourAddr

variable {p data : Bytes} {a b i n : Nat}

lemma copyInto_eq (hab : a ≤ b) (hb : b ≤ p.length) (hdata : data.length = b - a) :
    copyInto p a b data = .ok (p.take a ++ data ++ p.drop b) := if_pos ⟨hab, hb, hdata⟩

/-- Bytes that take the place of all that stands behind a front. -/
lemma copyInto_rest (front : Bytes) {old : Bytes} (hfront : front.length = a) (hold : old.length = data.length) :
    copyInto (front ++ old) a (front ++ old).length data = .ok (front ++ data) := by
  rw [copyInto_eq (by rw [List.length_append]; omega) le_rfl (by rw [List.length_append]; omega), List.take_left' hfront, List.drop_length,
    List.append_nil]

lemma icmpError_v4 (type code : UInt8) (mtu : UInt16) (payload : Bytes) :
    icmpError type code 6 (be16 mtu) payload = .ok ([type, code, 0, 0, 0, 0] ++ be16 mtu ++ payload) := by
  obtain ⟨hi, lo, hmtu⟩ := List.length_eq_two.mp (length_be16 mtu)
  have hzeros : List.replicate (8 + payload.length) (0 : UInt8) = List.replicate 8 0 ++ List.replicate payload.length 0 :=
    List.replicate_add 8 _ 0
  rw [icmpError, hmtu, hzeros]
  exact copyInto_rest [type, code, 0, 0, 0, 0, hi, lo] rfl List.length_replicate

lemma outerV4_eq (n : Nat) (ourAddr : Arr UInt8 4) (src : Bytes) (hsrc : src.length = 4) :
    outerV4 (20 + n) ourAddr src = .ok ([0x45, 0] ++ be16 (UInt16.ofNat (20 + n)) ++ [0, 0, 0, 0, 64, 1, 0, 0] ++ ourAddr.val ++ src ++
      List.replicate n 0) := by
  obtain ⟨hi, lo, htotal⟩ := List.length_eq_two.mp (length_be16 (UInt16.ofNat (20 + n)))
  have hzeros : List.replicate (20 + n) (0 : UInt8) = List.replicate 20 0 ++ List.replicate n 0 := List.replicate_add 20 n 0
  match ourAddr, src, hsrc with
  | ⟨[a, b, c, d], _⟩, [e, f, g, h], _ =>
    rw [outerV4, htotal, hzeros]
    rfl

lemma icmpError_v6 (type code : UInt8) (mtu : UInt32) (payload : Bytes) :
    icmpError type code 4 (be32 mtu) payload = .ok ([type, code, 0, 0] ++ be32 mtu ++ payload) := by
  have hzeros : List.replicate (8 + payload.length) (0 : UInt8) = List.replicate 8 0 ++ List.replicate payload.length 0 :=
    List.replicate_add 8 _ 0
  match be32 mtu, length_be32 mtu with
  | [a, b, c, d], _ =>
    rw [icmpError, hzeros]
    exact copyInto_rest [type, code, 0, 0, a, b, c, d] rfl List.length_replicate

lemma outerV6_eq (n : Nat) (ourAddr : Arr UInt8 16) (src : Bytes) (hsrc : src.length = 16) :
    outerV6 n ourAddr src = .ok ([0x60, 0, 0, 0] ++ be16 (UInt16.ofNat n) ++ [58, 64] ++ ourAddr.val ++ src ++ List.replicate n 0) := by
  obtain ⟨hi, lo, hlen⟩ := List.length_eq_two.mp (length_be16 (UInt16.ofNat n))
  have hzeros : List.replicate (40 + n) (0 : UInt8) = List.replicate 40 0 ++ List.replicate n 0 := List.replicate_add 40 n 0
  match ourAddr, src, hsrc with
  | ⟨[_, _, _, _, _, _, _, _, _, _, _, _, _, _, _, _], _⟩, [_, _, _, _, _, _, _, _, _, _, _, _, _, _, _, _], _ =>
    rw [outerV6, hlen, hzeros]
    rfl

/-! ## What the errors are -/

/-- Bytes with the checksum over themselves at an offset. -/
def withChecksum (p : Bytes) (i : Nat) : Bytes := putWord p i (checksum (putWord p i 0))

lemma folded_withChecksum (hlen : p.length ≤ sumLimit) (h : i + 1 < p.length) (heven : i % 2 = 0) :
    folded (sum16 (withChecksum p i)) = 0xFFFF := by
  have hsum := folded_checksum 0 h heven
  rw [Nat.zero_add, Nat.zero_add] at hsum
  rw [withChecksum, checksum_eq (by rwa [length_putWord])]
  exact hsum

def headerOutV4 (totalLen : Nat) (ourAddr : Arr UInt8 4) (src : Bytes) : Bytes :=
  [0x45, 0] ++ be16 (UInt16.ofNat totalLen) ++ [0, 0, 0, 0, 64, 1, 0, 0] ++ ourAddr.val ++ src

def headerOutV6 (icmpLen : Nat) (ourAddr : Arr UInt8 16) (src : Bytes) : Bytes :=
  [0x60, 0, 0, 0] ++ be16 (UInt16.ofNat icmpLen) ++ [58, 64] ++ ourAddr.val ++ src

lemma length_headerOutV4 {ourAddr : Arr UInt8 4} {src : Bytes} (hsrc : src.length = 4) : (headerOutV4 n ourAddr src).length = 20 := by
  simp [headerOutV4, hsrc, ourAddr.property]

lemma length_headerOutV6 {ourAddr : Arr UInt8 16} {src : Bytes} (hsrc : src.length = 16) : (headerOutV6 n ourAddr src).length = 40 := by
  simp [headerOutV6, hsrc, ourAddr.property]

/-- What is quoted of a packet of version 4: its header, if it has one, and at most eight bytes more. -/
def quotedV4 (p : Bytes) : Bytes := p.take ((if HeaderV4 p then headerSize p else 0) + 8)

def quotedV6 (p : Bytes) : Bytes := p.take (40 + 8)

lemma take_min_length (p : Bytes) (n : Nat) : p.take (min n p.length) = p.take n := by
  rcases Nat.le_total n p.length with h | h
  · rw [Nat.min_eq_left h]
  · rw [Nat.min_eq_right h, List.take_length, List.take_of_length_le h]

lemma putWord_append {q : Bytes} {w : UInt16} (h : i + 1 < p.length) : putWord (p ++ q) i w = putWord p i w ++ q := by
  rw [putWord, List.set_append_left _ _ (Nat.lt_of_succ_lt h), List.set_append_left _ _ (by rwa [List.length_set]), putWord]

lemma length_message {type code : UInt8} {word : Bytes} {k : Nat} (hword : word.length + k = 6) :
    (type :: code :: List.replicate k 0 ++ word ++ data).length = 8 + data.length := by
  rw [List.length_append, List.length_append, List.length_cons, List.length_cons, List.length_replicate]
  omega

/-- The packet of version 4 around a message, which its header announces. -/
lemma outer_packetV4 (ourAddr : Arr UInt8 4) {src icmp : Bytes} (hsrc : src.length = 4) : (do
      let pkt ← outerV4 (20 + icmp.length) ourAddr src
      let (ipCs, pkt) ← ipHeaderChecksum pkt
      let pkt ← putHalves pkt 10 ipCs
      return some (← copyInto pkt 20 pkt.length icmp) : Call (Option Bytes)) =
    .ok (some (withChecksum (headerOutV4 (20 + icmp.length) ourAddr src) 10 ++ icmp)) := by
  have hlen : (headerOutV4 (20 + icmp.length) ourAddr src).length = 20 := length_headerOutV4 hsrc
  have hzeros : (List.replicate icmp.length (0 : UInt8)).length = icmp.length := List.length_replicate
  generalize hz : List.replicate icmp.length (0 : UInt8) = zeros at hzeros
  have hsize : headerSize (headerOutV4 (20 + icmp.length) ourAddr src ++ zeros) = 20 := by
    rw [headerSize, show octet (headerOutV4 (20 + icmp.length) ourAddr src ++ zeros) 0 = 0x45 from rfl]
    rfl
  have hall : (headerOutV4 (20 + icmp.length) ourAddr src ++ zeros).length = 20 + icmp.length := by
    rw [List.length_append, hlen, hzeros]
  have hsum : (putWord (headerOutV4 (20 + icmp.length) ourAddr src ++ zeros) 10 0).take 20 =
      putWord (headerOutV4 (20 + icmp.length) ourAddr src) 10 0 := by
    rw [putWord_append (by omega), List.take_left' (by rwa [length_putWord])]
  rw [outerV4_eq _ _ _ hsrc, Outcome.ok_bind, ← headerOutV4, hz, ipHeaderChecksum_eq (by omega) (by omega), Outcome.ok_bind, hsize]
  dsimp only
  rw [putHalves_eq (by rw [length_putWord]; omega), Outcome.ok_bind, putWord_putWord, hsum, putWord_append (by omega), ← withChecksum,
    copyInto_rest _ (by rw [withChecksum, length_putWord, hlen]) hzeros]
  rfl

lemma errorV4_eq (type code : UInt8) (mtu : UInt16) (ourAddr : Arr UInt8 4) (hver : IsV4 p) (h20 : 20 ≤ p.length) :
    errorV4 type code mtu p ourAddr = .ok (some (
      withChecksum (headerOutV4 (20 + (8 + (quotedV4 p).length)) ourAddr ((p.drop 12).take 4)) 10 ++
      withChecksum ([type, code, 0, 0, 0, 0] ++ be16 mtu ++ quotedV4 p) 2)) := by
  have hihl : ipv4Ihl p = .ok (if HeaderV4 p then headerSize p else 0) := by
    by_cases hheader : HeaderV4 p
    · rw [if_pos hheader, ipv4Ihl_of_header hver hheader]
    · rw [if_neg hheader, ipv4Ihl_of_not_header fun h => hheader h.2]
  have hsrc : ((p.drop 12).take 4).length = 4 := by
    rw [List.length_take, List.length_drop]
    omega
  have hmessage : ([type, code, 0, 0, 0, 0] ++ be16 mtu ++ quotedV4 p).length = 8 + (quotedV4 p).length :=
    length_message (k := 4) (by rw [length_be16])
  have hchecked : (withChecksum ([type, code, 0, 0, 0, 0] ++ be16 mtu ++ quotedV4 p) 2).length = 8 + (quotedV4 p).length := by
    rw [withChecksum, length_putWord, hmessage]
  rw [errorV4, if_neg (not_or.mpr ⟨not_not.mpr (isV4_iff.mp hver), Nat.not_lt.mpr h20⟩), ipv4Src, if_neg (by omega),
    slice_of_le (by omega) (by omega), Outcome.map_ok, Outcome.ok_bind]
  dsimp only
  rw [hihl, Outcome.ok_bind, slice_front (Nat.min_le_right _ _), Outcome.ok_bind, take_min_length, ← quotedV4, icmpError_v4, Outcome.ok_bind,
    icmpChecksum_eq (by omega), Outcome.ok_bind]
  dsimp only
  rw [putHalves_eq (by rw [length_putWord]; omega), Outcome.ok_bind, putWord_putWord, ← withChecksum, outer_packetV4 ourAddr hsrc, hchecked]

/-- A packet of version 6 with the checksum of its message. -/
def withChecksumV6 (pkt : Bytes) : Bytes := putWord pkt 42 (combine (pseudoV6 pkt 40 58) (putWord (pkt.drop 40) 2 0))

lemma errorV6_eq (type code : UInt8) (mtu : UInt32) (ourAddr : Arr UInt8 16) (hver : IsV6 p) (h40 : 40 ≤ p.length) :
    errorV6 type code mtu p ourAddr = .ok (some (withChecksumV6 (
      headerOutV6 (8 + (quotedV6 p).length) ourAddr ((p.drop 8).take 16) ++ ([type, code, 0, 0] ++ be32 mtu ++ quotedV6 p)))) := by
  have hsrc : ((p.drop 8).take 16).length = 16 := by
    rw [List.length_take, List.length_drop]
    omega
  have hmessage : ([type, code, 0, 0] ++ be32 mtu ++ quotedV6 p).length = 8 + (quotedV6 p).length :=
    length_message (k := 2) (by rw [length_be32])
  have hheader : (headerOutV6 (8 + (quotedV6 p).length) ourAddr ((p.drop 8).take 16)).length = 40 := length_headerOutV6 hsrc
  have hall : (headerOutV6 (8 + (quotedV6 p).length) ourAddr ((p.drop 8).take 16) ++
      ([type, code, 0, 0] ++ be32 mtu ++ quotedV6 p)).length = 40 + (8 + (quotedV6 p).length) := by
    rw [List.length_append, hheader, hmessage]
  rw [errorV6, if_neg (not_or.mpr ⟨not_not.mpr (isV6_iff.mp hver), Nat.not_lt.mpr h40⟩), ipv6Src, if_neg (by omega),
    slice_of_le (by omega) (by omega), Outcome.map_ok, Outcome.ok_bind]
  dsimp only
  rw [slice_front (Nat.min_le_right _ _), Outcome.ok_bind, take_min_length, ← quotedV6, icmpError_v6, Outcome.ok_bind, hmessage,
    outerV6_eq _ _ _ hsrc, Outcome.ok_bind, ← headerOutV6, copyInto_rest _ hheader (by rw [List.length_replicate, hmessage]), Outcome.ok_bind,
    icmpv6Checksum_eq (by omega), Outcome.ok_bind]
  dsimp only
  rw [putHalves_eq (by rw [length_putWord]; omega), Outcome.ok_bind, putWord_putWord]
  rfl

/-! ## What an error is -/

/-- An error of version 4 from our address: its lengths and checksums are right. -/
structure ErrorV4 (pkt : Bytes) (ourAddr : Arr UInt8 4) (dst quoted : Bytes) : Prop where
  version : IsV4 pkt
  header : HeaderV4 pkt
  total : (word pkt 2).toNat = pkt.length
  proto : octet pkt 9 = 1
  source : (pkt.drop 12).take 4 = ourAddr.val
  destination : (pkt.drop 16).take 4 = dst
  headerSum : HeaderVerifies pkt
  icmpSum : folded (sum16 (pkt.drop 20)) = 0xFFFF
  quote : pkt.drop 28 = quoted

/-- An error of version 6 from our address: its lengths and its checksum are right. -/
structure ErrorV6 (pkt : Bytes) (ourAddr : Arr UInt8 16) (dst quoted : Bytes) : Prop where
  version : IsV6 pkt
  total : 40 + (word pkt 4).toNat = pkt.length
  next : octet pkt 6 = 58
  source : (pkt.drop 8).take 16 = ourAddr.val
  destination : (pkt.drop 24).take 16 = dst
  icmpSum : folded (sum16 (pseudoV6 pkt 40 58) + sum16 (pkt.drop 40)) = 0xFFFF
  quote : pkt.drop 48 = quoted

lemma toNat_ofBe16_be16 (h : n < 65536) : (ofBe16 (be16 (UInt16.ofNat n))).toNat = n := by
  rw [ofBe16_be16]
  exact UInt16.toNat_ofNat_of_lt' h

/-- The bytes of the header out, with its checksum. -/
lemma headerOutV4_fields (ourAddr : Arr UInt8 4) {src : Bytes} (hsrc : src.length = 4) (w : UInt16) (rest : Bytes) :
    let pkt := putWord (headerOutV4 n ourAddr src) 10 w ++ rest
    octet pkt 0 = 0x45 ∧ word pkt 2 = ofBe16 (be16 (UInt16.ofNat n)) ∧ octet pkt 9 = 1 ∧ (pkt.drop 12).take 4 = ourAddr.val ∧
      (pkt.drop 16).take 4 = src := by
  obtain ⟨hi, lo, htotal⟩ := List.length_eq_two.mp (length_be16 (UInt16.ofNat n))
  match ourAddr, src, hsrc with
  | ⟨[a, b, c, d], _⟩, [e, f, g, h], _ =>
    rw [headerOutV4, htotal]
    exact ⟨rfl, rfl, rfl, rfl, rfl⟩

lemma headerOutV6_fields (ourAddr : Arr UInt8 16) {src : Bytes} (hsrc : src.length = 16) (rest : Bytes) :
    let pkt := headerOutV6 n ourAddr src ++ rest
    octet pkt 0 = 0x60 ∧ word pkt 4 = ofBe16 (be16 (UInt16.ofNat n)) ∧ octet pkt 6 = 58 ∧ (pkt.drop 8).take 16 = ourAddr.val ∧
      (pkt.drop 24).take 16 = src := by
  obtain ⟨hi, lo, htotal⟩ := List.length_eq_two.mp (length_be16 (UInt16.ofNat n))
  match ourAddr, src, hsrc with
  | ⟨[_, _, _, _, _, _, _, _, _, _, _, _, _, _, _, _], _⟩, [_, _, _, _, _, _, _, _, _, _, _, _, _, _, _, _], _ =>
    rw [headerOutV6, htotal]
    exact ⟨rfl, rfl, rfl, rfl, rfl⟩

lemma length_quotedV4_le (p : Bytes) : (quotedV4 p).length ≤ 68 := by
  have hle : (octet p 0 &&& 0x0F).toNat ≤ 15 := by
    rw [UInt8.toNat_and]
    exact Nat.and_le_right
  rw [quotedV4, List.length_take, headerSize]
  split_ifs <;> omega

/-- A message in its packet is an error. -/
lemma errorV4_of_message {message quoted src : Bytes} (ourAddr : Arr UInt8 4) (hsrc : src.length = 4)
    (hlen : message.length = 8 + quoted.length) (hback : message.drop 8 = quoted) (hquoted : quoted.length ≤ 68) :
    ErrorV4 (withChecksum (headerOutV4 (20 + (8 + quoted.length)) ourAddr src) 10 ++ withChecksum message 2) ourAddr src quoted := by
  have hheader : (headerOutV4 (20 + (8 + quoted.length)) ourAddr src).length = 20 := length_headerOutV4 hsrc
  have hsum := folded_withChecksum (p := headerOutV4 (20 + (8 + quoted.length)) ourAddr src) (i := 10)
    (by rw [hheader, sumLimit]; omega) (by omega) rfl
  have hfront : (withChecksum (headerOutV4 (20 + (8 + quoted.length)) ourAddr src) 10).length = 20 := by
    rw [withChecksum, length_putWord, hheader]
  obtain ⟨h0, htotal, hproto, hsource, hdestination⟩ := headerOutV4_fields (n := 20 + (8 + quoted.length)) ourAddr hsrc
    (checksum (putWord (headerOutV4 (20 + (8 + quoted.length)) ourAddr src) 10 0)) (withChecksum message 2)
  rw [← withChecksum] at h0 htotal hproto hsource hdestination
  generalize withChecksum (headerOutV4 (20 + (8 + quoted.length)) ourAddr src) 10 = header at *
  have hall : (header ++ withChecksum message 2).length = 20 + (8 + quoted.length) := by
    rw [List.length_append, hfront, withChecksum, length_putWord, hlen]
  have hsize : headerSize (header ++ withChecksum message 2) = 20 := by
    rw [headerSize, h0]
    rfl
  have hdrop : (header ++ withChecksum message 2).drop 20 = withChecksum message 2 := List.drop_left' hfront
  refine ⟨?_, ⟨by omega, by omega, by omega⟩, ?_, hproto, hsource, hdestination, ?_, ?_, ?_⟩
  · rw [IsV4, h0]
    decide
  · rw [htotal, toNat_ofBe16_be16 (by omega), hall]
  · rw [HeaderVerifies, hsize, List.take_left' hfront]
    exact hsum
  · rw [hdrop]
    exact folded_withChecksum (by rw [hlen, sumLimit]; omega) (by omega) rfl
  · rw [show 28 = 20 + 8 from rfl, ← List.drop_drop, hdrop, withChecksum, drop_putWord (by omega), hback]

lemma errorV4_spec (type code : UInt8) (mtu : UInt16) (ourAddr : Arr UInt8 4) (hver : IsV4 p) (h20 : 20 ≤ p.length) :
    ∃ pkt, errorV4 type code mtu p ourAddr = .ok (some pkt) ∧ ErrorV4 pkt ourAddr ((p.drop 12).take 4) (quotedV4 p) := by
  refine ⟨_, errorV4_eq type code mtu ourAddr hver h20, errorV4_of_message ourAddr ?_ (length_message (k := 4) ?_) ?_ (length_quotedV4_le p)⟩
  · rw [List.length_take, List.length_drop]
    omega
  · rw [length_be16]
  · exact List.drop_left' (by rw [List.length_append, length_be16]; rfl)

/-- The pseudo-header does not depend on the checksum behind it. -/
lemma pseudoV6_putWord {w : UInt16} : pseudoV6 (putWord p 42 w) 40 58 = pseudoV6 p 40 58 := by
  rw [pseudoV6, pseudoV6, length_putWord, segment_putWord (by omega), segment_putWord (by omega)]

@[inherit_doc errorV4_of_message] lemma errorV6_of_message {message quoted src : Bytes} (ourAddr : Arr UInt8 16) (hsrc : src.length = 16)
    (hlen : message.length = 8 + quoted.length) (hback : message.drop 8 = quoted) (hquoted : quoted.length ≤ 48) :
    ErrorV6 (withChecksumV6 (headerOutV6 (8 + quoted.length) ourAddr src ++ message)) ourAddr src quoted := by
  have hheader : (headerOutV6 (8 + quoted.length) ourAddr src).length = 40 := length_headerOutV6 hsrc
  obtain ⟨h0, hpayload, hnext, hsource, hdestination⟩ := headerOutV6_fields (n := 8 + quoted.length) ourAddr hsrc message
  generalize headerOutV6 (8 + quoted.length) ourAddr src = header at *
  have hall : (header ++ message).length = 40 + (8 + quoted.length) := by rw [List.length_append, hheader, hlen]
  have hdrop : (header ++ message).drop 40 = message := List.drop_left' hheader
  have hpseudo : (pseudoV6 (header ++ message) 40 58).length = 40 := length_pseudoV6 (by omega) 58
  rw [withChecksumV6, hdrop, combine_eq (by rw [hpseudo, sumLimit]; omega) (by rw [length_putWord, hlen, sumLimit]; omega)]
  generalize hw : complement (sum16 (pseudoV6 (header ++ message) 40 58) + sum16 (putWord message 2 0)) = w
  have hdrop' : (putWord (header ++ message) 42 w).drop 40 = putWord message 2 w := by rw [drop_putWord_add _ 40 2, hdrop]
  have h0' : octet (putWord (header ++ message) 42 w) 0 = octet (header ++ message) 0 := octet_putWord_ne (by decide) (by decide)
  have hnext' : octet (putWord (header ++ message) 42 w) 6 = octet (header ++ message) 6 := octet_putWord_ne (by decide) (by decide)
  refine ⟨?_, ?_, hnext'.trans hnext, ?_, ?_, ?_, ?_⟩
  · rw [IsV6, h0', h0]
    decide
  · rw [word_putWord_ne (by omega), hpayload, toNat_ofBe16_be16 (by omega), length_putWord, hall]
  · rw [segment_putWord (by omega), hsource]
  · rw [segment_putWord (by omega), hdestination]
  · rw [pseudoV6_putWord, hdrop', ← hw]
    exact folded_checksum _ (by omega) rfl
  · rw [show 48 = 40 + 8 from rfl, ← List.drop_drop, hdrop', drop_putWord (by omega), hback]

lemma errorV6_spec (type code : UInt8) (mtu : UInt32) (ourAddr : Arr UInt8 16) (hver : IsV6 p) (h40 : 40 ≤ p.length) :
    ∃ pkt, errorV6 type code mtu p ourAddr = .ok (some pkt) ∧ ErrorV6 pkt ourAddr ((p.drop 8).take 16) (quotedV6 p) := by
  refine ⟨_, errorV6_eq type code mtu ourAddr hver h40, errorV6_of_message ourAddr ?_ (length_message (k := 2) ?_) ?_ ?_⟩
  · rw [List.length_take, List.length_drop]
    omega
  · rw [length_be32]
  · exact List.drop_left' (by rw [List.length_append, length_be32]; rfl)
  · rw [quotedV6, List.length_take]
    exact Nat.min_le_left _ _

end IPv8Plus.Compat
