import IPv8Plus.Lib.Outcome
import IPv8Plus.Lib.OnesComplement

/-!
# Checksums

`core/ipv8-compat/src/checksum.rs`: sums in 32 bits with the carries folded in, and the checksums of an IPv4 header, of TCP
over both versions, of ICMP and of ICMPv6. A read or write outside a packet panics.
-/

namespace IPv8Plus.Compat
open Lib

/-- A call that can only panic. -/
abbrev Call (α : Type) := Lib.Outcome Empty α

/-- `p[i] = b`. -/
def put (p : Bytes) (i : Nat) (b : UInt8) : Call Bytes := if i < p.length then .ok (p.set i b) else .panic

/-- `p[i] = (w >> 8) as u8; p[i + 1] = w as u8`. -/
def putHalves (p : Bytes) (i : Nat) (w : UInt16) : Call Bytes := do
  let p ← put p i (w >>> 8).toUInt8
  put p (i + 1) w.toUInt8

lemma toNat_turn (sum : UInt32) : ((sum &&& (0xFFFF : UInt32)) + (sum >>> 16)).toNat = sum.toNat % 65536 + sum.toNat / 65536 := by
  have hlt := sum.toNat_lt
  rw [UInt32.toNat_add, UInt32.toNat_and, UInt32.toNat_shiftRight]
  change ((sum.toNat &&& 2 ^ 16 - 1) + sum.toNat >>> 16) % 2 ^ 32 = _
  rw [Nat.and_two_pow_sub_one_eq_mod, Nat.shiftRight_eq_div_pow]
  omega

lemma toNat_high (sum : UInt32) : (sum >>> 16).toNat = sum.toNat / 65536 := by
  rw [UInt32.toNat_shiftRight, Nat.shiftRight_eq_div_pow]
  rfl

lemma high_eq_zero {sum : UInt32} : sum >>> 16 = 0 ↔ sum.toNat < 65536 := by
  rw [← UInt32.toNat_inj, toNat_high, UInt32.toNat_zero]
  omega

lemma fold_lt {sum : UInt32} (h : sum >>> 16 ≠ 0) : ((sum &&& (0xFFFF : UInt32)) + (sum >>> 16)).toNat < sum.toNat := by
  have hbig := mt high_eq_zero.mpr h
  rw [toNat_turn]
  omega

/-- The loop that folds the carries in. -/
def foldCarry (sum : UInt32) : UInt32 :=
  if sum >>> 16 ≠ 0 then foldCarry ((sum &&& (0xFFFF : UInt32)) + (sum >>> 16)) else sum
termination_by sum.toNat
decreasing_by exact fold_lt ‹_›

/-- The sum of the words of the data in 32 bits, from a sum on. -/
def sumWords (sum : UInt32) : Bytes → UInt32
  | a :: b :: rest => sumWords (sum + (ofBe16 [a, b]).toUInt32) rest
  | [a] => sum + a.toUInt32 <<< 8
  | [] => sum

def onesComplementSum (data : Bytes) : UInt16 := (foldCarry (sumWords 0 data)).toUInt16

def checksum (data : Bytes) : UInt16 := ~~~ onesComplementSum data

/-- The checksum of an IPv4 header, and the header with its checksum cleared. -/
def ipHeaderChecksum (header : Bytes) : Call (UInt16 × Bytes) :=
  if header.length < 20 then return (0, header)
  else do
    let ihl := ((← idx header 0) &&& 0x0F).toNat * 4
    if header.length < ihl then return (0, header)
    else do
      let header ← put header 10 0
      let header ← put header 11 0
      return (checksum (← slice header 0 ihl), header)

/-- The complement of two sums. -/
def combine (pseudo data : Bytes) : UInt16 :=
  ~~~ (foldCarry ((onesComplementSum pseudo).toUInt32 + (onesComplementSum data).toUInt32)).toUInt16

def tcpChecksumV4 (packet : Bytes) (tcpOffset : Nat) : Call UInt16 :=
  if packet.length < tcpOffset + 20 then return 0
  else do
    let tcpLen := packet.length - tcpOffset
    let src ← slice packet 12 16
    let dst ← slice packet 16 20
    let proto ← idx packet 9
    let tcpBuf ← slice packet tcpOffset packet.length
    let tcpBuf ← put tcpBuf 16 0
    let tcpBuf ← put tcpBuf 17 0
    return combine (src ++ dst ++ [0, proto] ++ be16 (UInt16.ofNat tcpLen)) tcpBuf

def tcpChecksumV6WithProto (packet : Bytes) (l4Offset : Nat) (nextHeader : UInt8) : Call UInt16 :=
  if packet.length < l4Offset + 20 then return 0
  else do
    let l4Len := packet.length - l4Offset
    let src ← slice packet 8 24
    let dst ← slice packet 24 40
    let l4Buf ← slice packet l4Offset packet.length
    let l4Buf ← put l4Buf 16 0
    let l4Buf ← put l4Buf 17 0
    return combine (src ++ dst ++ be32 (UInt32.ofNat l4Len) ++ [0, 0, 0, nextHeader]) l4Buf

def tcpChecksumV6 (packet : Bytes) (tcpOffset : Nat) : Call UInt16 := tcpChecksumV6WithProto packet tcpOffset 6

/-- The checksum of an ICMP message, and the message with its checksum cleared. -/
def icmpChecksum (icmp : Bytes) : Call (UInt16 × Bytes) :=
  if icmp.length < 4 then return (0, icmp)
  else do
    let icmp ← put icmp 2 0
    let icmp ← put icmp 3 0
    return (checksum icmp, icmp)

/-- The checksum of an ICMPv6 message in its packet, and the packet with its checksum cleared. -/
def icmpv6Checksum (pkt : Bytes) : Call (UInt16 × Bytes) :=
  if pkt.length < 40 + 4 then return (0, pkt)
  else do
    let icmpLen := UInt32.ofNat (pkt.length - 40)
    let src ← slice pkt 8 24
    let dst ← slice pkt 24 40
    let pkt ← put pkt 42 0
    let pkt ← put pkt 43 0
    return (combine (src ++ dst ++ be32 icmpLen ++ [0, 0, 0, 58]) (← slice pkt 40 pkt.length), pkt)

variable {p data pseudo : Bytes} {i l4 : Nat} {b : UInt8} {w : UInt16}

/-! ## Reads and writes inside a packet -/

lemma put_eq (h : i < p.length) : put p i b = .ok (p.set i b) := if_pos h

lemma putHalves_eq (h : i + 1 < p.length) : putHalves p i w = .ok (putWord p i w) := by
  rw [putHalves, put_eq (Nat.lt_of_succ_lt h), Outcome.ok_bind, put_eq]
  · rfl
  · rwa [List.length_set]

lemma idx_eq (h : i < p.length) : (idx p i : Call UInt8) = .ok (octet p i) := by
  refine idx_of_getElem? ?_
  rw [octet, List.getD_eq_getElem?_getD, List.getElem?_eq_getElem h]
  rfl

lemma slice_front (h : i ≤ p.length) : (slice p 0 i : Call Bytes) = .ok (p.take i) := slice_of_le (Nat.zero_le i) h

lemma slice_rest (h : i ≤ p.length) : (slice p i p.length : Call Bytes) = .ok (p.drop i) := by
  rw [slice_of_le h le_rfl, List.take_of_length_le (List.length_drop).le]

/-- Two bytes cleared are a word cleared. -/
lemma put_zero (h : i + 1 < p.length) : (put p i 0 >>= fun p => put p (i + 1) 0) = .ok (putWord p i 0) := putHalves_eq (w := 0) h

/-! ## The sums are one's complement sums -/

lemma toNat_foldCarry (sum : UInt32) : (foldCarry sum).toNat = folded sum.toNat := by
  induction sum using foldCarry.induct with
  | case1 sum h ih => rw [foldCarry, if_pos h, ih, toNat_turn, folded_turn]
  | case2 sum h =>
    have hlt := high_eq_zero.mp (not_not.mp h)
    rw [foldCarry, if_neg h, folded_of_le (Nat.le_of_lt_succ hlt)]

lemma toNat_foldCarry_toUInt16 (sum : UInt32) : (foldCarry sum).toUInt16.toNat = folded sum.toNat := by
  rw [UInt32.toNat_toUInt16, toNat_foldCarry]
  exact Nat.mod_eq_of_lt (Nat.lt_succ_of_le (folded_le _))

lemma toNat_sumWords (sum : UInt32) (data : Bytes) (h : sum.toNat + sum16 data < 2 ^ 32) :
    (sumWords sum data).toNat = sum.toNat + sum16 data := by
  induction data using sum16.induct generalizing sum with
  | case1 a b rest ih =>
    rw [sum16, ← Nat.add_assoc] at h
    have hlt : sum.toNat + (a.toNat * 256 + b.toNat) < 2 ^ 32 := Nat.lt_of_le_of_lt (Nat.le_add_right _ _) h
    have hadd : (sum + (ofBe16 [a, b]).toUInt32).toNat = sum.toNat + (a.toNat * 256 + b.toNat) := by
      rw [UInt32.toNat_add, UInt16.toNat_toUInt32, toNat_ofBe16_pair]
      exact Nat.mod_eq_of_lt hlt
    rw [← hadd] at h
    rw [sumWords, ih _ h, hadd, sum16, Nat.add_assoc]
  | case2 a =>
    rw [sum16] at h
    have hshift : (a.toUInt32 <<< 8).toNat = a.toNat * 256 := by
      have ha := a.toNat_lt
      rw [UInt32.toNat_shiftLeft, UInt8.toNat_toUInt32, Nat.shiftLeft_eq]
      change a.toNat * 256 % 2 ^ 32 = a.toNat * 256
      exact Nat.mod_eq_of_lt (by omega)
    rw [sumWords, UInt32.toNat_add, hshift, sum16]
    exact Nat.mod_eq_of_lt h
  | case3 => rfl

/-- The bytes whose words can be added in 32 bits. -/
def sumLimit : Nat := 131072

lemma sum16_lt (h : data.length ≤ sumLimit) : sum16 data < 2 ^ 32 := by
  have hle := sum16_le data
  rw [sumLimit] at h
  omega

/-- The sum does not wrap in the packets of either version. -/
lemma toNat_onesComplementSum (h : data.length ≤ sumLimit) : (onesComplementSum data).toNat = folded (sum16 data) := by
  have hsum : (0 : UInt32).toNat + sum16 data < 2 ^ 32 := by
    rw [UInt32.toNat_zero, Nat.zero_add]
    exact sum16_lt h
  rw [onesComplementSum, toNat_foldCarry_toUInt16, toNat_sumWords 0 data hsum, UInt32.toNat_zero, Nat.zero_add]

lemma checksum_eq (h : data.length ≤ sumLimit) : checksum data = complement (sum16 data) := by
  rw [checksum, complement, ← toNat_onesComplementSum h, UInt16.ofNat_toNat]

lemma combine_eq (hpseudo : pseudo.length ≤ sumLimit) (hdata : data.length ≤ sumLimit) :
    combine pseudo data = complement (sum16 pseudo + sum16 data) := by
  have hadd : ((onesComplementSum pseudo).toUInt32 + (onesComplementSum data).toUInt32).toNat =
      folded (sum16 pseudo) + folded (sum16 data) := by
    have h1 := folded_le (sum16 pseudo)
    have h2 := folded_le (sum16 data)
    rw [UInt32.toNat_add, UInt16.toNat_toUInt32, UInt16.toNat_toUInt32, toNat_onesComplementSum hpseudo, toNat_onesComplementSum hdata]
    exact Nat.mod_eq_of_lt (by omega)
  rw [combine, ← complement_folded_add, ← hadd, complement, ← toNat_foldCarry_toUInt16, UInt16.ofNat_toNat]

/-! ## What the checksum functions compute -/

/-- The header is announced, and its checksum is cleared in the packet around it as well. -/
lemma ipHeaderChecksum_eq (h20 : 20 ≤ p.length) (hfits : headerSize p ≤ p.length) :
    ipHeaderChecksum p = .ok (checksum ((putWord p 10 0).take (headerSize p)), putWord p 10 0) := by
  rw [ipHeaderChecksum, if_neg (Nat.not_lt.mpr h20), idx_eq (by omega), Outcome.ok_bind, ← headerSize]
  dsimp only
  rw [if_neg (Nat.not_lt.mpr hfits), ← bind_assoc, put_zero (by omega), Outcome.ok_bind, slice_front (by rwa [length_putWord])]
  rfl

/-- What is no packet with a header is given the checksum zero. -/
lemma ipHeaderChecksum_short (h : p.length < 20 ∨ p.length < headerSize p) : ipHeaderChecksum p = .ok (0, p) := by
  rw [ipHeaderChecksum]
  split_ifs with h20
  · rfl
  · rw [idx_eq (by omega), Outcome.ok_bind]
    exact if_pos (h.resolve_left h20)

/-- Source, destination, protocol and length of what is carried by IPv4. -/
def pseudoV4 (p : Bytes) (l4 : Nat) (proto : UInt8) : Bytes :=
  (p.drop 12).take 4 ++ (p.drop 16).take 4 ++ [0, proto] ++ be16 (UInt16.ofNat (p.length - l4))

/-- Source, destination, length and protocol of what is carried by IPv6. -/
def pseudoV6 (p : Bytes) (l4 : Nat) (proto : UInt8) : Bytes :=
  (p.drop 8).take 16 ++ (p.drop 24).take 16 ++ be32 (UInt32.ofNat (p.length - l4)) ++ [0, 0, 0, proto]

lemma cleared_segment (h : l4 + 20 ≤ p.length) (f : Bytes → UInt16) : (do
      let tcpBuf ← slice p l4 p.length
      let tcpBuf ← put tcpBuf 16 0
      let tcpBuf ← put tcpBuf 17 0
      return f tcpBuf : Call UInt16) = .ok (f (putWord (p.drop l4) 16 0)) := by
  rw [slice_rest (by omega), Outcome.ok_bind, ← bind_assoc, put_zero (by rw [List.length_drop]; omega)]
  rfl

lemma tcpChecksumV4_eq (h20 : 20 ≤ p.length) (h : l4 + 20 ≤ p.length) :
    tcpChecksumV4 p l4 = .ok (combine (pseudoV4 p l4 (octet p 9)) (putWord (p.drop l4) 16 0)) := by
  rw [tcpChecksumV4, if_neg (Nat.not_lt.mpr h)]
  dsimp only
  rw [slice_of_le (by omega) (by omega), Outcome.ok_bind, slice_of_le (by omega) h20, Outcome.ok_bind, idx_eq (by omega), Outcome.ok_bind,
    cleared_segment h]
  rfl

lemma tcpChecksumV6_eq (h40 : 40 ≤ p.length) (h : l4 + 20 ≤ p.length) :
    tcpChecksumV6 p l4 = .ok (combine (pseudoV6 p l4 6) (putWord (p.drop l4) 16 0)) := by
  rw [tcpChecksumV6, tcpChecksumV6WithProto, if_neg (Nat.not_lt.mpr h)]
  dsimp only
  rw [slice_of_le (by omega) (by omega), Outcome.ok_bind, slice_of_le (by omega) h40, Outcome.ok_bind, cleared_segment h]
  rfl

lemma icmpChecksum_eq (h : 4 ≤ p.length) : icmpChecksum p = .ok (checksum (putWord p 2 0), putWord p 2 0) := by
  rw [icmpChecksum, if_neg (Nat.not_lt.mpr h), ← bind_assoc, put_zero (by omega)]
  rfl

lemma icmpv6Checksum_eq (h : 44 ≤ p.length) :
    icmpv6Checksum p = .ok (combine (pseudoV6 p 40 58) (putWord (p.drop 40) 2 0), putWord p 42 0) := by
  rw [icmpv6Checksum, if_neg (Nat.not_lt.mpr h)]
  dsimp only
  rw [slice_of_le (by omega) (by omega), Outcome.ok_bind, slice_of_le (by omega) (by omega), Outcome.ok_bind, ← bind_assoc,
    put_zero (by omega), Outcome.ok_bind, slice_rest (by rw [length_putWord]; omega), drop_putWord_add p 40 2]
  rfl

lemma length_pseudoV4 (h20 : 20 ≤ p.length) (proto : UInt8) : (pseudoV4 p l4 proto).length = 12 := by
  rw [pseudoV4, List.length_append, List.length_append, List.length_append, List.length_take, List.length_take, List.length_drop,
    List.length_drop, length_be16, List.length_cons, List.length_singleton]
  omega

lemma length_pseudoV6 (h40 : 40 ≤ p.length) (proto : UInt8) : (pseudoV6 p l4 proto).length = 40 := by
  rw [pseudoV6, List.length_append, List.length_append, List.length_append, List.length_take, List.length_take, List.length_drop,
    List.length_drop, length_be32]
  change min 16 (p.length - 8) + min 16 (p.length - 24) + 4 + 4 = 40
  omega

end IPv8Plus.Compat
