import IPv8Plus.Lib.IpText

/-!
# Inner packets and their flow keys

`core/ipv8-hook/src/ip.rs`: what the bus reads off an inner packet, and the text by which verdicts are cached. Bytes are
read where a length test has passed. Two packets have the same key when neither can be parsed, or when both have the same
endpoints and protocols of the same name.
-/

namespace IPv8Plus.Hook
open Lib

structure PacketInfo where
  ipver : UInt8
  protoNum : UInt8
  src : Bytes
  dst : Bytes
  sport : UInt16
  dport : UInt16
  deriving DecidableEq, Repr

/-- What is said of a packet that cannot be parsed. -/
def PacketInfo.default : PacketInfo := ⟨0, 0, [], [], 0, 0⟩

def byteAt (p : Bytes) (i : Nat) : UInt8 := p.getD i 0

def u16At (p : Bytes) (i : Nat) : UInt16 := ofBe16 [byteAt p i, byteAt p (i + 1)]

lemma length_octets (p : Bytes) (i : Nat) : [byteAt p i, byteAt p (i + 1), byteAt p (i + 2), byteAt p (i + 3)].length = 4 := rfl

def ipv4At (p : Bytes) (i : Nat) : Ipv4Addr :=
  ⟨[byteAt p i, byteAt p (i + 1), byteAt p (i + 2), byteAt p (i + 3)], length_octets p i⟩

lemma length_segments (p : Bytes) (i : Nat) : [u16At p i, u16At p (i + 2), u16At p (i + 4), u16At p (i + 6), u16At p (i + 8),
    u16At p (i + 10), u16At p (i + 12), u16At p (i + 14)].length = 8 := rfl

def ipv6At (p : Bytes) (i : Nat) : Ipv6Addr :=
  ⟨[u16At p i, u16At p (i + 2), u16At p (i + 4), u16At p (i + 6), u16At p (i + 8), u16At p (i + 10), u16At p (i + 12),
    u16At p (i + 14)], length_segments p i⟩

/-- The ports, of TCP and UDP only. -/
def parsePorts (p : Bytes) (off : Nat) (proto : UInt8) : UInt16 × UInt16 :=
  if proto ≠ 6 ∧ proto ≠ 17 then (0, 0)
  else if p.length < off + 4 then (0, 0)
  else (u16At p off, u16At p (off + 2))

def inspectV4 (p : Bytes) : PacketInfo :=
  if p.length < 20 then .default
  else
    let ihl := (byteAt p 0 &&& 0x0F).toNat
    if ihl < 5 then .default
    else if p.length < ihl * 4 then .default
    else
      let protoNum := byteAt p 9
      let ports := parsePorts p (ihl * 4) protoNum
      ⟨4, protoNum, (ipv4At p 12).toText, (ipv4At p 16).toText, ports.1, ports.2⟩

/-- One turn of the walk along the extension headers: it ends at a header, goes on, or finds the packet too short. -/
inductive Hop where
  | stop (next : UInt8) (off : Nat)
  | more (next : UInt8) (off : Nat)
  | short

def hop (p : Bytes) (next : UInt8) (off : Nat) : Hop :=
  if next = 6 ∨ next = 17 ∨ next = 58 then .stop next off
  else if next = 0 ∨ next = 43 ∨ next = 60 then
    let hlen := ((byteAt p (off + 1)).toNat + 1) * 8
    if p.length < off + 2 ∨ p.length < off + hlen then .short else .more (byteAt p off) (off + hlen)
  else if next = 44 then
    let fragInfo := u16At p (off + 2)
    if p.length < off + 8 then .short
    -- the last fragment of several ends the walk; the ports are read at its data
    else if fragInfo &&& 1 = 0 ∧ fragInfo >>> 3 ≠ 0 then .stop (byteAt p off) (off + 8)
    else .more (byteAt p off) (off + 8)
  else if next = 51 then
    let hlen := ((byteAt p (off + 1)).toNat + 2) * 4
    if p.length < off + 2 ∨ p.length < off + hlen then .short else .more (byteAt p off) (off + hlen)
  else .stop next off

def followChain (p : Bytes) : Nat → UInt8 → Nat → Option (UInt8 × Nat)
  | 0, next, off => some (next, off)
  | hops + 1, next, off =>
    match hop p next off with
    | .stop next off => some (next, off)
    | .more next off => followChain p hops next off
    | .short => none

def inspectV6 (p : Bytes) : PacketInfo :=
  if p.length < 40 then .default
  else
    match followChain p 8 (byteAt p 6) 40 with
    | none => .default
    | some (next, off) =>
      let ports := parsePorts p off next
      ⟨6, next, (ipv6At p 8).toText, (ipv6At p 24).toText, ports.1, ports.2⟩

def inspect (p : Bytes) : PacketInfo :=
  match p with
  | [] => .default
  | verByte :: _ =>
    if verByte >>> 4 = 4 then inspectV4 p
    else if verByte >>> 4 = 6 then inspectV6 p
    else .default

/-- `icmp`, `tcp`, `udp`, `icmpv6`, and `other` for every other number. -/
def protoName (num : UInt8) : Bytes :=
  if num = 1 then [0x69, 0x63, 0x6D, 0x70]
  else if num = 6 then [0x74, 0x63, 0x70]
  else if num = 17 then [0x75, 0x64, 0x70]
  else if num = 58 then [0x69, 0x63, 0x6D, 0x70, 0x76, 0x36]
  else [0x6F, 0x74, 0x68, 0x65, 0x72]

def endText (addr : Bytes) (port : UInt16) : Bytes := addr ++ colon :: decimal port.toNat

/-- `<->` -/
def arrow : Bytes := [0x3C, 0x2D, 0x3E]

/-- The two ends in the order of their texts. -/
def flowKey (info : PacketInfo) : Bytes :=
  let a := endText info.src info.sport
  let b := endText info.dst info.dport
  if a ≤ b then protoName info.protoNum ++ colon :: (a ++ arrow ++ b)
  else protoName info.protoNum ++ colon :: (b ++ arrow ++ a)

/-! ## What the key stands for -/

def Parseable (p : Bytes) : Prop := (inspect p).ipver ≠ 0

instance (p : Bytes) : Decidable (Parseable p) := inferInstanceAs (Decidable (_ ≠ _))

/-- The protocols that have a name of their own. -/
def Named (num : UInt8) : Prop := num = 1 ∨ num = 6 ∨ num = 17 ∨ num = 58

instance (num : UInt8) : Decidable (Named num) := inferInstanceAs (Decidable (_ ∨ _))

/-- The addresses in the header of a packet. -/
def addresses (p : Bytes) : IpAddr × IpAddr :=
  if byteAt p 0 >>> 4 = 4 then (.v4 (ipv4At p 12), .v4 (ipv4At p 16)) else (.v6 (ipv6At p 8), .v6 (ipv6At p 24))

/-- The unordered pair of the ends of a packet; a port that is not read is zero. -/
def endpoints (p : Bytes) : Sym2 (IpAddr × UInt16) :=
  s(((addresses p).1, (inspect p).sport), ((addresses p).2, (inspect p).dport))

structure SameFlow (p q : Bytes) : Prop where
  proto : (inspect p).protoNum = (inspect q).protoNum
  ends : endpoints p = endpoints q

variable {p q : Bytes} {i j : PacketInfo} {c : UInt8}

lemma inspectV4_cases (h : byteAt p 0 >>> 4 = 4) : inspectV4 p = .default ∨
    (inspectV4 p).ipver = 4 ∧ (inspectV4 p).src = (addresses p).1.toText ∧ (inspectV4 p).dst = (addresses p).2.toText := by
  rw [addresses, if_pos h, inspectV4]
  by_cases hlen : p.length < 20
  · exact .inl (if_pos hlen)
  · rw [if_neg hlen]
    dsimp only
    by_cases hihl : (byteAt p 0 &&& 0x0F).toNat < 5
    · exact .inl (if_pos hihl)
    · rw [if_neg hihl]
      by_cases hl4 : p.length < (byteAt p 0 &&& 0x0F).toNat * 4
      · exact .inl (if_pos hl4)
      · rw [if_neg hl4]
        exact .inr ⟨rfl, rfl, rfl⟩

lemma inspectV6_cases (h : byteAt p 0 >>> 4 ≠ 4) : inspectV6 p = .default ∨
    (inspectV6 p).ipver = 6 ∧ (inspectV6 p).src = (addresses p).1.toText ∧ (inspectV6 p).dst = (addresses p).2.toText := by
  rw [addresses, if_neg h, inspectV6]
  by_cases hlen : p.length < 40
  · exact .inl (if_pos hlen)
  · rw [if_neg hlen]
    cases followChain p 8 (byteAt p 6) 40 with
    | none => exact .inl rfl
    | some x => exact .inr ⟨rfl, rfl, rfl⟩

/-- A packet cannot be parsed, or its addresses are those of its header. -/
lemma inspect_cases (p : Bytes) : inspect p = .default ∨
    (inspect p).ipver ≠ 0 ∧ (inspect p).src = (addresses p).1.toText ∧ (inspect p).dst = (addresses p).2.toText := by
  cases p with
  | nil => exact .inl rfl
  | cons verByte rest =>
    rw [inspect]
    by_cases h4 : verByte >>> 4 = 4
    · rw [if_pos h4]
      rcases inspectV4_cases (p := verByte :: rest) h4 with hdefault | ⟨hver, hends⟩
      · exact .inl hdefault
      · exact .inr ⟨by rw [hver]; decide, hends⟩
    · rw [if_neg h4]
      by_cases h6 : verByte >>> 4 = 6
      · rw [if_pos h6]
        rcases inspectV6_cases (p := verByte :: rest) h4 with hdefault | ⟨hver, hends⟩
        · exact .inl hdefault
        · exact .inr ⟨by rw [hver]; decide, hends⟩
      · exact .inl (if_neg h6)

lemma inspect_of_not_parseable (h : ¬ Parseable p) : inspect p = .default :=
  (inspect_cases p).resolve_right fun hp => h hp.1

lemma Parseable.src (h : Parseable p) : (inspect p).src = (addresses p).1.toText := by
  rcases inspect_cases p with hdefault | ⟨-, hsrc, -⟩
  · exact absurd (congrArg PacketInfo.ipver hdefault) h
  · exact hsrc

lemma Parseable.dst (h : Parseable p) : (inspect p).dst = (addresses p).2.toText := by
  rcases inspect_cases p with hdefault | ⟨-, -, hdst⟩
  · exact absurd (congrArg PacketInfo.ipver hdefault) h
  · exact hdst

/-! ## The key can be read back -/

/-- The bytes of addresses and ports. -/
def AddrByte (c : UInt8) : Prop := c = colon ∨ c = dot ∨ IsDigit c

lemma addrByte_ne_less (h : AddrByte c) : c ≠ 0x3C := by
  rintro rfl
  revert h
  unfold AddrByte
  decide

lemma addrByte_src (p : Bytes) (h : c ∈ (inspect p).src) : AddrByte c := by
  rcases inspect_cases p with hdefault | ⟨-, hsrc, -⟩
  · rw [hdefault] at h
    cases h
  · rw [hsrc] at h
    exact IpAddr.mem_toText h

lemma addrByte_dst (p : Bytes) (h : c ∈ (inspect p).dst) : AddrByte c := by
  rcases inspect_cases p with hdefault | ⟨-, -, hdst⟩
  · rw [hdefault] at h
    cases h
  · rw [hdst] at h
    exact IpAddr.mem_toText h

variable {addr addr' : Bytes} {port port' : UInt16} {num num' : UInt8}

lemma addrByte_endText (haddr : ∀ c ∈ addr, AddrByte c) (h : c ∈ endText addr port) : AddrByte c := by
  rcases List.mem_append.mp h with hc | hc
  · exact haddr c hc
  · rcases List.mem_cons.mp hc with hcolon | hport
    · exact .inl hcolon
    · exact .inr (.inr (isDigit_decimal hport))

/-- The port has no colon, so the last colon of an end separates it. -/
lemma endText_inj (h : endText addr port = endText addr' port') : addr = addr' ∧ port = port' := by
  obtain ⟨haddr, hport⟩ := append_cons_inj_last (fun hm => isDigit_colon (isDigit_decimal hm))
    (fun hm => isDigit_colon (isDigit_decimal hm)) h
  exact ⟨haddr, UInt16.toNat_inj.mp (decimal_injective hport)⟩

lemma protoName_other (h : ¬ Named num) : protoName num = [0x6F, 0x74, 0x68, 0x65, 0x72] := by
  obtain ⟨h1, h⟩ := not_or.mp h
  obtain ⟨h6, h⟩ := not_or.mp h
  obtain ⟨h17, h58⟩ := not_or.mp h
  rw [protoName, if_neg h1, if_neg h6, if_neg h17, if_neg h58]

lemma named_spec : ∀ k ∈ [(1 : UInt8), 6, 17, 58], ∀ n : Fin 256, protoName k = protoName (.ofFin n) → k = .ofFin n := by
  decide +kernel

lemma protoName_named (hnum : Named num) (h : protoName num = protoName num') : num = num' := by
  refine named_spec num ?_ num'.toFin h
  rcases hnum with rfl | rfl | rfl | rfl <;> decide

lemma colon_not_mem_protoName (num : UInt8) : colon ∉ protoName num := by
  by_cases hnum : Named num
  · rcases hnum with rfl | rfl | rfl | rfl <;> decide
  · rw [protoName_other hnum]
    decide

/-- Two numbers have the same name when they are equal, or when neither has a name of its own. -/
lemma protoName_eq_iff : protoName num = protoName num' ↔ num = num' ∨ ¬ Named num ∧ ¬ Named num' := by
  constructor
  · intro h
    by_cases hnum : Named num
    · exact .inl (protoName_named hnum h)
    · by_cases hnum' : Named num'
      · exact .inl (protoName_named hnum' h.symm).symm
      · exact .inr ⟨hnum, hnum'⟩
  · rintro (rfl | ⟨hnum, hnum'⟩)
    · rfl
    · rw [protoName_other hnum, protoName_other hnum']

/-- The ends of a packet as they stand in its key. -/
def endTexts (info : PacketInfo) : Sym2 Bytes := s(endText info.src info.sport, endText info.dst info.dport)

lemma flowKey_ends (info : PacketInfo) : ∃ a b, s(a, b) = endTexts info ∧
    flowKey info = protoName info.protoNum ++ colon :: (a ++ arrow ++ b) := by
  rw [flowKey]
  split
  · exact ⟨_, _, rfl, rfl⟩
  · exact ⟨_, _, Sym2.eq_swap, rfl⟩

lemma less_not_mem_end (hsrc : ∀ c ∈ i.src, AddrByte c) (hdst : ∀ c ∈ i.dst, AddrByte c) {a b : Bytes}
    (h : s(a, b) = endTexts i) : 0x3C ∉ a := by
  intro hmem
  rcases Sym2.eq_iff.mp h with ⟨rfl, -⟩ | ⟨rfl, -⟩
  · exact addrByte_ne_less (addrByte_endText hsrc hmem) rfl
  · exact addrByte_ne_less (addrByte_endText hdst hmem) rfl

/-- The key does not depend on the direction of the packet. -/
lemma flowKey_congr (hname : protoName i.protoNum = protoName j.protoNum) (hends : endTexts i = endTexts j) : flowKey i = flowKey j := by
  rw [flowKey, flowKey, hname]
  rcases Sym2.eq_iff.mp hends with ⟨hsrc, hdst⟩ | ⟨hsrc, hdst⟩
  · rw [hsrc, hdst]
  · rw [hsrc, hdst]
    by_cases hle : endText j.src j.sport ≤ endText j.dst j.dport
    · rw [if_pos hle]
      by_cases hge : endText j.dst j.dport ≤ endText j.src j.sport
      · rw [if_pos hge, List.le_antisymm hle hge]
      · rw [if_neg hge]
    · rw [if_neg hle, if_pos (List.le_of_lt (List.not_le.mp hle))]

lemma flowKey_inj (h : flowKey (inspect p) = flowKey (inspect q)) :
    protoName (inspect p).protoNum = protoName (inspect q).protoNum ∧ endTexts (inspect p) = endTexts (inspect q) := by
  obtain ⟨a, b, hends, hkey⟩ := flowKey_ends (inspect p)
  obtain ⟨a', b', hends', hkey'⟩ := flowKey_ends (inspect q)
  rw [hkey, hkey'] at h
  obtain ⟨hname, hrest⟩ := append_cons_inj (colon_not_mem_protoName _) (colon_not_mem_protoName _) h
  rw [List.append_assoc, List.append_assoc] at hrest
  obtain ⟨ha, hb⟩ := append_cons_inj (less_not_mem_end (fun _ => addrByte_src p) (fun _ => addrByte_dst p) hends)
    (less_not_mem_end (fun _ => addrByte_src q) (fun _ => addrByte_dst q) hends') hrest
  exact ⟨hname, by rw [← hends, ← hends', ha, List.append_cancel_left hb]⟩

/-! ## Which packets share a key -/

lemma endTexts_of_parseable (h : Parseable p) :
    endTexts (inspect p) = (endpoints p).map fun e => endText e.1.toText e.2 := by
  rw [endTexts, endpoints, Sym2.map_mk, h.src, h.dst]

lemma endTexts_eq_iff (hp : Parseable p) (hq : Parseable q) : endTexts (inspect p) = endTexts (inspect q) ↔ endpoints p = endpoints q := by
  rw [endTexts_of_parseable hp, endTexts_of_parseable hq]
  refine (Sym2.map.injective ?_).eq_iff
  intro x y hxy
  obtain ⟨haddr, hport⟩ := endText_inj hxy
  exact Prod.ext (IpAddr.toText_injective haddr) hport

/-- A packet that can be parsed never shares its key with one that cannot: its addresses are not empty. -/
lemma parseable_of_key (hp : Parseable p) (h : flowKey (inspect p) = flowKey (inspect q)) : Parseable q := by
  by_contra hq
  obtain ⟨-, hends⟩ := flowKey_inj h
  rw [inspect_of_not_parseable hq, endTexts, hp.src] at hends
  rcases Sym2.eq_iff.mp hends with ⟨hsrc, -⟩ | ⟨hsrc, -⟩ <;> exact IpAddr.toText_ne_nil _ (endText_inj hsrc).1

theorem flowKey_eq_iff (p q : Bytes) : flowKey (inspect p) = flowKey (inspect q) ↔
    (¬ Parseable p ∧ ¬ Parseable q) ∨ (Parseable p ∧ Parseable q ∧ endpoints p = endpoints q ∧
      ((inspect p).protoNum = (inspect q).protoNum ∨ ¬ Named (inspect p).protoNum ∧ ¬ Named (inspect q).protoNum)) := by
  constructor
  · intro h
    obtain ⟨hname, hends⟩ := flowKey_inj h
    by_cases hp : Parseable p
    · have hq := parseable_of_key hp h
      exact .inr ⟨hp, hq, (endTexts_eq_iff hp hq).mp hends, protoName_eq_iff.mp hname⟩
    · exact .inl ⟨hp, fun hq => hp (parseable_of_key hq h.symm)⟩
  · rintro (⟨hp, hq⟩ | ⟨hp, hq, hends, hproto⟩)
    · rw [inspect_of_not_parseable hp, inspect_of_not_parseable hq]
    · exact flowKey_congr (protoName_eq_iff.mpr hproto) ((endTexts_eq_iff hp hq).mpr hends)

end IPv8Plus.Hook
