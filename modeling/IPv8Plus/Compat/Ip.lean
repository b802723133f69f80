import IPv8Plus.Compat.Checksum

/-!
# Headers of a packet

`core/ipv8-compat/src/ip.rs`: fields of both headers, and the place of the transport header behind the extension headers.
Fields that a packet is too short for read as zero, and are not written.
-/

namespace IPv8Plus.Compat
open Lib

/-- `p[a..b].copy_from_slice(data)`. -/
def copyInto (p : Bytes) (a b : Nat) (data : Bytes) : Call Bytes :=
  if a ≤ b ∧ b ≤ p.length ∧ data.length = b - a then .ok (p.take a ++ data ++ p.drop b) else .panic

def ipVersion (p : Bytes) : UInt8 := (p.head?.map fun b : UInt8 => b >>> 4).getD 0

/-- The header length, zero for what is no IPv4 packet with a header. -/
def ipv4Ihl (p : Bytes) : Call Nat :=
  if ipVersion p ≠ 4 ∨ p.length < 20 then return 0
  else do
    let ihl := ((← idx p 0) &&& 0x0F).toNat * 4
    if ihl < 20 ∨ p.length < ihl then return 0 else return ihl

def ipv4Ttl (p : Bytes) : Call UInt8 := if p.length < 9 then return 0 else idx p 8

def setIpv4Ttl (p : Bytes) (ttl : UInt8) : Call Bytes := if 9 ≤ p.length then put p 8 ttl else return p

def ipv4Proto (p : Bytes) : Call UInt8 := if p.length < 10 then return 0 else idx p 9

def ipv4Src (p : Bytes) : Call (Option Bytes) := if p.length < 16 then return none else some <$> slice p 12 16

def ipv4Dst (p : Bytes) : Call (Option Bytes) := if p.length < 20 then return none else some <$> slice p 16 20

def setIpv4Src (p : Bytes) (addr : Arr UInt8 4) : Call Bytes := if 16 ≤ p.length then copyInto p 12 16 addr.val else return p

def setIpv4Dst (p : Bytes) (addr : Bytes) : Call Bytes := if 20 ≤ p.length then copyInto p 16 20 addr else return p

/-- Whether the packet must not be fragmented. -/
def ipv4DfSet (p : Bytes) : Call Bool :=
  if p.length < 7 then return false
  else do
    return ((← idx p 6) &&& 0x40) != 0

def ipv6HopLimit (p : Bytes) : Call UInt8 := if p.length < 8 then return 0 else idx p 7

def setIpv6HopLimit (p : Bytes) (hl : UInt8) : Call Bytes := if 8 ≤ p.length then put p 7 hl else return p

def ipv6NextHeader (p : Bytes) : Call UInt8 := if p.length < 7 then return 0 else idx p 6

def ipv6Src (p : Bytes) : Call (Option Bytes) := if p.length < 24 then return none else some <$> slice p 8 24

def ipv6Dst (p : Bytes) : Call (Option Bytes) := if p.length < 40 then return none else some <$> slice p 24 40

def setIpv6Src (p : Bytes) (addr : Arr UInt8 16) : Call Bytes := if 24 ≤ p.length then copyInto p 8 24 addr.val else return p

def setIpv6Dst (p : Bytes) (addr : Bytes) : Call Bytes := if 40 ≤ p.length then copyInto p 24 40 addr else return p

/-- The walk along the extension headers; `(0, 0)` when one does not fit in the packet. -/
def skipHeaders (p : Bytes) : Nat → UInt8 → Nat → Call (UInt8 × Nat)
  | 0, next, off => return (next, off)
  | hops + 1, next, off =>
    if next = 6 ∨ next = 17 ∨ next = 58 ∨ next = 1 then return (next, off)
    else if next = 0 ∨ next = 43 ∨ next = 60 then
      if p.length < off + 2 then return (0, 0)
      else do
        let hlen := ((← idx p (off + 1)).toNat + 1) * 8
        let next ← idx p off
        if p.length < off + hlen then return (0, 0) else skipHeaders p hops next (off + hlen)
    else if next = 44 then
      if p.length < off + 8 then return (0, 0)
      else do
        let next ← idx p off
        skipHeaders p hops next (off + 8)
    else if next = 51 then
      if p.length < off + 2 then return (0, 0)
      else do
        let hlen := ((← idx p (off + 1)).toNat + 2) * 4
        let next ← idx p off
        if p.length < off + hlen then return (0, 0) else skipHeaders p hops next (off + hlen)
    else return (next, off)

/-- Protocol and offset of the transport header, `(0, 0)` when it cannot be found. -/
def l4Offset (p : Bytes) : Call (UInt8 × Nat) :=
  if ipVersion p = 4 then do
    let ihl ← ipv4Ihl p
    if ihl = 0 then return (0, 0) else return (← ipv4Proto p, ihl)
  else if ipVersion p = 6 then
    if p.length < 40 then return (0, 0)
    else do
      let next ← ipv6NextHeader p
      skipHeaders p 8 next 40
  else return (0, 0)

variable {p p' : Bytes} {next kind : UInt8} {off n hops : Nat}

lemma ipVersion_eq (p : Bytes) : ipVersion p = octet p 0 >>> 4 := by
  cases p with
  | nil => rfl
  | cons b rest => rfl

lemma isV4_iff : IsV4 p ↔ ipVersion p = 4 := by rw [IsV4, ipVersion_eq]

lemma isV6_iff : IsV6 p ↔ ipVersion p = 6 := by rw [IsV6, ipVersion_eq]

lemma ipv4Ihl_of_header (hver : IsV4 p) (h : HeaderV4 p) : ipv4Ihl p = .ok (headerSize p) := by
  have hfixed := h.fixed
  rw [ipv4Ihl, if_neg (not_or.mpr ⟨not_not.mpr (isV4_iff.mp hver), Nat.not_lt.mpr hfixed⟩), idx_eq (by omega), Outcome.ok_bind]
  exact if_neg (not_or.mpr ⟨Nat.not_lt.mpr h.least, Nat.not_lt.mpr h.fits⟩)

lemma ipv4Ihl_of_not_header (h : ¬ (IsV4 p ∧ HeaderV4 p)) : ipv4Ihl p = .ok 0 := by
  rw [ipv4Ihl]
  split_ifs with hshort
  · rfl
  · obtain ⟨hver, hfixed⟩ := not_or.mp hshort
    rw [idx_eq (by omega), Outcome.ok_bind]
    refine if_pos (by_contra fun hheader => h ⟨isV4_iff.mpr (not_not.mp hver), ?_⟩)
    obtain ⟨hleast, hfits⟩ := not_or.mp hheader
    exact ⟨Nat.not_lt.mp hfixed, Nat.not_lt.mp hleast, Nat.not_lt.mp hfits⟩

/-- The walk of the code, in which no fragment header ends the chain. -/
def passes (_ : UInt16) : Bool := false

lemma skipHeaders_of_none (h : extSize p next off = none) : skipHeaders p hops next off = .ok (next, off) := by
  cases hops with
  | zero => rfl
  | succ hops =>
    rw [extSize] at h
    split_ifs at h with hunits hfrag hauth
    rw [skipHeaders, if_neg hunits, if_neg hfrag, if_neg hauth]
    exact ite_self _

lemma skipHeaders_of_some {size : Nat} (h : extSize p next off = some size) : skipHeaders p (hops + 1) next off =
    if p.length < off + size then .ok (0, 0) else skipHeaders p hops (octet p off) (off + size) := by
  rw [extSize] at h
  split_ifs at h with hunits hfrag hauth
  · have hupper : ¬ (next = 6 ∨ next = 17 ∨ next = 58 ∨ next = 1) := by rcases hunits with rfl | rfl | rfl <;> decide
    rw [skipHeaders, if_neg hupper, if_pos hunits]
    cases h
    by_cases hlen : p.length < off + 2
    · rw [if_pos hlen, if_pos (by omega)]
      rfl
    · rw [if_neg hlen, idx_eq (by omega), Outcome.ok_bind]
      dsimp only
      rw [idx_eq (by omega), Outcome.ok_bind]
      rfl
  · cases h
    subst hfrag
    rw [skipHeaders, if_neg (by decide), if_neg (by decide), if_pos rfl]
    by_cases hlen : p.length < off + 8
    · rw [if_pos hlen, if_pos hlen]
      rfl
    · rw [if_neg hlen, if_neg hlen, idx_eq (by omega), Outcome.ok_bind]
  · cases h
    subst hauth
    rw [skipHeaders, if_neg (by decide), if_neg (by decide), if_neg (by decide), if_pos rfl]
    by_cases hlen : p.length < off + 2
    · rw [if_pos hlen, if_pos (by omega)]
      rfl
    · rw [if_neg hlen, idx_eq (by omega), Outcome.ok_bind]
      dsimp only
      rw [idx_eq (by omega), Outcome.ok_bind]
      rfl

lemma skipHeaders_eq_walk (p : Bytes) (hops : Nat) (next : UInt8) (off : Nat) :
    skipHeaders p hops next off = .ok ((walk p passes hops next off).getD (0, 0)) := by
  induction hops generalizing next off with
  | zero => rfl
  | succ hops ih =>
    cases hsize : extSize p next off with
    | none =>
      rw [skipHeaders_of_none hsize, walk_of_none hsize]
      rfl
    | some size =>
      rw [skipHeaders_of_some hsize, walk, hsize]
      dsimp only
      split_ifs with hshort hends
      · rfl
      · cases hends.2
      · exact ih _ _

/-- What the code takes for the start of a TCP header. -/
inductive TcpAt (p : Bytes) : Nat → Prop
  | v4 (hver : IsV4 p) (hheader : HeaderV4 p) (hproto : octet p 9 = 6) : TcpAt p (headerSize p)
  | v6 {off n : Nat} (hver : IsV6 p) (hfixed : 40 ≤ p.length) (hchain : Headers p passes (octet p 6) 40 n 6 off false)
      (hn : n ≤ 8) : TcpAt p off

lemma open_of_passes {k : UInt8} {closed : Bool} (h : Headers p passes kind off n k hops closed) : closed = false := by
  generalize hpasses : passes = ends at h
  induction h with
  | here => rfl
  | last _ _ _ hends =>
    subst hpasses
    cases hends
  | more _ _ _ _ ih => exact ih

lemma l4Offset_v4 (hver : IsV4 p) (hheader : HeaderV4 p) : l4Offset p = .ok (octet p 9, headerSize p) := by
  have hfixed := hheader.fixed
  have hleast := hheader.least
  rw [l4Offset, if_pos (isV4_iff.mp hver), ipv4Ihl_of_header hver hheader, Outcome.ok_bind, if_neg (by omega), ipv4Proto,
    if_neg (by omega), idx_eq (by omega)]
  rfl

lemma l4Offset_v6 (hver : IsV6 p) (hfixed : 40 ≤ p.length) : l4Offset p = .ok ((walk p passes 8 (octet p 6) 40).getD (0, 0)) := by
  have h4 : ¬ ipVersion p = 4 := fun h => (isV4_iff.mpr h).not_isV6 hver
  rw [l4Offset, if_neg h4, if_pos (isV6_iff.mp hver), if_neg (Nat.not_lt.mpr hfixed), ipv6NextHeader, if_neg (by omega), idx_eq (by omega),
    Outcome.ok_bind, skipHeaders_eq_walk]

lemma l4Offset_other (h4 : ¬ (IsV4 p ∧ HeaderV4 p)) (h6 : ¬ (IsV6 p ∧ 40 ≤ p.length)) : l4Offset p = .ok (0, 0) := by
  rw [l4Offset]
  split_ifs with hver4 hver6 hlen
  · rw [ipv4Ihl_of_not_header h4]
    rfl
  · rfl
  · exact absurd ⟨isV6_iff.mpr hver6, Nat.not_lt.mp hlen⟩ h6
  · rfl

lemma TcpAt.l4Offset_eq (h : TcpAt p off) : l4Offset p = .ok (6, off) := by
  cases h with
  | v4 hver hheader hproto => rw [l4Offset_v4 hver hheader, hproto]
  | v6 hver hfixed hchain hn =>
    rw [l4Offset_v6 hver hfixed, (walk_eq_some_iff (extSize_upper (.inl rfl))).mpr ⟨_, _, hchain, hn⟩]
    rfl

/-- The transport header is always looked for with success or `(0, 0)`, and what is found for TCP is where TCP is. -/
lemma l4Offset_cases (p : Bytes) : ∃ proto off, l4Offset p = .ok (proto, off) ∧ (proto = 6 → TcpAt p off) := by
  by_cases h4 : IsV4 p ∧ HeaderV4 p
  · exact ⟨_, _, l4Offset_v4 h4.1 h4.2, fun hproto => .v4 h4.1 h4.2 hproto⟩
  · by_cases h6 : IsV6 p ∧ 40 ≤ p.length
    · rw [l4Offset_v6 h6.1 h6.2]
      cases hwalk : walk p passes 8 (octet p 6) 40 with
      | none => exact ⟨0, 0, rfl, fun hproto => absurd hproto (by decide)⟩
      | some x =>
        obtain ⟨proto, off⟩ := x
        refine ⟨proto, off, rfl, ?_⟩
        rintro rfl
        obtain ⟨n, closed, hchain, hn⟩ := (walk_eq_some_iff (extSize_upper (.inl rfl))).mp hwalk
        obtain rfl := open_of_passes hchain
        exact .v6 h6.1 h6.2 hchain hn
    · exact ⟨0, 0, l4Offset_other h4 h6, fun hproto => absurd hproto (by decide)⟩

end IPv8Plus.Compat
