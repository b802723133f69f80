import IPv8Plus.Hook.Inspect
import IPv8Plus.Lib.IpPacket

/-!
# Ports of fragments

The ports in `core/ipv8-hook/src/ip.rs` are two words read where the walk along the headers ends. The walk of the code ends
at the last fragment of several only, and the fragment field of version 4 is not read: behind the headers of a later fragment
there is data, and the code takes it for ports when its first four bytes are not zero.
-/

namespace IPv8Plus.Hook
open Lib

variable {p : Bytes} {kind next : UInt8} {off off' hops : Nat}

/-- The fragment headers at which the code ends its walk. -/
def lastFragment (w : UInt16) : Bool := decide (w &&& 1 = 0 ∧ w >>> 3 ≠ 0)

lemma offsetSet_of_lastFragment (w : UInt16) (h : lastFragment w = true) : offsetSet w = true :=
  bne_iff_ne.mpr (of_decide_eq_true h).2

lemma hop_of_none (h : extSize p next off = none) : hop p next off = .stop next off := by
  rw [extSize] at h
  split_ifs at h with hunits hfrag hauth
  rw [hop]
  split_ifs
  · rfl
  · rfl

/-- A fragment header has eight bytes; the others count their own, and hold the byte in which they do. -/
lemma hop_of_some {size : Nat} (h : extSize p next off = some size) : hop p next off =
    if p.length < off + size then .short
    else if next = 44 ∧ lastFragment (word p (off + 2)) = true then .stop (octet p off) (off + size)
    else .more (octet p off) (off + size) := by
  rw [extSize] at h
  split_ifs at h with hunits hfrag hauth
  · cases h
    have hupper : ¬ (next = 6 ∨ next = 17 ∨ next = 58) := by rcases hunits with rfl | rfl | rfl <;> decide
    have hkind : ¬ (next = 44 ∧ lastFragment (word p (off + 2)) = true) := by
      rintro ⟨rfl, -⟩
      exact absurd hunits (by decide)
    rw [hop, if_neg hupper, if_pos hunits]
    exact if_congr (or_iff_right_of_imp fun hlen => by omega) rfl (if_neg hkind).symm
  · cases h
    subst hfrag
    rw [hop, if_neg (by decide), if_neg (by decide), if_pos rfl]
    refine if_congr Iff.rfl rfl (if_congr ?_ rfl rfl)
    rw [lastFragment, decide_eq_true_iff]
    exact (and_iff_right rfl).symm
  · cases h
    subst hauth
    rw [hop, if_neg (by decide), if_neg (by decide), if_neg (by decide), if_pos rfl]
    exact if_congr (or_iff_right_of_imp fun hlen => by omega) rfl (if_neg fun h44 => absurd h44.1 (by decide)).symm

lemma followChain_eq_walk (p : Bytes) (hops : Nat) (next : UInt8) (off : Nat) :
    followChain p hops next off = walk p lastFragment hops next off := by
  induction hops generalizing next off with
  | zero => rfl
  | succ hops ih =>
    rw [followChain]
    cases hsize : extSize p next off with
    | none => rw [hop_of_none hsize, walk_of_none hsize]
    | some size =>
      rw [hop_of_some hsize, walk, hsize]
      dsimp only
      split_ifs
      · rfl
      · rfl
      · exact ih _ _

/-! ## Where the code looks for ports -/

/-- What the code takes for a transport header with ports. -/
inductive ReadAt (p : Bytes) : Nat → Prop
  | v4 (hver : IsV4 p) (hheader : HeaderV4 p) (hproto : octet p 9 = 6 ∨ octet p 9 = 17) (hports : headerSize p + 4 ≤ p.length) :
      ReadAt p (headerSize p)
  | v6 {kind : UInt8} {off n : Nat} {closed : Bool} (hver : IsV6 p) (hfixed : 40 ≤ p.length)
      (hchain : Headers p lastFragment (octet p 6) 40 n kind off closed) (hn : n ≤ 8) (hproto : kind = 6 ∨ kind = 17)
      (hports : off + 4 ≤ p.length) : ReadAt p off

/-- A transport header with ports: that of a packet that is whole or the first of its fragments. -/
inductive TransportAt (p : Bytes) : Nat → Prop
  | v4 (hver : IsV4 p) (hheader : HeaderV4 p) (hfirst : word p 6 &&& 0x1FFF = 0) (hproto : octet p 9 = 6 ∨ octet p 9 = 17)
      (hports : headerSize p + 4 ≤ p.length) : TransportAt p (headerSize p)
  | v6 {kind : UInt8} {off n : Nat} (hver : IsV6 p) (hfixed : 40 ≤ p.length)
      (hchain : Headers p offsetSet (octet p 6) 40 n kind off false) (hn : n ≤ 8) (hproto : kind = 6 ∨ kind = 17)
      (hports : off + 4 ≤ p.length) : TransportAt p off

lemma TransportAt.readAt (h : TransportAt p off) : ReadAt p off := by
  cases h with
  | v4 hver hheader _ hproto hports => exact .v4 hver hheader hproto hports
  | v6 hver hfixed hchain hn hproto hports =>
    exact .v6 hver hfixed (hchain.weaken offsetSet_of_lastFragment) hn hproto hports

/-- The packets with ports are not the later fragments. -/
lemma TransportAt.not_nonFirst (h : TransportAt p off) : ¬ NonFirst p := by
  cases h with
  | v4 hver _ hfirst =>
    rintro (⟨-, hoffset⟩ | ⟨hver', -⟩)
    · exact hoffset hfirst
    · exact hver.not_isV6 hver'
  | v6 hver _ hchain _ hproto =>
    rintro (⟨hver', -⟩ | ⟨-, n, kind, o, hlater⟩)
    · exact hver'.not_isV6 hver
    · exact absurd (hchain.closed_unique hlater (.inr (extSize_upper hproto)) (.inl rfl)) (by decide)

lemma parsePorts_upper (hproto : next = 6 ∨ next = 17) (hports : off + 4 ≤ p.length) :
    parsePorts p off next = (word p off, word p (off + 2)) := by
  have hkind : ¬ (next ≠ 6 ∧ next ≠ 17) := by
    rintro ⟨h6, h17⟩
    exact hproto.elim h6 h17
  rw [parsePorts, if_neg hkind, if_neg (Nat.not_lt.mpr hports)]
  rfl

lemma parsePorts_none (h : ¬ ((next = 6 ∨ next = 17) ∧ off + 4 ≤ p.length)) : parsePorts p off next = (0, 0) := by
  rw [parsePorts]
  split_ifs with hkind hports
  · rfl
  · rfl
  · refine absurd ⟨?_, Nat.not_lt.mp hports⟩ h
    rwa [ne_eq, ne_eq, ← not_or, not_not] at hkind

lemma inspect_v4 (hver : IsV4 p) : inspect p = inspectV4 p := by
  cases p with
  | nil => exact absurd hver (by decide)
  | cons b rest => exact if_pos hver

lemma inspect_v6 (hver : IsV6 p) : inspect p = inspectV6 p := by
  cases p with
  | nil => exact absurd hver (by decide)
  | cons b rest => exact (if_neg fun h4 => IsV4.not_isV6 (p := b :: rest) h4 hver).trans (if_pos hver)

lemma inspect_other (h4 : ¬ IsV4 p) (h6 : ¬ IsV6 p) : inspect p = .default := by
  cases p with
  | nil => rfl
  | cons b rest => exact (if_neg h4).trans (if_neg h6)

def portsOf (info : PacketInfo) : UInt16 × UInt16 := (info.sport, info.dport)

lemma headerV4_iff : HeaderV4 p ↔ ¬ p.length < 20 ∧ ¬ (byteAt p 0 &&& 0x0F).toNat < 5 ∧ ¬ p.length < (byteAt p 0 &&& 0x0F).toNat * 4 := by
  rw [headerV4_def, headerSize, show octet p 0 = byteAt p 0 from rfl]
  omega

lemma inspectV4_of_header (h : HeaderV4 p) : portsOf (inspectV4 p) = parsePorts p (headerSize p) (octet p 9) := by
  obtain ⟨hlen, hihl, hfits⟩ := headerV4_iff.mp h
  rw [inspectV4, if_neg hlen]
  dsimp only
  rw [if_neg hihl, if_neg hfits]
  rfl

lemma inspectV4_of_not_header (h : ¬ HeaderV4 p) : inspectV4 p = .default := by
  rw [headerV4_iff] at h
  rw [inspectV4]
  dsimp only
  split_ifs with hlen hihl hfits
  · rfl
  · rfl
  · rfl
  · exact absurd ⟨hlen, hihl, hfits⟩ h

/-- The ports are words of the packet, or there is nowhere to read them. -/
def PortsRead (p : Bytes) (ports : UInt16 × UInt16) : Prop :=
  (∃ off, ReadAt p off ∧ ports = (word p off, word p (off + 2))) ∨ (∀ off, ¬ ReadAt p off) ∧ ports = (0, 0)

lemma portsRead_v4 (hver : IsV4 p) : PortsRead p (portsOf (inspectV4 p)) := by
  by_cases hheader : HeaderV4 p
  · rw [inspectV4_of_header hheader]
    by_cases hread : (octet p 9 = 6 ∨ octet p 9 = 17) ∧ headerSize p + 4 ≤ p.length
    · exact .inl ⟨_, .v4 hver hheader hread.1 hread.2, parsePorts_upper hread.1 hread.2⟩
    · refine .inr ⟨?_, parsePorts_none hread⟩
      rintro _ (⟨-, -, hproto, hports⟩ | ⟨hver6⟩)
      · exact hread ⟨hproto, hports⟩
      · exact hver.not_isV6 hver6
  · rw [inspectV4_of_not_header hheader]
    refine .inr ⟨?_, rfl⟩
    rintro _ (⟨-, hheader'⟩ | ⟨hver6⟩)
    · exact hheader hheader'
    · exact hver.not_isV6 hver6

/-- A place with ports is the one to which the walk comes. -/
lemma ReadAt.walk_eq (h : ReadAt p off) (hver : IsV6 p) : ∃ kind, walk p lastFragment 8 (octet p 6) 40 = some (kind, off) ∧
    (kind = 6 ∨ kind = 17) ∧ off + 4 ≤ p.length := by
  cases h with
  | v4 hver4 => exact absurd hver hver4.not_isV6
  | v6 _ _ hchain hn hproto hports =>
    exact ⟨_, (walk_eq_some_iff (extSize_upper hproto)).mpr ⟨_, _, hchain, hn⟩, hproto, hports⟩

lemma inspectV6_of_fixed (h : 40 ≤ p.length) : portsOf (inspectV6 p) =
    match walk p lastFragment 8 (octet p 6) 40 with
    | none => (0, 0)
    | some (next, off) => parsePorts p off next := by
  rw [inspectV6, if_neg (Nat.not_lt.mpr h), followChain_eq_walk, show byteAt p 6 = octet p 6 from rfl]
  cases walk p lastFragment 8 (octet p 6) 40 with
  | none => rfl
  | some x => rfl

lemma portsRead_v6 (hver : IsV6 p) : PortsRead p (portsOf (inspectV6 p)) := by
  by_cases hfixed : 40 ≤ p.length
  · rw [inspectV6_of_fixed hfixed]
    cases hend : walk p lastFragment 8 (octet p 6) 40 with
    | none =>
      refine .inr ⟨fun off hread => ?_, rfl⟩
      obtain ⟨kind, hsome, -⟩ := hread.walk_eq hver
      rw [hend] at hsome
      cases hsome
    | some x =>
      obtain ⟨kind, off⟩ := x
      by_cases hread : (kind = 6 ∨ kind = 17) ∧ off + 4 ≤ p.length
      · obtain ⟨n, closed, hchain, hn⟩ := (walk_eq_some_iff (extSize_upper hread.1)).mp hend
        exact .inl ⟨off, .v6 hver hfixed hchain hn hread.1 hread.2, parsePorts_upper hread.1 hread.2⟩
      · refine .inr ⟨fun off' hread' => ?_, parsePorts_none hread⟩
        obtain ⟨kind', hsome, hproto, hports⟩ := hread'.walk_eq hver
        rw [hend] at hsome
        cases hsome
        exact hread ⟨hproto, hports⟩
  · rw [inspectV6, if_pos (Nat.not_le.mp hfixed)]
    refine .inr ⟨?_, rfl⟩
    rintro _ (⟨hver4⟩ | ⟨-, hfixed'⟩)
    · exact hver4.not_isV6 hver
    · exact hfixed hfixed'

lemma portsRead_inspect (p : Bytes) : PortsRead p (portsOf (inspect p)) := by
  by_cases h4 : IsV4 p
  · rw [inspect_v4 h4]
    exact portsRead_v4 h4
  · by_cases h6 : IsV6 p
    · rw [inspect_v6 h6]
      exact portsRead_v6 h6
    · rw [inspect_other h4 h6]
      refine .inr ⟨?_, rfl⟩
      rintro _ (⟨hver⟩ | ⟨hver⟩)
      · exact h4 hver
      · exact h6 hver

/-- The code looks for ports in one place at most. -/
lemma ReadAt.unique (h : ReadAt p off) (h' : ReadAt p off') : off = off' := by
  by_cases h6 : IsV6 p
  · obtain ⟨kind, hwalk, -⟩ := h.walk_eq h6
    obtain ⟨kind', hwalk', -⟩ := h'.walk_eq h6
    rw [hwalk] at hwalk'
    cases hwalk'
    rfl
  · cases h with
    | v4 =>
      cases h' with
      | v4 => rfl
      | v6 hver => exact absurd hver h6
    | v6 hver => exact absurd hver h6

lemma ReadAt.ports_eq (h : ReadAt p off) : portsOf (inspect p) = (word p off, word p (off + 2)) := by
  rcases portsRead_inspect p with ⟨off', hread, hports⟩ | ⟨hnone, -⟩
  · rwa [h.unique hread]
  · exact absurd h (hnone off)

/-! ## When the ports are those of a transport header -/

/-- No ports for the later fragments, the words of the transport header for the other packets. -/
structure PortsFaithful (p : Bytes) : Prop where
  later : NonFirst p → portsOf (inspect p) = (0, 0)
  header : ∀ off, TransportAt p off → portsOf (inspect p) = (word p off, word p (off + 2))

/-- A later fragment, where the code takes data that are not zero for ports. -/
def DataAsPorts (p : Bytes) : Prop := NonFirst p ∧ ∃ off, ReadAt p off ∧ (word p off, word p (off + 2)) ≠ (0, 0)

theorem portsFaithful_iff (p : Bytes) : PortsFaithful p ↔ ¬ DataAsPorts p := by
  constructor
  · rintro h ⟨hlater, off, hread, hne⟩
    exact hne (hread.ports_eq.symm.trans (h.later hlater))
  · intro h
    refine ⟨fun hlater => ?_, fun off htransport => htransport.readAt.ports_eq⟩
    rcases portsRead_inspect p with ⟨off, hread, hports⟩ | ⟨-, hports⟩
    · rw [hports]
      by_contra hne
      exact h ⟨hlater, off, hread, hne⟩
    · exact hports

/-- A UDP packet of version 4, 185 units of eight bytes into its data. -/
def laterFragment : Bytes := [0x45, 0, 0, 28, 0, 1, 0, 185, 64, 17, 0, 0, 10, 0, 0, 1, 10, 0, 0, 2, 0xDE, 0xAD, 0xBE, 0xEF, 0, 0, 0, 0]

theorem laterFragment_not_faithful : ¬ PortsFaithful laterFragment := by
  intro h
  have hports := h.later (.inl ⟨by decide, by decide⟩)
  revert hports
  decide

/-- Version 6: a fragment in the middle, 185 units into its data, behind its fragment header. -/
example : portsOf (inspect ([0x60, 0, 0, 0, 0, 16, 44, 64] ++ List.replicate 32 0 ++ [17, 0, 0x05, 0xC9, 0, 0, 0, 1] ++
    [0xDE, 0xAD, 0xBE, 0xEF, 0, 0, 0, 0])) = (0xDEAD, 0xBEEF) := by decide

end IPv8Plus.Hook
