import IPv8Plus.Compat.Mss

/-!
# Whole segments

A packet that is no fragment, has the length it announces and carries a TCP SYN: clamping brings its maximum segment size down
to the target and changes nothing else but the checksums, which are right afterwards; once it has been done there is nothing
left to do.
-/

namespace IPv8Plus.Compat
open Lib

/-- A packet that is no fragment and has the length it announces, with a TCP header at an offset. -/
inductive WholeTcp (p : Bytes) : Nat → Prop
  | v4 (hver : IsV4 p) (hheader : HeaderV4 p) (htotal : (word p 2).toNat = p.length) (hwhole : word p 6 &&& 0x3FFF = 0)
      (hproto : octet p 9 = 6) : WholeTcp p (headerSize p)
  | v6 {off n : Nat} (hver : IsV6 p) (hfixed : 40 ≤ p.length) (hpayload : 40 + (word p 4).toNat = p.length)
      (hchain : Headers p splits (octet p 6) 40 n 6 off false) (hn : n ≤ 8) : WholeTcp p off

/-- Its segment is a SYN with a whole header. -/
structure WholeSyn (p : Bytes) (l4 : Nat) : Prop where
  whole : WholeTcp p l4
  fixed : l4 + 20 ≤ p.length
  syn : octet p (l4 + 13) &&& 0x02 ≠ 0
  least : 20 ≤ tcpSize p l4
  fits : l4 + tcpSize p l4 ≤ p.length

/-- The pseudo-header of a TCP segment. -/
def pseudoHeader (p : Bytes) (l4 : Nat) : Bytes := if IsV4 p then pseudoV4 p l4 6 else pseudoV6 p l4 6

def TcpVerifies (p : Bytes) (l4 : Nat) : Prop := folded (sum16 (pseudoHeader p l4) + sum16 (p.drop l4)) = 0xFFFF

def HeaderVerifies (p : Bytes) : Prop := folded (sum16 (p.take (headerSize p))) = 0xFFFF

/-- The bytes that clamping may write: the value, the TCP checksum and the checksum of an IPv4 header. -/
def Patched (p : Bytes) (l4 pos i : Nat) : Prop :=
  i = pos + 2 ∨ i = pos + 3 ∨ i = l4 + 16 ∨ i = l4 + 17 ∨ IsV4 p ∧ (i = 10 ∨ i = 11)

/-- A packet whose maximum segment size has been brought to the target. -/
structure Clamped (p p' : Bytes) (l4 pos : Nat) (target : UInt16) : Prop where
  length : p'.length = p.length
  value : word p' (pos + 2) = target
  tcp : TcpVerifies p' l4
  header : IsV4 p → HeaderVerifies p'
  frame : ∀ i, ¬ Patched p l4 pos i → octet p' i = octet p i

variable {p q : Bytes} {l4 pos i : Nat} {target : UInt16}

lemma WholeTcp.tcpAt (h : WholeTcp p l4) : TcpAt p l4 := by
  cases h with
  | v4 hver hheader _ _ hproto => exact .v4 hver hheader hproto
  | v6 hver hfixed _ hchain hn => exact .v6 hver hfixed (hchain.weaken fun w hw => by cases hw) hn

/-- Such packets are short enough for their words to be added in 32 bits. -/
lemma WholeTcp.length_le (h : WholeTcp p l4) : p.length ≤ sumLimit := by
  cases h with
  | v4 _ _ htotal =>
    have hlt := (word p 2).toNat_lt
    rw [← htotal, sumLimit]
    omega
  | v6 _ _ hpayload =>
    have hlt := (word p 4).toNat_lt
    rw [← hpayload, sumLimit]
    omega

lemma WholeSyn.synAt (h : WholeSyn p l4) : SynAt p l4 := ⟨h.whole.tcpAt, h.fixed, h.syn, h.least, h.fits⟩

/-! ## The clamped packet -/

lemma headerSize_le_limit : headerSize p ≤ sumLimit := by
  have hle : (octet p 0 &&& 0x0F).toNat ≤ 15 := by
    rw [UInt8.toNat_and]
    exact Nat.and_le_right
  rw [headerSize, sumLimit]
  omega

@[simp] lemma length_withHeaderSum : (withHeaderSum p l4).length = p.length := length_putWord

@[simp] lemma length_withTcpSum (pseudo : Bytes) : (withTcpSum p l4 pseudo).length = p.length := length_putWord

lemma octet_withHeaderSum (h : i ≠ 10) (h' : i ≠ 11) : octet (withHeaderSum p l4) i = octet p i := octet_putWord_ne h h'

lemma octet_withTcpSum (pseudo : Bytes) (h : i ≠ l4 + 16) (h' : i ≠ l4 + 17) : octet (withTcpSum p l4 pseudo) i = octet p i :=
  octet_putWord_ne h h'

lemma segment_putWord {a n j : Nat} {w : UInt16} (h : a + n ≤ j) : ((putWord p j w).drop a).take n = (p.drop a).take n := by
  obtain ⟨k, rfl⟩ := Nat.exists_eq_add_of_le (Nat.le_of_add_right_le h)
  rw [drop_putWord_add, take_putWord (by omega)]

lemma pseudoV4_withTcpSum (pseudo : Bytes) (h : 20 ≤ l4) : pseudoV4 (withTcpSum p l4 pseudo) l4 6 = pseudoV4 p l4 6 := by
  rw [pseudoV4, pseudoV4, length_withTcpSum, withTcpSum, segment_putWord (by omega), segment_putWord (by omega)]

lemma pseudoV6_withTcpSum (pseudo : Bytes) (h : 40 ≤ l4) : pseudoV6 (withTcpSum p l4 pseudo) l4 6 = pseudoV6 p l4 6 := by
  rw [pseudoV6, pseudoV6, length_withTcpSum, withTcpSum, segment_putWord (by omega), segment_putWord (by omega)]

/-- The TCP checksum is right for the pseudo-header it was computed with. -/
lemma folded_withTcpSum {pseudo : Bytes} (hpseudo : pseudo.length ≤ sumLimit) (hlen : p.length ≤ sumLimit) (h : l4 + 20 ≤ p.length) :
    folded (sum16 pseudo + sum16 ((withTcpSum p l4 pseudo).drop l4)) = 0xFFFF := by
  have hdrop : (putWord (p.drop l4) 16 0).length ≤ sumLimit := by
    rw [length_putWord, List.length_drop]
    omega
  rw [withTcpSum, drop_putWord_add, combine_eq hpseudo hdrop]
  exact folded_checksum _ (by rw [List.length_drop]; omega) rfl

lemma folded_withHeaderSum (hlen : l4 ≤ sumLimit) (h20 : 20 ≤ l4) (h : l4 ≤ p.length) :
    folded (sum16 ((withHeaderSum p l4).take l4)) = 0xFFFF := by
  have htake : (p.take l4).length = l4 := List.length_take_of_le h
  have hle : ((putWord p 10 0).take l4).length ≤ sumLimit := by
    rw [List.length_take]
    exact (Nat.min_le_left _ _).trans hlen
  have hsum := folded_checksum (p := p.take l4) (i := 10) 0 (by omega) rfl
  rw [Nat.zero_add, Nat.zero_add] at hsum
  rw [withHeaderSum, take_putWord_of_lt, checksum_eq hle, take_putWord_of_lt]
  exact hsum

lemma TcpAt.least (h : TcpAt p l4) : if IsV4 p then 20 ≤ l4 else 40 ≤ l4 := by
  cases h with
  | v4 hver hheader =>
    rw [if_pos hver]
    exact hheader.least
  | v6 hver _ hchain =>
    rw [if_neg fun h4 => h4.not_isV6 hver]
    exact hchain.le

lemma TcpAt.twenty_le_off (h : TcpAt p l4) : 20 ≤ l4 := by
  have hleast := h.least
  split_ifs at hleast <;> omega

lemma length_clamped : (clamped p l4 pos target).length = p.length := by
  rw [clamped]
  split_ifs
  · rw [length_withTcpSum, length_withHeaderSum, length_putWord]
  · rw [length_withTcpSum, length_putWord]

lemma octet_clamped (h : ¬ Patched p l4 pos i) : octet (clamped p l4 pos target) i = octet p i := by
  simp only [Patched, not_or, not_and] at h
  obtain ⟨h2, h3, h16, h17, hheader⟩ := h
  rw [clamped]
  split_ifs with hver
  · rw [octet_withTcpSum _ h16 h17, octet_withHeaderSum (hheader hver).1 (hheader hver).2, octet_putWord_ne h2 h3]
  · rw [octet_withTcpSum _ h16 h17, octet_putWord_ne h2 h3]

lemma MssAt.word_clamped (h : MssAt p l4 pos) (target : UInt16) : word (clamped p l4 pos target) (pos + 2) = target := by
  have hbounds := h.bounds
  rw [clamped]
  split_ifs
  · rw [withTcpSum, word_putWord_ne (by omega), withHeaderSum, word_putWord_ne (by omega), word_putWord (by omega)]
  · rw [withTcpSum, word_putWord_ne (by omega), word_putWord (by omega)]

lemma MssAt.tcpVerifies (h : MssAt p l4 pos) (hlen : p.length ≤ sumLimit) : TcpVerifies (clamped p l4 pos target) l4 := by
  have hbounds := h.bounds
  have hleast := h.syn.tcp.least
  have h0 : octet (clamped p l4 pos target) 0 = octet p 0 := octet_clamped (by simp only [Patched]; omega)
  rw [TcpVerifies, pseudoHeader, if_congr (isV4_congr h0) rfl rfl, clamped]
  split_ifs at hleast ⊢ with hver
  · rw [pseudoV4_withTcpSum _ hleast]
    have hlong : 20 ≤ (withHeaderSum (putWord p (pos + 2) target) l4).length := by
      rw [length_withHeaderSum, length_putWord]
      omega
    refine folded_withTcpSum ?_ ?_ ?_
    · rw [length_pseudoV4 hlong]
      decide
    · rwa [length_withHeaderSum, length_putWord]
    · rw [length_withHeaderSum, length_putWord]
      omega
  · rw [pseudoV6_withTcpSum _ hleast]
    have hlong : 40 ≤ (putWord p (pos + 2) target).length := by
      rw [length_putWord]
      omega
    refine folded_withTcpSum ?_ ?_ ?_
    · rw [length_pseudoV6 hlong]
      decide
    · rwa [length_putWord]
    · rw [length_putWord]
      omega

lemma MssAt.headerVerifies (h : MssAt p l4 pos) (hver : IsV4 p) : HeaderVerifies (clamped p l4 pos target) := by
  have hbounds := h.bounds
  have h20 := h.syn.tcp.twenty_le_off
  have h0 : octet (clamped p l4 pos target) 0 = octet p 0 := octet_clamped (by simp only [Patched]; omega)
  have hsize : headerSize (clamped p l4 pos target) = l4 := by
    cases h.syn.tcp with
    | v4 => exact headerSize_congr h0
    | v6 hver6 => exact absurd hver6 hver.not_isV6
  have hle : l4 ≤ sumLimit := hsize ▸ headerSize_le_limit
  rw [HeaderVerifies, hsize, clamped, if_pos hver, withTcpSum, take_putWord (Nat.le_add_right _ _)]
  exact folded_withHeaderSum hle h20 (by rw [length_putWord]; omega)

lemma MssAt.clamped_spec (h : MssAt p l4 pos) (hlen : p.length ≤ sumLimit) : Clamped p (clamped p l4 pos target) l4 pos target :=
  ⟨length_clamped, h.word_clamped target, h.tcpVerifies hlen, h.headerVerifies, fun _ => octet_clamped⟩

/-! ## A second time -/

lemma TcpAt.congr (h : TcpAt p l4) (hlen : q.length = p.length)
    (hsame : ∀ i, i < l4 → ¬ (IsV4 p ∧ (i = 10 ∨ i = 11)) → octet q i = octet p i) : TcpAt q l4 := by
  cases h with
  | v4 hver hheader hproto =>
    have hleast := hheader.least
    have h0 : octet q 0 = octet p 0 := hsame 0 (by omega) (by omega)
    have h9 : octet q 9 = octet p 9 := hsame 9 (by omega) (by omega)
    rw [← headerSize_congr h0]
    exact .v4 ((isV4_congr h0).mpr hver) (headerV4_congr hheader hlen h0) (h9.trans hproto)
  | v6 hver hfixed hchain hn =>
    have hle := hchain.le
    have hsame6 : ∀ i, i < l4 → octet q i = octet p i := fun i hi => hsame i hi fun h4 => h4.1.not_isV6 hver
    refine .v6 ((isV6_congr (hsame6 0 (by omega))).mpr hver) (hlen ▸ hfixed) ?_ hn
    rw [hsame6 6 (by omega)]
    exact hchain.congr hlen fun i _ hi => hsame6 i hi

lemma MssAt.not_patched (h : MssAt p l4 pos) (hi : i < l4) (hsum : ¬ (IsV4 p ∧ (i = 10 ∨ i = 11))) : ¬ Patched p l4 pos i := by
  have hbounds := h.bounds
  rintro (hvalue | hvalue | htcp | htcp | hheader)
  · omega
  · omega
  · omega
  · omega
  · exact hsum hheader

lemma MssAt.clamped_mss (h : MssAt p l4 pos) (target : UInt16) : MssAt (clamped p l4 pos target) l4 pos := by
  have hbounds := h.bounds
  have h20 := h.syn.tcp.twenty_le_off
  have hsame : ∀ i, i < pos + 2 → i ≠ 10 → i ≠ 11 → i ≠ l4 + 16 → i ≠ l4 + 17 → octet (clamped p l4 pos target) i = octet p i := by
    intro i hi h10 h11 h16 h17
    exact octet_clamped (by simp only [Patched]; omega)
  have hsize : tcpSize (clamped p l4 pos target) l4 = tcpSize p l4 := by
    rw [tcpSize, tcpSize, hsame (l4 + 12) (by omega) (by omega) (by omega) (by omega) (by omega)]
  refine ⟨⟨?_, ?_, ?_, ?_, ?_⟩, ?_⟩
  · exact h.syn.tcp.congr length_clamped fun i hi hsum => octet_clamped (h.not_patched hi hsum)
  · rw [length_clamped]
    exact h.syn.fixed
  · rw [hsame (l4 + 13) (by omega) (by omega) (by omega) (by omega) (by omega)]
    exact h.syn.syn
  · rw [hsize]
    exact h.syn.least
  · rw [hsize, length_clamped]
    exact h.syn.fits
  · rw [hsize]
    exact h.first.congr fun i hi hi' => hsame i hi' (by omega) (by omega) (by omega) (by omega)

/-- A packet that has been clamped stays as it is, for every packet. -/
lemma clampMss_again {p' : Bytes} {b : Bool} (h : clampMss p target = .ok (p', b)) : ∃ b', clampMss p' target = .ok (p', b') := by
  rcases clampMss_cases p target with ⟨b', heq, -⟩ | ⟨l4, pos, hmss, -, heq⟩
  · rw [heq] at h
    cases h
    exact ⟨b, heq⟩
  · rw [heq] at h
    cases h
    rcases clampMss_cases (clamped p l4 pos target) target with ⟨b', heq', -⟩ | ⟨l4', pos', hmss', habove, -⟩
    · exact ⟨b', heq'⟩
    · obtain ⟨rfl, rfl⟩ := (hmss.clamped_mss target).unique hmss'
      rw [hmss.word_clamped] at habove
      exact absurd habove (UInt16.lt_irrefl _)

/-- A SYN of version 4 with a maximum segment size of 1460. -/
def synPacket : Bytes := [0x45, 0, 0, 44, 0, 0, 0x40, 0, 64, 6, 0, 0, 10, 0, 0, 1, 10, 0, 0, 2] ++
  [4, 210, 0, 80, 0, 0, 0, 1, 0, 0, 0, 0, 0x60, 2, 0xFF, 0xFF, 0, 0, 0, 0, 2, 4, 0x05, 0xB4]

lemma synPacket_whole : WholeSyn synPacket 20 :=
  ⟨.v4 (by decide) (by decide) (by decide) (by decide) (by decide), by decide, by decide, by decide, by decide⟩

end IPv8Plus.Compat
