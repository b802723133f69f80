import IPv8Plus.Compat.Ip

/-!
# Clamping the maximum segment size

`core/ipv8-compat/src/mss.rs`: the maximum segment size of a TCP SYN is brought down to a target, in place, and the
checksums are computed anew.
-/

namespace IPv8Plus.Compat
open Lib

/-- The walk of `clamp_mss` and `read_mss` along the options, to the maximum segment size. -/
def findMss (packet : Bytes) (optsEnd pos : Nat) : Call (Option Nat) :=
  if pos < optsEnd then do
    let kind ← idx packet pos
    if kind = 0 then return none
    else if kind = 1 then findMss packet optsEnd (pos + 1)
    else if optsEnd ≤ pos + 1 then return none
    else do
      let optLen := (← idx packet (pos + 1)).toNat
      if optLen = 0 ∨ optsEnd < pos + optLen then return none
      else if kind = 2 ∧ optLen = 4 then return some pos
      else findMss packet optsEnd (pos + optLen)
  else return none
termination_by optsEnd - pos

def recomputeChecksums (packet : Bytes) (l4Off : Nat) : Call Bytes :=
  if ipVersion packet = 4 then do
    let (cs, header) ← ipHeaderChecksum (← slice packet 0 l4Off)
    let packet := header ++ packet.drop l4Off
    let packet ← putHalves packet 10 cs
    let tcpCs ← tcpChecksumV4 packet l4Off
    putHalves packet (l4Off + 16) tcpCs
  else if ipVersion packet = 6 then do
    let tcpCs ← tcpChecksumV6 packet l4Off
    putHalves packet (l4Off + 16) tcpCs
  else return packet

/-- The packet afterwards, and whether it is a SYN with a maximum segment size. -/
def clampMss (packet : Bytes) (targetMss : UInt16) : Call (Bytes × Bool) := do
  let (proto, l4Off) ← l4Offset packet
  if proto ≠ 6 then return (packet, false)
  else if packet.length < l4Off + 20 then return (packet, false)
  else do
    let flags ← idx packet (l4Off + 13)
    if flags &&& 0x02 = 0 then return (packet, false)
    else do
      let dataOff := (((← idx packet (l4Off + 12)) >>> 4) &&& 0x0F).toNat * 4
      if dataOff < 20 ∨ packet.length < l4Off + dataOff then return (packet, false)
      else do
        match ← findMss packet (l4Off + dataOff) (l4Off + 20) with
        | none => return (packet, false)
        | some pos =>
          let curMss := ofBe16 [← idx packet (pos + 2), ← idx packet (pos + 3)]
          if targetMss < curMss then do
            let packet ← putHalves packet (pos + 2) targetMss
            let packet ← recomputeChecksums packet l4Off
            return (packet, true)
          else return (packet, true)

variable {p q : Bytes} {l4 optsEnd pos n : Nat} {target : UInt16}

/-! ## The walk along the options -/

/-- From an option to the first maximum segment size behind it. -/
inductive FirstMss (p : Bytes) (optsEnd : Nat) : Nat → Nat → Prop
  | here {pos : Nat} (hin : pos + 4 ≤ optsEnd) (hkind : octet p pos = 2) (hlen : octet p (pos + 1) = 4) : FirstMss p optsEnd pos pos
  | nop {pos mss : Nat} (hin : pos < optsEnd) (hkind : octet p pos = 1) (hrest : FirstMss p optsEnd (pos + 1) mss) :
      FirstMss p optsEnd pos mss
  | skip {pos mss : Nat} (hkind : octet p pos ≠ 0 ∧ octet p pos ≠ 1) (hother : ¬ (octet p pos = 2 ∧ octet p (pos + 1) = 4))
      (hlen : octet p (pos + 1) ≠ 0) (hin : pos + (octet p (pos + 1)).toNat ≤ optsEnd)
      (hrest : FirstMss p optsEnd (pos + (octet p (pos + 1)).toNat) mss) : FirstMss p optsEnd pos mss

lemma FirstMss.bounds (h : FirstMss p optsEnd pos n) : pos ≤ n ∧ n + 4 ≤ optsEnd := by
  induction h with
  | here hin => exact ⟨le_rfl, hin⟩
  | nop _ _ _ ih => exact ⟨by omega, ih.2⟩
  | skip _ _ _ _ _ ih => exact ⟨by omega, ih.2⟩

/-- The walk depends on the options up to what it finds. -/
lemma FirstMss.congr (h : FirstMss p optsEnd pos n) (hsame : ∀ i, pos ≤ i → i < n + 2 → octet q i = octet p i) : FirstMss q optsEnd pos n := by
  induction h with
  | @here pos hin hkind hlen =>
    exact .here hin ((hsame _ (by omega) (by omega)).trans hkind) ((hsame _ (by omega) (by omega)).trans hlen)
  | @nop pos mss hin hkind hrest ih =>
    have hle := hrest.bounds.1
    exact .nop hin ((hsame _ le_rfl (by omega)).trans hkind) (ih fun i hi hi' => hsame i (by omega) hi')
  | @skip pos mss hkind hother hlen hin hrest ih =>
    have hle := hrest.bounds.1
    have hpos : 0 < (octet p (pos + 1)).toNat := Nat.pos_of_ne_zero fun h0 => hlen (UInt8.toNat_inj.mp h0)
    have hkindEq := hsame pos le_rfl (by omega)
    have hlenEq := hsame (pos + 1) (by omega) (by omega)
    refine .skip ?_ ?_ ?_ ?_ ?_
    · rwa [hkindEq]
    · rwa [hkindEq, hlenEq]
    · rwa [hlenEq]
    · rwa [hlenEq]
    · rw [hlenEq]
      exact ih fun i hi hi' => hsame i (by omega) hi'

lemma findMss_end (h : optsEnd ≤ pos) : findMss p optsEnd pos = .ok none := by
  rw [findMss, if_neg (Nat.not_lt.mpr h)]
  rfl

/-- One turn of the walk inside the packet. -/
lemma findMss_step (hend : optsEnd ≤ p.length) (h : pos < optsEnd) : findMss p optsEnd pos =
    if octet p pos = 0 then .ok none
    else if octet p pos = 1 then findMss p optsEnd (pos + 1)
    else if optsEnd ≤ pos + 1 then .ok none
    else if (octet p (pos + 1)).toNat = 0 ∨ optsEnd < pos + (octet p (pos + 1)).toNat then .ok none
    else if octet p pos = 2 ∧ (octet p (pos + 1)).toNat = 4 then .ok (some pos)
    else findMss p optsEnd (pos + (octet p (pos + 1)).toNat) := by
  rw [findMss, if_pos h, idx_eq (by omega), Outcome.ok_bind]
  refine if_congr Iff.rfl rfl (if_congr Iff.rfl rfl ?_)
  by_cases hlast : optsEnd ≤ pos + 1
  · rw [if_pos hlast, if_pos hlast]
    rfl
  · rw [if_neg hlast, if_neg hlast, idx_eq (by omega), Outcome.ok_bind]
    rfl

/-- The walk finds the first maximum segment size, and ends with nothing when there is none. -/
lemma findMss_cases (hend : optsEnd ≤ p.length) (pos : Nat) :
    ∃ found, findMss p optsEnd pos = .ok found ∧ ∀ n, found = some n ↔ FirstMss p optsEnd pos n := by
  induction hk : optsEnd - pos using Nat.strong_induction_on generalizing pos with
  | h k ih =>
    by_cases hpos : pos < optsEnd
    · rw [findMss_step hend hpos]
      split_ifs with hkind0 hkind1 hlast hbad hmss
      · refine ⟨none, rfl, fun n => iff_of_false nofun fun h => ?_⟩
        cases h with
        | here _ hkind => exact absurd (hkind0.symm.trans hkind) (by decide)
        | nop _ hkind => exact absurd (hkind0.symm.trans hkind) (by decide)
        | skip hkind => exact hkind.1 hkind0
      · obtain ⟨found, hfound, hiff⟩ := ih _ (by omega) (pos + 1) rfl
        refine ⟨found, hfound, fun n => (hiff n).trans ⟨.nop hpos hkind1, fun h => ?_⟩⟩
        cases h with
        | here _ hkind => exact absurd (hkind1.symm.trans hkind) (by decide)
        | nop _ _ hrest => exact hrest
        | skip hkind => exact absurd hkind1 hkind.2
      · refine ⟨none, rfl, fun n => iff_of_false nofun fun h => ?_⟩
        cases h with
        | here hin => omega
        | nop _ hkind => exact hkind1 hkind
        | skip _ _ _ _ hrest =>
          have hbounds := hrest.bounds
          omega
      · refine ⟨none, rfl, fun n => iff_of_false nofun fun h => ?_⟩
        cases h with
        | here hin _ hlen =>
          rw [hlen] at hbad
          exact hbad.elim (by decide) (Nat.not_lt.mpr hin)
        | nop _ hkind => exact hkind1 hkind
        | skip _ _ hlen hin => exact hbad.elim (fun h0 => hlen (UInt8.toNat_inj.mp h0)) (Nat.not_lt.mpr hin)
      · have hlen : octet p (pos + 1) = 4 := UInt8.toNat_inj.mp hmss.2
        refine ⟨some pos, rfl, fun n => ⟨?_, fun h => ?_⟩⟩
        · rintro ⟨⟩
          have hin := Nat.not_lt.mp (not_or.mp hbad).2
          rw [hmss.2] at hin
          exact .here hin hmss.1 hlen
        · cases h with
          | here => rfl
          | nop _ hkind => exact absurd hkind hkind1
          | skip _ hother => exact absurd ⟨hmss.1, hlen⟩ hother
      · obtain ⟨hlen, hin⟩ := not_or.mp hbad
        have hother : ¬ (octet p pos = 2 ∧ octet p (pos + 1) = 4) := fun h => hmss ⟨h.1, by rw [h.2]; rfl⟩
        obtain ⟨found, hfound, hiff⟩ := ih _ (by omega) (pos + (octet p (pos + 1)).toNat) rfl
        refine ⟨found, hfound, fun n => (hiff n).trans ⟨?_, fun h => ?_⟩⟩
        · exact .skip ⟨hkind0, hkind1⟩ hother (fun h0 => hlen (congrArg UInt8.toNat h0)) (Nat.not_lt.mp hin)
        · cases h with
          | here _ hkind hlen4 => exact absurd ⟨hkind, hlen4⟩ hother
          | nop _ hkind => exact absurd hkind hkind1
          | skip _ _ _ _ hrest => exact hrest
    · refine ⟨none, findMss_end (Nat.not_lt.mp hpos), fun n => iff_of_false nofun fun h => ?_⟩
      have hbounds := h.bounds
      omega

lemma FirstMss.unique (hend : optsEnd ≤ p.length) {n n' : Nat} (h : FirstMss p optsEnd pos n) (h' : FirstMss p optsEnd pos n') : n = n' := by
  obtain ⟨found, -, hiff⟩ := findMss_cases hend pos
  exact Option.some_inj.mp (((hiff n).mpr h).symm.trans ((hiff n').mpr h'))

/-! ## Where there is a maximum segment size -/

def tcpSize (p : Bytes) (l4 : Nat) : Nat := ((octet p (l4 + 12) >>> 4) &&& 0x0F).toNat * 4

/-- What the code takes for a TCP SYN. -/
structure SynAt (p : Bytes) (l4 : Nat) : Prop where
  tcp : TcpAt p l4
  fixed : l4 + 20 ≤ p.length
  syn : octet p (l4 + 13) &&& 0x02 ≠ 0
  least : 20 ≤ tcpSize p l4
  fits : l4 + tcpSize p l4 ≤ p.length

/-- The first maximum segment size of a SYN. -/
structure MssAt (p : Bytes) (l4 pos : Nat) : Prop where
  syn : SynAt p l4
  first : FirstMss p (l4 + tcpSize p l4) (l4 + 20) pos

lemma TcpAt.unique {l4' : Nat} (h : TcpAt p l4) (h' : TcpAt p l4') : l4 = l4' := by
  have heq := h.l4Offset_eq.symm.trans h'.l4Offset_eq
  cases heq
  rfl

lemma MssAt.unique {l4' pos' : Nat} (h : MssAt p l4 pos) (h' : MssAt p l4' pos') : l4 = l4' ∧ pos = pos' := by
  obtain rfl := h.syn.tcp.unique h'.syn.tcp
  exact ⟨rfl, h.first.unique h.syn.fits h'.first⟩

/-- What is done with the packet once it is known to be a SYN. -/
def clampFound (p : Bytes) (target : UInt16) (l4 : Nat) : Option Nat → Call (Bytes × Bool)
  | none => .ok (p, false)
  | some pos =>
    if target < word p (pos + 2) then (fun p => (p, true)) <$> recomputeChecksums (putWord p (pos + 2) target) l4
    else .ok (p, true)

lemma SynAt.clampMss_eq (h : SynAt p l4) (target : UInt16) : ∃ found, clampMss p target = clampFound p target l4 found ∧
    ∀ pos, found = some pos ↔ MssAt p l4 pos := by
  have hfixed := h.fixed
  obtain ⟨found, hfound, hiff⟩ := findMss_cases h.fits (l4 + 20)
  refine ⟨found, ?_, fun pos => (hiff pos).trans ⟨fun hfirst => ⟨h, hfirst⟩, fun hmss => hmss.first⟩⟩
  rw [clampMss, h.tcp.l4Offset_eq, Outcome.ok_bind]
  dsimp only
  rw [if_neg (not_not.mpr rfl), if_neg (Nat.not_lt.mpr hfixed), idx_eq (by omega), Outcome.ok_bind, if_neg h.syn, idx_eq (by omega),
    Outcome.ok_bind, ← tcpSize]
  rw [if_neg (not_or.mpr ⟨Nat.not_lt.mpr h.least, Nat.not_lt.mpr h.fits⟩), hfound, Outcome.ok_bind]
  cases found with
  | none => rfl
  | some pos =>
    have hbounds := ((hiff pos).mp rfl).bounds
    have hfits := h.fits
    dsimp only
    rw [idx_eq (by omega), Outcome.ok_bind, idx_eq (by omega), Outcome.ok_bind, putHalves_eq (by omega), clampFound]
    refine if_congr Iff.rfl ?_ rfl
    rw [Outcome.ok_bind]
    exact map_eq_pure_bind _ _ |>.symm

lemma clampMss_not_syn (h : ∀ l4, ¬ SynAt p l4) : clampMss p target = .ok (p, false) := by
  obtain ⟨proto, l4, hl4, htcp⟩ := l4Offset_cases p
  rw [clampMss, hl4, Outcome.ok_bind]
  dsimp only
  split_ifs with hproto hfixed
  · rfl
  · rfl
  · rw [idx_eq (by omega), Outcome.ok_bind]
    split_ifs with hsyn
    · rfl
    · rw [idx_eq (by omega), Outcome.ok_bind, ← tcpSize]
      refine if_pos (by_contra fun hsize => h l4 ?_)
      obtain ⟨hleast, hfits⟩ := not_or.mp hsize
      exact ⟨htcp (not_not.mp hproto), Nat.not_lt.mp hfixed, hsyn, Nat.not_lt.mp hleast, Nat.not_lt.mp hfits⟩

/-! ## What the checksums become -/

def withHeaderSum (p : Bytes) (l4 : Nat) : Bytes := putWord p 10 (checksum ((putWord p 10 0).take l4))

def withTcpSum (p : Bytes) (l4 : Nat) (pseudo : Bytes) : Bytes := putWord p (l4 + 16) (combine pseudo (putWord (p.drop l4) 16 0))

lemma headerSize_congr (h : octet q 0 = octet p 0) : headerSize q = headerSize p := by rw [headerSize, headerSize, h]

lemma headerV4_congr (h : HeaderV4 p) (hlen : q.length = p.length) (h0 : octet q 0 = octet p 0) : HeaderV4 q := by
  refine ⟨hlen ▸ h.fixed, ?_, ?_⟩
  · rw [headerSize_congr h0]
    exact h.least
  · rw [headerSize_congr h0, hlen]
    exact h.fits

lemma ipHeaderChecksum_take (hheader : HeaderV4 p) : ipHeaderChecksum (p.take (headerSize p)) =
    .ok (checksum ((putWord p 10 0).take (headerSize p)), (putWord p 10 0).take (headerSize p)) := by
  have hleast := hheader.least
  have hlen : (p.take (headerSize p)).length = headerSize p := List.length_take_of_le hheader.fits
  have hsize : headerSize (p.take (headerSize p)) = headerSize p := by
    refine headerSize_congr ?_
    rw [octet, octet, List.getD_eq_getElem?_getD, List.getD_eq_getElem?_getD, List.getElem?_take_of_lt (by omega)]
  rw [ipHeaderChecksum_eq (by omega) (by omega), hsize, ← take_putWord_of_lt, List.take_take, Nat.min_self]

lemma recomputeChecksums_v4 (hver : IsV4 p) (hheader : HeaderV4 p) (h : headerSize p + 20 ≤ p.length) :
    recomputeChecksums p (headerSize p) = .ok (withTcpSum (withHeaderSum p (headerSize p)) (headerSize p)
      (pseudoV4 (withHeaderSum p (headerSize p)) (headerSize p) (octet p 9))) := by
  have hfixed := hheader.fixed
  have hleast := hheader.least
  have hlen : (withHeaderSum p (headerSize p)).length = p.length := length_putWord
  have hproto : octet (withHeaderSum p (headerSize p)) 9 = octet p 9 := octet_putWord_ne (by decide) (by decide)
  rw [recomputeChecksums, if_pos (isV4_iff.mp hver), slice_front hheader.fits, Outcome.ok_bind, ipHeaderChecksum_take hheader,
    Outcome.ok_bind]
  -- the header is a slice of the packet, whose checksum is cleared as well
  dsimp only
  rw [take_putWord_of_lt, putWord_take_append_drop (by omega), putHalves_eq (by rw [length_putWord]; omega), Outcome.ok_bind,
    putWord_putWord, ← take_putWord_of_lt, ← withHeaderSum, tcpChecksumV4_eq (by omega) (by omega), Outcome.ok_bind, hproto,
    putHalves_eq (by omega), withTcpSum]

lemma recomputeChecksums_v6 (hver : IsV6 p) (hfixed : 40 ≤ p.length) (h : l4 + 20 ≤ p.length) :
    recomputeChecksums p l4 = .ok (withTcpSum p l4 (pseudoV6 p l4 6)) := by
  have h4 : ¬ ipVersion p = 4 := fun h => (isV4_iff.mpr h).not_isV6 hver
  rw [recomputeChecksums, if_neg h4, if_pos (isV6_iff.mp hver), tcpChecksumV6_eq hfixed h, Outcome.ok_bind, putHalves_eq (by omega), withTcpSum]

/-- The packet with its maximum segment size at the target. -/
def clamped (p : Bytes) (l4 pos : Nat) (target : UInt16) : Bytes :=
  let p' := putWord p (pos + 2) target
  if IsV4 p then withTcpSum (withHeaderSum p' l4) l4 (pseudoV4 (withHeaderSum p' l4) l4 6)
  else withTcpSum p' l4 (pseudoV6 p' l4 6)

lemma isV4_congr (h : octet q 0 = octet p 0) : IsV4 q ↔ IsV4 p := by rw [IsV4, IsV4, h]

lemma isV6_congr (h : octet q 0 = octet p 0) : IsV6 q ↔ IsV6 p := by rw [IsV6, IsV6, h]

lemma MssAt.bounds (h : MssAt p l4 pos) : l4 + 20 ≤ pos ∧ pos + 4 ≤ p.length := by
  have hfits := h.syn.fits
  have hbounds := h.first.bounds
  omega

lemma MssAt.recompute_eq (h : MssAt p l4 pos) : recomputeChecksums (putWord p (pos + 2) target) l4 = .ok (clamped p l4 pos target) := by
  have hbounds := h.bounds
  have hfixed := h.syn.fixed
  have hlen : (putWord p (pos + 2) target).length = p.length := length_putWord
  have h0 : octet (putWord p (pos + 2) target) 0 = octet p 0 := octet_putWord_ne (by omega) (by omega)
  rw [clamped]
  cases h.syn.tcp with
  | v4 hver hheader hproto =>
    have hproto' : octet (putWord p (pos + 2) target) 9 = octet p 9 := octet_putWord_ne (by omega) (by omega)
    have hsize := headerSize_congr h0
    rw [if_pos hver, ← hsize, recomputeChecksums_v4 ((isV4_congr h0).mpr hver) (headerV4_congr hheader hlen h0) (by omega), hproto', hproto]
  | v6 hver hfixed6 =>
    rw [if_neg fun h4 => h4.not_isV6 hver, recomputeChecksums_v6 ((isV6_congr h0).mpr hver) (by omega) (by omega)]

/-- **What clamping does.** The packet stays as it is, or it has a maximum segment size above the target. -/
theorem clampMss_cases (p : Bytes) (target : UInt16) :
    (∃ b, clampMss p target = .ok (p, b) ∧ ∀ l4 pos, MssAt p l4 pos → word p (pos + 2) ≤ target) ∨
    ∃ l4 pos, MssAt p l4 pos ∧ target < word p (pos + 2) ∧ clampMss p target = .ok (clamped p l4 pos target, true) := by
  by_cases hsyn : ∃ l4, SynAt p l4
  · obtain ⟨l4, hsyn⟩ := hsyn
    obtain ⟨found, heq, hiff⟩ := hsyn.clampMss_eq target
    rw [heq]
    cases found with
    | none =>
      refine .inl ⟨false, rfl, fun l4' pos hmss => ?_⟩
      obtain rfl := hsyn.tcp.unique hmss.syn.tcp
      cases (hiff pos).mpr hmss
    | some pos =>
      have hmss := (hiff pos).mp rfl
      by_cases habove : target < word p (pos + 2)
      · refine .inr ⟨l4, pos, hmss, habove, ?_⟩
        rw [clampFound, if_pos habove, hmss.recompute_eq]
        rfl
      · refine .inl ⟨true, if_neg habove, fun l4' pos' hmss' => ?_⟩
        obtain ⟨rfl, rfl⟩ := hmss.unique hmss'
        exact UInt16.not_lt.mp habove
  · refine .inl ⟨false, clampMss_not_syn fun l4 h => hsyn ⟨l4, h⟩, fun l4 pos hmss => absurd ⟨l4, hmss.syn⟩ hsyn⟩

end IPv8Plus.Compat
