import IPv8Plus.Lib.BigEndian
import IPv8Plus.Lib.Outcome

/-!
# IP addresses as text

Numbers and IP addresses as the standard library prints them, as the bytes of the text: IPv4 addresses in dotted
decimals, IPv6 addresses in hexadecimal segments whose longest run of zeroes is left out. Different addresses have
different texts.
-/

namespace Lib

/-! ## Numbers -/

def digitByte (d : Nat) : UInt8 := if d < 10 then 0x30 + UInt8.ofNat d else 0x57 + UInt8.ofNat d

def digitsOf (base n : Nat) : List Nat := if n = 0 then [0] else (Nat.digits base n).reverse

def numeral (base n : Nat) : Bytes := (digitsOf base n).map digitByte

abbrev decimal (n : Nat) : Bytes := numeral 10 n

abbrev hexadecimal (n : Nat) : Bytes := numeral 16 n

def IsDigit (c : UInt8) : Prop := (0x30 ≤ c ∧ c ≤ 0x39) ∨ (0x61 ≤ c ∧ c ≤ 0x66)

instance (c : UInt8) : Decidable (IsDigit c) := inferInstanceAs (Decidable (_ ∨ _))

variable {base n m : Nat} {c : UInt8}

lemma ofDigits_digitsOf (base n : Nat) : Nat.ofDigits base (digitsOf base n).reverse = n := by
  by_cases h : n = 0
  · rw [digitsOf, if_pos h, h]
    rfl
  · rw [digitsOf, if_neg h, List.reverse_reverse, Nat.ofDigits_digits]

lemma mem_digitsOf {d : Nat} (hbase : 1 < base) (h : d ∈ digitsOf base n) : d < base := by
  by_cases hn : n = 0
  · rw [digitsOf, if_pos hn] at h
    cases List.mem_singleton.mp h
    exact Nat.zero_lt_of_lt hbase
  · rw [digitsOf, if_neg hn] at h
    exact Nat.digits_lt_base hbase (List.mem_reverse.mp h)

/-- The value of a digit. -/
def digitValue (c : UInt8) : Nat := if c < 0x3A then c.toNat - 0x30 else c.toNat - 0x57

lemma digitByte_spec : ∀ d : Fin 16, IsDigit (digitByte d) ∧ digitValue (digitByte d) = d := by decide

lemma isDigit_of_mem (hbase : 1 < base) (hle : base ≤ 16) (h : c ∈ numeral base n) : IsDigit c := by
  obtain ⟨d, hd, rfl⟩ := List.mem_map.mp h
  exact (digitByte_spec ⟨d, (mem_digitsOf hbase hd).trans_le hle⟩).1

lemma numeral_ne_nil : numeral base n ≠ [] := by
  intro h
  have hnil := List.map_eq_nil_iff.mp h
  by_cases hn : n = 0
  · rw [digitsOf, if_pos hn] at hnil
    cases hnil
  · rw [digitsOf, if_neg hn] at hnil
    exact Nat.digits_ne_nil_iff_ne_zero.mpr hn (List.reverse_eq_nil_iff.mp hnil)

lemma map_digitValue_numeral (hbase : 1 < base) (hle : base ≤ 16) : (numeral base n).map digitValue = digitsOf base n := by
  rw [numeral, List.map_map]
  refine (List.map_congr_left fun d hd => ?_).trans (List.map_id _)
  exact (digitByte_spec ⟨d, (mem_digitsOf hbase hd).trans_le hle⟩).2

lemma numeral_inj (hbase : 1 < base) (hle : base ≤ 16) (h : numeral base n = numeral base m) : n = m := by
  rw [← ofDigits_digitsOf base n, ← map_digitValue_numeral hbase hle, h, map_digitValue_numeral hbase hle, ofDigits_digitsOf]

lemma decimal_injective : Function.Injective decimal := fun _ _ => numeral_inj (by decide) (by decide)

lemma hexadecimal_injective : Function.Injective hexadecimal := fun _ _ => numeral_inj (by decide) (by decide)

lemma isDigit_decimal (h : c ∈ decimal n) : IsDigit c := isDigit_of_mem (by decide) (by decide) h

lemma isDigit_hexadecimal (h : c ∈ hexadecimal n) : IsDigit c := isDigit_of_mem (by decide) (by decide) h

/-! ## Addresses -/

abbrev Ipv4Addr := Arr UInt8 4

abbrev Ipv6Addr := Arr UInt16 8

def dot : UInt8 := 0x2E

def colon : UInt8 := 0x3A

/-- `Ipv4Addr`'s `Display`. -/
def Ipv4Addr.toText (a : Ipv4Addr) : Bytes := [dot].intercalate (a.val.map fun o => decimal o.toNat)

/-- A run of zero segments. -/
structure Span where
  start : Nat
  len : Nat
  deriving DecidableEq, Repr

/-- One turn of the loop that looks for the longest run of zeroes; it keeps the longest and the current one. -/
def Span.next (runs : Span × Span) (x : UInt16 × Nat) : Span × Span :=
  if x.1 = 0 then
    let current : Span := ⟨if runs.2.len = 0 then x.2 else runs.2.start, runs.2.len + 1⟩
    (if runs.1.len < current.len then current else runs.1, current)
  else (runs.1, ⟨0, 0⟩)

def zeroes (segments : List UInt16) : Span := (segments.zipIdx.foldl Span.next (⟨0, 0⟩, ⟨0, 0⟩)).1

def fmtSubslice (chunk : List UInt16) : Bytes := [colon].intercalate (chunk.map fun x => hexadecimal x.toNat)

/-- The octets of an address of the form `::ffff:a.b.c.d`. -/
def toIpv4Mapped : List UInt16 → Option (List UInt8)
  | [0, 0, 0, 0, 0, 0xFFFF, hi, lo] => some [(hi >>> 8).toUInt8, hi.toUInt8, (lo >>> 8).toUInt8, lo.toUInt8]
  | _ => none

/-- `Ipv6Addr`'s `Display`. -/
def Ipv6Addr.toText (a : Ipv6Addr) : Bytes :=
  match toIpv4Mapped a.val with
  | some octets => [colon, colon, 0x66, 0x66, 0x66, 0x66, colon] ++ [dot].intercalate (octets.map fun o => decimal o.toNat)
  | none =>
    let z := zeroes a.val
    if 1 < z.len then
      fmtSubslice (a.val.take z.start) ++ colon :: colon :: fmtSubslice (a.val.drop (z.start + z.len))
    else fmtSubslice a.val

inductive IpAddr where
  | v4 (a : Ipv4Addr)
  | v6 (a : Ipv6Addr)
  deriving DecidableEq

def IpAddr.toText : IpAddr → Bytes
  | .v4 a => a.toText
  | .v6 a => a.toText

/-! ## Different addresses, different texts -/

lemma isDigit_dot : ¬ IsDigit dot := by decide

lemma isDigit_colon : ¬ IsDigit colon := by decide

variable {l l' : List UInt16} {o o' : List UInt8} {s : List UInt16} {i : Nat}

lemma splitOn_octets (h : o ≠ []) : ([dot].intercalate (o.map fun x => decimal x.toNat)).splitOn dot = o.map fun x => decimal x.toNat := by
  refine List.splitOn_intercalate dot ?_ (List.map_eq_nil_iff.not.mpr h)
  intro t ht hdot
  obtain ⟨x, -, rfl⟩ := List.mem_map.mp ht
  exact isDigit_dot (isDigit_decimal hdot)

lemma octets_inj (ho : o ≠ []) (ho' : o' ≠ [])
    (h : [dot].intercalate (o.map fun x => decimal x.toNat) = [dot].intercalate (o'.map fun x => decimal x.toNat)) : o = o' := by
  have hsplit := congrArg (List.splitOn dot) h
  rw [splitOn_octets ho, splitOn_octets ho'] at hsplit
  exact (List.map_inj_right fun _ _ hxy => UInt8.toNat_inj.mp (decimal_injective hxy)).mp hsplit

lemma mem_intercalate {sep : UInt8} {c : UInt8} {ts : List Bytes} (h : c ∈ [sep].intercalate ts) : c = sep ∨ ∃ t ∈ ts, c ∈ t := by
  induction ts with
  | nil => cases h
  | cons t ts ih =>
    cases ts with
    | nil =>
      rw [List.intercalate_singleton] at h
      exact .inr ⟨t, List.mem_cons_self, h⟩
    | cons u us =>
      rw [List.intercalate_cons_cons, List.append_assoc, List.mem_append, List.mem_append, List.mem_singleton] at h
      rcases h with ht | hsep | hrest
      · exact .inr ⟨t, List.mem_cons_self, ht⟩
      · exact .inl hsep
      · rcases ih hrest with hsep | ⟨v, hv, hc⟩
        · exact .inl hsep
        · exact .inr ⟨v, List.mem_cons_of_mem _ hv, hc⟩

lemma mem_octets (h : c ∈ [dot].intercalate (o.map fun x => decimal x.toNat)) : c = dot ∨ IsDigit c := by
  rcases mem_intercalate h with hdot | ⟨t, ht, hc⟩
  · exact .inl hdot
  · obtain ⟨x, -, rfl⟩ := List.mem_map.mp ht
    exact .inr (isDigit_decimal hc)

lemma mem_fmtSubslice (h : c ∈ fmtSubslice l) : c = colon ∨ IsDigit c := by
  rcases mem_intercalate h with hcolon | ⟨t, ht, hc⟩
  · exact .inl hcolon
  · obtain ⟨x, -, rfl⟩ := List.mem_map.mp ht
    exact .inr (isDigit_hexadecimal hc)

/-- The segments between the colons; no segments at all are one empty piece. -/
def pieces (l : List UInt16) : List Bytes := if l = [] then [[]] else l.map fun x => hexadecimal x.toNat

lemma splitOn_fmtSubslice (l : List UInt16) : (fmtSubslice l).splitOn colon = pieces l := by
  by_cases h : l = []
  · subst h
    rfl
  · rw [pieces, if_neg h, fmtSubslice]
    refine List.splitOn_intercalate colon ?_ (List.map_eq_nil_iff.not.mpr h)
    intro t ht hcolon
    obtain ⟨x, -, rfl⟩ := List.mem_map.mp ht
    exact isDigit_colon (isDigit_hexadecimal hcolon)

lemma hexadecimals_ne_nil : ∀ t ∈ l.map (fun x => hexadecimal x.toNat), t ≠ [] := by
  intro t ht
  obtain ⟨x, -, rfl⟩ := List.mem_map.mp ht
  exact numeral_ne_nil

lemma hexadecimals_inj (h : l.map (fun x => hexadecimal x.toNat) = l'.map fun x => hexadecimal x.toNat) : l = l' :=
  (List.map_inj_right fun _ _ hxy => UInt16.toNat_inj.mp (hexadecimal_injective hxy)).mp h

/-- What stands before the first empty piece. -/
lemma takeWhile_pieces (l : List UInt16) (ts : List Bytes) :
    (pieces l ++ [] :: ts).takeWhile (· ≠ []) = l.map fun x => hexadecimal x.toNat := by
  by_cases h : l = []
  · subst h
    rfl
  · rw [pieces, if_neg h, List.takeWhile_append_of_pos fun t ht => decide_eq_true (hexadecimals_ne_nil t ht),
      List.takeWhile_cons_of_neg (by decide), List.append_nil]

lemma reverse_pieces (l : List UInt16) : (pieces l).reverse = pieces l.reverse := by
  by_cases h : l = []
  · subst h
    rfl
  · rw [pieces, if_neg h, pieces, if_neg (List.reverse_eq_nil_iff.not.mpr h), List.map_reverse]

/-- The segments on both sides of the gap can be read off. -/
lemma pieces_inj {r r' : List UInt16} (h : pieces l ++ [] :: pieces r = pieces l' ++ [] :: pieces r') : l = l' ∧ r = r' := by
  have hleft := congrArg (List.takeWhile (· ≠ [])) h
  rw [takeWhile_pieces, takeWhile_pieces] at hleft
  have hright := congrArg (fun ts => ts.reverse.takeWhile (· ≠ [])) h
  rw [List.reverse_append, List.reverse_cons, reverse_pieces, reverse_pieces, List.append_assoc, List.singleton_append,
    takeWhile_pieces, List.reverse_append, List.reverse_cons, reverse_pieces, reverse_pieces, List.append_assoc,
    List.singleton_append, takeWhile_pieces] at hright
  exact ⟨hexadecimals_inj hleft, List.reverse_injective (hexadecimals_inj hright)⟩

/-- The run lies within the segments, and they are zero there. -/
def Span.Zero (r : Span) (l : List UInt16) : Prop :=
  r.start + r.len ≤ l.length ∧ ∀ j, r.start ≤ j → j < r.start + r.len → l[j]? = some 0

lemma Span.Zero.concat {r : Span} (h : r.Zero l) (x : UInt16) : r.Zero (l ++ [x]) := by
  refine ⟨?_, fun j hj hlt => ?_⟩
  · rw [List.length_append]
    exact h.1.trans (Nat.le_add_right _ _)
  · rw [List.getElem?_append_left (hlt.trans_le h.1)]
    exact h.2 j hj hlt

lemma Span.zero_empty (l : List UInt16) : Span.Zero ⟨0, 0⟩ l :=
  ⟨Nat.zero_le _, fun _ _ hlt => absurd hlt (Nat.not_lt_zero _)⟩

/-- The longest and the current run are runs of zeroes, and the current one ends at the end. -/
lemma zeroes_loop (l : List UInt16) : ∃ longest current, l.zipIdx.foldl Span.next (⟨0, 0⟩, ⟨0, 0⟩) = (longest, current) ∧
    longest.Zero l ∧ current.Zero l ∧ (current.len ≠ 0 → current.start + current.len = l.length) := by
  induction l using List.reverseRecOn with
  | nil => exact ⟨_, _, rfl, Span.zero_empty _, Span.zero_empty _, fun h => absurd rfl h⟩
  | append_singleton l x ih =>
    obtain ⟨longest, current, hfold, hlongest, hcurrent, hend⟩ := ih
    rw [List.zipIdx_append, List.foldl_append, hfold, List.zipIdx_singleton, List.foldl_cons, List.foldl_nil, Nat.zero_add]
    by_cases hx : x = 0
    · subst hx
      -- the current run is extended by this segment
      have hext : Span.Zero ⟨if current.len = 0 then l.length else current.start, current.len + 1⟩ (l ++ [0]) := by
        by_cases h0 : current.len = 0
        · rw [if_pos h0, h0]
          refine ⟨by rw [List.length_append]; rfl, fun j hj hlt => ?_⟩
          have hj' : j = l.length := Nat.le_antisymm (Nat.lt_succ_iff.mp hlt) hj
          rw [hj', List.getElem?_append_right le_rfl, Nat.sub_self]
          rfl
        · rw [if_neg h0]
          have hlen := hend h0
          refine ⟨by rw [List.length_append, List.length_singleton]; dsimp only; omega, fun j hj hlt => ?_⟩
          dsimp only at hj hlt
          by_cases hj' : j < current.start + current.len
          · exact (hcurrent.concat 0).2 j hj hj'
          · have hjl : j = l.length := by omega
            rw [hjl, List.getElem?_append_right le_rfl, Nat.sub_self]
            rfl
      refine ⟨_, _, if_pos rfl, ?_, hext, fun _ => ?_⟩
      · dsimp only
        split
        · exact hext
        · exact hlongest.concat 0
      · rw [List.length_append, List.length_singleton]
        dsimp only
        by_cases h0 : current.len = 0
        · rw [if_pos h0, h0]
        · rw [if_neg h0, ← Nat.add_assoc, hend h0]
    · exact ⟨_, _, if_neg hx, hlongest.concat x, Span.zero_empty _, fun h => absurd rfl h⟩

lemma zeroes_zero (l : List UInt16) : (zeroes l).Zero l := by
  obtain ⟨longest, current, hfold, hlongest, -⟩ := zeroes_loop l
  rw [zeroes, hfold]
  exact hlongest

/-- The segments are what is printed with zeroes in the gap. -/
lemma zeroes_gap (l : List UInt16) :
    l.take (zeroes l).start ++ (List.replicate (zeroes l).len 0 ++ l.drop ((zeroes l).start + (zeroes l).len)) = l := by
  obtain ⟨hle, hzero⟩ := zeroes_zero l
  have hgap : (l.drop (zeroes l).start).take (zeroes l).len = List.replicate (zeroes l).len 0 := by
    refine List.ext_getElem? fun j => ?_
    rw [List.getElem?_take, List.getElem?_drop, List.getElem?_replicate]
    by_cases hj : j < (zeroes l).len
    · rw [if_pos hj, if_pos hj, hzero _ (Nat.le_add_right _ _) (Nat.add_lt_add_left hj _)]
    · rw [if_neg hj, if_neg hj]
  rw [← hgap, ← List.drop_drop, List.take_append_drop, List.take_append_drop]

lemma toUInt8_inj {x y : UInt16} (hhi : (x >>> 8).toUInt8 = (y >>> 8).toUInt8) (hlo : x.toUInt8 = y.toUInt8) : x = y := by
  have hhi' := congrArg UInt8.toNat hhi
  have hlo' := congrArg UInt8.toNat hlo
  rw [UInt16.toNat_toUInt8, UInt16.toNat_toUInt8, UInt16.toNat_shiftRight, UInt16.toNat_shiftRight] at hhi'
  rw [UInt16.toNat_toUInt8, UInt16.toNat_toUInt8] at hlo'
  have hx := x.toNat_lt
  have hy := y.toNat_lt
  apply UInt16.toNat_inj.mp
  simp only [Nat.shiftRight_eq_div_pow, UInt16.toNat_ofNat, Nat.reduceMod, Nat.reducePow] at hhi' hlo' hx hy
  omega

lemma toIpv4Mapped_cases (h : toIpv4Mapped l = some o) : ∃ hi lo : UInt16, l = [0, 0, 0, 0, 0, 0xFFFF, hi, lo] ∧
    o = [(hi >>> 8).toUInt8, hi.toUInt8, (lo >>> 8).toUInt8, lo.toUInt8] := by
  unfold toIpv4Mapped at h
  split at h
  · next hi lo => exact ⟨hi, lo, rfl, (Option.some.inj h).symm⟩
  · cases h

lemma toIpv4Mapped_inj (h : toIpv4Mapped l = some o) (h' : toIpv4Mapped l' = some o) : l = l' := by
  obtain ⟨hi, lo, rfl, rfl⟩ := toIpv4Mapped_cases h
  obtain ⟨hi', lo', rfl, heq⟩ := toIpv4Mapped_cases h'
  injection heq with hhi heq
  injection heq with hhi' heq
  injection heq with hlo heq
  injection heq with hlo' heq
  rw [toUInt8_inj hhi hhi', toUInt8_inj hlo hlo']

/-- The text of an address that is not printed with an IPv4 part. -/
def segmentText (l : List UInt16) : Bytes :=
  if 1 < (zeroes l).len then
    fmtSubslice (l.take (zeroes l).start) ++ colon :: colon :: fmtSubslice (l.drop ((zeroes l).start + (zeroes l).len))
  else fmtSubslice l

def mappedText (o : List UInt8) : Bytes :=
  [colon, colon, 0x66, 0x66, 0x66, 0x66, colon] ++ [dot].intercalate (o.map fun x => decimal x.toNat)

lemma Ipv6Addr.toText_of_mapped {a : Ipv6Addr} (h : toIpv4Mapped a.val = some o) : a.toText = mappedText o := by
  rw [Ipv6Addr.toText, h]
  rfl

lemma Ipv6Addr.toText_of_not_mapped {a : Ipv6Addr} (h : toIpv4Mapped a.val = none) : a.toText = segmentText a.val := by
  rw [Ipv6Addr.toText, h]
  rfl

lemma mem_segmentText (h : c ∈ segmentText l) : c = colon ∨ IsDigit c := by
  rw [segmentText] at h
  split at h
  · rw [List.mem_append, List.mem_cons, List.mem_cons] at h
    rcases h with h | h | h | h
    · exact mem_fmtSubslice h
    · exact .inl h
    · exact .inl h
    · exact mem_fmtSubslice h
  · exact mem_fmtSubslice h

lemma dot_mem_mappedText (h : toIpv4Mapped l = some o) : dot ∈ mappedText o := by
  obtain ⟨hi, lo, -, rfl⟩ := toIpv4Mapped_cases h
  rw [mappedText, List.map_cons, List.map_cons, List.intercalate_cons_cons, List.append_assoc]
  exact List.mem_append_right _ (List.mem_append_right _ List.mem_cons_self)

lemma not_dot_mem_segmentText (l : List UInt16) : dot ∉ segmentText l := by
  intro h
  rcases mem_segmentText h with hcolon | hdigit
  · exact absurd hcolon (by decide)
  · exact isDigit_dot hdigit

lemma splitOn_segmentText (l : List UInt16) : (segmentText l).splitOn colon =
    if 1 < (zeroes l).len then
      pieces (l.take (zeroes l).start) ++ [] :: pieces (l.drop ((zeroes l).start + (zeroes l).len))
    else pieces l := by
  rw [segmentText]
  split
  · rw [List.splitOn_append_cons_self, splitOn_fmtSubslice]
    have hgap : (colon :: fmtSubslice (l.drop ((zeroes l).start + (zeroes l).len))).splitOn colon =
        [] :: pieces (l.drop ((zeroes l).start + (zeroes l).len)) := by
      rw [← splitOn_fmtSubslice]
      exact List.splitOn_append_cons_self_of_not_mem List.not_mem_nil _
    rw [hgap]
  · exact splitOn_fmtSubslice l

lemma not_nil_mem_pieces (h : l ≠ []) : [] ∉ pieces l := by
  rw [pieces, if_neg h]
  exact fun hmem => hexadecimals_ne_nil _ hmem rfl

/-- The gap is as long as it takes to make up the eight segments. -/
lemma gap_inj (hlen : l.length = l'.length) (hleft : l.take (zeroes l).start = l'.take (zeroes l').start)
    (hright : l.drop ((zeroes l).start + (zeroes l).len) = l'.drop ((zeroes l').start + (zeroes l').len)) : l = l' := by
  have hg := zeroes_gap l
  have hg' := zeroes_gap l'
  have hsize := congrArg List.length hg
  have hsize' := congrArg List.length hg'
  rw [List.length_append, List.length_append, List.length_replicate] at hsize hsize'
  rw [hleft, hright] at hsize hg
  have hgap : (zeroes l).len = (zeroes l').len := by omega
  rw [hgap] at hg
  exact hg.symm.trans hg'

lemma segmentText_inj (hne : l ≠ []) (hlen : l.length = l'.length) (h : segmentText l = segmentText l') : l = l' := by
  have hne' : l' ≠ [] := fun hnil => hne (List.length_eq_zero_iff.mp (hlen.trans (congrArg List.length hnil)))
  have hsplit := congrArg (List.splitOn colon) h
  rw [splitOn_segmentText, splitOn_segmentText] at hsplit
  split at hsplit <;> split at hsplit
  · obtain ⟨hleft, hright⟩ := pieces_inj hsplit
    exact gap_inj hlen hleft hright
  · exact absurd (hsplit ▸ List.mem_append_right _ List.mem_cons_self) (not_nil_mem_pieces hne')
  · exact absurd (hsplit ▸ List.mem_append_right _ List.mem_cons_self) (not_nil_mem_pieces hne)
  · rw [pieces, if_neg hne, pieces, if_neg hne'] at hsplit
    exact hexadecimals_inj hsplit

lemma mappedText_inj {m m' : List UInt16} (h : toIpv4Mapped m = some o) (h' : toIpv4Mapped m' = some o')
    (ht : mappedText o = mappedText o') : o = o' := by
  obtain ⟨hi, lo, -, rfl⟩ := toIpv4Mapped_cases h
  obtain ⟨hi', lo', -, rfl⟩ := toIpv4Mapped_cases h'
  exact octets_inj (List.cons_ne_nil _ _) (List.cons_ne_nil _ _) (List.append_cancel_left ht)

lemma Ipv6Addr.val_ne_nil (a : Ipv6Addr) : a.val ≠ [] := by
  intro h
  have hlen := a.property
  rw [h] at hlen
  cases hlen

theorem Ipv6Addr.toText_injective : Function.Injective Ipv6Addr.toText := by
  intro a b h
  apply Subtype.ext
  cases ha : toIpv4Mapped a.val with
  | some o =>
    rw [Ipv6Addr.toText_of_mapped ha] at h
    cases hb : toIpv4Mapped b.val with
    | some o' =>
      rw [Ipv6Addr.toText_of_mapped hb] at h
      cases mappedText_inj ha hb h
      exact toIpv4Mapped_inj ha hb
    | none =>
      rw [Ipv6Addr.toText_of_not_mapped hb] at h
      exact absurd (h ▸ dot_mem_mappedText ha) (not_dot_mem_segmentText _)
  | none =>
    rw [Ipv6Addr.toText_of_not_mapped ha] at h
    cases hb : toIpv4Mapped b.val with
    | some o' =>
      rw [Ipv6Addr.toText_of_mapped hb] at h
      exact absurd (h ▸ dot_mem_mappedText hb) (not_dot_mem_segmentText _)
    | none =>
      rw [Ipv6Addr.toText_of_not_mapped hb] at h
      exact segmentText_inj a.val_ne_nil (a.property.trans b.property.symm) h

theorem Ipv4Addr.toText_injective : Function.Injective Ipv4Addr.toText := by
  intro a b h
  have hne : ∀ x : Ipv4Addr, x.val ≠ [] := by
    intro x hnil
    have hlen := x.property
    rw [hnil] at hlen
    cases hlen
  exact Subtype.ext (octets_inj (hne a) (hne b) h)

lemma Ipv4Addr.mem_toText {a : Ipv4Addr} (h : c ∈ a.toText) : c = dot ∨ IsDigit c := mem_octets h

lemma Ipv6Addr.mem_toText {a : Ipv6Addr} (h : c ∈ a.toText) : c = colon ∨ c = dot ∨ IsDigit c := by
  cases ha : toIpv4Mapped a.val with
  | none =>
    rw [toText_of_not_mapped ha] at h
    exact (mem_segmentText h).imp_right .inr
  | some o =>
    rw [toText_of_mapped ha, mappedText, List.mem_append] at h
    rcases h with hprefix | ho
    · have hchars : ∀ x ∈ [colon, colon, 0x66, 0x66, 0x66, 0x66, colon], x = colon ∨ x = dot ∨ IsDigit x := by decide +kernel
      exact hchars _ hprefix
    · exact .inr (mem_octets ho)

lemma colon_mem_fmtSubslice {x y : UInt16} : colon ∈ fmtSubslice (x :: y :: l) := by
  rw [fmtSubslice, List.map_cons, List.map_cons, List.intercalate_cons_cons, List.append_assoc]
  exact List.mem_append_right _ List.mem_cons_self

lemma Ipv6Addr.colon_mem_toText (a : Ipv6Addr) : colon ∈ a.toText := by
  cases ha : toIpv4Mapped a.val with
  | some o =>
    rw [toText_of_mapped ha]
    exact List.mem_append_left _ List.mem_cons_self
  | none =>
    rw [toText_of_not_mapped ha, segmentText]
    split
    · exact List.mem_append_right _ List.mem_cons_self
    · obtain ⟨l, hl⟩ := a
      match l, hl with
      | x :: y :: l, _ => exact colon_mem_fmtSubslice

theorem IpAddr.toText_injective : Function.Injective IpAddr.toText := by
  have hne : ∀ (a : Ipv4Addr) (b : Ipv6Addr), a.toText ≠ b.toText := by
    intro a b h
    rcases Ipv4Addr.mem_toText (h ▸ b.colon_mem_toText) with hdot | hdigit
    · exact absurd hdot (by decide)
    · exact isDigit_colon hdigit
  intro a b h
  cases a with
  | v4 a =>
    cases b with
    | v4 b => exact congrArg IpAddr.v4 (Ipv4Addr.toText_injective h)
    | v6 b => exact absurd h (hne a b)
  | v6 a =>
    cases b with
    | v4 b => exact absurd h.symm (hne b a)
    | v6 b => exact congrArg IpAddr.v6 (Ipv6Addr.toText_injective h)

lemma IpAddr.mem_toText {a : IpAddr} (h : c ∈ a.toText) : c = colon ∨ c = dot ∨ IsDigit c := by
  cases a with
  | v4 a => exact .inr (Ipv4Addr.mem_toText h)
  | v6 a => exact Ipv6Addr.mem_toText h

lemma IpAddr.toText_ne_nil (a : IpAddr) : a.toText ≠ [] := by
  cases a with
  | v6 a => exact List.ne_nil_of_mem a.colon_mem_toText
  | v4 a =>
    obtain ⟨l, hl⟩ := a
    match l, hl with
    | x :: y :: l, _ =>
      intro h
      have hnil : [dot].intercalate ((x :: y :: l).map fun o => decimal o.toNat) = [] := h
      rw [List.map_cons, List.map_cons, List.intercalate_cons_cons, List.append_eq_nil_iff, List.append_eq_nil_iff] at hnil
      exact numeral_ne_nil hnil.1.1

/-! ## Texts with separators -/

/-- What stands before the first separator, and what stands after it. -/
lemma append_cons_inj {δ : Type} {sep : δ} {x x' y y' : List δ} (hx : sep ∉ x) (hx' : sep ∉ x')
    (h : x ++ sep :: y = x' ++ sep :: y') : x = x' ∧ y = y' := by
  induction x generalizing x' with
  | nil =>
    cases x' with
    | nil => exact ⟨rfl, List.tail_eq_of_cons_eq h⟩
    | cons b x' => exact absurd (List.head_eq_of_cons_eq h ▸ List.mem_cons_self) hx'
  | cons a x ih =>
    cases x' with
    | nil => exact absurd (List.head_eq_of_cons_eq h ▸ List.mem_cons_self) hx
    | cons b x' =>
      obtain ⟨hhead, htail⟩ := List.cons.inj h
      obtain ⟨hrest, hy⟩ := ih (fun hm => hx (List.mem_cons_of_mem _ hm)) (fun hm => hx' (List.mem_cons_of_mem _ hm)) htail
      exact ⟨by rw [hhead, hrest], hy⟩

/-- What stands before the last separator, and what stands after it. -/
lemma append_cons_inj_last {δ : Type} {sep : δ} {x x' y y' : List δ} (hy : sep ∉ y) (hy' : sep ∉ y')
    (h : x ++ sep :: y = x' ++ sep :: y') : x = x' ∧ y = y' := by
  have hrev := congrArg List.reverse h
  rw [List.reverse_append, List.reverse_append, List.reverse_cons, List.reverse_cons, List.append_assoc, List.append_assoc,
    List.singleton_append, List.singleton_append] at hrev
  obtain ⟨hlast, hfirst⟩ := append_cons_inj (mt List.mem_reverse.mp hy) (mt List.mem_reverse.mp hy') hrev
  exact ⟨List.reverse_injective hfirst, List.reverse_injective hlast⟩

end Lib
