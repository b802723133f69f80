import IPv8Plus.Lib.BigEndian

/-!
# Internet packets

The octets and words of a packet and its version; the fragment fields of both versions; the extension headers of an IPv6
packet, as a relation between two places of the packet and as the walk that finds the second. Which fragment headers end
the chain is a parameter, as walks differ in it.
-/

namespace Lib

variable (p : Bytes) (ends : UInt16 → Bool)

def octet (i : Nat) : UInt8 := p.getD i 0

def word (i : Nat) : UInt16 := ofBe16 [octet p i, octet p (i + 1)]

def IsV4 : Prop := octet p 0 >>> 4 = 4

def IsV6 : Prop := octet p 0 >>> 4 = 6

instance : Decidable (IsV4 p) := inferInstanceAs (Decidable (_ = _))

instance : Decidable (IsV6 p) := inferInstanceAs (Decidable (_ = _))

lemma IsV4.not_isV6 {p : Bytes} (h : IsV4 p) : ¬ IsV6 p := by
  intro h6
  rw [IsV4, show octet p 0 >>> 4 = 6 from h6] at h
  revert h
  decide

/-- The bytes of the header of an IPv4 packet, by its length field. -/
def headerSize : Nat := (octet p 0 &&& 0x0F).toNat * 4

/-- An IPv4 packet that holds the header it announces. -/
structure HeaderV4 : Prop where
  fixed : 20 ≤ p.length
  least : 20 ≤ headerSize p
  fits : headerSize p ≤ p.length

lemma headerV4_def : HeaderV4 p ↔ 20 ≤ p.length ∧ 20 ≤ headerSize p ∧ headerSize p ≤ p.length :=
  ⟨fun h => ⟨h.fixed, h.least, h.fits⟩, fun h => ⟨h.1, h.2.1, h.2.2⟩⟩

instance : Decidable (HeaderV4 p) := decidable_of_iff _ (headerV4_def p).symm

/-! ## The chain of extension headers -/

/-- The bytes of an extension header of a kind at an offset; a kind that is no extension header has none. -/
def extSize (kind : UInt8) (off : Nat) : Option Nat :=
  if kind = 0 ∨ kind = 43 ∨ kind = 60 then some (((octet p (off + 1)).toNat + 1) * 8)
  else if kind = 44 then some 8
  else if kind = 51 then some (((octet p (off + 1)).toNat + 2) * 4)
  else none

/-- From one place of the chain to another, a place being the kind of a header and its offset: how many headers lie between
them, and whether the last of these is a fragment header that ends the chain. -/
inductive Headers : UInt8 → Nat → Nat → UInt8 → Nat → Bool → Prop
  | here (kind : UInt8) (off : Nat) : Headers kind off 0 kind off false
  | last {kind : UInt8} {off size : Nat} (hsize : extSize p kind off = some size) (hfits : off + size ≤ p.length)
      (hkind : kind = 44) (hends : ends (word p (off + 2)) = true) : Headers kind off 1 (octet p off) (off + size) true
  | more {kind kind' : UInt8} {off off' size n : Nat} {closed : Bool} (hsize : extSize p kind off = some size)
      (hfits : off + size ≤ p.length) (hgoes : ¬ (kind = 44 ∧ ends (word p (off + 2)) = true))
      (hrest : Headers (octet p off) (off + size) n kind' off' closed) : Headers kind off (n + 1) kind' off' closed

/-- The end of the chain, looked for along so many headers; nothing when a header does not fit in the packet. -/
def walk : Nat → UInt8 → Nat → Option (UInt8 × Nat)
  | 0, kind, off => some (kind, off)
  | hops + 1, kind, off =>
    match extSize p kind off with
    | none => some (kind, off)
    | some size =>
      if p.length < off + size then none
      else if kind = 44 ∧ ends (word p (off + 2)) = true then some (octet p off, off + size)
      else walk hops (octet p off) (off + size)

variable {p ends} {q : Bytes} {ends' : UInt16 → Bool} {kind kind' k k' : UInt8} {off off' o o' size n m hops : Nat} {closed closed' : Bool}

lemma extSize_upper (h : kind = 6 ∨ kind = 17) : extSize p kind off = none := by
  rcases h with rfl | rfl <;> rfl

lemma eight_le_extSize (h : extSize p kind off = some size) : 8 ≤ size := by
  rw [extSize] at h
  split_ifs at h <;> cases h <;> omega

lemma walk_of_none (h : extSize p kind off = none) : walk p ends hops kind off = some (kind, off) := by
  cases hops with
  | zero => rfl
  | succ hops => rw [walk, h]

lemma walk_short (h : extSize p kind off = some size) (hshort : p.length < off + size) : walk p ends (hops + 1) kind off = none := by
  rw [walk, h]
  exact if_pos hshort

lemma walk_last (h : extSize p kind off = some size) (hfits : off + size ≤ p.length) (hkind : kind = 44)
    (hends : ends (word p (off + 2)) = true) : walk p ends (hops + 1) kind off = some (octet p off, off + size) := by
  rw [walk, h]
  dsimp only
  rw [if_neg (Nat.not_lt.mpr hfits), if_pos ⟨hkind, hends⟩]

lemma walk_more (h : extSize p kind off = some size) (hfits : off + size ≤ p.length)
    (hgoes : ¬ (kind = 44 ∧ ends (word p (off + 2)) = true)) :
    walk p ends (hops + 1) kind off = walk p ends hops (octet p off) (off + size) := by
  rw [walk, h]
  dsimp only
  rw [if_neg (Nat.not_lt.mpr hfits), if_neg hgoes]

/-- A walk that is long enough comes to the end of the chain. -/
lemma Headers.walk_eq (h : Headers p ends kind off n k o closed) (hstop : closed = true ∨ extSize p k o = none) (hn : n ≤ hops) :
    walk p ends hops kind off = some (k, o) := by
  induction h generalizing hops with
  | here kind off => exact walk_of_none (hstop.resolve_left (by decide))
  | last hsize hfits hkind hends =>
    obtain ⟨hops, rfl⟩ := Nat.exists_eq_add_of_le' hn
    exact walk_last hsize hfits hkind hends
  | more hsize hfits hgoes _ ih =>
    cases hops with
    | zero => exact absurd hn (Nat.not_succ_le_zero _)
    | succ hops =>
      rw [walk_more hsize hfits hgoes]
      exact ih hstop (Nat.le_of_succ_le_succ hn)

/-- What a walk comes to lies behind no more headers than it may pass, and it has stopped for a reason. -/
lemma exists_headers_of_walk (h : walk p ends hops kind off = some (k, o)) :
    ∃ n closed, Headers p ends kind off n k o closed ∧ n ≤ hops ∧ (closed = true ∨ n = hops ∨ extSize p k o = none) := by
  induction hops generalizing kind off with
  | zero =>
    cases h
    exact ⟨0, false, .here k o, le_rfl, .inr (.inl rfl)⟩
  | succ hops ih =>
    cases hsize : extSize p kind off with
    | none =>
      rw [walk_of_none hsize] at h
      cases h
      exact ⟨0, false, .here k o, Nat.zero_le _, .inr (.inr hsize)⟩
    | some size =>
      by_cases hshort : p.length < off + size
      · rw [walk_short hsize hshort] at h
        cases h
      · have hfits := Nat.not_lt.mp hshort
        by_cases hlast : kind = 44 ∧ ends (word p (off + 2)) = true
        · rw [walk_last hsize hfits hlast.1 hlast.2] at h
          cases h
          exact ⟨1, true, .last hsize hfits hlast.1 hlast.2, Nat.le_add_left 1 hops, .inl rfl⟩
        · rw [walk_more hsize hfits hlast] at h
          obtain ⟨n, closed, hrest, hn, hstop⟩ := ih h
          refine ⟨n + 1, closed, .more hsize hfits hlast hrest, Nat.succ_le_succ hn, ?_⟩
          exact hstop.imp_right (Or.imp_left (congrArg (· + 1)))

/-- The walk finds what stands at the end of a chain of at most so many headers. -/
lemma walk_eq_some_iff (hupper : extSize p k o = none) :
    walk p ends hops kind off = some (k, o) ↔ ∃ n closed, Headers p ends kind off n k o closed ∧ n ≤ hops := by
  constructor
  · intro h
    obtain ⟨n, closed, hheaders, hn, -⟩ := exists_headers_of_walk h
    exact ⟨n, closed, hheaders, hn⟩
  · rintro ⟨n, closed, hheaders, hn⟩
    exact hheaders.walk_eq (.inr hupper) hn

/-- A chain that goes on under one reading of fragment headers goes on under a weaker one. -/
lemma Headers.weaken (h : Headers p ends kind off n k o false) (hw : ∀ w, ends' w = true → ends w = true) :
    Headers p ends' kind off n k o false := by
  generalize hclosed : false = closed at h
  induction h with
  | here kind off => exact .here kind off
  | last => cases hclosed
  | more hsize hfits hgoes _ ih => exact .more hsize hfits (fun hends => hgoes ⟨hends.1, hw _ hends.2⟩) (ih hclosed)

lemma Headers.le (h : Headers p ends kind off n k o closed) : off ≤ o := by
  induction h with
  | here => exact le_rfl
  | last => exact Nat.le_add_right _ _
  | more _ _ _ _ ih => exact (Nat.le_add_right _ _).trans ih

lemma extSize_congr (h : octet q (off + 1) = octet p (off + 1)) : extSize q kind off = extSize p kind off := by
  rw [extSize, extSize, h]

lemma word_congr (h : octet q off = octet p off) (h' : octet q (off + 1) = octet p (off + 1)) : word q off = word p off := by
  rw [word, word, h, h']

/-- A chain depends on its own bytes only. -/
lemma Headers.congr (h : Headers p ends kind off n k o closed) (hlen : q.length = p.length)
    (hsame : ∀ i, off ≤ i → i < o → octet q i = octet p i) : Headers q ends kind off n k o closed := by
  induction h with
  | here kind off => exact .here kind off
  | @last kind off size hsize hfits hkind hends =>
    have h8 := eight_le_extSize hsize
    rw [← hlen] at hfits
    rw [← hsame off le_rfl (by omega)]
    refine .last ((extSize_congr (hsame _ (by omega) (by omega))).trans hsize) hfits hkind ?_
    rwa [word_congr (hsame _ (by omega) (by omega)) (hsame _ (by omega) (by omega))]
  | @more kind kind' off off' size n closed hsize hfits hgoes hrest ih =>
    have h8 := eight_le_extSize hsize
    have hle := hrest.le
    rw [← hlen] at hfits
    refine .more ((extSize_congr (hsame _ (by omega) (by omega))).trans hsize) hfits ?_ ?_
    · rwa [word_congr (hsame _ (by omega) (by omega)) (hsame _ (by omega) (by omega))]
    · rw [hsame off le_rfl (by omega)]
      exact ih fun i hi hi' => hsame i (by omega) hi'

/-- A chain ends in one way. -/
lemma Headers.closed_unique (h : Headers p ends kind off n k o closed) (h' : Headers p ends kind off m k' o' closed')
    (hstop : closed = true ∨ extSize p k o = none) (hstop' : closed' = true ∨ extSize p k' o' = none) : closed = closed' := by
  induction h generalizing m with
  | here kind off =>
    cases h' with
    | here => rfl
    | last hsize => cases (hstop.resolve_left (by decide)).symm.trans hsize
    | more hsize => cases (hstop.resolve_left (by decide)).symm.trans hsize
  | last hsize hfits hkind hends =>
    cases h' with
    | here => cases hsize.symm.trans (hstop'.resolve_left (by decide))
    | last => rfl
    | more _ _ hgoes => exact absurd ⟨hkind, hends⟩ hgoes
  | more hsize hfits hgoes _ ih =>
    cases h' with
    | here => cases hsize.symm.trans (hstop'.resolve_left (by decide))
    | last _ _ hkind hends => exact absurd ⟨hkind, hends⟩ hgoes
    | more hsize' _ _ hrest' =>
      cases hsize.symm.trans hsize'
      exact ih hrest' hstop

/-! ## Fragments -/

/-- The offset of a fragment header is not zero. -/
def offsetSet (w : UInt16) : Bool := w >>> 3 != 0

/-- A fragment header of a packet that is not whole: there is an offset, or more fragments follow. -/
def splits (w : UInt16) : Bool := w >>> 3 != 0 || w &&& 1 != 0

variable (p)

/-- A fragment other than the first. -/
def NonFirst : Prop :=
  (IsV4 p ∧ word p 6 &&& 0x1FFF ≠ 0) ∨ (IsV6 p ∧ ∃ n kind off, Headers p offsetSet (octet p 6) 40 n kind off true)

/-- A fragment. -/
def Fragment : Prop :=
  (IsV4 p ∧ word p 6 &&& 0x3FFF ≠ 0) ∨ (IsV6 p ∧ ∃ n kind off, Headers p splits (octet p 6) 40 n kind off true)

variable {p}

/-- Where one reading of fragment headers ends the chain, a stronger one has ended it there or before. -/
lemma Headers.strengthen (h : Headers p ends kind off n k o true) (hw : ∀ w, ends w = true → ends' w = true) :
    ∃ n' k' o', Headers p ends' kind off n' k' o' true := by
  generalize hclosed : true = closed at h
  induction h with
  | here => cases hclosed
  | last hsize hfits hkind hends => exact ⟨_, _, _, .last hsize hfits hkind (hw _ hends)⟩
  | @more kind _ off _ _ _ _ hsize hfits _ _ ih =>
    subst hclosed
    by_cases hends : kind = 44 ∧ ends' (word p (off + 2)) = true
    · exact ⟨_, _, _, .last hsize hfits hends.1 hends.2⟩
    · obtain ⟨n', k', o', hrest⟩ := ih rfl
      exact ⟨_, _, _, .more hsize hfits hends hrest⟩

lemma splits_of_offsetSet (w : UInt16) (h : offsetSet w = true) : splits w = true := Bool.or_eq_true_iff.mpr (.inl h)

lemma NonFirst.fragment (h : NonFirst p) : Fragment p := by
  rcases h with ⟨hver, hoffset⟩ | ⟨hver, n, kind, off, hchain⟩
  · refine .inl ⟨hver, fun hzero => hoffset ?_⟩
    calc word p 6 &&& 0x1FFF = (word p 6 &&& 0x3FFF) &&& 0x1FFF := (UInt16.and_assoc (word p 6) 0x3FFF 0x1FFF).symm
      _ = 0 := by rw [hzero]; rfl
  · exact .inr ⟨hver, hchain.strengthen splits_of_offsetSet⟩

end Lib
