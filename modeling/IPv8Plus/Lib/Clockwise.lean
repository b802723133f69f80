import Mathlib

/-!
# Points on a circle

A circle has finitely many points and a clockwise distance between them. Of a set of points on it, the first one at or
after a point and the last one at or before it are determined. A point whose table holds, for every power of two, the
first point of the set at that distance or more, comes at least half of the way closer to the last point before a goal
by the farthest entry that is not past the goal.
-/

namespace Lib

/-- A circle: `arc a b` is the way from `a` clockwise to `b`, and `shift a d` the point at distance `d` after `a`. -/
class Clockwise (α : Type) where
  size : ℕ
  arc : α → α → ℕ
  shift : α → ℕ → α
  arc_lt (a b : α) : arc a b < size
  eq_of_arc (a b : α) : arc a b = 0 → a = b
  arc_add (a b c : α) : arc a b + arc b c = arc a c ∨ arc a b + arc b c = arc a c + size
  arc_shift (a : α) (d : ℕ) : d < size → arc a (shift a d) = d

namespace Clockwise

variable {α : Type} [Clockwise α] {S : Set α} {a b c k n m p f : α} {d : ℕ}

/-- `m` is after `n` and not past `k`. -/
def Between (n m k : α) : Prop := 0 < arc n m ∧ arc n m ≤ arc n k

/-- The first point of `S` at or after `k`. -/
def IsFirst (S : Set α) (k n : α) : Prop := n ∈ S ∧ ∀ m ∈ S, arc k n ≤ arc k m

/-- The last point of `S` at or before `k`. -/
def IsLast (S : Set α) (k p : α) : Prop := p ∈ S ∧ ∀ m ∈ S, arc p k ≤ arc m k

@[simp] lemma arc_self : arc a a = 0 := by
  have hlt := arc_lt a a
  rcases arc_add a a a with h | h <;> omega

lemma arc_pos (h : a ≠ b) : 0 < arc a b := Nat.pos_of_ne_zero fun h0 => h (eq_of_arc a b h0)

lemma arc_back (h : a ≠ b) : arc a b + arc b a = size α := by
  have hpos := arc_pos h
  have hself : arc a a = 0 := arc_self
  rcases arc_add a b a with hadd | hadd <;> omega

lemma arc_right_inj (h : arc a b = arc a c) : b = c := by
  have hlt := arc_lt b c
  rcases arc_add a b c with hadd | hadd
  · exact eq_of_arc b c (by omega)
  · omega

/-- The way to `c` leads over every point that is not farther. -/
lemma arc_split (h : arc a b ≤ arc a c) : arc a b + arc b c = arc a c := by
  have hlt := arc_lt b c
  rcases arc_add a b c with hadd | hadd
  · exact hadd
  · omega

/-- The way from `a` leads over every point that is nearer to the end. -/
lemma arc_split' (h : arc b c ≤ arc a c) : arc a b + arc b c = arc a c := by
  have hlt := arc_lt a b
  rcases arc_add a b c with hadd | hadd
  · exact hadd
  · omega

/-- Points from distance `d` on come first after `shift n d`, and the others after a whole turn. -/
lemma arc_from (hd : d < size α) : arc (shift n d) m + d = arc n m ∨ (arc n m < d ∧ arc (shift n d) m + d = arc n m + size α) := by
  have hlt := arc_lt (shift n d) m
  have hat := arc_shift n d hd
  rcases arc_add n (shift n d) m with hadd | hadd
  · exact .inl (by omega)
  · exact .inr ⟨by omega, by omega⟩

lemma IsFirst.unique (ha : IsFirst S k a) (hb : IsFirst S k b) : a = b :=
  arc_right_inj (Nat.le_antisymm (ha.2 b hb.1) (hb.2 a ha.1))

lemma exists_isFirst (hS : S.Nonempty) (k : α) : ∃ n, IsFirst S k n := by
  obtain ⟨n, hn, hmin⟩ := (InvImage.wf (arc k) Nat.lt_wfRel.wf).has_min S hS
  exact ⟨n, hn, fun m hm => Nat.le_of_not_lt (hmin m hm)⟩

lemma exists_isLast (hS : S.Nonempty) (k : α) : ∃ p, IsLast S k p := by
  obtain ⟨p, hp, hmin⟩ := (InvImage.wf (fun m => arc m k) Nat.lt_wfRel.wf).has_min S hS
  exact ⟨p, hp, fun m hm => Nat.le_of_not_lt (hmin m hm)⟩

lemma IsFirst.self (hk : k ∈ S) : IsFirst S k k := ⟨hk, fun _ _ => arc_self.trans_le (Nat.zero_le _)⟩

/-- The first point from some distance on, or the point itself when there is none. -/
lemma IsFirst.cases_shift (hn : n ∈ S) (hd : d < size α) (h : IsFirst S (shift n d) f) :
    (f = n ∧ ∀ m ∈ S, arc n m < d) ∨ (d ≤ arc n f ∧ ∀ m ∈ S, d ≤ arc n m → arc n f ≤ arc n m) := by
  have hself : arc n n = 0 := arc_self
  have hfn := arc_from (n := n) (m := n) hd
  have hff := arc_from (n := n) (m := f) hd
  have hmin := h.2 n hn
  rcases hff with hfar | ⟨hnear, hturn⟩
  · refine .inr ⟨by omega, fun m hm hmd => ?_⟩
    have hmm := arc_from (n := n) (m := m) hd
    have hle := h.2 m hm
    omega
  · have hzero : arc n f = 0 := by omega
    refine .inl ⟨(eq_of_arc n f hzero).symm, fun m hm => Nat.lt_of_not_le fun hmd => ?_⟩
    have hmm := arc_from (n := n) (m := m) hd
    have hle := h.2 m hm
    have hlt := arc_lt n m
    omega

/-- The points between the one before it and a point of the set have this as the first at or after them. -/
lemma isFirst_iff_of_next (hp : p ∈ S) (h1 : 1 < size α) (h : IsFirst S (shift p 1) n) :
    IsFirst S k n ↔ p = n ∨ Between p k n ∨ k = n := by
  refine ⟨fun hfirst => ?_, ?_⟩
  · by_cases hpn : p = n
    · exact .inl hpn
    · have hle := hfirst.2 p hp
      have hkp : k ≠ p := by
        rintro rfl
        rw [arc_self] at hle
        exact hpn (eq_of_arc k n (by omega))
      have hback := arc_back hkp
      have hpos := arc_pos hkp.symm
      have hpn' := arc_pos hpn
      rcases arc_add p k n with hadd | hadd
      · exact .inr (.inl ⟨hpos, by omega⟩)
      · omega
  · rintro (rfl | ⟨hpos, hle⟩ | rfl)
    · rcases h.cases_shift hp h1 with ⟨-, hall⟩ | ⟨hfar, -⟩
      · refine ⟨hp, fun m hm => ?_⟩
        rw [eq_of_arc p m (by have := hall m hm; omega)]
      · rw [arc_self] at hfar
        omega
    · have hsplit := arc_split hle
      rcases h.cases_shift hp h1 with ⟨rfl, -⟩ | ⟨-, hmin⟩
      · rw [arc_self] at hle
        omega
      · refine ⟨h.1, fun m hm => ?_⟩
        by_cases hpm : p = m
        · have hkp : k ≠ p := by
            rintro rfl
            rw [arc_self] at hpos
            omega
          have hback := arc_back hkp
          have hlt := arc_lt p n
          rw [← hpm]
          omega
        · have hfar := arc_pos hpm
          have hmle := hmin m hm hfar
          have hkm := arc_split (hle.trans hmle)
          omega
    · exact .self h.1

/-- Of a way below `2 ^ (r + 1) - 1`, less than `2 ^ r - 1` is left when its top bit is taken off. -/
lemma left_lt {r j x y : ℕ} (hr : x + 2 ≤ 2 ^ (r + 1)) (hlow : 2 ^ j ≤ x) (hhigh : x < 2 ^ (j + 1)) (hleft : y + 2 ^ j ≤ x) :
    y + 2 ≤ 2 ^ r := by
  have hpos := Nat.two_pow_pos j
  rw [Nat.pow_succ] at hr hhigh
  rcases Nat.lt_trichotomy j r with hlt | rfl | hgt
  · have hpow : 2 ^ (j + 1) ≤ 2 ^ r := Nat.pow_le_pow_right (by decide) hlt
    rw [Nat.pow_succ] at hpow
    omega
  · omega
  · have hpow : 2 ^ (r + 1) ≤ 2 ^ j := Nat.pow_le_pow_right (by decide) hgt
    rw [Nat.pow_succ] at hpow
    omega

section Goal

variable (hp : IsLast S k p) (hk : k ∉ S)
include hp

/-- Seen from any point of the set, the last point before the goal is on the way to it. -/
lemma IsLast.split (hn : n ∈ S) : arc n p + arc p k = arc n k := arc_split' (hp.2 n hn)

/-- Of the points on the way to the goal it is the farthest. -/
lemma IsLast.farthest (hn : n ∈ S) (hm : m ∈ S) (h : arc n m ≤ arc n k) : arc n m ≤ arc n p := by
  have hmk := arc_split h
  have hpk := hp.split hn
  have hle := hp.2 m hm
  omega

include hk

lemma IsLast.arc_pos : 0 < arc p k := Clockwise.arc_pos fun h => hk (h ▸ hp.1)

lemma IsLast.arc_lt (hn : n ∈ S) : arc n p < arc n k := by
  have hpos := hp.arc_pos hk
  have hsplit := hp.split hn
  omega

/-- What follows the last point before the goal is the first point after it. -/
lemma IsLast.next (h1 : 1 < size α) (h : IsFirst S (shift p 1) f) : IsFirst S k f ∧ (f = p ∨ Between p k f) := by
  have hpos := hp.arc_pos hk
  have hbeyond : ∀ m ∈ S, m ≠ p → arc p k < arc p m := by
    intro m hm hne
    refine Nat.lt_of_not_le fun hle => ?_
    have hfar := hp.farthest hp.1 hm hle
    rw [arc_self] at hfar
    exact hne (eq_of_arc p m (by omega)).symm
  have hkp : arc p k + arc k p = size α := arc_back fun he => hk (he ▸ hp.1)
  rcases h.cases_shift hp.1 h1 with ⟨rfl, hall⟩ | ⟨hfar, hmin⟩
  · refine ⟨⟨hp.1, fun m hm => ?_⟩, .inl rfl⟩
    rw [eq_of_arc f m (by have := hall m hm; omega)]
  · have hfp : f ≠ p := by
      rintro rfl
      rw [arc_self] at hfar
      omega
    have hkf := hbeyond f h.1 hfp
    have hsplit := arc_split (a := p) (b := k) (c := f) hkf.le
    refine ⟨⟨h.1, fun m hm => ?_⟩, .inr ⟨hpos, hkf.le⟩⟩
    by_cases hmp : m = p
    · have hlt := Clockwise.arc_lt p f
      rw [hmp]
      omega
    · have hkm := hbeyond m hm hmp
      have hsplit' := arc_split (a := p) (b := k) (c := m) hkm.le
      have hle := hmin m hm (by omega)
      omega

/-- At any other point the goal is past what follows. -/
lemma IsLast.not_next (h1 : 1 < size α) (hn : n ∈ S) (hne : n ≠ p) (h : IsFirst S (shift n 1) f) :
    n ≠ f ∧ ¬ Between n k f := by
  have hpos := Clockwise.arc_pos hne
  have hlt := hp.arc_lt hk hn
  rcases h.cases_shift hn h1 with ⟨rfl, hall⟩ | ⟨hfar, hmin⟩
  · have := hall p hp.1
    omega
  · have hle := hmin p hp.1 hpos
    refine ⟨?_, fun hb => ?_⟩
    · rintro rfl
      rw [arc_self] at hfar
      omega
    · have := hb.2
      omega

variable {fingers : ℕ → α} (hn : n ∈ S) (hne : n ≠ p) {w : ℕ} (hw : size α = 2 ^ w)
  (hf : ∀ i < w, IsFirst S (shift n (2 ^ i)) (fingers i))
include hn hne hw hf

/-- The farthest entry that is not past the goal. -/
lemma IsLast.hop : ∃ j < w, Between n (fingers j) k ∧ (∀ i < w, j < i → ¬ Between n (fingers i) k) ∧
    2 ^ j ≤ arc n p ∧ arc n p < 2 ^ (j + 1) ∧ arc (fingers j) p + 2 ^ j ≤ arc n p := by
  have hpos := Clockwise.arc_pos hne
  have hlt := hp.arc_lt hk hn
  have hsize : arc n p < 2 ^ w := hw ▸ Clockwise.arc_lt n p
  have hlow : 2 ^ Nat.log 2 (arc n p) ≤ arc n p := Nat.pow_log_le_self 2 hpos.ne'
  have hhigh : arc n p < 2 ^ (Nat.log 2 (arc n p) + 1) := Nat.lt_pow_succ_log_self (by decide) _
  have hj : Nat.log 2 (arc n p) < w := (Nat.pow_lt_pow_iff_right (by decide)).mp (hlow.trans_lt hsize)
  have hentry : ∀ i < w, _ := fun i hi =>
    (hf i hi).cases_shift hn (hw ▸ Nat.pow_lt_pow_right (by decide) hi)
  refine ⟨_, hj, ?_, fun i hi hji hb => ?_, hlow, hhigh, ?_⟩
  · rcases hentry _ hj with ⟨-, hall⟩ | ⟨hfar, hmin⟩
    · have := hall p hp.1
      omega
    · have hle := hmin p hp.1 hlow
      exact ⟨(Nat.two_pow_pos _).trans_le hfar, hle.trans hlt.le⟩
  · have hfarther := hp.farthest hn (hf i hi).1 hb.2
    have hpow : 2 ^ (Nat.log 2 (arc n p) + 1) ≤ 2 ^ i := Nat.pow_le_pow_right (by decide) hji
    rcases hentry i hi with ⟨he, -⟩ | ⟨hfar, -⟩
    · have hb0 := hb.1
      rw [he, arc_self] at hb0
      omega
    · omega
  · rcases hentry _ hj with ⟨-, hall⟩ | ⟨hfar, hmin⟩
    · have := hall p hp.1
      omega
    · have hsplit := arc_split (hmin p hp.1 hlow)
      omega

end Goal

/-- Before the first point after `p` no point is nearer than `p`. -/
lemma IsFirst.nearest (h1 : 1 < size α) (hp : p ∈ S) (h : IsFirst S (shift p 1) f) (hne : p ≠ f) (hm : m ∈ S) (hmf : m ≠ f) :
    arc p f ≤ arc m f := by
  rcases h.cases_shift hp h1 with ⟨rfl, -⟩ | ⟨-, hmin⟩
  · exact absurd rfl hne
  · by_cases hpm : p = m
    · rw [hpm]
    · have hsplit := arc_split (hmin m hm (arc_pos hpm))
      have hback := arc_back hmf
      have hlt := arc_lt p m
      omega

/-- Every point of the set is the first one after some point of it. -/
lemma exists_before (h1 : 1 < size α) (hn : n ∈ S) : ∃ p ∈ S, IsFirst S (shift p 1) n := by
  by_cases honly : ∃ m ∈ S, m ≠ n
  · obtain ⟨p, ⟨hp, hpn⟩, hmin⟩ := exists_isLast (S := {m ∈ S | m ≠ n}) honly n
    obtain ⟨f, hf⟩ := exists_isFirst ⟨n, hn⟩ (shift p 1)
    have hpos := arc_pos hpn
    refine ⟨p, hp, ?_⟩
    rcases hf.cases_shift hp h1 with ⟨-, hall⟩ | ⟨hfar, hnext⟩
    · have := hall n hn
      omega
    · by_cases hfn : f = n
      · exact hfn ▸ hf
      · have hsplit := arc_split (hnext n hn hpos)
        have hle := hmin f ⟨hf.1, hfn⟩
        omega
  · push Not at honly
    refine ⟨n, hn, hn, fun m hm => ?_⟩
    rw [honly m hm]

/-- How many points are nearer to `k` than `n`. -/
noncomputable def rank (S : Set α) (k n : α) : ℕ := {m ∈ S | arc m k < arc n k}.ncard

section Rank

variable (hS : S.Finite)
include hS

lemma rank_lt (hm : m ∈ S) (h : arc m k < arc n k) : rank S k m < rank S k n := by
  refine Set.ncard_lt_ncard ⟨fun x hx => ⟨hx.1, hx.2.trans h⟩, fun hsub => ?_⟩ (hS.subset fun x hx => hx.1)
  exact Nat.lt_irrefl _ (hsub ⟨hm, h⟩).2

lemma rank_lt_ncard (hn : n ∈ S) : rank S k n < S.ncard :=
  Set.ncard_lt_ncard ⟨fun _ hx => hx.1, fun hsub => Nat.lt_irrefl _ (hsub hn).2⟩ hS

/-- From point to point backwards, all of the set is reached from one of its points `z`. -/
theorem backwards {P : ℕ → α → Prop} {z : α} (h1 : 1 < size α) (hz : z ∈ S) (h0 : P 0 z) (hkeep : ∀ d p, P d p → P (d + 1) p)
    (hback : ∀ d p f, p ∈ S → p ≠ f → IsFirst S (shift p 1) f → P d f → P (d + 1) p) (hn : n ∈ S) : P (S.ncard - 1) n := by
  have hall : ∀ d, ∀ p ∈ S, rank S z p ≤ d → P d p := by
    intro d
    induction d with
    | zero =>
      intro p hp hrank
      by_cases hpz : p = z
      · exact hpz ▸ h0
      · have hlt := rank_lt hS hz (k := z) (n := p) (by rw [arc_self]; exact arc_pos hpz)
        omega
    | succ d ih =>
      intro p hp hrank
      by_cases hpz : p = z
      · exact hkeep d p (ih p hp (by rw [hpz, rank]; simp))
      · obtain ⟨f, hf⟩ := exists_isFirst ⟨z, hz⟩ (shift p 1)
        have hpos := arc_pos hpz
        rcases hf.cases_shift hp h1 with ⟨-, hnone⟩ | ⟨hfar, hmin⟩
        · have := hnone z hz
          omega
        · have hsplit := arc_split (hmin z hz hpos)
          have hlt := rank_lt hS hf.1 (k := z) (n := p) (by omega)
          refine hback d p f hp ?_ hf (ih f hf.1 (by omega))
          rintro rfl
          rw [arc_self] at hfar
          omega
  have hlt := rank_lt_ncard hS (k := z) hn
  exact hall _ n hn (by omega)

end Rank

/-- No pointer leads past `p`, except from `p` itself. -/
def Spares (S : Set α) (next : α → α) (p : α) : Prop := ∀ n ∈ S, n ≠ p → Between n (next n) p

section Spares

variable {next next' : α → α}

/-- Pointers that spare all points lead to the next ones. -/
lemma isFirst_of_spares (h1 : 1 < size α) (hin : next n ∈ S) (hn : n ∈ S) (h : ∀ p ∈ S, Spares S next p) :
    IsFirst S (shift n 1) (next n) := by
  obtain ⟨f, hf⟩ := exists_isFirst ⟨n, hn⟩ (shift n 1)
  have hnext : next n = f := by
    by_cases hnf : n = f
    · -- the point is alone
      rcases hf.cases_shift hn h1 with ⟨-, hall⟩ | ⟨hfar, -⟩
      · rw [← hnf]
        exact (eq_of_arc _ _ (by have := hall _ hin; omega)).symm
      · rw [← hnf, arc_self] at hfar
        omega
    · obtain ⟨hpos, hle⟩ := h f hf.1 n hn hnf
      rcases hf.cases_shift hn h1 with ⟨rfl, -⟩ | ⟨-, hmin⟩
      · exact absurd rfl hnf
      · exact arc_right_inj (Nat.le_antisymm hle (hmin _ hin hpos))
  rw [hnext]
  exact hf

/-- Pointers that only come nearer go on sparing a point. -/
lemma Spares.mono (h : Spares S next p) (hnear : ∀ n ∈ S, next' n = next n ∨ next n = n ∨ Between n (next' n) (next n)) :
    Spares S next' p := by
  intro n hn hne
  obtain ⟨hpos, hle⟩ := h n hn hne
  rcases hnear n hn with he | he | ⟨hpos', hle'⟩
  · rw [he]
    exact ⟨hpos, hle⟩
  · rw [he, arc_self] at hpos
    cases hpos
  · exact ⟨hpos', hle'.trans hle⟩

/-- Pointers that only come nearer do not come to lead to a point that they spare. -/
lemma Spares.ne_of_nearer (h : Spares S next p) (hn : n ∈ S) (hne : next n ≠ p)
    (hnear : next' n = next n ∨ next n = n ∨ Between n (next' n) (next n)) : next' n ≠ p := by
  intro he
  by_cases hnp : n = p
  · subst hnp
    rcases hnear with he' | he' | ⟨hpos, -⟩
    · exact hne (he'.symm.trans he)
    · exact hne he'
    · rw [he, arc_self] at hpos
      cases hpos
  · obtain ⟨hpos, hle⟩ := h n hn hnp
    rcases hnear with he' | he' | ⟨-, hle'⟩
    · exact hne (he'.symm.trans he)
    · rw [he', arc_self] at hpos
      cases hpos
    · rw [he] at hle'
      exact hne (arc_right_inj (Nat.le_antisymm hle hle'))

/-- A point in front of which a pointer leads past it may take this pointer over. -/
lemma Spares.between {x : α} (h : Spares S next p) (hp : p ∈ S) (hx : x ∉ S) (hn : n ∈ S) (hnext : next n ∈ S)
    (hin : n = next n ∨ Between n x (next n)) : Between x (next n) p := by
  have hpos := arc_pos (a := x) (b := next n) fun he => hx (he ▸ hnext)
  refine ⟨hpos, ?_⟩
  by_cases hnp : n = p
  · subst hnp
    rcases hin with he | ⟨-, hle⟩
    · rw [← he]
    · have hsplit := arc_split hle
      have hback := arc_back (a := x) (b := n) fun he => hx (he ▸ hp)
      have hlt := arc_lt n (next n)
      omega
  · obtain ⟨hfar, hnear⟩ := h n hn hnp
    rcases hin with he | ⟨-, hle⟩
    · rw [← he, arc_self] at hfar
      cases hfar
    · have hsplit := arc_split hle
      have hsplit' := arc_split (hle.trans hnear)
      omega

/-- Pointers that spare `f`, and that lead to it only from the point before it, spare this point too. -/
lemma Spares.before (h1 : 1 < size α) (hp : p ∈ S) (hf : IsFirst S (shift p 1) f) (hne : p ≠ f) (h : Spares S next f)
    (hin : ∀ n ∈ S, next n ∈ S) (hnot : ∀ n ∈ S, n ≠ p → next n ≠ f) : Spares S next p := by
  intro n hn hnp
  have hmf := hf.nearest h1 hp hne (hin n hn) (hnot n hn hnp)
  by_cases hnf : n = f
  · have hstart : f ≠ next f := by
      have := hnot n hn hnp
      rw [hnf] at this
      exact this.symm
    rw [hnf] at hmf ⊢
    have hback := arc_back hstart
    have hback' := arc_back hne
    exact ⟨arc_pos hstart, by omega⟩
  · obtain ⟨hpos, hle⟩ := h n hn hnf
    have hsplit := arc_split hle
    have hsplit' := arc_split' (hf.nearest h1 hp hne hn hnf)
    exact ⟨hpos, by omega⟩

end Spares

end Clockwise

/-- The words of 64 bits, the way from `a` to `b` being `b - a`. -/
instance : Clockwise UInt64 where
  size := 2 ^ 64
  arc a b := (b - a).toNat
  shift a d := a + UInt64.ofNat d
  arc_lt a b := (b - a).toNat_lt
  eq_of_arc a b h := by
    have hb := b.toNat_lt
    have ha := a.toNat_lt
    rw [UInt64.toNat_sub] at h
    exact UInt64.toNat_inj.mp (by omega)
  arc_add a b c := by
    have ha := a.toNat_lt
    have hb := b.toNat_lt
    have hc := c.toNat_lt
    rw [UInt64.toNat_sub, UInt64.toNat_sub, UInt64.toNat_sub]
    omega
  arc_shift a d h := by
    have ha := a.toNat_lt
    rw [UInt64.toNat_sub, UInt64.toNat_add, UInt64.toNat_ofNat_of_lt' h]
    omega

end Lib
