import IPv8Plus.Lib.Run
import IPv8Plus.Lib.SlidingWindow
import IPv8Plus.Observe.Window

/-!
# The account of lost frames

What a window expects grows with its top; what it has seen grows with every frame that it counts. The two stay
consistent as long as the frames that are counted lie in the spans that are expected, from the first frame, or the last
reset, up to the top. A frame from below is counted as seen, and nothing is expected for it.
-/

namespace IPv8Plus.Observe
open Lib

/-- The counter runs so far ahead that the window starts anew. -/
def CounterWindow.Jumps (w : CounterWindow) (c : UInt64) : Prop := w.top < c ∧ jumpGuard < c - w.top

/-- The frame is counted as seen. -/
def CounterWindow.Counts (w : CounterWindow) (c : UInt64) : Prop :=
  w.top < c ∨ w.top - c < windowBits ∧ w.mask &&& (1 : BitVec 128) <<< (w.top - c).toNat = 0

instance (w : CounterWindow) (c : UInt64) : Decidable (w.Jumps c) := inferInstanceAs (Decidable (_ ∧ _))

instance (w : CounterWindow) (c : UInt64) : Decidable (w.Counts c) := inferInstanceAs (Decidable (_ ∨ _))

/-- A window with what it does not remember: the counter of the first frame or of the last reset, the lowest counter
observed, the counters counted as seen, and whether there was a reset. -/
structure Account where
  window : CounterWindow
  base : UInt64
  lowest : UInt64
  counted : Finset Nat
  jumped : Bool

namespace Account

def start (c : UInt64) : Account := ⟨.first c, c, c, {c.toNat}, false⟩

def observe (a : Account) (c : UInt64) : Account where
  window := a.window.observe c
  base := if a.window.Jumps c then c else a.base
  lowest := min a.lowest c
  counted := if a.window.Counts c then insert c.toNat a.counted else a.counted
  jumped := a.jumped || a.window.Jumps c

def step (a : Account) (c : UInt64) : Account × Unit := (a.observe c, ())

/-- The counters between the lowest one and the top that were never counted as seen. -/
def missing (a : Account) : Finset Nat := Finset.Icc a.lowest.toNat a.window.top.toNat \ a.counted

/-- No more was seen than expected, and without a reset the difference is what is missing. -/
def Sound (a : Account) : Prop :=
  a.window.seen ≤ a.window.expected ∧
    (a.jumped = false → (a.window.expected.toNat : Int) - a.window.seen.toNat = a.missing.card)

instance (a : Account) : Decidable a.Sound := inferInstanceAs (Decidable (_ ∧ _))

/-- The frame is not from below the first one. After a reset it may be from below, if it is not counted. The span must
not be all words. -/
def Regular (a : Account) (c : UInt64) : Prop :=
  if a.base ≤ c then ¬ (a.base.toNat = 0 ∧ c.toNat = 2 ^ 64 - 1) else a.jumped = true ∧ ¬ a.window.Counts c

instance (a : Account) (c : UInt64) : Decidable (a.Regular c) := inferInstanceAs (Decidable (ite _ _ _))

end Account

/-! ## What an observation does -/

section
variable {w : CounterWindow} {c : UInt64}

lemma observe_jumps (h : w.Jumps c) : w.observe c =
    { w with
      top := c
      mask := 1
      expected := satAdd w.expected 1
      seen := satAdd w.seen 1
      resets := satAdd32 w.resets 1 } := (if_pos h.1).trans (if_pos h.2)

lemma observe_above (h : w.top < c) (hjump : ¬ w.Jumps c) : w.observe c =
    { w with
      top := c
      mask := if 128 ≤ c.toNat - w.top.toNat then 1 else w.mask <<< (c.toNat - w.top.toNat) ||| 1
      expected := satAdd w.expected (c - w.top)
      seen := satAdd w.seen 1 } := by
  have hdelta : (c - w.top).toNat = c.toNat - w.top.toNat := UInt64.toNat_sub_of_le _ _ (UInt64.le_of_lt h)
  have hmask : (if windowBits ≤ c - w.top then 0 else w.mask <<< (c - w.top).toNat) ||| 1 =
      if 128 ≤ c.toNat - w.top.toNat then 1 else w.mask <<< (c.toNat - w.top.toNat) ||| 1 := by
    rw [hdelta]
    by_cases hfar : windowBits ≤ c - w.top
    · have hnat := UInt64.le_iff_toNat_le.mp hfar
      rw [hdelta] at hnat
      rw [if_pos hfar]
      exact (BitVec.zero_or).trans (if_pos hnat).symm
    · have hnat := fun h => hfar (UInt64.le_iff_toNat_le.mpr (hdelta.symm ▸ h))
      rw [if_neg hfar]
      exact (if_neg hnat).symm
  rw [← hmask]
  exact (if_pos h).trans (if_neg fun h' => hjump ⟨h, h'⟩)

lemma observe_counts (h : ¬ w.top < c) (hcounts : w.Counts c) : w.observe c =
    { w with mask := w.mask ||| (1 : BitVec 128) <<< (w.top - c).toNat, seen := satAdd w.seen 1 } := by
  obtain ⟨hnear, hbit⟩ := hcounts.resolve_left h
  exact (if_neg h).trans ((if_neg (UInt64.not_le.mpr hnear)).trans (if_neg fun hne => hne hbit))

lemma observe_not_counts (h : ¬ w.Counts c) : w.observe c = { w with dup := satAdd w.dup 1 } := by
  have habove : ¬ w.top < c := fun h' => h (.inl h')
  refine (if_neg habove).trans ?_
  by_cases hfar : windowBits ≤ w.top - c
  · exact if_pos hfar
  · refine (if_neg hfar).trans (if_pos fun hbit => ?_)
    exact h (.inr ⟨UInt64.not_le.mp hfar, hbit⟩)

end

/-! ## The account of a run -/

namespace Account

/-- What is behind the two totals: the spans of the windows before the last reset and how many frames were counted in
them, and the counters counted since. -/
structure Covers (a : Account) (spans earlier : Nat) (k : Finset Nat) : Prop where
  base_le : a.base.toNat ≤ a.window.top.toNat
  spans_le : spans ≤ a.base.toNat
  earlier_le : earlier ≤ spans
  inside : k ⊆ Finset.Icc a.base.toNat a.window.top.toNat
  mask : Represents 128 (a.window.top.toNat + 1) a.window.mask (Nat.succ '' k)
  expected_eq : a.window.expected.toNat = min (spans + (a.window.top.toNat - a.base.toNat + 1)) (2 ^ 64 - 1)
  seen_eq : a.window.seen.toNat = min (earlier + k.card) (2 ^ 64 - 1)
  fresh : a.jumped = false → spans = 0 ∧ earlier = 0 ∧ k = a.counted ∧ a.lowest = a.base ∧
    ¬ (a.base.toNat = 0 ∧ a.window.top.toNat = 2 ^ 64 - 1)

section
variable {a : Account} {c : UInt64} {spans earlier : Nat} {k : Finset Nat}

/-- A mask with the top alone. -/
lemma represents_first (c : Nat) : Represents 128 (c + 1) (1 : BitVec 128) (Nat.succ '' (({c} : Finset Nat) : Set Nat)) := by
  have hempty : Represents 128 0 (0 : BitVec 128) ∅ := represents_empty
  have h := hempty.advance le_rfl (Nat.succ_pos c)
  have hmask : (if 128 ≤ c + 1 - 0 then 1 else (0 : BitVec 128) <<< (c + 1 - 0) ||| 1) = 1 := by
    split
    · rfl
    · rw [show (0 : BitVec 128) = 0#128 from rfl, BitVec.zero_shiftLeft, BitVec.zero_or]
  rw [hmask] at h
  rw [Finset.coe_singleton, Set.image_singleton, ← insert_empty_eq]
  exact h

lemma image_insert (c : Nat) (k : Finset Nat) :
    Nat.succ '' ((insert c k : Finset Nat) : Set Nat) = insert (c + 1) (Nat.succ '' (k : Set Nat)) := by
  rw [Finset.coe_insert, Set.image_insert_eq]

lemma covers_start (c : UInt64) : (start c).Covers 0 0 {c.toNat} where
  base_le := le_rfl
  spans_le := Nat.zero_le _
  earlier_le := le_rfl
  inside := by
    rw [Finset.singleton_subset_iff, Finset.mem_Icc]
    exact ⟨le_rfl, le_rfl⟩
  mask := represents_first c.toNat
  expected_eq := by
    show 1 = min (0 + (c.toNat - c.toNat + 1)) (2 ^ 64 - 1)
    omega
  seen_eq := rfl
  fresh := by
    intro _
    refine ⟨rfl, rfl, rfl, rfl, ?_⟩
    rintro ⟨hzero, hall⟩
    change c.toNat = 0 at hzero
    change c.toNat = _ at hall
    omega

/-- There are no more counters than the span is long. -/
lemma Covers.card_le (h : a.Covers spans earlier k) : k.card ≤ a.window.top.toNat - a.base.toNat + 1 := by
  have hle := Finset.card_le_card h.inside
  rw [Nat.card_Icc] at hle
  have := h.base_le
  omega

/-- A reset closes the span. -/
lemma Covers.jumps (h : a.Covers spans earlier k) (hjump : a.window.Jumps c) :
    (a.observe c).Covers (spans + (a.window.top.toNat - a.base.toNat + 1)) (earlier + k.card) {c.toNat} := by
  have habove := UInt64.lt_iff_toNat_lt.mp hjump.1
  have hword := c.toNat_lt
  have hcard := h.card_le
  have hbase : (a.observe c).base = c := if_pos hjump
  have hjumped : (a.observe c).jumped = true := by
    show (a.jumped || decide _) = _
    rw [decide_eq_true hjump, Bool.or_true]
  have hwindow : (a.observe c).window = _ := observe_jumps hjump
  have hspans := h.spans_le
  have hearlier := h.earlier_le
  have hle := h.base_le
  constructor
  · rw [hbase, hwindow]
  · rw [hbase]
    omega
  · omega
  · rw [hbase, hwindow, Finset.singleton_subset_iff, Finset.mem_Icc]
    exact ⟨le_rfl, le_rfl⟩
  · rw [hwindow]
    exact represents_first c.toNat
  · rw [hbase, hwindow, Nat.sub_self]
    show (satAdd a.window.expected 1).toNat = min (spans + (a.window.top.toNat - a.base.toNat + 1) + 1) (2 ^ 64 - 1)
    rw [toNat_satAdd, h.expected_eq, UInt64.toNat_one]
    omega
  · rw [hwindow, Finset.card_singleton]
    show (satAdd a.window.seen 1).toNat = _
    rw [toNat_satAdd, h.seen_eq, UInt64.toNat_one]
    omega
  · intro hfresh
    rw [hjumped] at hfresh
    cases hfresh

/-- Without a jump the base stays, and so does the flag. -/
lemma base_of_not_jumps (h : ¬ a.window.Jumps c) : (a.observe c).base = a.base := if_neg h

lemma jumped_of_not_jumps (h : ¬ a.window.Jumps c) : (a.observe c).jumped = a.jumped := by
  show (a.jumped || decide _) = _
  rw [decide_eq_false h, Bool.or_false]

lemma lowest_of_le (hle : a.base ≤ c) (h : a.lowest = a.base) : (a.observe c).lowest = a.base := by
  show min a.lowest c = _
  rw [h]
  exact if_pos hle

/-- A frame above the top makes the span longer. -/
lemma Covers.above (h : a.Covers spans earlier k) (habove : a.window.top < c) (hjump : ¬ a.window.Jumps c)
    (hregular : a.Regular c) : (a.observe c).Covers spans earlier (insert c.toNat k) := by
  have hlt := UInt64.lt_iff_toNat_lt.mp habove
  have hle := h.base_le
  have hfits : ¬ (a.base.toNat = 0 ∧ c.toNat = 2 ^ 64 - 1) := by
    unfold Regular at hregular
    rwa [if_pos (UInt64.le_iff_toNat_le.mpr (by omega))] at hregular
  have hnew : c.toNat ∉ k := by
    intro hmem
    have := (Finset.mem_Icc.mp (h.inside hmem)).2
    omega
  have hbase := base_of_not_jumps hjump
  have hjumped := jumped_of_not_jumps hjump
  have hcounted : (a.observe c).counted = insert c.toNat a.counted := if_pos (.inl habove)
  have hwindow : (a.observe c).window = _ := observe_above habove hjump
  constructor
  · rw [hbase, hwindow]
    exact hle.trans hlt.le
  · rw [hbase]
    exact h.spans_le
  · exact h.earlier_le
  · rw [hbase, hwindow]
    intro n hn
    rcases Finset.mem_insert.mp hn with rfl | hn
    · exact Finset.mem_Icc.mpr ⟨hle.trans hlt.le, le_rfl⟩
    · obtain ⟨hlow, hhigh⟩ := Finset.mem_Icc.mp (h.inside hn)
      exact Finset.mem_Icc.mpr ⟨hlow, hhigh.trans hlt.le⟩
  · rw [hwindow, image_insert]
    have hmask := h.mask.advance le_rfl (Nat.succ_lt_succ hlt)
    rw [Nat.succ_sub_succ] at hmask
    exact hmask
  · rw [hbase, hwindow]
    show (satAdd a.window.expected (c - a.window.top)).toNat = min (spans + (c.toNat - a.base.toNat + 1)) _
    rw [toNat_satAdd, h.expected_eq, UInt64.toNat_sub_of_le _ _ (UInt64.le_of_lt habove)]
    omega
  · rw [hwindow, Finset.card_insert_of_notMem hnew]
    show (satAdd a.window.seen 1).toNat = _
    rw [toNat_satAdd, h.seen_eq, UInt64.toNat_one]
    omega
  · intro hfresh
    rw [hjumped] at hfresh
    obtain ⟨hspans, hearlier, hk, hlow, -⟩ := h.fresh hfresh
    rw [hbase, hwindow, hcounted, hk]
    exact ⟨hspans, hearlier, rfl, lowest_of_le (UInt64.le_iff_toNat_le.mpr (by omega)) hlow, hfits⟩

/-- A late frame that is counted is new, and inside the span. -/
lemma Covers.counts (h : a.Covers spans earlier k) (hlate : ¬ a.window.top < c) (hcounts : a.window.Counts c)
    (hregular : a.Regular c) : (a.observe c).Covers spans earlier (insert c.toNat k) := by
  have hle : c.toNat ≤ a.window.top.toNat := UInt64.le_iff_toNat_le.mp (UInt64.not_lt.mp hlate)
  have hlow : a.base ≤ c := by
    by_contra hbelow
    unfold Regular at hregular
    rw [if_neg hbelow] at hregular
    exact hregular.2 hcounts
  have hback : (a.window.top - c).toNat = a.window.top.toNat - c.toNat := UInt64.toNat_sub_of_le _ _ (UInt64.not_lt.mp hlate)
  obtain ⟨hnear, hbit⟩ := hcounts.resolve_left hlate
  have hnear : a.window.top.toNat - c.toNat < 128 := hback ▸ UInt64.lt_iff_toNat_lt.mp hnear
  have hnew : c.toNat ∉ k := by
    intro hmem
    have hset := (h.mask.bit _ hnear).mpr ⟨by omega, c.toNat, hmem, by omega⟩
    rw [← hback] at hset
    exact (and_bit_ne_zero (by rw [hback]; exact hnear)).mpr hset hbit
  have hjump : ¬ a.window.Jumps c := fun h => hlate h.1
  have hbase := base_of_not_jumps hjump
  have hjumped := jumped_of_not_jumps hjump
  have hcounted : (a.observe c).counted = insert c.toNat a.counted := if_pos hcounts
  have hwindow : (a.observe c).window = _ := observe_counts hlate hcounts
  constructor
  · rw [hbase, hwindow]
    exact h.base_le
  · rw [hbase]
    exact h.spans_le
  · exact h.earlier_le
  · rw [hbase, hwindow]
    intro n hn
    rcases Finset.mem_insert.mp hn with rfl | hn
    · exact Finset.mem_Icc.mpr ⟨UInt64.le_iff_toNat_le.mp hlow, hle⟩
    · exact h.inside hn
  · rw [hwindow, image_insert]
    have hmark := h.mask.mark le_rfl (Nat.succ_pos c.toNat) (Nat.succ_le_succ hle) (by rw [Nat.succ_sub_succ]; exact hnear)
    rw [Nat.succ_sub_succ, ← hback] at hmark
    exact hmark
  · rw [hbase, hwindow]
    exact h.expected_eq
  · rw [hwindow, Finset.card_insert_of_notMem hnew]
    show (satAdd a.window.seen 1).toNat = _
    rw [toNat_satAdd, h.seen_eq, UInt64.toNat_one]
    omega
  · intro hfresh
    rw [hjumped] at hfresh
    obtain ⟨hspans, hearlier, hk, hlowest, hfits⟩ := h.fresh hfresh
    rw [hbase, hwindow, hcounted, hk]
    exact ⟨hspans, hearlier, rfl, lowest_of_le hlow hlowest, hfits⟩

/-- A frame that is not counted moves neither total. -/
lemma Covers.dup (h : a.Covers spans earlier k) (hcounts : ¬ a.window.Counts c) (hregular : a.Regular c) :
    (a.observe c).Covers spans earlier k := by
  have hjump : ¬ a.window.Jumps c := fun h => hcounts (.inl h.1)
  have hbase := base_of_not_jumps hjump
  have hjumped := jumped_of_not_jumps hjump
  have hcounted : (a.observe c).counted = a.counted := if_neg hcounts
  have hwindow : (a.observe c).window = _ := observe_not_counts hcounts
  constructor
  · rw [hbase, hwindow]
    exact h.base_le
  · rw [hbase]
    exact h.spans_le
  · exact h.earlier_le
  · rw [hbase, hwindow]
    exact h.inside
  · rw [hwindow]
    exact h.mask
  · rw [hbase, hwindow]
    exact h.expected_eq
  · rw [hwindow]
    exact h.seen_eq
  · intro hfresh
    rw [hjumped] at hfresh
    obtain ⟨hspans, hearlier, hk, hlow, hfits⟩ := h.fresh hfresh
    rw [hbase, hwindow, hcounted]
    refine ⟨hspans, hearlier, hk, lowest_of_le ?_ hlow, hfits⟩
    by_contra hbelow
    unfold Regular at hregular
    rw [if_neg hbelow, hfresh] at hregular
    exact absurd hregular.1 (by decide)

/-- Before any reset the totals are the span and the number of counters in it. -/
lemma Covers.totals (h : a.Covers spans earlier k) (hfresh : a.jumped = false) :
    a.window.expected.toNat = a.window.top.toNat - a.base.toNat + 1 ∧ a.window.seen.toNat = k.card := by
  have hword := a.window.top.toNat_lt
  have hle := h.base_le
  have hcard := h.card_le
  obtain ⟨rfl, rfl, -, -, hfits⟩ := h.fresh hfresh
  rw [h.expected_eq, h.seen_eq]
  omega

lemma Covers.sound (h : a.Covers spans earlier k) : a.Sound := by
  have hcard := h.card_le
  constructor
  · have hearlier := h.earlier_le
    rw [UInt64.le_iff_toNat_le, h.expected_eq, h.seen_eq]
    omega
  · intro hfresh
    obtain ⟨hexpected, hseen⟩ := h.totals hfresh
    obtain ⟨-, -, hk, hlow, -⟩ := h.fresh hfresh
    have hle := h.base_le
    have hmissing : a.missing.card = a.window.top.toNat + 1 - a.base.toNat - k.card := by
      unfold missing
      rw [hlow, ← hk, Finset.card_sdiff_of_subset h.inside, Nat.card_Icc]
    rw [hexpected, hseen, hmissing]
    omega

/-- A regular frame keeps the account, whatever it is. -/
lemma Covers.step (h : a.Covers spans earlier k) (hregular : a.Regular c) :
    ∃ spans earlier k, (a.observe c).Covers spans earlier k := by
  by_cases habove : a.window.top < c
  · by_cases hjump : a.window.Jumps c
    · exact ⟨_, _, _, h.jumps hjump⟩
    · exact ⟨_, _, _, h.above habove hjump hregular⟩
  · by_cases hcounts : a.window.Counts c
    · exact ⟨_, _, _, h.counts habove hcounts hregular⟩
    · exact ⟨_, _, _, h.dup hcounts hregular⟩

/-- Before any reset a frame from below the first one is what makes the account wrong. -/
lemma Covers.unsound (h : a.Covers spans earlier k) (hfresh : a.jumped = false) (hlate : c < a.base) :
    ¬ (a.observe c).Sound := by
  rintro ⟨-, hmissing⟩
  obtain ⟨hexpected, hseen⟩ := h.totals hfresh
  obtain ⟨-, -, hk, hlow, -⟩ := h.fresh hfresh
  have hlt := UInt64.lt_iff_toNat_lt.mp hlate
  have hle := h.base_le
  have hcard := h.card_le
  have habove : ¬ a.window.top < c := by
    rw [UInt64.not_lt, UInt64.le_iff_toNat_le]
    exact hlt.le.trans hle
  have hjump : ¬ a.window.Jumps c := fun h => habove h.1
  have hjumped : (a.observe c).jumped = false := by
    show (a.jumped || decide _) = _
    rw [decide_eq_false hjump, hfresh, Bool.or_false]
  have hlowest : (a.observe c).lowest = c := by
    show min a.lowest c = _
    rw [hlow]
    exact if_neg (UInt64.not_le.mpr hlate)
  have hinside : k ⊆ Finset.Icc c.toNat a.window.top.toNat := by
    intro n hn
    obtain ⟨hlow, hhigh⟩ := Finset.mem_Icc.mp (h.inside hn)
    exact Finset.mem_Icc.mpr ⟨hlt.le.trans hlow, hhigh⟩
  have hmissing := hmissing hjumped
  unfold missing at hmissing
  by_cases hcounts : a.window.Counts c
  · have hwindow : (a.observe c).window = _ := observe_counts habove hcounts
    have hcounted : (a.observe c).counted = insert c.toNat a.counted := if_pos hcounts
    have hnear := UInt64.lt_iff_toNat_lt.mp (hcounts.resolve_left habove).1
    rw [UInt64.toNat_sub_of_le _ _ (UInt64.not_lt.mp habove)] at hnear
    change a.window.top.toNat - c.toNat < 128 at hnear
    have hnew : c.toNat ∉ k := by
      intro hmem
      exact absurd (Finset.mem_Icc.mp (h.inside hmem)).1 (Nat.not_le.mpr hlt)
    have hinside : insert c.toNat k ⊆ Finset.Icc c.toNat a.window.top.toNat :=
      Finset.insert_subset (Finset.mem_Icc.mpr ⟨le_rfl, hlt.le.trans hle⟩) hinside
    -- so close to the top the total of the frames seen does not saturate
    have hfew : k.card ≤ 128 := by omega
    have hnext : (satAdd a.window.seen 1).toNat = k.card + 1 := by
      rw [toNat_satAdd, hseen, UInt64.toNat_one]
      exact Nat.min_eq_left (by omega)
    rw [hlowest, hcounted, hwindow, ← hk] at hmissing
    change (a.window.expected.toNat : Int) - (satAdd a.window.seen 1).toNat =
      (Finset.Icc c.toNat a.window.top.toNat \ insert c.toNat k).card at hmissing
    rw [Finset.card_sdiff_of_subset hinside, Nat.card_Icc, Finset.card_insert_of_notMem hnew, hexpected, hnext] at hmissing
    omega
  · have hwindow : (a.observe c).window = _ := observe_not_counts hcounts
    have hcounted : (a.observe c).counted = a.counted := if_neg hcounts
    rw [hlowest, hcounted, hwindow, ← hk] at hmissing
    change (a.window.expected.toNat : Int) - a.window.seen.toNat =
      (Finset.Icc c.toNat a.window.top.toNat \ k).card at hmissing
    rw [Finset.card_sdiff_of_subset hinside, Nat.card_Icc, hexpected, hseen] at hmissing
    omega

/-- The account of a run of regular frames. -/
lemma covers_run {c : UInt64} {cs : List UInt64} (h : Along step Regular (start c) cs) :
    ∃ spans earlier k, (run step (start c) cs).1.Covers spans earlier k := by
  refine invariant_run (I := fun a => ∃ spans earlier k, a.Covers spans earlier k) ?_ ⟨_, _, _, covers_start c⟩ h
  rintro a c ⟨spans, earlier, k, hcovers⟩ hregular
  exact hcovers.step hregular

end

/-- In a run of regular frames the account is sound in every state. -/
theorem sound_of_regular (c : UInt64) (cs : List UInt64) (h : Along step Regular (start c) cs) :
    ∀ pre, pre <+: cs → (run step (start c) pre).1.Sound := by
  rintro pre ⟨rest, rfl⟩
  obtain ⟨spans, earlier, k, hcovers⟩ := covers_run (along_append.mp h).1
  exact hcovers.sound

/-- A gap, a frame that fills it, a repetition, and a reset. -/
theorem sound_of_regular_sample : Along step Regular (start 10) [13, 11, 11, 5000] ∧
    ∀ pre, pre <+: [13, 11, 11, 5000] → (run step (start 10) pre).1.Sound :=
  ⟨by decide +kernel, sound_of_regular 10 [13, 11, 11, 5000] (by decide +kernel)⟩

/-- One frame overtakes the first one of its key, and more is seen than expected. -/
theorem seen_above_expected : (run step (start 10) [5]).1.window.expected = 1 ∧ (run step (start 10) [5]).1.window.seen = 2 ∧
    ¬ (run step (start 10) [5]).1.Sound := by
  decide +kernel

/-- In a run without a reset, all of whose frames but the last are regular, a last frame from below makes the account
wrong. -/
theorem unsound_of_late (c : UInt64) (cs : List UInt64) (h : Along step Regular (start c) cs)
    (hfresh : (run step (start c) cs).1.jumped = false) (late : UInt64) (hlate : late < (run step (start c) cs).1.base) :
    ¬ ((run step (start c) cs).1.observe late).Sound := by
  obtain ⟨spans, earlier, k, hcovers⟩ := covers_run h
  exact hcovers.unsound hfresh hlate

end Account

end IPv8Plus.Observe
