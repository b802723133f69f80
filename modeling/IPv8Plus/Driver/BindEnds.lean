import IPv8Plus.Driver.Registry
import IPv8Plus.Lib.Moves

/-!
# The ends of binds

Every bind that gets to the open is ended once, by `NdisCompleteBindAdapterEx`. Where the open is pending, the driver keeps the
bind's context after NDIS has answered, so the open can be complete before. `ends` says what the binds are ended with.
-/

namespace IPv8Plus.Driver.Registry
open Lib

variable {s : Registry} {h n m k : Nat} {st st' : Stage} {c : OpenContext} {status : NdisStatus} {b : Option Nat}

/-- NDIS waits for the end of the bind, and it is not told of a failure. -/
def underWay (s : Registry) (n : Nat) : Prop := ∃ h st, s.owner h = some (n, st) ∧ st.unfinished

/-- The binds that are ended, and those that are about to be told of a failure. -/
def ended (s : Registry) : List Nat := s.completed.map Completion.serial ++ s.failing.map Prod.fst

/-- Every bind that got to the open is over once or under way. -/
structure Ended (s : Registry) : Prop where
  once : s.ended.Nodup
  apart : ∀ n ∈ s.ended, ¬ s.underWay n
  all : ∀ n, n < s.opened.length ↔ n ∈ s.ended ∨ s.underWay n

/-- What a step does to the binds: no more are over, one more is under way, one more is over at once, or one that was under
way is over now. -/
inductive Ends (s s' : Registry) : Prop where
  | same (hover : s'.ended.Perm s.ended) (hopened : s'.opened.length = s.opened.length) (hway : ∀ n, s'.underWay n ↔ s.underWay n)
  | opens (hover : s'.ended.Perm s.ended) (hopened : s'.opened.length = s.opened.length + 1)
      (hway : ∀ n, s'.underWay n ↔ s.underWay n ∨ n = s.opened.length)
  | fails (hover : s'.ended.Perm (s.opened.length :: s.ended)) (hopened : s'.opened.length = s.opened.length + 1)
      (hway : ∀ n, s'.underWay n ↔ s.underWay n)
  | ends (n : Nat) (hbefore : s.underWay n) (hover : s'.ended.Perm (n :: s.ended)) (hopened : s'.opened.length = s.opened.length)
      (hway : ∀ m, s'.underWay m ↔ s.underWay m ∧ m ≠ n)

lemma Ended.step {s' : Registry} (hs : s.Ended) (h : Ends s s') : s'.Ended := by
  have hover_lt : ∀ n ∈ s.ended, n < s.opened.length := fun n hn => (hs.all n).mpr (.inl hn)
  have hway_lt : ∀ n, s.underWay n → n < s.opened.length := fun n hn => (hs.all n).mpr (.inr hn)
  cases h with
  | same hover hopened hway =>
    constructor
    · exact hover.nodup_iff.mpr hs.once
    · intro n hn hn'
      exact hs.apart n (hover.mem_iff.mp hn) ((hway n).mp hn')
    · intro n
      rw [hopened, hover.mem_iff, hway]
      exact hs.all n
  | opens hover hopened hway =>
    constructor
    · exact hover.nodup_iff.mpr hs.once
    · intro n hn hn'
      have hover := hover.mem_iff.mp hn
      cases (hway n).mp hn' with
      | inl hold => exact hs.apart n hover hold
      | inr heq => exact (hover_lt n hover).ne heq
    · intro n
      rw [hopened, hover.mem_iff, hway, Nat.lt_succ_iff_lt_or_eq, hs.all, or_assoc]
  | fails hover hopened hway =>
    constructor
    · exact hover.nodup_iff.mpr (List.nodup_cons.mpr ⟨fun hmem => (hover_lt _ hmem).ne rfl, hs.once⟩)
    · intro n hn hn'
      have hold := (hway n).mp hn'
      cases List.mem_cons.mp (hover.mem_iff.mp hn) with
      | inl heq => exact (hway_lt n hold).ne heq
      | inr hmem => exact hs.apart n hmem hold
    · intro n
      rw [hopened, hover.mem_iff, hway, Nat.lt_succ_iff_lt_or_eq, hs.all, List.mem_cons, or_comm, or_assoc]
  | ends m hbefore hover hopened hway =>
    constructor
    · exact hover.nodup_iff.mpr (List.nodup_cons.mpr ⟨fun hmem => hs.apart m hmem hbefore, hs.once⟩)
    · intro n hn hn'
      obtain ⟨hold, hne⟩ := (hway n).mp hn'
      cases List.mem_cons.mp (hover.mem_iff.mp hn) with
      | inl heq => exact hne heq
      | inr hmem => exact hs.apart n hmem hold
    · intro n
      rw [hopened, hover.mem_iff, hway, hs.all, List.mem_cons]
      by_cases heq : n = m
      · subst heq
        exact iff_of_true (.inr hbefore) (.inl (.inl rfl))
      · rw [or_iff_right heq, and_iff_left heq]

/-! ### Steps -/

/-- A context of a bind that is under way. -/
def Way (x : Option (Nat × Stage)) (n : Nat) : Prop := ∃ st, x = some (n, st) ∧ st.unfinished

lemma way_some : Way (some (n, st)) m ↔ m = n ∧ st.unfinished := by
  constructor
  · rintro ⟨t, ht, hunf⟩
    cases ht
    exact ⟨rfl, hunf⟩
  · rintro ⟨rfl, hunf⟩
    exact ⟨st, rfl, hunf⟩

lemma not_way_none : ¬ Way none m := by
  rintro ⟨t, ht, -⟩
  cases ht

/-- One context apart. -/
lemma underWay_apart (s : Registry) (h m : Nat) : s.underWay m ↔ Way (s.owner h) m ∨ ∃ i, i ≠ h ∧ Way (s.owner i) m := by
  constructor
  · rintro ⟨i, hi⟩
    by_cases heq : i = h
    · subst heq
      exact .inl hi
    · exact .inr ⟨i, heq, hi⟩
  · rintro (hh | ⟨i, -, hi⟩)
    · exact ⟨h, hh⟩
    · exact ⟨i, hi⟩

lemma underWay_update {s' : Registry} {v : Option (Nat × Stage)} (hs' : s'.owner = Function.update s.owner h v) :
    s'.underWay m ↔ Way v m ∨ ∃ i, i ≠ h ∧ Way (s.owner i) m := by
  rw [underWay_apart s' h, hs', Function.update_self]
  refine or_congr_right (exists_congr fun i => and_congr_right fun hne => ?_)
  rw [Function.update_of_ne hne]

/-- A context whose bind is as far as before. -/
lemma ends_keep {s' : Registry} {v : Option (Nat × Stage)} (hs' : s'.owner = Function.update s.owner h v)
    (hv : ∀ m, Way v m ↔ Way (s.owner h) m) (hended : s'.ended = s.ended) (hopened : s'.opened = s.opened) : Ends s s' := by
  refine .same (hended ▸ .refl _) (congrArg _ hopened) fun m => ?_
  rw [underWay_update hs', hv, underWay_apart s h]

/-- A context whose bind is over now. -/
lemma ends_end {s' : Registry} {v : Option (Nat × Stage)} (hs : s.Registered) (howner : s.owner h = some (n, st))
    (hst : st.unfinished) (hs' : s'.owner = Function.update s.owner h v) (hv : ∀ m, ¬ Way v m)
    (hended : s'.ended.Perm (n :: s.ended)) (hopened : s'.opened = s.opened) : Ends s s' := by
  refine .ends n ⟨h, st, howner, hst⟩ hended (congrArg _ hopened) fun m => ?_
  rw [underWay_update hs', underWay_apart s h, or_iff_right (hv m), howner, way_some, and_iff_left hst]
  constructor
  · rintro ⟨i, hne, t, hi, ht⟩
    refine ⟨.inr ⟨i, hne, t, hi, ht⟩, ?_⟩
    rintro rfl
    exact hne (hs.distinct i h m t st hi howner)
  · rintro ⟨heq | hrest, hne⟩
    · exact absurd heq hne
    · exact hrest

lemma ends_refl : Ends s s := .same (.refl _) rfl fun _ => Iff.rfl

lemma ends_advance (howner : s.owner h = some (n, st)) (st' : Stage) (hst : st'.unfinished = st.unfinished) : Ends s (s.advance h n st') := by
  refine ends_keep (v := some (n, st')) rfl (fun m => ?_) rfl rfl
  rw [howner, way_some, way_some, hst]

lemma ends_free (howner : s.owner h = some (n, st)) (hst : st.unfinished = false) : Ends s (s.free h n) := by
  refine ends_keep (v := none) rfl (fun m => ?_) rfl rfl
  rw [howner, way_some, hst]
  exact iff_of_false not_way_none fun hfalse => Bool.false_ne_true hfalse.2

/-- What only changes other parts. -/
lemma Ends.trans_eq {s₁ s₂ : Registry} (hends : Ends s s₁) (howner : s₂.owner = s₁.owner) (hended : s₂.ended = s₁.ended)
    (hopened : s₂.opened = s₁.opened) : Ends s s₂ := by
  have hway : ∀ m, s₂.underWay m ↔ s₁.underWay m := by
    intro m
    unfold underWay
    rw [howner]
  cases hends with
  | same h1 h2 h3 => exact .same (hended ▸ h1) (hopened ▸ h2) fun m => (hway m).trans (h3 m)
  | opens h1 h2 h3 => exact .opens (hended ▸ h1) (hopened ▸ h2) fun m => (hway m).trans (h3 m)
  | fails h1 h2 h3 => exact .fails (hended ▸ h1) (hopened ▸ h2) fun m => (hway m).trans (h3 m)
  | ends n h0 h1 h2 h3 => exact .ends n h0 (hended ▸ h1) (hopened ▸ h2) fun m => (hway m).trans (h3 m)

lemma ends_allocate {bindContext : Nat} {adapterName : List UInt16} (hs : s.Registered) (hfree : s.contexts h = none)
    (hst : st.unfinished) : Ends s (s.allocate bindContext adapterName h st) := by
  refine .opens (.refl _) ?_ fun m => ?_
  · unfold allocate
    rw [List.length_append, List.length_singleton]
  · have hnone := owner_eq_none hs hfree
    rw [underWay_update owner_allocate, underWay_apart s h, hnone, way_some, and_iff_left hst, or_iff_right not_way_none, or_comm]

lemma ends_bindAdapter (hs : s.Registered) (bindContext : Nat) (adapterName : List UInt16) (context : Option Nat) (named : Bool)
    (opened : NdisStatus) : Ends s (s.bindAdapter bindContext adapterName context named opened).1 := by
  unfold bindAdapter
  split
  · exact ends_refl.trans_eq rfl rfl rfl
  · cases context with
    | none => exact ends_refl.trans_eq rfl rfl rfl
    | some h =>
      dsimp only
      split
      · exact ends_refl.trans_eq rfl rfl rfl
      · split
        · exact ends_refl
        · next hfree =>
          have hfree := Option.not_isSome_iff_eq_none.mp hfree
          split
          · have hopen : Ends s (s.allocate bindContext adapterName h .opening) := ends_allocate hs hfree rfl
            exact hopen.trans_eq rfl rfl rfl
          · exact ends_allocate hs hfree rfl
          · refine .fails ?_ ?_ fun _ => Iff.rfl
            · unfold complete ended
              rw [List.map_append, List.append_assoc]
              exact List.perm_middle
            · unfold complete
              exact List.length_append

lemma ends_openComplete (hs : s.Registered) (h : Nat) (status : NdisStatus) : Ends s (s.openComplete h status).1 := by
  unfold openComplete
  split
  · next n howner =>
    dsimp only
    split
    · exact (ends_advance howner (.inserting ((s.contexts h).bind OpenContext.bindContext)) rfl).trans_eq rfl rfl rfl
    · refine ends_end (v := none) hs howner rfl rfl (fun _ => not_way_none) ?_ rfl
      unfold ended
      rw [List.map_append, ← List.append_assoc]
      exact List.perm_append_singleton n _
  · exact ends_refl

lemma ends_completeFailed (s : Registry) (k : Nat) (seen : Option Nat) : Ends s (s.completeFailed k seen).1 := by
  unfold completeFailed
  cases hk : s.failing[k]? with
  | none => exact ends_refl
  | some x =>
    refine .same (Multiset.coe_eq_coe.mp ?_) rfl fun _ => Iff.rfl
    unfold complete ended
    rw [← Multiset.coe_add, ← Multiset.coe_add, coe_map_eraseIdx Prod.fst hk, List.map_append, ← Multiset.coe_add, add_assoc]
    rfl

lemma ends_completeBind (hs : s.Registered) (h : Nat) : Ends s (s.completeBind h).1 := by
  unfold completeBind
  split
  · next n b howner =>
    refine ends_end (v := some (n, .bound)) hs howner rfl rfl (fun m hm => ?_) ?_ rfl
    · obtain ⟨t, ht, hunf⟩ := hm
      cases ht
      cases hunf
    · unfold complete ended
      rw [List.map_append, List.append_assoc]
      exact List.perm_middle
  · exact ends_refl

/-- Every step. -/
lemma ends_step (hs : s.Registered) (a : BindAction) : Ends s (s.step a).1 := by
  cases a with
  | bindAdapter bindContext adapterName context named opened => exact ends_bindAdapter hs bindContext adapterName context named opened
  | storeBindContext k =>
    unfold step storeBindContext
    dsimp only
    split
    · exact ends_refl.trans_eq rfl rfl rfl
    · exact ends_refl
  | openComplete h status => exact ends_openComplete hs h status
  | completeFailed k seen => exact ends_completeFailed s k seen
  | insertOpen h =>
    unfold step insertOpen
    dsimp only
    split
    · next n b howner => exact (ends_advance howner (.counting b) rfl).trans_eq rfl rfl rfl
    · exact ends_refl
  | countOpen h =>
    unfold step countOpen
    dsimp only
    split
    · next n b howner => exact (ends_advance howner (.queryingMac b) rfl).trans_eq rfl rfl rfl
    · exact ends_refl
  | queryCurrentMac h allocated result =>
    unfold step queryCurrentMac
    dsimp only
    split
    · next n b howner =>
      have hnext := ends_advance howner (.settingFilter b) rfl
      split
      · exact hnext
      · split
        · exact hnext.trans_eq rfl rfl rfl
        · unfold queryMacComplete
          split
          · exact hnext.trans_eq rfl rfl rfl
          · exact hnext
    · exact ends_refl
  | setPacketFilter h allocated result =>
    unfold step setPacketFilter
    dsimp only
    split
    · next n b howner =>
      have hnext := ends_advance howner (.completing b) rfl
      split
      · exact hnext.trans_eq rfl rfl rfl
      · exact hnext
    · exact ends_refl
  | completeBind h => exact ends_completeBind hs h
  | oidRequestComplete k result =>
    unfold step oidRequestComplete
    dsimp only
    split
    · split
      · exact ends_refl.trans_eq rfl rfl rfl
      · unfold queryMacComplete
        split
        · exact ends_refl.trans_eq rfl rfl rfl
        · exact ends_refl.trans_eq rfl rfl rfl
    · exact ends_refl
  | unbindAdapter h =>
    unfold step unbindAdapter
    dsimp only
    split
    · next n howner => exact (ends_advance howner .uncounting rfl).trans_eq rfl rfl rfl
    · exact ends_refl
  | uncountOpen h =>
    unfold step uncountOpen
    dsimp only
    split
    · next n howner => exact (ends_advance howner .removing rfl).trans_eq rfl rfl rfl
    · exact ends_refl
  | removeOpen h =>
    unfold step removeOpen
    dsimp only
    split
    · next n howner => exact (ends_advance howner .closingAdapter rfl).trans_eq rfl rfl rfl
    · exact ends_refl
  | closeAdapter h status =>
    unfold step closeAdapter
    dsimp only
    split
    · next n howner =>
      split
      · exact ends_advance howner .closing rfl
      · split
        · exact ends_free howner rfl
        · exact ends_refl
    · exact ends_refl
  | closeComplete h =>
    unfold step closeComplete
    dsimp only
    split
    · next n howner =>
      split
      · exact ends_free howner rfl
      · exact ends_refl
    · exact ends_refl
  | unload => exact ends_refl.trans_eq rfl rfl rfl

/-! ## What binds are ended with -/

/-- No open is complete before the bind has kept its context. -/
def InTime (s : Registry) : BindAction → Prop
  | .openComplete h _ => ∀ n, s.owner h = some (n, .opening) → s.late n = false
  | _ => True

/-- A context that is opening holds the context of its bind once that is kept, and from then on the bind carries it. -/
structure Timely (s : Registry) : Prop where
  overtaken : s.overtaken = []
  distinct : (s.storing.map Storing.serial).Nodup
  storing : ∀ x ∈ s.storing, s.opened[x.serial]? = some x.bindContext
  kept : ∀ h n c, s.owner h = some (n, .opening) → s.contexts h = some c → c.bindContext = if s.late n then none else s.opened[n]?
  carried : ∀ h n st b, s.owner h = some (n, st) → st.carried = some b → b = s.opened[n]?
  failing : ∀ x ∈ s.failing, x.1 < s.opened.length ∧ x.2 ≠ .success
  own : ∀ x ∈ s.completed, x.serial < s.opened.length ∧ (x.status = .success → x.bindContext = s.opened[x.serial]?)

lemma timely_empty : Timely {} where
  overtaken := rfl
  distinct := List.nodup_nil
  storing x hx := by cases hx
  kept h n c hx := by cases hx
  carried h n st b hx := by cases hx
  failing x hx := by cases hx
  own x hx := by cases hx

/-- A bind that still has to keep its context has a context that is opening. -/
lemma opening_of_storing {x : Storing} (hs : s.Registered) (ht : s.Timely) (hx : x ∈ s.storing) :
    s.owner x.openContext = some (x.serial, .opening) := by
  refine (hs.storing x hx).resolve_right fun hover => ?_
  rw [ht.overtaken] at hover
  cases hover

/-- A context is not opening any more, and what it carries is its own. -/
lemma Timely.go {s' : Registry} {v : Option (Nat × Stage)} (ht : s.Timely)
    (hv : ∀ m t, v = some (m, t) → t ≠ .opening ∧ ∀ b, t.carried = some b → b = s.opened[m]?)
    (howner : s'.owner = Function.update s.owner h v) (hcontexts : ∀ i, i ≠ h → s'.contexts i = s.contexts i)
    (hovertaken : s'.overtaken = s.overtaken) (hstoring : s'.storing = s.storing) (hopened : s'.opened = s.opened)
    (hfailing : s'.failing = s.failing) (hcompleted : s'.completed = s.completed) : s'.Timely where
  overtaken := hovertaken.trans ht.overtaken
  distinct := by
    rw [hstoring]
    exact ht.distinct
  storing := by
    rw [hstoring, hopened]
    exact ht.storing
  kept i m c hi hc := by
    have hlate : s'.late m = s.late m := by
      unfold late
      rw [hstoring]
    rw [howner, Function.update_apply] at hi
    rw [hlate, hopened]
    split at hi
    · exact absurd rfl (hv m _ hi).1
    · next hne => exact ht.kept i m c hi ((hcontexts i hne).symm.trans hc)
  carried i m t b hi hb := by
    rw [howner, Function.update_apply] at hi
    rw [hopened]
    split at hi
    · exact (hv m t hi).2 b hb
    · exact ht.carried i m t b hi hb
  failing := by
    rw [hfailing, hopened]
    exact ht.failing
  own := by
    rw [hcompleted, hopened]
    exact ht.own

/-- A context that carries what it has carried. -/
lemma Timely.advance (ht : s.Timely) (howner : s.owner h = some (n, st)) (st' : Stage) (hopening : st' ≠ .opening)
    (hst : ∀ b, st'.carried = some b → st.carried = some b) : (s.advance h n st').Timely := by
  refine ht.go (v := some (n, st')) (fun m t hmt => ?_) rfl (fun _ _ => rfl) rfl rfl rfl rfl rfl
  cases hmt
  exact ⟨hopening, fun b hb => ht.carried h n st b howner (hst b hb)⟩

lemma Timely.free (ht : s.Timely) (h n : Nat) : (s.free h n).Timely :=
  ht.go (v := none) (fun m t hmt => by cases hmt) rfl (fun i hne => Function.update_of_ne hne _ _) rfl rfl rfl rfl rfl

/-- A write to a context that is not opening. -/
lemma Timely.write {f : OpenContext → OpenContext} (ht : s.Timely) (howner : s.owner h = some (n, st)) (hopening : st ≠ .opening) :
    (s.write h n f).Timely := by
  refine ht.go (v := some (n, st)) (fun m t hmt => ?_) ?_ (fun i hne => Function.update_of_ne hne _ _) rfl rfl rfl rfl rfl
  · cases hmt
    exact ⟨hopening, fun b hb => ht.carried h n st b howner hb⟩
  · rw [← howner, Function.update_eq_self]
    rfl

lemma Timely.complete (ht : s.Timely) (hn : n < s.opened.length) (hb : status = .success → b = s.opened[n]?) :
    (s.complete n b status).1.Timely :=
  { ht with
    own := by
      intro x hx
      cases List.mem_append.mp hx with
      | inl hx => exact ht.own x hx
      | inr hx =>
        rw [List.mem_singleton.mp hx]
        exact ⟨hn, hb⟩ }

/-- What was opened before is found where it was. -/
lemma getElem?_opened {a : Nat} (hn : n < s.opened.length) : (s.opened ++ [a])[n]? = s.opened[n]? := List.getElem?_append_left hn

/-- One more bind gets to the open. -/
lemma Timely.open (hs : s.Registered) (ht : s.Timely) (nextIfIndex : UInt32) (bindContext : Nat) :
    Timely { s with nextIfIndex, opened := s.opened ++ [bindContext] } where
  overtaken := ht.overtaken
  distinct := ht.distinct
  storing x hx := by
    have hfound := ht.storing x hx
    exact (getElem?_opened (List.getElem?_eq_some_iff.mp hfound).1).trans hfound
  kept h n c hn hc := (ht.kept h n c hn hc).trans (by rw [getElem?_opened (hs.numbered h n _ hn)]; rfl)
  carried h n st b hn hb := (ht.carried h n st b hn hb).trans (getElem?_opened (hs.numbered h n st hn)).symm
  failing x hx := by
    rw [List.length_append]
    exact (ht.failing x hx).imp_left fun hlt => hlt.trans_le (Nat.le_add_right _ _)
  own x hx := by
    obtain ⟨hlt, hsuccess⟩ := ht.own x hx
    refine ⟨hlt.trans_le ?_, fun hstatus => (hsuccess hstatus).trans (getElem?_opened hlt).symm⟩
    rw [List.length_append]
    exact Nat.le_add_right _ _

lemma late_iff : s.late n = true ↔ n ∈ s.storing.map Storing.serial := by
  unfold late
  rw [List.any_eq_true, List.mem_map]
  exact exists_congr fun x => and_congr_right fun _ => decide_eq_true_iff

/-- Whether the context is kept, in terms of those that are not. -/
lemma kept_eq {s' : Registry} (hiff : n ∈ s'.storing.map Storing.serial ↔ n ∈ s.storing.map Storing.serial) (o : Option Nat) :
    (if s'.late n then none else o) = if s.late n then none else o := by
  have hlate : s'.late n = s.late n := Bool.eq_iff_iff.mpr ((late_iff.trans hiff).trans late_iff.symm)
  rw [hlate]

/-- The bind that still has to keep its context is the last one. -/
lemma timely_pending {bindContext : Nat} {adapterName : List UInt16} (hs : s.Registered) (ht : s.Timely) :
    Timely { s.allocate bindContext adapterName h .opening with
      storing := s.storing ++ [⟨h, s.opened.length, bindContext⟩] } := by
  have hopen := ht.open hs (s.nextIfIndex + 1) bindContext
  have hfresh : s.opened.length ∉ s.storing.map Storing.serial := by
    intro hmem
    obtain ⟨x, hx, heq⟩ := List.mem_map.mp hmem
    exact (List.getElem?_eq_some_iff.mp (ht.storing x hx)).1.ne heq
  constructor
  · exact ht.overtaken
  · rw [List.map_append, List.map_singleton, ← List.concat_eq_append]
    exact ht.distinct.concat hfresh
  · intro x hx
    cases List.mem_append.mp hx with
    | inl hx => exact hopen.storing x hx
    | inr hx =>
      rw [List.mem_singleton.mp hx]
      exact List.getElem?_concat_length
  · intro i m c hi hc
    simp only [allocate, Function.update_apply] at hi hc
    split at hi
    · next heq =>
      rw [if_pos heq] at hc
      cases hi
      cases hc
      refine (if_pos (late_iff.mpr ?_)).symm
      rw [List.map_append]
      exact List.mem_append_right _ (List.mem_singleton_self _)
    · next hne =>
      rw [if_neg hne] at hc
      refine (hopen.kept i m c hi hc).trans (kept_eq ?_ _).symm
      rw [List.map_append, List.map_singleton, List.mem_append, List.mem_singleton, or_iff_left (hs.numbered i m _ hi).ne]
  · intro i m t b hi hb
    simp only [allocate, Function.update_apply] at hi
    split at hi
    · cases hi
      cases hb
    · exact hopen.carried i m t b hi hb
  · exact hopen.failing
  · exact hopen.own

lemma timely_bindAdapter (hs : s.Registered) (ht : s.Timely) (bindContext : Nat) (adapterName : List UInt16) (context : Option Nat)
    (named : Bool) (opened : NdisStatus) : (s.bindAdapter bindContext adapterName context named opened).1.Timely := by
  have hopen := ht.open hs (s.nextIfIndex + 1) bindContext
  have hlast : (s.opened ++ [bindContext])[s.opened.length]? = some bindContext := List.getElem?_concat_length
  unfold bindAdapter
  split
  · exact { ht with }
  · cases context with
    | none => exact { ht with }
    | some h =>
      dsimp only
      split
      · exact { ht with }
      · split
        · exact ht
        · split
          · exact timely_pending hs ht
          · refine hopen.go (h := h) (v := some (s.opened.length, .inserting (some bindContext))) (fun m t hmt => ?_) rfl
              (fun i hne => Function.update_of_ne hne _ _) rfl rfl rfl rfl rfl
            cases hmt
            refine ⟨(fun hfalse => by cases hfalse), fun b hb => ?_⟩
            cases hb
            exact hlast.symm
          · refine hopen.complete ?_ fun _ => hlast.symm
            rw [List.length_append]
            exact Nat.lt_succ_self _

lemma timely_storeBindContext (hs : s.Registered) (ht : s.Timely) (k : Nat) : (s.storeBindContext k).1.Timely := by
  unfold storeBindContext
  cases hk : s.storing[k]? with
  | none => exact ht
  | some x =>
    have hx := List.mem_of_getElem? hk
    have howner := opening_of_storing hs ht hx
    have hperm : (s.storing.map Storing.serial).Perm (x.serial :: (s.storing.eraseIdx k).map Storing.serial) :=
      Multiset.coe_eq_coe.mp (coe_map_eraseIdx Storing.serial hk)
    have hdistinct := hperm.nodup_iff.mp ht.distinct
    refine { ht with distinct := (List.nodup_cons.mp hdistinct).2, storing := fun y hy => ?_, kept := fun i m c hi hc => ?_ }
    · exact ht.storing y (List.mem_of_mem_eraseIdx hy)
    · have hi : s.owner i = some (m, .opening) := hi
      simp only [Registry.write, Function.update_apply] at hc
      split at hc
      · next heq =>
        -- it is kept now
        subst heq
        rw [howner] at hi
        cases hi
        obtain ⟨c', -, rfl⟩ := Option.map_eq_some_iff.mp hc
        refine (ht.storing x hx).symm.trans (if_neg fun hlate => ?_).symm
        exact (List.nodup_cons.mp hdistinct).1 (late_iff.mp hlate)
      · next hne =>
        refine (ht.kept i m c hi hc).trans (kept_eq ?_ _).symm
        have hother : m ≠ x.serial := by
          rintro rfl
          exact hne (hs.distinct i x.openContext x.serial _ _ hi howner)
        rw [hperm.mem_iff, List.mem_cons, or_iff_right hother]

lemma timely_openComplete (hs : s.Registered) (ht : s.Timely) (hin : s.InTime (.openComplete h status)) :
    (s.openComplete h status).1.Timely := by
  unfold openComplete
  split
  · next n howner =>
    have hlate := hin n howner
    dsimp only
    rw [if_neg (Bool.eq_false_iff.mp hlate)]
    split
    · refine ht.go (h := h) (v := some (n, .inserting ((s.contexts h).bind OpenContext.bindContext))) (fun m t hmt => ?_) rfl
        (fun _ _ => rfl) rfl rfl rfl rfl rfl
      cases hmt
      refine ⟨(fun hfalse => by cases hfalse), fun b hb => ?_⟩
      cases hb
      obtain ⟨c, hc⟩ := Option.isSome_iff_exists.mp ((hs.live h).trans (by rw [howner]; rfl))
      rw [hc]
      have hkept := ht.kept h n c howner hc
      rw [if_neg (Bool.eq_false_iff.mp hlate)] at hkept
      exact hkept
    · next hstatus =>
      refine { ht.free h n with failing := fun x hx => ?_ }
      cases List.mem_append.mp hx with
      | inl hx => exact ht.failing x hx
      | inr hx =>
        rw [List.mem_singleton.mp hx]
        exact ⟨hs.numbered h n _ howner, hstatus⟩
  · exact ht

lemma timely_queryMacComplete {result : OidResult} (ht : s.Timely) (howner : s.owner h = some (n, st)) (hopening : st ≠ .opening) :
    (s.queryMacComplete h n result).Timely := by
  unfold queryMacComplete
  split
  · exact ht.write howner hopening
  · exact ht

/-- A context that is opening has no request on its way. -/
lemma not_opening_of_asked (hst : st.asked) : st ≠ .opening := by
  rintro rfl
  cases hst

lemma timely_write_advance {f : OpenContext → OpenContext} (ht : s.Timely) (howner : s.owner h = some (n, st)) (st' : Stage) (hopening : st ≠ .opening)
    (hopening' : st' ≠ .opening) (hst : ∀ b, st'.carried = some b → st.carried = some b) :
    ((s.write h n f).advance h n st').Timely := (ht.write (f := f) howner hopening).advance howner st' hopening' hst

/-- Every step in time. -/
lemma timely_step {a : BindAction} (hs : s.Registered) (ht : s.Timely) (hin : s.InTime a) : (s.step a).1.Timely := by
  cases a with
  | bindAdapter bindContext adapterName context named opened => exact timely_bindAdapter hs ht bindContext adapterName context named opened
  | storeBindContext k => exact timely_storeBindContext hs ht k
  | openComplete h status => exact timely_openComplete hs ht hin
  | completeFailed k seen =>
    unfold step completeFailed
    dsimp only
    split
    · next n status hk =>
      obtain ⟨hn, hstatus⟩ := ht.failing _ (List.mem_of_getElem? hk)
      have hrest : Timely { s with failing := s.failing.eraseIdx k, stale := s.stale ++ [n] } :=
        { ht with failing := fun x hx => ht.failing x (List.mem_of_mem_eraseIdx hx) }
      exact hrest.complete hn fun hsuccess => absurd hsuccess hstatus
    · exact ht
  | insertOpen h =>
    unfold step insertOpen
    dsimp only
    split
    · next n b howner =>
      exact { timely_write_advance ht howner (.counting b) (fun hfalse => by cases hfalse) (fun hfalse => by cases hfalse)
        fun _ => id with }
    · exact ht
  | countOpen h =>
    unfold step countOpen
    dsimp only
    split
    · next n b howner => exact { ht.advance howner (.queryingMac b) (fun hfalse => by cases hfalse) fun _ => id with }
    · exact ht
  | queryCurrentMac h allocated result =>
    unfold step queryCurrentMac
    dsimp only
    split
    · next n b howner =>
      have hnext := ht.advance howner (.settingFilter b) (fun hfalse => by cases hfalse) fun _ => id
      split
      · exact hnext
      · split
        · exact { hnext with }
        · exact timely_queryMacComplete hnext owner_advance (fun hfalse => by cases hfalse)
    · exact ht
  | setPacketFilter h allocated result =>
    unfold step setPacketFilter
    dsimp only
    split
    · next n b howner =>
      have hnext := ht.advance howner (.completing b) (fun hfalse => by cases hfalse) fun _ => id
      split
      · exact { hnext with }
      · exact hnext
    · exact ht
  | completeBind h =>
    unfold step completeBind
    dsimp only
    split
    · next n b howner =>
      have hnext := ht.advance howner .bound (fun hfalse => by cases hfalse) fun b hb => by cases hb
      exact hnext.complete (hs.numbered h n _ howner) fun _ => ht.carried h n _ b howner rfl
    · exact ht
  | oidRequestComplete k result =>
    unfold step oidRequestComplete
    dsimp only
    split
    · next x hk =>
      obtain ⟨t, howner, hasked⟩ := hs.asked x (List.mem_of_getElem? hk)
      have hrest : Timely { s with wrappers := s.wrappers.eraseIdx k } := { ht with }
      split
      · exact hrest
      · exact timely_queryMacComplete hrest howner (not_opening_of_asked hasked)
    · exact ht
  | unbindAdapter h =>
    unfold step unbindAdapter
    dsimp only
    split
    · next n howner =>
      exact timely_write_advance ht howner .uncounting (by decide) (by decide) fun b hb => by cases hb
    · exact ht
  | uncountOpen h =>
    unfold step uncountOpen
    dsimp only
    split
    · next n howner =>
      have hnext := ht.advance howner .removing (by decide) fun b hb => by cases hb
      exact { hnext with }
    · exact ht
  | removeOpen h =>
    unfold step removeOpen
    dsimp only
    split
    · next n howner =>
      have hnext := ht.advance howner .closingAdapter (by decide) fun b hb => by cases hb
      exact { hnext with }
    · exact ht
  | closeAdapter h status =>
    unfold step closeAdapter
    dsimp only
    split
    · next n howner =>
      split
      · exact ht.advance howner .closing (by decide) fun b hb => by cases hb
      · split
        · exact ht.free h n
        · exact ht
    · exact ht
  | closeComplete h =>
    unfold step closeComplete
    dsimp only
    split
    · split
      · exact ht.free h _
      · exact ht
    · exact ht
  | unload => exact { ht with }

/-! ## Runs -/

lemma ended_empty : Ended {} where
  once := List.nodup_nil
  apart n hn := by cases hn
  all n := by
    refine iff_of_false (Nat.not_lt_zero n) ?_
    rintro (hn | ⟨h, st, hn, -⟩)
    · cases hn
    · cases hn

/-- In every run, every bind that gets to the open is told its end once or is under way. -/
theorem binds_end (actions : List BindAction) : (run step {} actions).1.Ended := by
  have hstep : ∀ s a, Registered s ∧ Ended s → Registered (step s a).1 ∧ Ended (step s a).1 :=
    fun s a hs => ⟨registered_step hs.1 a, hs.2.step (ends_step hs.1 a)⟩
  exact (invariant_run_all hstep ⟨registered_empty, ended_empty⟩ actions).2

lemma timely_run {actions : List BindAction} (hin : Along step InTime {} actions) :
    (run step {} actions).1.Registered ∧ (run step {} actions).1.Timely := by
  have hstep : ∀ s a, Registered s ∧ Timely s → InTime s a → Registered (step s a).1 ∧ Timely (step s a).1 :=
    fun s a hs ha => ⟨registered_step hs.1 a, timely_step hs.1 hs.2 ha⟩
  exact invariant_run hstep ⟨registered_empty, timely_empty⟩ hin

/-- An open that is complete goes on to the end of the bind. -/
def finishOpen (h : Nat) (result : OidResult) : List BindAction := [
  .openComplete h .success, .insertOpen h, .countOpen h, .queryCurrentMac h false result, .setPacketFilter h false result, .completeBind h]

lemma finishOpen_answer {result : OidResult} (howner : s.owner h = some (n, .opening)) :
    (run step s (finishOpen h result)).2.getLast? = some (some ⟨n, (s.contexts h).bind OpenContext.bindContext, .success⟩) := by
  simp [finishOpen, step, openComplete, insertOpen, countOpen, queryCurrentMac, setPacketFilter, completeBind, complete, advance, write,
    howner]

end IPv8Plus.Driver.Registry
