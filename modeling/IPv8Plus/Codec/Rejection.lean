import IPv8Plus.Codec.ReassemblerSafety

/-!
# Fragments that are refused

`insert` makes some of its checks after it has written. A group is opened before the length of its first fragment is
checked, and a piece is stored, with the total it fixes, before it turns out that a piece with its start is waiting.
Everywhere else a fragment that is answered by an error leaves the reassembler as it was.
-/

namespace IPv8Plus.Codec
open Lib

/-- What keeps a refused fragment from leaving a trace. Where its packet is not known yet, it must not be a last piece
beyond the limit. Where a group lets it pass and a piece with its start waits, that piece must be the same, and the total
known if the fragment is a last piece. -/
def Reassembler.Spares (r : Reassembler) (now : Nat) (d : Decoded) : Prop :=
  ∀ frag, checkFragment d.header d.payload = .ok frag →
    match r.groups[groupKey d.header frag]? with
    | none => r.HasRoom now (groupKey d.header frag) → frag.more = true ∨ frag.start + d.payload.length ≤ maxGroupBytes
    | some g => g.refuses frag d.payload.length = none → ∀ old, g.chunks[frag.start]? = some old →
        old = d.payload ∧ (frag.more = true ∨ g.total.isSome)

/-- No piece waits at the end of the prefix. -/
def Group.Stuck (g : Group) : Prop := g.pos ∉ g.chunks

section
variable {g : Group} {hdr : IPv8Header} {frag : FragmentInfo} {payload : Bytes}

lemma Group.Stuck.take {g' : Group} (hg : g.Stuck) (h : (g.take hdr frag payload).1 = some g') : g'.Stuck := by
  obtain ⟨e, -, ht⟩ | ⟨-, ⟨hdup, ht⟩ | ⟨-, ⟨-, ht⟩ | ⟨-, ht⟩⟩⟩ := take_cases g hdr frag payload
  · rw [ht] at h
    cases h
    exact hg
  · rw [ht] at h
    cases h
    intro hmem
    rcases Std.ExtTreeMap.mem_insert.mp hmem with heq | hmem
    · -- the piece that is replaced was not at the end of the prefix
      have hstart : frag.start = g.pos := Nat.compare_eq_eq.mp heq
      exact hg (hstart ▸ hdup)
    · exact hg hmem
  · rw [ht] at h
    cases h
    intro hmem
    have hstuck := drain_stuck (g.buffer hdr frag payload).chunks (g.buffer hdr frag payload).pos
      (g.buffer hdr frag payload).payload
    rw [Std.ExtTreeMap.mem_iff_isSome_getElem?] at hmem
    change ((drain _ _ _).1[(drain _ _ _).2.1]?).isSome = true at hmem
    rw [hstuck] at hmem
    cases hmem
  · rw [ht] at h
    cases h

/-- In every run no group has a piece waiting at the end of its prefix. -/
lemma stuck_run (calls : List Call) (key : GroupKey) (g : Group)
    (h : (run Reassembler.step Reassembler.new calls).1.groups[key]? = some g) : g.Stuck := by
  have hall : ∀ (key : GroupKey) g, (run Reassembler.step Reassembler.new calls).1.groups[key]? = some g → g.Stuck :=
    invariant_run_all (I := fun r : Reassembler => ∀ (key : GroupKey) (g : Group), r.groups[key]? = some g → g.Stuck) ?_ ?_ calls
  · exact hall key g h
  · intro r c hr
    cases c with
    | reap now => exact fun key g hg => hr key g (getElem?_reap.mp hg).1
    | insert now d =>
      refine groups_invariant hr ?_ ?_
      · exact Std.ExtTreeMap.not_mem_empty
      · intro frag g g' _ _ hg ht
        exact hg.take ht
  · intro key g hg
    simp [Reassembler.new] at hg

/-- Storing a value changes nothing exactly if it is there. -/
lemma insert_eq_self_iff {κ α : Type} {cmp : κ → κ → Ordering} [Std.TransCmp cmp] [Std.LawfulEqCmp cmp]
    {m : Std.ExtTreeMap κ α cmp} {k : κ} {a : α} : m.insert k a = m ↔ m[k]? = some a := by
  constructor
  · intro h
    have hself := Std.ExtTreeMap.getElem?_insert_self (t := m) (k := k) (v := a)
    rw [h] at hself
    exact hself
  · intro h
    apply Std.ExtTreeMap.ext_getElem?
    intro k'
    rw [Std.ExtTreeMap.getElem?_insert]
    split
    · next e =>
      cases Std.LawfulEqCmp.eq_of_compare e
      exact h.symm
    · rfl

/-- A new group refuses nothing but a last piece beyond the limit. -/
lemma refuses_new {now : Nat} {len : Nat} : (Group.new hdr now).refuses frag len = none ↔
    frag.more = true ∨ frag.start + len ≤ maxGroupBytes := by
  have hpos : ¬ frag.start < (Group.new hdr now).pos := Nat.not_lt_zero _
  have htotal : ∀ p, ¬ (Group.new hdr now).total.any p = true := fun _ => Bool.false_ne_true
  unfold Group.refuses
  rw [if_neg hpos, if_neg (htotal _), if_neg (htotal _)]
  split
  · next h => exact iff_of_true rfl (.inl h)
  · next h =>
    split
    · next hlong =>
      refine iff_of_false nofun ?_
      rintro (hmore | hshort)
      · exact h hmore
      · exact absurd hlong (Nat.not_lt.mpr hshort)
    · next hshort => exact iff_of_true rfl (.inr (Nat.not_lt.mp hshort))

/-- A piece that is stored over another one changes the group, unless the two and the totals are the same. -/
lemma buffer_eq_self_iff {old : Bytes} (hg : g.Stuck) (hr : g.refuses frag payload.length = none)
    (hold : g.chunks[frag.start]? = some old) :
    g.buffer hdr frag payload = g ↔ old = payload ∧ (frag.more = true ∨ g.total.isSome) := by
  obtain ⟨hpos, -, hfix⟩ := refuses_eq_none hr
  have hmem : frag.start ∈ g.chunks := by
    rw [Std.ExtTreeMap.mem_iff_isSome_getElem?, hold]
    rfl
  -- a piece at 0 cannot wait, so the chain of the first piece is not touched
  have hstart : frag.start ≠ 0 := by
    intro hzero
    have hend : g.pos = frag.start := by omega
    exact hg (hend ▸ hmem)
  have hchain : g.chainWith hdr frag = g.origExt := if_neg fun h => hstart h.1
  have htotal : g.totalWith frag payload.length = g.total ↔ frag.more = true ∨ g.total.isSome := by
    unfold Group.totalWith
    split
    · next h => exact iff_of_true rfl (.inl h)
    · next h =>
      have hlast : frag.more = false := Bool.eq_false_iff.mpr h
      constructor
      · intro e
        rw [← e]
        exact .inr rfl
      · rintro (h' | hsome)
        · exact absurd h' h
        · obtain ⟨t, ht⟩ := Option.isSome_iff_exists.mp hsome
          rw [ht, hfix hlast t ht]
  have hchunks : g.chunks.insert frag.start payload = g.chunks ↔ old = payload := by
    rw [insert_eq_self_iff, hold, Option.some_inj]
  rw [← hchunks, ← htotal]
  constructor
  · intro h
    exact ⟨congrArg Group.chunks h, congrArg Group.total h⟩
  · rintro ⟨h1, h2⟩
    unfold Group.buffer
    rw [h1, h2, hchain]

/-- A rebuilt packet is no error of the reassembler. -/
lemma rebuild_ne_err (g : Group) (t : Nat) (e : ReassemblyError) : (some <$> g.rebuild t) ≠ .err e := by
  unfold Group.rebuild
  cases encodeHeader (g.outHeader t) [] with
  | ok a => nofun
  | err e => nofun
  | panic => nofun

end

/-- A group that answers with an error has refused the fragment, or has stored it over a waiting piece. -/
lemma take_err {g : Group} {hdr : IPv8Header} {frag : FragmentInfo} {payload : Bytes} {e : ReassemblyError}
    (h : (g.take hdr frag payload).2 = .err e) :
    g.refuses frag payload.length = some e ∧ (g.take hdr frag payload).1 = some g ∨
      g.refuses frag payload.length = none ∧ frag.start ∈ g.chunks ∧
        (g.take hdr frag payload).1 = some (g.buffer hdr frag payload) := by
  obtain ⟨e', hr, ht⟩ | ⟨hr, ⟨hdup, ht⟩ | ⟨-, ⟨-, ht⟩ | ⟨-, ht⟩⟩⟩ := take_cases g hdr frag payload
  · rw [ht] at h ⊢
    cases h
    exact .inl ⟨hr, rfl⟩
  · rw [ht]
    exact .inr ⟨hr, hdup, rfl⟩
  · rw [ht] at h
    cases h
  · rw [ht] at h
    exact absurd h (rebuild_ne_err _ _ _)

/-- At the first instant nothing has timed out. -/
lemma reap_zero (r : Reassembler) : r.reap 0 = r := by
  rw [Reassembler.mk.injEq]
  apply Std.ExtTreeMap.ext_getElem?
  intro key
  apply Option.ext
  intro g
  rw [getElem?_reap, Nat.zero_sub]
  exact and_iff_left (by decide)

/-- Where no group has timed out, a fragment that is answered by an error leaves the reassembler as it was exactly if the
state before spares it. -/
theorem rejected_unchanged_iff (calls : List Call) (now : Nat) (d : Decoded) (e : ReassemblyError)
    (hyoung : (run Reassembler.step Reassembler.new calls).1.reap now = (run Reassembler.step Reassembler.new calls).1)
    (herr : ((run Reassembler.step Reassembler.new calls).1.insert now d.header d.payload).2 = .err e) :
    ((run Reassembler.step Reassembler.new calls).1.insert now d.header d.payload).1 =
        (run Reassembler.step Reassembler.new calls).1 ↔
      (run Reassembler.step Reassembler.new calls).1.Spares now d := by
  have hstuck := stuck_run calls
  generalize (run Reassembler.step Reassembler.new calls).1 = r at hyoung herr hstuck ⊢
  have only : ∀ {frag : FragmentInfo} {P : FragmentInfo → Prop}, checkFragment d.header d.payload = .ok frag →
      ((∀ frag', checkFragment d.header d.payload = .ok frag' → P frag') ↔ P frag) := by
    intro frag P hc
    rw [hc]
    constructor
    · intro h
      exact h frag rfl
    · intro h frag' hc'
      cases hc'
      exact h
  obtain ⟨e', hc, h⟩ | ⟨frag, hc, ⟨hroom, h⟩ | ⟨hroom, h⟩⟩ := insert_cases r now d.header d.payload
  · rw [h]
    refine iff_of_true rfl fun frag hc' => ?_
    rw [hc] at hc'
    cases hc'
  · rw [h, hyoung]
    refine iff_of_true rfl ((only hc).mpr ?_)
    cases hgroup : r.groups[groupKey d.header frag]? with
    | none => exact fun hroom' => absurd hroom' hroom
    | some g =>
      -- a packet that is known always has room
      refine absurd (.inl ?_) hroom
      rw [hyoung, Std.ExtTreeMap.mem_iff_isSome_getElem?, hgroup]
      rfl
  · rw [h] at herr ⊢
    unfold Reassembler.Spares
    rw [only hc, hyoung]
    have hfor : r.groupFor now d.header frag = (r.groups[groupKey d.header frag]?).getD (Group.new d.header now) := by
      unfold Reassembler.groupFor
      rw [hyoung]
    cases hgroup : r.groups[groupKey d.header frag]? with
    | none =>
      rw [hgroup, Option.getD_none] at hfor
      rw [hfor] at herr ⊢
      obtain ⟨hr, ht⟩ | ⟨-, hdup, -⟩ := take_err herr
      · have hlong : ¬ (frag.more = true ∨ frag.start + d.payload.length ≤ maxGroupBytes) := by
          intro hok
          rw [refuses_new.mpr hok] at hr
          cases hr
        rw [ht]
        refine iff_of_false ?_ fun hspares => hlong (hspares hroom)
        intro e
        have hself := insert_eq_self_iff.mp (congrArg Reassembler.groups e)
        rw [hgroup] at hself
        cases hself
      · exact absurd hdup Std.ExtTreeMap.not_mem_empty
    | some g =>
      rw [hgroup, Option.getD_some] at hfor
      rw [hfor] at herr ⊢
      obtain ⟨hr, ht⟩ | ⟨hr, hdup, ht⟩ := take_err herr
      · rw [ht]
        refine iff_of_true ?_ fun hr' => ?_
        · rw [Reassembler.mk.injEq]
          exact insert_eq_self_iff.mpr hgroup
        · rw [hr] at hr'
          cases hr'
      · rw [ht]
        obtain ⟨old, hold⟩ := Option.isSome_iff_exists.mp (Std.ExtTreeMap.mem_iff_isSome_getElem?.mp hdup)
        have hsame : r.groups.insert (groupKey d.header frag) (g.buffer d.header frag d.payload) = r.groups ↔
            g.buffer d.header frag d.payload = g := by
          rw [insert_eq_self_iff, hgroup, Option.some_inj]
          exact eq_comm
        rw [Reassembler.mk.injEq, hsame, buffer_eq_self_iff (hstuck _ g hgroup) hr hold]
        constructor
        · intro hspares _ old' hold'
          rw [hold] at hold'
          cases hold'
          exact hspares
        · intro hspares
          exact hspares hr old hold

/-- A fragment that comes twice is spared. -/
theorem rejected_unchanged_iff_repeated :
    let r := (run Reassembler.step Reassembler.new [.insert 0 (sampleFragment 0 1 true 8)]).1
    (r.insert 0 (sampleFragment 0 1 true 8).header (sampleFragment 0 1 true 8).payload).1 = r ↔
      r.Spares 0 (sampleFragment 0 1 true 8) :=
  rejected_unchanged_iff [.insert 0 (sampleFragment 0 1 true 8)] 0 (sampleFragment 0 1 true 8) .overlap (reap_zero _)
    (by decide +kernel)

/-- The piece from 8 to 16, as the last one and with bytes of its own. -/
def otherPiece : Decoded := { sampleFragment 0 1 false 8 with payload := List.replicate 8 1 }

/-- Two fragments from the wire that are answered by an error, and what they leave behind: other bytes in the backlog and
a total, and an empty group. -/
theorem rejected_fragment_written :
    let r := (run Reassembler.step Reassembler.new [.insert 0 (sampleFragment 0 1 true 8)]).1
    let long := sampleFragment 0 0x1FFF false 8
    (decode (sampleBytes (sampleFragment 0 1 true 8)) = .ok (sampleFragment 0 1 true 8) ∧
      decode (sampleBytes otherPiece) = .ok otherPiece ∧ decode (sampleBytes long) = .ok long) ∧
    (r.reap 0 = r ∧ (r.insert 0 otherPiece.header otherPiece.payload).2 = .err .overlap ∧
      (r.insert 0 otherPiece.header otherPiece.payload).1 ≠ r) ∧
    (Reassembler.new.insert 0 long.header long.payload).2 = .err .oversize ∧
      (Reassembler.new.insert 0 long.header long.payload).1.activeGroups = 1 := by
  refine ⟨by decide +kernel, ⟨reap_zero _, by decide +kernel, ?_⟩, by decide +kernel, by decide +kernel⟩
  intro e
  have htotal := congrArg (fun r : Reassembler => (r.groups.toList.map fun x => x.2.total)) e
  exact absurd htotal (by decide +kernel)

end IPv8Plus.Codec
