import IPv8Plus.Compat.WholeSegment

/-!
# Pieces of segments

Neither the fragment fields nor the announced length are read before a packet is clamped: what looks like a SYN in a later
fragment is rewritten, and the checksum of a first fragment, or of a packet that was cut off, is computed without the bytes
that are not there.
-/

namespace IPv8Plus.Compat
open Lib

/-- Fewer bytes than the packet announces. -/
def Truncated (p : Bytes) : Prop := (IsV4 p ∧ p.length < (word p 2).toNat) ∨ (IsV6 p ∧ p.length < 40 + (word p 4).toNat)

/-- What clamping may do to a packet: only the header of a SYN is written, in a packet that starts with it, and the checksum
is computed over the whole segment. -/
structure OnlySyn (p : Bytes) (target : UInt16) : Prop where
  header : ∀ p' b, clampMss p target = .ok (p', b) → p' ≠ p →
    ∃ l4 pos, MssAt p l4 pos ∧ ∀ i, ¬ Patched p l4 pos i → octet p' i = octet p i
  start : ∀ p' b, clampMss p target = .ok (p', b) → p' ≠ p → ¬ NonFirst p
  whole : ∀ p' b, clampMss p target = .ok (p', b) → p' ≠ p → ¬ Fragment p ∧ ¬ Truncated p

/-- The bytes behind the headers look like a SYN with a maximum segment size above the target. -/
def AboveTarget (p : Bytes) (target : UInt16) : Prop := ∃ l4 pos, MssAt p l4 pos ∧ target < word p (pos + 2)

variable {p p' : Bytes} {target : UInt16} {b : Bool} {l4 pos : Nat}

lemma MssAt.clamped_ne (h : MssAt p l4 pos) (habove : target < word p (pos + 2)) : clamped p l4 pos target ≠ p := by
  intro heq
  have hvalue := h.word_clamped target
  rw [heq] at hvalue
  rw [hvalue] at habove
  exact UInt16.lt_irrefl _ habove

lemma clampMss_changes (h : AboveTarget p target) : ∃ p' b, clampMss p target = .ok (p', b) ∧ p' ≠ p := by
  obtain ⟨l4, pos, hmss, habove⟩ := h
  rcases clampMss_cases p target with ⟨b, -, hbelow⟩ | ⟨l4', pos', hmss', habove', heq⟩
  · exact absurd habove (UInt16.not_lt.mpr (hbelow l4 pos hmss))
  · exact ⟨_, true, heq, hmss'.clamped_ne habove'⟩

lemma changed_of_clampMss (h : clampMss p target = .ok (p', b)) (hne : p' ≠ p) :
    ∃ l4 pos, MssAt p l4 pos ∧ target < word p (pos + 2) ∧ p' = clamped p l4 pos target := by
  rcases clampMss_cases p target with ⟨b', heq, -⟩ | ⟨l4, pos, hmss, habove, heq⟩
  · rw [heq] at h
    cases h
    exact absurd rfl hne
  · rw [heq] at h
    cases h
    exact ⟨l4, pos, hmss, habove, rfl⟩

/-- A piece of a segment, where its bytes look like a SYN to clamp. -/
def ClampsPiece (p : Bytes) (target : UInt16) : Prop := (Fragment p ∨ Truncated p) ∧ AboveTarget p target

lemma ClampsPiece.not_onlySyn (h : ClampsPiece p target) : ¬ OnlySyn p target := by
  intro honly
  obtain ⟨p', b, heq, hne⟩ := clampMss_changes h.2
  obtain ⟨hfragment, htruncated⟩ := honly.whole p' b heq hne
  exact h.1.elim hfragment htruncated

theorem onlySyn_iff (p : Bytes) (target : UInt16) : OnlySyn p target ↔ ¬ ClampsPiece p target := by
  constructor
  · intro honly hpiece
    exact hpiece.not_onlySyn honly
  · intro h
    have hwhole : ∀ p' b, clampMss p target = .ok (p', b) → p' ≠ p → ¬ Fragment p ∧ ¬ Truncated p := by
      intro p' b heq hne
      obtain ⟨l4, pos, hmss, habove, -⟩ := changed_of_clampMss heq hne
      exact ⟨fun hfragment => h ⟨.inl hfragment, l4, pos, hmss, habove⟩, fun htruncated => h ⟨.inr htruncated, l4, pos, hmss, habove⟩⟩
    refine ⟨fun p' b heq hne => ?_, fun p' b heq hne hlater => (hwhole p' b heq hne).1 (NonFirst.fragment hlater), hwhole⟩
    obtain ⟨l4, pos, hmss, -, rfl⟩ := changed_of_clampMss heq hne
    exact ⟨l4, pos, hmss, fun i => octet_clamped⟩

/-- Bytes that look like a SYN with a maximum segment size of 1460. -/
def synBytes : Bytes := [4, 210, 0, 80, 0, 0, 0, 1, 0, 0, 0, 0, 0x60, 2, 0xFF, 0xFF, 0, 0, 0, 0, 2, 4, 0x05, 0xB4]

/-- A fragment 185 units into its data, and the first fragment of a packet of which more follows. -/
def laterSyn : Bytes := [0x45, 0, 0, 44, 0, 7, 0, 185, 64, 6, 0, 0, 10, 0, 0, 1, 10, 0, 0, 2] ++ synBytes

@[inherit_doc laterSyn] def firstSyn : Bytes := [0x45, 0, 0, 44, 0, 7, 0x20, 0, 64, 6, 0, 0, 10, 0, 0, 1, 10, 0, 0, 2] ++ synBytes

theorem pieces_clamped : ¬ OnlySyn laterSyn 1352 ∧ ¬ OnlySyn firstSyn 1352 := by
  constructor
  · have hmss : MssAt laterSyn 20 40 :=
      ⟨⟨.v4 (by decide) (by decide) (by decide), by decide, by decide, by decide, by decide⟩, .here (by decide) (by decide) (by decide)⟩
    exact ClampsPiece.not_onlySyn ⟨.inl (.inl ⟨by decide, by decide⟩), 20, 40, hmss, by decide⟩
  · have hmss : MssAt firstSyn 20 40 :=
      ⟨⟨.v4 (by decide) (by decide) (by decide), by decide, by decide, by decide, by decide⟩, .here (by decide) (by decide) (by decide)⟩
    exact ClampsPiece.not_onlySyn ⟨.inl (.inl ⟨by decide, by decide⟩), 20, 40, hmss, by decide⟩

end IPv8Plus.Compat
