import Mathlib

/-!
# Prefix-free encodings

An encoding is prefix-free if no code word is the front of another one, so that a code word can be split off
whatever follows it. The pairs of prefix-free fields are prefix-free. Tags that are prefix-free keep apart messages
of different kinds, whatever the messages are made of.
-/

namespace Lib

variable {α β γ δ : Type}

/-- A code word can be split off whatever follows it. -/
def PrefixFree (f : α → List δ) : Prop := ∀ a b s t, f a ++ s = f b ++ t → a = b ∧ s = t

variable {f : α → List δ} {g : β → List δ}

lemma PrefixFree.injective (h : PrefixFree f) : Function.Injective f := by
  intro a b hab
  have hnil : f a ++ [] = f b ++ [] := by rw [hab]
  exact (h a b [] [] hnil).1

/-- Code words none of which is the front of another one. -/
lemma prefixFree_iff : PrefixFree f ↔ ∀ a b, f a <+: f b → a = b := by
  constructor
  · rintro h a b ⟨s, hs⟩
    have hnil : f a ++ s = f b ++ [] := by rw [hs, List.append_nil]
    exact (h a b s [] hnil).1
  · intro h a b s t hst
    have hab : a = b := by
      rcases List.append_eq_append_iff.mp hst with ⟨u, hu, -⟩ | ⟨u, hu, -⟩
      · exact h a b ⟨u, hu.symm⟩
      · exact (h b a ⟨u, hu.symm⟩).symm
    cases hab
    exact ⟨rfl, List.append_cancel_left hst⟩

/-- One field after the other. -/
lemma PrefixFree.append (hf : PrefixFree f) (hg : PrefixFree g) : PrefixFree fun x : α × β => f x.1 ++ g x.2 := by
  rintro ⟨a, b⟩ ⟨a', b'⟩ s t h
  simp only [List.append_assoc] at h
  obtain ⟨rfl, hrest⟩ := hf _ _ _ _ h
  obtain ⟨rfl, hst⟩ := hg _ _ _ _ hrest
  exact ⟨rfl, hst⟩

/-- Messages that start with a prefix-free tag: different tags, different messages. -/
lemma PrefixFree.tag_eq (hf : PrefixFree f) {tag : γ → α} {message body : γ → List δ}
    (hmessage : ∀ m, message m = f (tag m) ++ body m) {m m' : γ} (h : message m = message m') :
    tag m = tag m' ∧ body m = body m' := by
  rw [hmessage, hmessage] at h
  exact hf _ _ _ _ h

/-! ## Encodings of some values -/

/-- The code words of these values can be split off whatever follows them. -/
def PrefixFreeOn (P : α → Prop) (f : α → List δ) : Prop := ∀ a b s t, P a → P b → f a ++ s = f b ++ t → a = b ∧ s = t

/-- Lists of one length, word by word. -/
lemma PrefixFreeOn.flatMap {P : α → Prop} (hf : PrefixFreeOn P f) {l l' : List α} {s t : List δ} (hl : ∀ a ∈ l, P a)
    (hl' : ∀ a ∈ l', P a) (hlen : l.length = l'.length) (h : l.flatMap f ++ s = l'.flatMap f ++ t) : l = l' ∧ s = t := by
  induction l generalizing l' with
  | nil =>
    cases List.length_eq_zero_iff.mp hlen.symm
    exact ⟨rfl, h⟩
  | cons a l ih =>
    cases l' with
    | nil => cases hlen
    | cons a' l' =>
      simp only [List.flatMap_cons, List.append_assoc] at h
      obtain ⟨rfl, hrest⟩ := hf _ _ _ _ (hl a List.mem_cons_self) (hl' a' List.mem_cons_self) h
      obtain ⟨rfl, hst⟩ := ih (fun b hb => hl b (List.mem_cons_of_mem _ hb)) (fun b hb => hl' b (List.mem_cons_of_mem _ hb))
        (Nat.succ.inj hlen) hrest
      exact ⟨rfl, hst⟩

end Lib
