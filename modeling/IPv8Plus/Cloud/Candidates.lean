import IPv8Plus.Cloud.Resolver
import IPv8Plus.Lib.Utf8

/-!
# Candidates of a meeting

What a node reports of itself is cut off and filtered before it is stored, and offered to its peers behind what was
observed of it. The filter takes out control characters only: text that is not ASCII passes, and a character of it is up
to four bytes.
-/

namespace IPv8Plus.Cloud.Resolver
open Lib Codec Routing

/-- Visible ASCII. -/
def isVisible (c : Char) : Bool := 0x21 ≤ c.toNat ∧ c.toNat < 0x7F

/-- What a candidate that a node reports should be. -/
def Clean (s : String) : Prop := s ≠ "" ∧ (utf8 s).length ≤ maxCandidateLen ∧ ∀ c ∈ s.toList, isVisible c

/-- What is not cut off is visible, or filtered. -/
def Plain (list : List String) : Prop :=
  ∀ s ∈ list.take maxLocalCandidates, ∀ c ∈ s.toList.take maxCandidateLen, isControl c = false → isVisible c

/-- The observed address with the port of the entry, if there are both. -/
def combined (o tunnelEntry : String) : Option String :=
  match rsplitColon o, rsplitColon tunnelEntry with
  | some (ip, _), some (_, port) => if port = [] then none else some (.ofList (ip ++ ':' :: port))
  | _, _ => none

/-- What is offered of a peer. -/
structure Offer (peer : NodeRecord) (now : Instant) (candidates : List String) : Prop where
  nodup : candidates.Nodup
  length : candidates.length ≤ 2 + maxLocalCandidates
  stale : ∀ o t, peer.observed = some (o, t) → observedMaxAge.val < now - t → candidates ⊆ peer.localCandidates
  first : ∀ o t, peer.observed = some (o, t) → now - t ≤ observedMaxAge.val →
    candidates.head? = some ((combined o peer.tunnelEntry).getD o)
  source : ∀ s ∈ candidates, s ∈ peer.localCandidates ∨
    ∃ o t, peer.observed = some (o, t) ∧ (s = o ∨ combined o peer.tunnelEntry = some s)

section Lists

variable {s : String} {list candidates : List String} {peer : NodeRecord} {now : Instant}

/-- What passes the filter is clean exactly if it is visible. -/
lemma sanitizeCandidate_clean {t : String} (h : sanitizeCandidate s = some t) :
    Clean t ↔ ∀ c ∈ s.toList.take maxCandidateLen, isControl c = false → isVisible c := by
  unfold sanitizeCandidate at h
  dsimp only at h
  split_ifs at h with hempty
  cases h
  generalize hkept : ((s.toList.take maxCandidateLen).filter fun c => !isControl c) = kept at hempty ⊢
  have hmem : ∀ c, c ∈ kept ↔ c ∈ s.toList.take maxCandidateLen ∧ isControl c = false := by
    intro c
    rw [← hkept, List.mem_filter, Bool.not_eq_true']
  unfold Clean
  rw [String.toList_ofList]
  constructor
  · rintro ⟨-, -, hvisible⟩ c hc hcontrol
    exact hvisible c ((hmem c).mpr ⟨hc, hcontrol⟩)
  · intro h
    have hvisible : ∀ c ∈ kept, isVisible c := fun c hc => h c ((hmem c).mp hc).1 ((hmem c).mp hc).2
    refine ⟨?_, ?_, hvisible⟩
    · intro hnil
      apply hempty
      rw [← String.toList_ofList (l := kept), hnil]
      rfl
    -- visible characters take one byte each, so 64 characters are 64 bytes
    · have hascii : ∀ c ∈ (String.ofList kept).toList, c.toNat < 0x80 := by
        intro c hc
        rw [String.toList_ofList] at hc
        have hc' := hvisible c hc
        rw [isVisible, decide_eq_true_eq] at hc'
        omega
      have hle := List.length_filter_le (fun c => !isControl c) (s.toList.take maxCandidateLen)
      rw [hkept] at hle
      rw [length_utf8_of_ascii hascii, String.toList_ofList]
      exact hle.trans (List.length_take_le _ _)

/-- What is stored is clean exactly if it was plain. -/
lemma sanitizeCandidates_clean : (∀ s ∈ sanitizeCandidates list, Clean s) ↔ Plain list := by
  unfold sanitizeCandidates Plain
  constructor
  · intro h s hs c hc hcontrol
    have hmem : c ∈ (s.toList.take maxCandidateLen).filter fun c => !isControl c := by
      rw [List.mem_filter, hcontrol]
      exact ⟨hc, rfl⟩
    have hsome : sanitizeCandidate s = some (.ofList ((s.toList.take maxCandidateLen).filter fun c => !isControl c)) := by
      rw [sanitizeCandidate]
      exact if_neg (List.ne_nil_of_mem hmem)
    exact (sanitizeCandidate_clean hsome).mp (h _ (List.mem_filterMap.mpr ⟨s, hs, hsome⟩)) c hc hcontrol
  · intro h t ht
    obtain ⟨s, hs, hsome⟩ := List.mem_filterMap.mp ht
    exact (sanitizeCandidate_clean hsome).mpr (h s hs)

lemma addCandidates_nodup (h : candidates.Nodup) : (addCandidates candidates list).Nodup := by
  -- the list so far grows with each address
  induction list generalizing candidates with
  | nil => exact h
  | cons c list ih =>
    rw [addCandidates]
    split
    · exact h
    · apply ih
      split
      · exact h
      · next hc => exact List.nodup_append_comm.mp (List.nodup_cons.mpr ⟨hc, h⟩)

lemma length_addCandidates (h : candidates.length ≤ 2 + maxLocalCandidates) :
    (addCandidates candidates list).length ≤ 2 + maxLocalCandidates := by
  induction list generalizing candidates with
  | nil => exact h
  | cons c list ih =>
    rw [addCandidates]
    split
    · exact h
    · next hroom =>
      apply ih
      split
      · exact h
      · rw [List.length_append, List.length_singleton]
        omega

lemma mem_addCandidates (h : s ∈ addCandidates candidates list) : s ∈ candidates ∨ s ∈ list := by
  induction list generalizing candidates with
  | nil => exact .inl h
  | cons c list ih =>
    rw [addCandidates] at h
    split at h
    · exact .inl h
    · rcases ih h with hs | hs
      · split at hs
        · exact .inl hs
        · rcases List.mem_append.mp hs with hs | hs
          · exact .inl hs
          · exact .inr (List.mem_singleton.mp hs ▸ List.mem_cons_self)
      · exact .inr (List.mem_cons_of_mem _ hs)

/-- What stands first stays first. -/
lemma head?_addCandidates (h : candidates.head? = some s) : (addCandidates candidates list).head? = some s := by
  induction list generalizing candidates with
  | nil => exact h
  | cons c list ih =>
    rw [addCandidates]
    split
    · exact h
    · apply ih
      split
      · exact h
      · rw [List.head?_append, h]
        rfl

/-- The observed address, behind its combination with the entry. -/
def ownCandidates (o tunnelEntry : String) : List String :=
  match combined o tunnelEntry with
  | none => [o]
  | some combo => if combo = o then [o] else [combo, o]

lemma observedCandidates_eq : observedCandidates peer now =
    ((peer.freshObserved now).map fun o => ownCandidates o peer.tunnelEntry).getD [] := by
  unfold observedCandidates
  cases peer.freshObserved now with
  | none => rfl
  | some o =>
    rw [Option.map_some, Option.getD_some, ownCandidates, combined]
    dsimp only
    cases rsplitColon o with
    | none => rfl
    | some x =>
      cases rsplitColon peer.tunnelEntry with
      | none => rfl
      | some y =>
        dsimp only
        by_cases hport : y.2 = []
        · rw [if_pos hport, if_pos hport]
        · rw [if_neg hport, if_neg hport]
          dsimp only
          split
          · next heq => rw [heq]
          · rfl

section Own

variable {o tunnelEntry : String}

lemma ownCandidates_nodup : (ownCandidates o tunnelEntry).Nodup := by
  rw [ownCandidates]
  split
  · exact List.nodup_singleton o
  · split
    · exact List.nodup_singleton o
    · next hne => exact List.nodup_cons.mpr ⟨fun h => hne (List.mem_singleton.mp h), List.nodup_singleton o⟩

lemma length_ownCandidates : (ownCandidates o tunnelEntry).length ≤ 2 := by
  rw [ownCandidates]
  split
  · exact Nat.le_succ 1
  · split
    · exact Nat.le_succ 1
    · exact le_rfl

lemma head?_ownCandidates : (ownCandidates o tunnelEntry).head? = some ((combined o tunnelEntry).getD o) := by
  rw [ownCandidates]
  cases combined o tunnelEntry with
  | none => rfl
  | some combo =>
    dsimp only
    split
    · next heq => rw [heq]; rfl
    · rfl

lemma mem_ownCandidates (h : s ∈ ownCandidates o tunnelEntry) : s = o ∨ combined o tunnelEntry = some s := by
  rw [ownCandidates] at h
  cases hcombo : combined o tunnelEntry with
  | none =>
    rw [hcombo] at h
    exact .inl (List.mem_singleton.mp h)
  | some combo =>
    rw [hcombo] at h
    dsimp only at h
    split at h
    · exact .inl (List.mem_singleton.mp h)
    · rcases List.mem_pair.mp h with rfl | rfl
      · exact .inr rfl
      · exact .inl rfl

end Own

lemma freshObserved_eq_some {o : String} (h : peer.freshObserved now = some o) :
    ∃ t, peer.observed = some (o, t) ∧ now - t ≤ observedMaxAge.val := by
  obtain ⟨⟨o', t⟩, hx, rfl⟩ := Option.map_eq_some_iff.mp h
  obtain ⟨hobserved, hage⟩ := Option.filter_eq_some_iff.mp hx
  exact ⟨t, hobserved, of_decide_eq_true hage⟩

lemma freshObserved_some {o : String} {t : Instant} (h : peer.observed = some (o, t)) (hage : now - t ≤ observedMaxAge.val) :
    peer.freshObserved now = some o := by
  rw [NodeRecord.freshObserved, h, Option.filter_some, if_pos (decide_eq_true hage)]
  rfl

/-- The list that is answered. -/
lemma offer (peer : NodeRecord) (now : Instant) :
    Offer peer now (addCandidates (observedCandidates peer now) peer.localCandidates) := by
  rw [observedCandidates_eq]
  cases hfresh : peer.freshObserved now with
  | none =>
    rw [Option.map_none, Option.getD_none]
    refine ⟨addCandidates_nodup List.nodup_nil, length_addCandidates (Nat.zero_le _), ?_, ?_, ?_⟩
    · intro o t _ _ s hs
      exact (mem_addCandidates hs).resolve_left List.not_mem_nil
    · intro o t hobserved hage
      rw [freshObserved_some hobserved hage] at hfresh
      cases hfresh
    · intro s hs
      exact .inl ((mem_addCandidates hs).resolve_left List.not_mem_nil)
  | some o =>
    rw [Option.map_some, Option.getD_some]
    obtain ⟨t, hobserved, hage⟩ := freshObserved_eq_some hfresh
    have hroom := (@length_ownCandidates o peer.tunnelEntry).trans (Nat.le_add_right 2 maxLocalCandidates)
    refine ⟨addCandidates_nodup ownCandidates_nodup, length_addCandidates hroom, ?_, ?_, ?_⟩
    · intro o' t' hobserved' hold
      cases hobserved.symm.trans hobserved'
      exact absurd hage (not_le.mpr hold)
    · intro o' t' hobserved' _
      cases hobserved.symm.trans hobserved'
      exact head?_addCandidates head?_ownCandidates
    · intro s hs
      rcases mem_addCandidates hs with hs | hs
      · exact .inr ⟨o, t, hobserved, mem_ownCandidates hs⟩
      · exact .inl hs

end Lists

variable (S : SigScheme) {D : Type} [Store D] [LawfulStore D]

/-- Every entry that is stored is of this kind. -/
def Stored (Q : Entry → Prop) (d : D) : Prop := ∀ a e, LawfulStore.view d a = some e → Q e

/-- Every candidate that is stored is clean. -/
def Sanitised (d : D) : Prop := Stored (fun e => ∀ s ∈ e.record.localCandidates, Clean s) d

/-- A meeting that is admitted reports what is plain. -/
def ReportsPlain (d : D) : Call → Prop
  | .rendezvous _ spec now => Meets S d spec now → Plain spec.localCandidates
  | _ => True

/-- The list that a call answers is offered of the peer, as it then stands. -/
def Offers (d : D) (c : Call) : Prop := ∀ out, (step S d c).2 = .met (.ok out) →
  ∃ clock spec now peer pe, c = .rendezvous clock spec now ∧ parseAddr spec.peerText = .ok peer ∧
    LawfulStore.view (step S d c).1 peer = some pe ∧ pe.record.isExpired now = false ∧ Offer pe.record now out.peerCandidates

section Lemmas

variable {S} {d : D} {c : Call} {clock : ℕ → ℕ → Reading} {spec : RendezvousSpec} {now : Instant} {addr peer : IPv8Address}
  {me : Entry}

lemma offers_step (hv : LawfulStore.Valid d) (c : Call) : Offers S d c := by
  intro out hout
  cases c with
  | register clock spec now => cases hout
  | resolve clock targetText now => cases hout
  | sweepExpired clock now => cases hout
  | rendezvous clock spec now =>
    have hanswer := Answer.met.inj hout
    rcases rendezvous_cases (S := S) hv clock spec now with ⟨addr, peer, me, -, hpeer, -, heq⟩ | ⟨-, -, -, hno⟩
    · have hmet := view_met hv clock addr peer (meet me spec.localCandidates spec.observed now)
      rw [heq] at hanswer
      obtain ⟨stored, hstored, hanswer⟩ := Outcome.bind_eq_ok.mp hanswer
      obtain ⟨pe, hforce, hanswer⟩ := Outcome.bind_eq_ok.mp hanswer
      cases hanswer
      obtain ⟨rfl, hlive⟩ := inForce_eq_ok hforce
      refine ⟨clock, spec, now, peer, pe, rfl, hpeer, ?_, hlive, offer pe.record now⟩
      rw [step, heq]
      dsimp only
      rw [(hmet peer).2.1]
      exact (lookup_eq_ok (hmet peer).2.2.1 hstored).symm
    · exact absurd hanswer (hno out)

/-- The candidates of a registration are those of the entry before it, or none. -/
lemma recordOf_candidates (spec : RegisterSpec) (key : PublicKey) (existing : Option Entry) (now : Instant) :
    (recordOf spec key existing now).localCandidates = [] ∨ ∃ e, existing = some e ∧
      (recordOf spec key existing now).localCandidates = e.record.localCandidates := by
  unfold recordOf observedOf
  dsimp only
  cases spec.observed with
  | some o => exact .inl rfl
  | none =>
    cases existing with
    | none => exact .inl rfl
    | some e =>
      dsimp only
      split
      · exact .inr ⟨e, rfl, rfl⟩
      · exact .inl rfl

lemma Stored.of_empty {Q : Entry → Prop} (h : ∀ a, LawfulStore.view d a = none) : Stored Q d := by
  intro a e he
  rw [h a] at he
  cases he

lemma Stored.of_view {Q : Entry → Prop} {d' : D} (hs : Stored Q d) (h : LawfulStore.view d' = LawfulStore.view d) :
    Stored Q d' := by
  intro a e he
  rw [h] at he
  exact hs a e he

lemma Stored.of_writes {Q : Entry → Prop} {d' : D} {W : IPv8Address → Entry → Prop} (hs : Stored Q d) (h : Writes d d' W)
    (hw : ∀ addr e, W addr e → Q e) : Stored Q d' := by
  obtain ⟨-, hsame | ⟨addr, e, hwritten, hview⟩⟩ := h
  · exact hs.of_view hsame
  · intro a e' he'
    rw [hview] at he'
    split at he'
    · cases he'
      exact hw addr e hwritten
    · exact hs a e' he'

/-- Only registrations and meetings that are admitted write entries. -/
lemma Stored.step {Q : Entry → Prop} (hv : LawfulStore.Valid d) (hs : Stored Q d)
    (hregister : ∀ clock spec now key existing, c = .register clock spec now → (∀ e, existing = some e → Q e) →
      Q ⟨key, recordOf spec key existing now⟩)
    (hmeet : ∀ clock spec now me, c = .rendezvous clock spec now → Meets S d spec now → Q me →
      Q (meet me spec.localCandidates spec.observed now)) : Stored Q (step S d c).1 := by
  cases c with
  | register clock spec now =>
    apply hs.of_writes (register_writes hv clock spec now)
    rintro addr e ⟨key, -, -, -, rfl⟩
    exact hregister clock spec now key _ rfl (hs addr)
  | rendezvous clock spec now =>
    apply hs.of_writes (rendezvous_writes hv clock spec now)
    rintro addr e ⟨peer, me, haddr, hpeer, hme, rfl⟩
    obtain ⟨hfound, -, -⟩ := identify_eq_ok hme
    exact hmeet clock spec now me rfl ⟨addr, peer, me, haddr, hpeer, hme⟩ (hs addr me (Outcome.ok.inj hfound))
  | resolve clock targetText now => exact hs.of_writes (resolve_writes hv clock targetText now) nofun
  | sweepExpired clock now =>
    intro a e he
    rw [Resolver.step, LawfulStore.sweep_view d clock now a hv] at he
    exact hs a e (Option.filter_eq_some_iff.mp he).1

lemma sanitised_step (hv : LawfulStore.Valid d) (hs : Sanitised d) (hplain : ReportsPlain S d c) :
    Sanitised (step S d c).1 := by
  apply Stored.step hv hs
  · intro clock spec now key existing _ hclean
    rcases recordOf_candidates spec key existing now with hnone | ⟨e, he, hsame⟩
    · rw [hnone]
      nofun
    · rw [hsame]
      exact hclean e he
  · rintro clock spec now me rfl hmeets _
    exact sanitizeCandidates_clean.mpr (hplain hmeets)

/-- What a meeting reports stands in the entry of the node. -/
lemma reportsPlain_of_sanitised (hv : LawfulStore.Valid d) (hs : Sanitised (step S d c).1) : ReportsPlain S d c := by
  cases c with
  | register clock spec now => trivial
  | resolve clock targetText now => trivial
  | sweepExpired clock now => trivial
  | rendezvous clock spec now =>
    intro hmeets
    rcases rendezvous_cases (S := S) hv clock spec now with ⟨addr, peer, me, haddr, hpeer, hme, heq⟩ | ⟨hno, -⟩
    · obtain ⟨-, hafter, -, hview⟩ := view_met hv clock addr peer
        (meet me spec.localCandidates spec.observed now) addr
      apply sanitizeCandidates_clean.mp
      apply hs addr (meet me spec.localCandidates spec.observed now)
      rw [step, heq]
      dsimp only
      rw [hafter, hview, if_pos rfl]
    · exact absurd hmeets hno

lemma valid_call (hv : LawfulStore.Valid d) (c : Call) : LawfulStore.Valid (step S d c).1 := by
  cases c with
  | register clock spec now => exact (register_writes hv clock spec now).1
  | rendezvous clock spec now => exact (rendezvous_writes hv clock spec now).1
  | resolve clock targetText now => exact (resolve_writes hv clock targetText now).1
  | sweepExpired clock now => exact LawfulStore.sweep_valid d clock now hv

end Lemmas


/-- What is stored is clean, and so is what is answered of a peer's own report. -/
structure CleanStep (d : D) (c : Call) : Prop where
  stored : Sanitised (step S d c).1
  returned : ∀ clock spec now out peer pe, c = .rendezvous clock spec now → (step S d c).2 = .met (.ok out) →
    parseAddr spec.peerText = .ok peer → LawfulStore.view (step S d c).1 peer = some pe →
      ∀ s ∈ out.peerCandidates, s ∈ pe.record.localCandidates → Clean s

variable {S}

/-- From an empty store: every list that is answered has no candidate twice, at most ten, the observed address first while
it is fresh and not afterwards. What is stored and answered of a node's own report is clean exactly if the meetings that
are admitted report nothing but visible ASCII and control characters, as far as they are not cut off. -/
theorem candidates_sanitised {d : D} (hvalid : LawfulStore.Valid d) (hempty : ∀ a, LawfulStore.view d a = none)
    (calls : List Call) : Along (step S) (Offers S) d calls ∧
      (Along (step S) (CleanStep S) d calls ↔ Along (step S) (ReportsPlain S) d calls) := by
  have hall : Along (step S) (fun _ _ => True) d calls := along_of_forall fun _ _ => trivial
  have hvalid_step : ∀ (d : D) (c : Call), LawfulStore.Valid d → True → LawfulStore.Valid (step S d c).1 :=
    fun d c hv _ => valid_call hv c
  refine ⟨hall.of_invariant hvalid_step (fun d c hv _ => offers_step hv c) hvalid, ?_, ?_⟩
  · intro hclean
    exact hclean.of_invariant (fun d c hv _ => valid_call hv c) (fun d c hv h => reportsPlain_of_sanitised hv h.stored) hvalid
  · intro hplain
    refine hplain.of_invariant (I := fun d => LawfulStore.Valid d ∧ Sanitised d) ?_ ?_ ⟨hvalid, .of_empty hempty⟩
    · rintro d c ⟨hv, hs⟩ hc
      exact ⟨valid_call hv c, sanitised_step hv hs hc⟩
    · rintro d c ⟨hv, hs⟩ hc
      have hs' := sanitised_step hv hs hc
      exact ⟨hs', fun _ _ _ _ peer pe _ _ _ hpe s _ hmem => hs' peer pe hpe s hmem⟩

lemma plain_sample : Plain ["10.0.0.1:7800"] := by
  intro s hs c hc _
  rw [List.mem_singleton.mp (List.mem_of_mem_take hs)] at hc
  have hvisible : "10.0.0.1:7800".toList.all isVisible = true := by decide +kernel
  exact List.all_eq_true.mp hvisible c (List.mem_of_mem_take hc)

lemma nodeCalls_plain (d : MemStore) : ∀ c ∈ nodeCalls, ReportsPlain sampleSig d c := by
  intro c hc
  rcases List.mem_pair.mp hc with rfl | rfl
  · trivial
  · exact fun _ => plain_sample

lemma view_empty (a : IPv8Address) : LawfulStore.view (⟨∅⟩ : MemStore) a = none :=
  (Std.ExtTreeMap.getElem?_empty : (∅ : AddrMap Entry)[a]? = none)

/-- The node of the earlier calls reports an address. -/
theorem candidates_sanitised_sample :
    Along (step sampleSig) (CleanStep sampleSig) (⟨∅⟩ : MemStore) nodeCalls := by
  have hplain : Along (step sampleSig) (fun _ c => ∀ d, ReportsPlain sampleSig d c) (⟨∅⟩ : MemStore) nodeCalls :=
    along_of_forall fun c hc d => nodeCalls_plain d c hc
  exact (candidates_sanitised (d := (⟨∅⟩ : MemStore)) trivial view_empty nodeCalls).2.mpr (hplain.mono fun d c h => h d)

/-- 64 characters of three bytes each. -/
def wideCandidate : String := .ofList (List.replicate 64 '点')

/-- They are stored as they are reported. -/
theorem candidates_wide :
    ((run (step sampleSig) (⟨∅⟩ : MemStore) [
      registration "192.0.2.1:7800" (sampleSignature nodeKey (resolverRegisterMessage (nodeText 1) nodeKey.val)).val 0,
      meeting [wideCandidate] 1]).1.get (nodeAddr 1)).map (fun e => e.record.localCandidates) = some [wideCandidate] ∧
    (utf8 wideCandidate).length = 192 ∧ ¬ Clean wideCandidate := by
  have hlong : (utf8 wideCandidate).length = 192 := by decide +kernel
  refine ⟨by decide +kernel, hlong, fun h => ?_⟩
  have hle := h.2.1
  rw [hlong] at hle
  exact absurd hle (by decide)

end IPv8Plus.Cloud.Resolver
