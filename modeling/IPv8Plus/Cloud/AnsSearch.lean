import IPv8Plus.Cloud.AnsLease
import IPv8Plus.Lib.Ranking

/-!
# Searches and plans

A search goes through all agents and sorts what it finds. The ranking tells any two addresses apart, so the answer is one
list, in whatever order the table is listed. A plan takes the front of that list.
-/

namespace IPv8Plus.Cloud.Ans
open Lib Codec Routing

/-- The comparison of the search: service and validity downwards, and the text of the address upwards. -/
def rank : ResolvedAgent → ResolvedAgent → Ordering :=
  compareLex (fun x y => compareOn ResolvedAgent.qosHint y x)
    (compareLex (fun x y => compareOn ResolvedAgent.notAfter y x) (compareOn fun x => x.addr.toCanonicalString))

/-- Strictly before. -/
def Before (x y : ResolvedAgent) : Prop := y.qosHint < x.qosHint ∨ (x.qosHint = y.qosHint ∧
  (y.notAfter < x.notAfter ∨ (x.notAfter = y.notAfter ∧ compare x.addr.toCanonicalString y.addr.toCanonicalString = .lt)))

/-- What a search is for. -/
structure Candidate (caps : List Bytes) (minQos : UInt8) (excludeLeased : Bool) (now : UInt64) (r : StoredAgent) : Prop where
  live : r.isExpired now = false
  free : excludeLeased = true → r.isLeased now = false
  covers : ∀ c ∈ caps, c ∈ r.card.capabilities
  qos : minQos ≤ r.card.qosHint

/-- What `search_capability` finds in a store that lists its addresses in this order, before it is sorted. -/
def candidatesIn (store : MemStore) (addrs : List IPv8Address) (caps : List Bytes) (minQos : UInt8) (excludeLeased : Bool)
    (now : UInt64) : List ResolvedAgent :=
  let out := (addrs.filterMap store.get).filter fun a => !a.isExpired now && (!excludeLeased || !a.isLeased now)
  (out.filter fun a => AnsService.covers a.card.capabilities caps && decide (minQos ≤ a.card.qosHint)).map AnsService.toResolved

def searchIn (store : MemStore) (addrs : List IPv8Address) (caps : List Bytes) (minQos : UInt8) (excludeLeased : Bool)
    (now : UInt64) : List ResolvedAgent :=
  (candidatesIn store addrs caps minQos excludeLeased now).mergeSort AnsService.precedes

/-- All agents that are looked for, each once, by their rank. -/
structure Found (store : MemStore) (caps : List Bytes) (minQos : UInt8) (excludeLeased : Bool) (now : UInt64)
    (out : List ResolvedAgent) : Prop where
  mem : ∀ x, x ∈ out ↔ ∃ r, store.get x.addr = some r ∧ Candidate caps minQos excludeLeased now r ∧ x = AnsService.toResolved r
  once : (out.map ResolvedAgent.addr).Nodup
  ordered : out.Pairwise Before

section

variable {store : MemStore} {addrs addrs' : List IPv8Address} {caps : List Bytes} {minQos : UInt8} {excludeLeased : Bool}
  {now : UInt64} {x y : ResolvedAgent} {r : StoredAgent}

instance : Std.TransCmp rank := inferInstanceAs (Std.TransCmp (compareLex _ _))

lemma rank_eq_lt : rank x y = .lt ↔ Before x y := by
  unfold rank Before compareLex compareOn
  rw [Ordering.then_eq_lt, Ordering.then_eq_lt, Std.compare_eq_lt, Std.compare_eq_lt, Std.LawfulEqCmp.compare_eq_iff_eq,
    Std.LawfulEqCmp.compare_eq_iff_eq, eq_comm, @eq_comm _ y.notAfter]

/-- Agents of one rank have one address. -/
lemma addr_of_rank_eq (h : rank x y = .eq) : x.addr = y.addr := by
  unfold rank compareLex compareOn at h
  rw [Ordering.then_eq_eq, Ordering.then_eq_eq] at h
  exact toCanonicalString_injective (Std.LawfulEqCmp.compare_eq_iff_eq.mp h.2.2)

/-- A comparison that decides. -/
lemma isLE_then_of_ne {α : Type} [Ord α] [LT α] [LE α] [DecidableLT α] [Std.LawfulOrderOrd α] [Std.LawfulOrderLT α]
    [Std.LawfulEqOrd α] {a b : α} (h : a ≠ b) (o : Ordering) : ((compare a b).then o).isLE = decide (a < b) := by
  cases hab : compare a b with
  | lt => exact (decide_eq_true (Std.compare_eq_lt.mp hab)).symm
  | eq => exact absurd (Std.LawfulEqCmp.compare_eq_iff_eq.mp hab) h
  | gt =>
    refine (decide_eq_false fun hlt => ?_).symm
    rw [Std.compare_eq_lt.mpr hlt] at hab
    cases hab

lemma compare_self_then {α : Type} [Ord α] [Std.ReflOrd α] (a : α) (o : Ordering) : (compare a a).then o = o := by
  have hself : compare a a = .eq := Std.ReflCmp.compare_self
  rw [hself]
  rfl

lemma precedes_eq : AnsService.precedes = fun x y => (rank x y).isLE := by
  -- the three comparisons of the source, each only where those before are undecided
  funext x y
  unfold AnsService.precedes rank compareLex compareOn
  dsimp only
  split
  · next hqos => exact (isLE_then_of_ne (Ne.symm hqos) _).symm
  · next hqos =>
    rw [not_not.mp hqos, compare_self_then]
    split
    · next hafter => exact (isLE_then_of_ne (Ne.symm hafter) _).symm
    · next hafter =>
      rw [not_not.mp hafter, compare_self_then]
      cases compare x.addr.toCanonicalString y.addr.toCanonicalString with
      | lt => rfl
      | eq => rfl
      | gt => rfl

lemma searchIn_eq : searchIn store addrs caps minQos excludeLeased now =
    ranked rank (candidatesIn store addrs caps minQos excludeLeased now) := by
  rw [searchIn, precedes_eq, ranked]

lemma covers_iff {agentCaps required : List Bytes} : AnsService.covers agentCaps required = true ↔ ∀ c ∈ required, c ∈ agentCaps := by
  rw [AnsService.covers, List.all_eq_true]
  refine forall₂_congr fun c _ => ?_
  rw [List.any_eq_true]
  constructor
  · rintro ⟨c', hmem, heq⟩
    exact eq_of_beq heq ▸ hmem
  · intro hmem
    exact ⟨c, hmem, beq_self_eq_true c⟩

/-- The filters of the search let the candidates through. -/
lemma candidate_iff : ((!r.isExpired now && (!excludeLeased || !r.isLeased now)) = true ∧
    (AnsService.covers r.card.capabilities caps && decide (minQos ≤ r.card.qosHint)) = true) ↔
      Candidate caps minQos excludeLeased now r := by
  rw [Bool.and_eq_true, Bool.and_eq_true, Bool.or_eq_true, Bool.not_eq_true', Bool.not_eq_true', Bool.not_eq_true',
    decide_eq_true_eq, covers_iff]
  constructor
  · rintro ⟨⟨hlive, hfree⟩, hcovers, hqos⟩
    refine ⟨hlive, fun hexclude => ?_, hcovers, hqos⟩
    rcases hfree with hno | hfree
    · rw [hno] at hexclude
      cases hexclude
    · exact hfree
  · rintro ⟨hlive, hfree, hcovers, hqos⟩
    refine ⟨⟨hlive, ?_⟩, hcovers, hqos⟩
    cases excludeLeased with
    | true => exact .inr (hfree rfl)
    | false => exact .inl rfl

lemma mem_candidatesIn (hkeyed : Keyed store) (hall : ∀ a, a ∈ addrs ↔ ∃ r, store.get a = some r) :
    x ∈ candidatesIn store addrs caps minQos excludeLeased now ↔
      ∃ r, store.get x.addr = some r ∧ Candidate caps minQos excludeLeased now r ∧ x = AnsService.toResolved r := by
  unfold candidatesIn
  rw [List.mem_map]
  constructor
  · rintro ⟨r, hr, rfl⟩
    obtain ⟨hr, hcovers⟩ := List.mem_filter.mp hr
    obtain ⟨hr, hlive⟩ := List.mem_filter.mp hr
    obtain ⟨a, -, hget⟩ := List.mem_filterMap.mp hr
    refine ⟨r, ?_, candidate_iff.mp ⟨hlive, hcovers⟩, rfl⟩
    rw [AnsService.toResolved, hkeyed a r hget]
    exact hget
  · rintro ⟨r, hget, hcandidate, rfl⟩
    obtain ⟨hlive, hcovers⟩ := candidate_iff.mpr hcandidate
    refine ⟨r, List.mem_filter.mpr ⟨List.mem_filter.mpr ⟨?_, hlive⟩, hcovers⟩, rfl⟩
    exact List.mem_filterMap.mpr ⟨_, (hall _).mpr ⟨r, hget⟩, hget⟩

lemma nodup_candidatesIn (hkeyed : Keyed store) (hall : ∀ a, a ∈ addrs ↔ ∃ r, store.get a = some r) (hn : addrs.Nodup) :
    ((candidatesIn store addrs caps minQos excludeLeased now).map ResolvedAgent.addr).Nodup := by
  unfold candidatesIn
  rw [List.map_map]
  have hnodup : ((addrs.filterMap store.get).map fun r => r.card.addr).Nodup := by
    rw [agents_addr hkeyed fun a ha => (hall a).mp ha]
    exact hn
  exact ((List.filter_sublist.trans List.filter_sublist).map _).nodup hnodup

lemma pairwise_rank {l : List ResolvedAgent} (h : (l.map ResolvedAgent.addr).Nodup) : l.Pairwise fun x y => rank x y ≠ .eq :=
  (List.pairwise_map.mp h).imp fun hne heq => hne (addr_of_rank_eq heq)

/-- A search of a store that lists its addresses in any order. -/
lemma found_searchIn (hkeyed : Keyed store) (horder : addrs.Perm store.addrs) :
    Found store caps minQos excludeLeased now (searchIn store addrs caps minQos excludeLeased now) := by
  have hall : ∀ a, a ∈ addrs ↔ ∃ r, store.get a = some r := fun a => horder.mem_iff.trans mem_addrs
  have hn : addrs.Nodup := horder.nodup_iff.mpr nodup_addrs
  -- equal ranks mean equal addresses, and no address is listed twice: so the ranking is strict
  have honce := @nodup_candidatesIn store addrs caps minQos excludeLeased now hkeyed hall hn
  rw [searchIn_eq]
  refine ⟨fun x => ?_, ?_, ?_⟩
  · rw [ranked_perm.mem_iff]
    exact mem_candidatesIn hkeyed hall
  · exact (ranked_perm.map _).nodup_iff.mpr honce
  · exact (pairwise_ranked_lt (pairwise_rank honce)).imp fun h => rank_eq_lt.mp h

/-- The order in which the store lists its addresses does not matter. -/
lemma searchIn_perm (hkeyed : Keyed store) (horder : addrs.Perm store.addrs) :
    searchIn store addrs caps minQos excludeLeased now = searchIn store store.addrs caps minQos excludeLeased now := by
  have honce := @nodup_candidatesIn store addrs caps minQos excludeLeased now hkeyed
    (fun a => horder.mem_iff.trans mem_addrs) (horder.nodup_iff.mpr nodup_addrs)
  have hperm : (candidatesIn store addrs caps minQos excludeLeased now).Perm
      (candidatesIn store store.addrs caps minQos excludeLeased now) :=
    (((horder.filterMap _).filter _).filter _).map _
  rw [searchIn_eq, searchIn_eq]
  exact ranked_eq_of_perm hperm (pairwise_rank honce)

end

/-- The seconds of a lease: the timeout rounded up, between a second and an hour. -/
def leaseSeconds (task : TaskDescription) : ℕ := max 1 (min ((task.timeoutMs.toNat + 999) / 1000) maxLeaseSecs.toNat)

/-- When the leases of a plan end. The clock does not run over. -/
def leaseEnd (task : TaskDescription) (now : UInt64) : UInt64 := UInt64.ofNat (min (now.toNat + leaseSeconds task) (2 ^ 64 - 1))

/-- The front of the list that is searched. -/
def chosen (s : AnsService) (task : TaskDescription) (now : UInt64) : List ResolvedAgent :=
  (s.searchCapability task.requiredCaps task.qosLevel true now).take task.minCount

/-- There are as many agents as the task wants. -/
def Enough (store : MemStore) (task : TaskDescription) (now : UInt64) : Prop :=
  ∃ l : List IPv8Address, l.Nodup ∧ l.length = task.minCount ∧
    ∀ a ∈ l, ∃ r, store.get a = some r ∧ Candidate task.requiredCaps task.qosLevel true now r

/-- What a plan has done. -/
structure Planned (s : AnsService) (task : TaskDescription) (now : UInt64) (p : Plan) (s' : AnsService) : Prop where
  planId : p.planId = s.nextPlanId
  createdAt : p.createdAt = now
  assignments : p.assignments = (chosen s task now).mapIdx fun i x => ⟨x.addr, i, leaseEnd task now⟩
  leased : ∀ x ∈ chosen s task now, s'.store.get x.addr =
    (s.store.get x.addr).map fun r => { r with lease := some (p.planId, leaseEnd task now) }
  others : ∀ a, a ∉ (chosen s task now).map ResolvedAgent.addr → s'.store.get a = s.store.get a
  names : ∀ name, s'.store.addrOfName name = s.store.addrOfName name

section

variable {s s' : AnsService} {store : MemStore} {task : TaskDescription} {now : UInt64} {p : Plan}

lemma toNat_leaseSecs : (AnsService.leaseSecs task).toNat = leaseSeconds task := by
  have hlt := task.timeoutMs.toNat_lt
  have hdiv : (satAdd task.timeoutMs 999 / 1000).toNat = min (task.timeoutMs.toNat + 999) (2 ^ 64 - 1) / 1000 := by
    rw [UInt64.toNat_div, toNat_satAdd]
    rfl
  have hmax : maxLeaseSecs.toNat = 3600 := rfl
  have hone : (1 : UInt64).toNat = 1 := rfl
  rw [AnsService.leaseSecs, toNat_max, toNat_min, hdiv, leaseSeconds, hmax, hone]
  -- a timeout that is cut off is above an hour
  omega

lemma satAdd_leaseSecs : satAdd now (AnsService.leaseSecs task) = leaseEnd task now := by
  rw [satAdd, toNat_leaseSecs, leaseEnd]

lemma addrOfName_foldl_modify {f : StoredAgent → StoredAgent} {name : Bytes} (l : List IPv8Address) :
    (l.foldl (fun st addr => st.modify addr f) store).addrOfName name = store.addrOfName name := by
  induction l generalizing store with
  | nil => rfl
  | cons a l ih => rw [List.foldl_cons, ih, MemStore.addrOfName_modify]

lemma searchCapability_eq {caps : List Bytes} {minQos : UInt8} {excludeLeased : Bool} :
    s.searchCapability caps minQos excludeLeased now = searchIn s.store s.store.addrs caps minQos excludeLeased now := rfl

lemma enough_iff (hkeyed : Keyed s.store) :
    task.minCount ≤ (s.searchCapability task.requiredCaps task.qosLevel true now).length ↔ Enough s.store task now := by
  have hfound := @found_searchIn s.store s.store.addrs task.requiredCaps task.qosLevel true now hkeyed (List.Perm.refl _)
  rw [← searchCapability_eq] at hfound
  constructor
  · intro hlen
    refine ⟨(chosen s task now).map ResolvedAgent.addr, ?_, ?_, ?_⟩
    · exact ((List.take_sublist _ _).map _).nodup hfound.once
    · rw [List.length_map, chosen, List.length_take, Nat.min_eq_left hlen]
    · intro a ha
      obtain ⟨x, hx, rfl⟩ := List.mem_map.mp ha
      obtain ⟨r, hget, hcandidate, -⟩ := (hfound.mem x).mp (List.mem_of_mem_take hx)
      exact ⟨r, hget, hcandidate⟩
  · rintro ⟨l, hnodup, hlen, hall⟩
    -- agents that are enough are all found, each once
    have hsub : l ⊆ (s.searchCapability task.requiredCaps task.qosLevel true now).map ResolvedAgent.addr := by
      intro a ha
      obtain ⟨r, hget, hcandidate⟩ := hall a ha
      have haddr : (AnsService.toResolved r).addr = a := hkeyed a r hget
      refine List.mem_map.mpr ⟨AnsService.toResolved r, (hfound.mem _).mpr ⟨r, ?_, hcandidate, rfl⟩, haddr⟩
      rw [haddr]
      exact hget
    have hle := (List.subperm_of_subset hnodup hsub).length_le
    rw [List.length_map, hlen] at hle
    exact hle

lemma planTask_isOk : (∃ p, (s.planTask task now).2 = .ok p) ↔ validateTags task.requiredCaps = .ok () ∧ 1 ≤ task.minCount ∧
    task.minCount ≤ (s.searchCapability task.requiredCaps task.qosLevel true now).length := by
  unfold AnsService.planTask
  cases validateTags task.requiredCaps with
  | error e => exact iff_of_false (fun h => by obtain ⟨p, h⟩ := h; cases h) fun h => by cases h.1
  | ok u =>
    dsimp only
    split
    · next hzero => exact iff_of_false (fun h => by obtain ⟨p, h⟩ := h; cases h) fun h => by omega
    · next hpos =>
      split
      · next hfew => exact iff_of_false (fun h => by obtain ⟨p, h⟩ := h; cases h) fun h => by omega
      · next henough => exact iff_of_true ⟨_, rfl⟩ ⟨rfl, Nat.one_le_iff_ne_zero.mpr hpos, not_lt.mp henough⟩

/-- A plan that succeeds leases the front of the list, and nothing else. -/
lemma planned_of_ok (hkeyed : Keyed s.store) (h : s.planTask task now = (s', .ok p)) : Planned s task now p s' := by
  unfold AnsService.planTask at h
  split at h
  · cases h
  split at h
  · cases h
  dsimp only at h
  split at h
  · cases h
  · rw [satAdd_leaseSecs] at h
    cases h
    have hchosen : ((chosen s task now).map ResolvedAgent.addr).Nodup :=
      ((List.take_sublist _ _).map _).nodup (nodup_candidates hkeyed)
    refine ⟨rfl, rfl, ?_, ?_, ?_, ?_⟩
    · refine List.ext_getElem? fun i => ?_
      rw [List.getElem?_mapIdx, List.getElem?_mapIdx, List.getElem?_map, Option.map_map, chosen]
      rfl
    · intro x hx
      exact get_foldl_modify_mem hchosen (List.mem_map_of_mem hx)
    · intro a ha
      exact get_foldl_modify ha
    · intro name
      exact addrOfName_foldl_modify _

lemma planTask_isOk_iff (hkeyed : Keyed s.store) : (∃ p, (s.planTask task now).2 = .ok p) ↔
    validateTags task.requiredCaps = .ok () ∧ 1 ≤ task.minCount ∧ Enough s.store task now := by
  rw [planTask_isOk, enough_iff hkeyed]

end

/-- The cards of a service stand under their addresses, whatever is called. Where they do, a search answers all agents that
are looked for, each once and in the one order of the ranking, however the store lists them. A plan is made exactly if the
tags are valid and there are enough agents, of which at least one is wanted: then the first ones are leased to it, until the
timeout, rounded up and bounded, has passed or the clock ends. No other agent is changed, and nothing if there is no plan. -/
theorem search_and_plan_exact :
    (∀ (S : SigScheme) (sha256 : Bytes → Arr UInt8 32) (anchorPub : PublicKey) (namespaceRoot : Bytes) (ops : List Call),
      Keyed (run (step S sha256) (.new anchorPub namespaceRoot) ops).1.store) ∧
    ∀ s : AnsService, Keyed s.store →
      (∀ caps minQos excludeLeased now,
        Found s.store caps minQos excludeLeased now (s.searchCapability caps minQos excludeLeased now) ∧
        ∀ order : List IPv8Address, order.Perm s.store.addrs →
          searchIn s.store order caps minQos excludeLeased now = s.searchCapability caps minQos excludeLeased now) ∧
      ∀ task now,
        ((∃ p, (s.planTask task now).2 = .ok p) ↔
          validateTags task.requiredCaps = .ok () ∧ 1 ≤ task.minCount ∧ Enough s.store task now) ∧
        (∀ e, (s.planTask task now).2 = .error e → (s.planTask task now).1 = s) ∧
        ∀ p, (s.planTask task now).2 = .ok p → Planned s task now p (s.planTask task now).1 := by
  constructor
  · intro S sha256 anchorPub namespaceRoot ops
    have hkept : ∀ (s : AnsService) (c : Call), Keyed s.store → Keyed (step S sha256 s c).1.store := fun s c h => h.step
    exact invariant_run_all (I := fun s : AnsService => Keyed s.store) hkept .empty ops
  · intro s hkeyed
    refine ⟨fun caps minQos excludeLeased now => ⟨?_, ?_⟩, fun task now => ⟨planTask_isOk_iff hkeyed, ?_, ?_⟩⟩
    · exact found_searchIn hkeyed (List.Perm.refl _)
    · intro order horder
      exact searchIn_perm hkeyed horder
    · intro e he
      exact planTask_error (Prod.ext rfl he)
    · intro p hp
      exact planned_of_ok hkeyed (Prod.ext rfl hp)

/-- A service that one agent has registered with. -/
def oneAgent : AnsService := (run (step sampleSig sampleHash) (.new (sampleKey 0) []) [sampleRegister 0xFFFFFFFFFFFFFFFF 0]).1

theorem search_and_plan_exact_sample :
    Found oneAgent.store [[0x61]] 0 true 5 (oneAgent.searchCapability [[0x61]] 0 true 5) := by
  have hkeyed : Keyed oneAgent.store := by
    rw [oneAgent]
    exact search_and_plan_exact.1 sampleSig sampleHash (sampleKey 0) [] [sampleRegister 0xFFFFFFFFFFFFFFFF 0]
  exact ((search_and_plan_exact.2 oneAgent hkeyed).1 [[0x61]] 0 true 5).1

/-- A second before the end of the clock, a lease for five seconds ends with the clock. -/
theorem lease_cut_off : leaseSeconds (sampleTask 5000) = 5 ∧
    (oneAgent.planTask (sampleTask 5000) 0xFFFFFFFFFFFFFFFE).2 =
      .ok ⟨1, [⟨(sampleCard 1 [] 0).addr, 0, 0xFFFFFFFFFFFFFFFF⟩], 0xFFFFFFFFFFFFFFFE⟩ ∧
    (0xFFFFFFFFFFFFFFFF : UInt64).toNat ≠ (0xFFFFFFFFFFFFFFFE : UInt64).toNat + leaseSeconds (sampleTask 5000) :=
  ⟨by decide, by decide +kernel, by decide⟩

end IPv8Plus.Cloud.Ans
