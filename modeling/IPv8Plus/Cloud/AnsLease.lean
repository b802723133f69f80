import IPv8Plus.Cloud.AnsIndex

/-!
# Leases

An agent that is assigned to a plan is leased to it until the lease is over or the plan reports it done. The lease is
part of the agent's record: it is lost when the record is removed because the card has expired before the lease, and an
agent that registers again can be planned a second time.
-/

namespace IPv8Plus.Cloud.Ans
open Lib Codec Routing

abbrev Event := Call × Answer

/-- The plan has reported the agent done. -/
def Reported (planId : UInt64) (addr : IPv8Address) (hist : List Event) : Prop :=
  ∃ now, (Call.reportDone planId addr now, Answer.reported (.ok ())) ∈ hist

/-- Both plans hold the agent at some time. -/
def Overlap (p q : Plan) (x y : Assignment) : Prop :=
  ∃ t, p.createdAt ≤ t ∧ t < x.leaseExpiry ∧ q.createdAt ≤ t ∧ t < y.leaseExpiry

/-- No two plans have the same number or hold the same agent at the same time, unless the earlier one has reported it. -/
def Exclusive (hist : List Event) : Prop :=
  ∀ before c p between c' q after,
    hist = before ++ (c, .planned (.ok p)) :: (between ++ (c', .planned (.ok q)) :: after) →
      p.planId ≠ q.planId ∧ ∀ x ∈ p.assignments, ∀ y ∈ q.assignments, x.addr = y.addr →
        Reported p.planId x.addr between ∨ ¬ Overlap p q x y

/-- Every plan assigns different agents. -/
def Distinct (hist : List Event) : Prop :=
  ∀ c p, (c, Answer.planned (.ok p)) ∈ hist → (p.assignments.map Assignment.addr).Nodup

/-- The lease outlives the card. -/
def Outlives (r : StoredAgent) (now : UInt64) : Prop := r.isExpired now = true ∧ r.isLeased now = true

/-- No record is removed while its lease runs, and the numbers of the plans do not run over. -/
def Kept (S : SigScheme) (sha256 : Bytes → Arr UInt8 32) (s : AnsService) : Call → Prop
  | .register spec now => ∀ addr pubkey cardHash holder r, s.checkSpec S sha256 spec now = .ok (addr, pubkey, cardHash) →
      s.store.addrOfName spec.card.name = some holder → holder ≠ addr → s.store.get holder = some r → ¬ Outlives r now
  | .reap now => ∀ a r, s.store.get a = some r → ¬ Outlives r now
  | .planTask _ _ => s.nextPlanId.toNat + 1 < 2 ^ 64
  | _ => True

/-- What is known of an assignment later: the plan has reported, or the lease is over, or the agent's record has it. -/
def Booked (s : AnsService) (later hist : List Event) (planId : UInt64) (x : Assignment) : Prop :=
  Reported planId x.addr later ∨ (∃ e ∈ hist, x.leaseExpiry ≤ e.1.now) ∨
    ∃ r, s.store.get x.addr = some r ∧ r.lease = some (planId, x.leaseExpiry)

/-- The cards are stored under their addresses. -/
def Keyed (m : MemStore) : Prop := ∀ a r, m.get a = some r → r.card.addr = a

structure Leases (s : AnsService) (hist : List Event) : Prop where
  keyed : Keyed s.store
  numbered : ∀ {c p}, (c, Answer.planned (.ok p)) ∈ hist → p.planId.toNat < s.nextPlanId.toNat
  booked : ∀ {before c p later}, hist = before ++ (c, .planned (.ok p)) :: later →
    ∀ x ∈ p.assignments, Booked s later hist p.planId x
  exclusive : Exclusive hist
  distinct : Distinct hist

variable {S : SigScheme} {sha256 : Bytes → Arr UInt8 32} {s s' : AnsService} {store store' : MemStore} {spec : RegisterSpec}
  {now : UInt64} {name : Bytes} {addr a : IPv8Address} {c : Call} {ops : List Call} {hist : List Event} {r : StoredAgent}
  {lease : UInt64 × UInt64} {task : TaskDescription} {p : Plan} {planId : UInt64}

/-! ## What a step does to a lease -/

/-- The lease is still there, or over. -/
def StillLeased (store : MemStore) (now : UInt64) (a : IPv8Address) (lease : UInt64 × UInt64) : Prop :=
  lease.2 ≤ now ∨ ∃ r, store.get a = some r ∧ r.lease = some lease

lemma not_leased (h : r.isLeased now = false) (hl : r.lease = some lease) : lease.2 ≤ now := by
  rw [StoredAgent.isLeased, hl, Option.any_some, decide_eq_false_iff_not] at h
  exact UInt64.not_lt.mp h

lemma not_outlives (h : ¬ Outlives r now) (hexp : r.isExpired now = true) (hl : r.lease = some lease) : lease.2 ≤ now :=
  not_leased (Bool.eq_false_iff.mpr fun hleased => h ⟨hexp, hleased⟩) hl

lemma takeName_lease (htake : AnsService.takeName s.store spec.card.name addr now = .ok store) {pubkey : PublicKey}
    {cardHash : Arr UInt8 16} (hcheck : s.checkSpec S sha256 spec now = .ok (addr, pubkey, cardHash))
    (hkept : Kept S sha256 s (.register spec now)) (hr : s.store.get a = some r) (hl : r.lease = some lease) :
    StillLeased store now a lease := by
  rcases AnsService.takeName_cases htake with ⟨rfl, -⟩ | ⟨holder, hne, hholder, hexpired, rfl⟩
  · exact .inr ⟨r, hr, hl⟩
  · by_cases ha : holder = a
    · subst ha
      exact .inl (not_outlives (hkept _ _ _ _ _ hcheck hholder hne hr) (hexpired r hr) hl)
    · exact .inr ⟨r, by rw [MemStore.get_remove, if_neg ha, hr], hl⟩

lemma register_lease (hkept : Kept S sha256 s (.register spec now)) (hr : s.store.get a = some r) (hl : r.lease = some lease) :
    StillLeased (s.register S sha256 spec now).1.store now a lease := by
  cases hreg : s.register S sha256 spec now with
  | mk s' result =>
    rcases AnsService.register_cases hreg with ⟨rfl, -⟩ | ⟨addr, pubkey, cardHash, store, hcheck, htake, hcases⟩
    · exact .inr ⟨r, hr, hl⟩
    · have htaken := takeName_lease htake hcheck hkept hr hl
      rcases hcases with ⟨rfl, -⟩ | ⟨-, -, rfl⟩
      · exact htaken
      · rcases htaken with hover | ⟨r', hr', hl'⟩
        · exact .inl hover
        · by_cases ha : addr = a
          · subst ha
            refine .inr ⟨_, by rw [MemStore.get_put, if_pos rfl], ?_⟩
            dsimp only
            rw [hr', Option.bind_some, hl']
          · exact .inr ⟨r', by rw [MemStore.get_put, if_neg ha, hr'], hl'⟩

/-- What a change at some addresses leaves elsewhere. -/
lemma get_foldl_modify {f : StoredAgent → StoredAgent} {l : List IPv8Address} (h : a ∉ l) :
    (l.foldl (fun st addr => st.modify addr f) store).get a = store.get a := by
  induction l generalizing store with
  | nil => rfl
  | cons b l ih =>
    obtain ⟨hne, hrest⟩ := not_or.mp (List.mem_cons.not.mp h)
    rw [List.foldl_cons, ih hrest, MemStore.get_modify, if_neg (Ne.symm hne)]

/-- A change at different addresses is made once at each. -/
lemma get_foldl_modify_mem {f : StoredAgent → StoredAgent} {l : List IPv8Address} (hl : l.Nodup) (h : a ∈ l) :
    (l.foldl (fun st addr => st.modify addr f) store).get a = (store.get a).map f := by
  induction l generalizing store with
  | nil => cases h
  | cons b l ih =>
    obtain ⟨hb, hrest⟩ := List.nodup_cons.mp hl
    rw [List.foldl_cons]
    rcases List.mem_cons.mp h with rfl | hmem
    · rw [get_foldl_modify hb, MemStore.get_modify, if_pos rfl]
    · have hne : b ≠ a := fun he => hb (he ▸ hmem)
      rw [ih hrest hmem, MemStore.get_modify, if_neg hne]

lemma get_foldl_remove {l : List IPv8Address} : (l.foldl MemStore.remove store).get a = if a ∈ l then none else store.get a := by
  induction l generalizing store with
  | nil => rfl
  | cons b l ih =>
    rw [List.foldl_cons, ih, MemStore.get_remove]
    by_cases hmem : a ∈ l
    · rw [if_pos hmem, if_pos (List.mem_cons_of_mem _ hmem)]
    · by_cases hb : b = a
      · rw [if_neg hmem, if_pos hb, if_pos (hb ▸ List.mem_cons_self)]
      · rw [if_neg hmem, if_neg hb, if_neg fun h => (List.mem_cons.mp h).elim (hb ∘ Eq.symm) hmem]

lemma mem_addrs : a ∈ store.addrs ↔ ∃ r, store.get a = some r := by
  rw [MemStore.addrs, Std.ExtTreeMap.mem_keys, Std.ExtTreeMap.mem_iff_isSome_getElem?, Option.isSome_iff_exists]
  exact Iff.rfl

lemma nodup_addrs : store.addrs.Nodup :=
  Std.ExtTreeMap.distinct_keys.imp fun hne he => hne (Std.LawfulEqCmp.compare_eq_iff_eq.mpr he)

lemma release_card : (AnsService.release now r).card = r.card := by
  rw [AnsService.release]
  split
  · rfl
  · rfl

lemma reap_lease (hkept : Kept S sha256 s (.reap now)) (hr : s.store.get a = some r) (hl : r.lease = some lease) :
    StillLeased (s.reap now).1.store now a lease := by
  by_cases hover : lease.2 ≤ now
  · exact .inl hover
  · have hreleased : AnsService.release now r = r := by
      rw [AnsService.release, hl, Option.any_some, if_neg (by rw [decide_eq_true_eq]; exact hover)]
    have hget : (s.store.addrs.foldl (fun st addr => st.modify addr (AnsService.release now)) s.store).get a = some r := by
      rw [get_foldl_modify_mem nodup_addrs (mem_addrs.mpr ⟨r, hr⟩), hr, Option.map_some, hreleased]
    refine .inr ⟨r, ?_, hl⟩
    rw [AnsService.reap]
    dsimp only
    rw [get_foldl_remove, if_neg ?_, hget]
    intro hmem
    have hexp := (List.mem_filter.mp hmem).2
    rw [hget, Option.any_some] at hexp
    exact hover (not_outlives (hkept a r hr) hexp hl)

/-- Only the plan itself ends the lease early. -/
lemma reportDone_lease (hr : s.store.get a = some r) (hl : r.lease = some lease) (planId : UInt64) (addr : IPv8Address)
    (now : UInt64) :
    StillLeased (s.reportDone planId addr).1.store now a lease ∨
      (addr = a ∧ planId = lease.1 ∧ (s.reportDone planId addr).2 = .ok ()) := by
  by_cases ha : addr = a
  · subst ha
    rw [AnsService.reportDone, hr]
    dsimp only
    rw [hl, Option.any_some]
    split
    · next hplan => exact .inr ⟨rfl, (of_decide_eq_true hplan).symm, rfl⟩
    · exact .inl (.inr ⟨r, hr, hl⟩)
  · refine .inl (.inr ⟨r, ?_, hl⟩)
    rw [AnsService.reportDone]
    split
    · exact hr
    · split
      · dsimp only
        rw [MemStore.get_modify, if_neg ha, hr]
      · exact hr

/-! ## Plans -/

/-- The agents in the order of their addresses. -/
lemma agents_addr (hkeyed : Keyed store) {l : List IPv8Address} (hl : ∀ a ∈ l, ∃ r, store.get a = some r) :
    (l.filterMap store.get).map (fun r => r.card.addr) = l := by
  induction l with
  | nil => rfl
  | cons b l ih =>
    obtain ⟨r, hr⟩ := hl b List.mem_cons_self
    rw [List.filterMap_cons_some hr, List.map_cons, hkeyed b r hr, ih fun a ha => hl a (List.mem_cons_of_mem _ ha)]

section Plan

variable (hkeyed : Keyed s.store)
include hkeyed

lemma nodup_candidates {caps : List Bytes} {minQos : UInt8} {excludeLeased : Bool} :
    ((s.searchCapability caps minQos excludeLeased now).map ResolvedAgent.addr).Nodup := by
  rw [AnsService.searchCapability, ((List.mergeSort_perm _ _).map _).nodup_iff, List.map_map]
  have hnodup : ((s.store.addrs.filterMap s.store.get).map fun r => r.card.addr).Nodup := by
    rw [agents_addr hkeyed fun a ha => mem_addrs.mp ha]
    exact nodup_addrs
  exact ((List.filter_sublist.trans List.filter_sublist).map _).nodup hnodup

/-- A candidate is an agent that is not leased. -/
lemma mem_candidates {caps : List Bytes} {minQos : UInt8} {x : ResolvedAgent}
    (hx : x ∈ s.searchCapability caps minQos true now) : ∃ r, s.store.get x.addr = some r ∧ r.isLeased now = false := by
  rw [AnsService.searchCapability, List.mem_mergeSort, List.mem_map] at hx
  obtain ⟨r, hr, rfl⟩ := hx
  obtain ⟨hr, hfilter⟩ := List.mem_filter.mp (List.mem_filter.mp hr).1
  obtain ⟨a, -, hget⟩ := List.mem_filterMap.mp hr
  rw [Bool.and_eq_true, Bool.not_true, Bool.false_or, Bool.not_eq_true', Bool.not_eq_true'] at hfilter
  refine ⟨r, ?_, hfilter.2⟩
  rw [AnsService.toResolved, hkeyed a r hget]
  exact hget

/-- A plan that succeeds has the next number, and leases different agents that were not leased. -/
lemma planTask_ok (h : s.planTask task now = (s', .ok p)) : p.planId = s.nextPlanId ∧ p.createdAt = now ∧
    s'.nextPlanId = s.nextPlanId + 1 ∧ (p.assignments.map Assignment.addr).Nodup ∧
    (∀ x ∈ p.assignments, (∃ r, s.store.get x.addr = some r ∧ r.isLeased now = false) ∧
      ∃ r, s'.store.get x.addr = some r ∧ r.lease = some (p.planId, x.leaseExpiry)) ∧
    ∀ a, a ∉ p.assignments.map Assignment.addr → s'.store.get a = s.store.get a := by
  rw [AnsService.planTask] at h
  split at h
  · cases h
  split at h
  · cases h
  dsimp only at h
  split at h
  · cases h
  · next henough =>
    cases h
    have hchosen : (((s.searchCapability task.requiredCaps task.qosLevel true now).take task.minCount).map ResolvedAgent.addr).Nodup :=
      ((List.take_sublist _ _).map _).nodup (nodup_candidates hkeyed)
    have hfree : ∀ a ∈ ((s.searchCapability task.requiredCaps task.qosLevel true now).take task.minCount).map ResolvedAgent.addr,
        ∃ r, s.store.get a = some r ∧ r.isLeased now = false := by
      intro a ha
      obtain ⟨x, hx, rfl⟩ := List.mem_map.mp ha
      exact mem_candidates hkeyed (List.mem_of_mem_take hx)
    generalize ((s.searchCapability task.requiredCaps task.qosLevel true now).take task.minCount).map ResolvedAgent.addr =
      chosen at hchosen hfree
    have haddrs : (chosen.mapIdx fun i addr => (⟨addr, i, satAdd now (AnsService.leaseSecs task)⟩ : Assignment)).map
        Assignment.addr = chosen := by
      refine List.ext_getElem? fun i => ?_
      rw [List.getElem?_map, List.getElem?_mapIdx, Option.map_map]
      exact congrFun Option.map_id _
    refine ⟨rfl, rfl, rfl, by rw [haddrs]; exact hchosen, fun x hx => ?_, fun a ha => ?_⟩
    · obtain ⟨i, hi, rfl⟩ := List.mem_mapIdx.mp hx
      have hmem : chosen[i] ∈ chosen := List.getElem_mem hi
      obtain ⟨r, hr, hlease⟩ := hfree _ hmem
      refine ⟨⟨r, hr, hlease⟩, { r with lease := some (s.nextPlanId, satAdd now (AnsService.leaseSecs task)) }, ?_, rfl⟩
      dsimp only
      rw [get_foldl_modify_mem hchosen hmem, hr, Option.map_some]
    · rw [haddrs] at ha
      exact get_foldl_modify ha

end Plan

lemma planTask_error {e : AnsError} (h : s.planTask task now = (s', .error e)) : s' = s := by
  rw [AnsService.planTask] at h
  split at h
  · cases h
    rfl
  split at h
  · cases h
    rfl
  dsimp only at h
  split at h
  · cases h
    rfl
  · cases h

/-! ## Runs -/

namespace Keyed

lemma empty : Keyed ⟨∅, ∅⟩ := by
  intro a r hr
  have hnone : MemStore.get ⟨∅, ∅⟩ a = none := Std.ExtTreeMap.getElem?_empty
  rw [hnone] at hr
  cases hr

lemma modify (h : Keyed store) {f : StoredAgent → StoredAgent} (hf : ∀ r, (f r).card = r.card) : Keyed (store.modify addr f) := by
  intro a r hr
  rw [MemStore.get_modify] at hr
  split at hr
  · next ha =>
    subst ha
    obtain ⟨r', hr', rfl⟩ := Option.map_eq_some_iff.mp hr
    rw [hf]
    exact h addr r' hr'
  · exact h a r hr

lemma remove (h : Keyed store) : Keyed (store.remove addr) := by
  intro a r hr
  rw [MemStore.get_remove] at hr
  split at hr
  · cases hr
  · exact h a r hr

lemma put (h : Keyed store) (hr : r.card.addr = addr) : Keyed (store.put addr r) := by
  intro a r' hr'
  rw [MemStore.get_put] at hr'
  split at hr'
  · next ha =>
    cases hr'
    exact hr.trans ha
  · exact h a r' hr'

lemma foldl_modify (h : Keyed store) {f : StoredAgent → StoredAgent} (hf : ∀ r, (f r).card = r.card) (l : List IPv8Address) :
    Keyed (l.foldl (fun st addr => st.modify addr f) store) := by
  induction l generalizing store with
  | nil => exact h
  | cons b l ih => exact ih (h.modify hf)

lemma foldl_remove (h : Keyed store) (l : List IPv8Address) : Keyed (l.foldl MemStore.remove store) := by
  induction l generalizing store with
  | nil => exact h
  | cons b l ih => exact ih h.remove

lemma register (h : Keyed s.store) : Keyed (s.register S sha256 spec now).1.store := by
  cases hreg : s.register S sha256 spec now with
  | mk s' result =>
    rcases AnsService.register_cases hreg with ⟨rfl, -⟩ | ⟨addr, pubkey, cardHash, store, hcheck, htake, hcases⟩
    · exact h
    · have hstore : Keyed store := by
        rcases AnsService.takeName_cases htake with ⟨rfl, -⟩ | ⟨holder, -, -, -, rfl⟩
        · exact h
        · exact h.remove
      rcases hcases with ⟨rfl, -⟩ | ⟨-, -, rfl⟩
      · exact hstore
      · exact hstore.put (AnsService.checkSpec_addr hcheck)

lemma step (h : Keyed s.store) : Keyed (step S sha256 s c).1.store := by
  cases c with
  | register spec now => exact h.register
  | resolveName name now => exact h
  | searchCapability caps minQos excludeLeased now => exact h
  | planTask task now =>
    rw [Ans.step]
    dsimp only
    rw [AnsService.planTask]
    split
    · exact h
    · split
      · exact h
      · dsimp only
        split
        · exact h
        · exact h.foldl_modify (f := fun a => { a with lease := some (s.nextPlanId, satAdd now (AnsService.leaseSecs task)) })
            (fun _ => rfl) _
  | reportDone planId addr now =>
    rw [Ans.step]
    dsimp only
    rw [AnsService.reportDone]
    split
    · exact h
    · split
      · exact h.modify (f := fun a => { a with lease := none }) fun _ => rfl
      · exact h
  | reap now => exact (h.foldl_modify (f := AnsService.release now) (fun _ => release_card) _).foldl_remove _

end Keyed

/-- A lease stays, or is over, or its plan reports it. -/
lemma step_lease (hkeyed : Keyed s.store) (hkept : Kept S sha256 s c) (hr : s.store.get a = some r) (hl : r.lease = some lease) :
    StillLeased (step S sha256 s c).1.store c.now a lease ∨
      ∃ now, c = .reportDone lease.1 a now ∧ (step S sha256 s c).2 = .reported (.ok ()) := by
  cases c with
  | register spec now => exact .inl (register_lease hkept hr hl)
  | resolveName name now => exact .inl (.inr ⟨r, hr, hl⟩)
  | searchCapability caps minQos excludeLeased now => exact .inl (.inr ⟨r, hr, hl⟩)
  | planTask task now =>
    refine .inl ?_
    rw [step]
    cases hplan : s.planTask task now with
    | mk s' result =>
      cases result with
      | error e =>
        rw [planTask_error hplan]
        exact .inr ⟨r, hr, hl⟩
      | ok p =>
        obtain ⟨-, -, -, -, hassigned, hother⟩ := planTask_ok hkeyed hplan
        by_cases ha : a ∈ p.assignments.map Assignment.addr
        · obtain ⟨x, hx, rfl⟩ := List.mem_map.mp ha
          obtain ⟨⟨r', hr', hfree⟩, -⟩ := hassigned x hx
          rw [hr] at hr'
          cases hr'
          exact .inl (not_leased hfree hl)
        · exact .inr ⟨r, (hother a ha).trans hr, hl⟩
  | reportDone planId addr now =>
    rcases reportDone_lease hr hl planId addr now with hstill | ⟨rfl, rfl, hok⟩
    · exact .inl hstill
    · exact .inr ⟨now, rfl, congrArg Answer.reported hok⟩
  | reap now => exact .inl (reap_lease hkept hr hl)

lemma register_nextPlanId : (s.register S sha256 spec now).1.nextPlanId = s.nextPlanId := by
  cases hreg : s.register S sha256 spec now with
  | mk s' result =>
    rcases AnsService.register_cases hreg with ⟨rfl, -⟩ | ⟨addr, pubkey, cardHash, store, -, -, hcases⟩
    · rfl
    · rcases hcases with ⟨rfl, -⟩ | ⟨-, -, rfl⟩
      · rfl
      · rfl

lemma reportDone_nextPlanId : (s.reportDone planId addr).1.nextPlanId = s.nextPlanId := by
  rw [AnsService.reportDone]
  split
  · rfl
  · split
    · rfl
    · rfl

lemma toNat_next {n : UInt64} (h : n.toNat + 1 < 2 ^ 64) : (n + 1).toNat = n.toNat + 1 := by
  rw [UInt64.toNat_add]
  exact Nat.mod_eq_of_lt h

/-- The numbers of the plans only grow. -/
lemma step_nextPlanId (hkeyed : Keyed s.store) (hkept : Kept S sha256 s c) :
    s.nextPlanId.toNat ≤ (step S sha256 s c).1.nextPlanId.toNat := by
  cases c with
  | register spec now => exact (congrArg UInt64.toNat register_nextPlanId).ge
  | resolveName name now => exact le_rfl
  | searchCapability caps minQos excludeLeased now => exact le_rfl
  | planTask task now =>
    rw [step]
    cases hplan : s.planTask task now with
    | mk s' result =>
      cases result with
      | error e =>
        rw [planTask_error hplan]
      | ok p =>
        obtain ⟨-, -, hnext, -⟩ := planTask_ok hkeyed hplan
        dsimp only
        rw [hnext, toNat_next hkept]
        exact Nat.le_succ _
  | reportDone planId addr now => exact (congrArg UInt64.toNat reportDone_nextPlanId).ge
  | reap now => exact le_rfl

lemma Booked.step {later : List Event} {x : Assignment} (h : Booked s later hist planId x) (hkeyed : Keyed s.store)
    (hkept : Kept S sha256 s c) : Booked (step S sha256 s c).1 (later ++ [(c, (Ans.step S sha256 s c).2)])
      (hist ++ [(c, (Ans.step S sha256 s c).2)]) planId x := by
  rcases h with ⟨now, hreported⟩ | ⟨e, he, hover⟩ | ⟨r, hr, hl⟩
  · exact .inl ⟨now, List.mem_append_left _ hreported⟩
  · exact .inr (.inl ⟨e, List.mem_append_left _ he, hover⟩)
  · rcases step_lease hkeyed hkept hr hl with hstill | ⟨now, hc, hok⟩
    · rcases hstill with hover | hstays
      · exact .inr (.inl ⟨_, List.mem_concat_self, hover⟩)
      · exact .inr (.inr hstays)
    · refine .inl ⟨now, ?_⟩
      rw [hok, hc]
      exact List.mem_concat_self

/-- A new plan, if the call made one. -/
lemma step_planned {p : Plan} (hkeyed : Keyed s.store) (h : (step S sha256 s c).2 = .planned (.ok p)) :
    p.planId = s.nextPlanId ∧ p.createdAt = c.now ∧ (step S sha256 s c).1.nextPlanId = s.nextPlanId + 1 ∧
      (p.assignments.map Assignment.addr).Nodup ∧
      ∀ x ∈ p.assignments, (∃ r, s.store.get x.addr = some r ∧ r.isLeased c.now = false) ∧
        ∃ r, (step S sha256 s c).1.store.get x.addr = some r ∧ r.lease = some (p.planId, x.leaseExpiry) := by
  cases c with
  | planTask task now =>
    have hplan : s.planTask task now = ((s.planTask task now).1, .ok p) := Prod.ext rfl (Answer.planned.inj h)
    obtain ⟨hid, hcreated, hnext, hnodup, hassigned, -⟩ := planTask_ok hkeyed hplan
    exact ⟨hid, hcreated, hnext, hnodup, hassigned⟩
  | _ => cases h

/-- Where an event stands in a longer history. -/
lemma append_singleton_cases {α : Type} {l before later : List α} {e x : α} (h : l ++ [e] = before ++ x :: later) :
    (later = [] ∧ l = before ∧ x = e) ∨ ∃ later', later = later' ++ [e] ∧ l = before ++ x :: later' := by
  rcases List.eq_nil_or_concat' later with rfl | ⟨later', e', rfl⟩
  · obtain ⟨rfl, hx⟩ := List.append_inj' h rfl
    exact .inl ⟨rfl, rfl, (List.singleton_inj.mp hx).symm⟩
  · rw [← List.cons_append, ← List.append_assoc] at h
    obtain ⟨hl, he⟩ := List.append_inj' h rfl
    exact .inr ⟨later', by rw [List.singleton_inj.mp he], hl⟩

theorem Leases.step (h : Leases s hist) (hkept : Kept S sha256 s c) (hpast : ∀ e ∈ hist, e.1.now ≤ c.now) :
    Leases (step S sha256 s c).1 (hist ++ [(c, (Ans.step S sha256 s c).2)]) where
  keyed := h.keyed.step
  numbered := by
    intro c' p hp
    rcases List.mem_append.mp hp with hp | hp
    · exact (h.numbered hp).trans_le (step_nextPlanId h.keyed hkept)
    · cases c with
      | planTask task now =>
        obtain ⟨hid, -, hnext, -⟩ := step_planned h.keyed (congrArg Prod.snd (List.mem_singleton.mp hp)).symm
        rw [hid, hnext, toNat_next hkept]
        exact Nat.lt_succ_self _
      | _ => cases List.mem_singleton.mp hp
  booked := by
    intro before c' p later hsplit x hx
    rcases append_singleton_cases hsplit with ⟨rfl, rfl, he⟩ | ⟨later', rfl, hold⟩
    · obtain ⟨-, -, -, -, hassigned⟩ := step_planned h.keyed (congrArg Prod.snd he).symm
      exact .inr (.inr (hassigned x hx).2)
    · exact (h.booked hold x hx).step h.keyed hkept
  exclusive := by
    intro before c' p between c'' q after hsplit
    rw [← List.cons_append, ← List.append_assoc] at hsplit
    rcases append_singleton_cases hsplit with ⟨-, hold, he⟩ | ⟨after', -, hold⟩
    · obtain ⟨hid, hcreated, -, -, hassigned⟩ := step_planned h.keyed (congrArg Prod.snd he).symm
      refine ⟨fun heq => ?_, fun x hx y hy hxy => ?_⟩
      · have hlt := h.numbered (hold ▸ List.mem_append_right _ List.mem_cons_self)
        rw [heq, hid] at hlt
        exact lt_irrefl _ hlt
      · -- the earlier lease is over when the later plan is made
        have hover : x.leaseExpiry ≤ q.createdAt → ¬ Overlap p q x y := by
          rintro hle ⟨t, -, hlt, hcreated', -⟩
          exact UInt64.not_lt.mpr hcreated' (UInt64.lt_of_lt_of_le hlt hle)
        rcases h.booked hold x hx with hreported | ⟨e, he, hle⟩ | ⟨r, hr, hl⟩
        · exact .inl hreported
        · refine .inr (hover ?_)
          rw [hcreated]
          exact UInt64.le_trans hle (hpast e he)
        · obtain ⟨⟨r', hr', hfree⟩, -⟩ := hassigned y hy
          rw [← hxy, hr] at hr'
          cases hr'
          refine .inr (hover ?_)
          rw [hcreated]
          exact not_leased hfree hl
    · rw [List.append_assoc, List.cons_append] at hold
      exact h.exclusive _ _ _ _ _ _ _ hold
  distinct := by
    intro c' p hp
    rcases List.mem_append.mp hp with hp | hp
    · exact h.distinct c' p hp
    · obtain ⟨-, -, -, hnodup, -⟩ := step_planned h.keyed (congrArg Prod.snd (List.mem_singleton.mp hp)).symm
      exact hnodup

/-- No agent is in two plans at a time as long as no record is removed while its lease runs. -/
theorem leases_exclusive {anchorPub : PublicKey} {namespaceRoot : Bytes} (hclock : ops.Pairwise fun c c' => c.now ≤ c'.now)
    (hkept : Along (step S sha256) (Kept S sha256) (.new anchorPub namespaceRoot) ops) :
    let hist := ops.zip (run (step S sha256) (.new anchorPub namespaceRoot) ops).2
    Exclusive hist ∧ Distinct hist := by
  have hempty : Leases (.new anchorPub namespaceRoot) [] := by
    refine ⟨.empty, fun h => absurd h List.not_mem_nil, fun h => ?_, fun before c p _ _ _ _ h => ?_, fun _ _ h => ?_⟩
    · exact absurd h (List.append_ne_nil_of_right_ne_nil _ (List.cons_ne_nil _ _)).symm
    · exact absurd h (List.append_ne_nil_of_right_ne_nil _ (List.cons_ne_nil _ _)).symm
    · exact absurd h List.not_mem_nil
  have hrun := invariant_history_pairwise (I := Leases) (fun s hist o h hk hpast => h.step hk hpast) hempty hkept
    (fun e he => absurd he List.not_mem_nil) hclock
  exact ⟨hrun.exclusive, hrun.distinct⟩

/-- One agent that can do `a`. -/
def sampleTask (timeoutMs : UInt64) : TaskDescription := ⟨[[0x61]], 1, 0, timeoutMs⟩

def sampleRegister (notAfter now : UInt64) : Call := .register (sampleSpec (sampleKey 1) (sampleCard 1 [0x6E] notAfter)) now

/-- Two plans within the life of a card, the second one after the lease of the first one. -/
def twoPlans : List Call := [sampleRegister 100 0, .planTask (sampleTask 5000) 1, .planTask (sampleTask 5000) 6]

lemma kept_planTask (h : s.nextPlanId.toNat + 1 < 2 ^ 64) : Kept S sha256 s (.planTask task now) := h

lemma kept_twoPlans : Along (step sampleSig sampleHash) (Kept sampleSig sampleHash) (.new (sampleKey 0) []) twoPlans := by
  refine ⟨fun _ _ _ holder _ _ hholder => ?_, ?_, ?_, trivial⟩
  · have hnone : (AnsService.new (sampleKey 0) []).store.addrOfName (sampleCard 1 [0x6E] 100).name = none :=
      Std.ExtTreeMap.getElem?_empty
    exact absurd (hnone.symm.trans hholder) (Option.some_ne_none _).symm
  · exact kept_planTask (by decide +kernel)
  · exact kept_planTask (by decide +kernel)

theorem leases_exclusive_sample :
    Exclusive (twoPlans.zip (run (step sampleSig sampleHash) (.new (sampleKey 0) []) twoPlans).2) ∧
    Distinct (twoPlans.zip (run (step sampleSig sampleHash) (.new (sampleKey 0) []) twoPlans).2) :=
  leases_exclusive (by decide) kept_twoPlans

/-- The card expires within the lease and is reaped; the agent registers again. -/
def returning : List Call :=
  [sampleRegister 5 0, .planTask (sampleTask 10000) 1, .reap 6, sampleRegister 100 7, .planTask (sampleTask 10000) 8]

/-- The agent is planned again within the lease. -/
theorem booked_twice :
    let answers := (run (step sampleSig sampleHash) (.new (sampleKey 0) []) returning).2
    let a := (sampleCard 1 [] 0).addr
    returning.Pairwise (fun c c' => c.now ≤ c'.now) ∧
    answers[1]? = some (.planned (.ok ⟨1, [⟨a, 0, 11⟩], 1⟩)) ∧ answers[4]? = some (.planned (.ok ⟨2, [⟨a, 0, 18⟩], 8⟩)) ∧
    Overlap ⟨1, [⟨a, 0, 11⟩], 1⟩ ⟨2, [⟨a, 0, 18⟩], 8⟩ ⟨a, 0, 11⟩ ⟨a, 0, 18⟩ :=
  ⟨by decide, by decide +kernel, by decide +kernel, 9, by decide, by decide, by decide, by decide⟩

end IPv8Plus.Cloud.Ans
