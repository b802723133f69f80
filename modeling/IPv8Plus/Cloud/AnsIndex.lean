import IPv8Plus.Cloud.Ans

/-!
# The index of names

The service finds agents by address and names by an index beside them. The index is right as long as no agent is
registered under a new name: the old name stays in the index.
-/

namespace IPv8Plus.Cloud.Ans
open Lib Codec Routing

/-- A name stands for an address exactly when the agent there has it. -/
def Indexed (m : MemStore) : Prop := ∀ name a, m.addrOfName name = some a ↔ ∃ r, m.get a = some r ∧ r.name = name

namespace Indexed

variable {m : MemStore} {a : IPv8Address} {r cur : StoredAgent} {f : StoredAgent → StoredAgent}

lemma empty : Indexed ⟨∅, ∅⟩ := by
  intro name a
  rw [MemStore.addrOfName, MemStore.get, Std.ExtTreeMap.getElem?_empty, Std.ExtTreeMap.getElem?_empty]
  refine iff_of_false nofun ?_
  rintro ⟨r, h, -⟩
  cases h

lemma modify (h : Indexed m) (hf : ∀ r, (f r).name = r.name) : Indexed (m.modify a f) := by
  intro name b
  rw [MemStore.addrOfName_modify, h name b, MemStore.get_modify]
  split
  · next hab =>
    rw [← hab]
    constructor
    · rintro ⟨r, hr, hname⟩
      exact ⟨f r, by rw [hr, Option.map_some], (hf r).trans hname⟩
    · rintro ⟨r', hr', hname⟩
      obtain ⟨r, hr, rfl⟩ := Option.map_eq_some_iff.mp hr'
      exact ⟨r, hr, (hf r).symm.trans hname⟩
  · exact Iff.rfl

/-- Two agents have different names. -/
lemma unique (h : Indexed m) {b : IPv8Address} {r' : StoredAgent} (ha : m.get a = some r) (hb : m.get b = some r')
    (hname : r.name = r'.name) : a = b := by
  have hleft := (h r.name a).mpr ⟨r, ha, rfl⟩
  have hright := (h r.name b).mpr ⟨r', hb, hname.symm⟩
  exact Option.some_inj.mp (hleft.symm.trans hright)

lemma remove (h : Indexed m) : Indexed (m.remove a) := by
  cases ha : m.get a with
  | none =>
    rw [MemStore.remove_none ha]
    exact h
  | some r =>
    intro name b
    rw [MemStore.addrOfName_remove ha, MemStore.get_remove]
    by_cases hab : a = b
    · subst hab
      rw [if_pos rfl]
      apply iff_of_false
      · intro hname
        split at hname
        · cases hname
        · next hne =>
          obtain ⟨r', hr', hname'⟩ := (h name a).mp hname
          rw [ha] at hr'
          cases hr'
          exact hne hname'
      · rintro ⟨_, h, -⟩
        cases h
    · rw [if_neg hab]
      split
      · next heq =>
        refine iff_of_false nofun ?_
        rintro ⟨r', hr', hname⟩
        exact hab (h.unique ha hr' (heq.trans hname.symm))
      · exact h name b

lemma put (h : Indexed m) (hfree : ∀ b, m.addrOfName r.name = some b → b = a)
    (hsame : ∀ cur, m.get a = some cur → cur.name = r.name) : Indexed (m.put a r) := by
  intro name b
  rw [MemStore.addrOfName_put, MemStore.get_put]
  by_cases hab : a = b
  · subst hab
    rw [if_pos rfl]
    split
    · next hname => exact iff_of_true rfl ⟨r, rfl, hname⟩
    · next hname =>
      apply iff_of_false
      · intro hold
        obtain ⟨cur, hcur, hcurname⟩ := (h name a).mp hold
        exact hname ((hsame cur hcur).symm.trans hcurname)
      · rintro ⟨r', hr', hname'⟩
        cases hr'
        exact hname hname'
  · rw [if_neg hab]
    split
    · next hname =>
      refine iff_of_false (fun hb => hab (Option.some_inj.mp hb)) ?_
      rintro ⟨r', hr', hname'⟩
      exact hab (hfree b ((h r.name b).mpr ⟨r', hr', hname'.trans hname.symm⟩)).symm
    · exact h name b

/-- A new name leaves the old one behind. -/
lemma not_put (h : Indexed m) (hcur : m.get a = some cur) (hname : cur.name ≠ r.name) : ¬ Indexed (m.put a r) := by
  intro hput
  have hold : (m.put a r).addrOfName cur.name = some a := by
    rw [MemStore.addrOfName_put, if_neg (Ne.symm hname)]
    exact (h cur.name a).mpr ⟨cur, hcur, rfl⟩
  obtain ⟨r', hr', hname'⟩ := (hput cur.name a).mp hold
  rw [MemStore.get_put, if_pos rfl] at hr'
  cases hr'
  exact hname hname'.symm

end Indexed

variable {S : SigScheme} {sha256 : Bytes → Arr UInt8 32} {s : AnsService} {store store' : MemStore} {spec : RegisterSpec}
  {now : UInt64} {name : Bytes} {addr : IPv8Address} {c : Call} {ops : List Call}

/-- The name is free for the agent, whose own record is as before. -/
lemma Indexed.takeName (h : Indexed store) (htake : AnsService.takeName store name addr now = .ok store') :
    Indexed store' ∧ store'.get addr = store.get addr ∧ ∀ b, store'.addrOfName name = some b → b = addr := by
  rcases AnsService.takeName_cases htake with ⟨rfl, hfree⟩ | ⟨holder, hne, hholder, -, rfl⟩
  · exact ⟨h, rfl, hfree⟩
  · obtain ⟨r, hr, hname⟩ := (h name holder).mp hholder
    refine ⟨h.remove, by rw [MemStore.get_remove, if_neg hne], fun b hb => ?_⟩
    rw [MemStore.addrOfName_remove hr, if_pos hname] at hb
    cases hb

/-- The registration succeeds, and the agent had another name. -/
def Renames (S : SigScheme) (sha256 : Bytes → Arr UInt8 32) (s : AnsService) : Call → Prop
  | .register spec now => ∃ addr pubkey cardHash store cur, s.checkSpec S sha256 spec now = .ok (addr, pubkey, cardHash) ∧
      AnsService.takeName s.store spec.card.name addr now = .ok store ∧
      s.store.get addr = some cur ∧ cur.edPub = pubkey ∧ cur.name ≠ spec.card.name
  | _ => False

lemma indexed_register (h : Indexed s.store) :
    Indexed (s.register S sha256 spec now).1.store ↔ ¬ Renames S sha256 s (.register spec now) := by
  cases hreg : s.register S sha256 spec now with
  | mk s' result =>
    rcases AnsService.register_cases hreg with ⟨rfl, -, hfail⟩ | ⟨addr, pubkey, cardHash, store, hcheck, htake, hcases⟩
    · refine iff_of_true h ?_
      rintro ⟨addr, pubkey, cardHash, store, cur, hcheck, htake, -⟩
      exact hfail _ _ _ _ hcheck htake
    · obtain ⟨hindexed, hown, hfree⟩ := h.takeName htake
      rcases hcases with ⟨rfl, -, cur, hcur, hkey⟩ | ⟨-, hkey, rfl⟩
      · refine iff_of_true hindexed ?_
        rintro ⟨addr', pubkey', cardHash', store', cur', hcheck', htake', hcur', hkey', -⟩
        rw [hcheck] at hcheck'
        cases hcheck'
        rw [← hown, hcur] at hcur'
        cases hcur'
        exact hkey hkey'
      · by_cases hname : ∀ cur, store.get addr = some cur → cur.name = spec.card.name
        · refine iff_of_true (hindexed.put hfree hname) ?_
          rintro ⟨addr', pubkey', cardHash', store', cur', hcheck', htake', hcur', -, hne⟩
          rw [hcheck] at hcheck'
          cases hcheck'
          exact hne (hname cur' (hown.trans hcur'))
        · obtain ⟨cur, hcur, hne⟩ := not_forall₂.mp hname
          refine iff_of_false (hindexed.not_put hcur hne) (not_not.mpr ?_)
          exact ⟨addr, pubkey, cardHash, store, cur, hcheck, htake, hown.symm.trans hcur, hkey cur hcur, hne⟩

lemma indexed_foldl_modify (h : Indexed store) {f : StoredAgent → StoredAgent} (hf : ∀ r, (f r).name = r.name)
    (l : List IPv8Address) : Indexed (l.foldl (fun st addr => st.modify addr f) store) := by
  induction l generalizing store with
  | nil => exact h
  | cons a l ih => exact ih (h.modify hf)

lemma indexed_foldl_remove (h : Indexed store) (l : List IPv8Address) : Indexed (l.foldl MemStore.remove store) := by
  induction l generalizing store with
  | nil => exact h
  | cons a l ih => exact ih h.remove

lemma indexed_planTask (h : Indexed s.store) {task : TaskDescription} : Indexed (s.planTask task now).1.store := by
  rw [AnsService.planTask]
  split
  · exact h
  · split
    · exact h
    · dsimp only
      split
      · exact h
      · exact indexed_foldl_modify h (f := fun a => { a with lease := some (s.nextPlanId, satAdd now (AnsService.leaseSecs task)) })
          (fun _ => rfl) _

lemma indexed_reportDone (h : Indexed s.store) {planId : UInt64} : Indexed (s.reportDone planId addr).1.store := by
  rw [AnsService.reportDone]
  split
  · exact h
  · split
    · exact h.modify fun _ => rfl
    · exact h

lemma indexed_reap (h : Indexed s.store) : Indexed (s.reap now).1.store := by
  refine indexed_foldl_remove (indexed_foldl_modify h (fun r => ?_) _) _
  rw [AnsService.release]
  split
  · rfl
  · rfl

/-- Only a new name for an agent breaks the index. -/
lemma indexed_step (h : Indexed s.store) : Indexed (step S sha256 s c).1.store ↔ ¬ Renames S sha256 s c := by
  cases c with
  | register spec now => exact indexed_register h
  | resolveName name now => exact iff_of_true h not_false
  | searchCapability caps minQos excludeLeased now => exact iff_of_true h not_false
  | planTask task now => exact iff_of_true (indexed_planTask h) not_false
  | reportDone planId addr now => exact iff_of_true (indexed_reportDone h) not_false
  | reap now => exact iff_of_true (indexed_reap h) not_false

/-- A name resolves to the agent that has it. -/
lemma Indexed.resolveName (h : Indexed s.store) {r : ResolvedAgent} (hr : s.resolveName name now = .ok r) : r.name = name := by
  rw [AnsService.resolveName] at hr
  cases hname : s.store.addrOfName name with
  | none =>
    rw [hname] at hr
    cases hr
  | some a =>
    obtain ⟨agent, hagent, heq⟩ := (h name a).mp hname
    rw [hname] at hr
    dsimp only at hr
    rw [AnsService.resolveAddr, hagent] at hr
    dsimp only at hr
    split at hr
    · cases hr
    · cases hr
      exact heq

/-- A name that is refused belongs to another agent whose card is valid. -/
lemma Indexed.nameConflict (h : Indexed s.store) {e : AnsError} (he : AnsService.takeName s.store name addr now = .error e) :
    ∃ a r, a ≠ addr ∧ s.store.get a = some r ∧ r.name = name ∧ r.isExpired now = false := by
  rw [AnsService.takeName] at he
  cases hname : s.store.addrOfName name with
  | none =>
    rw [hname] at he
    cases he
  | some a =>
    obtain ⟨r, hr, heq⟩ := (h name a).mp hname
    rw [hname] at he
    dsimp only at he
    split at he
    · cases he
    · next hne =>
      split at he
      · next hlive =>
        rw [hr, Option.any_some, Bool.not_eq_true'] at hlive
        exact ⟨a, r, hne, hr, heq, hlive⟩
      · cases he

/-- In every run the index is right in every state exactly as long as no agent takes a new name. Where it is right, a name
that an agent has given up neither resolves to it nor is refused to another one because of it. -/
theorem index_iff (S : SigScheme) (sha256 : Bytes → Arr UInt8 32) (anchorPub : PublicKey) (namespaceRoot : Bytes) (ops : List Call) :
    (Along (step S sha256) (fun s c => Indexed (step S sha256 s c).1.store) (.new anchorPub namespaceRoot) ops ↔
      Along (step S sha256) (fun s c => ¬ Renames S sha256 s c) (.new anchorPub namespaceRoot) ops) ∧
    ∀ s : AnsService, Indexed s.store →
      (∀ name now r, s.resolveName name now = .ok r → r.name = name) ∧
      ∀ name addr now e, AnsService.takeName s.store name addr now = .error e →
        ∃ a r, a ≠ addr ∧ s.store.get a = some r ∧ r.name = name ∧ r.isExpired now = false := by
  refine ⟨?_, fun s h => ⟨fun name now r => h.resolveName, fun name addr now e => h.nameConflict⟩⟩
  exact along_congr (D := fun _ _ => True) (I := fun s => Indexed s.store) (along_of_forall fun _ _ => trivial)
    (fun s c _ _ h => h) (fun s c h _ => indexed_step h) .empty

lemma length_key (b : UInt8) : (List.replicate 32 b).length = 32 := List.length_replicate

def sampleKey (b : UInt8) : PublicKey := ⟨List.replicate 32 b, length_key b⟩

/-- A checksum. -/
def sampleHash (msg : Bytes) : Arr UInt8 32 :=
  ⟨toBe 32 (msg.foldl (fun acc b => (acc * 257 + b.toNat + 1) % (2 ^ 127 - 1)) 0), length_toBe _ _⟩

/-- The card of an agent without capabilities but one, `a`. -/
def sampleCard (sessionId : UInt16) (name : Bytes) (notAfter : UInt64) : AgentCard where
  version := cardVersion
  name := name
  addr := ⟨protocolMagic, 2, 3, 4, 5, 6, 7, sessionId⟩
  capabilities := [[0x61]]
  endpoints := []
  qosHint := 0
  notAfter := notAfter
  tunnelEntry := []

/-- A registration with a certificate of the key `sampleKey 0`. -/
def sampleSpec (key : PublicKey) (card : AgentCard) : RegisterSpec :=
  let cardHash := match card.cardHash sampleHash with
    | .ok h => h
    | .error _ => ⟨(sampleHash []).val.take 16, length_take16 _⟩
  { addrText := card.addr.toCanonicalString
    certWire := (Tunnel.issue sampleSig (sampleKey 0) card.addr key 0xFFFFFFFFFFFFFFFF).toWire
    card := card
    cardSig := sampleSignature key (agentCardMessage card.version cardHash card.notAfter key)
    pop := (sampleSignature key (ansRegisterPopMessage card.name card.addr.toCanonicalString cardHash)).val }

/-- An agent takes the name `o`, and then the name `n`. -/
def renamed : AnsService := (run (step sampleSig sampleHash) (.new (sampleKey 0) [])
  [.register (sampleSpec (sampleKey 1) (sampleCard 1 [0x6F] 100)) 0,
    .register (sampleSpec (sampleKey 1) (sampleCard 1 [0x6E] 100)) 1]).1

/-- The old name still resolves to the agent, and is refused to another one. -/
theorem old_name_stays :
    (renamed.resolveName [0x6F] 2).toOption.map ResolvedAgent.name = some [0x6E] ∧
    (renamed.register sampleSig sampleHash (sampleSpec (sampleKey 2) (sampleCard 2 [0x6F] 100)) 2).2 = .error .nameConflict ∧
    renamed.store.addrOfName [0x6F] = some (sampleCard 1 [] 0).addr ∧
    (renamed.store.get (sampleCard 1 [] 0).addr).map StoredAgent.name = some [0x6E] :=
  ⟨by decide +kernel, by decide +kernel, by decide +kernel, by decide +kernel⟩

end IPv8Plus.Cloud.Ans
