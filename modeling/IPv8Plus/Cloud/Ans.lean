import IPv8Plus.Cloud.SignedMessages
import IPv8Plus.Cloud.Store
import IPv8Plus.Codec.AddrText
import IPv8Plus.Lib.Run
import IPv8Plus.Lib.Word64

/-!
# The agent name service

`cloud/ans/src/lib.rs` over its store in memory: agents register cards under a name and an address, are found by name and
by capability, and are planned for tasks under leases. Text is its bytes. The signature scheme and the hash of the cards
are parameters.
-/

namespace IPv8Plus.Cloud.Ans
open Lib Codec Routing

def cardVersion : UInt8 := 1

def maxLeaseSecs : UInt64 := 3600

inductive AnsError where
  | badName
  | badAddress
  | badTags
  | badCard
  | badProof
  | badCert
  | keyConflict
  | nameConflict
  | notFound
  | insufficient (wanted got : ℕ)
  deriving DecidableEq, Repr

/-- 1 to 48 bytes of `a-z0-9-`, with no dash at either end. -/
def checkTag (b : Bytes) : Bool :=
  b ≠ [] ∧ b.length ≤ 48 ∧ b.head? ≠ some 0x2D ∧ b.getLast? ≠ some 0x2D ∧
    b.all fun c => decide ((0x61 ≤ c ∧ c ≤ 0x7A) ∨ (0x30 ≤ c ∧ c ≤ 0x39) ∨ c = 0x2D)

/-- `SemanticTags::encode` succeeds. -/
def validateTags (tags : List Bytes) : Except AnsError Unit :=
  if tags = [] ∨ 32 < tags.length ∨ ¬ tags.all checkTag ∨ 1536 < ([0x1F].intercalate tags).length then .error .badTags
  else .ok ()

structure AgentCard where
  version : UInt8
  name : Bytes
  addr : IPv8Address
  capabilities : List Bytes
  endpoints : List Bytes
  qosHint : UInt8
  notAfter : UInt64
  tunnelEntry : Bytes
  deriving DecidableEq, Repr

def pushStr (s : Bytes) : Except AnsError Bytes := if 255 < s.length then .error .badCard else .ok (UInt8.ofNat s.length :: s)

def pushStrs (v : List Bytes) : Except AnsError Bytes :=
  if 255 < v.length then .error .badCard
  else do
    let items ← v.mapM pushStr
    return UInt8.ofNat v.length :: items.flatten

def AgentCard.canonicalBytes (card : AgentCard) : Except AnsError Bytes := do
  let name ← pushStr card.name
  let tunnelEntry ← pushStr card.tunnelEntry
  if 15 < card.qosHint then .error .badCard
  else
    let capabilities ← pushStrs card.capabilities
    let endpoints ← pushStrs card.endpoints
    return card.version :: card.addr.toBytes ++ name ++ tunnelEntry ++ card.qosHint :: be64 card.notAfter ++ capabilities ++
      endpoints

lemma length_take16 (h : Arr UInt8 32) : (h.val.take 16).length = 16 := by
  rw [List.length_take, h.property]
  rfl

/-- The front half of the hash. -/
def AgentCard.cardHash (sha256 : Bytes → Arr UInt8 32) (card : AgentCard) : Except AnsError (Arr UInt8 16) := do
  let b ← card.canonicalBytes
  return ⟨(sha256 b).val.take 16, length_take16 _⟩

structure AgentCardSummary where
  version : UInt8
  cardHash : Arr UInt8 16
  notAfter : UInt64
  agentPubkey : PublicKey
  cardSig : Signature
  deriving DecidableEq, Repr

/-- `lease` is a plan and when the lease ends. -/
structure StoredAgent where
  edPub : PublicKey
  name : Bytes
  card : AgentCard
  summary : AgentCardSummary
  lease : Option (UInt64 × UInt64)
  deriving DecidableEq, Repr

def StoredAgent.isLeased (a : StoredAgent) (now : UInt64) : Bool := a.lease.any fun l => now < l.2

def StoredAgent.isExpired (a : StoredAgent) (now : UInt64) : Bool := a.card.notAfter ≤ now

structure RegisterSpec where
  addrText : Bytes
  certWire : Bytes
  card : AgentCard
  cardSig : Signature
  pop : Bytes

structure ResolvedAgent where
  name : Bytes
  addr : IPv8Address
  tunnelEntry : Bytes
  capabilities : List Bytes
  endpoints : List Bytes
  qosHint : UInt8
  notAfter : UInt64
  summary : AgentCardSummary
  deriving DecidableEq, Repr

structure TaskDescription where
  requiredCaps : List Bytes
  minCount : ℕ
  qosLevel : UInt8
  timeoutMs : UInt64

structure Assignment where
  addr : IPv8Address
  shardId : ℕ
  leaseExpiry : UInt64
  deriving DecidableEq, Repr

structure Plan where
  planId : UInt64
  assignments : List Assignment
  createdAt : UInt64
  deriving DecidableEq, Repr

structure MemStore where
  byAddr : AddrMap StoredAgent
  byName : Std.ExtTreeMap Bytes IPv8Address

namespace MemStore

def put (m : MemStore) (addr : IPv8Address) (agent : StoredAgent) : MemStore :=
  ⟨m.byAddr.insert addr agent, m.byName.insert agent.name addr⟩

def get (m : MemStore) (addr : IPv8Address) : Option StoredAgent := m.byAddr[addr]?

/-- A change by `get_mut`. -/
def modify (m : MemStore) (addr : IPv8Address) (f : StoredAgent → StoredAgent) : MemStore :=
  match m.get addr with
  | some a => { m with byAddr := m.byAddr.insert addr (f a) }
  | none => m

def addrOfName (m : MemStore) (name : Bytes) : Option IPv8Address := m.byName[name]?

def remove (m : MemStore) (addr : IPv8Address) : MemStore :=
  match m.get addr with
  | some a => ⟨m.byAddr.erase addr, m.byName.erase a.name⟩
  | none => m

def addrs (m : MemStore) : List IPv8Address := m.byAddr.keys

end MemStore

structure AnsService where
  store : MemStore
  anchorPub : PublicKey
  namespaceRoot : Bytes
  nextPlanId : UInt64

namespace AnsService

def new (anchorPub : PublicKey) (namespaceRoot : Bytes) : AnsService := ⟨⟨∅, ∅⟩, anchorPub, namespaceRoot, 1⟩

def checkName (self : AnsService) (name : Bytes) : Except AnsError Unit :=
  if name = [] ∨ 255 < name.length then .error .badName
  else if self.namespaceRoot ≠ [] ∧ ¬ self.namespaceRoot <:+ name then .error .badName
  else if name = self.namespaceRoot then .error .badName
  else .ok ()

section Crypto

variable (S : SigScheme) (sha256 : Bytes → Arr UInt8 32)

def certPubkeyFromWire (certWire : Bytes) : Option PublicKey :=
  if h : certWire.length = certLen then
    some ⟨(certWire.drop 16).take 32, by rw [List.length_take, List.length_drop, h]; rfl⟩
  else none

def parseSig (s : Bytes) : Except AnsError Signature := if h : s.length = 64 then .ok ⟨s, h⟩ else .error .badProof

/-- The checks of a registration that do not look at the store: the card, the certificate, and the two signatures. -/
def checkSpec (self : AnsService) (spec : RegisterSpec) (now : UInt64) :
    Except AnsError (IPv8Address × PublicKey × Arr UInt8 16) := do
  let addr ← match IPv8Address.fromCanonicalStr spec.addrText with
    | .ok addr => .ok addr
    | _ => .error .badAddress
  self.checkName spec.card.name
  if spec.card.version ≠ cardVersion ∨ spec.card.addr ≠ addr then .error .badCard
  else if spec.card.notAfter ≤ now then .error .badCard
  else
    validateTags spec.card.capabilities
    let cardHash ← spec.card.cardHash sha256
    match certPubkeyFromWire spec.certWire with
    | none => .error .badCert
    | some pubkey =>
      if !certBindingOk S self.anchorPub spec.certWire addr pubkey now then .error .badCert
      else if !S.validKey pubkey then .error .badCard
      else if !S.verifyStrict pubkey (agentCardMessage spec.card.version cardHash spec.card.notAfter pubkey) spec.cardSig then
        .error .badCard
      else
        let pop ← parseSig spec.pop
        if !S.verifyStrict pubkey (ansRegisterPopMessage spec.card.name spec.addrText cardHash) pop then .error .badProof
        else .ok (addr, pubkey, cardHash)

/-- A name is taken while the card of its holder is valid. The record of a holder whose card is not is removed. -/
def takeName (store : MemStore) (name : Bytes) (addr : IPv8Address) (now : UInt64) : Except AnsError MemStore :=
  match store.addrOfName name with
  | none => .ok store
  | some existing =>
    if existing = addr then .ok store
    else if (store.get existing).any fun a => !a.isExpired now then .error .nameConflict
    else .ok (store.remove existing)

/-- An address keeps its key and its lease. -/
def register (self : AnsService) (spec : RegisterSpec) (now : UInt64) : AnsService × Except AnsError (Arr UInt8 16) :=
  match self.checkSpec S sha256 spec now with
  | .error e => (self, .error e)
  | .ok (addr, pubkey, cardHash) =>
    match takeName self.store spec.card.name addr now with
    | .error e => (self, .error e)
    | .ok store =>
      if (store.get addr).any fun cur => cur.edPub ≠ pubkey then ({ self with store := store }, .error .keyConflict)
      else
        let summary : AgentCardSummary := ⟨spec.card.version, cardHash, spec.card.notAfter, pubkey, spec.cardSig⟩
        let lease := (store.get addr).bind StoredAgent.lease
        ({ self with store := store.put addr ⟨pubkey, spec.card.name, spec.card, summary, lease⟩ }, .ok cardHash)

end Crypto

def toResolved (a : StoredAgent) : ResolvedAgent where
  name := a.name
  addr := a.card.addr
  tunnelEntry := a.card.tunnelEntry
  capabilities := a.card.capabilities
  endpoints := a.card.endpoints
  qosHint := a.card.qosHint
  notAfter := a.card.notAfter
  summary := a.summary

def resolveAddr (self : AnsService) (addr : IPv8Address) (now : UInt64) : Except AnsError ResolvedAgent :=
  match self.store.get addr with
  | none => .error .notFound
  | some a => if a.isExpired now then .error .notFound else .ok (toResolved a)

def resolveName (self : AnsService) (name : Bytes) (now : UInt64) : Except AnsError ResolvedAgent :=
  match self.store.addrOfName name with
  | none => .error .notFound
  | some addr => self.resolveAddr addr now

def covers (agentCaps required : List Bytes) : Bool := required.all fun r => agentCaps.any fun c => c == r

/-- Better service first, then the longer one, then by address. -/
def precedes (x y : ResolvedAgent) : Bool :=
  if x.qosHint ≠ y.qosHint then y.qosHint < x.qosHint
  else if x.notAfter ≠ y.notAfter then y.notAfter < x.notAfter
  else compare x.addr.toCanonicalString y.addr.toCanonicalString ≠ .gt

def searchCapability (self : AnsService) (requiredCaps : List Bytes) (minQos : UInt8) (excludeLeased : Bool) (now : UInt64) :
    List ResolvedAgent :=
  let out := (self.store.addrs.filterMap self.store.get).filter fun a => !a.isExpired now && (!excludeLeased || !a.isLeased now)
  ((out.filter fun a => covers a.card.capabilities requiredCaps && decide (minQos ≤ a.card.qosHint)).map toResolved).mergeSort
    precedes

def leaseSecs (task : TaskDescription) : UInt64 := max 1 (min (satAdd task.timeoutMs 999 / 1000) maxLeaseSecs)

/-- The first candidates are assigned, and leased to the plan. -/
def planTask (self : AnsService) (task : TaskDescription) (now : UInt64) : AnsService × Except AnsError Plan :=
  match validateTags task.requiredCaps with
  | .error e => (self, .error e)
  | .ok _ =>
    if task.minCount = 0 then (self, .error (.insufficient 0 0))
    else
      let candidates := self.searchCapability task.requiredCaps task.qosLevel true now
      if candidates.length < task.minCount then (self, .error (.insufficient task.minCount candidates.length))
      else
        let planId := self.nextPlanId
        let expiry := satAdd now (leaseSecs task)
        let chosen := (candidates.take task.minCount).map ResolvedAgent.addr
        let store := chosen.foldl (fun st addr => st.modify addr fun a => { a with lease := some (planId, expiry) }) self.store
        ({ self with store := store, nextPlanId := planId + 1 },
          .ok ⟨planId, chosen.mapIdx fun i addr => ⟨addr, i, expiry⟩, now⟩)

def reportDone (self : AnsService) (planId : UInt64) (addr : IPv8Address) : AnsService × Except AnsError Unit :=
  match self.store.get addr with
  | none => (self, .error .notFound)
  | some a =>
    if a.lease.any fun l => l.1 = planId then
      ({ self with store := self.store.modify addr fun a => { a with lease := none } }, .ok ())
    else (self, .error .notFound)

/-- A lease that is over is released. -/
def release (now : UInt64) (a : StoredAgent) : StoredAgent := if a.lease.any fun l => l.2 ≤ now then { a with lease := none } else a

def reap (self : AnsService) (now : UInt64) : AnsService × ℕ × ℕ :=
  let agents := self.store.addrs.filterMap self.store.get
  let released := agents.countP fun a => a.lease.any fun l => l.2 ≤ now
  let store := self.store.addrs.foldl (fun st addr => st.modify addr (release now)) self.store
  let expiredCards := store.addrs.filter fun addr => (store.get addr).any (·.isExpired now)
  ({ self with store := expiredCards.foldl MemStore.remove store }, released, expiredCards.length)

end AnsService

inductive Call where
  | register (spec : RegisterSpec) (now : UInt64)
  | resolveName (name : Bytes) (now : UInt64)
  | searchCapability (requiredCaps : List Bytes) (minQos : UInt8) (excludeLeased : Bool) (now : UInt64)
  | planTask (task : TaskDescription) (now : UInt64)
  | reportDone (planId : UInt64) (addr : IPv8Address) (now : UInt64)
  | reap (now : UInt64)

def Call.now : Call → UInt64
  | register _ now | resolveName _ now | searchCapability _ _ _ now | planTask _ now | reportDone _ _ now | reap now => now

inductive Answer where
  | registered (result : Except AnsError (Arr UInt8 16))
  | resolved (result : Except AnsError ResolvedAgent)
  | found (agents : List ResolvedAgent)
  | planned (result : Except AnsError Plan)
  | reported (result : Except AnsError Unit)
  | reaped (released expired : ℕ)
  deriving DecidableEq

def step (S : SigScheme) (sha256 : Bytes → Arr UInt8 32) (s : AnsService) : Call → AnsService × Answer
  | .register spec now => ((s.register S sha256 spec now).1, .registered (s.register S sha256 spec now).2)
  | .resolveName name now => (s, .resolved (s.resolveName name now))
  | .searchCapability caps minQos excludeLeased now => (s, .found (s.searchCapability caps minQos excludeLeased now))
  | .planTask task now => ((s.planTask task now).1, .planned (s.planTask task now).2)
  | .reportDone planId addr _ => ((s.reportDone planId addr).1, .reported (s.reportDone planId addr).2)
  | .reap now => ((s.reap now).1, .reaped (s.reap now).2.1 (s.reap now).2.2)

namespace MemStore

variable {m : MemStore} {a b : IPv8Address} {r : StoredAgent} {name : Bytes} {f : StoredAgent → StoredAgent}

lemma get_put : (m.put a r).get b = if a = b then some r else m.get b := getElem?_insert_ite

lemma addrOfName_put : (m.put a r).addrOfName name = if r.name = name then some a else m.addrOfName name := getElem?_insert_ite

lemma get_modify : (m.modify a f).get b = if a = b then (m.get a).map f else m.get b := by
  rw [modify]
  cases ha : m.get a with
  | none =>
    dsimp only
    split
    · next h =>
      rw [← h]
      exact ha
    · rfl
  | some r =>
    exact getElem?_insert_ite

@[simp] lemma addrOfName_modify : (m.modify a f).addrOfName name = m.addrOfName name := by
  rw [modify]
  cases m.get a with
  | none => rfl
  | some r => rfl

lemma get_remove : (m.remove a).get b = if a = b then none else m.get b := by
  rw [remove]
  cases ha : m.get a with
  | none =>
    dsimp only
    split
    · next h =>
      rw [← h]
      exact ha
    · rfl
  | some r =>
    exact getElem?_erase_ite

lemma addrOfName_remove (h : m.get a = some r) : (m.remove a).addrOfName name = if r.name = name then none else m.addrOfName name := by
  rw [remove, h]
  exact getElem?_erase_ite

lemma remove_none (h : m.get a = none) : m.remove a = m := by rw [remove, h]

end MemStore

namespace AnsService

variable {S : SigScheme} {sha256 : Bytes → Arr UInt8 32} {self : AnsService} {store store' : MemStore} {spec : RegisterSpec}
  {now : UInt64} {name : Bytes} {addr : IPv8Address}

/-- The card that passes is one for the address. -/
lemma checkSpec_addr {pubkey : PublicKey} {cardHash : Arr UInt8 16}
    (h : self.checkSpec S sha256 spec now = .ok (addr, pubkey, cardHash)) : spec.card.addr = addr := by
  rw [checkSpec] at h
  simp only [bind, Except.bind] at h
  split at h
  · split at h
    · cases h
    split at h
    · cases h
    next hcard =>
    -- the checks that are left answer an error or the address that was read
    split at h
    · cases h
    split at h
    · cases h
    split at h
    · cases h
    split at h
    · cases h
    split at h
    · cases h
    split at h
    · cases h
    split at h
    · cases h
    split at h
    · cases h
    split at h
    · cases h
    cases h
    exact not_not.mp (not_or.mp hcard).2
  · cases h

/-- A name is taken from nobody, or from another agent whose card has expired. -/
lemma takeName_cases (h : takeName store name addr now = .ok store') :
    (store' = store ∧ ∀ holder, store.addrOfName name = some holder → holder = addr) ∨
    ∃ holder ≠ addr, store.addrOfName name = some holder ∧ (∀ a, store.get holder = some a → a.isExpired now = true) ∧
      store' = store.remove holder := by
  rw [takeName] at h
  cases hname : store.addrOfName name with
  | none =>
    rw [hname] at h
    cases h
    exact .inl ⟨rfl, fun _ h => by cases h⟩
  | some holder =>
    rw [hname] at h
    dsimp only at h
    split at h
    · next heq =>
      cases h
      exact .inl ⟨rfl, fun _ h => (Option.some_inj.mp h).symm.trans heq⟩
    · next hne =>
      split at h
      · cases h
      · next hlive =>
        cases h
        refine .inr ⟨holder, hne, rfl, fun a ha => ?_, rfl⟩
        rw [ha, Option.any_some, Bool.not_eq_true, Bool.not_eq_false'] at hlive
        exact hlive

/-- What a registration may do: nothing, take the name and fail, or take it and store the card. -/
lemma register_cases {s' : AnsService} {result : Except AnsError (Arr UInt8 16)}
    (h : self.register S sha256 spec now = (s', result)) :
    (s' = self ∧ (∃ e, result = .error e) ∧ ∀ addr pubkey cardHash store,
      self.checkSpec S sha256 spec now = .ok (addr, pubkey, cardHash) → takeName self.store spec.card.name addr now ≠ .ok store) ∨
    ∃ addr pubkey cardHash store, self.checkSpec S sha256 spec now = .ok (addr, pubkey, cardHash) ∧
      takeName self.store spec.card.name addr now = .ok store ∧
      ((s' = { self with store := store } ∧ result = .error .keyConflict ∧ ∃ cur, store.get addr = some cur ∧ cur.edPub ≠ pubkey) ∨
        (result = .ok cardHash ∧ (∀ cur, store.get addr = some cur → cur.edPub = pubkey) ∧
          s' = { self with store := store.put addr ⟨pubkey, spec.card.name, spec.card,
            ⟨spec.card.version, cardHash, spec.card.notAfter, pubkey, spec.cardSig⟩, (store.get addr).bind StoredAgent.lease⟩ })) := by
  rw [register] at h
  cases hcheck : self.checkSpec S sha256 spec now with
  | error e =>
    rw [hcheck] at h
    cases h
    exact .inl ⟨rfl, ⟨e, rfl⟩, fun _ _ _ _ hok => by cases hok⟩
  | ok checked =>
    obtain ⟨addr, pubkey, cardHash⟩ := checked
    rw [hcheck] at h
    dsimp only at h
    cases htake : takeName self.store spec.card.name addr now with
    | error e =>
      rw [htake] at h
      cases h
      refine .inl ⟨rfl, ⟨e, rfl⟩, fun _ _ _ store hok htake' => ?_⟩
      cases hok
      rw [htake] at htake'
      cases htake'
    | ok store =>
      rw [htake] at h
      refine .inr ⟨addr, pubkey, cardHash, store, rfl, htake, ?_⟩
      dsimp only at h
      split at h
      · next hkey =>
        cases h
        cases hcur : store.get addr with
        | none =>
          rw [hcur] at hkey
          cases hkey
        | some cur =>
          rw [hcur, Option.any_some, decide_eq_true_eq] at hkey
          exact .inl ⟨rfl, rfl, cur, rfl, hkey⟩
      · next hkey =>
        cases h
        refine .inr ⟨rfl, fun cur hcur => ?_, rfl⟩
        rw [hcur, Option.any_some, decide_eq_true_eq, not_not] at hkey
        exact hkey

end AnsService

end IPv8Plus.Cloud.Ans
