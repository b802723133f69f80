import IPv8Plus.Cloud.SignedMessages
import IPv8Plus.Cloud.Sweep

/-!
# The resolver

`ResolverService` of `cloud/resolver/src/lib.rs`, over any store. Addresses and signed messages are bytes, the texts that
are only stored are strings. A call takes clock readings for each of its calls of the store.

Who may change an entry that has not expired: its key stays, a registration must name that key, and a meeting must carry
a proof that the holder of the key has made for it.
-/

namespace IPv8Plus.Cloud
open Lib Codec Routing Tunnel

inductive ResolveError where
  | badAddress
  | notFound
  | badProof
  | keyConflict (addr : IPv8Address)
  deriving DecidableEq, Repr

def defaultTtl : Duration := .fromSecs 300

def maxTtlSecs : UInt64 := 24 * 3600

/-- `OBSERVED_MAX_AGE` -/
def observedMaxAge : Duration := .fromSecs 90

def defaultMtu : UInt32 := 1432

def maxLocalCandidates : ℕ := 8

def maxCandidateLen : ℕ := 64

def NodeRecord.freshObserved (r : NodeRecord) (now : Instant) : Option String :=
  (r.observed.filter fun o => now - o.2 ≤ observedMaxAge.val).map (·.1)

/-- `char::is_control` -/
def isControl (c : Char) : Bool := c.toNat < 0x20 ∨ (0x7F ≤ c.toNat ∧ c.toNat < 0xA0)

def sanitizeCandidate (s : String) : Option String :=
  let t := (s.toList.take maxCandidateLen).filter fun c => !isControl c
  if t = [] then none else some (.ofList t)

def sanitizeCandidates (list : List String) : List String := (list.take maxLocalCandidates).filterMap sanitizeCandidate

/-- `rsplit_once(':')` -/
def rsplitColon (s : String) : Option (List Char × List Char) :=
  if ':' ∈ s.toList then
    let back := s.toList.reverse
    some ((back.dropWhile (· ≠ ':')).tail.reverse, (back.takeWhile (· ≠ ':')).reverse)
  else none

structure RegisterSpec where
  addrText : Bytes
  edPub : Bytes
  proof : Bytes
  tunnelEntry : String
  altEntries : List String
  ipv8Capable : Bool
  mtu : UInt32
  ttlSecs : UInt64
  observed : Option String

structure RegisterOutcome where
  ttl : Duration
  observed : Option String
  deriving DecidableEq

structure Resolved where
  tunnelEntry : String
  altEntries : List String
  ipv8Capable : Bool
  mtu : UInt32
  ttl : Duration
  deriving DecidableEq

structure RendezvousOutcome where
  peerCandidates : List String
  selfObserved : Option String
  ttl : Duration
  deriving DecidableEq

namespace Resolver

def parseAddr (text : Bytes) : Outcome ResolveError IPv8Address :=
  (IPv8Address.fromCanonicalStr text).mapErr fun _ => .badAddress

variable (S : SigScheme)

/-- `VerifyingKey::from_bytes` -/
def parsePub (edPub : Bytes) : Outcome ResolveError PublicKey :=
  if h : edPub.length = 32 then
    if S.validKey ⟨edPub, h⟩ then .ok ⟨edPub, h⟩ else .err .badProof
  else .err .badProof

/-- `parse_sig` and `verify_strict` -/
def checkProof (key : PublicKey) (message proof : Bytes) : Outcome ResolveError Unit :=
  if h : proof.length = 64 then
    if S.verifyStrict key message ⟨proof, h⟩ then .ok () else .err .badProof
  else .err .badProof

/-- Under the key that is stored nothing is asked for; an entry that has expired is as good as none. -/
def admitRegister (spec : RegisterSpec) (addr : IPv8Address) (key : PublicKey) (existing : Option Entry) (now : Instant) :
    Outcome ResolveError Unit :=
  match existing with
  | some e =>
    if e.edPub = key then .ok ()
    else if e.record.isExpired now then checkProof S key (resolverRegisterMessage spec.addrText spec.edPub) spec.proof
    else .err (.keyConflict addr)
  | none => checkProof S key (resolverRegisterMessage spec.addrText spec.edPub) spec.proof

def ttlOf (ttlSecs : UInt64) : Duration :=
  if ttlSecs = 0 then defaultTtl else .fromSecs (max 1 (min ttlSecs maxTtlSecs))

/-- What is observed now, or what was observed and offered under the same key. -/
def observedOf (spec : RegisterSpec) (key : PublicKey) (existing : Option Entry) (now : Instant) :
    Option (String × Instant) × List String :=
  match spec.observed, existing with
  | some o, _ => (some (o, now), [])
  | none, some e => if e.edPub = key then (e.record.observed, e.record.localCandidates) else (none, [])
  | none, none => (none, [])

def recordOf (spec : RegisterSpec) (key : PublicKey) (existing : Option Entry) (now : Instant) : NodeRecord where
  tunnelEntry := spec.tunnelEntry
  altEntries := spec.altEntries
  ipv8Capable := spec.ipv8Capable
  mtu := spec.mtu
  registeredAt := now
  ttl := ttlOf spec.ttlSecs
  observed := (observedOf spec key existing now).1
  localCandidates := (observedOf spec key existing now).2

/-- The entry of the node itself after a meeting. -/
def meet (e : Entry) (localCandidates : List String) (observed : Option String) (now : Instant) : Entry where
  edPub := e.edPub
  record := { e.record with
    observed := match observed with
      | some o => some (o, now)
      | none => e.record.observed
    localCandidates := sanitizeCandidates localCandidates }

/-- The observed address with the port of the entry, and as it is. -/
def observedCandidates (peer : NodeRecord) (now : Instant) : List String :=
  match peer.freshObserved now with
  | none => []
  | some o =>
    match rsplitColon o, rsplitColon peer.tunnelEntry with
    | some (ip, _), some (_, port) =>
      if port = [] then [o]
      else
        let combo := String.ofList (ip ++ ':' :: port)
        if combo = o then [combo] else [combo, o]
    | _, _ => [o]

def addCandidates : List String → List String → List String
  | candidates, [] => candidates
  | candidates, c :: rest =>
    if candidates.length > 1 + maxLocalCandidates then candidates
    else addCandidates (if c ∈ candidates then candidates else candidates ++ [c]) rest

variable {D : Type} [Store D]

/-- What `get` of the store answers: it knows no errors. -/
def lookup (d : D) (clock : ℕ → Reading) (addr : IPv8Address) : D × Outcome ResolveError (Option Entry) :=
  ((Store.get d clock addr).1, (Store.get d clock addr).2.mapErr nofun)

def register (d : D) (clock : ℕ → ℕ → Reading) (spec : RegisterSpec) (now : Instant) :
    D × Outcome ResolveError RegisterOutcome :=
  match (do return (← parseAddr spec.addrText, ← parsePub S spec.edPub)) with
  | .ok (addr, key) =>
    match lookup d (clock 0) addr with
    | (d, .ok existing) =>
      match admitRegister S spec addr key existing now with
      | .ok () =>
        let d := Store.insert d (clock 1) addr ⟨key, recordOf spec key existing now⟩
        let (d, stored) := lookup d (clock 2) addr
        (d, do
          let stored ← stored
          return ⟨ttlOf spec.ttlSecs, stored.bind fun e => e.record.observed.map (·.1)⟩)
      | .err e => (d, .err e)
      | .panic => (d, .panic)
    | (d, .err e) => (d, .err e)
    | (d, .panic) => (d, .panic)
  | .err e => (d, .err e)
  | .panic => (d, .panic)

/-- An entry that has expired is not told from none. -/
def inForce (now : Instant) : Option Entry → Outcome ResolveError Entry
  | some e => if e.record.isExpired now then .err .notFound else .ok e
  | none => .err .notFound

def resolve (d : D) (clock : ℕ → Reading) (targetText : Bytes) (now : Instant) : D × Outcome ResolveError Resolved :=
  match parseAddr targetText with
  | .ok addr =>
    let (d, stored) := lookup d clock addr
    (d, do
      let e ← inForce now (← stored)
      return {
        tunnelEntry := e.record.tunnelEntry
        altEntries := e.record.altEntries
        ipv8Capable := e.record.ipv8Capable
        mtu := if e.record.mtu = 0 then defaultMtu else e.record.mtu
        ttl := e.record.ttl })
  | .err e => (d, .err e)
  | .panic => (d, .panic)

structure RendezvousSpec where
  addrText : Bytes
  peerText : Bytes
  proof : Bytes
  localCandidates : List String
  observed : Option String

/-- The check of the node itself: its entry, and a proof under the stored key. -/
def identify (spec : RendezvousSpec) (now : Instant) (stored : Outcome ResolveError (Option Entry)) :
    Outcome ResolveError Entry := do
  let me ← inForce now (← stored)
  let key ← parsePub S me.edPub.val
  checkProof S key (rendezvousPopMessage spec.addrText spec.peerText) spec.proof
  return me

def rendezvous (d : D) (clock : ℕ → ℕ → Reading) (spec : RendezvousSpec) (now : Instant) :
    D × Outcome ResolveError RendezvousOutcome :=
  match (do return (← parseAddr spec.addrText, ← parseAddr spec.peerText)) with
  | .ok (addr, peer) =>
    let (d, stored) := lookup d (clock 0) addr
    match identify S spec now stored with
    | .ok me =>
      let d := Store.insert d (clock 1) addr (meet me spec.localCandidates spec.observed now)
      let (d, stored) := lookup d (clock 2) peer
      -- the node's own entry is changed, whether or not the peer is there
      (d, do
        let pe ← inForce now (← stored)
        return {
          peerCandidates := addCandidates (observedCandidates pe.record now) pe.record.localCandidates
          selfObserved := spec.observed
          ttl := observedMaxAge })
    | .err e => (d, .err e)
    | .panic => (d, .panic)
  | .err e => (d, .err e)
  | .panic => (d, .panic)

inductive Call where
  | register (clock : ℕ → ℕ → Reading) (spec : RegisterSpec) (now : Instant)
  | rendezvous (clock : ℕ → ℕ → Reading) (spec : RendezvousSpec) (now : Instant)
  | resolve (clock : ℕ → Reading) (targetText : Bytes) (now : Instant)
  | sweepExpired (clock : ℕ → Reading) (now : Instant)

def Call.now : Call → Instant
  | .register _ _ now => now
  | .rendezvous _ _ now => now
  | .resolve _ _ now => now
  | .sweepExpired _ now => now

inductive Answer where
  | registered (outcome : Outcome ResolveError RegisterOutcome)
  | met (outcome : Outcome ResolveError RendezvousOutcome)
  | resolved (outcome : Outcome ResolveError Resolved)
  | swept (removed : ℕ)
  deriving DecidableEq

def step (d : D) : Call → D × Answer
  | .register clock spec now => ((register S d clock spec now).1, .registered (register S d clock spec now).2)
  | .rendezvous clock spec now => ((rendezvous S d clock spec now).1, .met (rendezvous S d clock spec now).2)
  | .resolve clock targetText now => ((resolve d clock targetText now).1, .resolved (resolve d clock targetText now).2)
  | .sweepExpired clock now => ((Store.sweepExpired d clock now).1, .swept (Store.sweepExpired d clock now).2)

/-- What the proof of a call is checked to sign, and the proof. -/
def Call.Carries : Call → Bytes → Signature → Prop
  | .register _ spec _, message, sig => message = resolverRegisterMessage spec.addrText spec.edPub ∧ spec.proof = sig.val
  | .rendezvous _ spec _, message, sig => message = rendezvousPopMessage spec.addrText spec.peerText ∧ spec.proof = sig.val
  | .resolve .., _, _ => False
  | .sweepExpired .., _, _ => False

/-- What a call makes of the entry of `a` under `key`, while it has not expired. A registration that names the key is not
asked who it comes from. -/
inductive Touch (Signed : SignedMessage → Prop) (a : IPv8Address) (key : PublicKey) (e : Entry) : Call → Entry → Prop where
  | kept (c : Call) : Touch Signed a key e c e
  | registered (clock : ℕ → ℕ → Reading) (spec : RegisterSpec) (now : Instant) (haddr : parseAddr spec.addrText = .ok a)
      (hkey : spec.edPub = key.val) :
      Touch Signed a key e (.register clock spec now) ⟨key, recordOf spec key (some e) now⟩
  | met (clock : ℕ → ℕ → Reading) (spec : RendezvousSpec) (now : Instant) (haddr : parseAddr spec.addrText = .ok a)
      (hsigned : Signed (.rendezvous spec.addrText spec.peerText)) :
      Touch Signed a key e (.rendezvous clock spec now) (meet e spec.localCandidates spec.observed now)

/-- The meeting is admitted: two addresses, an entry in force, and a proof under its key. -/
def Meets [LawfulStore D] (d : D) (spec : RendezvousSpec) (now : Instant) : Prop := ∃ addr peer me, parseAddr spec.addrText = .ok addr ∧
  parseAddr spec.peerText = .ok peer ∧ identify S spec now (.ok (LawfulStore.view d addr)) = .ok me

section Lemmas

variable {S} {text edPub message proof : Bytes} {a b addr : IPv8Address} {key : PublicKey} {now : Instant}

lemma parseAddr_length (h : parseAddr text = .ok a) : text.length = 32 := by
  unfold parseAddr at h
  cases hread : IPv8Address.fromCanonicalStr text with
  | ok addr => exact fromCanonicalStr_length hread
  | err e => exact absurd (hread ▸ h) nofun
  | panic => exact absurd (hread ▸ h) nofun

lemma parsePub_val (h : parsePub S edPub = .ok key) : edPub = key.val := by
  unfold parsePub at h
  split_ifs at h
  cases h
  rfl

lemma checkProof_eq_ok : checkProof S key message proof = .ok () ↔
    ∃ sig : Signature, proof = sig.val ∧ S.verifyStrict key message sig = true := by
  unfold checkProof
  split_ifs with hlen hsig
  · exact iff_of_true rfl ⟨⟨proof, hlen⟩, rfl, hsig⟩
  · refine iff_of_false nofun ?_
    rintro ⟨sig, rfl, hsig'⟩
    exact hsig hsig'
  · refine iff_of_false nofun ?_
    rintro ⟨sig, rfl, -⟩
    exact hlen sig.property

variable {stored : Outcome ResolveError (Option Entry)} {existing : Option Entry} {e : Entry}

lemma inForce_eq_ok (h : inForce now existing = .ok e) : existing = some e ∧ e.record.isExpired now = false := by
  cases existing with
  | none => cases h
  | some e' =>
    rw [inForce] at h
    split_ifs at h with hexpired
    cases h
    exact ⟨rfl, Bool.eq_false_iff.mpr hexpired⟩

lemma identify_eq_ok {spec : RendezvousSpec} (h : identify S spec now stored = .ok e) :
    stored = .ok (some e) ∧ e.record.isExpired now = false ∧
      checkProof S e.edPub (rendezvousPopMessage spec.addrText spec.peerText) spec.proof = .ok () := by
  cases stored with
  | err x => cases h
  | panic => cases h
  | ok existing =>
    rw [identify, Outcome.ok_bind] at h
    cases hforce : inForce now existing with
    | err x => cases hforce ▸ h
    | panic => cases hforce ▸ h
    | ok me =>
      rw [hforce, Outcome.ok_bind] at h
      cases hpub : parsePub S me.edPub.val with
      | err x => cases hpub ▸ h
      | panic => cases hpub ▸ h
      | ok key =>
        rw [hpub, Outcome.ok_bind] at h
        cases hproof : checkProof S key (rendezvousPopMessage spec.addrText spec.peerText) spec.proof with
        | err x => cases hproof ▸ h
        | panic => cases hproof ▸ h
        | ok u =>
          rw [hproof, Outcome.ok_bind] at h
          cases h
          obtain ⟨rfl, hlive⟩ := inForce_eq_ok hforce
          rw [← Subtype.ext (parsePub_val hpub)] at hproof
          exact ⟨rfl, hlive, hproof⟩

variable [LawfulStore D] {d : D} {clock : ℕ → Reading}

lemma valid_lookup (hv : LawfulStore.Valid d) (clock : ℕ → Reading) (a : IPv8Address) :
    LawfulStore.Valid (lookup d clock a).1 := LawfulStore.get_valid d clock a hv

lemma view_lookup (hv : LawfulStore.Valid d) : LawfulStore.view (lookup d clock a).1 = LawfulStore.view d :=
  LawfulStore.get_view d clock a hv

lemma lookup_eq_ok (hv : LawfulStore.Valid d) (h : (lookup d clock a).2 = .ok existing) : existing = LawfulStore.view d a := by
  unfold lookup at h
  rcases LawfulStore.get_answer d clock a hv with hok | ⟨-, hpanic⟩
  · rw [hok] at h
    cases h
    rfl
  · rw [hpanic] at h
    cases h

/-- A call leaves the table as it is, or writes an entry for one address. -/
def Writes (d d' : D) (W : IPv8Address → Entry → Prop) : Prop :=
  LawfulStore.Valid d' ∧ ((LawfulStore.view d' = LawfulStore.view d) ∨
    ∃ addr e, W addr e ∧ ∀ b, LawfulStore.view d' b = if addr = b then some e else LawfulStore.view d b)

lemma Writes.none {W : IPv8Address → Entry → Prop} (hv : LawfulStore.Valid d) : Writes d d W := ⟨hv, .inl rfl⟩

lemma Writes.lookup {W : IPv8Address → Entry → Prop} (hv : LawfulStore.Valid d) :
    Writes d (lookup d clock a).1 W := ⟨valid_lookup hv clock a, .inl (view_lookup hv)⟩

/-- An entry is looked up, one is written, and one is looked up again. -/
lemma Writes.insert {W : IPv8Address → Entry → Prop} (hv : LawfulStore.Valid d) {clock₁ clock₂ : ℕ → Reading} (hw : W addr e) :
    Writes d (Resolver.lookup (Store.insert (Resolver.lookup d clock a).1 clock₁ addr e) clock₂ b).1 W := by
  have hfirst := valid_lookup hv clock a
  have hinsert := LawfulStore.insert_valid _ clock₁ addr e hfirst
  refine ⟨valid_lookup hinsert clock₂ b, .inr ⟨addr, e, hw, fun c => ?_⟩⟩
  rw [view_lookup hinsert, LawfulStore.insert_view _ clock₁ addr c e hfirst, view_lookup hv]

lemma register_writes (hv : LawfulStore.Valid d) (clock : ℕ → ℕ → Reading) (spec : RegisterSpec) (now : Instant) :
    Writes d (register S d clock spec now).1 fun addr e => ∃ key, parseAddr spec.addrText = .ok addr ∧
      parsePub S spec.edPub = .ok key ∧ admitRegister S spec addr key (LawfulStore.view d addr) now = .ok () ∧
        e = ⟨key, recordOf spec key (LawfulStore.view d addr) now⟩ := by
  unfold register
  cases haddr : parseAddr spec.addrText with
  | err x => exact .none hv
  | panic => exact .none hv
  | ok addr =>
    cases hkey : parsePub S spec.edPub with
    | err x => exact .none hv
    | panic => exact .none hv
    | ok key =>
      simp only [Outcome.ok_bind, Outcome.pure_def]
      rw [← Prod.mk.eta (p := lookup d (clock 0) addr)]
      cases hfound : (lookup d (clock 0) addr).2 with
      | err x => exact .lookup hv
      | panic => exact .lookup hv
      | ok existing =>
        cases lookup_eq_ok hv hfound
        dsimp only
        cases hadmitted : admitRegister S spec addr key (LawfulStore.view d addr) now with
        | err x => exact .lookup hv
        | panic => exact .lookup hv
        | ok u => exact .insert hv ⟨key, rfl, rfl, hadmitted, rfl⟩

lemma identify_lookup {spec : RendezvousSpec} {me : Entry} (hv : LawfulStore.Valid d) (clock : ℕ → Reading) :
    identify S spec now (lookup d clock addr).2 = .ok me ↔ identify S spec now (.ok (LawfulStore.view d addr)) = .ok me := by
  unfold lookup
  rcases LawfulStore.get_answer d clock addr hv with hok | ⟨hnone, hpanic⟩
  · rw [hok]
    rfl
  · rw [hpanic, hnone]
    exact iff_of_false nofun nofun

/-- A meeting that is admitted, and one that is not. -/
lemma rendezvous_cases (hv : LawfulStore.Valid d) (clock : ℕ → ℕ → Reading) (spec : RendezvousSpec) (now : Instant) :
    (∃ addr peer me, parseAddr spec.addrText = .ok addr ∧ parseAddr spec.peerText = .ok peer ∧
      identify S spec now (.ok (LawfulStore.view d addr)) = .ok me ∧
      rendezvous S d clock spec now =
        let met := Store.insert (lookup d (clock 0) addr).1 (clock 1) addr (meet me spec.localCandidates spec.observed now)
        ((lookup met (clock 2) peer).1, do
          let pe ← inForce now (← (lookup met (clock 2) peer).2)
          return {
            peerCandidates := addCandidates (observedCandidates pe.record now) pe.record.localCandidates
            selfObserved := spec.observed
            ttl := observedMaxAge })) ∨
    (¬ Meets S d spec now ∧ LawfulStore.Valid (rendezvous S d clock spec now).1 ∧
      LawfulStore.view (rendezvous S d clock spec now).1 = LawfulStore.view d ∧
        ∀ out, (rendezvous S d clock spec now).2 ≠ .ok out) := by
  unfold rendezvous Meets
  cases haddr : parseAddr spec.addrText with
  | err x => exact .inr ⟨nofun, hv, rfl, nofun⟩
  | panic => exact .inr ⟨nofun, hv, rfl, nofun⟩
  | ok addr =>
    cases hpeer : parseAddr spec.peerText with
    | err x => exact .inr ⟨nofun, hv, rfl, nofun⟩
    | panic => exact .inr ⟨nofun, hv, rfl, nofun⟩
    | ok peer =>
      simp only [Outcome.ok_bind, Outcome.pure_def]
      rw [← Prod.mk.eta (p := lookup d (clock 0) addr)]
      dsimp only
      have hadmitted : ∀ me, _ ↔ identify S spec now (.ok (LawfulStore.view d addr)) = .ok me :=
        fun me => identify_lookup hv (clock 0)
      cases hme : identify S spec now (lookup d (clock 0) addr).2 with
      | ok me => exact .inl ⟨addr, peer, me, rfl, rfl, (hadmitted me).mp hme, rfl⟩
      | err x =>
        refine .inr ⟨?_, valid_lookup hv _ _, view_lookup hv, nofun⟩
        rintro ⟨_, _, me, ⟨⟩, ⟨⟩, hview⟩
        cases hme.symm.trans ((hadmitted me).mpr hview)
      | panic =>
        refine .inr ⟨?_, valid_lookup hv _ _, view_lookup hv, nofun⟩
        rintro ⟨_, _, me, ⟨⟩, ⟨⟩, hview⟩
        cases hme.symm.trans ((hadmitted me).mpr hview)

/-- The table after a meeting that is admitted. -/
lemma view_met (hv : LawfulStore.Valid d) (clock : ℕ → ℕ → Reading) (addr peer : IPv8Address) (e : Entry) (b : IPv8Address) :
    let met := Store.insert (lookup d (clock 0) addr).1 (clock 1) addr e
    LawfulStore.Valid (lookup met (clock 2) peer).1 ∧ LawfulStore.view (lookup met (clock 2) peer).1 = LawfulStore.view met ∧
      LawfulStore.Valid met ∧ LawfulStore.view met b = if addr = b then some e else LawfulStore.view d b := by
  have hfirst := valid_lookup hv (clock 0) addr
  have hmet := LawfulStore.insert_valid _ (clock 1) addr e hfirst
  refine ⟨valid_lookup hmet (clock 2) peer, view_lookup hmet, hmet, ?_⟩
  rw [LawfulStore.insert_view _ (clock 1) addr b e hfirst, view_lookup hv]

lemma rendezvous_writes (hv : LawfulStore.Valid d) (clock : ℕ → ℕ → Reading) (spec : RendezvousSpec) (now : Instant) :
    Writes d (rendezvous S d clock spec now).1 fun addr e => ∃ peer me, parseAddr spec.addrText = .ok addr ∧
      parseAddr spec.peerText = .ok peer ∧ identify S spec now (.ok (LawfulStore.view d addr)) = .ok me ∧
        e = meet me spec.localCandidates spec.observed now := by
  rcases rendezvous_cases (S := S) hv clock spec now with ⟨addr, peer, me, haddr, hpeer, hme, heq⟩ | ⟨-, hvalid, hsame, -⟩
  · rw [heq]
    exact .insert hv ⟨peer, me, haddr, hpeer, hme, rfl⟩
  · exact ⟨hvalid, .inl hsame⟩

lemma resolve_writes (hv : LawfulStore.Valid d) (clock : ℕ → Reading) (targetText : Bytes) (now : Instant) :
    Writes d (resolve d clock targetText now).1 fun _ _ => False := by
  unfold resolve
  cases parseAddr targetText with
  | ok addr => exact .lookup hv
  | err x => exact .none hv
  | panic => exact .none hv

/-- What stands for an address afterwards stood there before, or was written. -/
lemma Writes.found {d' : D} {W : IPv8Address → Entry → Prop} (h : Writes d d' W) (he : LawfulStore.view d a = some e) :
    ∃ e', LawfulStore.view d' a = some e' ∧ (e' = e ∨ W a e') := by
  rcases h with ⟨-, hsame | ⟨addr, e', hw, hview⟩⟩
  · exact ⟨e, hsame ▸ he, .inl rfl⟩
  · by_cases heq : addr = a
    · cases heq
      exact ⟨e', (hview a).trans (if_pos rfl), .inr hw⟩
    · exact ⟨e, (hview a).trans ((if_neg heq).trans he), .inl rfl⟩

/-- Only the stored key may register while the entry is in force. -/
lemma admit_key {spec : RegisterSpec} (hlive : e.record.isExpired now = false)
    (h : admitRegister S spec addr key (some e) now = .ok ()) : e.edPub = key := by
  by_contra hne
  rw [admitRegister, if_neg hne, hlive, if_neg Bool.false_ne_true] at h
  cases h

variable {Signed : SignedMessage → Prop} {c : Call}

/-- What passes for a signature of the key's holder is one. -/
def Genuine (S : SigScheme) (Signed : SignedMessage → Prop) (key : PublicKey) (c : Call) : Prop :=
  ∀ (message : Bytes) (sig : Signature), c.Carries message sig → S.verifyStrict key message sig = true →
    ∃ m : SignedMessage, m.Valid ∧ m.message = message ∧ Signed m

/-- A proof for a meeting is a signature for this meeting, and not one for another purpose. -/
lemma Genuine.rendezvous {clock : ℕ → ℕ → Reading} {spec : RendezvousSpec}
    (hg : Genuine S Signed key (.rendezvous clock spec now)) (haddr : spec.addrText.length = 32)
    (hpeer : spec.peerText.length = 32)
    (hproof : checkProof S key (rendezvousPopMessage spec.addrText spec.peerText) spec.proof = .ok ()) :
    Signed (.rendezvous spec.addrText spec.peerText) := by
  obtain ⟨sig, hsig, hverify⟩ := checkProof_eq_ok.mp hproof
  obtain ⟨m, hvalid, hmessage, hsigned⟩ := hg _ sig ⟨rfl, hsig⟩ hverify
  have hm : m = .rendezvous spec.addrText spec.peerText :=
    SignedMessage.fields_inj hvalid (b := .rendezvous spec.addrText spec.peerText) ⟨haddr, hpeer⟩ hmessage
  exact hm ▸ hsigned

lemma step_touch (hv : LawfulStore.Valid d) (he : LawfulStore.view d a = some e) (hkey : e.edPub = key)
    (hlive : e.record.isExpired c.now = false) (hg : Genuine S Signed key c) :
    LawfulStore.Valid (step S d c).1 ∧
      ∃ e', LawfulStore.view (step S d c).1 a = some e' ∧ e'.edPub = key ∧ Touch Signed a key e c e' := by
  cases c with
  | register clock spec now =>
    have hw := register_writes (S := S) hv clock spec now
    obtain ⟨e', hview, heq | ⟨key', haddr, hpub, hadmitted, heq⟩⟩ := hw.found he
    · exact ⟨hw.1, e', hview, heq ▸ hkey, heq ▸ .kept _⟩
    · rw [he] at hadmitted heq
      cases (admit_key hlive hadmitted).symm.trans hkey
      exact ⟨hw.1, e', hview, heq ▸ rfl, heq ▸ .registered clock spec now haddr (parsePub_val hpub)⟩
  | rendezvous clock spec now =>
    have hw := rendezvous_writes (S := S) hv clock spec now
    obtain ⟨e', hview, heq | ⟨peer, me, haddr, hpeer, hme, heq⟩⟩ := hw.found he
    · exact ⟨hw.1, e', hview, heq ▸ hkey, heq ▸ .kept _⟩
    · obtain ⟨hfound, -, hproof⟩ := identify_eq_ok hme
      cases he.symm.trans (Outcome.ok.inj hfound)
      cases hkey
      exact ⟨hw.1, e', hview, heq ▸ rfl, heq ▸ .met clock spec now haddr
        (hg.rendezvous (parseAddr_length haddr) (parseAddr_length hpeer) hproof)⟩
  | resolve clock targetText now =>
    have hw := resolve_writes hv clock targetText now
    obtain ⟨e', hview, heq | hno⟩ := hw.found he
    · exact ⟨hw.1, e', hview, heq ▸ hkey, heq ▸ .kept _⟩
    · exact hno.elim
  | sweepExpired clock now =>
    refine ⟨LawfulStore.sweep_valid d clock now hv, e, ?_, hkey, .kept _⟩
    rw [step, LawfulStore.sweep_view d clock now a hv, he]
    exact Option.filter_eq_some_iff.mpr ⟨rfl, by rw [show e.record.isExpired now = false from hlive]; rfl⟩

end Lemmas

/-- While an entry has not expired, it stays, under its key, whoever calls. A call changes it only if it is a registration
that names this key, or a meeting whose proof the holder of the key has signed for this address and peer, now or earlier;
and the latter changes nothing but the observed address and the candidates. -/
theorem entry_guarded {S : SigScheme} {D : Type} [Store D] [LawfulStore D] {d : D} {a : IPv8Address} {e₀ : Entry}
    {calls : List Call} {Signed : SignedMessage → Prop} (hvalid : LawfulStore.Valid d)
    (hentry : LawfulStore.view d a = some e₀) (hunforgeable : ∀ c ∈ calls, Genuine S Signed e₀.edPub c)
    (hlive : Along (step S) (fun d c => ∀ e, LawfulStore.view d a = some e → e.record.isExpired c.now = false) d calls) :
    Along (step S) (fun d c => ∃ e e', LawfulStore.view d a = some e ∧ e.edPub = e₀.edPub ∧
      LawfulStore.view (step S d c).1 a = some e' ∧ e'.edPub = e₀.edPub ∧ Touch Signed a e₀.edPub e c e') d calls := by
  have hgenuine : Along (step S) (fun _ c => Genuine S Signed e₀.edPub c) d calls := along_of_forall hunforgeable
  refine Along.of_invariant (I := fun d => LawfulStore.Valid d ∧ ∃ e, LawfulStore.view d a = some e ∧ e.edPub = e₀.edPub)
    ?_ ?_ ⟨hvalid, e₀, hentry, rfl⟩ (along_and.mpr ⟨hlive, hgenuine⟩)
  · rintro d c ⟨hv, e, he, hkey⟩ ⟨hexpiry, hg⟩
    obtain ⟨hv', e', he', hkey', -⟩ := step_touch hv he hkey (hexpiry e he) hg
    exact ⟨hv', e', he', hkey'⟩
  · rintro d c ⟨hv, e, he, hkey⟩ ⟨hexpiry, hg⟩
    obtain ⟨-, e', he', hkey', htouch⟩ := step_touch hv he hkey (hexpiry e he) hg
    exact ⟨e, e', he, hkey, he', hkey', htouch⟩

/-! ## A node and somebody else -/

def nodeAddr (k : UInt16) : IPv8Address := ⟨protocolMagic, 0, 0, 0, 0, 0, 0, k⟩

def nodeText (k : UInt16) : Bytes := (nodeAddr k).toCanonicalString

def nodeKey : PublicKey := ⟨List.replicate 32 7, List.length_replicate⟩

/-- A registration of node 1 under its key. -/
def registration (tunnelEntry : String) (proof : Bytes) (now : Instant) : Call :=
  .register (fun _ _ => ⟨0, 0⟩)
    { addrText := nodeText 1, edPub := nodeKey.val, proof, tunnelEntry, altEntries := [], ipv8Capable := true, mtu := 0,
      ttlSecs := 0, observed := none } now

/-- The request of node 1 to meet node 2, with the proof that the node has made for it. -/
def meeting (localCandidates : List String) (now : Instant) : Call :=
  .rendezvous (fun _ _ => ⟨0, 0⟩)
    { addrText := nodeText 1, peerText := nodeText 2,
      proof := (sampleSignature nodeKey (rendezvousPopMessage (nodeText 1) (nodeText 2))).val, localCandidates,
      observed := none } now

/-- The node registers and asks to meet a peer. -/
def nodeCalls : List Call := [
  registration "192.0.2.1:7800" (sampleSignature nodeKey (resolverRegisterMessage (nodeText 1) nodeKey.val)).val 0,
  meeting ["10.0.0.1:7800"] 1]

/-- The store after the calls of the node and then of others. -/
def storeAfter (calls : List Call) : MemStore := (run (step sampleSig) (⟨∅⟩ : MemStore) (nodeCalls ++ calls)).1

/-- What node 1 has registered, with the candidates of its meeting. -/
def nodeEntry : Entry where
  edPub := nodeKey
  record :=
    { tunnelEntry := "192.0.2.1:7800", altEntries := [], ipv8Capable := true, mtu := 0, registeredAt := 0,
      ttl := defaultTtl, observed := none, localCandidates := ["10.0.0.1:7800"] }

/-- What others may do while the entry of node 1 has not expired. -/
def othersCalls : List Call := [registration "203.0.113.9:7800" [] 2, meeting ["203.0.113.9:7800"] 3]

lemma othersCalls_genuine : ∀ c ∈ othersCalls,
    Genuine sampleSig (· = .rendezvous (nodeText 1) (nodeText 2)) nodeEntry.edPub c := by
  intro c hc message sig hcarries hverify
  rcases List.mem_pair.mp hc with rfl | rfl
  · have hlen : ([] : Bytes).length = 64 := (congrArg List.length hcarries.2).trans sig.property
    cases hlen
  · have hlen : ∀ k, (nodeText k).length = 32 := fun k => by
      rw [nodeText, IPv8Address.toCanonicalString, length_hex, IPv8Address.length_toBytes]
    exact ⟨.rendezvous (nodeText 1) (nodeText 2), ⟨hlen 1, hlen 2⟩, hcarries.1.symm, rfl⟩

lemma othersCalls_live : Along (step sampleSig) (fun d c => ∀ e, LawfulStore.view d (nodeAddr 1) = some e →
    e.record.isExpired c.now = false) (storeAfter []) othersCalls := by
  have hall : Along (step sampleSig) (fun (d : MemStore) c => (d.get (nodeAddr 1)).all
      (fun e => !e.record.isExpired c.now) = true) (storeAfter []) othersCalls := by decide +kernel
  refine hall.mono fun d c h e he => ?_
  rw [show d.get (nodeAddr 1) = some e from he] at h
  exact (Bool.not_eq_true' _).mp h

theorem entry_guarded_sample : Along (step sampleSig) (fun d c => ∃ e e', LawfulStore.view d (nodeAddr 1) = some e ∧
    e.edPub = nodeKey ∧ LawfulStore.view (step sampleSig d c).1 (nodeAddr 1) = some e' ∧ e'.edPub = nodeKey ∧
      Touch (· = .rendezvous (nodeText 1) (nodeText 2)) (nodeAddr 1) nodeKey e c e') (storeAfter []) othersCalls :=
  @entry_guarded sampleSig MemStore _ _ _ _ nodeEntry _ _ trivial (by decide +kernel) othersCalls_genuine othersCalls_live

/-- Somebody else names the node's public key without any proof, and repeats its request to meet the peer: the entry and
the candidates are theirs. -/
theorem entry_changed_by_others :
    (((storeAfter []).get (nodeAddr 1)).map fun e => (e.record.tunnelEntry, e.record.localCandidates)) =
      some ("192.0.2.1:7800", ["10.0.0.1:7800"]) ∧
    (((storeAfter [registration "203.0.113.9:7800" [] 2]).get (nodeAddr 1)).map fun e => e.record.tunnelEntry) =
      some "203.0.113.9:7800" ∧
    (((storeAfter [meeting ["203.0.113.9:7800"] 2]).get (nodeAddr 1)).map fun e => e.record.localCandidates) =
      some ["203.0.113.9:7800"] := by
  decide +kernel

end Resolver

end IPv8Plus.Cloud
