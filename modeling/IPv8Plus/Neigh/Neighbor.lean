import IPv8Plus.Lib.BigEndian
import IPv8Plus.Lib.Keyed
import IPv8Plus.Lib.Outcome

/-!
# Neighbor discovery

`ipv8-neigh/src/lib.rs`: the frame of HELLO and ACK, the table of the neighbors that are trusted, and the processor with its
rings of seen nonces and its queue of HELLOs that wait for an ACK. Signatures are a parameter, as they are in the source.
Times are seconds; differences of times saturate as those of `i64` do.
-/

namespace IPv8Plus.Neigh
open Lib

def magic : Bytes := [0x49, 0x50, 0x38, 0x4E]

def version : UInt8 := 1

def msgHello : UInt8 := 1

def msgAck : UInt8 := 2

def msgLen : Nat := 136

def signedLen : Nat := 72

def tsWindowSecs : Int := 300

def nonceRing : Nat := 64

def pendingTtlSecs : Int := 30

def pendingMax : Nat := 1024

abbrev PublicKey := Arr UInt8 32

abbrev Signature := Arr UInt8 64

abbrev Addr := Arr UInt8 16

abbrev Mac := Arr UInt8 6

inductive NeighError where
  | badLength (expect got : Nat)
  | badMagic
  | badVersion (v : UInt8)
  | unknownType (t : UInt8)
  | badFlags (flags : Nat)
  | badTimestamp
  | badSignature
  | timestampOutOfWindow (msg now : Int)
  | replay (nonce : UInt64)
  | unexpectedType (t : UInt8)
  | ackNonceMismatch (nonce : UInt64)
  deriving DecidableEq, Repr

/-- `saturating_sub` of `i64` -/
def satSub (a b : Int) : Int := max (-2 ^ 63) (min (2 ^ 63 - 1) (a - b))

/-! ## Frames -/

structure NeighborMessage where
  msgType : UInt8
  flags : Nat
  addr : Addr
  tsSecs : Int
  nonce : UInt64
  pubkey : PublicKey
  sig : Signature
  deriving DecidableEq

/-- A field of a frame. -/
lemma length_field {buf : Bytes} {a n : Nat} (h : buf.length = msgLen) (hle : a + n ≤ msgLen) :
    ((buf.drop a).take n).length = n := by
  rw [List.length_take, List.length_drop, h]
  omega

/-- The timestamp goes in as the `u64` of the same bits. -/
def encodeParts (msgType : UInt8) (addr : Addr) (tsSecs : Int) (nonce : UInt64) (pubkey : PublicKey) (sig : Signature) : Bytes :=
  magic ++ [version, msgType, 0, 0] ++ addr.val ++ be64 (UInt64.ofInt tsSecs) ++ be64 nonce ++ pubkey.val ++ sig.val

def decode (buf : Bytes) : Except NeighError NeighborMessage :=
  if h : buf.length = msgLen then
    if buf.take 4 ≠ magic then .error .badMagic
    else if buf.getD 4 0 ≠ version then .error (.badVersion (buf.getD 4 0))
    else
      let msgType := buf.getD 5 0
      if msgType ≠ msgHello ∧ msgType ≠ msgAck then .error (.unknownType msgType)
      else
        let flags := ofBe ((buf.drop 6).take 2)
        if flags ≠ 0 then .error (.badFlags flags)
        else
          let rawTs := ofBe ((buf.drop 24).take 8)
          if 2 ^ 63 ≤ rawTs then .error .badTimestamp
          else
            .ok {
              msgType
              flags
              addr := ⟨(buf.drop 8).take 16, length_field h (by decide)⟩
              tsSecs := rawTs
              nonce := ofBe64 ((buf.drop 32).take 8)
              pubkey := ⟨(buf.drop 40).take 32, length_field h (by decide)⟩
              sig := ⟨(buf.drop 72).take 64, length_field h (by decide)⟩ }
  else .error (.badLength msgLen buf.length)

structure SignatureOps where
  sign : Bytes → Signature
  verify : PublicKey → Bytes → Signature → Bool

def zeroSig : Signature := ⟨List.replicate 64 0, List.length_replicate⟩

def buildSigned (S : SignatureOps) (msgType : UInt8) (addr : Addr) (tsSecs : Int) (nonce : UInt64) (pubkey : PublicKey) :
    Bytes :=
  let unsigned := encodeParts msgType addr tsSecs nonce pubkey zeroSig
  encodeParts msgType addr tsSecs nonce pubkey (S.sign (unsigned.take signedLen))

/-! ## The table -/

structure NeighborRecord where
  mac : Mac
  addr : Addr
  pubkey : PublicKey
  ts : Int
  deriving DecidableEq

/-- The first record with the key is refreshed, else one is added. -/
def upsertPeers (mac : Mac) (addr : Addr) (pubkey : PublicKey) (ts : Int) : List NeighborRecord → List NeighborRecord
  | [] => [{ mac, addr, pubkey, ts }]
  | p :: peers =>
    if p.pubkey = pubkey then { p with mac, addr, ts } :: peers else p :: upsertPeers mac addr pubkey ts peers

lemma upsertPeers_eq (mac : Mac) (addr : Addr) (pubkey : PublicKey) (ts : Int) (peers : List NeighborRecord) :
    upsertPeers mac addr pubkey ts peers = putBy NeighborRecord.pubkey ⟨mac, addr, pubkey, ts⟩ peers := by
  induction peers with
  | nil => rfl
  | cons p peers ih =>
    rw [upsertPeers, putBy, ih]
    split
    · next heq => rw [← heq]
    · rfl

lemma keys_upsertPeers (mac : Mac) (addr : Addr) (pubkey : PublicKey) (ts : Int) (peers : List NeighborRecord) :
    (upsertPeers mac addr pubkey ts peers).map NeighborRecord.pubkey =
      if pubkey ∈ peers.map NeighborRecord.pubkey then peers.map NeighborRecord.pubkey
      else peers.map NeighborRecord.pubkey ++ [pubkey] := by
  rw [upsertPeers_eq, map_putBy]
  by_cases hmem : pubkey ∈ peers.map NeighborRecord.pubkey
  · exact (if_pos hmem).trans (if_pos hmem).symm
  · exact (if_neg hmem).trans (if_neg hmem).symm

/-- The table has one record for a key. -/
structure NeighborStore where
  peers : List NeighborRecord
  nodup : (peers.map NeighborRecord.pubkey).Nodup

lemma nodup_upsertPeers (mac : Mac) (addr : Addr) (pubkey : PublicKey) (ts : Int) {peers : List NeighborRecord}
    (h : (peers.map NeighborRecord.pubkey).Nodup) : ((upsertPeers mac addr pubkey ts peers).map NeighborRecord.pubkey).Nodup := by
  rw [upsertPeers_eq]
  exact nodup_putBy h

namespace NeighborStore

def new : NeighborStore := ⟨[], List.nodup_nil⟩

def keys (s : NeighborStore) : List PublicKey := s.peers.map NeighborRecord.pubkey

def contains (s : NeighborStore) (pubkey : PublicKey) : Bool := s.peers.any fun p => p.pubkey = pubkey

def upsert (s : NeighborStore) (mac : Mac) (addr : Addr) (pubkey : PublicKey) (ts : Int) : NeighborStore :=
  ⟨upsertPeers mac addr pubkey ts s.peers, nodup_upsertPeers mac addr pubkey ts s.nodup⟩

/-- Takes the records away that are not to be kept, and says whether there was one. -/
def retain (s : NeighborStore) (keep : NeighborRecord → Bool) : NeighborStore × Bool :=
  (⟨s.peers.filter keep, (s.nodup.sublist (List.filter_sublist.map _))⟩, (s.peers.filter keep).length ≠ s.peers.length)

def removePubkey (s : NeighborStore) (pubkey : PublicKey) : NeighborStore × Bool := s.retain fun p => p.pubkey ≠ pubkey

def removePubkeyPrefix (s : NeighborStore) (start : Bytes) : NeighborStore × Bool :=
  if start.isEmpty then (s, false) else s.retain fun p => ¬ start.isPrefixOf p.pubkey.val

def removeAddr (s : NeighborStore) (addr : Addr) : NeighborStore × Bool := s.retain fun p => p.addr ≠ addr

def removeMac (s : NeighborStore) (mac : Mac) : NeighborStore × Bool := s.retain fun p => p.mac ≠ mac

lemma mem_keys_retain {s : NeighborStore} {keep : NeighborRecord → Bool} {key : PublicKey} (h : key ∈ (s.retain keep).1.keys) :
    key ∈ s.keys :=
  (List.filter_sublist.map _).subset h

lemma mem_keys_removePubkeyPrefix {s : NeighborStore} {start : Bytes} {key : PublicKey}
    (h : key ∈ (s.removePubkeyPrefix start).1.keys) : key ∈ s.keys := by
  unfold removePubkeyPrefix at h
  split at h
  · exact h
  · exact mem_keys_retain h

lemma mem_keys_upsert {s : NeighborStore} {mac : Mac} {addr : Addr} {pubkey key : PublicKey} {ts : Int} :
    key ∈ (s.upsert mac addr pubkey ts).keys ↔ key ∈ s.keys ∨ key = pubkey := by
  show key ∈ (upsertPeers mac addr pubkey ts s.peers).map NeighborRecord.pubkey ↔ _
  rw [keys_upsertPeers]
  split
  · next hmem => exact ⟨.inl, fun h => h.elim id fun heq => heq ▸ hmem⟩
  · rw [List.mem_append, List.mem_singleton]
    exact Iff.rfl

lemma contains_iff {s : NeighborStore} {pubkey : PublicKey} : s.contains pubkey = true ↔ pubkey ∈ s.keys := by
  rw [contains, List.any_eq_true, keys, List.mem_map]
  simp only [decide_eq_true_eq]

end NeighborStore

/-! ## The processor -/

inductive HelloDecision where
  | autoAck (msg : NeighborMessage)
  | needsConsent (msg : NeighborMessage)
  | reject (e : NeighError)
  deriving DecidableEq

structure NeighborProcessor where
  localAddr : Addr
  localPubkey : PublicKey
  store : NeighborStore
  seen : PublicKey → List UInt64 := fun _ => []
  pending : List (UInt64 × Int) := []

/-- A HELLO that was sent at this time may still be answered. -/
def live (now ts : Int) : Bool := satSub now ts ≤ pendingTtlSecs

namespace NeighborProcessor

def new (localAddr : Addr) (localPubkey : PublicKey) (store : NeighborStore) : NeighborProcessor :=
  { localAddr, localPubkey, store }

def prunePending (p : NeighborProcessor) (now : Int) : NeighborProcessor :=
  { p with pending := p.pending.filter fun e => live now e.2 }

def recordHelloSent (p : NeighborProcessor) (nonce : UInt64) (now : Int) : NeighborProcessor :=
  let p := p.prunePending now
  let pending := if pendingMax ≤ p.pending.length then p.pending.drop 1 else p.pending
  { p with pending := pending ++ [(nonce, now)] }

variable (S : SignatureOps)

def buildMessage (p : NeighborProcessor) (msgType : UInt8) (nonce : UInt64) (now : Int) : Bytes :=
  buildSigned S msgType p.localAddr now nonce p.localPubkey

def buildHello (p : NeighborProcessor) (nonce : UInt64) (now : Int) : NeighborProcessor × Bytes :=
  let p := p.recordHelloSent nonce now
  (p, p.buildMessage S msgHello nonce now)

def buildAck (p : NeighborProcessor) (hello : NeighborMessage) (now : Int) : Bytes := p.buildMessage S msgAck hello.nonce now

/-- A ring with one more nonce. -/
def push (ring : List UInt64) (nonce : UInt64) : List UInt64 :=
  (if nonceRing ≤ ring.length then ring.drop 1 else ring) ++ [nonce]

def note (p : NeighborProcessor) (msg : NeighborMessage) : NeighborProcessor :=
  { p with seen := fun k => if k = msg.pubkey then push (p.seen msg.pubkey) msg.nonce else p.seen k }

/-- The nonce goes into the ring of its key before the caller looks at anything else. -/
def verifyFrame (p : NeighborProcessor) (frame : Bytes) (expectType : UInt8) (now : Int) :
    NeighborProcessor × Except NeighError NeighborMessage :=
  match decode frame with
  | .error e => (p, .error e)
  | .ok msg =>
    if msg.msgType ≠ expectType then (p, .error (.unexpectedType msg.msgType))
    else if ¬ S.verify msg.pubkey (frame.take signedLen) msg.sig then (p, .error .badSignature)
    else if tsWindowSecs < |satSub msg.tsSecs now| then (p, .error (.timestampOutOfWindow msg.tsSecs now))
    else if (p.seen msg.pubkey).contains msg.nonce then (p, .error (.replay msg.nonce))
    else (p.note msg, .ok msg)

def processHello (p : NeighborProcessor) (frame : Bytes) (srcMac : Mac) (now : Int) : NeighborProcessor × HelloDecision :=
  match p.verifyFrame S frame msgHello now with
  | (p, .error e) => (p, .reject e)
  | (p, .ok msg) =>
    if p.store.contains msg.pubkey then
      ({ p with store := p.store.upsert srcMac msg.addr msg.pubkey now }, .autoAck msg)
    else (p, .needsConsent msg)

def approveConsent (p : NeighborProcessor) (hello : NeighborMessage) (srcMac : Mac) (now : Int) : NeighborProcessor :=
  { p with store := p.store.upsert srcMac hello.addr hello.pubkey now }

def processAck (p : NeighborProcessor) (frame : Bytes) (srcMac : Mac) (now : Int) :
    NeighborProcessor × Except NeighError NeighborRecord :=
  match p.verifyFrame S frame msgAck now with
  | (p, .error e) => (p, .error e)
  | (p, .ok msg) =>
    let p := p.prunePending now
    match p.pending.findIdx? fun e => e.1 = msg.nonce with
    | none => (p, .error (.ackNonceMismatch msg.nonce))
    | some pos =>
      ({ p with
          pending := p.pending.eraseIdx pos
          store := p.store.upsert srcMac msg.addr msg.pubkey now },
        .ok { mac := srcMac, addr := msg.addr, pubkey := msg.pubkey, ts := now })

/-! ## What the checks let through -/

/-- The frame has the type, verifies under the key it names, and its time is in the window. -/
structure Genuine (type : UInt8) (frame : Bytes) (now : Int) (msg : NeighborMessage) : Prop where
  decoded : decode frame = .ok msg
  type_eq : msg.msgType = type
  signed : S.verify msg.pubkey (frame.take signedLen) msg.sig = true
  timely : |msg.tsSecs - now| ≤ tsWindowSecs

lemma timely_of_satSub {ts now : Int} (h : ¬ tsWindowSecs < |satSub ts now|) : |ts - now| ≤ tsWindowSecs := by
  rw [not_lt, abs_le] at h
  rw [abs_le]
  unfold satSub tsWindowSecs at *
  omega

lemma live_iff {now ts : Int} : live now ts = true ↔ now - ts ≤ pendingTtlSecs := by
  unfold live satSub pendingTtlSecs
  rw [decide_eq_true_eq]
  omega

lemma verifyFrame_cases (p : NeighborProcessor) (frame : Bytes) (type : UInt8) (now : Int) :
    (∃ e, p.verifyFrame S frame type now = (p, .error e)) ∨
      ∃ msg, Genuine S type frame now msg ∧ msg.nonce ∉ p.seen msg.pubkey ∧
        p.verifyFrame S frame type now = (p.note msg, .ok msg) := by
  unfold verifyFrame
  cases hd : decode frame with
  | error e => exact .inl ⟨e, rfl⟩
  | ok msg =>
    simp only
    split
    · exact .inl ⟨_, rfl⟩
    split
    · exact .inl ⟨_, rfl⟩
    split
    · exact .inl ⟨_, rfl⟩
    split
    · exact .inl ⟨_, rfl⟩
    · next htype hsig htime hring =>
      rw [List.contains_iff_mem] at hring
      exact .inr ⟨msg, ⟨hd, not_not.mp htype, not_not.mp hsig, timely_of_satSub htime⟩, hring, rfl⟩

lemma processHello_cases (p : NeighborProcessor) (frame : Bytes) (srcMac : Mac) (now : Int) :
    (∃ e, p.verifyFrame S frame msgHello now = (p, .error e) ∧ p.processHello S frame srcMac now = (p, .reject e)) ∨
      ∃ msg, Genuine S msgHello frame now msg ∧ msg.nonce ∉ p.seen msg.pubkey ∧
        p.verifyFrame S frame msgHello now = (p.note msg, .ok msg) ∧
        (msg.pubkey ∈ p.store.keys ∧ p.processHello S frame srcMac now =
            ({ p.note msg with store := p.store.upsert srcMac msg.addr msg.pubkey now }, .autoAck msg) ∨
          p.processHello S frame srcMac now = (p.note msg, .needsConsent msg)) := by
  unfold processHello
  rcases p.verifyFrame_cases S frame msgHello now with ⟨e, he⟩ | ⟨msg, hgen, hseen, he⟩
  · rw [he]
    exact .inl ⟨e, rfl, rfl⟩
  · rw [he]
    refine .inr ⟨msg, hgen, hseen, rfl, ?_⟩
    simp only
    split
    · next hmem => exact .inl ⟨NeighborStore.contains_iff.mp hmem, rfl⟩
    · exact .inr rfl

lemma processAck_cases (p : NeighborProcessor) (frame : Bytes) (srcMac : Mac) (now : Int) :
    (∃ e, p.verifyFrame S frame msgAck now = (p, .error e) ∧ p.processAck S frame srcMac now = (p, .error e)) ∨
      ∃ msg, Genuine S msgAck frame now msg ∧ msg.nonce ∉ p.seen msg.pubkey ∧
        p.verifyFrame S frame msgAck now = (p.note msg, .ok msg) ∧
        (((p.note msg).prunePending now).pending.findIdx? (fun e => e.1 = msg.nonce) = none ∧
            p.processAck S frame srcMac now = ((p.note msg).prunePending now, .error (.ackNonceMismatch msg.nonce)) ∨
          ∃ pos, ((p.note msg).prunePending now).pending.findIdx? (fun e => e.1 = msg.nonce) = some pos ∧
            p.processAck S frame srcMac now =
              ({ (p.note msg).prunePending now with
                  pending := ((p.note msg).prunePending now).pending.eraseIdx pos
                  store := p.store.upsert srcMac msg.addr msg.pubkey now },
                .ok { mac := srcMac, addr := msg.addr, pubkey := msg.pubkey, ts := now })) := by
  unfold processAck
  rcases p.verifyFrame_cases S frame msgAck now with ⟨e, he⟩ | ⟨msg, hgen, hseen, he⟩
  · rw [he]
    exact .inl ⟨e, rfl, rfl⟩
  · rw [he]
    refine .inr ⟨msg, hgen, hseen, rfl, ?_⟩
    simp only
    split
    · next hnone => exact .inl ⟨hnone, rfl⟩
    · next pos hsome => exact .inr ⟨pos, hsome, rfl⟩

end NeighborProcessor

end IPv8Plus.Neigh
