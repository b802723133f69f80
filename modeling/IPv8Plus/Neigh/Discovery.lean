import IPv8Plus.Neigh.Client
import IPv8Plus.Neigh.Trust

/-!
# Neighbors on a segment

Any number of nodes run the neighbor commands of `tools/ipv8-client/src/main.rs` and whatever else is on the network may send them
any packet from any address at any time. A segment keeps beside the nodes what has happened: what each key has signed, who drew a
nonce, what users agreed to and which keys were ever listed. An ACK says which HELLO it answers but not whose, so that between
nodes that keep their keys a listing comes from an agreement unless one of them has listed a key from outside.
-/

namespace IPv8Plus.Neigh
open Lib

/-- Signatures of all keys. -/
structure Scheme where
  sign : PublicKey → Bytes → Signature
  verify : PublicKey → Bytes → Signature → Bool

def Scheme.ops (C : Scheme) (key : PublicKey) : SignatureOps := ⟨C.sign key, C.verify⟩

/-- What becomes of a file that is written: it holds the table, or it could not be opened and stays, or it was cut off. -/
inductive Disk where
  | written
  | refused
  | torn
  deriving DecidableEq

/-- The tables on disk, if they can be read, the commands that run, by the key of their node and a process number, and what has
happened. -/
structure Segment where
  saved : PublicKey → Option NeighborStore := fun _ => some .new
  running : PublicKey → Nat → Option (Command × Session) := fun _ _ => none
  sent : List (PublicKey × Bytes) := []
  issued : List (UInt64 × PublicKey) := []
  granted : List (PublicKey × PublicKey) := []
  enlisted : List (PublicKey × PublicKey) := []

inductive Event where
  | hello (key : PublicKey) (pid : Nat) (addr : Addr) (nonce : UInt64) (now : Int)
  | watch (key : PublicKey) (pid : Nat) (addr : Addr)
  | recv (key : PublicKey) (pid : Nat) (src : Ipv4) (pkt : Bytes) (now : Int) (agree : Bool) (disk : Disk)
  | stop (key : PublicKey) (pid : Nat)
  | remove (key : PublicKey) (target : Target) (disk : Disk)

namespace Segment

def setRunning (s : Segment) (key : PublicKey) (pid : Nat) (r : Option (Command × Session)) : Segment :=
  { s with running := Function.update s.running key (Function.update (s.running key) pid r) }

/-- A table goes to disk. -/
def setSaved (s : Segment) (key : PublicKey) (store : NeighborStore) : Disk → Segment
  | .written => { s with saved := Function.update s.saved key (some store) }
  | .refused => s
  | .torn => { s with saved := Function.update s.saved key none }

/-- The keys that can be read from disk. -/
def onDisk (s : Segment) (key : PublicKey) : List PublicKey := (s.saved key).elim [] NeighborStore.keys

def issue (s : Segment) (key : PublicKey) (nonce : UInt64) : Segment := { s with issued := (nonce, key) :: s.issued }

def post (s : Segment) (key : PublicKey) (frames : List Bytes) : Segment := { s with sent := frames.map (key, ·) ++ s.sent }

def grant (s : Segment) (key : PublicKey) (keys : List PublicKey) : Segment := { s with granted := keys.map (key, ·) ++ s.granted }

def enlist (s : Segment) (key : PublicKey) (keys : List PublicKey) : Segment := { s with enlisted := keys.map (key, ·) ++ s.enlisted }

/-- What a packet has brought about at a node. -/
def settle (s : Segment) (key : PublicKey) (pid : Nat) (cmd : Command) (disk : Disk) (turn : Turn) : Segment :=
  let s := (s.grant key turn.agreed.toList).enlist key (turn.save.elim [] NeighborStore.keys)
  let s := (s.setRunning key pid (turn.session.map (cmd, ·))).post key (turn.reply.map Prod.snd).toList
  match turn.save with
  | none => s
  | some store => s.setSaved key store disk

variable (C : Scheme)

/-- An event, and the packet that it sends. No command starts on a table that cannot be read. -/
def step (s : Segment) : Event → Segment × Option (Ipv4 × Bytes)
  | .hello key pid addr nonce now =>
    match s.running key pid, s.saved key with
    | none, some store =>
      let (session, frame) := cmdNeighHello (C.ops key) addr key store nonce now
      (((s.issue key nonce).setRunning key pid (some (.hello, session))).post key [frame], some (broadcastIp, frame))
    | _, _ => (s, none)
  | .watch key pid addr =>
    match s.running key pid, s.saved key with
    | none, some store => (s.setRunning key pid (some (.watch, cmdNeighWatch addr key store)), none)
    | _, _ => (s, none)
  | .recv key pid src pkt now agree disk =>
    match s.running key pid with
    | none => (s, none)
    | some (cmd, session) =>
      let turn := session.turn (C.ops key) src pkt now agree cmd
      (s.settle key pid cmd disk turn, turn.reply)
  | .stop key pid => (s.setRunning key pid none, none)
  | .remove key target disk =>
    match s.saved key with
    | none => (s, none)
    | some store =>
      let (store, removed) := store.removeTarget target
      (if removed then s.setSaved key store disk else s, none)

/-! ## Whom a listing comes from -/

/-- The user of one of the two has agreed to the other. -/
def Consented (s : Segment) (a b : PublicKey) : Prop := (a, b) ∈ s.granted ∨ (b, a) ∈ s.granted

/-- The node has listed a key that is not one of these. -/
def Exposed (H : PublicKey → Prop) (s : Segment) (a : PublicKey) : Prop := ∃ x, ¬ H x ∧ (a, x) ∈ s.enlisted

/-- What verifies under one of these keys was signed by its node. -/
def Unforged (H : PublicKey → Prop) (s : Segment) : Event → Prop
  | .recv _ _ _ pkt _ _ _ => ∀ msg, decode pkt = .ok msg → H msg.pubkey → C.verify msg.pubkey (pkt.take signedLen) msg.sig = true →
      ∃ frame, (msg.pubkey, frame) ∈ s.sent ∧ frame.take signedLen = pkt.take signedLen
  | _ => True

/-- No nonce is drawn twice. -/
def Fresh (s : Segment) : Event → Prop
  | .hello _ _ _ nonce _ => nonce ∉ s.issued.map Prod.fst
  | _ => True

/-- A command of a node that keeps its key: what it lists was listed, and what it waits for was drawn by it. -/
structure Honest (s : Segment) (a : PublicKey) (session : Session) : Prop where
  key : session.proc.localPubkey = a
  listed : ∀ x ∈ session.proc.store.keys, (a, x) ∈ s.enlisted
  waits : ∀ e ∈ session.proc.pending, (e.1, a) ∈ s.issued

/-- Every frame under way is backed by what happened, and so is every listing. -/
structure Sound (H : PublicKey → Prop) (s : Segment) : Prop where
  saved : ∀ a, ∀ x ∈ s.onDisk a, (a, x) ∈ s.enlisted
  running : ∀ a pid cmd session, s.running a pid = some (cmd, session) → Honest s a session
  once : ∀ nonce a b, (nonce, a) ∈ s.issued → (nonce, b) ∈ s.issued → a = b
  hellos : ∀ a frame, (a, frame) ∈ s.sent → frame.getD 5 0 = msgHello → (frameNonce frame, a) ∈ s.issued
  acks : ∀ a frame, (a, frame) ∈ s.sent → frame.getD 5 0 = msgAck →
    ∃ x, (a, x) ∈ s.enlisted ∧ (H x → (frameNonce frame, x) ∈ s.issued)
  foreign : ∀ a, (a, a) ∉ s.enlisted
  backed : ∀ a b, H a → H b → (a, b) ∈ s.enlisted → Consented s a b ∨ Exposed H s a ∨ Exposed H s b

namespace Sound

variable {H : PublicKey → Prop} {s : Segment} {a : PublicKey}

lemma start : Sound H {} := by
  constructor
  · exact fun a x hx => absurd hx List.not_mem_nil
  · exact fun a pid cmd session hrun => nomatch hrun
  · exact fun nonce a b ha => absurd ha List.not_mem_nil
  · exact fun a frame hsent => absurd hsent List.not_mem_nil
  · exact fun a frame hsent => absurd hsent List.not_mem_nil
  · exact fun a hself => absurd hself List.not_mem_nil
  · exact fun a b _ _ hab => absurd hab List.not_mem_nil

lemma setRunning (hs : Sound H s) (pid : Nat) {r : Option (Command × Session)}
    (hr : ∀ cmd session, r = some (cmd, session) → Honest s a session) : Sound H (s.setRunning a pid r) := by
  refine ⟨hs.saved, ?_, hs.once, hs.hellos, hs.acks, hs.foreign, hs.backed⟩
  intro b pid' cmd session hrun
  have hhonest : Honest s b session := by
    by_cases hb : b = a
    · subst hb
      by_cases hpid : pid' = pid
      · subst hpid
        simp only [Segment.setRunning, Function.update_self] at hrun
        exact hr cmd session hrun
      · simp only [Segment.setRunning, Function.update_self, Function.update_of_ne hpid] at hrun
        exact hs.running b pid' cmd session hrun
    · simp only [Segment.setRunning, Function.update_of_ne hb] at hrun
      exact hs.running b pid' cmd session hrun
  exact ⟨hhonest.key, hhonest.listed, hhonest.waits⟩

lemma setSaved (hs : Sound H s) {store : NeighborStore} (hstore : ∀ x ∈ store.keys, (a, x) ∈ s.enlisted) (disk : Disk) :
    Sound H (s.setSaved a store disk) := by
  have hupdate : ∀ file : Option NeighborStore, (∀ x ∈ file.elim [] NeighborStore.keys, (a, x) ∈ s.enlisted) →
      Sound H { s with saved := Function.update s.saved a file } := by
    intro file hfile
    refine ⟨?_, fun b pid cmd session hrun => ?_, hs.once, hs.hellos, hs.acks, hs.foreign, hs.backed⟩
    · intro b x hx
      by_cases hb : b = a
      · subst hb
        simp only [onDisk, Function.update_self] at hx
        exact hfile x hx
      · simp only [onDisk, Function.update_of_ne hb] at hx
        exact hs.saved b x hx
    · have hhonest := hs.running b pid cmd session hrun
      exact ⟨hhonest.key, hhonest.listed, hhonest.waits⟩
  cases disk with
  | written => exact hupdate (some store) hstore
  | refused => exact hs
  | torn => exact hupdate none fun x hx => absurd hx List.not_mem_nil

lemma issue (hs : Sound H s) {nonce : UInt64} (hfresh : nonce ∉ s.issued.map Prod.fst) : Sound H (s.issue a nonce) := by
  constructor
  · exact hs.saved
  · intro b pid cmd session hrun
    have hhonest := hs.running b pid cmd session hrun
    exact ⟨hhonest.key, hhonest.listed, fun e he => List.mem_cons_of_mem _ (hhonest.waits e he)⟩
  · intro nonce' b c hb hc
    rcases List.mem_cons.mp hb with hb | hb <;> rcases List.mem_cons.mp hc with hc | hc
    · cases hb
      cases hc
      rfl
    · cases hb
      exact absurd (List.mem_map_of_mem hc) hfresh
    · cases hc
      exact absurd (List.mem_map_of_mem hb) hfresh
    · exact hs.once nonce' b c hb hc
  · exact fun b frame hsent htype => List.mem_cons_of_mem _ (hs.hellos b frame hsent htype)
  · intro b frame hsent htype
    obtain ⟨x, hx, hissued⟩ := hs.acks b frame hsent htype
    exact ⟨x, hx, fun hH => List.mem_cons_of_mem _ (hissued hH)⟩
  · exact hs.foreign
  · exact hs.backed

lemma grant (hs : Sound H s) (keys : List PublicKey) : Sound H (s.grant a keys) := by
  refine ⟨hs.saved, fun b pid cmd session hrun => ?_, hs.once, hs.hellos, hs.acks, hs.foreign, fun b c hb hc hbc => ?_⟩
  · have hhonest := hs.running b pid cmd session hrun
    exact ⟨hhonest.key, hhonest.listed, hhonest.waits⟩
  · exact (hs.backed b c hb hc hbc).imp_left (Or.imp (List.mem_append_right _) (List.mem_append_right _))

lemma mem_map_pair {α : Type} {l : List α} {b : PublicKey} {x : α} : (b, x) ∈ l.map (a, ·) ↔ b = a ∧ x ∈ l := by
  rw [List.mem_map]
  constructor
  · rintro ⟨y, hy, hpair⟩
    cases hpair
    exact ⟨rfl, hy⟩
  · rintro ⟨rfl, hx⟩
    exact ⟨x, hx, rfl⟩

lemma enlist (hs : Sound H s) {keys : List PublicKey}
    (hkeys : ∀ x ∈ keys, (a, x) ∈ s.enlisted ∨ x ≠ a ∧ (H a → H x → Consented s a x ∨ Exposed H s a ∨ Exposed H s x)) :
    Sound H (s.enlist a keys) := by
  have hexposed : ∀ {b}, Exposed H s b → Exposed H (s.enlist a keys) b :=
    fun ⟨x, hx, hmem⟩ => ⟨x, hx, List.mem_append_right _ hmem⟩
  constructor
  · exact fun b x hx => List.mem_append_right _ (hs.saved b x hx)
  · intro b pid cmd session hrun
    have hhonest := hs.running b pid cmd session hrun
    exact ⟨hhonest.key, fun x hx => List.mem_append_right _ (hhonest.listed x hx), hhonest.waits⟩
  · exact hs.once
  · exact hs.hellos
  · intro b frame hsent htype
    obtain ⟨x, hx, hissued⟩ := hs.acks b frame hsent htype
    exact ⟨x, List.mem_append_right _ hx, hissued⟩
  · intro b hself
    rcases List.mem_append.mp hself with hnew | hold
    · obtain ⟨rfl, hmem⟩ := mem_map_pair.mp hnew
      rcases hkeys b hmem with hold | ⟨hne, -⟩
      · exact hs.foreign b hold
      · exact hne rfl
    · exact hs.foreign b hold
  · intro b c hb hc hbc
    have hback : Consented s b c ∨ Exposed H s b ∨ Exposed H s c := by
      rcases List.mem_append.mp hbc with hnew | hold
      · obtain ⟨rfl, hmem⟩ := mem_map_pair.mp hnew
        rcases hkeys c hmem with hold | ⟨-, hback⟩
        · exact hs.backed b c hb hc hold
        · exact hback hb hc
      · exact hs.backed b c hb hc hold
    exact hback.imp_right (Or.imp hexposed hexposed)

lemma post (hs : Sound H s) {frames : List Bytes}
    (hframes : ∀ frame ∈ frames, (frame.getD 5 0 = msgHello → (frameNonce frame, a) ∈ s.issued) ∧
      (frame.getD 5 0 = msgAck → ∃ x, (a, x) ∈ s.enlisted ∧ (H x → (frameNonce frame, x) ∈ s.issued))) :
    Sound H (s.post a frames) := by
  refine ⟨hs.saved, fun b pid cmd session hrun => ?_, hs.once, ?_, ?_, hs.foreign, hs.backed⟩
  · have hhonest := hs.running b pid cmd session hrun
    exact ⟨hhonest.key, hhonest.listed, hhonest.waits⟩
  · intro b frame hsent htype
    rcases List.mem_append.mp hsent with hnew | hold
    · obtain ⟨rfl, hmem⟩ := mem_map_pair.mp hnew
      exact (hframes frame hmem).1 htype
    · exact hs.hellos b frame hold htype
  · intro b frame hsent htype
    rcases List.mem_append.mp hsent with hnew | hold
    · obtain ⟨rfl, hmem⟩ := mem_map_pair.mp hnew
      exact (hframes frame hmem).2 htype
    · exact hs.acks b frame hold htype

/-! ## One event -/

variable {C : Scheme}

/-- A genuine frame of a node that keeps its key was sent by it. -/
lemma sent_of_genuine {key : PublicKey} {pid : Nat} {src : Ipv4} {pkt : Bytes} {now : Int} {agree : Bool} {disk : Disk} {type : UInt8}
    {msg : NeighborMessage} (hunforged : Unforged C H s (.recv key pid src pkt now agree disk))
    (hgen : NeighborProcessor.Genuine (C.ops key) type pkt now msg) (hmsg : H msg.pubkey) :
    ∃ frame, (msg.pubkey, frame) ∈ s.sent ∧ frame.getD 5 0 = type ∧ frameNonce frame = msg.nonce := by
  obtain ⟨frame, hsent, hframe⟩ := hunforged msg hgen.decoded hmsg hgen.signed
  obtain ⟨htype, hnonce⟩ := signed_fields hframe
  obtain ⟨-, -, htype', hnonce', -⟩ := decode_fields hgen.decoded
  exact ⟨frame, hsent, htype.trans (htype'.trans hgen.type_eq), hnonce.trans hnonce'⟩

/-- Whoever answers a HELLO of a node is linked to it, or has listed a key from outside. -/
lemma backed_of_ack (hs : Sound H s) {b : PublicKey} {frame : Bytes} (hb : H b) (ha : H a) (hsent : (b, frame) ∈ s.sent)
    (htype : frame.getD 5 0 = msgAck) (hissued : (frameNonce frame, a) ∈ s.issued) :
    Consented s a b ∨ Exposed H s a ∨ Exposed H s b := by
  obtain ⟨x, hx, hown⟩ := hs.acks b frame hsent htype
  by_cases hxH : H x
  · have hxa : x = a := hs.once _ x a (hown hxH) hissued
    rw [hxa] at hx
    rcases hs.backed b a hb ha hx with hcon | hexp | hexp
    · exact .inl hcon.symm
    · exact .inr (.inr hexp)
    · exact .inr (.inl hexp)
  · exact .inr (.inr ⟨x, hxH, hx⟩)

lemma settle (hs : Sound H s) {pid : Nat} {cmd : Command} {session : Session} {src : Ipv4} {pkt : Bytes} {now : Int}
    {agree : Bool} {disk : Disk} {turn : Turn} (hrun : s.running a pid = some (cmd, session))
    (hunforged : Unforged C H s (.recv a pid src pkt now agree disk))
    (htook : session.Took (C.ops a) src pkt now turn) : Sound H (s.settle a pid cmd disk turn) := by
  have hhonest := hs.running a pid cmd session hrun
  cases htook with
  | @quiet s' on store =>
    have henlist : Sound H ((s.grant a []).enlist a []) := (hs.grant []).enlist fun x hx => absurd hx List.not_mem_nil
    refine (henlist.setRunning pid ?_).post fun frame hframe => absurd hframe List.not_mem_nil
    rintro cmd' session' ⟨⟩
    exact ⟨on.key.trans hhonest.key, fun x hx => hhonest.listed x (store ▸ hx), fun e he => hhonest.waits e (on.pending he)⟩
  | @acked msg t next genuine foreign waiting timely on =>
    have henlist : Sound H ((s.grant a []).enlist a (session.proc.store.upsert (ipToRec src) msg.addr msg.pubkey now).keys) := by
      apply (hs.grant []).enlist
      intro x hx
      rcases NeighborStore.mem_keys_upsert.mp hx with hold | rfl
      · exact .inl (hhonest.listed x hold)
      · refine .inr ⟨fun heq => foreign (heq.trans hhonest.key.symm), fun ha hmsg => ?_⟩
        -- the ACK was sent by its node, and it answers a HELLO of this one
        obtain ⟨frame, hsent, htype, hnonce⟩ := sent_of_genuine hunforged genuine hmsg
        exact hs.backed_of_ack hmsg ha hsent htype (hnonce ▸ hhonest.waits _ waiting)
    refine ((henlist.setRunning pid ?_).post fun frame hframe => absurd hframe List.not_mem_nil).setSaved
      (fun x hx => List.mem_append_left _ (mem_map_pair.mpr ⟨rfl, hx⟩)) disk
    rintro cmd' session' hnext
    obtain ⟨s', hs', hpair⟩ := Option.map_eq_some_iff.mp hnext
    cases hpair
    obtain ⟨hgo, hstore⟩ := on _ hs'
    refine ⟨hgo.key.trans hhonest.key, fun x hx => List.mem_append_left _ (mem_map_pair.mpr ⟨rfl, ?_⟩),
      fun e he => hhonest.waits e (hgo.pending he)⟩
    rw [← hstore]
    exact hx
  | @greeted msg s' agreed genuine foreign allowed on store =>
    have henlist : Sound H ((s.grant a agreed.toList).enlist a s'.proc.store.keys) := by
      apply (hs.grant agreed.toList).enlist
      intro x hx
      rw [store] at hx
      rcases NeighborStore.mem_keys_upsert.mp hx with hold | rfl
      · exact .inl (hhonest.listed x hold)
      · rcases allowed with ⟨-, hold⟩ | rfl
        · exact .inl (hhonest.listed _ hold)
        · exact .inr ⟨fun heq => foreign (heq.trans hhonest.key.symm), fun _ _ => .inl (.inl List.mem_cons_self)⟩
    have hlisted : ∀ x ∈ s'.proc.store.keys, (a, x) ∈ ((s.grant a agreed.toList).enlist a s'.proc.store.keys).enlisted :=
      fun x hx => List.mem_append_left _ (mem_map_pair.mpr ⟨rfl, hx⟩)
    refine ((henlist.setRunning pid ?_).post fun frame hframe => ?_).setSaved hlisted disk
    · rintro cmd' session' ⟨⟩
      exact ⟨on.key.trans hhonest.key, hlisted, fun e he => hhonest.waits e (on.pending he)⟩
    · -- the ACK answers the HELLO of a key that is listed now
      obtain ⟨reply, hreply, hframe⟩ := Option.map_eq_some_iff.mp (Option.mem_toList.mp hframe)
      obtain ⟨ip, -, hack⟩ := Option.map_eq_some_iff.mp hreply
      cases hack
      cases hframe
      refine ⟨fun htype => ?_, fun _ => ⟨msg.pubkey, hlisted _ ?_, fun hmsg => ?_⟩⟩
      · exact absurd ((getD_buildSigned ..).symm.trans htype) (by decide)
      · rw [store]
        exact NeighborStore.mem_keys_upsert.mpr (.inr rfl)
      · obtain ⟨frame, hsent, htype, hnonce⟩ := sent_of_genuine hunforged genuine hmsg
        have hissued := hs.hellos _ frame hsent htype
        rw [hnonce] at hissued
        exact (frameNonce_buildSigned ..).symm ▸ hissued

lemma step (hs : Sound H s) (e : Event) (he : Unforged C H s e ∧ Fresh s e) : Sound H (s.step C e).1 := by
  obtain ⟨hunforged, hfresh⟩ := he
  cases e with
  | hello key pid addr nonce now =>
    unfold Segment.step
    dsimp only
    split
    · next store hidle hfile =>
      have hlisted : ∀ x ∈ store.keys, (key, x) ∈ s.enlisted := by
        intro x hx
        apply hs.saved key x
        rw [onDisk, hfile]
        exact hx
      refine ((hs.issue hfresh).setRunning pid ?_).post fun frame hframe => ?_
      · rintro cmd session ⟨⟩
        refine ⟨rfl, hlisted, fun e he => ?_⟩
        cases List.mem_singleton.mp he
        exact List.mem_cons_self
      · cases List.mem_singleton.mp hframe
        refine ⟨fun _ => ?_, fun htype => absurd ((getD_buildSigned ..).symm.trans htype) (by decide)⟩
        have hnonce : frameNonce (cmdNeighHello (C.ops key) addr key store nonce now).2 = nonce := frameNonce_buildSigned ..
        rw [hnonce]
        exact List.mem_cons_self
    · exact hs
  | watch key pid addr =>
    unfold Segment.step
    dsimp only
    split
    · next store hidle hfile =>
      apply hs.setRunning
      rintro cmd session ⟨⟩
      refine ⟨rfl, fun x hx => hs.saved key x ?_, fun e he => absurd he List.not_mem_nil⟩
      rw [onDisk, hfile]
      exact hx
    · exact hs
  | recv key pid src pkt now agree disk =>
    unfold Segment.step
    dsimp only
    cases hrun : s.running key pid with
    | none => exact hs
    | some r => exact hs.settle hrun hunforged (r.2.took src pkt now agree r.1)
  | stop key pid => exact hs.setRunning pid (fun cmd session h => nomatch h)
  | remove key target disk =>
    unfold Segment.step
    dsimp only
    split
    · exact hs
    · next store hfile =>
      dsimp only
      split
      · refine hs.setSaved (fun x hx => hs.saved key x ?_) disk
        rw [onDisk, hfile]
        exact NeighborStore.mem_keys_removeTarget hx
      · exact hs

end Sound

/-- A node has a key in its table, on disk or in a command that runs. -/
def Lists (s : Segment) (a x : PublicKey) : Prop :=
  x ∈ s.onDisk a ∨ ∃ pid cmd session, s.running a pid = some (cmd, session) ∧ x ∈ session.proc.store.keys

variable {C : Scheme} {H : PublicKey → Prop} {es : List Event}

/-- However the nodes and whoever else is on the network act: no node lists itself, and of two nodes that keep their keys one
lists the other only if the user of one of them has agreed to the other, unless one of them has listed a key from outside. -/
theorem neighbours_by_consent (hes : Along (step C) (fun s e => Unforged C H s e ∧ Fresh s e) {} es) (a x : PublicKey)
    (hlists : Lists (run (step C) {} es).1 a x) :
    x ≠ a ∧ (H a → H x →
      Consented (run (step C) {} es).1 a x ∨ Exposed H (run (step C) {} es).1 a ∨ Exposed H (run (step C) {} es).1 x) := by
  have hsound := invariant_run (I := Sound H) (fun s e hs he => hs.step e he) Sound.start hes
  have henlisted : (a, x) ∈ (run (step C) {} es).1.enlisted := by
    rcases hlists with hsaved | ⟨pid, cmd, session, hrun, hmem⟩
    · exact hsound.saved a x hsaved
    · exact (hsound.running a pid cmd session hrun).listed x hmem
  refine ⟨?_, fun ha hx => hsound.backed a x ha hx henlisted⟩
  rintro rfl
  exact hsound.foreign x henlisted

open World (sampleOps sampleKey sampleAddr sampleFrame)

def sampleScheme : Scheme := ⟨fun _ => sampleOps.sign, fun _ signed sig => sig = sampleOps.sign signed⟩

def sampleIp (b : UInt8) : Ipv4 := ⟨List.replicate 4 b, List.length_replicate⟩

/-- The third node answers the HELLO of the second and is listed; then it takes the nonce of the first over into a HELLO of its
own, and the ACK for it counts for the first. -/
def insider : List Event := [
  .hello (sampleKey 1) 0 sampleAddr 7 1000,
  .recv (sampleKey 1) 0 (sampleIp 2) (sampleFrame msgAck 7 (sampleKey 2)) 1000 false .written,
  .watch (sampleKey 1) 0 sampleAddr,
  .hello (sampleKey 0) 0 sampleAddr 9 1000,
  .recv (sampleKey 1) 0 (sampleIp 2) (sampleFrame msgHello 9 (sampleKey 2)) 1000 false .written,
  .recv (sampleKey 0) 0 (sampleIp 2) (sampleFrame msgAck 9 (sampleKey 1)) 1000 false .written]

lemma unforged_outside {s : Segment} {key : PublicKey} {pid : Nat} {src : Ipv4} {type : UInt8} {nonce : UInt64} {x : PublicKey}
    {agree : Bool} {disk : Disk} (htype : type = msgHello ∨ type = msgAck) (hx : ¬ H x) :
    Unforged C H s (.recv key pid src (sampleFrame type nonce x) 1000 agree disk) := by
  intro msg hmsg hH
  cases (decode_encodeParts type sampleAddr 1000 nonce x _ htype (by decide) (by decide)).symm.trans hmsg
  exact absurd hH hx

/-- Without any agreement the first node lists the second. -/
theorem neighbours_by_consent_sample :
    (run (step sampleScheme) {} insider).1.granted = [] ∧
      sampleKey 1 ∈ (run (step sampleScheme) {} insider).1.onDisk (sampleKey 0) ∧
      sampleKey 1 ≠ sampleKey 0 ∧ (sampleKey 0 ≠ sampleKey 2 → sampleKey 1 ≠ sampleKey 2 →
        Consented (run (step sampleScheme) {} insider).1 (sampleKey 0) (sampleKey 1) ∨
          Exposed (· ≠ sampleKey 2) (run (step sampleScheme) {} insider).1 (sampleKey 0) ∨
          Exposed (· ≠ sampleKey 2) (run (step sampleScheme) {} insider).1 (sampleKey 1)) := by
  have hlists : sampleKey 1 ∈ (run (step sampleScheme) {} insider).1.onDisk (sampleKey 0) := by decide +kernel
  refine ⟨by decide +kernel, hlists, neighbours_by_consent (H := (· ≠ sampleKey 2)) ?_ (sampleKey 0) (sampleKey 1) (.inl hlists)⟩
  refine ⟨⟨trivial, List.not_mem_nil⟩, ⟨unforged_outside (.inr rfl) (not_not.mpr rfl), trivial⟩, ⟨trivial, trivial⟩,
    ⟨trivial, ?_⟩, ⟨unforged_outside (.inl rfl) (not_not.mpr rfl), trivial⟩, ⟨?_, trivial⟩, trivial⟩
  · rw [Fresh]
    decide +kernel
  · intro msg hmsg _ _
    cases (decode_encodeParts msgAck sampleAddr 1000 9 (sampleKey 1) _ (.inr rfl) (by decide) (by decide)).symm.trans hmsg
    exact ⟨sampleFrame msgAck 9 (sampleKey 1), by decide +kernel, rfl⟩

end Segment

end IPv8Plus.Neigh
