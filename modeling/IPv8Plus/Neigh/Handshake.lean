import IPv8Plus.Neigh.Discovery

/-!
# A HELLO and its ACK

How two nodes become neighbors: a HELLO that gets to a node whose user agrees is answered, and while `neigh hello` waits the answer
enters both in the tables, whatever else happens on the segment.
-/

namespace IPv8Plus.Neigh
open Lib

variable {S T : SignatureOps} {type : UInt8} {addr : Addr} {ts now t0 : Int} {nonce : UInt64} {pubkey a b : PublicKey}

/-! ## A frame that was built passes the checks -/

lemma classify_buildSigned : classify (buildSigned S type addr ts nonce pubkey) = .neighbor := by
  have hmagic : (buildSigned S type addr ts nonce pubkey).take 4 = magic := by
    rw [buildSigned, encodeParts_eq]
    rfl
  have hlen : (buildSigned S type addr ts nonce pubkey).length = msgLen := length_encodeParts ..
  rw [classify, if_pos hmagic, if_pos hlen]

lemma not_own (h : pubkey ≠ a) : ¬ payloadIsOwn (buildSigned S type addr ts nonce pubkey) a := by
  rw [payloadIsOwn, Bool.and_eq_true, decide_eq_true_eq, decide_eq_true_eq]
  rintro ⟨-, heq⟩
  rw [buildSigned, drop_pubkey, List.take_left' pubkey.property] at heq
  exact h (Subtype.ext heq)

/-- A frame that is new to a ring and not too old. -/
lemma verifyFrame_built (p : NeighborProcessor) (addr : Addr) (htype : type = msgHello ∨ type = msgAck) (h0 : 0 ≤ ts)
    (h63 : ts < 2 ^ 63) (hsign : ∀ d, S.verify pubkey d (T.sign d) = true) (htime : |ts - now| ≤ tsWindowSecs)
    (hseen : nonce ∉ p.seen pubkey) : ∃ sig, p.verifyFrame S (buildSigned T type addr ts nonce pubkey) type now =
      (p.note ⟨type, 0, addr, ts, nonce, pubkey, sig⟩, .ok ⟨type, 0, addr, ts, nonce, pubkey, sig⟩) := by
  have hwindow : ¬ tsWindowSecs < |satSub ts now| := by
    rw [abs_le] at htime
    rw [not_lt, abs_le]
    unfold satSub tsWindowSecs at *
    omega
  refine ⟨T.sign ((encodeParts type addr ts nonce pubkey zeroSig).take signedLen), ?_⟩
  rw [NeighborProcessor.verifyFrame, buildSigned, decode_encodeParts type addr ts nonce pubkey _ htype h0 h63]
  simp only [take_signed type addr ts nonce pubkey (T.sign _), hsign, ne_eq, not_true_eq_false, if_false]
  rw [if_neg hwindow, if_neg]
  rw [List.contains_iff_mem]
  exact hseen

lemma notMem_push {ring : List UInt64} {n : UInt64} (hring : nonce ∉ ring) (hne : nonce ≠ n) :
    nonce ∉ NeighborProcessor.push ring n := by
  unfold NeighborProcessor.push
  rw [List.mem_append, List.mem_singleton]
  rintro (hold | heq)
  · split at hold
    · exact hring (List.mem_of_mem_drop hold)
    · exact hring hold
  · exact hne heq

lemma NeighborStore.mem_upsert (s : NeighborStore) (mac : Mac) (addr : Addr) (pubkey : PublicKey) (ts : Int) :
    ⟨mac, addr, pubkey, ts⟩ ∈ (s.upsert mac addr pubkey ts).peers := by
  show _ ∈ upsertPeers mac addr pubkey ts s.peers
  rw [upsertPeers_eq]
  exact (mem_putBy s.nodup).mpr (.inl rfl)

namespace Session

variable {s : Session}

/-! ## The node that asks -/

/-- `neigh hello` waits for the ACK of its HELLO. -/
structure Waits (s : Session) (a : PublicKey) (nonce : UInt64) (t0 : Int) : Prop where
  key : s.proc.localPubkey = a
  pending : s.proc.pending = [(nonce, t0)]
  unseen : ∀ key, nonce ∉ s.proc.seen key

lemma waits_hello (store : NeighborStore) : (cmdNeighHello S addr a store nonce t0).1.Waits a nonce t0 :=
  ⟨rfl, rfl, fun _ => List.not_mem_nil⟩

/-- Whatever comes, the command goes on to wait or ends. -/
lemma Waits.turn (h : s.Waits a nonce t0) (hnow : now - t0 ≤ pendingTtlSecs) {src : Ipv4} {pkt : Bytes} {s' : Session}
    (hs' : (s.helloTurn S src pkt now).session = some s') : s'.Waits a nonce t0 := by
  have hlive : live now t0 = true := NeighborProcessor.live_iff.mpr hnow
  unfold helloTurn at hs'
  dsimp only at hs'
  split at hs'
  · cases hs'
    exact ⟨h.key, h.pending, h.unseen⟩
  split at hs'
  · rcases s.proc.processAck_cases S pkt (s.transport.recv src).2 now with
      ⟨e, -, he⟩ | ⟨msg, -, -, -, ⟨hnone, he⟩ | ⟨pos, -, he⟩⟩
    · rw [he] at hs'
      cases hs'
      exact ⟨h.key, h.pending, h.unseen⟩
    · rw [he] at hs'
      cases hs'
      -- the HELLO still counts, so that an ACK that found none has another nonce
      have hpending : ((s.proc.note msg).prunePending now).pending = [(nonce, t0)] := by
        show s.proc.pending.filter _ = _
        rw [h.pending]
        exact List.filter_eq_self.mpr fun e he => List.mem_singleton.mp he ▸ hlive
      have hne : nonce ≠ msg.nonce := by
        intro heq
        rw [hpending] at hnone
        exact of_decide_eq_false (List.findIdx?_eq_none_iff.mp hnone _ List.mem_cons_self) heq
      refine ⟨h.key, hpending, fun key => ?_⟩
      show nonce ∉ if key = msg.pubkey then _ else _
      split
      · exact notMem_push (h.unseen msg.pubkey) hne
      · exact h.unseen key
    · rw [he] at hs'
      cases hs'
  · cases hs'
    exact ⟨h.key, h.pending, h.unseen⟩

/-- The ACK of another node ends the command with this node in the table. -/
lemma Waits.accepts (h : s.Waits a nonce t0) (hne : b ≠ a) (h0 : 0 ≤ ts) (h63 : ts < 2 ^ 63)
    (hsign : ∀ d, S.verify b d (T.sign d) = true) (htime : |ts - now| ≤ tsWindowSecs) (hnow : now - t0 ≤ pendingTtlSecs)
    (src : Ipv4) (addr : Addr) : s.helloTurn S src (buildSigned T msgAck addr ts nonce b) now =
      { session := none, save := some (s.proc.store.upsert (ipToRec src) addr b now) } := by
  obtain ⟨sig, hverify⟩ := verifyFrame_built (S := S) s.proc addr (.inr rfl) h0 h63 hsign htime (h.unseen b)
  have hguard : ¬ (classify (buildSigned T msgAck addr ts nonce b) ≠ .neighbor ∨
      payloadIsOwn (buildSigned T msgAck addr ts nonce b) s.proc.localPubkey) := by
    rw [h.key]
    exact not_or.mpr ⟨not_not.mpr classify_buildSigned, not_own hne⟩
  rw [helloTurn]
  dsimp only
  rw [if_neg hguard, if_pos (getD_buildSigned ..)]
  rcases s.proc.processAck_cases S (buildSigned T msgAck addr ts nonce b) (s.transport.recv src).2 now with
    ⟨e, hrefused, -⟩ | ⟨msg, -, -, hpassed, hcase⟩
  · cases congrArg Prod.snd (hverify.symm.trans hrefused)
  cases congrArg Prod.snd (hverify.symm.trans hpassed)
  rcases hcase with ⟨hnone, -⟩ | ⟨pos, -, hack⟩
  · -- the HELLO is the one that waits
    have hmem : (nonce, t0) ∈ ((s.proc.note ⟨msgAck, 0, addr, ts, nonce, b, sig⟩).prunePending now).pending :=
      List.mem_filter.mpr ⟨h.pending.symm ▸ List.mem_cons_self, NeighborProcessor.live_iff.mpr hnow⟩
    exact absurd rfl (of_decide_eq_false (List.findIdx?_eq_none_iff.mp hnone _ hmem))
  · rw [hack]
    rfl

/-! ## The node that answers -/

/-- A HELLO that is new is answered if the user agrees or has agreed before. -/
lemma greets (hkey : s.proc.localPubkey = b) (hplain : s.transport.Plain) (hne : a ≠ b) (hseen : nonce ∉ s.proc.seen a)
    (h0 : 0 ≤ ts) (h63 : ts < 2 ^ 63) (hsign : ∀ d, S.verify a d (T.sign d) = true) (htime : |ts - now| ≤ tsWindowSecs)
    {agree : Bool} (hagree : agree = true ∨ a ∈ s.proc.store.keys) (src : Ipv4) (addr : Addr) :
    (s.watchTurn S src (buildSigned T msgHello addr ts nonce a) now agree).save =
        some (s.proc.store.upsert (ipToRec src) addr a now) ∧
      (s.watchTurn S src (buildSigned T msgHello addr ts nonce a) now agree).reply =
        some (src, buildSigned S msgAck s.proc.localAddr now nonce b) := by
  obtain ⟨sig, hverify⟩ := verifyFrame_built (S := S) s.proc addr (.inl rfl) h0 h63 hsign htime hseen
  have hguard : ¬ (¬ isNeighborPayload (buildSigned T msgHello addr ts nonce a) ∨
      payloadIsOwn (buildSigned T msgHello addr ts nonce a) s.proc.localPubkey) := by
    rw [hkey]
    exact not_or.mpr ⟨not_not.mpr (decide_eq_true classify_buildSigned), not_own hne⟩
  have hack : ∀ proc : NeighborProcessor, proc.localAddr = s.proc.localAddr → proc.localPubkey = b →
      ack S proc (s.transport.recv src).1 ⟨msgHello, 0, addr, ts, nonce, a, sig⟩ (s.transport.recv src).2 now =
        some (src, buildSigned S msgAck s.proc.localAddr now nonce b) := by
    intro proc haddr hpk
    have hsend : (s.transport.recv src).1.send (s.transport.recv src).2 = some src := hplain.send src
    rw [ack, hsend, Option.map_some, NeighborProcessor.buildAck, NeighborProcessor.buildMessage, haddr, hpk]
  rw [watchTurn]
  dsimp only
  rw [if_neg hguard, if_pos (getD_buildSigned ..)]
  by_cases hmem : a ∈ s.proc.store.keys
  · have hhello : s.proc.processHello S (buildSigned T msgHello addr ts nonce a) (s.transport.recv src).2 now =
        ({ s.proc.note ⟨msgHello, 0, addr, ts, nonce, a, sig⟩ with store := s.proc.store.upsert (ipToRec src) addr a now },
          .autoAck ⟨msgHello, 0, addr, ts, nonce, a, sig⟩) := by
      rw [NeighborProcessor.processHello, hverify]
      exact if_pos (NeighborStore.contains_iff.mpr hmem)
    rw [hhello]
    exact ⟨rfl, hack _ rfl hkey⟩
  · have hhello : s.proc.processHello S (buildSigned T msgHello addr ts nonce a) (s.transport.recv src).2 now =
        (s.proc.note ⟨msgHello, 0, addr, ts, nonce, a, sig⟩, .needsConsent ⟨msgHello, 0, addr, ts, nonce, a, sig⟩) := by
      rw [NeighborProcessor.processHello, hverify]
      exact if_neg fun h => hmem (NeighborStore.contains_iff.mp h)
    rw [hhello]
    dsimp only
    rw [if_pos (hagree.resolve_right hmem)]
    exact ⟨rfl, hack _ rfl hkey⟩

end Session

/-! ## What an event leaves alone -/

/-- The command that an event is about. -/
def Event.slot : Event → Option (PublicKey × Nat)
  | .hello key pid _ _ _ => some (key, pid)
  | .watch key pid _ => some (key, pid)
  | .recv key pid _ _ _ _ _ => some (key, pid)
  | .stop key pid => some (key, pid)
  | .remove _ _ _ => none

namespace Segment

variable {C : Scheme} {s : Segment} {pid p q : Nat} {e : Event}

@[simp] lemma running_setRunning (r : Option (Command × Session)) : (s.setRunning a p r).running a p = r := by
  unfold setRunning
  dsimp only
  rw [Function.update_self, Function.update_self]

lemma running_setRunning_of_ne {r : Option (Command × Session)} (h : (b, q) ≠ (a, p)) :
    (s.setRunning b q r).running a p = s.running a p := by
  unfold setRunning
  dsimp only
  by_cases hkey : a = b
  · subst hkey
    rw [Function.update_self, Function.update_of_ne]
    exact fun heq => h (heq ▸ rfl)
  · rw [Function.update_of_ne hkey]

lemma running_setRunning_eq (r : Option (Command × Session)) :
    (s.setRunning b q r).running a p = if (b, q) = (a, p) then r else s.running a p := by
  split
  · next heq =>
    cases heq
    exact running_setRunning r
  · next hne => exact running_setRunning_of_ne hne

@[simp] lemma running_setSaved (store : NeighborStore) (disk : Disk) : (s.setSaved a store disk).running = s.running := by
  cases disk <;> rfl

@[simp] lemma saved_setSaved (store : NeighborStore) : (s.setSaved a store .written).saved a = some store :=
  Function.update_self ..

lemma running_settle {cmd : Command} {disk : Disk} {turn : Turn} :
    (s.settle b q cmd disk turn).running = (s.setRunning b q (turn.session.map (cmd, ·))).running := by
  unfold settle
  dsimp only
  split
  · rfl
  · rw [running_setSaved]
    rfl

lemma saved_settle {cmd : Command} {turn : Turn} {store : NeighborStore} (h : turn.save = some store) :
    (s.settle a p cmd .written turn).saved a = some store := by
  unfold settle
  rw [h]
  exact saved_setSaved store

/-- A command goes on as it is while events are about others. -/
lemma running_step_of_ne (h : e.slot ≠ some (a, p)) : (s.step C e).1.running a p = s.running a p := by
  have hne : ∀ {b q}, some (b, q) ≠ some (a, p) → (b, q) ≠ (a, p) := fun hne heq => hne (congrArg some heq)
  cases e with
  | hello key pid addr nonce now =>
    unfold step
    dsimp only
    split
    · exact running_setRunning_of_ne (hne h)
    · rfl
  | watch key pid addr =>
    unfold step
    dsimp only
    split
    · exact running_setRunning_of_ne (hne h)
    · rfl
  | recv key pid src pkt now agree disk =>
    unfold step
    dsimp only
    split
    · rfl
    · rw [running_settle]
      exact running_setRunning_of_ne (hne h)
  | stop key pid => exact running_setRunning_of_ne (hne h)
  | remove key target disk =>
    unfold step
    dsimp only
    split
    · rfl
    · dsimp only
      split
      · rw [running_setSaved]
      · rfl

lemma step_recv_none {src : Ipv4} {pkt : Bytes} {agree : Bool} {disk : Disk} (h : s.running a p = none) :
    s.step C (.recv a p src pkt now agree disk) = (s, none) := by
  unfold step
  dsimp only
  rw [h]

lemma step_recv {src : Ipv4} {pkt : Bytes} {agree : Bool} {disk : Disk} {cmd : Command} {session : Session}
    (h : s.running a p = some (cmd, session)) :
    s.step C (.recv a p src pkt now agree disk) =
      (s.settle a p cmd disk (session.turn (C.ops a) src pkt now agree cmd),
        (session.turn (C.ops a) src pkt now agree cmd).reply) := by
  unfold step
  dsimp only
  rw [h]

lemma running_recv {src : Ipv4} {pkt : Bytes} {agree : Bool} {disk : Disk} {cmd : Command} {session : Session}
    (h : s.running a p = some (cmd, session)) :
    (s.step C (.recv a p src pkt now agree disk)).1.running a p =
      (session.turn (C.ops a) src pkt now agree cmd).session.map (cmd, ·) := by
  rw [step_recv h]
  dsimp only
  rw [running_settle, running_setRunning]

/-- What every packet keeps about a command is kept by every event that does not start another in its place. -/
lemma command_step {I : Command → Session → Prop} (hs : ∀ cmd session, s.running a p = some (cmd, session) → I cmd session)
    (he : e.slot = some (a, p) → ∃ src pkt now agree disk, e = .recv a p src pkt now agree disk)
    (hturn : ∀ src pkt now agree disk, e = .recv a p src pkt now agree disk → ∀ cmd session s', I cmd session →
      (session.turn (C.ops a) src pkt now agree cmd).session = some s' → I cmd s') {cmd : Command} {session : Session}
    (hrun : (s.step C e).1.running a p = some (cmd, session)) : I cmd session := by
  by_cases hslot : e.slot = some (a, p)
  · obtain ⟨src, pkt, now, agree, disk, rfl⟩ := he hslot
    cases hold : s.running a p with
    | none =>
      rw [step_recv_none hold, hold] at hrun
      cases hrun
    | some r =>
      rw [running_recv hold] at hrun
      obtain ⟨next, hnext, hpair⟩ := Option.map_eq_some_iff.mp hrun
      cases hpair
      exact hturn src pkt now agree disk rfl r.1 r.2 _ (hs r.1 r.2 hold) hnext
  · rw [running_step_of_ne hslot] at hrun
    exact hs cmd session hrun

/-- Every command has the key of its node, and a transport with addresses only. -/
def Ordered (s : Segment) : Prop :=
  ∀ a p cmd session, s.running a p = some (cmd, session) → session.proc.localPubkey = a ∧ session.transport.Plain

lemma Ordered.start : Ordered {} := fun _ _ _ _ h => nomatch h

lemma Ordered.step (hs : Ordered s) (e : Event) : Ordered (s.step C e).1 := by
  intro a p cmd session hrun
  by_cases hslot : e.slot = some (a, p)
  · cases e with
    | hello key pid addr nonce now =>
      cases hslot
      unfold Segment.step at hrun
      dsimp only at hrun
      split at hrun
      · cases (running_setRunning _).symm.trans hrun
        exact ⟨rfl, UdpTransport.plain_new⟩
      · exact hs a p cmd session hrun
    | watch key pid addr =>
      cases hslot
      unfold Segment.step at hrun
      dsimp only at hrun
      split at hrun
      · cases (running_setRunning _).symm.trans hrun
        exact ⟨rfl, UdpTransport.plain_new⟩
      · exact hs a p cmd session hrun
    | recv key pid src pkt now agree disk =>
      cases hslot
      refine command_step (I := fun _ session => session.proc.localPubkey = a ∧ session.transport.Plain) (hs a p)
        (fun _ => ⟨src, pkt, now, agree, disk, rfl⟩) ?_ hrun
      rintro _ _ _ _ _ ⟨⟩ cmd session s' ⟨hkey, hplain⟩ hs'
      have hgo := (session.took (S := C.ops a) src pkt now agree cmd).goesOn hs'
      exact ⟨hgo.key.trans hkey, hgo.transport ▸ hplain.recv src⟩
    | stop key pid =>
      cases hslot
      cases (running_setRunning _).symm.trans hrun
    | remove key target disk => cases hslot
  · rw [running_step_of_ne hslot] at hrun
    exact hs a p cmd session hrun

lemma Ordered.run (hs : Ordered s) (es : List Event) : Ordered (run (Segment.step C) s es).1 :=
  invariant_run_all (I := Ordered) (fun _ e h => h.step e) hs es

/-! ## Both become neighbors -/

/-- Nothing ends the command or starts another in its place, and what comes to it comes while its HELLO counts. -/
def Undisturbed (a : PublicKey) (p : Nat) (t0 : Int) : Event → Prop
  | .recv key pid _ _ now _ _ => (key, pid) = (a, p) → now - t0 ≤ pendingTtlSecs
  | e => e.slot ≠ some (a, p)

/-- The command has ended, or it still waits. -/
def Asks (a : PublicKey) (p : Nat) (nonce : UInt64) (t0 : Int) (s : Segment) : Prop :=
  ∀ cmd session, s.running a p = some (cmd, session) → cmd = .hello ∧ session.Waits a nonce t0

lemma Asks.step (hs : Asks a p nonce t0 s) (he : Undisturbed a p t0 e) : Asks a p nonce t0 (s.step C e).1 := by
  intro cmd session hrun
  refine command_step (I := fun cmd session => cmd = .hello ∧ session.Waits a nonce t0) hs ?_ ?_ hrun
  · intro hslot
    cases e with
    | recv key pid src pkt now agree disk =>
      cases hslot
      exact ⟨src, pkt, now, agree, disk, rfl⟩
    | remove key target disk => cases hslot
    | _ => exact absurd hslot he
  · rintro src pkt now agree disk rfl cmd session s' ⟨rfl, hwaits⟩ hs'
    exact ⟨rfl, hwaits.turn (he rfl) hs'⟩

lemma Asks.run (hs : Asks a p nonce t0 s) {es : List Event} (hes : ∀ e ∈ es, Undisturbed a p t0 e) :
    Asks a p nonce t0 (run (Segment.step C) s es).1 :=
  invariant_run (fun _ _ h he => h.step he) hs (along_of_forall hes)

open World (sampleKey sampleAddr)

end Segment

end IPv8Plus.Neigh
