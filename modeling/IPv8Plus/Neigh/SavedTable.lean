import IPv8Plus.Neigh.Handshake
import IPv8Plus.Neigh.StoreFile

/-!
# The table on disk

`neigh_save_or_warn` writes the file of a node anew and `neigh_load_store_or_die` reads it when a command starts. A file that was
cut off while it was written is refused. The table loses nothing while its node runs one command at a time; a command that runs
keeps what it has listed and writes it back over a removal.
-/

namespace IPv8Plus.Neigh
open Lib

/-- No part of a file is read as a file. -/
theorem NeighborStore.decodeSlice_cut_off {s : NeighborStore} (hlen : s.peers.length < 2 ^ 32) {part : Bytes}
    (hpart : part <+: s.encodeVec) (hne : part ≠ s.encodeVec) :
    decodeSlice part = .err .storeTooShort ∨
      decodeSlice part = .err (.storeLength (storeHdrLen + s.peers.length * recordLen) part.length) := by
  have hcount : (fileCount s.peers.length).toNat = s.peers.length := by
    rw [fileCount, if_pos hlen]
    exact UInt32.toNat_ofNat_of_lt' hlen
  have hrecord : ∀ p : NeighborRecord, (encodeRecord p).length = recordLen := by
    intro p
    rw [FileRecord.encodeRecord_eq, FileRecord.length_toBytes]
  have hwhole : (s.peers.flatMap encodeRecord).length = s.peers.length * recordLen := length_blocks hrecord
  by_cases hshort : part.length < storeHdrLen
  · exact .inl (if_pos hshort)
  · -- the head is there, but some of the records it speaks of are not
    rw [encodeVec] at hpart hne
    obtain ⟨rest, rfl⟩ : fileHead (fileCount s.peers.length) <+: part :=
      List.prefix_of_prefix_length_le (List.prefix_append _ _) hpart (by rw [length_fileHead]; omega)
    rw [List.prefix_append_right_inj] at hpart
    have hrest : rest.length ≠ s.peers.length * recordLen := by
      intro heq
      rw [← hwhole] at heq
      exact hne (congrArg _ (hpart.eq_of_length heq))
    rw [decodeSlice_head, hcount, if_pos hrest, List.length_append, length_fileHead]
    exact .inr rfl

theorem NeighborStore.decodeSlice_cut_off_sample :
    decodeSlice ((new.upsert World.sampleMac World.sampleAddr (World.sampleKey 1) 1000).encodeVec.take 50) = .err .storeTooShort ∨
      decodeSlice ((new.upsert World.sampleMac World.sampleAddr (World.sampleKey 1) 1000).encodeVec.take 50) =
        .err (.storeLength 77 50) :=
  decodeSlice_cut_off (by decide +kernel) (List.take_prefix _ _) (by decide +kernel)

namespace Segment
open World (sampleKey sampleAddr)

variable {C : Scheme} {s : Segment} {p q : Nat} {e : Event} {a b : PublicKey} {now : Int}

lemma saved_setSaved_none {store : NeighborStore} {disk : Disk} (hs : s.saved a = none) (hdisk : b = a → disk ≠ .written) :
    (s.setSaved b store disk).saved a = none := by
  by_cases hab : a = b
  · subst hab
    cases disk with
    | written => exact absurd rfl (hdisk rfl)
    | refused => exact hs
    | torn => exact Function.update_self ..
  · cases disk with
    | refused => exact hs
    | _ => exact (Function.update_of_ne hab ..).trans hs

/-- Without a table no command starts. -/
lemma running_step_of_unreadable (hs : s.saved a = none) (hidle : s.running a p = none) (e : Event) :
    (s.step C e).1.running a p = none := by
  by_cases hslot : e.slot = some (a, p)
  · cases e with
    | hello key pid addr nonce now =>
      cases hslot
      unfold step
      dsimp only
      rw [hs, hidle]
      exact hidle
    | watch key pid addr =>
      cases hslot
      unfold step
      dsimp only
      rw [hs, hidle]
      exact hidle
    | recv key pid src pkt now agree disk =>
      cases hslot
      rw [step_recv_none hidle]
      exact hidle
    | stop key pid =>
      cases hslot
      exact running_setRunning none
    | remove key target disk => cases hslot
  · rw [running_step_of_ne hslot]
    exact hidle

lemma saved_step_none (hs : s.saved a = none) (he : ∀ pid src pkt now agree, e ≠ .recv a pid src pkt now agree .written) :
    (s.step C e).1.saved a = none := by
  cases e with
  | hello key pid addr nonce now =>
    unfold step
    dsimp only
    split <;> exact hs
  | watch key pid addr =>
    unfold step
    dsimp only
    split <;> exact hs
  | recv key pid src pkt now agree disk =>
    cases hrun : s.running key pid with
    | none =>
      rw [step_recv_none hrun]
      exact hs
    | some r =>
      rw [step_recv hrun]
      unfold settle
      dsimp only
      split
      · exact hs
      · refine saved_setSaved_none (s := Segment.post _ _ _) hs ?_
        rintro rfl rfl
        exact he pid src pkt now agree rfl
  | stop key pid => exact hs
  | remove key target disk =>
    unfold step
    dsimp only
    split
    · exact hs
    · next store hfile =>
      dsimp only
      split
      · refine saved_setSaved_none hs fun heq => ?_
        rw [heq, hs] at hfile
        cases hfile
      · exact hs

/-- A node whose file was cut off starts no command, until a command that still runs saves its table. -/
theorem cut_off_locks {es : List Event} (hs : s.saved a = none)
    (hes : ∀ e ∈ es, ∀ pid src pkt now agree, e ≠ .recv a pid src pkt now agree .written) :
    (run (step C) s es).1.saved a = none ∧ ∀ pid, s.running a pid = none → (run (step C) s es).1.running a pid = none := by
  refine invariant_run (I := fun (s' : Segment) => s'.saved a = none ∧ ∀ pid, s.running a pid = none → s'.running a pid = none) ?_
    ⟨hs, fun _ h => h⟩ (along_of_forall hes)
  intro s' e hs' he
  exact ⟨saved_step_none hs'.1 he, fun pid hpid => running_step_of_unreadable hs'.1 (hs'.2 pid hpid) e⟩

/-- A packet of this key comes to the command. -/
def Names (a : PublicKey) (p : Nat) (x : PublicKey) : Event → Prop
  | .recv key pid _ pkt _ _ _ => (key, pid) = (a, p) ∧ ∃ msg, decode pkt = .ok msg ∧ msg.pubkey = x
  | _ => False

/-- A table of a command after a packet. -/
lemma mem_keys_turn (p : Nat) (disk : Disk) {src : Ipv4} {pkt : Bytes} {agree : Bool} {cmd : Command} {session : Session}
    {store : NeighborStore} {x : PublicKey}
    (hstore : (session.turn (C.ops a) src pkt now agree cmd).save = some store ∨
      ∃ s', (session.turn (C.ops a) src pkt now agree cmd).session = some s' ∧ s'.proc.store = store) :
    (x ∈ session.proc.store.keys → x ∈ store.keys) ∧
      (x ∉ session.proc.store.keys → ¬ Names a p x (.recv a p src pkt now agree disk) → x ∉ store.keys) := by
  rcases (session.took src pkt now agree cmd).table hstore with rfl | ⟨msg, hdecoded, rfl⟩
  · exact ⟨id, fun hnot _ => hnot⟩
  · refine ⟨fun hmem => NeighborStore.mem_keys_upsert.mpr (.inl hmem), fun hnot hnames hmem => ?_⟩
    rcases NeighborStore.mem_keys_upsert.mp hmem with hold | rfl
    · exact hnot hold
    · exact hnames ⟨rfl, msg, hdecoded, rfl⟩

/-- What a command saves is its own table, with what has come to it and with nothing else, whatever other commands of the node
have saved or `neigh remove` has taken away since. -/
theorem written_back {es : List Event} {cmd cmd' : Command} {session session' : Session} {src : Ipv4} {pkt : Bytes} {agree : Bool}
    {store : NeighborStore} (hrun : s.running a p = some (cmd, session))
    (hes : ∀ e ∈ es, e.slot = some (a, p) → ∃ src pkt now agree disk, e = .recv a p src pkt now agree disk)
    (hrun' : (run (step C) s es).1.running a p = some (cmd', session'))
    (hsave : (session'.turn (C.ops a) src pkt now agree cmd').save = some store) (x : PublicKey) :
    (x ∈ session.proc.store.keys →
      x ∈ (step C (run (step C) s es).1 (.recv a p src pkt now agree .written)).1.onDisk a) ∧
    (x ∉ session.proc.store.keys → (∀ e ∈ es ++ [.recv a p src pkt now agree .written], ¬ Names a p x e) →
      x ∉ (step C (run (step C) s es).1 (.recv a p src pkt now agree .written)).1.onDisk a) := by
  have hsaved : (step C (run (step C) s es).1 (.recv a p src pkt now agree .written)).1.onDisk a = store.keys := by
    rw [step_recv hrun', onDisk]
    dsimp only
    rw [saved_settle hsave]
    rfl
  obtain ⟨hkeeps, hlacks⟩ := mem_keys_turn p .written (x := x) (.inl hsave)
  rw [hsaved]
  constructor
  · intro hx
    have hmem : ∀ cmd session, (run (step C) s es).1.running a p = some (cmd, session) → x ∈ session.proc.store.keys := by
      refine invariant_run (I := fun (s : Segment) => ∀ (cmd : Command) (session : Session),
        s.running a p = some (cmd, session) → x ∈ session.proc.store.keys) ?_ ?_ (along_of_forall hes)
      · intro s e hs he cmd session hrun
        refine command_step (I := fun _ session => x ∈ session.proc.store.keys) hs he ?_ hrun
        rintro src pkt now agree disk rfl cmd session s' hmem hs'
        exact (mem_keys_turn p disk (.inr ⟨s', hs', rfl⟩)).1 hmem
      · intro cmd'' session'' heq
        cases hrun.symm.trans heq
        exact hx
    exact hkeeps (hmem cmd' session' hrun')
  · intro hx hnames
    have hnot : ∀ cmd session, (run (step C) s es).1.running a p = some (cmd, session) → x ∉ session.proc.store.keys := by
      refine invariant_run (I := fun (s : Segment) => ∀ (cmd : Command) (session : Session),
        s.running a p = some (cmd, session) → x ∉ session.proc.store.keys) ?_ ?_
        (along_of_forall fun e he => And.intro (hes e he) (hnames e (List.mem_append_left _ he)))
      · intro s e hs he cmd session hrun
        refine command_step (I := fun _ session => x ∉ session.proc.store.keys) hs he.1 ?_ hrun
        rintro src pkt now agree disk rfl cmd session s' hnot hs'
        exact (mem_keys_turn p disk (.inr ⟨s', hs', rfl⟩)).2 hnot he.2
      · intro cmd'' session'' heq
        cases hrun.symm.trans heq
        exact hx
    exact hlacks (hnot cmd' session' hrun') (hnames _ (List.mem_append_right _ List.mem_cons_self))

def samplePacket (nonce : UInt64) (key : PublicKey) : Bytes :=
  buildSigned (sampleScheme.ops key) msgHello sampleAddr 1000 nonce key

/-- A HELLO that the user agrees to. -/
def sampleHello (nonce : UInt64) (key : PublicKey) : Event :=
  .recv (sampleKey 1) 0 (sampleIp 5) (samplePacket nonce key) 1000 true .written

/-- The second node listens and has listed the first. -/
def listening : Segment := (run (step sampleScheme) {} [.watch (sampleKey 1) 0 sampleAddr, sampleHello 9 (sampleKey 0)]).1

def sampleRemoval : Event := .remove (sampleKey 1) (.pubkey (sampleKey 0)) .written

/-- What was removed while `neigh watch` runs is there again after the next HELLO. -/
theorem written_back_sample :
    sampleKey 0 ∉ (run (step sampleScheme) listening [sampleRemoval]).1.onDisk (sampleKey 1) ∧
      sampleKey 0 ∈ (step sampleScheme (run (step sampleScheme) listening [sampleRemoval]).1
        (sampleHello 11 (sampleKey 2))).1.onDisk (sampleKey 1) := by
  refine ⟨by decide +kernel, ?_⟩
  have hrun : (listening.running (sampleKey 1) 0).any (fun r => sampleKey 0 ∈ r.2.proc.store.keys) := by decide +kernel
  have hrun' : ((run (step sampleScheme) listening [sampleRemoval]).1.running (sampleKey 1) 0).any (fun r =>
      (r.2.turn (sampleScheme.ops (sampleKey 1)) (sampleIp 5) (samplePacket 11 (sampleKey 2)) 1000 true r.1).save.isSome) := by
    decide +kernel
  obtain ⟨⟨cmd, session⟩, hrun, hmem⟩ := (Option.any_eq_true ..).mp hrun
  obtain ⟨⟨cmd', session'⟩, hrun', hsave⟩ := (Option.any_eq_true ..).mp hrun'
  obtain ⟨store, hsave⟩ := Option.isSome_iff_exists.mp hsave
  have hes : ∀ e ∈ [sampleRemoval], e.slot = some (sampleKey 1, 0) → ∃ src pkt now agree disk,
      e = .recv (sampleKey 1) 0 src pkt now agree disk := by
    intro e he hslot
    cases List.mem_singleton.mp he
    cases hslot
  obtain ⟨hback, -⟩ := written_back hrun hes hrun' hsave (sampleKey 0)
  rw [decide_eq_true_eq] at hmem
  rw [sampleHello]
  exact hback hmem

/-- A node starts a command when it runs no other. -/
def Alone (s : Segment) : Event → Prop
  | .hello key _ _ _ _ => ∀ pid, s.running key pid = none
  | .watch key _ _ => ∀ pid, s.running key pid = none
  | _ => True

/-- A removal at the node, or a write that is cut off. -/
def Loses (a : PublicKey) : Event → Prop
  | .remove key _ _ => a = key
  | .recv key _ _ _ _ _ .torn => a = key
  | _ => False

/-- A node runs one command, and this knows all that is on disk. -/
structure Whole (s : Segment) : Prop where
  single : ∀ a p q, (s.running a p).isSome → (s.running a q).isSome → p = q
  covers : ∀ a p cmd session, s.running a p = some (cmd, session) → ∀ x ∈ s.onDisk a, x ∈ session.proc.store.keys

lemma onDisk_setSaved (s : Segment) (b : PublicKey) (store : NeighborStore) (disk : Disk) (a : PublicKey) :
    (s.setSaved b store disk).onDisk a = s.onDisk a ∨
      a = b ∧ (disk = .written ∧ (s.setSaved b store disk).onDisk a = store.keys ∨
        disk = .torn ∧ (s.setSaved b store disk).onDisk a = []) := by
  have hother : ∀ file, a ≠ b → onDisk { s with saved := Function.update s.saved b file } a = s.onDisk a := by
    intro file hab
    rw [onDisk, onDisk]
    dsimp only
    rw [Function.update_of_ne hab]
  have hself : ∀ file : Option NeighborStore, onDisk { s with saved := Function.update s.saved b file } b =
      file.elim [] NeighborStore.keys := by
    intro file
    rw [onDisk]
    dsimp only
    rw [Function.update_self]
  by_cases hab : a = b
  · subst hab
    cases disk with
    | written => exact .inr ⟨rfl, .inl ⟨rfl, hself (some store)⟩⟩
    | refused => exact .inl rfl
    | torn => exact .inr ⟨rfl, .inr ⟨rfl, hself none⟩⟩
  · cases disk with
    | refused => exact .inl rfl
    | _ => exact .inl (hother _ hab)

lemma onDisk_settle (s : Segment) (b : PublicKey) (q : Nat) (cmd : Command) (disk : Disk) (turn : Turn) (a : PublicKey) :
    (s.settle b q cmd disk turn).onDisk a = s.onDisk a ∨ a = b ∧
      ((∃ store, turn.save = some store ∧ (s.settle b q cmd disk turn).onDisk a = store.keys) ∨
        disk = .torn ∧ (s.settle b q cmd disk turn).onDisk a = []) := by
  unfold settle
  dsimp only
  cases turn.save with
  | none => exact .inl rfl
  | some store =>
    rcases onDisk_setSaved _ b store disk a with hsame | ⟨rfl, ⟨-, hnew⟩ | ⟨htorn, hnew⟩⟩
    · exact .inl hsame
    · exact .inr ⟨rfl, .inl ⟨store, rfl, hnew⟩⟩
    · exact .inr ⟨rfl, .inr ⟨htorn, hnew⟩⟩

namespace Whole

lemma start : Whole {} := ⟨fun _ _ _ h => (nomatch h), fun _ _ _ _ h => (nomatch h)⟩

lemma setRunning (hs : Whole s) {r : Option (Command × Session)} (hsingle : r.isSome → ∀ p, p ≠ q → s.running b p = none)
    (hcovers : ∀ cmd session, r = some (cmd, session) → ∀ x ∈ s.onDisk b, x ∈ session.proc.store.keys) :
    Whole (s.setRunning b q r) := by
  constructor
  · intro a p p' hp hp'
    rw [running_setRunning_eq] at hp hp'
    split at hp <;> split at hp'
    · next heq heq' => exact congrArg Prod.snd (heq.symm.trans heq')
    · next heq hne =>
      cases heq
      rw [hsingle hp p' fun h => hne (congrArg (Prod.mk b) h.symm)] at hp'
      cases hp'
    · next hne heq =>
      cases heq
      rw [hsingle hp' p fun h => hne (congrArg (Prod.mk b) h.symm)] at hp
      cases hp
    · exact hs.single a p p' hp hp'
  · intro a p cmd session hrun x hx
    rw [running_setRunning_eq] at hrun
    split at hrun
    · next heq =>
      cases heq
      exact hcovers cmd session hrun x hx
    · exact hs.covers a p cmd session hrun x hx

lemma setSaved (hs : Whole s) {store : NeighborStore} (hstore : ∀ x ∈ store.keys, x ∈ s.onDisk b) (disk : Disk) :
    Whole (s.setSaved b store disk) := by
  constructor
  · rw [running_setSaved]
    exact hs.single
  · intro a p cmd session hrun x hx
    rw [running_setSaved] at hrun
    refine hs.covers a p cmd session hrun x ?_
    rcases s.onDisk_setSaved b store disk a with hsame | ⟨rfl, ⟨-, hnew⟩ | ⟨-, hnew⟩⟩
    · rw [hsame] at hx
      exact hx
    · rw [hnew] at hx
      exact hstore x hx
    · rw [hnew] at hx
      cases hx

/-- While a command runs the node runs no other. -/
lemma others (hs : Whole s) {r : Command × Session} (hrun : s.running b q = some r) (p : Nat) (hp : p ≠ q) :
    s.running b p = none := by
  cases hrun' : s.running b p with
  | none => rfl
  | some r' => exact absurd (hs.single b p q (hrun' ▸ rfl) (hrun ▸ rfl)) hp

lemma settle (hs : Whole s) {cmd : Command} {session : Session} {src : Ipv4} {pkt : Bytes} {agree : Bool} {disk : Disk}
    (hrun : s.running b q = some (cmd, session)) :
    Whole (s.settle b q cmd disk (session.turn (C.ops b) src pkt now agree cmd)) := by
  have hset : Whole (s.setRunning b q ((session.turn (C.ops b) src pkt now agree cmd).session.map (cmd, ·))) := by
    apply hs.setRunning (fun _ => hs.others hrun)
    intro cmd' session' hnext x hx
    obtain ⟨s', hs', hpair⟩ := Option.map_eq_some_iff.mp hnext
    cases hpair
    exact (mem_keys_turn q disk (.inr ⟨_, hs', rfl⟩)).1 (hs.covers b q cmd session hrun x hx)
  constructor
  · rw [running_settle]
    exact hset.single
  · intro a p cmd' session' hrun' x hx
    rw [running_settle] at hrun'
    rcases s.onDisk_settle b q cmd disk (session.turn (C.ops b) src pkt now agree cmd) a with
      hsame | ⟨rfl, ⟨store, hsave, hnew⟩ | ⟨-, hnew⟩⟩
    · rw [hsame] at hx
      exact hset.covers a p cmd' session' hrun' x hx
    · -- the only command of the node is the one that has saved
      rw [hnew] at hx
      rw [running_setRunning_eq] at hrun'
      split at hrun'
      · obtain ⟨s', hs', hpair⟩ := Option.map_eq_some_iff.mp hrun'
        cases hpair
        rw [(session.took src pkt now agree cmd).save_eq hs' hsave]
        exact hx
      · next hne =>
        rw [hs.others hrun p fun h => hne (congrArg (Prod.mk a) h.symm)] at hrun'
        cases hrun'
    · rw [hnew] at hx
      cases hx

lemma step (hs : Whole s) (he : Alone s e) : Whole (s.step C e).1 := by
  have honDisk : ∀ {key store}, s.saved key = some store → ∀ x ∈ s.onDisk key, x ∈ store.keys := by
    intro key store hfile x hx
    rw [onDisk, hfile] at hx
    exact hx
  cases e with
  | hello key pid addr nonce now =>
    unfold Segment.step
    dsimp only
    split
    · next store hidle hfile =>
      have hset := hs.setRunning (b := key) (q := pid) (fun _ p _ => he p)
        (r := some (.hello, (cmdNeighHello (C.ops key) addr key store nonce now).1))
        (by rintro _ _ ⟨⟩; exact honDisk hfile)
      exact ⟨hset.single, hset.covers⟩
    · exact hs
  | watch key pid addr =>
    unfold Segment.step
    dsimp only
    split
    · next store hidle hfile =>
      apply hs.setRunning (fun _ p _ => he p)
      rintro _ _ ⟨⟩
      exact honDisk hfile
    · exact hs
  | recv key pid src pkt now agree disk =>
    cases hrun : s.running key pid with
    | none =>
      rw [step_recv_none hrun]
      exact hs
    | some r =>
      rw [step_recv hrun]
      exact hs.settle hrun
  | stop key pid =>
    refine hs.setRunning (fun h => ?_) (fun _ _ h => ?_)
    · cases h
    · cases h
  | remove key target disk =>
    unfold Segment.step
    dsimp only
    split
    · exact hs
    · next store hfile =>
      dsimp only
      split
      · refine hs.setSaved (fun x hx => ?_) disk
        rw [onDisk, hfile]
        exact NeighborStore.mem_keys_removeTarget hx
      · exact hs

/-- Only `neigh remove` and a write that is cut off take a key from the disk. -/
lemma keeps (hs : Whole s) (he : ¬ Loses a e) {x : PublicKey} (hx : x ∈ s.onDisk a) : x ∈ (s.step C e).1.onDisk a := by
  cases e with
  | hello key pid addr nonce now =>
    unfold Segment.step
    dsimp only
    split <;> exact hx
  | watch key pid addr =>
    unfold Segment.step
    dsimp only
    split <;> exact hx
  | recv key pid src pkt now agree disk =>
    cases hrun : s.running key pid with
    | none =>
      rw [step_recv_none hrun]
      exact hx
    | some r =>
      rw [step_recv hrun]
      rcases s.onDisk_settle key pid r.1 disk (r.2.turn (C.ops key) src pkt now agree r.1) a with
        hsame | ⟨rfl, ⟨store, hsave, hnew⟩ | ⟨rfl, -⟩⟩
      · exact hsame ▸ hx
      · exact hnew ▸ (mem_keys_turn pid disk (.inl hsave)).1 (hs.covers a pid r.1 r.2 hrun x hx)
      · exact absurd rfl he
  | stop key pid => exact hx
  | remove key target disk =>
    unfold Segment.step
    dsimp only
    split
    · exact hx
    · next store hfile =>
      dsimp only
      split
      · rcases s.onDisk_setSaved key (store.removeTarget target).1 disk a with hsame | ⟨rfl, -⟩
        · exact hsame ▸ hx
        · exact absurd rfl he
      · exact hx

end Whole

/-- Authorised once is a neighbor for good: while each node runs one command at a time a key on disk stays there, whatever comes
and whichever writes are refused, until `neigh remove` or until a write is cut off. -/
theorem saved_for_good {es later : List Event} {x : PublicKey} (hes : Along (step C) Alone {} (es ++ later))
    (hlater : ∀ e ∈ later, ¬ Loses a e) (hx : x ∈ (run (step C) {} es).1.onDisk a) :
    x ∈ (run (step C) {} (es ++ later)).1.onDisk a := by
  obtain ⟨hbefore, hafter⟩ := along_append.mp hes
  have hwhole := invariant_run (I := Whole) (fun _ _ hs he => hs.step he) Whole.start hbefore
  rw [run_append]
  refine (invariant_run (I := fun s => Whole s ∧ x ∈ s.onDisk a) ?_ ⟨hwhole, hx⟩
    (along_and.mpr ⟨hafter, along_of_forall hlater⟩)).2
  exact fun s e hs he => ⟨hs.1.step he.1, hs.1.keeps he.2 hs.2⟩

theorem saved_for_good_sample :
    sampleKey 0 ∈ (run (step sampleScheme) {} ([.watch (sampleKey 1) 0 sampleAddr, sampleHello 9 (sampleKey 0)] ++
      [sampleHello 11 (sampleKey 2), .stop (sampleKey 1) 0])).1.onDisk (sampleKey 1) := by
  refine saved_for_good ⟨fun _ => rfl, trivial, trivial, trivial, trivial⟩ ?_ (by decide +kernel)
  intro e he
  rcases List.mem_cons.mp he with rfl | he
  · exact id
  · cases List.mem_singleton.mp he
    exact id

end Segment

end IPv8Plus.Neigh
