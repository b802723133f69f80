import IPv8Plus.Tunnel.Arrival
import IPv8Plus.Tunnel.ShardDelivery

/-!
# Lanes

Worker `k` of one end seals packets, and worker `k` of the other takes in their frames in the order in which they were made.
If the fragments of a packet come in time, the receiver delivers exactly the packets that the sender has sealed, one after
the other (`InStep.run`), and at no time anything else than a first part of them (`InStep.prefix_run`).
-/

namespace IPv8Plus.Tunnel
open Lib Codec TunnelKeys

/-- Packets with the times at which they are sealed. -/
def stamped (clock : Nat → Nat) (packets : List Bytes) : List (Nat × Bytes) := packets.mapIdx fun i packet => (clock i, packet)

lemma stamped_cons (clock : Nat → Nat) (packet : Bytes) (packets : List Bytes) :
    stamped clock (packet :: packets) = (clock 0, packet) :: stamped (fun i => clock (i + 1)) packets := List.mapIdx_cons

/-- The frame is one for worker `k` of `n`. -/
def AddressedTo (n k : Nat) (frame : Bytes) : Prop :=
  ∃ keyId rest, frame = writeHead [] .data keyId ++ rest ∧ (keyEpoch keyId).toNat % n = k

namespace Worker

variable (A : Aead)

def sealAt (w : Worker) (c : (Nat → Nat) × Bytes) : Worker × Outcome Empty (List Bytes) := w.seal A c.1 c.2

def dataAt (w : Worker) (c : Nat × Bytes) : Worker × Outcome Empty Verdict := w.data A c.1 c.2

/-- The epochs in which the worker seals the packet fit the KeyID. -/
def LowEpochs (w : Worker) (c : (Nat → Nat) × Bytes) : Prop :=
  ∀ whole ∈ (encode (IPv8Header.new w.localAddr w.peerAddr (UInt16.ofNat c.2.length)) c.2).toOption,
    ∀ packets ∈ (fragmentPacket whole w.mtu w.fragId).toOption,
      Along (send A) (fun k c => k.LowEpoch c.1) w.keys (stamped c.1 packets)

instance (w : Worker) (c : (Nat → Nat) × Bytes) : Decidable (w.LowEpochs A c) := inferInstanceAs (Decidable (∀ _ ∈ _, _))

end Worker

/-! ## One packet -/

section
variable {A : Aead} {tx rx : TunnelKeys} {accepted : List Accepted} {v : Worker} {frame packet whole : Bytes} {d d' : Decoded}
  {instant : Nat}

/-- The frames of packets open one after the other. -/
lemma emitAll_carried {packets : List Bytes} {ds : List Decoded} {clock : Nat → Nat}
    (hds : List.Forall₂ (fun packet d => decode packet = .ok d ∧ packet.length = d.consumed) packets ds)
    (h : (World.mk tx rx accepted).Carried) (hlow : Along (send A) (fun k c => k.LowEpoch c.1) tx (stamped clock packets)) :
    ∃ frames, (emitAll A clock tx packets).2 = (frames, .ok ()) ∧ frames.length = packets.length ∧
      (run (decapsulate A) rx frames).2 = packets.map .ok ∧
      (∃ accepted', (World.mk (emitAll A clock tx packets).1 (run (decapsulate A) rx frames).1 accepted').Carried) ∧
      (emitAll A clock tx packets).1.stride = tx.stride ∧ (emitAll A clock tx packets).1.shard = tx.shard ∧
      ∀ frame ∈ frames, AddressedTo tx.stride.toNat tx.shard.toNat frame := by
  induction hds generalizing tx rx accepted clock with
  | nil => exact ⟨[], rfl, rfl, rfl, ⟨accepted, h⟩, rfl, rfl, nofun⟩
  | @cons packet d packets ds hd hds ih =>
    obtain ⟨hdec, hwhole⟩ := hd
    rw [stamped_cons, along_cons] at hlow
    obtain ⟨hfirst, hrest⟩ := hlow
    obtain ⟨hopen, hcarried⟩ := @World.Carried.transfer A _ (clock 0) packet d h hdec hwhole hfirst
    have he : encapsulate A tx (clock 0) packet = ((tx.rotateIfDue (clock 0)).record (sent tx (clock 0) packet d),
        .ok ((sent tx (clock 0) packet d).frame A)) := encapsulate_eq A (clock 0) h.inv.tidy.cache hdec
    obtain ⟨frames, hemit, hlen, hopens, hend, hstride, hshard, haddressed⟩ := ih hcarried hrest
    have hstay : (encapsulate A tx (clock 0) packet).1.stride = tx.stride ∧
        (encapsulate A tx (clock 0) packet).1.shard = tx.shard := by
      rw [he]
      exact ⟨(record_stride _ _).trans rotateIfDue_stride, (record_shard _ _).trans rotateIfDue_shard⟩
    have hframe : AddressedTo tx.stride.toNat tx.shard.toNat ((sent tx (clock 0) packet d).frame A) := by
      have hmem : sent tx (clock 0) packet d ∈ (encapsulate A tx (clock 0) packet).1.history := by
        rw [he, record_history]
        exact List.mem_cons_self
      refine ⟨(sent tx (clock 0) packet d).keyId, (sent tx (clock 0) packet d).aad ++ (sent tx (clock 0) packet d).body A,
        List.append_assoc _ _ _, ?_⟩
      rw [show keyEpoch (sent tx (clock 0) packet d).keyId = (sent tx (clock 0) packet d).epoch from
        keyEpoch_keyIdFor (hcarried.low.low _ hmem), ← hstay.1, ← hstay.2]
      exact hcarried.low.shard _ hmem
    have hall : emitAll A clock tx (packet :: packets) =
        ((emitAll A (fun i => clock (i + 1)) (encapsulate A tx (clock 0) packet).1 packets).1,
          (sent tx (clock 0) packet d).frame A :: frames, .ok ()) := by
      have hok : (encapsulate A tx (clock 0) packet).2 = .ok ((sent tx (clock 0) packet d).frame A) := congrArg Prod.snd he
      have he' : encapsulate A tx (clock 0) packet =
          ((encapsulate A tx (clock 0) packet).1, .ok ((sent tx (clock 0) packet d).frame A)) := Prod.ext rfl hok
      rw [emitAll, he']
      dsimp only
      generalize emitAll A (fun i => clock (i + 1)) (encapsulate A tx (clock 0) packet).1 packets = x at hemit
      rcases x with ⟨keys, x⟩
      cases hemit
      rfl
    rw [hall]
    refine ⟨_, rfl, congrArg (· + 1) hlen, ?_, hend, hstride.trans hstay.1, hshard.trans hstay.2, ?_⟩
    · rw [run_cons, hopen, hopens]
      rfl
    · rw [hstay.1, hstay.2] at haddressed
      exact List.forall_mem_cons.mpr ⟨hframe, haddressed⟩

namespace Worker

lemma data_opened (h : (decapsulate A v.keys frame).2 = .ok packet) :
    v.data A instant frame = { v with keys := (decapsulate A v.keys frame).1 }.receive instant packet := by
  unfold Worker.data
  generalize decapsulate A v.keys frame = x at h
  rcases x with ⟨keys, x⟩
  cases h
  rfl

/-- A packet that is no fragment and has no source route is delivered. -/
lemma receive_whole (hd : decode packet = .ok d) (hroute : ¬ Routed d) (hflag : d.header.flags &&& flags.fragment = 0) :
    v.receive instant packet = v.deliver d := by
  have hroute : d.header.nextHeader ≠ ExtType.routeTrace.wire := hroute
  unfold Worker.receive
  rw [hd]
  dsimp only
  rw [if_neg hroute, if_neg (not_not_intro hflag)]

/-- A fragment that the reassembler takes has no source route. -/
lemma not_routed_of_insert {x : Option Bytes} (hd : decode packet = .ok d)
    (hx : (v.reasm.insert instant d.header d.payload).2 = .ok x) : d.header.nextHeader ≠ ExtType.routeTrace.wire := by
  obtain ⟨e, -, hins⟩ | ⟨frag, hc, -⟩ := insert_cases v.reasm instant d.header d.payload
  · rw [hins] at hx
    cases hx
  · exact not_routed_of_checkFragment (decode_eq_ok.mp hd).1 hc

lemma receive_waiting (hf : IsFragment packet d) (hx : (v.reasm.insert instant d.header d.payload).2 = .ok none) :
    (v.receive instant packet).2 = .ok .waiting := by
  unfold Worker.receive
  rw [hf.decodes]
  dsimp only
  rw [if_neg (not_routed_of_insert hf.decodes hx), if_pos hf.flag, hx]

lemma receive_completes (hf : IsFragment packet d) (hx : (v.reasm.insert instant d.header d.payload).2 = .ok (some whole))
    (hwhole : decode whole = .ok d') : (v.receive instant packet).2 = .ok (.delivered d') := by
  unfold Worker.receive
  rw [hf.decodes]
  dsimp only
  rw [if_neg (not_routed_of_insert hf.decodes hx), if_pos hf.flag, hx]
  dsimp only
  rw [deliverWhole, hwhole]
  rfl

/-- Frames that open to the fragments of a packet: the worker waits for the last one, and delivers the packet then. -/
lemma run_fragments {frames packets : List Bytes} {ds : List Decoded} {clock : Nat → Nat} {m : Nat}
    (hopen : (run (decapsulate A) v.keys frames).2 = packets.map .ok) (hf : List.Forall₂ IsFragment packets ds)
    (hx : (run Reassembler.step v.reasm (insertsAt clock ds)).2 = List.replicate m (.ok none) ++ [.ok (some whole)])
    (hwhole : decode whole = .ok d') :
    (run (dataAt A) v (stamped clock frames)).1.keys = (run (decapsulate A) v.keys frames).1 ∧
      (run (dataAt A) v (stamped clock frames)).1.reasm = (run Reassembler.step v.reasm (insertsAt clock ds)).1 ∧
      (run (dataAt A) v (stamped clock frames)).2 = List.replicate m (.ok .waiting) ++ [.ok (.delivered d')] := by
  induction hf generalizing v frames clock m with
  | nil => cases m <;> cases hx
  | @cons packet d packets ds hd hds ih =>
    cases frames with
    | nil => cases hopen
    | cons frame frames =>
      rw [run_cons, List.map_cons, List.cons.injEq] at hopen
      obtain ⟨hframe, hframes⟩ := hopen
      rw [insertsAt_cons, run_cons] at hx
      have hkeys : (v.data A (clock 0) frame).1.keys = (decapsulate A v.keys frame).1 := by
        rw [data_opened hframe]
        exact (reasm_receive { v with keys := (decapsulate A v.keys frame).1 } (clock 0) hd.decodes).2
      have hreasm : (v.data A (clock 0) frame).1.reasm = (v.reasm.step (.insert (clock 0) d)).1 := by
        rw [data_opened hframe]
        exact (reasm_receive { v with keys := (decapsulate A v.keys frame).1 } (clock 0) hd.decodes).1
      rw [stamped_cons, insertsAt_cons, run_cons, run_cons, run_cons, dataAt]
      dsimp only
      cases m with
      | zero =>
        rw [List.replicate_zero, List.nil_append, List.cons.injEq] at hx
        obtain ⟨hlast, hnone⟩ := hx
        have hnil : ds = [] := insertsAt_eq_nil.mp (eq_nil_of_run _ hnone)
        rw [hnil] at hds
        cases hds
        have hend : frames = [] := eq_nil_of_run _ hframes
        have hanswer : (v.data A (clock 0) frame).2 = .ok (.delivered d') := by
          rw [data_opened hframe]
          exact receive_completes hd hlast hwhole
        rw [hend, hnil]
        exact ⟨hkeys, hreasm, congrArg (fun x => [x]) hanswer⟩
      | succ m =>
        rw [List.replicate_succ, List.cons_append, List.cons.injEq] at hx
        obtain ⟨hfirst, hrest⟩ := hx
        have hanswer : (v.data A (clock 0) frame).2 = .ok .waiting := by
          rw [data_opened hframe]
          exact receive_waiting hd hfirst
        rw [← hkeys] at hframes
        rw [← hreasm] at hrest
        obtain ⟨h1, h2, h3⟩ := ih hframes hrest
        rw [hkeys] at h1
        rw [hreasm] at h2
        refine ⟨h1, h2, ?_⟩
        rw [h3, hanswer]
        rfl

end Worker

end


/-- The two workers have come to the end of the same packets: the receiver opens what the sender seals next, and has no
fragments. -/
structure InStep (u v : Worker) : Prop where
  carried : ∃ accepted, (World.mk u.keys v.keys accepted).Carried
  empty : v.reasm.groups.size = 0

/-- The instants are those of the fragments of one packet: none of them is too late for another. -/
def Prompt (instants : List Nat) : Prop := ∀ a ∈ instants, ∀ b ∈ instants, b - a < reassemblyTimeout

instance (instants : List Nat) : Decidable (Prompt instants) := inferInstanceAs (Decidable (∀ _ ∈ _, _))

section
variable {A : Aead} {u v : Worker} {clock : Nat → Nat} {inner whole : Bytes} {packets frames : List Bytes} {d : Decoded}

/-- The steps of a seal that is not refused. -/
lemma Worker.seal_eq (henc : encode (IPv8Header.new u.localAddr u.peerAddr (UInt16.ofNat inner.length)) inner = .ok whole)
    (hfrag : fragmentPacket whole u.mtu u.fragId = .ok packets) (hemit : (emitAll A clock u.keys packets).2 = (frames, .ok ())) :
    (u.seal A clock inner).2 = .ok frames ∧ (u.seal A clock inner).1.keys = (emitAll A clock u.keys packets).1 := by
  unfold Worker.seal
  rw [henc]
  dsimp only
  rw [hfrag]
  dsimp only
  generalize emitAll A clock u.keys packets = x at hemit
  rcases x with ⟨keys, x⟩
  cases hemit
  exact ⟨rfl, rfl⟩

/-- The receiver takes in the frames of a packet, in time: it has kept step with the sender, and has delivered the packet. -/
def Takes (A : Aead) (u v : Worker) (inner : Bytes) (frames : List Bytes) : Prop :=
  ∀ arrivals : List (Nat × Bytes), arrivals.map (·.2) = frames → Prompt (arrivals.map (·.1)) →
    InStep u (run (Worker.dataAt A) v arrivals).1 ∧ deliveries (run (Worker.dataAt A) v arrivals).2 = [inner]

/-- Frames with the instants at which they arrive. -/
lemma exists_stamped (arrivals : List (Nat × Bytes)) : ∃ clock, arrivals = stamped clock (arrivals.map (·.2)) := by
  induction arrivals with
  | nil => exact ⟨id, rfl⟩
  | cons a arrivals ih =>
    obtain ⟨clock, hclock⟩ := ih
    refine ⟨fun i => Nat.casesOn i a.1 clock, ?_⟩
    rw [List.map_cons, stamped_cons]
    exact congrArg (a :: ·) hclock

lemma mem_stamped {i : Nat} (h : i < frames.length) : clock i ∈ (stamped clock frames).map (·.1) := by
  refine List.mem_map.mpr ⟨(clock i, frames[i]), ?_, rfl⟩
  exact List.mem_mapIdx.mpr ⟨i, h, rfl⟩

/-- A packet that goes out whole. -/
lemma InStep.takes_whole (h : InStep u v) {frame : Bytes} (hd : decode whole = .ok d) (hroute : ¬ Routed d)
    (hflag : d.header.flags &&& flags.fragment = 0) (hopen : (run (decapsulate A) v.keys [frame]).2 = [.ok whole])
    {u' : Worker} (hcarried : ∃ accepted, (World.mk u'.keys (run (decapsulate A) v.keys [frame]).1 accepted).Carried) :
    Takes A u' v d.payload [frame] := by
  intro arrivals hframes _
  obtain ⟨clock, harrivals⟩ := exists_stamped arrivals
  rw [hframes] at harrivals
  rw [run_cons, List.cons.injEq] at hopen
  have hdata : v.data A (clock 0) frame = { v with keys := (decapsulate A v.keys frame).1 }.deliver d :=
    (Worker.data_opened hopen.1).trans (Worker.receive_whole hd hroute hflag)
  rw [harrivals, show stamped clock [frame] = [(clock 0, frame)] from rfl, run_cons, Worker.dataAt, hdata]
  exact ⟨⟨hcarried, h.empty⟩, rfl⟩

/-- The pieces that a packet goes out in decode, and nothing stands behind them. -/
lemma exists_decoded {hdr : IPv8Header} {id : UInt32} {mtu : Nat} (henc : encode hdr d.payload = .ok whole)
    (hd : decode whole = .ok d) (hwhole : d.consumed = whole.length) (hflag : d.header.flags &&& flags.fragment = 0)
    (hfrag : fragmentPacket whole mtu id = .ok packets) :
    ∃ ds, List.Forall₂ (fun packet d => decode packet = .ok d ∧ packet.length = d.consumed) packets ds := by
  rcases length_fragments hd hwhole hfrag with rfl | hmany
  · exact ⟨[d], .cons ⟨hd, hwhole.symm⟩ .nil⟩
  · obtain ⟨ds, hf, -⟩ := @fragment_inOrder _ _ _ _ _ _ _ henc hd hwhole hflag hfrag hmany .new
      Std.ExtTreeMap.not_mem_empty (by decide) (fun _ => 0) (fun _ _ _ _ => by decide)
    exact ⟨ds, hf.imp fun packet d h => ⟨h.decodes, h.whole⟩⟩

/-- A packet that goes out in fragments. -/
lemma InStep.takes_fragments (h : InStep u v) {hdr : IPv8Header} (henc : encode hdr d.payload = .ok whole)
    (hd : decode whole = .ok d) (hwhole : d.consumed = whole.length) (hflag : d.header.flags &&& flags.fragment = 0) {mtu : Nat}
    {id : UInt32} (hfrag : fragmentPacket whole mtu id = .ok packets) (hmany : 1 < packets.length)
    (hopen : (run (decapsulate A) v.keys frames).2 = packets.map .ok) {u' : Worker}
    (hcarried : ∃ accepted, (World.mk u'.keys (run (decapsulate A) v.keys frames).1 accepted).Carried) :
    Takes A u' v d.payload frames := by
  intro arrivals hframes hprompt
  obtain ⟨clock, harrivals⟩ := exists_stamped arrivals
  rw [hframes] at harrivals
  rw [harrivals] at hprompt ⊢
  have hlen : frames.length = packets.length := by
    have hlen := congrArg List.length hopen
    rwa [length_run, List.length_map] at hlen
  have hfresh : (d.header.srcAddr.toBytes, d.header.dstAddr.toBytes, id) ∉ v.reasm.groups := by
    rw [Std.ExtTreeMap.eq_empty_iff_size_eq_zero.mpr h.empty]
    exact Std.ExtTreeMap.not_mem_empty
  have hroom : v.reasm.groups.size < maxGroups := by
    rw [h.empty]
    decide
  have hyoung : ∀ i < packets.length, ∀ j < packets.length, clock j - clock i < reassemblyTimeout := by
    rw [← hlen]
    exact fun i hi j hj => hprompt _ (mem_stamped hi) _ (mem_stamped hj)
  obtain ⟨ds, hf, hrun, hsize⟩ := fragment_inOrder henc hd hwhole hflag hfrag hmany hfresh hroom hyoung
  obtain ⟨hkeys, hreasm, hanswers⟩ := Worker.run_fragments hopen hf hrun hd
  refine ⟨⟨?_, ?_⟩, ?_⟩
  · rw [hkeys]
    exact hcarried
  · rw [hreasm]
    exact Nat.le_zero.mp (hsize.trans_eq h.empty)
  · rw [hanswers, deliveries_waiting]
    rfl

end

/-- What a seal does: the sender stays in its shard and makes frames for its peer. If it drops the packet, the two are in
step as they are, else the receiver takes the frames in. -/
structure Sealed (A : Aead) (u u' v : Worker) (inner : Bytes) (frames : List Bytes) : Prop where
  stride : u'.keys.stride = u.keys.stride
  shard : u'.keys.shard = u.keys.shard
  addressed : ∀ frame ∈ frames, AddressedTo u.keys.stride.toNat u.keys.shard.toNat frame
  dropped : frames = [] → InStep u' v
  takes : frames ≠ [] → Takes A u' v inner frames

section
variable {A : Aead} {u u' v : Worker} {inner : Bytes}

lemma InStep.dropped (h : InStep u v) (hkeys : u'.keys = u.keys) : Sealed A u u' v inner [] where
  stride := by rw [hkeys]
  shard := by rw [hkeys]
  addressed := nofun
  dropped := fun _ => ⟨hkeys ▸ h.carried, h.empty⟩
  takes := fun hne => absurd rfl hne

/-- Sealing a packet, in epochs that fit the KeyID. -/
theorem InStep.seal (h : InStep u v) {c : (Nat → Nat) × Bytes} (hlow : u.LowEpochs A c) :
    ∃ frames, (u.sealAt A c).2 = .ok frames ∧ Sealed A u (u.sealAt A c).1 v c.2 frames := by
  obtain ⟨clock, inner⟩ := c
  cases henc : encode (IPv8Header.new u.localAddr u.peerAddr (UInt16.ofNat inner.length)) inner with
  | err e =>
    refine ⟨[], ?_, h.dropped ?_⟩
    · simp only [Worker.sealAt, Worker.seal, henc]
    · simp only [Worker.sealAt, Worker.seal, henc, Worker.drop]
  | panic => exact absurd henc (encode_ne_panic _ _)
  | ok whole =>
    have hd := decode_encode henc nofun List.nodup_nil []
    rw [List.append_nil] at hd
    have hwhole := consumed_of_wf henc hd nofun
    cases hfrag : fragmentPacket whole u.mtu u.fragId with
    | err e =>
      refine ⟨[], ?_, h.dropped ?_⟩
      · simp only [Worker.sealAt, Worker.seal, henc, hfrag]
      · simp only [Worker.sealAt, Worker.seal, henc, hfrag, Worker.drop]
    | panic => exact absurd hfrag (fragmentPacket_ne_panic _ _ _)
    | ok packets =>
      have hlow : Along (send A) (fun k c => k.LowEpoch c.1) u.keys (stamped clock packets) :=
        hlow whole (Outcome.mem_toOption.mpr henc) packets (Outcome.mem_toOption.mpr hfrag)
      obtain ⟨accepted, hcarried⟩ := h.carried
      obtain ⟨ds, hds⟩ := exists_decoded henc hd hwhole UInt16.zero_and hfrag
      obtain ⟨frames, hemit, hlen, hopen, hcarried, hstride, hshard, haddressed⟩ := emitAll_carried hds hcarried hlow
      obtain ⟨hanswer, hkeys⟩ := Worker.seal_eq henc hfrag hemit
      rw [← hkeys] at hcarried hstride hshard
      refine ⟨frames, hanswer, ⟨hstride, hshard, haddressed, ?_, fun _ => ?_⟩⟩
      · rintro rfl
        exact ⟨hcarried, h.empty⟩
      · rcases length_fragments hd hwhole hfrag with rfl | hmany
        · obtain ⟨frame, rfl⟩ := List.length_eq_one_iff.mp hlen
          exact h.takes_whole hd nofun UInt16.zero_and hopen hcarried
        · exact h.takes_fragments henc hd hwhole UInt16.zero_and hfrag hmany hopen hcarried

end

/-! ## The lane -/

/-- The packets that a worker seals, each with its frames. It drops the others. -/
def Worker.sends (A : Aead) (u : Worker) : List ((Nat → Nat) × Bytes) → List (Bytes × List Bytes)
  | [] => []
  | c :: calls =>
    match u.sealAt A c with
    | (u, .ok (frame :: frames)) => (c.2, frame :: frames) :: u.sends A calls
    | (u, .ok []) => u.sends A calls
    | (u, .err _) => u.sends A calls
    | (u, .panic) => u.sends A calls

/-- Frames of packets in so many pieces arrive at these times, and the pieces of each packet in time. -/
def InTime : List Nat → List Nat → Prop
  | [], _ => True
  | n :: sizes, instants => Prompt (instants.take n) ∧ InTime sizes (instants.drop n)

instance InTime.decidable : ∀ sizes instants, Decidable (InTime sizes instants)
  | [], _ => isTrue trivial
  | n :: sizes, instants => @instDecidableAnd _ _ inferInstance (InTime.decidable sizes (instants.drop n))

/-- Packets that are sealed later do not make frames late. -/
lemma InTime.append {sizes instants : List Nat} (h : InTime sizes instants) (hlen : instants.length ≤ sizes.sum) (n : Nat) :
    InTime (sizes ++ [n]) instants := by
  induction sizes generalizing instants with
  | nil =>
    rw [List.eq_nil_of_length_eq_zero (Nat.le_zero.mp hlen)]
    refine ⟨?_, trivial⟩
    rw [List.take_nil]
    exact nofun
  | cons m sizes ih =>
    refine ⟨h.1, ih h.2 ?_⟩
    rw [List.sum_cons] at hlen
    rw [List.length_drop]
    omega

section
variable {A : Aead} {u v : Worker} {calls : List ((Nat → Nat) × Bytes)} {sent : List (Bytes × List Bytes)}
  {frames : List Bytes} {arrivals : List (Nat × Bytes)}

lemma deliveries_append (xs ys : List (Outcome Empty Verdict)) : deliveries (xs ++ ys) = deliveries xs ++ deliveries ys :=
  List.filterMap_append

/-- The last frames of a packet arrive together with the first. -/
def completed (arrivals : List (Nat × Bytes)) (frames : List Bytes) : List (Nat × Bytes) :=
  arrivals ++ (frames.drop arrivals.length).map fun frame => ((arrivals.head?.map (·.1)).getD 0, frame)

lemma map_completed (h : arrivals.map (·.2) <+: frames) : (completed arrivals frames).map (·.2) = frames := by
  have hrest := List.prefix_iff_eq_append.mp h
  rw [List.length_map] at hrest
  rw [completed, List.map_append, List.map_map]
  exact (congrArg _ (List.map_id _)).trans hrest

lemma prompt_completed (h : Prompt (arrivals.map (·.1))) : Prompt ((completed arrivals frames).map (·.1)) := by
  cases arrivals with
  | nil =>
    have hzero : ∀ a ∈ (completed [] frames).map (·.1), a = 0 := by
      intro a ha
      obtain ⟨x, hx, rfl⟩ := List.mem_map.mp ha
      obtain ⟨frame, -, rfl⟩ := List.mem_map.mp hx
      rfl
    intro a ha b hb
    rw [hzero a ha, hzero b hb]
    decide
  | cons x arrivals =>
    have hold : ∀ a ∈ (completed (x :: arrivals) frames).map (·.1), a ∈ (x :: arrivals).map (·.1) := by
      intro a ha
      rw [completed, List.map_append, List.map_map] at ha
      cases List.mem_append.mp ha with
      | inl ha => exact ha
      | inr ha =>
        obtain ⟨frame, -, rfl⟩ := List.mem_map.mp ha
        exact List.mem_cons_self
    exact fun a ha b hb => h a (hold a ha) b (hold b hb)

/-- The first frames of a packet: the receiver delivers nothing else, and nothing before the last of them. -/
lemma Takes.first {u' : Worker} {inner : Bytes} (h : Takes A u' v inner frames) (hframes : arrivals.map (·.2) <+: frames)
    (hprompt : Prompt (arrivals.map (·.1))) : deliveries (run (Worker.dataAt A) v arrivals).2 <+: [inner] := by
  obtain ⟨-, hall⟩ := h (completed arrivals frames) (map_completed hframes) (prompt_completed hprompt)
  rw [completed, answers_append, deliveries_append] at hall
  exact ⟨_, hall⟩

lemma Worker.sends_cons {c : (Nat → Nat) × Bytes} (h : (u.sealAt A c).2 = .ok frames) : u.sends A (c :: calls) =
    (if frames = [] then [] else [(c.2, frames)]) ++ (u.sealAt A c).1.sends A calls := by
  rw [sends]
  generalize u.sealAt A c = x at h
  rcases x with ⟨u', x⟩
  cases h
  cases frames with
  | nil => rfl
  | cons frame frames => rfl

/-- In every lane, the receiver delivers a first part of the packets that the sender has sealed, and all of them if it has
got all frames. -/
theorem InStep.lane (h : InStep u v) (hlow : Along (Worker.sealAt A) (Worker.LowEpochs A) u calls)
    (hframes : arrivals.map (·.2) <+: (u.sends A calls).flatMap (·.2))
    (htime : InTime ((u.sends A calls).map (·.2.length)) (arrivals.map (·.1))) :
    deliveries (run (Worker.dataAt A) v arrivals).2 <+: (u.sends A calls).map (·.1) ∧
      (arrivals.map (·.2) = (u.sends A calls).flatMap (·.2) →
        deliveries (run (Worker.dataAt A) v arrivals).2 = (u.sends A calls).map (·.1)) := by
  induction calls generalizing u v arrivals with
  | nil =>
    have hnone : arrivals = [] := List.map_eq_nil_iff.mp (List.prefix_nil.mp hframes)
    rw [hnone]
    exact ⟨List.nil_prefix, fun _ => rfl⟩
  | cons c calls ih =>
    obtain ⟨hfirst, hrest⟩ := hlow
    obtain ⟨frames, hanswer, hsealed⟩ := h.seal hfirst
    rw [Worker.sends_cons hanswer] at hframes htime ⊢
    by_cases hnone : frames = []
    · rw [if_pos hnone, List.nil_append] at hframes htime ⊢
      exact ih (hsealed.dropped hnone) hrest hframes htime
    rw [if_neg hnone, List.singleton_append] at hframes htime ⊢
    rw [List.flatMap_cons] at hframes ⊢
    obtain ⟨hprompt, htime⟩ := htime
    rw [← List.map_take] at hprompt
    rw [← List.map_drop] at htime
    by_cases hlen : arrivals.length < frames.length
    · -- the packet is not complete yet
      have hpart : arrivals.map (·.2) <+: frames := by
        apply List.prefix_of_prefix_length_le hframes (List.prefix_append _ _)
        rw [List.length_map]
        exact hlen.le
      rw [List.take_of_length_le hlen.le] at hprompt
      have hdel := (hsealed.takes hnone).first hpart hprompt
      refine ⟨hdel.trans (List.prefix_append [c.2] _), fun hall => ?_⟩
      have hsame : (arrivals.map (·.2)).length = (frames ++ ((u.sealAt A c).1.sends A calls).flatMap (·.2)).length :=
        congrArg List.length hall
      rw [List.length_map, List.length_append] at hsame
      omega
    · have hcut : arrivals = arrivals.take frames.length ++ arrivals.drop frames.length := (List.take_append_drop _ _).symm
      obtain ⟨rest, hwire⟩ : frames <+: arrivals.map (·.2) := by
        apply List.prefix_of_prefix_length_le (List.prefix_append _ _) hframes
        rw [List.length_map]
        exact not_lt.mp hlen
      have hhead : (arrivals.take frames.length).map (·.2) = frames := by
        rw [List.map_take, ← hwire, List.take_left]
      have htail : (arrivals.drop frames.length).map (·.2) <+: ((u.sealAt A c).1.sends A calls).flatMap (·.2) := by
        rw [List.map_drop, ← hwire, List.drop_left]
        rw [← hwire] at hframes
        exact (List.prefix_append_right_inj frames).mp hframes
      obtain ⟨hstep, hdel⟩ := hsealed.takes hnone _ hhead hprompt
      obtain ⟨hbegins, hall⟩ := ih hstep hrest htail htime
      rw [hcut, answers_append, deliveries_append, hdel, List.map_cons]
      refine ⟨List.cons_prefix_cons.mpr ⟨rfl, hbegins⟩, fun hsame => ?_⟩
      rw [List.map_append, hhead] at hsame
      exact congrArg (c.2 :: ·) (hall (List.append_cancel_left hsame))

/-- The sender stays ready, whatever it has sealed. -/
lemma InStep.ready (h : InStep u v) (hlow : Along (Worker.sealAt A) (Worker.LowEpochs A) u calls) :
    (∃ v', InStep (run (Worker.sealAt A) u calls).1 v') ∧ (run (Worker.sealAt A) u calls).1.keys.stride = u.keys.stride ∧
      (run (Worker.sealAt A) u calls).1.keys.shard = u.keys.shard := by
  induction calls generalizing u v with
  | nil => exact ⟨⟨v, h⟩, rfl, rfl⟩
  | cons c calls ih =>
    obtain ⟨frames, -, hsealed⟩ := h.seal hlow.1
    obtain ⟨v', hnext⟩ : ∃ v', InStep (u.sealAt A c).1 v' := by
      by_cases hnone : frames = []
      · exact ⟨v, hsealed.dropped hnone⟩
      · have hframes : (completed [] frames).map (·.2) = frames := map_completed List.nil_prefix
        have hprompt : Prompt ((completed [] frames).map (·.1)) := prompt_completed nofun
        exact ⟨_, (hsealed.takes hnone _ hframes hprompt).1⟩
    obtain ⟨hready, hstride, hshard⟩ := ih hnext hlow.2
    exact ⟨hready, hstride.trans hsealed.stride, hshard.trans hsealed.shard⟩

lemma Worker.sends_append (A : Aead) (u : Worker) (calls calls' : List ((Nat → Nat) × Bytes)) :
    u.sends A (calls ++ calls') = u.sends A calls ++ (run (sealAt A) u calls).1.sends A calls' := by
  induction calls generalizing u with
  | nil => rfl
  | cons c calls ih =>
    rw [List.cons_append, sends, sends, run_cons]
    have hrest := ih (u.sealAt A c).1
    generalize u.sealAt A c = x at hrest ⊢
    rcases x with ⟨u', (_ | ⟨frame, frames⟩) | e | _⟩
    · exact hrest
    · exact congrArg (_ :: ·) hrest
    · exact hrest
    · exact hrest

end

/-- A lane since its two workers were built: the packets that the one has sealed with their frames, the frames that the other
has got and when, and the packets that it has delivered. -/
structure Lane (A : Aead) (n k : Nat) (u v : Worker) (sent : List (Bytes × List Bytes)) (arrived : List (Nat × Bytes))
    (delivered : List Bytes) : Prop where
  history : ∃ u₀ v₀ calls, InStep u₀ v₀ ∧ u₀.keys.stride.toNat = n ∧ u₀.keys.shard.toNat = k ∧
    Along (Worker.sealAt A) (Worker.LowEpochs A) u₀ calls ∧ (run (Worker.sealAt A) u₀ calls).1 = u ∧
    u₀.sends A calls = sent ∧ (run (Worker.dataAt A) v₀ arrived).1 = v ∧
    deliveries (run (Worker.dataAt A) v₀ arrived).2 = delivered
  wire : arrived.map (·.2) <+: sent.flatMap (·.2)
  inTime : InTime (sent.map (·.2.length)) (arrived.map (·.1))

namespace Lane

variable {A : Aead} {n k : Nat} {u v : Worker} {sent : List (Bytes × List Bytes)} {arrived : List (Nat × Bytes)}
  {delivered : List Bytes}

lemma start (h : InStep u v) (hstride : u.keys.stride.toNat = n) (hshard : u.keys.shard.toNat = k) : Lane A n k u v [] [] [] :=
  ⟨⟨u, v, [], h, hstride, hshard, trivial, rfl, rfl, rfl, rfl⟩, List.nil_prefix, trivial⟩

/-- The sender seals a packet, or drops it. -/
theorem «seal» (h : Lane A n k u v sent arrived delivered) {c : (Nat → Nat) × Bytes} (hlow : u.LowEpochs A c) :
    ∃ frames, (u.sealAt A c).2 = .ok frames ∧ (∀ frame ∈ frames, AddressedTo n k frame) ∧
      Lane A n k (u.sealAt A c).1 v (sent ++ if frames = [] then [] else [(c.2, frames)]) arrived delivered := by
  obtain ⟨⟨u₀, v₀, calls, hstart, hn, hk, hall, rfl, rfl, hreceiver, hdelivered⟩, hwire, htime⟩ := h
  obtain ⟨⟨v', hready⟩, hstride, hshard⟩ := hstart.ready hall
  obtain ⟨frames, hanswer, hsealed⟩ := hready.seal hlow
  have haddressed := hsealed.addressed
  rw [hstride, hshard, hn, hk] at haddressed
  refine ⟨frames, hanswer, haddressed, ⟨⟨u₀, v₀, calls ++ [c], hstart, hn, hk, along_append.mpr ⟨hall, hlow, trivial⟩,
    run_append _ _ _, ?_, hreceiver, hdelivered⟩, ?_, ?_⟩⟩
  · rw [Worker.sends_append, Worker.sends_cons hanswer, Worker.sends, List.append_nil]
  · rw [List.flatMap_append]
    exact hwire.trans (List.prefix_append _ _)
  · by_cases hnone : frames = []
    · rw [if_pos hnone, List.append_nil]
      exact htime
    · rw [if_neg hnone, List.map_append]
      apply htime.append
      have hlen := hwire.length_le
      rw [List.length_map, List.length_flatMap] at hlen
      rw [List.length_map]
      exact hlen

/-- The receiver gets the next frame. -/
theorem arrive (h : Lane A n k u v sent arrived delivered) {instant : Nat} {frame : Bytes} {rest : List Bytes}
    (hnext : (sent.flatMap (·.2)).drop arrived.length = frame :: rest)
    (htime : InTime (sent.map (·.2.length)) (arrived.map (·.1) ++ [instant])) :
    Lane A n k u (v.data A instant frame).1 sent (arrived ++ [(instant, frame)])
      (delivered ++ deliveries [(v.data A instant frame).2]) := by
  obtain ⟨⟨u₀, v₀, calls, hstart, hn, hk, hall, hu, hsent, rfl, rfl⟩, hwire, -⟩ := h
  refine ⟨⟨u₀, v₀, calls, hstart, hn, hk, hall, hu, hsent, run_append _ _ _, ?_⟩, ?_, ?_⟩
  · rw [answers_append, deliveries_append]
    rfl
  · have hcut := List.prefix_iff_eq_append.mp hwire
    rw [List.length_map, hnext] at hcut
    rw [List.map_append, ← hcut]
    exact ⟨rest, List.append_assoc _ _ _⟩
  · rw [List.map_append]
    exact htime

/-- The receiver has delivered a first part of what the sender has sealed, and all of it if it has got all frames. -/
theorem inOrder (h : Lane A n k u v sent arrived delivered) : delivered <+: sent.map (·.1) ∧
    (arrived.length = (sent.flatMap (·.2)).length → delivered = sent.map (·.1)) := by
  obtain ⟨⟨u₀, v₀, calls, hstart, -, -, hall, -, rfl, -, rfl⟩, hwire, htime⟩ := h
  obtain ⟨hbegins, hwhole⟩ := hstart.lane hall hwire htime
  refine ⟨hbegins, fun hlen => hwhole (hwire.eq_of_length ?_)⟩
  rw [List.length_map]
  exact hlen

end Lane

end IPv8Plus.Tunnel
