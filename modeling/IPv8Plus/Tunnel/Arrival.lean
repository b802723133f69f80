import IPv8Plus.Codec.InOrder
import IPv8Plus.Tunnel.RelayRun
import IPv8Plus.Tunnel.SourceRoute
import IPv8Plus.Tunnel.Traffic

/-!
# Arrival of multi-hop packets

The source seals a packet, every hop takes in the frames that the one before it has made, and seals what it passes on
for the next one. Relays do not cut packets, and the first hop collects fragments for a limited time, and of a limited
number of packets (`multihop_lost`). Up to that `multihop_arrives` says that the destination delivers the payload
once, and no relay delivers anything.
-/

namespace IPv8Plus.Tunnel
open Lib Codec Routing TunnelKeys

variable {S : SigScheme}

/-- A hop of a path: the two ends of the tunnel from the hop before, the clock by which packets are sealed for it, and
the two clocks by which it takes in frames. -/
structure Hop (S : SigScheme) where
  tx : Engine
  rx : DataPlane S
  sealClock : Nat → Nat
  clock : Nat → Nat × UInt64

namespace Hop

variable (A : Aead)

/-- The frames come in one after the other. -/
def receive (hop : Hop S) (frames : List Bytes) : DataPlane S × List (Outcome Empty Verdict) :=
  run (fun e (c : (Nat × UInt64) × Bytes) => e.handleFrameAt A c.1.1 c.1.2 c.2) hop.rx
    (frames.mapIdx fun i frame => (hop.clock i, frame))

/-- What was passed on to this hop is sealed for it. -/
def send (hop : Hop S) (packets : List (IPv8Address × Bytes)) : List Bytes :=
  let mine := packets.filter fun p => p.1 = hop.rx.localAddr
  let (_, frames) := run (fun (e : Engine) (c : Nat × Bytes) => e.sealPrebuilt A c.1 c.2) hop.tx
    (mine.mapIdx fun i p => (hop.sealClock i, p.2))
  frames.filterMap Outcome.toOption

end Hop

/-- Take out packets to pass on until there is none. -/
def DataPlane.takeForwardPackets (e : DataPlane S) : List (IPv8Address × Bytes) :=
  (run (fun (e : DataPlane S) () => e.takeForwardPacket) e (List.replicate e.forwardOut.length ())).2.reduceOption

/-- What the hops of a path answer to the frames that come in, if frames come in at the first one. -/
def journey (A : Aead) : List (Hop S) → List Bytes → List (List (Outcome Empty Verdict))
  | [], _ => []
  | hop :: hops, frames =>
    let (e, answers) := hop.receive A frames
    let frames :=
      match hops with
      | [] => []
      | next :: _ => next.send A e.takeForwardPackets
    answers :: journey A hops frames

/-- The payloads that an engine has delivered. -/
def deliveries (answers : List (Outcome Empty Verdict)) : List Bytes :=
  answers.filterMap fun x =>
    match x with
    | .ok (.delivered d) => some d.payload
    | _ => none

/-- The engines do the same with packets on a route. -/
structure DataPlane.RoutesAs (e e' : DataPlane S) : Prop where
  fwd : e.fwd = e'.fwd
  localAddr : e.localAddr = e'.localAddr
  forwardOut : e.forwardOut = e'.forwardOut

/-- The frames bring the hop one packet and nothing else. -/
def Hop.Gets (A : Aead) (hop : Hop S) (frames : List Bytes) (packet : Bytes) : Prop :=
  ∃ (e : DataPlane S) (i m : Nat), e.RoutesAs hop.rx ∧
    hop.receive A frames = ((e.ingest packet (hop.clock i).2).1,
      List.replicate m (.ok .waiting) ++ [(e.ingest packet (hop.clock i).2).2])

section
variable {A : Aead} {keys tx rx : TunnelKeys} {e : DataPlane S} {frame packet whole : Bytes} {frames packets : List Bytes}
  {d : Decoded} {instant : Nat} {now : UInt64}

/-! ## Taking in frames -/

/-- The engine with other keys. -/
def DataPlane.withKeys (e : DataPlane S) (keys : TunnelKeys) : DataPlane S := { e with keys := some keys }

/-- A frame that opens to a packet. -/
lemma handleFrameAt_opened (hkeys : e.keys = some keys) (h : (decapsulate A keys frame).2 = .ok packet) :
    e.handleFrameAt A instant now frame =
      (e.withKeys (decapsulate A keys frame).1).receive instant now packet := by
  have hdata : ∃ head, parseHead frame = .ok head ∧ head.frameType = .data := by
    unfold decapsulate at h
    cases hhead : parseHead frame with
    | err x =>
      rw [hhead] at h
      cases h
    | panic =>
      rw [hhead] at h
      cases h
    | ok head =>
      rw [hhead] at h
      dsimp only at h
      split at h
      · cases h
      · next htype => exact ⟨head, rfl, not_not.mp htype⟩
  obtain ⟨head, hhead, htype⟩ := hdata
  unfold DataPlane.handleFrameAt DataPlane.handleData DataPlane.openFrame
  rw [hhead]
  dsimp only
  rw [if_pos htype, hkeys]
  dsimp only
  generalize decapsulate A keys frame = x at h
  rcases x with ⟨keys', x⟩
  cases h
  rfl

/-- A packet that is no fragment is taken in at once. -/
lemma receive_whole (hd : decode packet = .ok d) (hflag : d.header.flags &&& flags.fragment = 0) :
    e.receive instant now packet = e.ingest packet now := by
  unfold DataPlane.receive
  rw [hd]
  dsimp only
  rw [if_neg (not_not_intro hflag)]

/-- A fragment that does not complete its packet. -/
lemma receive_waiting (hf : IsFragment packet d)
    (hx : (e.reassembler.step (.insert instant d)).2 = .ok none) :
    ∃ e' : DataPlane S, e'.RoutesAs e ∧ e'.keys = e.keys ∧
      e'.reassembler = (e.reassembler.step (.insert instant d)).1 ∧
      e.receive instant now packet = (e', .ok .waiting) := by
  have hx : (e.reassembler.insert instant d.header d.payload).2 = .ok none := hx
  unfold DataPlane.receive
  rw [hf.decodes]
  dsimp only
  rw [if_pos hf.flag, Reassembler.step]
  generalize e.reassembler.insert instant d.header d.payload = x at hx ⊢
  rcases x with ⟨r, x⟩
  cases hx
  refine ⟨_, ?_, ?_, ?_, rfl⟩
  · exact ⟨rfl, rfl, rfl⟩
  · rfl
  · rfl

/-- A fragment that completes its packet. -/
lemma receive_complete (hf : IsFragment packet d)
    (hx : (e.reassembler.step (.insert instant d)).2 = .ok (some whole)) :
    ∃ e' : DataPlane S, e'.RoutesAs e ∧ e.receive instant now packet = e'.ingest whole now := by
  have hx : (e.reassembler.insert instant d.header d.payload).2 = .ok (some whole) := hx
  unfold DataPlane.receive
  rw [hf.decodes]
  dsimp only
  rw [if_pos hf.flag]
  generalize e.reassembler.insert instant d.header d.payload = x at hx ⊢
  rcases x with ⟨r, x⟩
  cases hx
  refine ⟨_, ?_, rfl⟩
  exact ⟨rfl, rfl, rfl⟩

/-- Frames that open to the fragments of a packet: the engine waits for the last one, and takes in the packet then. -/
lemma run_fragments {ds : List Decoded} {clock : Nat → Nat × UInt64} {m : Nat} (hkeys : e.keys = some keys)
    (hopen : (run (decapsulate A) keys frames).2 = packets.map .ok) (hf : List.Forall₂ IsFragment packets ds)
    (hx : (run Reassembler.step e.reassembler (insertsAt (fun i => (clock i).1) ds)).2 =
      List.replicate m (.ok none) ++ [.ok (some whole)]) :
    ∃ (e' : DataPlane S) (i : Nat), e'.RoutesAs e ∧
      run (fun e (c : (Nat × UInt64) × Bytes) => e.handleFrameAt A c.1.1 c.1.2 c.2) e
          (frames.mapIdx fun i frame => (clock i, frame)) =
        ((e'.ingest whole (clock i).2).1, List.replicate m (.ok .waiting) ++ [(e'.ingest whole (clock i).2).2]) := by
  -- `m` counts the fragments that are still waited for; the engine changes with each of them
  induction hf generalizing e keys frames clock m with
  | nil => cases m <;> cases hx
  | @cons packet d packets ds hd hds ih =>
    cases frames with
    | nil => cases hopen
    | cons frame frames =>
      rw [run_cons, List.map_cons, List.cons.injEq] at hopen
      obtain ⟨hframe, hframes⟩ := hopen
      rw [insertsAt_cons, run_cons] at hx
      rw [List.mapIdx_cons, run_cons]
      dsimp only
      rw [handleFrameAt_opened hkeys hframe]
      cases m with
      | zero =>
        rw [List.replicate_zero, List.nil_append, List.cons.injEq] at hx
        obtain ⟨hlast, hnone⟩ := hx
        -- the last fragment completes the packet, so no frame is left
        have hnil : ds = [] := insertsAt_eq_nil.mp (eq_nil_of_run _ hnone)
        rw [hnil] at hds
        cases hds
        have hend : frames = [] := eq_nil_of_run _ hframes
        obtain ⟨e', hroutes, hreceive⟩ :=
          @receive_complete S (e.withKeys (decapsulate A keys frame).1) packet whole d (clock 0).1 (clock 0).2 hd hlast
        rw [hend, hreceive]
        exact ⟨e', 0, ⟨hroutes.fwd, hroutes.localAddr, hroutes.forwardOut⟩, rfl⟩
      | succ m =>
        rw [List.replicate_succ, List.cons_append, List.cons.injEq] at hx
        obtain ⟨hfirst, hrest⟩ := hx
        obtain ⟨e₁, hroutes₁, hkeys₁, hreasm₁, hreceive⟩ :=
          @receive_waiting S (e.withKeys (decapsulate A keys frame).1) packet d (clock 0).1 (clock 0).2 hd hfirst
        have hrest : (run Reassembler.step e₁.reassembler (insertsAt (fun i => (clock (i + 1)).1) ds)).2 =
            List.replicate m (.ok none) ++ [.ok (some whole)] := by
          rw [hreasm₁]
          exact hrest
        obtain ⟨e', i, hroutes, hrun⟩ := ih hkeys₁ hframes hrest
        refine ⟨e', i + 1, ⟨?_, ?_, ?_⟩, ?_⟩
        · exact hroutes.fwd.trans hroutes₁.fwd
        · exact hroutes.localAddr.trans hroutes₁.localAddr
        · exact hroutes.forwardOut.trans hroutes₁.forwardOut
        · rw [hreceive, hrun]
          rfl

variable {hop : Hop S}

/-- A hop gets a packet that is cut in fragments. -/
lemma Hop.gets_fragments {ds : List Decoded} {m : Nat} (hkeys : hop.rx.keys = some keys)
    (hopen : (run (decapsulate A) keys frames).2 = packets.map .ok) (hf : List.Forall₂ IsFragment packets ds)
    (hx : (run Reassembler.step hop.rx.reassembler (insertsAt (fun i => (hop.clock i).1) ds)).2 =
      List.replicate m (.ok none) ++ [.ok (some whole)]) : hop.Gets A frames whole := by
  obtain ⟨e, i, hroutes, hrun⟩ := run_fragments hkeys hopen hf hx
  exact ⟨e, i, m, hroutes, hrun⟩

/-- A hop gets a packet in one frame. -/
lemma Hop.gets_frame (hkeys : hop.rx.keys = some keys) (hopen : (decapsulate A keys frame).2 = .ok packet)
    (hd : decode packet = .ok d) (hflag : d.header.flags &&& flags.fragment = 0) : hop.Gets A [frame] packet := by
  refine ⟨hop.rx.withKeys (decapsulate A keys frame).1, 0, 0, ⟨rfl, rfl, rfl⟩, ?_⟩
  rw [Hop.receive, List.mapIdx_cons, run_cons]
  dsimp only
  rw [handleFrameAt_opened hkeys hopen, receive_whole hd hflag]
  rfl

/-- All packets are taken out, in their order. -/
lemma takeForwardPackets_eq (e : DataPlane S) : e.takeForwardPackets = e.forwardOut := by
  unfold DataPlane.takeForwardPackets
  generalize hout : e.forwardOut = out
  induction out generalizing e with
  | nil => rfl
  | cons p out ih =>
    have htail : e.takeForwardPacket.1.forwardOut = out := congrArg List.tail hout
    have hhead : e.takeForwardPacket.2 = some p := congrArg List.head? hout
    rw [List.length_cons, List.replicate_succ, run_cons]
    dsimp only
    rw [hhead, List.reduceOption_cons_of_some, ih _ htail]

end

/-! ## Sealing -/

section
variable {A : Aead} {tx rx : TunnelKeys} {accepted : List Accepted} {packet : Bytes} {d : Decoded} {now : Nat}

/-- So many epochs fit the KeyID, if every frame takes a new one. -/
def EpochsLeft (k : TunnelKeys) (n : Nat) : Prop := k.sendEpoch.toNat + n * k.stride.toNat < 2 ^ 56

lemma EpochsLeft.lowEpoch {n : Nat} (h : EpochsLeft tx (n + 1)) : tx.LowEpoch now := by
  unfold EpochsLeft at h
  unfold TunnelKeys.LowEpoch
  rw [Nat.add_mul] at h
  split
  · omega
  · omega

lemma EpochsLeft.encapsulate {n : Nat} (h : EpochsLeft tx (n + 1)) (hc : tx.CacheOk) (hd : decode packet = .ok d) :
    EpochsLeft (encapsulate A tx now packet).1 n := by
  have hlow : tx.LowEpoch now := h.lowEpoch
  unfold EpochsLeft at h ⊢
  rw [encapsulate_eq A now hc hd, record_sendEpoch, record_stride, rotateIfDue_stride]
  rw [Nat.add_mul] at h
  rcases hlow.noWrap.toNat_sendEpoch with heq | heq
  · rw [heq]
    omega
  · rw [heq]
    omega

/-- Packets that are sealed one after the other come out one after the other. -/
lemma encapsulateAll_transfer {packets frames : List Bytes} {ds : List Decoded} {clock : Nat → Nat}
    (hds : List.Forall₂ (fun packet d => decode packet = .ok d ∧ packet.length = d.consumed) packets ds)
    (h : (World.mk tx rx accepted).Carried) (hepochs : EpochsLeft tx packets.length)
    (hok : (encapsulateAll A clock tx packets).2 = .ok frames) : (run (decapsulate A) rx frames).2 = packets.map .ok := by
  -- both ends move on together, and each frame takes one of the epochs that are left
  induction hds generalizing tx rx accepted frames clock with
  | nil =>
    cases hok
    rfl
  | @cons packet d packets ds hd hds ih =>
    obtain ⟨hdec, hwhole⟩ := hd
    obtain ⟨hopen, hcarried⟩ := @World.Carried.transfer A _ (clock 0) packet d h hdec hwhole hepochs.lowEpoch
    have hnext : EpochsLeft (encapsulate A tx (clock 0) packet).1 packets.length :=
      EpochsLeft.encapsulate hepochs h.inv.tidy.cache hdec
    have hcache : tx.CacheOk := h.inv.tidy.cache
    have hframe : (encapsulate A tx (clock 0) packet).2 = .ok ((sent tx (clock 0) packet d).frame A) :=
      congrArg Prod.snd (encapsulate_eq A (clock 0) hcache hdec)
    have he : encapsulate A tx (clock 0) packet =
        ((encapsulate A tx (clock 0) packet).1, .ok ((sent tx (clock 0) packet d).frame A)) := Prod.ext rfl hframe
    rw [encapsulateAll, he] at hok
    dsimp only at hok
    cases hrest : (encapsulateAll A (fun i => clock (i + 1)) (encapsulate A tx (clock 0) packet).1 packets).2 with
    | err x =>
      rw [hrest] at hok
      cases hok
    | panic =>
      rw [hrest] at hok
      cases hok
    | ok rest =>
      rw [hrest] at hok
      cases hok
      rw [run_cons, hopen, ih hcarried hnext hrest]
      rfl

lemma length_encapsulateAll {packets frames : List Bytes} {clock : Nat → Nat}
    (hok : (encapsulateAll A clock tx packets).2 = .ok frames) : frames.length = packets.length := by
  induction packets generalizing tx frames clock with
  | nil =>
    cases hok
    rfl
  | cons packet packets ih =>
    unfold encapsulateAll at hok
    split at hok
    · cases hok
    · cases hok
    · next keys frame he =>
      dsimp only at hok
      cases hrest : (encapsulateAll A (fun i => clock (i + 1)) keys packets).2 with
      | err x =>
        rw [hrest] at hok
        cases hok
      | panic =>
        rw [hrest] at hok
        cases hok
      | ok rest =>
        rw [hrest] at hok
        cases hok
        exact congrArg (· + 1) (ih hrest)

variable {hop : Hop S}

/-- A packet that was passed on to a hop, and fits the tunnel to it, is sealed in one frame, which brings the packet. -/
lemma Hop.send_gets (htx : hop.tx.keys = some tx) (hrx : hop.rx.keys = some rx) (hlinked : Linked A tx rx)
    (hepochs : EpochsLeft tx 1) (hmtu : packet.length ≤ hop.tx.mtu) (hd : decode packet = .ok d)
    (hwhole : packet.length = d.consumed) (hflag : d.header.flags &&& flags.fragment = 0) :
    hop.Gets A (hop.send A [(hop.rx.localAddr, packet)]) packet := by
  obtain ⟨accepted, hcarried⟩ := hlinked.carried
  obtain ⟨hopen, -⟩ := @World.Carried.transfer A _ (hop.sealClock 0) packet d hcarried hd hwhole hepochs.lowEpoch
  have hsend : hop.send A [(hop.rx.localAddr, packet)] = [(sent tx (hop.sealClock 0) packet d).frame A] := by
    unfold Hop.send
    rw [List.filter_cons_of_pos (by exact decide_eq_true rfl), List.filter_nil]
    dsimp only
    rw [List.mapIdx_cons, run_cons]
    dsimp only
    rw [Engine.sealPrebuilt, htx]
    dsimp only
    rw [Engine.sealPacket, if_neg (Nat.not_lt.mpr hmtu), encapsulate_eq A _ hcarried.inv.tidy.cache hd]
    rfl
  rw [hsend]
  exact Hop.gets_frame hrx hopen hd hflag

end

/-! ## The path -/

lemma deliveries_waiting (m : Nat) (x : Outcome Empty Verdict) :
    deliveries (List.replicate m (.ok .waiting) ++ [x]) = deliveries [x] := by
  induction m with
  | zero => rfl
  | succ m ih => exact ih

section
variable {A : Aead} {host : HostIdentity S} {trace : RouteTrace} {k : Nat} {packet : Bytes} {d : Decoded} {hop : Hop S}
  {frames : List Bytes}

/-- The hop stands at place `k` of the route, and trusts the source at all times. -/
def Hop.TrustsAt (hop : Hop S) (host : HostIdentity S) (src : IPv8Address) (trace : RouteTrace) (k : Nat) : Prop :=
  ∀ i, Trusts host src trace k hop.rx (hop.clock i).2

lemma Hop.TrustsAt.of_routes {src : IPv8Address} {e : DataPlane S} (h : hop.TrustsAt host src trace k) (he : e.RoutesAs hop.rx)
    (i : Nat) : Trusts host src trace k e (hop.clock i).2 := by
  obtain ⟨hplace, hpath, hcert⟩ := h i
  rw [← he.localAddr] at hplace
  rw [← he.fwd] at hcert
  exact ⟨hplace, hpath, hcert⟩

/-- The last hop delivers the packet that it gets. -/
lemma Hop.Gets.delivers (h : hop.Gets A frames packet) (hon : OnRoute host trace k packet d)
    (ht : hop.TrustsAt host d.header.srcAddr trace k) (hlast : k + 1 = trace.hops.length)
    (hdst : d.header.dstAddr = hop.rx.localAddr) : deliveries (hop.receive A frames).2 = [d.payload] := by
  obtain ⟨e, i, m, hroutes, hrun⟩ := h
  have hte := ht.of_routes hroutes i
  obtain ⟨-, hverdict⟩ := hon.ingest_delivers hte hlast (hdst.trans hroutes.localAddr.symm)
  rw [hrun]
  dsimp only
  rw [deliveries_waiting, hverdict]
  rfl

/-- Every other hop delivers nothing, and passes the packet on. -/
lemma Hop.Gets.forwards (h : hop.Gets A frames packet) (hon : OnRoute host trace k packet d)
    (ht : hop.TrustsAt host d.header.srcAddr trace k) {next : IPv8Address} (hnext : trace.hops[k + 1]? = some next)
    (hlimit : k + 1 < trace.initHopLimit.toNat) (hidle : hop.rx.forwardOut = []) :
    deliveries (hop.receive A frames).2 = [] ∧
      ∃ packet', OnRoute host trace (k + 1) packet' (OnRoute.nextDecoded d) ∧ packet'.length = packet.length ∧
        (hop.receive A frames).1.takeForwardPackets = [(next, packet')] := by
  obtain ⟨e, i, m, hroutes, hrun⟩ := h
  have hte := ht.of_routes hroutes i
  obtain ⟨packet', hon', hlen, hout, hverdict⟩ := hon.ingest_forwards hte hnext hlimit
  rw [hrun]
  refine ⟨?_, packet', hon', hlen, ?_⟩
  · rw [deliveries_waiting, hverdict]
    rfl
  · rw [takeForwardPackets_eq, hout, hroutes.forwardOut, hidle]
    rfl

/-- The tunnel to the hop is up, with epochs for so many frames. -/
def Hop.Tunnelled (A : Aead) (hop : Hop S) (n : Nat) : Prop :=
  ∃ tx rx, hop.tx.keys = some tx ∧ hop.rx.keys = some rx ∧ Linked A tx rx ∧ EpochsLeft tx n

lemma OnRoute.length_eq (h : OnRoute host trace k packet d) : packet.length = d.consumed := by
  obtain ⟨wf, -⟩ := decode_eq_ok.mp h.decodes
  exact (consumed_of_wf h.encodes h.decodes wf.chain).symm

/-- An address that occurs once has one place. -/
lemma idxOf_of_drop {hops : List IPv8Address} {addr : IPv8Address} {addrs : List IPv8Address} (hnodup : hops.Nodup)
    (h : hops.drop k = addr :: addrs) : hops.idxOf addr = k ∧ k + 1 + addrs.length = hops.length := by
  have hlen := congrArg List.length h
  rw [List.length_drop, List.length_cons] at hlen
  have hk : k < hops.length := by omega
  rw [List.drop_eq_getElem_cons hk, List.cons.injEq] at h
  rw [← h.1]
  exact ⟨hnodup.idxOf_getElem k hk, by omega⟩

/-- Along the rest of a path, the packet is delivered at its end, and nothing before. -/
theorem journey_arrives {rest : List (Hop S)} (hnodup : trace.hops.Nodup)
    (hpath : trace.hops.drop k = hop.rx.localAddr :: rest.map (·.rx.localAddr))
    (hdst : trace.hops.getLast? = some d.header.dstAddr) (hlimit : trace.hops.length ≤ trace.initHopLimit.toNat)
    (hon : OnRoute host trace k packet d) (hget : hop.Gets A frames packet)
    (htrust : ∀ h ∈ hop :: rest, ∀ i, ∃ anchorPub, h.rx.fwd = some anchorPub ∧
      Bound S anchorPub host.cert.toWire d.header.srcAddr host.publicEdKey (h.clock i).2)
    (hidle : ∀ h ∈ hop :: rest, h.rx.forwardOut = []) (htunnel : ∀ h ∈ rest, h.Tunnelled A 1)
    (hmtu : ∀ h ∈ rest, packet.length ≤ h.tx.mtu) :
    (journey A (hop :: rest) frames).map deliveries = List.replicate rest.length [] ++ [[d.payload]] := by
  -- from hop to hop the packet, the place in the route and the frames are others
  induction rest generalizing hop frames packet d k with
  | nil =>
    obtain ⟨hplace, hlen⟩ := idxOf_of_drop hnodup hpath
    have hlast : k + 1 = trace.hops.length := hlen
    have hat : hop.TrustsAt host d.header.srcAddr trace k :=
      fun j => ⟨hplace, Nat.lt_of_succ_le hlast.le, htrust hop List.mem_cons_self j⟩
    have hhere : d.header.dstAddr = hop.rx.localAddr := by
      have hgetLast : (trace.hops.drop k).getLast? = trace.hops.getLast? := by
        rw [List.getLast?_drop, if_neg (by omega)]
      rw [hpath, hdst] at hgetLast
      exact (Option.some.inj hgetLast).symm
    rw [journey, List.map_cons, hget.delivers hon hat hlast hhere]
    rfl
  | cons next rest ih =>
    obtain ⟨hplace, hlen⟩ := idxOf_of_drop hnodup hpath
    rw [List.map_cons, List.length_cons] at hlen
    have hat : hop.TrustsAt host d.header.srcAddr trace k :=
      fun j => ⟨hplace, by omega, htrust hop List.mem_cons_self j⟩
    have hdrop : trace.hops.drop (k + 1) = next.rx.localAddr :: rest.map (·.rx.localAddr) := by
      rw [← List.tail_drop, hpath]
      rfl
    have hnext : trace.hops[k + 1]? = some next.rx.localAddr := by
      rw [← List.head?_drop, hdrop]
      rfl
    obtain ⟨hnone, packet', hon', hsame, hout⟩ := hget.forwards hon hat hnext (by omega) (hidle hop List.mem_cons_self)
    obtain ⟨tx, rx, htx, hrx, hlinked, hepochs⟩ := htunnel next List.mem_cons_self
    -- past the first hop the packet goes in one frame
    have hgets : next.Gets A (next.send A [(next.rx.localAddr, packet')]) packet' :=
      Hop.send_gets htx hrx hlinked hepochs (hsame.le.trans (hmtu next List.mem_cons_self)) hon'.decodes hon'.length_eq hon'.whole
    have hrest := ih (d := OnRoute.nextDecoded d) hdrop hdst hon' hgets (fun h hh => htrust h (List.mem_cons_of_mem _ hh))
      (fun h hh => hidle h (List.mem_cons_of_mem _ hh)) (fun h hh => htunnel h (List.mem_cons_of_mem _ hh))
      (fun h hh => hsame.le.trans (hmtu h (List.mem_cons_of_mem _ hh)))
    rw [journey, List.map_cons, hnone, hout, hrest]
    rfl

variable {e e' : DataPlane S} {clock : Nat → Nat} {innerIp : Bytes} {dst : IPv8Address} {hops : List IPv8Address}
  {initHopLimit : UInt8}

/-- The steps of a seal that succeeds. -/
lemma sealMultihop_eq_ok (hauth : e.auth = some host)
    (h : e.sealMultihop A clock innerIp dst hops initHopLimit = (e', .ok frames)) :
    ∃ keys whole packets, e.keys = some keys ∧ e.multihopPacket host innerIp dst hops initHopLimit = .ok whole ∧
      fragmentPacket whole e.mtu e.fragId = .ok packets ∧ (encapsulateAll A clock keys packets).2 = .ok frames := by
  unfold DataPlane.sealMultihop at h
  rw [hauth] at h
  cases hkeys : e.keys with
  | none =>
    rw [hkeys] at h
    cases h
  | some keys =>
    rw [hkeys] at h
    dsimp only at h
    cases hwhole : e.multihopPacket host innerIp dst hops initHopLimit with
    | err x =>
      rw [hwhole] at h
      cases h
    | panic =>
      rw [hwhole] at h
      cases h
    | ok whole =>
      rw [hwhole] at h
      dsimp only at h
      cases hfrag : fragmentPacket whole e.mtu e.fragId with
      | err x =>
        rw [hfrag] at h
        cases h
      | panic =>
        rw [hfrag] at h
        cases h
      | ok packets =>
        rw [hfrag] at h
        dsimp only [Outcome.mapErr_ok] at h
        refine ⟨keys, whole, packets, rfl, rfl, hfrag, ?_⟩
        generalize encapsulateAll A clock keys packets = x at h ⊢
        rcases x with ⟨keys', frames' | x | _⟩
        · cases h
          rfl
        · cases h
        · cases h

/-- The hop collects so many fragments of a packet: it has none yet, a free slot, and they come in time. -/
def Hop.Collects (hop : Hop S) (key : GroupKey) (n : Nat) : Prop :=
  key ∉ hop.rx.reassembler.groups ∧ hop.rx.reassembler.groups.size < maxGroups ∧
    ∀ i < n, ∀ j < n, (hop.clock j).1 - (hop.clock i).1 < reassemblyTimeout

/-- The first hop gets the packet that the source has sealed. -/
lemma sealMultihop_gets {tx rx : TunnelKeys} {whole : Bytes} {packets : List Bytes} (hon : OnRoute host trace k whole d)
    (hrx : hop.rx.keys = some rx) (hlinked : Linked A tx rx) {mtu : Nat} {id : UInt32}
    (hfrag : fragmentPacket whole mtu id = .ok packets) (hok : (encapsulateAll A clock tx packets).2 = .ok frames)
    (hepochs : EpochsLeft tx frames.length)
    (hcollects : 1 < frames.length → hop.Collects (d.header.srcAddr.toBytes, d.header.dstAddr.toBytes, id) frames.length) :
    hop.Gets A frames whole := by
  obtain ⟨accepted, hcarried⟩ := hlinked.carried
  have hlen : frames.length = packets.length := length_encapsulateAll hok
  rw [hlen] at hepochs hcollects
  -- one frame is taken in at once, several are collected first
  rcases length_fragments hon.decodes hon.length_eq.symm hfrag with rfl | hmany
  · have hds : List.Forall₂ (fun packet d => decode packet = .ok d ∧ packet.length = d.consumed) [whole] [d] :=
      .cons ⟨hon.decodes, hon.length_eq⟩ .nil
    have hopen := encapsulateAll_transfer hds hcarried hepochs hok
    obtain ⟨frame, rfl⟩ := List.length_eq_one_iff.mp hlen
    rw [run_cons, List.map_cons, List.cons.injEq] at hopen
    exact Hop.gets_frame hrx hopen.1 hon.decodes hon.whole
  · obtain ⟨hfresh, hroom, hyoung⟩ := hcollects hmany
    obtain ⟨ds, hf, hrun, -⟩ := fragment_inOrder hon.encodes hon.decodes hon.length_eq.symm hon.whole hfrag hmany hfresh
      hroom hyoung
    have hds := hf.imp fun packet d h => And.intro h.decodes h.whole
    have hopen := encapsulateAll_transfer hds hcarried hepochs hok
    exact Hop.gets_fragments hrx hopen hf hrun

end

/-- A source seals a payload for a path of distinct hops, within the hop limit, with a certificate for its address and
key that the hops trust at all times. If the tunnel to every hop but the first has room for the whole packet, and the
first hop collects the fragments in time, then the last hop delivers the payload once, and no other hop delivers
anything. -/
theorem multihop_arrives (A : Aead) {e e' : DataPlane S} {host : HostIdentity S} {anchorPub : PublicKey} {first : Hop S}
    {rest : List (Hop S)} {clock : Nat → Nat} {innerIp : Bytes} {dst : IPv8Address} {initHopLimit : UInt8}
    {frames : List Bytes} (hauth : e.auth = some host) (haddr : host.cert.addr = e.localAddr)
    (hkey : host.cert.verifyKey = host.publicEdKey) (hvalid : S.validKey anchorPub = true)
    (hseal : e.sealMultihop A clock innerIp dst ((first :: rest).map (·.rx.localAddr)) initHopLimit = (e', .ok frames))
    (hnodup : ((first :: rest).map (·.rx.localAddr)).Nodup) (hlimit : (first :: rest).length ≤ initHopLimit.toNat)
    (htrust : ∀ h ∈ first :: rest, h.rx.fwd = some anchorPub ∧ ∀ i, trustVerify S anchorPub host.cert (h.clock i).2 = .ok ())
    (hidle : ∀ h ∈ first :: rest, h.rx.forwardOut = []) (hfirst : first.tx = e.toEngine)
    (hfirstTunnel : first.Tunnelled A frames.length) (hrestTunnel : ∀ h ∈ rest, h.Tunnelled A 1)
    (hmtu : ∀ h ∈ rest, ∀ whole,
      e.multihopPacket host innerIp dst ((first :: rest).map (·.rx.localAddr)) initHopLimit = .ok whole →
        whole.length ≤ h.tx.mtu)
    (hcollects : 1 < frames.length → first.Collects (e.localAddr.toBytes, dst.toBytes, e.fragId) frames.length) :
    (journey A (first :: rest) frames).map deliveries = List.replicate rest.length [] ++ [[innerIp]] := by
  obtain ⟨keys, whole, packets, hkeys, hwhole, hfrag, hok⟩ := sealMultihop_eq_ok hauth hseal
  obtain ⟨d, trace, hon, rfl, hhops, hinit, hsrc, rfl, hlast⟩ := multihopPacket_onRoute hwhole
  rw [← hsrc] at haddr hcollects
  obtain ⟨tx, rx, htx, hrx, hlinked, hepochs⟩ := hfirstTunnel
  have hsame : tx = keys := by
    rw [hfirst, hkeys] at htx
    exact (Option.some.inj htx).symm
  rw [← hsame] at hok
  have hget : first.Gets A frames whole := sealMultihop_gets hon hrx hlinked hfrag hok hepochs hcollects
  have hbound : ∀ h ∈ first :: rest, ∀ i, ∃ anchorPub, h.rx.fwd = some anchorPub ∧
      Bound S anchorPub host.cert.toWire d.header.srcAddr host.publicEdKey (h.clock i).2 := by
    intro h hh i
    obtain ⟨hfwd, hcert⟩ := htrust h hh
    exact ⟨anchorPub, hfwd, (Cert.bound_iff hvalid).mpr ⟨haddr, hkey, hcert i⟩⟩
  apply @journey_arrives S A host trace 0 whole d first frames rest
  · rw [hhops]
    exact hnodup
  · rw [hhops]
    rfl
  · rw [hhops]
    exact hlast
  · rw [hhops, hinit, List.length_map]
    exact hlimit
  · exact hon
  · exact hget
  · exact hbound
  · exact hidle
  · exact hrestTunnel
  · exact fun h hh => hmtu h hh whole hwhole

/-- A source with this limit for its packets, the frames that it makes of a payload, and the path to a destination
behind one relay: the relay's limit, and when frames come in at it. -/
def sampleSource (mtu : Nat) : DataPlane sampleSig := { sampleNetwork 0 with mtu }

@[inherit_doc sampleSource] def sampleSealed (mtu n : Nat) : DataPlane sampleSig × Outcome EngineError (List Bytes) :=
  (sampleSource mtu).sealMultihop sampleAead (fun _ => 0) (List.replicate n 7) (sampleAddr 2) [sampleAddr 1, sampleAddr 2] 5

@[inherit_doc sampleSource] def samplePath (mtu relayMtu : Nat) (arrival : Nat → Nat) (r : Reassembler) :
    List (Hop sampleSig) :=
  [{ tx := (sampleSource mtu).toEngine
     rx := { sampleNetwork 1 with reassembler := r }
     sealClock := fun _ => 0
     clock := fun i => (arrival i, 0) },
   { tx := { (sampleNetwork 2).toEngine with mtu := relayMtu }
     rx := sampleNetwork 3
     sealClock := fun _ => 0
     clock := fun _ => (0, 0) }]

/-- As many groups as a reassembler holds, each with one fragment from the middle. -/
def sampleFull : Reassembler :=
  let d := sampleFragment 0 1 true 8
  let group (k : Nat) := (Group.new d.header 0).buffer d.header { id := UInt32.ofNat k, offset := 1, more := true } d.payload
  ⟨(List.range maxGroups).foldl
    (fun groups k => groups.insert (d.header.srcAddr.toBytes, d.header.dstAddr.toBytes, UInt32.ofNat k) (group k)) ∅⟩

/-- A payload in three fragments: a relay with no room for the whole packet does not cut it again, one that collects
fragments for too long forgets the first ones, and one without a free slot takes none. -/
theorem multihop_lost :
    let frames := (sampleSealed 432 300).2
    frames.toOption.map List.length = some 3 ∧
      (journey sampleAead (samplePath 432 432 id .new) (frames.toOption.getD [])).map deliveries = [[], []] ∧
      (journey sampleAead (samplePath 432 1432 (· * reassemblyTimeout) .new) (frames.toOption.getD [])).map deliveries =
        [[], []] ∧
      (journey sampleAead (samplePath 432 1432 id sampleFull) (frames.toOption.getD [])).map deliveries = [[], []] := by
  decide +kernel

/-- The hops of the sample path. -/
lemma samplePath_tunnelled (n : Nat) (hn : n < 2 ^ 50) :
    ∀ h ∈ samplePath 432 1432 id .new, h.Tunnelled sampleAead n := by
  have hepochs : ∀ b, EpochsLeft (.new 0 (sampleDh b) true) n := by
    intro b
    show 0 + n * 1 < 2 ^ 56
    omega
  have hlinked : ∀ b, Linked sampleAead (.new 0 (sampleDh b) true) (.new 0 (sampleDh b) false) :=
    fun b => .of_peers ⟨.new 0 (sampleDh b) true, .new 0 (sampleDh b) false, rfl⟩
  intro h hh
  rcases List.mem_cons.mp hh with rfl | hh
  · exact ⟨_, _, rfl, rfl, hlinked 7, hepochs 7⟩
  · rw [List.mem_singleton.mp hh]
    exact ⟨_, _, rfl, rfl, hlinked 8, hepochs 8⟩

/-- The same payload over a relay with room. -/
theorem multihop_arrives_sample :
    (journey sampleAead (samplePath 432 1432 id .new) ((sampleSealed 432 300).2.toOption.getD [])).map deliveries =
      [[], [List.replicate 300 7]] := by
  generalize hframes : (sampleSealed 432 300).2.toOption.getD [] = frames
  have hok : (sampleSealed 432 300).2 = .ok ((sampleSealed 432 300).2.toOption.getD []) := by decide +kernel
  rw [hframes] at hok
  have hseal : sampleSealed 432 300 = ((sampleSealed 432 300).1, .ok frames) := by
    rw [← hok]
  have hlen : frames.length = 3 := by
    rw [← hframes]
    decide +kernel
  have hlength : ∀ whole ∈ ((sampleSource 432).multihopPacket sampleHost (List.replicate 300 7) (sampleAddr 2)
      [sampleAddr 1, sampleAddr 2] 5).toOption, whole.length ≤ 1432 := by decide +kernel
  have hcert : trustVerify sampleSig (sampleKey 9) sampleHost.cert 0 = .ok () := by decide +kernel
  refine @multihop_arrives sampleSig sampleAead (sampleSource 432) (sampleSealed 432 300).1 sampleHost (sampleKey 9)
    _ _ (fun _ => 0) (List.replicate 300 7) (sampleAddr 2) 5 frames ?_ ?_ ?_ ?_ ?_ ?_ ?_ ?_ ?_ ?_ ?_ ?_ ?_ ?_
  · rfl
  · rfl
  · rfl
  · rfl
  · exact hseal
  · decide
  · decide
  · intro h hh
    rcases List.mem_cons.mp hh with rfl | hh
    · exact ⟨rfl, fun _ => hcert⟩
    · rw [List.mem_singleton.mp hh]
      exact ⟨rfl, fun _ => hcert⟩
  · intro h hh
    rcases List.mem_cons.mp hh with rfl | hh
    · rfl
    · rw [List.mem_singleton.mp hh]
      rfl
  · rfl
  · rw [hlen]
    exact samplePath_tunnelled 3 (by decide) _ List.mem_cons_self
  · intro h hh
    exact samplePath_tunnelled 1 (by decide) h (List.mem_cons_of_mem _ hh)
  · intro h hh whole hwhole
    rw [List.mem_singleton.mp hh]
    exact hlength whole (Outcome.mem_toOption.mpr hwhole)
  · intro _
    rw [hlen]
    refine ⟨Std.ExtTreeMap.not_mem_empty, by decide, ?_⟩
    decide

end IPv8Plus.Tunnel
