import IPv8Plus.Codec.Rebuilt
import IPv8Plus.Tunnel.Flow

/-!
# Workers and engines

A shard worker and an engine that does not forward get the same frames. They check for a source route at different
points: the engine looks at every packet before it is delivered, the worker at what comes out of the tunnel, but
not at what the reassembler has rebuilt. `worker_matches_engine` says that they agree on all frames exactly as long
as no rebuilt packet starts with a source route.
-/

namespace IPv8Plus.Tunnel
open Lib Codec Routing

/-- What a worker counts: it does not tell rejected packets from dropped ones. -/
def Verdict.plain : Verdict → Verdict
  | .rejected => .dropped
  | v => v

/-- The first extension is a source route. -/
def Routed (d : Decoded) : Prop := d.header.nextHeader = ExtType.routeTrace.wire

instance (d : Decoded) : Decidable (Routed d) := inferInstanceAs (Decidable (_ = _))

/-- The payload of a packet that starts with a source route is delivered. -/
def DeliversRouted (x : Outcome Empty Verdict) : Prop := ∃ d, x = .ok (.delivered d) ∧ Routed d

/-- A worker and an engine without forwarding that have received the same. -/
structure Twins {S : SigScheme} (w : Worker) (e : DataPlane S) : Prop where
  keys : e.keys = some w.keys
  reasm : e.reassembler = w.reasm
  kept : w.reasm.Kept
  fwd : e.fwd = none

/-- The two say the same, and deliver no packet with a source route. -/
def Agree (x y : Outcome Empty Verdict) : Prop :=
  Verdict.plain <$> x = Verdict.plain <$> y ∧ ¬ DeliversRouted x ∧ ¬ DeliversRouted y

/-- The packet is a fragment that finishes a group that can be rebuilt, and the chain of the group starts with a
source route. -/
def Worker.FinishesRoute (w : Worker) (instant : Nat) (pkt : Bytes) : Prop :=
  ∃ d frag t, decode pkt = .ok d ∧ d.header.flags &&& flags.fragment ≠ 0 ∧ Finishes w.reasm instant d frag t ∧
    (w.reasm.groupFor instant d.header frag).Rebuildable d.header frag t ∧
    firstWire (((w.reasm.groupFor instant d.header frag).chainWith d.header frag).getD []) = ExtType.routeTrace.wire

section
variable {S : SigScheme} {w : Worker} {e : DataPlane S} {instant : Nat} {now : UInt64} {pkt : Bytes} {d : Decoded}
  {v : Verdict}

lemma deliversRouted_delivered : DeliversRouted (.ok (.delivered d)) ↔ Routed d := by
  constructor
  · rintro ⟨d', h, hd⟩
    cases h
    exact hd
  · exact fun h => ⟨d, rfl, h⟩

lemma not_deliversRouted {x : Outcome Empty Verdict} (h : ∀ d, x ≠ .ok (.delivered d)) : ¬ DeliversRouted x := by
  rintro ⟨d, hd, -⟩
  exact h d hd

lemma agree_self {x : Outcome Empty Verdict} (h : ∀ d, x ≠ .ok (.delivered d)) : Agree x x :=
  ⟨rfl, not_deliversRouted h, not_deliversRouted h⟩

lemma agree_delivered : Agree (.ok (.delivered d)) (.ok (.delivered d)) ↔ ¬ Routed d := by
  rw [Agree, deliversRouted_delivered, and_self]
  exact and_iff_right rfl

/-- A fragment does not start with a source route. -/
lemma not_routed_of_checkFragment {frag : FragmentInfo} (wf : d.WF) (h : checkFragment d.header d.payload = .ok frag) :
    ¬ Routed d := by
  intro hr
  unfold Routed at hr
  rw [wf.next] at hr
  cases hc : d.header.extHeaders with
  | nil =>
    rw [hc] at hr
    cases hr
  | cons x chain =>
    have htype : x.extType ≠ .fragment := by
      intro hx
      rw [hc] at hr
      change x.extType.wire = _ at hr
      rw [hx] at hr
      cases hr
    have hparse : d.header.extHeaders.head?.bind FragmentInfo.parse = none := by
      rw [hc]
      exact if_pos (.inl htype)
    unfold checkFragment at h
    rw [hparse] at h
    cases h

/-- An engine without forwarding delivers what has no source route. -/
lemma ingest_eq (hfwd : e.fwd = none) (hd : decode pkt = .ok d) :
    e.ingest pkt now = if Routed d then e.reject else e.deliver d := by
  unfold DataPlane.ingest DataPlane.routeDecision
  rw [hd, hfwd]
  by_cases h : Routed d
  · rw [if_pos h]
    exact if_neg (not_not_intro h)
  · rw [if_neg h]
    exact if_pos h

lemma Twins.not_finishesRoute_of_routed (hd : decode pkt = .ok d) (h : Routed d) : ¬ w.FinishesRoute instant pkt := by
  rintro ⟨d', frag, t, hd', -, hf, -⟩
  rw [hd] at hd'
  cases hd'
  exact not_routed_of_checkFragment (decode_eq_ok.mp hd).1 hf.check h

/-- Twins deliver a rebuilt packet or disagree about its source route. -/
lemma Twins.whole (h : Twins w e) (now : UInt64) (hd : decode pkt = .ok d) :
    Twins (w.deliverWhole pkt).1 (e.ingest pkt now).1 ∧
      (Agree (w.deliverWhole pkt).2 (e.ingest pkt now).2 ↔ ¬ Routed d) := by
  unfold Worker.deliverWhole
  rw [ingest_eq h.fwd hd, hd]
  by_cases hr : Routed d
  · rw [if_pos hr]
    refine ⟨⟨h.keys, h.reasm, h.kept, h.fwd⟩, iff_of_false ?_ (not_not_intro hr)⟩
    exact fun hagree => hagree.2.1 (deliversRouted_delivered.mpr hr)
  · rw [if_neg hr]
    exact ⟨⟨h.keys, h.reasm, h.kept, h.fwd⟩, agree_delivered⟩

/-- Twins do the same with an opened packet, unless it finishes a group with a source route. -/
lemma Twins.receive (h : Twins w e) (instant : Nat) (now : UInt64) (pkt : Bytes) :
    Twins (w.receive instant pkt).1 (e.receive instant now pkt).1 ∧
      (Agree (w.receive instant pkt).2 (e.receive instant now pkt).2 ↔ ¬ w.FinishesRoute instant pkt) := by
  unfold Worker.receive DataPlane.receive
  cases hd : decode pkt with
  | err x =>
    refine ⟨⟨h.keys, h.reasm, h.kept, h.fwd⟩, iff_of_true (agree_self nofun) ?_⟩
    rintro ⟨d, frag, t, hd', -⟩
    rw [hd] at hd'
    cases hd'
  | panic => exact absurd hd (decode_ne_panic pkt)
  | ok d =>
    have wf : d.WF := (decode_eq_ok.mp hd).1
    dsimp only
    by_cases hroute : Routed d
    · have hnext : d.header.nextHeader = ExtType.routeTrace.wire := hroute
      rw [if_pos hnext]
      by_cases hflag : d.header.flags &&& flags.fragment ≠ 0
      · -- the reassembler refuses a fragment that does not start with its own extension
        obtain ⟨x, -, hins⟩ | ⟨frag, hchk, -⟩ := insert_cases e.reassembler instant d.header d.payload
        · rw [if_pos hflag, hins]
          exact ⟨⟨h.keys, h.reasm, h.kept, h.fwd⟩,
            iff_of_true (agree_self nofun) (not_finishesRoute_of_routed hd hroute)⟩
        · exact absurd hroute (not_routed_of_checkFragment wf hchk)
      · rw [if_neg hflag, ingest_eq h.fwd hd, if_pos hroute]
        refine ⟨⟨h.keys, h.reasm, h.kept, h.fwd⟩, iff_of_true ?_ (not_finishesRoute_of_routed hd hroute)⟩
        exact ⟨rfl, not_deliversRouted nofun, not_deliversRouted nofun⟩
    · have hnext : d.header.nextHeader ≠ ExtType.routeTrace.wire := hroute
      rw [if_neg hnext]
      by_cases hflag : d.header.flags &&& flags.fragment ≠ 0
      · rw [if_pos hflag, if_pos hflag, h.reasm]
        have hkept : (w.reasm.insert instant d.header d.payload).1.Kept := h.kept.insert wf
        -- only a packet that is rebuilt makes a difference
        have hnot : (∀ whole, (w.reasm.insert instant d.header d.payload).2 ≠ .ok (some whole)) →
            ¬ w.FinishesRoute instant pkt := by
          rintro hno ⟨d', frag, t, hd', -, hf, hreb, -⟩
          rw [hd] at hd'
          cases hd'
          exact hno _ ((insert_eq_some_iff h.kept wf).mpr ⟨frag, t, hf, hreb, rfl⟩)
        have hiff := @insert_eq_some_iff w.reasm instant d
        generalize w.reasm.insert instant d.header d.payload = y at hkept hnot hiff ⊢
        rcases y with ⟨r, (_ | whole) | x | _⟩
        · exact ⟨⟨h.keys, rfl, hkept, h.fwd⟩, iff_of_true (agree_self nofun) (hnot nofun)⟩
        · obtain ⟨frag, t, hf, hreb, rfl⟩ := (hiff h.kept wf).mp rfl
          have hwhole := hf.decode h.kept wf hreb
          have hroute' : w.FinishesRoute instant pkt ↔
              Routed ((w.reasm.groupFor instant d.header frag).joined d.header frag d.payload).whole := by
            constructor
            · rintro ⟨d', frag', t', hd', -, hf', -, hfirst⟩
              rw [hd] at hd'
              cases hd'
              obtain ⟨rfl, -⟩ := hf.unique hf'
              exact hfirst
            · exact fun hr => ⟨d, frag, t, hd, hflag, hf, hreb, hr⟩
          rw [hroute']
          have htwins : Twins { w with reasm := r }
              { e with reassembler := r, fragmentsReassembled := e.fragmentsReassembled + 1 } :=
            ⟨h.keys, rfl, hkept, h.fwd⟩
          exact htwins.whole now hwhole
        · exact ⟨⟨h.keys, rfl, hkept, h.fwd⟩, iff_of_true (agree_self nofun) (hnot nofun)⟩
        · exact ⟨⟨h.keys, rfl, hkept, h.fwd⟩, iff_of_true (agree_self nofun) (hnot nofun)⟩
      · rw [if_neg hflag, if_neg hflag, ingest_eq h.fwd hd, if_neg hroute]
        refine ⟨⟨h.keys, h.reasm, h.kept, h.fwd⟩, iff_of_true (agree_delivered.mpr hroute) ?_⟩
        rintro ⟨d', frag, t, hd', hflag', -⟩
        rw [hd] at hd'
        cases hd'
        exact hflag hflag'

end

/-- The packet of this frame finishes a group with a source route. -/
def Worker.CompletesRoute (A : Aead) (w : Worker) (c : Nat × UInt64 × Bytes) : Prop :=
  ∃ pkt, (decapsulate A w.keys c.2.2).2 = .ok pkt ∧ w.FinishesRoute c.1 pkt

/-- A frame for the worker, with the readings of both clocks. -/
def Worker.handle (A : Aead) (w : Worker) (c : Nat × UInt64 × Bytes) : Worker × Outcome Empty Verdict :=
  w.data A c.1 c.2.2

/-- A data frame for the engine. -/
def DataPlane.handle {S : SigScheme} (A : Aead) (e : DataPlane S) (c : Nat × UInt64 × Bytes) :
    DataPlane S × Outcome Empty Verdict :=
  e.handleData A c.1 c.2.1 c.2.2

section
variable {A : Aead} {S : SigScheme} {w : Worker} {e : DataPlane S}

/-- Twins stay twins, and agree about a frame unless it completes a packet with a source route. -/
theorem Twins.handle (h : Twins w e) (c : Nat × UInt64 × Bytes) :
    Twins (w.handle A c).1 (e.handle A c).1 ∧
      (Agree (w.handle A c).2 (e.handle A c).2 ↔ ¬ w.CompletesRoute A c) := by
  unfold Worker.handle DataPlane.handle Worker.data DataPlane.handleData DataPlane.openFrame Worker.CompletesRoute
  rw [h.keys]
  dsimp only
  generalize decapsulate A w.keys c.2.2 = x
  rcases x with ⟨keys, pkt | x | _⟩
  · have htwins : Twins { w with keys } { e with keys := some keys } := ⟨rfl, h.reasm, h.kept, h.fwd⟩
    obtain ⟨hstep, hiff⟩ := htwins.receive c.1 c.2.1 pkt
    refine ⟨hstep, hiff.trans (not_congr ?_)⟩
    constructor
    · exact fun hf => ⟨pkt, rfl, hf⟩
    · rintro ⟨pkt', hpkt, hf⟩
      cases hpkt
      exact hf
  · refine ⟨⟨rfl, h.reasm, h.kept, h.fwd⟩, iff_of_true (agree_self nofun) ?_⟩
    rintro ⟨pkt, hpkt, -⟩
    cases hpkt
  · refine ⟨⟨rfl, h.reasm, h.kept, h.fwd⟩, iff_of_true (agree_self nofun) ?_⟩
    rintro ⟨pkt, hpkt, -⟩
    cases hpkt

/-- Twins agree about all frames of a run exactly if none of them completes a packet with a source route. -/
lemma Twins.run (h : Twins w e) (frames : List (Nat × UInt64 × Bytes)) :
    ((Lib.run (Worker.handle A) w frames).2.map (Verdict.plain <$> ·) =
          (Lib.run (DataPlane.handle A) e frames).2.map (Verdict.plain <$> ·) ∧
        (∀ x ∈ (Lib.run (Worker.handle A) w frames).2, ¬ DeliversRouted x) ∧
        ∀ x ∈ (Lib.run (DataPlane.handle A) e frames).2, ¬ DeliversRouted x) ↔
      Along (Worker.handle A) (fun w c => ¬ w.CompletesRoute A c) w frames := by
  induction frames generalizing w e with
  | nil => exact ⟨fun _ => trivial, fun _ => ⟨rfl, nofun, nofun⟩⟩
  | cons c frames ih =>
    obtain ⟨hstep, hiff⟩ := h.handle (A := A) c
    rw [run_cons, run_cons, along_cons, ← ih hstep, ← hiff, List.map_cons, List.map_cons, List.cons.injEq,
      List.forall_mem_cons, List.forall_mem_cons, Agree]
    constructor
    · rintro ⟨⟨hhead, htail⟩, ⟨hw, hws⟩, he, hes⟩
      exact ⟨⟨hhead, hw, he⟩, htail, hws, hes⟩
    · rintro ⟨⟨hhead, hw, he⟩, htail, hws, hes⟩
      exact ⟨⟨hhead, htail⟩, ⟨hw, hws⟩, he, hes⟩

/-- A worker and an engine without forwarding, with the same keys and nothing received, come to the same verdict
about every frame of every run and deliver no packet with a source route, exactly if no frame completes a group of
fragments whose original chain starts with one. -/
theorem worker_matches_engine (A : Aead) {keys : TunnelKeys} (hkeys : e.keys = some keys)
    (hnew : e.reassembler = .new) (hfwd : e.fwd = none) (frames : List (Nat × UInt64 × Bytes)) :
    ((run (Worker.handle A) (.new keys e.localAddr e.peerAddr e.mtu) frames).2.map (Verdict.plain <$> ·) =
          (run (DataPlane.handle A) e frames).2.map (Verdict.plain <$> ·) ∧
        (∀ x ∈ (run (Worker.handle A) (.new keys e.localAddr e.peerAddr e.mtu) frames).2, ¬ DeliversRouted x) ∧
        ∀ x ∈ (run (DataPlane.handle A) e frames).2, ¬ DeliversRouted x) ↔
      Along (Worker.handle A) (fun w c => ¬ w.CompletesRoute A c) (.new keys e.localAddr e.peerAddr e.mtu) frames :=
  Twins.run ⟨hkeys, hnew, Reassembler.new_kept, hfwd⟩ frames

end

instance DeliversRouted.decidable : ∀ x, Decidable (DeliversRouted x)
  | .ok (.delivered d) => decidable_of_iff (Routed d) deliversRouted_delivered.symm
  | .ok (.forwarded _ _ _) => isFalse (not_deliversRouted nofun)
  | .ok .rejected => isFalse (not_deliversRouted nofun)
  | .ok .dropped => isFalse (not_deliversRouted nofun)
  | .ok .waiting => isFalse (not_deliversRouted nofun)
  | .ok .ignored => isFalse (not_deliversRouted nofun)
  | .panic => isFalse (not_deliversRouted nofun)

/-- An engine with established keys. -/
def sampleReceiver (keys : TunnelKeys) : Engine where
  state := .established
  keys := some keys
  cipherSuite := .chaCha20Poly1305
  localAddr := ⟨0xFB14, 0, 0, 0, 0, 0, 0, 1⟩
  peerAddr := ⟨0xFB14, 0, 0, 0, 0, 0, 0, 0⟩
  mtu := 1432
  fragId := 0
  sealedOutbound := 0
  fragmentsSent := 0
  sharded := false

/-- A packet that is its own only fragment, with a chain behind the fragment header. -/
def sampleLoneFragment (chain : List ExtensionHeader) (payload : Bytes) : Bytes :=
  let hdr := IPv8Header.build ⟨0xFB14, 0, 0, 0, 0, 0, 0, 0⟩ ⟨0xFB14, 0, 0, 0, 0, 0, 0, 1⟩
    (UInt16.ofNat payload.length) flags.fragment 64 0
    (FragmentInfo.toExt { id := 7, offset := 0, more := false } :: chain)
  hdr.headBytes 0 ++ chainBytes hdr.extHeaders ++ payload

/-- The frame the peer seals a packet in. -/
def sampleFrame (packet : Bytes) : Bytes :=
  ((encapsulate sampleAead (.new 0 (sampleDh 7) true) 0 packet).2.toOption).getD []

/-- A source route behind a fragment header: the worker delivers the payload, the engine rejects the packet. -/
theorem worker_delivers_route :
    let keys := TunnelKeys.new 0 (sampleDh 7) false
    let e : DataPlane sampleSig := .new (sampleReceiver keys) none
    let frames := [(0, 0, sampleFrame (sampleLoneFragment [⟨.routeTrace, List.replicate 8 0⟩] [7, 9]))]
    (run (Worker.handle sampleAead) (.new keys e.localAddr e.peerAddr e.mtu) frames).2.map (Verdict.plain <$> ·) ≠
        (run (DataPlane.handle sampleAead) e frames).2.map (Verdict.plain <$> ·) ∧
      (run (Worker.handle sampleAead) (.new keys e.localAddr e.peerAddr e.mtu) frames).1.stats.delivered = 1 ∧
      (run (DataPlane.handle sampleAead) e frames).1.delivered = none ∧
      ∃ x ∈ (run (Worker.handle sampleAead) (.new keys e.localAddr e.peerAddr e.mtu) frames).2, DeliversRouted x :=
  ⟨by decide +kernel, by decide +kernel, by decide +kernel, by decide +kernel⟩

/-- A fragment and a string that is no frame. -/
theorem worker_matches_engine_sample :
    let keys := TunnelKeys.new 0 (sampleDh 7) false
    let e : DataPlane sampleSig := .new (sampleReceiver keys) none
    let frames := [(0, 0, sampleFrame (sampleLoneFragment [] [7, 9])), (1, 0, [1, 2, 3])]
    Along (Worker.handle sampleAead) (fun w c => ¬ w.CompletesRoute sampleAead c)
      (.new keys e.localAddr e.peerAddr e.mtu) frames :=
  (worker_matches_engine (e := DataPlane.new (S := sampleSig) (sampleReceiver (.new 0 (sampleDh 7) false)) none)
    sampleAead rfl rfl rfl _).mp (by decide +kernel)

end IPv8Plus.Tunnel
