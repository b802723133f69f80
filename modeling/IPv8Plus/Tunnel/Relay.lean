import IPv8Plus.Tunnel.WorkerEngine

/-!
# What a relay passes on

The engine checks a multi-hop packet before it passes it on or delivers it. `handleFrameAt_relays` is the
specification: which fields the signature covers, whose certificate it takes, where the engine stands in the hop list,
and how the packet leaves it.
-/

namespace IPv8Plus.Tunnel
open Lib Codec Routing

/-- What the path signature of a packet covers: the fields of its own header but for the hop limit, and the route. -/
def sigInputOf (d : Decoded) (trace : RouteTrace) : TraceSigInput where
  srcAddr := d.header.srcAddr
  dstAddr := d.header.dstAddr
  minCompatVer := d.header.minCompatVer
  flags := d.header.flags
  payloadLen := d.header.payloadLen
  initHopLimit := trace.initHopLimit
  srcPubkey := trace.srcPubkey
  hops := trace.hops

/-- The route in the first extension. -/
def routeOf (hdr : IPv8Header) : Option RouteTrace :=
  hdr.extHeaders.head?.bind fun x => (RouteTrace.fromPayload x.payload).toOption

section
variable {pkt : Bytes} {d : Decoded} {trace : RouteTrace}

lemma take_headBytes (h : IPv8Header) (pad : UInt8) (rest : Bytes) :
    (h.headBytes pad ++ rest).take 7 =
      [h.version <<< 4 ||| h.minCompatVer &&& 0x0F] ++ be16 h.flags ++ be16 h.payloadLen ++ [h.hopLimit, h.nextHeader] :=
  rfl

/-- The bytes that are checked are the fields of the decoded header. -/
lemma sigInput_eq (hd : decode pkt = .ok d) (localAddr : IPv8Address) (certWire : Bytes) (anchorPub : PublicKey)
    (now : UInt64) :
    (VerifyInput.mk localAddr trace (pkt.take 7) d.header.srcAddr d.header.dstAddr d.header.hopLimit certWire anchorPub
      now).sigInput = sigInputOf d trace := by
  obtain ⟨wf, pad, rest, rfl⟩ := decode_eq_ok.mp hd
  have hcompat : (d.header.version <<< 4 ||| d.header.minCompatVer &&& 0x0F) &&& 0x0F = d.header.minCompatVer := by
    have hle : d.header.minCompatVer < 16 := UInt8.lt_of_le_of_lt wf.compat (by decide)
    rw [wf.version]
    exact (split_nibbles (by decide) hle).2
  have hflags : ofBe16 (be16 d.header.flags) = d.header.flags := ofBe16_be16 _
  have hlen : ofBe16 (be16 d.header.payloadLen) = d.header.payloadLen := ofBe16_be16 _
  rw [take_headBytes]
  unfold VerifyInput.sigInput sigInputOf
  rw [TraceSigInput.mk.injEq]
  exact ⟨rfl, rfl, hcompat, hflags, hlen, rfl, rfl, rfl⟩

/-- A routed packet starts with the route. -/
lemma Routed.exists_route (h : Routed d) (wf : d.WF) :
    ∃ x chain, d.header.extHeaders = x :: chain ∧ x.extType = .routeTrace := by
  unfold Routed at h
  rw [wf.next] at h
  cases hc : d.header.extHeaders with
  | nil =>
    rw [hc] at h
    cases h
  | cons x chain =>
    rw [hc] at h
    have hx : x ∈ d.header.extHeaders := by
      rw [hc]
      exact List.mem_cons_self
    refine ⟨x, chain, rfl, ?_⟩
    have hwire : x.extType.wire = ExtType.routeTrace.wire := h
    rw [← (wf.chain x hx).fromU8_wire, hwire]
    rfl

end

variable {S : SigScheme} (Signed : PublicKey → Bytes → Prop)

/-- The engine may let this packet through: the holder of the source's key has signed its route and header, the anchor
has certified the key for the source, and the hop limit fits the engine's place in the route. -/
structure Checked (e : DataPlane S) (now : UInt64) (d : Decoded) (trace : RouteTrace) : Prop where
  route : routeOf d.header = some trace
  verifies : S.verifyStrict trace.srcPubkey (routeTraceMessage (sigInputOf d trace)) trace.pathSig = true
  signed : Signed trace.srcPubkey (routeTraceMessage (sigInputOf d trace))
  cert : ∃ anchorPub, e.fwd = some anchorPub ∧ ∃ token ∈ d.header.extHeaders, token.extType = .identityToken ∧
    Bound S anchorPub token.payload d.header.srcAddr trace.srcPubkey now
  onPath : trace.hops.idxOf e.localAddr < trace.hops.length
  hopLimit : d.header.hopLimit.toNat + trace.hops.idxOf e.localAddr = trace.initHopLimit.toNat

/-- What a verdict says of the engine before and after. -/
def Relays (e e' : DataPlane S) (now : UInt64) : Outcome Empty Verdict → Prop
  | .ok (.forwarded d next packet) =>
    e'.forwardOut = e.forwardOut ++ [(next, packet)] ∧ e'.delivered = e.delivered ∧
      (∃ trace, Checked Signed e now d trace ∧ trace.hops[trace.hops.idxOf e.localAddr + 1]? = some next) ∧
      0 < d.header.hopLimit - 1 ∧ (d.header.hopLimit - 1).toNat + 1 = d.header.hopLimit.toNat ∧
      decode packet = .ok { d with header := { d.header with hopLimit := d.header.hopLimit - 1 } }
  | .ok (.delivered d) =>
    e'.forwardOut = e.forwardOut ∧ e'.delivered = some d.payload ∧
      (Routed d → d.header.dstAddr = e.localAddr ∧
        ∃ trace, Checked Signed e now d trace ∧ trace.hops.idxOf e.localAddr + 1 = trace.hops.length)
  | _ => e'.forwardOut = e.forwardOut ∧ e'.delivered = e.delivered

variable {Signed} {e e' : DataPlane S} {now : UInt64} {d : Decoded} {pkt : Bytes} {decision : Decision}

/-- A packet whose route is accepted is checked. -/
lemma routeDecision_eq_ok (hunforgeable : ∀ key msg sig, S.verifyStrict key msg sig = true → Signed key msg)
    (hd : decode pkt = .ok d) (hroute : Routed d) (h : e.routeDecision d pkt now = .ok decision) :
    ∃ trace, Checked Signed e now d trace ∧
      decision = match trace.hops[trace.hops.idxOf e.localAddr + 1]? with
        | none => .deliver
        | some next => .forwardTo next (trace.hops.idxOf e.localAddr + 1) := by
  obtain ⟨wf, pad, rest, hpkt⟩ := decode_eq_ok.mp hd
  obtain ⟨x, chain, hext, -⟩ := hroute.exists_route wf
  have hhead : (slice pkt 0 7 : Outcome Unit Bytes) = .ok (pkt.take 7) := by
    apply slice_of_le (Nat.zero_le 7)
    rw [hpkt, List.length_append, IPv8Header.length_headBytes]
    exact Nat.le_add_right_of_le (by decide)
  have hfrozen : frozenHead (pkt.take 7) = some (pkt.take 7) := by
    have hnext : d.header.nextHeader = 5 := hroute
    rw [hpkt, take_headBytes, hnext]
    rfl
  have hidx : (idx d.header.extHeaders 0 : Outcome Unit ExtensionHeader) = .ok x := by
    rw [hext]
    rfl
  unfold DataPlane.routeDecision at h
  cases hfwd : e.fwd with
  | none =>
    rw [hfwd] at h
    cases h
  | some anchorPub =>
    rw [hfwd] at h
    dsimp only at h
    rw [hhead, Outcome.ok_bind, hfrozen] at h
    dsimp only at h
    rw [hidx, Outcome.ok_bind] at h
    obtain ⟨trace, htrace, h⟩ := Outcome.bind_eq_ok.mp h
    have htrace := Outcome.mapErr_eq_ok.mp htrace
    split at h
    · cases h
    next token htoken =>
    split at h
    · cases h
    split at h
    · next decision' hverify =>
      cases h
      obtain ⟨hv, hdecision⟩ := verifyForNextHop_eq_ok.mp hverify
      have htype := List.find?_some htoken
      have hsigned := hv.signed
      rw [sigInput_eq hd] at hsigned
      refine ⟨trace, ?_, hdecision⟩
      constructor
      · unfold routeOf
        rw [hext]
        exact congrArg Outcome.toOption htrace
      · exact hsigned
      · exact hunforgeable _ _ _ hsigned
      · exact ⟨anchorPub, hfwd, token, List.mem_of_find?_eq_some htoken, of_decide_eq_true htype, hv.bound⟩
      · exact hv.onPath
      · exact hv.hopLimit
    · cases h

/-- A packet that is passed on. -/
lemma forward_relays (hd : decode pkt = .ok d) {trace : RouteTrace} (hc : Checked Signed e now d trace)
    {next : IPv8Address} (hnext : trace.hops[trace.hops.idxOf e.localAddr + 1]? = some next) :
    Relays Signed e (e.forward d next).1 now (e.forward d next).2 := by
  unfold DataPlane.forward
  split
  · exact ⟨rfl, rfl⟩
  next hhop =>
  rw [not_or] at hhop
  cases henc : encode { d.header with hopLimit := d.header.hopLimit - 1 } d.payload with
  | err x => exact ⟨rfl, rfl⟩
  | panic => exact ⟨rfl, rfl⟩
  | ok packet =>
    have wf : d.WF := (decode_eq_ok.mp hd).1
    have hpos : 0 < d.header.hopLimit.toNat := by
      by_contra hzero
      exact hhop.1 (UInt8.toNat_inj.mp (Nat.eq_zero_of_not_pos hzero))
    have hsub : (d.header.hopLimit - 1).toNat = d.header.hopLimit.toNat - 1 :=
      UInt8.toNat_sub_of_le _ _ (UInt8.le_iff_toNat_le.mpr hpos)
    have hdec := decode_encode henc wf.chain wf.nodup []
    rw [List.append_nil] at hdec
    refine ⟨rfl, rfl, ⟨trace, hc, hnext⟩, ?_, ?_, ?_⟩
    · exact UInt8.pos_iff_ne_zero.mpr hhop.2
    · rw [hsub]
      omega
    · rw [hdec, wf.offset]

/-- What the engine does with a packet it takes in. -/
theorem ingest_relays (hunforgeable : ∀ key msg sig, S.verifyStrict key msg sig = true → Signed key msg)
    (e : DataPlane S) (pkt : Bytes) (now : UInt64) : Relays Signed e (e.ingest pkt now).1 now (e.ingest pkt now).2 := by
  unfold DataPlane.ingest
  cases hd : decode pkt with
  | err x => exact ⟨rfl, rfl⟩
  | panic => exact ⟨rfl, rfl⟩
  | ok d =>
    dsimp only
    split
    · next hroute => exact ⟨rfl, rfl, fun h => absurd h hroute⟩
    next hroute =>
    have hroute : Routed d := not_not.mp hroute
    cases hdecision : e.routeDecision d pkt now with
    | err x => exact ⟨rfl, rfl⟩
    | panic => exact ⟨rfl, rfl⟩
    | ok decision =>
      obtain ⟨trace, hc, rfl⟩ := routeDecision_eq_ok hunforgeable hd hroute hdecision
      cases hnext : trace.hops[trace.hops.idxOf e.localAddr + 1]? with
      | none =>
        dsimp only
        split
        · next hdst =>
          refine ⟨rfl, rfl, fun _ => ⟨hdst, trace, hc, ?_⟩⟩
          exact Nat.le_antisymm hc.onPath (List.getElem?_eq_none_iff.mp hnext)
        · exact ⟨rfl, rfl⟩
      | some next => exact forward_relays hd hc hnext

/-- Changes elsewhere do not matter. -/
lemma Relays.of_eq {e₁ : DataPlane S} {x : Outcome Empty Verdict} (h : Relays Signed e₁ e' now x)
    (hfwd : e₁.fwd = e.fwd) (hlocal : e₁.localAddr = e.localAddr) (hout : e₁.forwardOut = e.forwardOut)
    (hdel : e₁.delivered = e.delivered) : Relays Signed e e' now x := by
  have hchecked : ∀ {d trace}, Checked Signed e₁ now d trace → Checked Signed e now d trace := by
    intro d trace hc
    obtain ⟨hroute, hverifies, hsigned, hcert, hpath, hlimit⟩ := hc
    rw [hfwd] at hcert
    rw [hlocal] at hpath hlimit
    exact ⟨hroute, hverifies, hsigned, hcert, hpath, hlimit⟩
  unfold Relays at h ⊢
  rw [hout, hdel, hlocal] at h
  rcases x with (d | ⟨d, next, packet⟩ | _ | _ | _ | _) | _ | _
  · obtain ⟨hf, hd, hr⟩ := h
    refine ⟨hf, hd, fun hroute => ?_⟩
    obtain ⟨hdst, trace, hc, hlast⟩ := hr hroute
    exact ⟨hdst, trace, hchecked hc, hlast⟩
  · obtain ⟨hf, hd, ⟨trace, hc, hnext⟩, hrest⟩ := h
    exact ⟨hf, hd, ⟨trace, hchecked hc, hnext⟩, hrest⟩
  · exact h
  · exact h
  · exact h
  · exact h
  · exact h
  · exact h

variable {A : Aead}

/-- What the engine does with an opened packet. -/
theorem receive_relays (hunforgeable : ∀ key msg sig, S.verifyStrict key msg sig = true → Signed key msg)
    (e : DataPlane S) (instant : Nat) (now : UInt64) (pkt : Bytes) :
    Relays Signed e (e.receive instant now pkt).1 now (e.receive instant now pkt).2 := by
  unfold DataPlane.receive
  cases hd : decode pkt with
  | err x => exact ⟨rfl, rfl⟩
  | panic => exact ⟨rfl, rfl⟩
  | ok d =>
    dsimp only
    split
    · generalize e.reassembler.insert instant d.header d.payload = y
      rcases y with ⟨r, (_ | whole) | x | _⟩
      · exact ⟨rfl, rfl⟩
      · exact (ingest_relays hunforgeable _ whole now).of_eq rfl rfl rfl rfl
      · exact ⟨rfl, rfl⟩
      · exact ⟨rfl, rfl⟩
    · exact ingest_relays hunforgeable e pkt now

/-- What the engine does with a frame: it passes on and delivers only what was checked. -/
theorem handleFrameAt_relays (hunforgeable : ∀ key msg sig, S.verifyStrict key msg sig = true → Signed key msg)
    (e : DataPlane S) (instant : Nat) (now : UInt64) (frame : Bytes) :
    Relays Signed e (e.handleFrameAt A instant now frame).1 now (e.handleFrameAt A instant now frame).2 := by
  unfold DataPlane.handleFrameAt
  cases parseHead frame with
  | err x => exact ⟨rfl, rfl⟩
  | panic => exact ⟨rfl, rfl⟩
  | ok head =>
    dsimp only
    split
    · unfold DataPlane.handleData DataPlane.openFrame
      cases e.keys with
      | none => exact ⟨rfl, rfl⟩
      | some keys =>
        dsimp only
        generalize decapsulate A keys frame = y
        rcases y with ⟨keys', pkt | x | _⟩
        · exact (receive_relays hunforgeable _ instant now pkt).of_eq rfl rfl rfl rfl
        · exact ⟨rfl, rfl⟩
        · exact ⟨rfl, rfl⟩
    · exact ⟨rfl, rfl⟩

end IPv8Plus.Tunnel
