import IPv8Plus.Tunnel.Relay

/-!
# A packet on its source route

The source signs its route and puts it with its certificate in front of the payload. `OnRoute` says what holds of the
packet at every place of the route, and `OnRoute.ingest` what the engine there does with it: it passes the packet on to
the next place, or delivers it at the last one.
-/

namespace IPv8Plus.Tunnel
open Lib Codec Routing

variable {S : SigScheme}

/-- The packet of a source as it gets to place `k` of its route. -/
structure OnRoute (host : HostIdentity S) (trace : RouteTrace) (k : Nat) (packet : Bytes) (d : Decoded) : Prop where
  encodes : encode d.header d.payload = .ok packet
  decodes : decode packet = .ok d
  chain : ∃ route token, d.header.extHeaders = [route, token] ∧ route.extType = .routeTrace ∧
    RouteTrace.fromPayload route.payload = .ok trace ∧ token.extType = .identityToken ∧
    token.payload = host.cert.toWire
  whole : d.header.flags &&& flags.fragment = 0
  key : trace.srcPubkey = host.publicEdKey
  signed : trace.pathSig = host.sign (routeTraceMessage (sigInputOf d trace))
  hopLimit : d.header.hopLimit.toNat + k = trace.initHopLimit.toNat

/-- The engine at place `k` of the route trusts the source's certificate. -/
structure Trusts (host : HostIdentity S) (src : IPv8Address) (trace : RouteTrace) (k : Nat) (e : DataPlane S) (now : UInt64) :
    Prop where
  place : trace.hops.idxOf e.localAddr = k
  onPath : k < trace.hops.length
  cert : ∃ anchorPub, e.fwd = some anchorPub ∧ Bound S anchorPub host.cert.toWire src host.publicEdKey now

/-- What the list says at place `k`. -/
def decisionAt (trace : RouteTrace) (k : Nat) : Decision :=
  match trace.hops[k + 1]? with
  | none => .deliver
  | some next => .forwardTo next (k + 1)

variable {host : HostIdentity S} {trace : RouteTrace} {k : Nat} {packet : Bytes} {d : Decoded} {e : DataPlane S}
  {now : UInt64}

namespace OnRoute

lemma routed (h : OnRoute host trace k packet d) : Routed d := by
  obtain ⟨wf, -⟩ := decode_eq_ok.mp h.decodes
  obtain ⟨route, token, hchain, htype, -⟩ := h.chain
  unfold Routed
  rw [wf.next, hchain]
  exact congrArg ExtType.wire htype

/-- An engine on the route accepts the packet. -/
theorem routeDecision (h : OnRoute host trace k packet d) (ht : Trusts host d.header.srcAddr trace k e now) :
    e.routeDecision d packet now = .ok (decisionAt trace k) := by
  obtain ⟨wf, pad, rest, hpacket⟩ := decode_eq_ok.mp h.decodes
  obtain ⟨route, token, hchain, hroute, htrace, htoken, hwire⟩ := h.chain
  obtain ⟨anchorPub, hfwd, hbound⟩ := ht.cert
  have hhead : (slice packet 0 7 : Outcome Unit Bytes) = .ok (packet.take 7) := by
    apply slice_of_le (Nat.zero_le 7)
    rw [hpacket, List.length_append, IPv8Header.length_headBytes]
    exact Nat.le_add_right_of_le (by decide)
  have hfrozen : frozenHead (packet.take 7) = some (packet.take 7) := by
    have hnext : d.header.nextHeader = 5 := h.routed
    rw [hpacket, take_headBytes, hnext]
    rfl
  have hidx : (idx d.header.extHeaders 0 : Outcome Unit ExtensionHeader) = .ok route := by
    rw [hchain]
    rfl
  have hfind : d.header.extHeaders.find? (fun x => x.extType = .identityToken) = some token := by
    rw [hchain, List.find?_cons_of_neg (by rw [hroute]; decide), List.find?_cons_of_pos (by rw [htoken]; rfl)]
  have hlen : token.payload.length = certLen := by
    rw [hwire]
    exact host.cert.length_toWire
  have hverified : Verified S (VerifyInput.mk e.localAddr trace (packet.take 7) d.header.srcAddr d.header.dstAddr
      d.header.hopLimit token.payload anchorPub now) := by
    refine ⟨?_, ?_, ?_, ?_, ?_⟩
    · show S.validKey trace.srcPubkey = true
      rw [h.key]
      exact S.validKey_publicKey _
    · rw [sigInput_eq h.decodes]
      show S.verifyStrict trace.srcPubkey _ trace.pathSig = true
      rw [h.key, h.signed]
      exact S.verify_sign _ _
    · show Bound S anchorPub token.payload d.header.srcAddr trace.srcPubkey now
      rw [hwire, h.key]
      exact hbound
    · show trace.hops.idxOf e.localAddr < trace.hops.length
      rw [ht.place]
      exact ht.onPath
    · show d.header.hopLimit.toNat + trace.hops.idxOf e.localAddr = trace.initHopLimit.toNat
      rw [ht.place]
      exact h.hopLimit
  have hdecision : (VerifyInput.mk e.localAddr trace (packet.take 7) d.header.srcAddr d.header.dstAddr
      d.header.hopLimit token.payload anchorPub now).decision = decisionAt trace k := by
    show decisionAt trace (trace.hops.idxOf e.localAddr) = decisionAt trace k
    rw [ht.place]
  have hok := verifyForNextHop_eq_ok.mpr ⟨hverified, rfl⟩
  rw [hdecision] at hok
  unfold DataPlane.routeDecision
  rw [hfwd]
  dsimp only
  rw [hhead, Outcome.ok_bind, hfrozen]
  dsimp only
  rw [hidx, Outcome.ok_bind, htrace, Outcome.mapErr_ok, Outcome.ok_bind, hfind]
  dsimp only
  rw [if_neg (not_not_intro hlen), hok]

/-- The packet as it leaves place `k`. -/
def nextDecoded (d : Decoded) : Decoded := { d with header := { d.header with hopLimit := d.header.hopLimit - 1 } }

lemma exists_next (h : OnRoute host trace k packet d) (hlimit : k + 1 < trace.initHopLimit.toNat) :
    ∃ packet', OnRoute host trace (k + 1) packet' (nextDecoded d) ∧ packet'.length = packet.length := by
  obtain ⟨enc, hlen, hbytes⟩ := encode_eq_ok.mp h.encodes
  obtain ⟨wf, -⟩ := decode_eq_ok.mp h.decodes
  have henc : encode (nextDecoded d).header d.payload =
      .ok ((nextDecoded d).header.headBytes 0 ++ chainBytes d.header.extHeaders ++ d.payload) :=
    encode_eq_ok.mpr ⟨⟨enc.version, enc.compat, enc.reserved, enc.payload, enc.chain, enc.total, enc.next, enc.flag⟩,
      hlen, rfl⟩
  have hdec := decode_encode henc wf.chain wf.nodup []
  rw [List.append_nil] at hdec
  have hsub : (d.header.hopLimit - 1).toNat = d.header.hopLimit.toNat - 1 := by
    apply UInt8.toNat_sub_of_le
    have hhop := h.hopLimit
    exact UInt8.le_iff_toNat_le.mpr (by rw [UInt8.toNat_one]; omega)
  refine ⟨_, ⟨henc, ?_, h.chain, h.whole, h.key, h.signed, ?_⟩, ?_⟩
  · rw [hdec, nextDecoded, wf.offset]
  · have hhop := h.hopLimit
    show (d.header.hopLimit - 1).toNat + (k + 1) = trace.initHopLimit.toNat
    omega
  · rw [hbytes]
    simp only [List.length_append, IPv8Header.length_headBytes]

lemma hopLimit_ne_zero (h : OnRoute host trace k packet d) (hlimit : k + 1 < trace.initHopLimit.toNat) :
    ¬ (d.header.hopLimit = 0 ∨ d.header.hopLimit - 1 = 0) := by
  have hhop := h.hopLimit
  have hsub : (d.header.hopLimit - 1).toNat = d.header.hopLimit.toNat - 1 := by
    apply UInt8.toNat_sub_of_le
    exact UInt8.le_iff_toNat_le.mpr (by rw [UInt8.toNat_one]; omega)
  rintro (hzero | hzero)
  · rw [hzero, UInt8.toNat_zero] at hhop
    omega
  · rw [hzero, UInt8.toNat_zero] at hsub
    omega

/-- Before the last place the packet is passed on to the next one. -/
theorem ingest_forwards (h : OnRoute host trace k packet d) (ht : Trusts host d.header.srcAddr trace k e now)
    {next : IPv8Address} (hnext : trace.hops[k + 1]? = some next) (hlimit : k + 1 < trace.initHopLimit.toNat) :
    ∃ packet', OnRoute host trace (k + 1) packet' (nextDecoded d) ∧ packet'.length = packet.length ∧
      (e.ingest packet now).1.forwardOut = e.forwardOut ++ [(next, packet')] ∧
      (e.ingest packet now).2 = .ok (.forwarded d next packet') := by
  obtain ⟨packet', hon, hlen⟩ := h.exists_next hlimit
  have hdecision : decisionAt trace k = .forwardTo next (k + 1) := by
    rw [decisionAt, hnext]
  have henc : encode { d.header with hopLimit := d.header.hopLimit - 1 } d.payload = .ok packet' := hon.encodes
  have hroute : ¬ d.header.nextHeader ≠ ExtType.routeTrace.wire := not_not_intro h.routed
  refine ⟨packet', hon, hlen, ?_, ?_⟩
  all_goals
    unfold DataPlane.ingest
    rw [h.decodes]
    dsimp only
    rw [if_neg hroute, h.routeDecision ht, hdecision]
    dsimp only
    rw [DataPlane.forward, if_neg (h.hopLimit_ne_zero hlimit), henc]

/-- At the last place the packet is delivered. -/
theorem ingest_delivers (h : OnRoute host trace k packet d) (ht : Trusts host d.header.srcAddr trace k e now)
    (hlast : k + 1 = trace.hops.length) (hdst : d.header.dstAddr = e.localAddr) :
    (e.ingest packet now).1.forwardOut = e.forwardOut ∧ (e.ingest packet now).2 = .ok (.delivered d) := by
  have hdecision : decisionAt trace k = .deliver := by
    rw [decisionAt, List.getElem?_eq_none_iff.mpr hlast.ge]
  have hroute : ¬ d.header.nextHeader ≠ ExtType.routeTrace.wire := not_not_intro h.routed
  unfold DataPlane.ingest
  rw [h.decodes]
  dsimp only
  rw [if_neg hroute, h.routeDecision ht, hdecision]
  dsimp only
  rw [if_pos hdst]
  exact ⟨rfl, rfl⟩

end OnRoute

/-- Extensions of the two types of a multi-hop packet. -/
lemma new_eq_some {v : UInt8} {t : ExtType} (ht : ExtType.fromU8 v = t) {payload : Bytes} {x : ExtensionHeader}
    (h : ExtensionHeader.new t payload = some x) : x.WF ∧ x.extType = t ∧ x.payload = payload := by
  rw [← ht] at h ⊢
  refine ⟨ExtensionHeader.new_wf h, ?_⟩
  unfold ExtensionHeader.new at h
  split_ifs at h
  cases h
  exact ⟨rfl, rfl⟩

/-- The packet that the source makes is at place 0 of its route. -/
theorem multihopPacket_onRoute {innerIp whole : Bytes} {dst : IPv8Address} {hops : List IPv8Address} {initHopLimit : UInt8}
    (h : e.multihopPacket host innerIp dst hops initHopLimit = .ok whole) :
    ∃ d trace, OnRoute host trace 0 whole d ∧ d.payload = innerIp ∧ trace.hops = hops ∧
      trace.initHopLimit = initHopLimit ∧ d.header.srcAddr = e.localAddr ∧ d.header.dstAddr = dst ∧
      hops.getLast? = some dst := by
  unfold DataPlane.multihopPacket at h
  split at h
  · cases h
  next hlast =>
  rw [not_or, not_not] at hlast
  dsimp only at h
  split at h
  · cases h
  next trace htrace =>
  unfold buildRouteTrace at htrace
  split at htrace
  · cases htrace
  split at htrace
  · cases htrace
  cases htrace
  obtain ⟨hdr, hhdr, henc⟩ := Outcome.bind_eq_ok.mp h
  have henc := Outcome.mapErr_eq_ok.mp henc
  unfold DataPlane.multihopHeader at hhdr
  split at hhdr
  · cases hhdr
  next tracePayload hpayload =>
  split at hhdr
  · next route token hroute htoken =>
    cases hhdr
    obtain ⟨hrwf, hrtype, hrpay⟩ := new_eq_some (v := 5) rfl hroute
    obtain ⟨htwf, httype, htpay⟩ := new_eq_some (v := 1) rfl htoken
    have hchain : ∀ x ∈ [route, token], x.WF := by
      intro x hx
      rcases List.mem_cons.mp hx with rfl | hx
      · exact hrwf
      · rw [List.mem_singleton.mp hx]
        exact htwf
    have hnodup : ([route, token].map (·.extType.wire)).Nodup := by
      rw [List.map_cons, List.map_cons, hrtype, httype]
      decide
    have hdec := decode_encode henc hchain hnodup []
    rw [List.append_nil] at hdec
    have hread := RouteTrace.fromPayload_toPayload hpayload
    rw [← hrpay] at hread
    have hwhole : (flags.encrypted ||| flags.hasExtension) &&& flags.fragment = 0 := by decide
    exact ⟨_, _, ⟨henc, hdec, ⟨route, token, rfl, hrtype, hread, httype, htpay⟩, hwhole, rfl, rfl, rfl⟩, rfl, rfl, rfl,
      rfl, rfl, hlast.2⟩
  · cases hhdr

end IPv8Plus.Tunnel
