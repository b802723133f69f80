import IPv8Plus.Lib.Lanes
import IPv8Plus.Tunnel.FlowKey
import IPv8Plus.Tunnel.Lane

/-!
# The order of flows

Packets of TCP and UDP flows are dispatched to the workers of one end, and a network that keeps the order of every worker's
frames brings them to the other. The workers are not synchronised, so a flow keeps its order if all of its packets are
sealed by one worker. That they are is up to `hash_flow`: `flow_order` shows it for packets that look alike to it, and
`fragments_overtake` has two fragments of one datagram that do not.
-/

namespace IPv8Plus.Tunnel
open Lib Codec TunnelKeys

/-- The worker that seals a packet. -/
def FlowShards.workerOf (f : FlowShards) (innerIp : Bytes) : Nat := (hashFlow innerIp).toNat % f.workers.length

/-- A packet of a flow, the worker it was given to and the frames it went out in, none if the worker has dropped it. -/
structure Dispatched where
  flow : Flow
  lane : Nat
  inner : Bytes
  frames : List Bytes

/-- The two ends, the packets that were dispatched, the frames that have arrived from each worker and when, and the packets
that each worker of the receiver has delivered. -/
structure Net where
  tx : FlowShards
  rx : FlowShards
  dispatched : List Dispatched
  arrived : Nat → List (Nat × Bytes)
  delivered : List (Nat × Bytes)

/-- A packet is dispatched, or the next frame of a worker arrives. A worker that is behind with its queue is one whose frames
are late. -/
inductive NetCall where
  | dispatch (flow : Flow) (clock : Nat → Nat) (inner : Bytes)
  | arrive (k instant : Nat)

/-- The packet carries its flow, which is one of TCP or UDP. -/
def NetCall.Labelled : NetCall → Prop
  | .dispatch flow _ inner => Carries inner flow ∧ (flow.proto = tcp ∨ flow.proto = udp)
  | .arrive _ _ => True

namespace Net

variable (A : Aead)

def start (tx rx : FlowShards) : Net := { tx, rx, dispatched := [], arrived := fun _ => [], delivered := [] }

/-- The packets that went out. -/
def sent (w : Net) : List Dispatched := w.dispatched.filter fun d => d.frames ≠ []

/-- What a worker has sent, packet by packet. -/
def sentBy (w : Net) (k : Nat) : List (Bytes × List Bytes) := (onLane Dispatched.lane k w.sent).map fun d => (d.inner, d.frames)

/-- The frames of a worker that have not arrived. -/
def wire (w : Net) (k : Nat) : List Bytes := ((w.sentBy k).flatMap (·.2)).drop (w.arrived k).length

def dispatch (w : Net) (flow : Flow) (clock : Nat → Nat) (inner : Bytes) : Net :=
  let (tx, x) := w.tx.sealDispatch A clock inner
  { w with
    tx
    dispatched := w.dispatched ++ [⟨flow, w.tx.workerOf inner, inner, x.toOption.getD []⟩] }

def arrive (w : Net) (k instant : Nat) : Net × Option (Outcome Empty Verdict) :=
  match w.wire k with
  | [] => (w, none)
  | frame :: _ =>
    let (rx, x) := w.rx.handleInbound A instant frame
    ({ w with
        rx
        arrived := Function.update w.arrived k (w.arrived k ++ [(instant, frame)])
        delivered := w.delivered ++ (deliveries x.toList).map (Prod.mk k) }, x)

def step (w : Net) : NetCall → Net × Option (Outcome Empty Verdict)
  | .dispatch flow clock inner => (w.dispatch A flow clock inner, none)
  | .arrive k instant => w.arrive A k instant

/-- The epochs of the worker fit the KeyID. -/
def LowEpochs (w : Net) : NetCall → Prop
  | .dispatch _ clock inner => ∀ u ∈ w.tx.workers[w.tx.workerOf inner]?, u.LowEpochs A (clock, inner)
  | .arrive _ _ => True

instance LowEpochs.decidable (w : Net) : ∀ c, Decidable (w.LowEpochs A c)
  | .dispatch _ _ _ => inferInstanceAs (Decidable (∀ _ ∈ _, _))
  | .arrive _ _ => isTrue trivial

/-- The frame comes in time for the others of its packet. -/
def OnTime (w : Net) : NetCall → Prop
  | .dispatch _ _ _ => True
  | .arrive k instant => InTime ((w.sentBy k).map (·.2.length)) ((w.arrived k).map (·.1) ++ [instant])

instance OnTime.decidable (w : Net) : ∀ c, Decidable (w.OnTime c)
  | .dispatch _ _ _ => isTrue trivial
  | .arrive _ _ => inferInstanceAs (Decidable (InTime _ _))

/-- The packet shows `hash_flow` the same as the others of its flow have, or there is one worker only. -/
def LooksAlike (w : Net) : NetCall → Prop
  | .dispatch flow _ inner => ∀ d ∈ w.dispatched, d.flow = flow → Alike d.inner inner ∨ w.tx.workers.length = 1
  | .arrive _ _ => True

instance LooksAlike.decidable (w : Net) : ∀ c, Decidable (w.LooksAlike c)
  | .dispatch _ _ _ => inferInstanceAs (Decidable (∀ _ ∈ _, _))
  | .arrive _ _ => isTrue trivial

/-- Every flow has a worker that seals all of its packets, in epochs of its own. -/
def Sticky (w : Net) : Prop :=
  ∀ flow, ∃ k, ∀ d ∈ w.dispatched, d.flow = flow → d.lane = k ∧ ∀ frame ∈ d.frames, AddressedTo w.tx.workers.length k frame

/-- What was delivered are packets that went out, of every flow the first ones, in order, and all of them when nothing is on
the way any more. -/
def InOrder (w : Net) : Prop :=
  ∃ matched : List Dispatched, w.delivered.map (·.2) = matched.map (·.inner) ∧
    ∀ flow, matched.filter (fun d => d.flow = flow) <+: w.sent.filter (fun d => d.flow = flow) ∧
      ((∀ k, w.wire k = []) → matched.filter (fun d => d.flow = flow) = w.sent.filter fun d => d.flow = flow)

/-! ## The invariant -/

/-- The two ends with `n` workers each, every pair of them a lane. -/
structure Inv (n : Nat) (w : Net) : Prop where
  txOk : w.tx.ok = true
  rxOk : w.rx.ok = true
  txSize : w.tx.workers.length = n
  rxSize : w.rx.workers.length = n
  lane : ∀ k < n, ∃ u v, w.tx.workers[k]? = some u ∧ w.rx.workers[k]? = some v ∧
    Lane A n k u v (w.sentBy k) (w.arrived k) ((onLane Prod.fst k w.delivered).map (·.2))
  hashed : ∀ d ∈ w.dispatched, d.lane = (hashFlow d.inner).toNat % n
  addressed : ∀ d ∈ w.dispatched, ∀ frame ∈ d.frames, AddressedTo n d.lane frame
  labelled : ∀ d ∈ w.dispatched, Carries d.inner d.flow ∧ (d.flow.proto = tcp ∨ d.flow.proto = udp)
  alike : ∀ d ∈ w.dispatched, ∀ d' ∈ w.dispatched, d.flow = d'.flow → Alike d.inner d'.inner ∨ n = 1
  received : ∀ x ∈ w.delivered, x.1 < n

section
variable {A : Aead} {f : FlowShards} {w : Net} {n k : Nat} {u : Worker} {flow : Flow} {clock : Nat → Nat} {inner : Bytes}
  {frames : List Bytes} {instant : Nat}

lemma sealDispatch_eq (hok : f.ok = true) (hu : f.workers[f.workerOf inner]? = some u)
    (hanswer : (u.sealAt A (clock, inner)).2 = .ok frames) :
    f.sealDispatch A clock inner =
      ({ f with workers := f.workers.set (f.workerOf inner) (u.sealAt A (clock, inner)).1 }, .ok frames) := by
  unfold FlowShards.sealDispatch
  rw [if_neg (by rw [hok]; decide)]
  dsimp only
  rw [show f.workers[(hashFlow inner).toNat % f.workers.length]? = some u from hu]
  dsimp only [FlowShards.workerOf, Worker.sealAt] at hanswer ⊢
  generalize u.seal A clock inner = x at hanswer ⊢
  rcases x with ⟨u', x⟩
  cases hanswer
  rfl

lemma sentBy_concat (w : Net) (tx : FlowShards) (d : Dispatched) (k : Nat) :
    ({ w with tx, dispatched := w.dispatched ++ [d] } : Net).sentBy k =
      w.sentBy k ++ if d.lane = k then if d.frames = [] then [] else [(d.inner, d.frames)] else [] := by
  unfold sentBy sent
  dsimp only
  rw [List.filter_append]
  by_cases hnone : d.frames = []
  · simp [onLane, hnone]
  · by_cases hk : d.lane = k
    · simp [onLane, hnone, hk]
    · simp [onLane, hnone, hk]

lemma mem_sentBy {x : Bytes × List Bytes} (h : x ∈ w.sentBy k) : ∃ d ∈ w.dispatched, d.lane = k ∧ d.frames = x.2 := by
  obtain ⟨d, hd, rfl⟩ := List.mem_map.mp h
  obtain ⟨hd, hk⟩ := List.mem_filter.mp hd
  exact ⟨d, (List.mem_filter.mp hd).1, of_decide_eq_true hk, rfl⟩

lemma Inv.lane_lt (h : w.Inv A n) (hn : 0 < n) {d : Dispatched} (hd : d ∈ w.dispatched) : d.lane < n := by
  rw [h.hashed d hd]
  exact Nat.mod_lt _ hn

theorem Inv.dispatch (h : w.Inv A n) (hn : 0 < n) (hlabel : (NetCall.dispatch flow clock inner).Labelled)
    (hlow : w.LowEpochs A (.dispatch flow clock inner)) (halike : w.LooksAlike (.dispatch flow clock inner)) :
    (w.dispatch A flow clock inner).Inv A n := by
  have hk : w.tx.workerOf inner < n := by
    rw [FlowShards.workerOf, h.txSize]
    exact Nat.mod_lt _ hn
  obtain ⟨u, v, hu, hv, hlane⟩ := h.lane _ hk
  obtain ⟨frames, hanswer, haddressed, hnext⟩ := hlane.seal (hlow u hu)
  have hstep : w.dispatch A flow clock inner =
      { w with
        tx := { w.tx with workers := w.tx.workers.set (w.tx.workerOf inner) (u.sealAt A (clock, inner)).1 }
        dispatched := w.dispatched ++ [⟨flow, w.tx.workerOf inner, inner, frames⟩] } := by
    unfold Net.dispatch
    rw [sealDispatch_eq h.txOk hu hanswer]
    rfl
  have hmem : ∀ {P : Dispatched → Prop}, (∀ d ∈ w.dispatched, P d) → P ⟨flow, w.tx.workerOf inner, inner, frames⟩ →
      ∀ d ∈ w.dispatched ++ [⟨flow, w.tx.workerOf inner, inner, frames⟩], P d := by
    intro P hold hlast d hd
    cases List.mem_append.mp hd with
    | inl hd => exact hold d hd
    | inr hd => exact List.mem_singleton.mp hd ▸ hlast
  rw [hstep]
  refine ⟨h.txOk, h.rxOk, (List.length_set ..).trans h.txSize, h.rxSize, ?_, ?_, ?_, ?_, ?_, h.received⟩
  · intro j hj
    rw [sentBy_concat]
    -- the lane of the packet moves on, the others stay
    by_cases hjk : w.tx.workerOf inner = j
    · subst hjk
      refine ⟨_, v, List.getElem?_set_self ?_, hv, ?_⟩
      · rw [h.txSize]
        exact hk
      · rw [if_pos rfl]
        exact hnext
    · obtain ⟨u', v', hu', hv', hlane'⟩ := h.lane j hj
      refine ⟨u', v', (List.getElem?_set_ne hjk).trans hu', hv', ?_⟩
      rw [if_neg hjk, List.append_nil]
      exact hlane'
  · apply hmem h.hashed
    show w.tx.workerOf inner = _
    rw [FlowShards.workerOf, h.txSize]
  · exact hmem h.addressed haddressed
  · exact hmem h.labelled hlabel
  · have hnew : ∀ d ∈ w.dispatched, d.flow = flow → Alike d.inner inner ∨ n = 1 := by
      rw [← h.txSize]
      exact halike
    apply hmem
    · intro d hd
      exact hmem (h.alike d hd) (hnew d hd)
    · apply hmem
      · intro d hd heq
        exact (hnew d hd heq.symm).imp_left Alike.symm
      · exact fun _ => .inl (Alike.refl inner)

theorem Inv.arrive (h : w.Inv A n) (hn : 0 < n) (htime : w.OnTime (.arrive k instant)) :
    (w.arrive A k instant).1.Inv A n := by
  unfold Net.arrive
  cases hwire : w.wire k with
  | nil => exact h
  | cons frame rest =>
    dsimp only
    have hframe : frame ∈ (w.sentBy k).flatMap (·.2) := by
      apply List.mem_of_mem_drop
      rw [show ((w.sentBy k).flatMap (·.2)).drop (w.arrived k).length = _ from hwire]
      exact List.mem_cons_self
    obtain ⟨x, hx, hin⟩ := List.mem_flatMap.mp hframe
    obtain ⟨d, hd, rfl, hframes⟩ := mem_sentBy hx
    rw [← hframes] at hin
    have hk := h.lane_lt hn hd
    obtain ⟨u, v, hu, hv, hlane⟩ := h.lane d.lane hk
    have hnext := hlane.arrive hwire htime
    -- the epoch in the frame names the worker of the lane
    have hinbound : w.rx.handleInbound A instant frame =
        ({ w.rx with workers := w.rx.workers.set d.lane (v.data A instant frame).1 }, some (v.data A instant frame).2) := by
      obtain ⟨keyId, body, rfl, hepoch⟩ := h.addressed d hd frame hin
      have hroute : w.rx.shardOf keyId = d.lane := by
        rw [FlowShards.shardOf_eq, h.rxSize]
        exact hepoch
      rw [← hroute] at hv ⊢
      exact FlowShards.handleInbound_data h.rxOk hv
    rw [hinbound]
    refine ⟨h.txOk, h.rxOk, h.txSize, (List.length_set ..).trans h.rxSize, ?_, h.hashed, h.addressed, h.labelled, h.alike, ?_⟩
    · intro j hj
      by_cases hjk : d.lane = j
      · subst hjk
        refine ⟨u, _, hu, List.getElem?_set_self ?_, ?_⟩
        · rw [h.rxSize]
          exact hk
        · dsimp only
          rw [Function.update_self, map_onLane_append]
          exact hnext
      · obtain ⟨u', v', hu', hv', hlane'⟩ := h.lane j hj
        refine ⟨u', v', hu', (List.getElem?_set_ne hjk).trans hv', ?_⟩
        dsimp only
        rw [Function.update_of_ne (Ne.symm hjk), onLane_append_of_ne hjk]
        exact hlane'
    · intro x hx
      cases List.mem_append.mp hx with
      | inl hx => exact h.received x hx
      | inr hx =>
        obtain ⟨packet, -, rfl⟩ := List.mem_map.mp hx
        exact hk

lemma Inv.step (h : w.Inv A n) (hn : 0 < n) {c : NetCall} (hlabel : c.Labelled) (hlow : w.LowEpochs A c) (htime : w.OnTime c)
    (halike : w.LooksAlike c) : (w.step A c).1.Inv A n := by
  cases c with
  | dispatch flow clock inner => exact h.dispatch hn hlabel hlow halike
  | arrive k instant => exact h.arrive hn htime

/-- Packets of one flow have one worker. -/
lemma Inv.lane_eq (h : w.Inv A n) {d d' : Dispatched} (hd : d ∈ w.dispatched) (hd' : d' ∈ w.dispatched)
    (hflow : d.flow = d'.flow) : d.lane = d'.lane := by
  rw [h.hashed d hd, h.hashed d' hd']
  -- packets that look alike hash alike; with one worker the hash does not matter
  cases h.alike d hd d' hd' hflow with
  | inl halike =>
    have hcarries := (h.labelled d hd).1
    rw [hflow] at hcarries
    rw [hashFlow_eq, hashFlow_eq, (flowBytes_inj hcarries (h.labelled d' hd').1).mpr halike]
  | inr hone => rw [hone, Nat.mod_one, Nat.mod_one]

lemma Inv.sticky (h : w.Inv A n) : w.Sticky := by
  intro flow
  by_cases hex : ∃ d ∈ w.dispatched, d.flow = flow
  · obtain ⟨d, hd, rfl⟩ := hex
    refine ⟨d.lane, fun d' hd' hflow => ?_⟩
    rw [h.txSize, ← h.lane_eq hd' hd hflow]
    exact ⟨rfl, h.addressed d' hd'⟩
  · exact ⟨0, fun d hd hflow => absurd ⟨d, hd, hflow⟩ hex⟩

/-- What a worker has delivered are the first packets of its lane. -/
lemma Inv.deliveredBy (h : w.Inv A n) (hn : 0 < n) (k : Nat) :
    (onLane Prod.fst k w.delivered).map (·.2) <+: (onLane Dispatched.lane k w.sent).map Dispatched.inner ∧
      (w.wire k = [] → (onLane Prod.fst k w.delivered).map (·.2) = (onLane Dispatched.lane k w.sent).map Dispatched.inner) := by
  by_cases hk : k < n
  · obtain ⟨u, v, -, -, hlane⟩ := h.lane k hk
    obtain ⟨hbegins, hall⟩ := hlane.inOrder
    have hsent : (w.sentBy k).map (·.1) = (onLane Dispatched.lane k w.sent).map Dispatched.inner := List.map_map
    rw [hsent] at hbegins hall
    refine ⟨hbegins, fun hwire => hall (le_antisymm ?_ ?_)⟩
    · have hlen := hlane.wire.length_le
      rw [List.length_map] at hlen
      exact hlen
    · exact List.drop_eq_nil_iff.mp hwire
  · have hnone : onLane Prod.fst k w.delivered = [] := by
      apply List.filter_eq_nil_iff.mpr
      intro x hx heq
      have hlt := h.received x hx
      rw [of_decide_eq_true heq] at hlt
      exact hk hlt
    have hnothing : onLane Dispatched.lane k w.sent = [] := by
      apply List.filter_eq_nil_iff.mpr
      intro d hd heq
      have hlt := h.lane_lt hn (List.mem_filter.mp hd).1
      rw [of_decide_eq_true heq] at hlt
      exact hk hlt
    rw [hnone, hnothing]
    exact ⟨List.nil_prefix, fun _ => rfl⟩

lemma Inv.inOrder (h : w.Inv A n) (hn : 0 < n) : w.InOrder := by
  obtain ⟨matched, hmatched, hlanes⟩ := exists_matching fun k => (h.deliveredBy hn k).1
  refine ⟨matched, ?_, fun flow => ?_⟩
  · rw [hmatched, List.map_map]
    rfl
  · obtain ⟨k, hk⟩ := h.sticky flow
    have hsent : ∀ d ∈ w.sent, d.flow = flow → d.lane = k := fun d hd hflow => (hk d (List.mem_filter.mp hd).1 hflow).1
    obtain ⟨hbegins, hall⟩ := inOrder_of_lane hsent hlanes
    refine ⟨hbegins, fun hwire => hall ((hlanes k).eq_of_length ?_)⟩
    have hsame := (h.deliveredBy hn k).2 (hwire k)
    rw [hmatched, map_onLane_map] at hsame
    have hlen := congrArg List.length hsame
    rw [List.length_map, List.length_map] at hlen
    exact hlen

end

/-! ## Two ends -/

/-- The keys of two ends of a tunnel. -/
structure Opposite (base base' : TunnelKeys) : Prop where
  dh : base'.dh = base.dh
  suite : base'.suite = base.suite
  isInitiator : base'.isInitiator = !base.isInitiator

section
variable {A : Aead} {e e' : Engine} {now now' : Nat} {n : UInt64} {base base' : TunnelKeys} {k : Nat}
  {shards shards' : List TunnelKeys} {localAddr localAddr' peerAddr peerAddr' : IPv8Address} {mtu mtu' : Nat}
  {f tx rx : FlowShards}

lemma shardKeys_built (hk : k < n.toNat) : (Engine.shardKeys base now n k).Built := by
  have hlt : UInt64.ofNat k < n := by
    rw [UInt64.lt_iff_toNat_lt, toNat_shard hk]
    exact hk
  have hpos : 1 ≤ n := by
    rw [UInt64.le_iff_toNat_le]
    exact Nat.succ_le_of_lt (Nat.zero_lt_of_lt hk)
  exact @Built.withShard now base.dh base.isInitiator base.suite (.ofNat k) n _ (if_pos ⟨hpos, hlt⟩)

lemma Opposite.peers (h : Opposite base base') (hk : k < n.toNat) :
    Peers (Engine.shardKeys base now n k) (Engine.shardKeys base' now' n k) where
  tx_built := shardKeys_built hk
  rx_built := shardKeys_built hk
  config := by
    show (base'.dh, base'.isInitiator, base'.suite, _, _) = (base.dh, !base.isInitiator, base.suite, _, _)
    rw [h.dh, h.suite, h.isInitiator]
    rfl

/-- The workers of a split engine. -/
lemma workers_of_split (hkeys : e.keys = some base) (hsplit : (e.splitShards now n).2 = .ok (shards, localAddr, peerAddr, mtu))
    (hf : FlowShards.new shards localAddr peerAddr mtu = .ok f) :
    f.ok = true ∧ 0 < n.toNat ∧
      f.workers = (List.range n.toNat).map fun k => Worker.new (Engine.shardKeys base now n k) localAddr peerAddr mtu := by
  rcases Engine.splitShards_cases e now n with hno | ⟨base', hbase, hn, h⟩
  · rw [hno] at hsplit
    cases hsplit
  · rw [hkeys] at hbase
    cases hbase
    rw [h] at hsplit
    cases hsplit
    unfold FlowShards.new at hf
    split at hf
    · cases hf
    · cases hf
      refine ⟨rfl, Nat.pos_of_ne_zero fun h0 => hn (UInt64.toNat_inj.mp h0), List.map_map⟩

lemma inv_start (hkeys : e.keys = some base) (hkeys' : e'.keys = some base') (hends : Opposite base base')
    (hsplit : (e.splitShards now n).2 = .ok (shards, localAddr, peerAddr, mtu))
    (hsplit' : (e'.splitShards now' n).2 = .ok (shards', localAddr', peerAddr', mtu'))
    (htx : FlowShards.new shards localAddr peerAddr mtu = .ok tx)
    (hrx : FlowShards.new shards' localAddr' peerAddr' mtu' = .ok rx) : (start tx rx).Inv A n.toNat := by
  obtain ⟨htxOk, -, htxWorkers⟩ := workers_of_split hkeys hsplit htx
  obtain ⟨hrxOk, -, hrxWorkers⟩ := workers_of_split hkeys' hsplit' hrx
  refine ⟨htxOk, hrxOk, ?_, ?_, fun k hk => ?_, nofun, nofun, nofun, nofun, nofun⟩
  · show tx.workers.length = _
    rw [htxWorkers, List.length_map, List.length_range]
  · show rx.workers.length = _
    rw [hrxWorkers, List.length_map, List.length_range]
  · refine ⟨.new (Engine.shardKeys base now n k) localAddr peerAddr mtu,
      .new (Engine.shardKeys base' now' n k) localAddr' peerAddr' mtu', ?_, ?_,
      Lane.start ⟨⟨[], World.carried_start (hends.peers hk)⟩, rfl⟩ rfl (toNat_shard hk)⟩
    · show tx.workers[k]? = _
      rw [htxWorkers, List.getElem?_map, List.getElem?_range hk]
      rfl
    · show rx.workers[k]? = _
      rw [hrxWorkers, List.getElem?_map, List.getElem?_range hk]
      rfl

end

/-- Two ends of a tunnel are split into `n` workers each. Dispatch packets of TCP and UDP flows, in epochs that fit the KeyID,
and let the frames of every worker arrive in order, those of a packet in time. If the packets of a flow look alike to
`hash_flow`, or there is one worker only, then one worker seals all packets of a flow, and they are delivered in the order
in which they were dispatched, all of them when nothing is on the way any more. `hash_flow` reads nothing outside of the
packet, and two packets of a flow have the same key exactly if they look alike. -/
theorem flow_order (A : Aead) {e e' : Engine} {now now' : Nat} {n : UInt64} {base base' : TunnelKeys}
    {shards shards' : List TunnelKeys} {localAddr localAddr' peerAddr peerAddr' : IPv8Address} {mtu mtu' : Nat}
    {tx rx : FlowShards} (hkeys : e.keys = some base) (hkeys' : e'.keys = some base') (hends : Opposite base base')
    (hsplit : (e.splitShards now n).2 = .ok (shards, localAddr, peerAddr, mtu))
    (hsplit' : (e'.splitShards now' n).2 = .ok (shards', localAddr', peerAddr', mtu'))
    (htx : FlowShards.new shards localAddr peerAddr mtu = .ok tx)
    (hrx : FlowShards.new shards' localAddr' peerAddr' mtu' = .ok rx) {calls : List NetCall} (hlabels : ∀ c ∈ calls, c.Labelled)
    (hlow : Along (step A) (LowEpochs A) (start tx rx) calls) (htime : Along (step A) OnTime (start tx rx) calls)
    (halike : Along (step A) LooksAlike (start tx rx) calls) :
    (run (step A) (start tx rx) calls).1.Sticky ∧ (run (step A) (start tx rx) calls).1.InOrder ∧
      (∀ inner, ∃ key, readFlow inner = .ok key ∧ hashFlow inner = hashBytes key) ∧
      ∀ flow p q, Carries p flow → Carries q flow → (flowBytes p = flowBytes q ↔ Alike p q) := by
  have hn : 0 < n.toNat := (workers_of_split hkeys hsplit htx).2.1
  have hinv : (run (step A) (start tx rx) calls).1.Inv A n.toNat := by
    refine @invariant_run _ _ _ (step A) _ (fun w => w.Inv A n.toNat) _ _ ?_
      (inv_start hkeys hkeys' hends hsplit hsplit' htx hrx)
      (along_and.mpr ⟨along_of_forall hlabels, along_and.mpr ⟨hlow, along_and.mpr ⟨htime, halike⟩⟩⟩)
    rintro w c h ⟨hlabel, hlow, htime, halike⟩
    exact h.step hn hlabel hlow htime halike
  exact ⟨hinv.sticky, hinv.inOrder hn, fun inner => ⟨_, readFlow_eq inner, hashFlow_eq inner⟩,
    fun flow p q hp hq => flowBytes_inj hp hq⟩

/-- One flow has one worker. -/
lemma Sticky.lane_eq {w : Net} (h : w.Sticky) : ∀ d ∈ w.dispatched, ∀ d' ∈ w.dispatched, d.flow = d'.flow → d.lane = d'.lane := by
  intro d hd d' hd' hflow
  obtain ⟨k, hk⟩ := h d'.flow
  exact (hk d hd hflow).1.trans (hk d' hd' rfl).1.symm

/-- If there is one flow only, the packets as a whole are in order. -/
lemma InOrder.of_flow {w : Net} (h : w.InOrder) {flow : Flow} (hflow : ∀ d ∈ w.sent, d.flow = flow) :
    w.delivered.map (·.2) <+: w.sent.map Dispatched.inner := by
  obtain ⟨matched, hdelivered, hmatched⟩ := h
  have hsent : ∀ d ∈ matched, d ∈ w.sent := by
    intro d hd
    have hmem : d ∈ matched.filter fun d' => d'.flow = d.flow := List.mem_filter.mpr ⟨hd, decide_eq_true rfl⟩
    exact (List.mem_filter.mp ((hmatched d.flow).1.subset hmem)).1
  have hall := (hmatched flow).1
  rw [List.filter_eq_self.mpr fun d hd => decide_eq_true (hflow d (hsent d hd)),
    List.filter_eq_self.mpr fun d hd => decide_eq_true (hflow d hd)] at hall
  rw [hdelivered]
  exact hall.map _

/-- A flow of UDP packets over IPv4, and a packet with this flags word and these bytes behind its header. -/
def sampleFlow : Flow := ⟨[10, 0, 0, 1], [10, 0, 0, 2], udp, [0x10, 0, 0x20, 0]⟩

@[inherit_doc sampleFlow] def sampleIpv4 (word payload : Bytes) : Bytes :=
  [0x45, 0, 0, UInt8.ofNat (20 + payload.length), 0, 7] ++ word ++ [64, 17, 0, 0, 10, 0, 0, 1, 10, 0, 0, 2] ++ payload

/-- The first fragment of a datagram and the last one, and calls by which the frames of the one overtake those of the other. -/
def sampleFragments : Bytes × Bytes :=
  (sampleIpv4 [0x20, 0] [0x10, 0, 0x20, 0, 0, 16, 0, 0], sampleIpv4 [0, 1] (List.replicate 8 0))

@[inherit_doc sampleFragments] def sampleCalls (packets : Bytes × Bytes) : List NetCall :=
  [.dispatch sampleFlow (fun _ => 0) packets.1, .dispatch sampleFlow (fun _ => 0) packets.2] ++
    List.replicate 4 (.arrive 0 0) ++ List.replicate 4 (.arrive 1 0)

lemma labelled_sampleCalls {packets : Bytes × Bytes} (h : Carries packets.1 sampleFlow) (h' : Carries packets.2 sampleFlow) :
    ∀ c ∈ sampleCalls packets, c.Labelled := by
  intro c hc
  rcases List.mem_append.mp hc with hc | hc
  · rcases List.mem_append.mp hc with hc | hc
    · rcases List.mem_pair.mp hc with rfl | rfl
      · exact ⟨h, .inr rfl⟩
      · exact ⟨h', .inr rfl⟩
    · rw [List.eq_of_mem_replicate hc]
      trivial
  · rw [List.eq_of_mem_replicate hc]
    trivial

lemma carries_sampleFragments : Carries sampleFragments.1 sampleFlow ∧ Carries sampleFragments.2 sampleFlow :=
  ⟨.v4 (by decide) (by decide) (by decide) (by decide) (by decide) (by decide) (by decide),
    .v4 (by decide) (by decide) (by decide) (by decide) (by decide) (by decide) (by decide)⟩

/-- The two fragments of a datagram go to different workers, and the last one is delivered before the first. -/
theorem fragments_overtake :
    let w := (run (step sampleAead) (start (sampleShards true 2) (sampleShards false 2)) (sampleCalls sampleFragments)).1
    (∀ c ∈ sampleCalls sampleFragments, c.Labelled) ∧
      Along (step sampleAead) (LowEpochs sampleAead) (start (sampleShards true 2) (sampleShards false 2)) (sampleCalls sampleFragments) ∧
      Along (step sampleAead) OnTime (start (sampleShards true 2) (sampleShards false 2)) (sampleCalls sampleFragments) ∧
      w.delivered.map (·.2) = [sampleFragments.2, sampleFragments.1] ∧ ¬ w.Sticky ∧ ¬ w.InOrder := by
  intro w
  obtain ⟨hlow, htime, hdelivered, hlanes, hflow, hreverse⟩ :
      Along (step sampleAead) (LowEpochs sampleAead) (start (sampleShards true 2) (sampleShards false 2)) (sampleCalls sampleFragments) ∧
        Along (step sampleAead) OnTime (start (sampleShards true 2) (sampleShards false 2)) (sampleCalls sampleFragments) ∧
        w.delivered.map (·.2) = [sampleFragments.2, sampleFragments.1] ∧
        (¬ ∀ d ∈ w.dispatched, ∀ d' ∈ w.dispatched, d.flow = d'.flow → d.lane = d'.lane) ∧
        (∀ d ∈ w.sent, d.flow = sampleFlow) ∧ ¬ w.delivered.map (·.2) <+: w.sent.map Dispatched.inner := by
    decide +kernel
  exact ⟨labelled_sampleCalls carries_sampleFragments.1 carries_sampleFragments.2, hlow, htime, hdelivered,
    fun h => hlanes h.lane_eq, fun h => hreverse (h.of_flow hflow)⟩

/-- A whole datagram, and the first fragment of another. -/
def samplePackets : Bytes × Bytes :=
  (sampleIpv4 [0, 0] [0x10, 0, 0x20, 0, 0, 8, 0, 0], sampleIpv4 [0x20, 0] [0x10, 0, 0x20, 0, 0, 16, 0, 0])

theorem flow_order_sample :
    (run (step sampleAead) (start (sampleShards true 2) (sampleShards false 2)) (sampleCalls samplePackets)).1.InOrder := by
  have hsplit : ∀ initiator, ∃ shards,
      ((sampleEnd initiator).splitShards 0 2).2 = .ok (shards, sampleEngine.localAddr, sampleEngine.peerAddr, 58) ∧
        FlowShards.new shards sampleEngine.localAddr sampleEngine.peerAddr 58 = .ok (sampleShards initiator 2) :=
    fun _ => ⟨_, rfl, rfl⟩
  obtain ⟨_, hsplit1, htx⟩ := hsplit true
  obtain ⟨_, hsplit2, hrx⟩ := hsplit false
  have hcarries : Carries samplePackets.1 sampleFlow ∧ Carries samplePackets.2 sampleFlow :=
    ⟨.v4 (by decide) (by decide) (by decide) (by decide) (by decide) (by decide) (by decide),
      .v4 (by decide) (by decide) (by decide) (by decide) (by decide) (by decide) (by decide)⟩
  exact (flow_order sampleAead (rfl : (sampleEnd true).keys = some _) (rfl : (sampleEnd false).keys = some _) ⟨rfl, rfl, rfl⟩
    hsplit1 hsplit2 htx hrx (labelled_sampleCalls hcarries.1 hcarries.2) (by decide +kernel) (by decide +kernel)
    (by decide +kernel)).2.1

end Net

end IPv8Plus.Tunnel
