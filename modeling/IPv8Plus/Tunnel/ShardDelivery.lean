import IPv8Plus.Codec.Spelling
import IPv8Plus.Tunnel.EncapsulateRoundTrip
import IPv8Plus.Tunnel.ShardRouting
import IPv8Plus.Tunnel.WorkerEngine

/-!
# Delivery with unequal shard counts

A sender of `n` shards and a receiver of `m`. Frames still decrypt, since a shard is a choice of epochs, but every
sender shard counts fragment ids for itself, and several of them reach one reassembler. `shard_delivery` says that
only packets which were dispatched are delivered, as long as no group takes in fragments of different packets.
-/

namespace IPv8Plus.Tunnel
open Lib Codec TunnelKeys

/-- The two ends, the packets that were dispatched, and for every worker of the receiver the fragments that it took
into its groups. -/
structure ShardWorld where
  tx : FlowShards
  rx : FlowShards
  dispatched : List Bytes
  parts : Nat → GroupKey → List Bytes

/-- A packet is dispatched, or the network hands a frame to the receiver. -/
inductive ShardCall where
  | dispatch (clock : Nat → Nat) (inner : Bytes)
  | inbound (instant : Nat) (frame : Bytes)

variable (A : Aead)

/-- The packet that is delivered. -/
def Verdict.packet : Verdict → Option Decoded
  | .delivered d => some d
  | .forwarded _ _ _ => none
  | .rejected => none
  | .dropped => none
  | .waiting => none
  | .ignored => none

/-- The worker that a frame goes to, with its number, and the packet that it gets out of the frame. -/
def FlowShards.opening (f : FlowShards) (frame : Bytes) : Option (Nat × Worker × Bytes) :=
  if !f.ok then none
  else
    match parseHead frame with
    | .err _ => none
    | .panic => none
    | .ok head =>
      if head.frameType ≠ .data then none
      else
        match f.workers[f.shardOf head.keyId]? with
        | none => none
        | some v => (decapsulate A v.keys frame).2.toOption.map fun pkt => (f.shardOf head.keyId, v, pkt)

namespace ShardWorld

def start (tx rx : FlowShards) : ShardWorld := { tx, rx, dispatched := [], parts := fun _ _ => [] }

/-- The fragments of a group that is still there. -/
def waiting (w : ShardWorld) (instant k : Nat) (v : Worker) (key : GroupKey) : List Bytes :=
  if key ∈ (v.reasm.reap instant).groups then w.parts k key else []

/-- The fragments of the group that a packet belongs to, with the packet if the group does not refuse it. -/
def joining (w : ShardWorld) (instant k : Nat) (v : Worker) (pkt : Bytes) : Option (GroupKey × List Bytes) :=
  match decode pkt with
  | .err _ => none
  | .panic => none
  | .ok d =>
    match checkFragment d.header d.payload with
    | .error _ => none
    | .ok frag =>
      let key := groupKey d.header frag
      let taken := (v.reasm.groupFor instant d.header frag).refuses frag d.payload.length = none
      some (key, if taken then pkt :: w.waiting instant k v key else w.waiting instant k v key)

/-- The fragments in the groups of a worker after a packet. -/
def collected (w : ShardWorld) (instant k : Nat) (v : Worker) (pkt : Bytes) : GroupKey → List Bytes :=
  match w.joining instant k v pkt with
  | none => w.parts k
  | some (key, parts) => Function.update (w.parts k) key parts

/-- The fragments in all groups after a frame. -/
def noted (w : ShardWorld) (instant : Nat) (frame : Bytes) : Nat → GroupKey → List Bytes :=
  match w.rx.opening A frame with
  | none => w.parts
  | some (k, v, pkt) => Function.update w.parts k (w.collected instant k v pkt)

def step (w : ShardWorld) : ShardCall → ShardWorld × Option (Outcome Empty Verdict)
  | .dispatch clock inner =>
    ({ w with tx := (w.tx.sealDispatch A clock inner).1, dispatched := inner :: w.dispatched }, none)
  | .inbound instant frame =>
    let (rx, x) := w.rx.handleInbound A instant frame
    ({ w with rx, parts := w.noted A instant frame }, x)

/-- The AEAD is ideal at this call: if a worker opens the frame, some worker of the sender made the encryption. -/
def Ideal (w : ShardWorld) : ShardCall → Prop
  | .dispatch _ _ => True
  | .inbound _ frame =>
    ∀ head ∈ (parseHead frame).toOption, ∀ v ∈ w.rx.workers[w.rx.shardOf head.keyId]?,
      ∀ d ∈ (decode (frame.drop frameHeaderSize)).toOption,
        ∃ u ∈ w.tx.workers, (World.mk u.keys v.keys []).Authentic A .data head.keyId
          ((frame.drop frameHeaderSize).drop d.offset) ((frame.drop frameHeaderSize).take d.offset)

instance Ideal.decidable (w : ShardWorld) : ∀ c, Decidable (w.Ideal A c)
  | .dispatch _ _ => isTrue trivial
  | .inbound _ _ => inferInstanceAs (Decidable (∀ _ ∈ _, _))

/-- No group that waits takes in a fragment, unless some packet has this fragment and all that the group has taken
in as its parts. -/
def Unmixed (w : ShardWorld) : ShardCall → Prop
  | .dispatch _ _ => True
  | .inbound instant frame =>
    ∀ o ∈ w.rx.opening A frame, ∀ j ∈ w.joining instant o.1 o.2.1 o.2.2,
      2 ≤ j.2.length → ∃ inner ∈ w.dispatched, ∀ part ∈ j.2, PartOf inner part

instance Unmixed.decidable (w : ShardWorld) : ∀ c, Decidable (w.Unmixed A c)
  | .dispatch _ _ => isTrue trivial
  | .inbound _ _ => inferInstanceAs (Decidable (∀ _ ∈ _, _))

/-- What a call delivers was dispatched. -/
def Genuine (w : ShardWorld) (c : ShardCall) : Prop :=
  ∀ d, (w.step A c).2 = some (.ok (.delivered d)) → d.payload ∈ w.dispatched

instance Genuine.decidable (w : ShardWorld) (c : ShardCall) : Decidable (w.Genuine A c) :=
  decidable_of_iff (∀ x ∈ (w.step A c).2, ∀ v ∈ x.toOption, ∀ d ∈ v.packet, ∃ inner ∈ w.dispatched, inner = d.payload) <| by
    constructor
    · intro h d hd
      obtain ⟨inner, hmem, rfl⟩ := h (.ok (.delivered d)) hd (.delivered d) rfl d rfl
      exact hmem
    · intro h x hx v hv d hd
      cases v with
      | delivered d' =>
        cases hd
        exact ⟨d.payload, h d (hx.trans (congrArg some (Outcome.mem_toOption.mp hv))), rfl⟩
      | forwarded d' next packet => cases hd
      | rejected => cases hd
      | dropped => cases hd
      | waiting => cases hd
      | ignored => cases hd

/-- What holds of the two ends. -/
structure Inv (w : ShardWorld) : Prop where
  cache : ∀ u ∈ w.tx.workers, u.keys.CacheOk
  sent : ∀ u ∈ w.tx.workers, ∀ r ∈ u.keys.history, ∃ inner ∈ w.dispatched, PartOf inner (r.aad ++ r.msg)
  rxCache : ∀ v ∈ w.rx.workers, v.keys.RxCacheOk
  kept : ∀ v ∈ w.rx.workers, v.reasm.Kept
  groups : ∀ (k : Nat) (v : Worker), w.rx.workers[k]? = some v → ∀ (key : GroupKey) g, v.reasm.groups[key]? = some g →
    ∀ data, (∀ part ∈ w.parts k key, PartOf data part) → g.Spells data

end ShardWorld

/-! ## The sender -/

section
variable {A} {keys : TunnelKeys} {w : Worker} {inner : Bytes}

/-- What `emitAll` encrypts are its packets. -/
lemma emitAll_history (packets : List Bytes) : ∀ (clock : Nat → Nat) {keys : TunnelKeys}, keys.CacheOk →
    (emitAll A clock keys packets).1.CacheOk ∧
      ∀ r ∈ (emitAll A clock keys packets).1.history, r ∈ keys.history ∨ r.aad ++ r.msg ∈ packets := by
  -- a packet that fails to encrypt ends the loop, with what was encrypted before it
  induction packets with
  | nil => exact fun clock keys hc => ⟨hc, fun r hr => .inl hr⟩
  | cons packet packets ih =>
    intro clock keys hc
    have hone : (encapsulate A keys (clock 0) packet).1.CacheOk ∧
        ∀ r ∈ (encapsulate A keys (clock 0) packet).1.history, r ∈ keys.history ∨ r.aad ++ r.msg = packet := by
      cases hd : decode packet with
      | ok d =>
        rw [encapsulate_eq A (clock 0) hc hd]
        refine ⟨?_, ?_⟩
        · exact fun c h => (Prod.mk.inj (Option.some.inj h)).2.symm
        · intro r hr
          rw [record_history, rotateIfDue_history] at hr
          cases List.mem_cons.mp hr with
          | inl h =>
            rw [h]
            exact .inr (List.take_append_drop _ _)
          | inr h => exact .inl h
      | err e =>
        have hsame : (encapsulate A keys (clock 0) packet).1 = keys := by
          unfold encapsulate
          rw [hd]
          rfl
        rw [hsame]
        exact ⟨hc, fun r hr => .inl hr⟩
      | panic => exact absurd hd (decode_ne_panic packet)
    have hlift : ∀ r ∈ (encapsulate A keys (clock 0) packet).1.history,
        r ∈ keys.history ∨ r.aad ++ r.msg ∈ packet :: packets := by
      intro r hr
      cases hone.2 r hr with
      | inl h => exact .inl h
      | inr h => exact .inr (h ▸ List.mem_cons_self)
    have hrest := ih (fun i => clock (i + 1)) hone.1
    unfold emitAll
    generalize encapsulate A keys (clock 0) packet = x at hone hlift hrest ⊢
    rcases x with ⟨keys', frame | e | _⟩
    · refine ⟨hrest.1, fun r hr => ?_⟩
      cases hrest.2 r hr with
      | inl h => exact hlift r h
      | inr h => exact .inr (List.mem_cons_of_mem _ h)
    · exact ⟨hone.1, hlift⟩
    · exact ⟨hone.1, hlift⟩

/-- What a worker encrypts for a packet are parts of the packet. -/
theorem Worker.seal_sends (clock : Nat → Nat) (inner : Bytes) (hc : w.keys.CacheOk) :
    (w.seal A clock inner).1.keys.CacheOk ∧
      ∀ r ∈ (w.seal A clock inner).1.keys.history, r ∈ w.keys.history ∨ PartOf inner (r.aad ++ r.msg) := by
  have hsame : w.keys.CacheOk ∧ ∀ r ∈ w.keys.history, r ∈ w.keys.history ∨ PartOf inner (r.aad ++ r.msg) :=
    ⟨hc, fun r hr => .inl hr⟩
  unfold Worker.seal
  cases henc : encode (IPv8Header.new w.localAddr w.peerAddr (UInt16.ofNat inner.length)) inner with
  | err e => exact hsame
  | panic => exact hsame
  | ok whole =>
    have hd := decode_encode henc nofun List.nodup_nil []
    rw [List.append_nil] at hd
    dsimp only
    cases hfrag : fragmentPacket whole w.mtu w.fragId with
    | err e => exact hsame
    | panic => exact hsame
    | ok packets =>
      have hparts : ∀ r : Encryption, r.aad ++ r.msg ∈ packets → PartOf inner (r.aad ++ r.msg) := fun r hr =>
        fragmentPacket_partOf hd rfl UInt16.zero_and hfrag hr
      have hemit : (emitAll A clock w.keys packets).1.CacheOk ∧
          ∀ r ∈ (emitAll A clock w.keys packets).1.history, r ∈ w.keys.history ∨ PartOf inner (r.aad ++ r.msg) := by
        obtain ⟨hcache, hhist⟩ := emitAll_history packets clock hc
        exact ⟨hcache, fun r hr => (hhist r hr).imp_right (hparts r)⟩
      dsimp only
      generalize emitAll A clock w.keys packets = x at hemit ⊢
      rcases x with ⟨keys, frames, _ | e | _⟩
      · exact hemit
      · exact hemit
      · exact hemit

end

/-! ## The receiver -/

section
variable {A} {keys : TunnelKeys} {v : Worker} {frame pkt : Bytes} {instant : Nat} {d : Decoded}

lemma open_opened (h : keys.RxCacheOk) {keyId : KeyId} {body aad pt : Bytes}
    (ho : (keys.open A keyId body aad).2 = .ok pt) : keys.opened A .data keyId body aad = some pt := by
  unfold TunnelKeys.open at ho
  cases hopened : keys.opened A .data keyId body aad with
  | none =>
    obtain ⟨m, x, e, -⟩ := openWith_not_opened h hopened
    rw [e] at ho
    cases ho
  | some pt' =>
    obtain ⟨e, -⟩ := openWith_opened h hopened
    rw [e] at ho
    split at ho
    · cases ho
      rfl
    · cases ho

lemma TunnelKeys.RxCacheOk.decapsulate (h : keys.RxCacheOk) (frame : Bytes) : (decapsulate A keys frame).1.RxCacheOk :=
  decapsulate_keys h fun _ _ _ => h.openWith

/-- A packet that comes out of a frame is its clear part and what the body opens to. -/
lemma decapsulate_opened (h : keys.RxCacheOk) (hp : (decapsulate A keys frame).2 = .ok pkt) :
    ∃ head d pt, parseHead frame = .ok head ∧ decode (frame.drop frameHeaderSize) = .ok d ∧
      keys.opened A .data head.keyId ((frame.drop frameHeaderSize).drop d.offset)
        ((frame.drop frameHeaderSize).take d.offset) = some pt ∧
      pkt = (frame.drop frameHeaderSize).take d.offset ++ pt := by
  unfold decapsulate at hp
  cases hhead : parseHead frame with
  | err e =>
    rw [hhead] at hp
    cases hp
  | panic =>
    rw [hhead] at hp
    cases hp
  | ok head =>
    rw [hhead] at hp
    dsimp only at hp
    split at hp
    · cases hp
    split at hp
    · cases hp
    unfold decapsulateBody at hp
    cases hd : decode (frame.drop frameHeaderSize) with
    | err e =>
      rw [hd] at hp
      cases hp
    | panic =>
      rw [hd] at hp
      cases hp
    | ok d =>
      rw [hd] at hp
      dsimp only [Outcome.mapErr_ok] at hp
      split at hp
      · cases hp
      have hopened := @open_opened A keys h head.keyId ((frame.drop frameHeaderSize).drop d.offset)
        ((frame.drop frameHeaderSize).take d.offset)
      generalize keys.open A head.keyId _ _ = x at hp hopened
      rcases x with ⟨keys', e | secret⟩
      · cases hp
      · cases hp
        exact ⟨head, d, secret, rfl, rfl, hopened rfl, rfl⟩

/-- What a worker's reassembler does with a packet: packets that are no fragments leave it as it is. -/
lemma Worker.reasm_receive (v : Worker) (instant : Nat) (hd : decode pkt = .ok d) :
    (v.receive instant pkt).1.reasm = (v.reasm.insert instant d.header d.payload).1 ∧
      (v.receive instant pkt).1.keys = v.keys := by
  -- a packet with a route or without the flag is no fragment to the reassembler either
  have hnot : (∀ frag, checkFragment d.header d.payload ≠ .ok frag) →
      (v.reasm.insert instant d.header d.payload).1 = v.reasm := by
    intro hno
    obtain ⟨e, -, hins⟩ | ⟨frag, hc, -⟩ := insert_cases v.reasm instant d.header d.payload
    · rw [hins]
    · exact absurd hc (hno frag)
  unfold Worker.receive
  rw [hd]
  dsimp only
  split
  · next hroute =>
    refine ⟨(hnot fun frag hc => ?_).symm, rfl⟩
    exact not_routed_of_checkFragment (decode_eq_ok.mp hd).1 hc hroute
  · split
    · have hself : (v.reasm.insert instant d.header d.payload).1 = (v.reasm.insert instant d.header d.payload).1 := rfl
      generalize v.reasm.insert instant d.header d.payload = y at hself ⊢
      rcases y with ⟨r, (_ | whole) | e | _⟩
      · exact ⟨rfl, rfl⟩
      · unfold Worker.deliverWhole
        dsimp only
        cases decode whole with
        | ok d' => exact ⟨rfl, rfl⟩
        | err e => exact ⟨rfl, rfl⟩
        | panic => exact ⟨rfl, rfl⟩
      · exact ⟨rfl, rfl⟩
      · exact ⟨rfl, rfl⟩
    · next hflag =>
      refine ⟨(hnot fun frag hc => ?_).symm, rfl⟩
      unfold checkFragment at hc
      rw [not_not.mp hflag] at hc
      split at hc
      · cases hc
      · cases hc

/-- What a worker delivers is a whole packet, or the payload of a group that the packet finishes. -/
lemma Worker.receive_delivers (hk : v.reasm.Kept) (hd : decode pkt = .ok d) {x : Decoded}
    (h : (v.receive instant pkt).2 = .ok (.delivered x)) :
    (d.header.flags &&& flags.fragment = 0 ∧ x = d) ∨
      ∃ frag t, Finishes v.reasm instant d frag t ∧
        x.payload = ((v.reasm.groupFor instant d.header frag).joined d.header frag d.payload).payload := by
  unfold Worker.receive at h
  rw [hd] at h
  dsimp only at h
  split at h
  · cases h
  split at h
  · have hiff := @insert_eq_some_iff v.reasm instant d
    generalize v.reasm.insert instant d.header d.payload = y at h hiff
    rcases y with ⟨r, (_ | whole) | e | _⟩
    · cases h
    · have wf : d.WF := (decode_eq_ok.mp hd).1
      obtain ⟨frag, t, hf, hreb, rfl⟩ := (hiff hk wf).mp rfl
      dsimp only at h
      unfold Worker.deliverWhole at h
      rw [hf.decode hk wf hreb] at h
      cases h
      exact .inr ⟨frag, t, hf, rfl⟩
    · cases h
    · cases h
  · next hflag =>
    cases h
    exact .inl ⟨not_not.mp hflag, rfl⟩

end

section
variable {A} {v : Worker} {f : FlowShards} {frame : Bytes} {instant : Nat}

/-- A data task opens its frame or leaves the reassembler alone. -/
lemma Worker.data_cases (v : Worker) (instant : Nat) (frame : Bytes) :
    ((decapsulate A v.keys frame).2.toOption = none ∧ (v.data A instant frame).1.reasm = v.reasm ∧
        (v.data A instant frame).1.keys = (decapsulate A v.keys frame).1 ∧
        ∀ d, (v.data A instant frame).2 ≠ .ok (.delivered d)) ∨
      ∃ pkt, (decapsulate A v.keys frame).2 = .ok pkt ∧
        v.data A instant frame = { v with keys := (decapsulate A v.keys frame).1 }.receive instant pkt := by
  unfold Worker.data
  generalize decapsulate A v.keys frame = x
  rcases x with ⟨keys, pkt | e | _⟩
  · exact .inr ⟨pkt, rfl, rfl⟩
  · exact .inl ⟨rfl, rfl, rfl, nofun⟩
  · exact .inl ⟨rfl, rfl, rfl, nofun⟩

/-- A frame is a data task of one worker, or changes nothing. -/
lemma FlowShards.handleInbound_cases (f : FlowShards) (instant : Nat) (frame : Bytes) :
    ((f.handleInbound A instant frame).1 = f ∧ f.opening A frame = none ∧
        ∀ d, (f.handleInbound A instant frame).2 ≠ some (.ok (.delivered d))) ∨
      ∃ head v, parseHead frame = .ok head ∧ f.workers[f.shardOf head.keyId]? = some v ∧
        f.handleInbound A instant frame =
          ({ f with workers := f.workers.set (f.shardOf head.keyId) (v.data A instant frame).1 },
            some (v.data A instant frame).2) ∧
        f.opening A frame = (decapsulate A v.keys frame).2.toOption.map fun pkt => (f.shardOf head.keyId, v, pkt) := by
  unfold handleInbound opening
  split
  · exact .inl ⟨rfl, rfl, nofun⟩
  cases hhead : parseHead frame with
  | err e => exact .inl ⟨rfl, rfl, nofun⟩
  | panic =>
    refine .inl ⟨rfl, rfl, fun d h => ?_⟩
    cases h
  | ok head =>
    dsimp only
    split
    · exact .inl ⟨rfl, rfl, nofun⟩
    cases hv : f.workers[f.shardOf head.keyId]? with
    | none =>
      refine .inl ⟨rfl, rfl, fun d h => ?_⟩
      cases h
    | some v => exact .inr ⟨head, v, rfl, hv, rfl, rfl⟩

end

/-! ## The invariant -/

namespace ShardWorld

variable {A} {w : ShardWorld} {v v' : Worker} {frame pkt inner : Bytes} {instant k : Nat} {d : Decoded}

/-- One worker of the receiver changes, and its groups. -/
lemma Inv.set (h : w.Inv) {parts : GroupKey → List Bytes} (hcache : v'.keys.RxCacheOk) (hkept : v'.reasm.Kept)
    (hgroups : ∀ (key : GroupKey) g, v'.reasm.groups[key]? = some g →
      ∀ data, (∀ part ∈ parts key, PartOf data part) → g.Spells data) :
    ({ w with
        rx := { w.rx with workers := w.rx.workers.set k v' }
        parts := Function.update w.parts k parts } : ShardWorld).Inv where
  cache := h.cache
  sent := h.sent
  rxCache := by
    intro u hu
    cases List.mem_or_eq_of_mem_set hu with
    | inl hu => exact h.rxCache u hu
    | inr hu => exact hu ▸ hcache
  kept := by
    intro u hu
    cases List.mem_or_eq_of_mem_set hu with
    | inl hu => exact h.kept u hu
    | inr hu => exact hu ▸ hkept
  groups := by
    intro j u hu key g hg data hparts
    have hu : (w.rx.workers.set k v')[j]? = some u := hu
    have hparts : ∀ part ∈ Function.update w.parts k parts j key, PartOf data part := hparts
    by_cases hj : k = j
    · subst hj
      rw [Function.update_self] at hparts
      rw [List.getElem?_set_self'] at hu
      obtain ⟨_, _, rfl⟩ := Option.map_eq_some_iff.mp hu
      exact hgroups key g hg data hparts
    · rw [Function.update_of_ne (Ne.symm hj)] at hparts
      rw [List.getElem?_set_ne hj] at hu
      exact h.groups j u hu key g hg data hparts

/-- The group that a fragment meets holds nothing but pieces of what its fragments are parts of. -/
lemma Inv.groupFor (h : w.Inv) (hv : w.rx.workers[k]? = some v) {hdr : IPv8Header} {frag : FragmentInfo} {data : Bytes}
    (hparts : ∀ part ∈ w.waiting instant k v (groupKey hdr frag), PartOf data part) :
    (v.reasm.groupFor instant hdr frag).Spells data := by
  unfold waiting at hparts
  unfold Reassembler.groupFor
  cases hget : (v.reasm.reap instant).groups[groupKey hdr frag]? with
  | none => exact Group.new_spells _ _ _
  | some g =>
    rw [if_pos (Std.ExtTreeMap.mem_iff_isSome_getElem?.mpr (by rw [hget]; rfl))] at hparts
    exact h.groups k v hv _ g (getElem?_reap.mp hget).1 data hparts

/-- The groups of a worker after a packet. -/
lemma Inv.collected (h : w.Inv) (hv : w.rx.workers[k]? = some v) (hd : decode pkt = .ok d) {key : GroupKey} {g : Group}
    (hg : (v.reasm.insert instant d.header d.payload).1.groups[key]? = some g) {data : Bytes}
    (hparts : ∀ part ∈ w.collected instant k v pkt key, PartOf data part) : g.Spells data := by
  unfold ShardWorld.collected joining at hparts
  rw [hd] at hparts
  dsimp only at hparts
  obtain ⟨hold, hother⟩ | ⟨frag, hc, rfl, htake⟩ := insert_group hg
  · refine h.groups k v hv key g hold data ?_
    cases hc : checkFragment d.header d.payload with
    | error e =>
      rw [hc] at hparts
      exact hparts
    | ok frag =>
      rw [hc] at hparts
      dsimp only at hparts
      rw [Function.update_of_ne (Ne.symm (hother frag hc))] at hparts
      exact hparts
  · rw [hc] at hparts
    dsimp only at hparts
    rw [Function.update_self] at hparts
    by_cases hr : (v.reasm.groupFor instant d.header frag).refuses frag d.payload.length = none
    · rw [if_pos hr, List.forall_mem_cons] at hparts
      exact (h.groupFor hv hparts.2).take (hparts.1.spells hd hc) htake
    · rw [if_neg hr] at hparts
      obtain ⟨e, -, ht⟩ | ⟨hno, -⟩ := take_cases (v.reasm.groupFor instant d.header frag) d.header frag d.payload
      · rw [ht] at htake
        cases htake
        exact h.groupFor hv hparts
      · exact absurd hno hr

/-- One dispatched packet has a fragment that is taken and all fragments of its group as its parts. -/
lemma exists_common (hd : decode pkt = .ok d) {frag : FragmentInfo} (hc : checkFragment d.header d.payload = .ok frag)
    (hr : (v.reasm.groupFor instant d.header frag).refuses frag d.payload.length = none)
    (hpart : ∃ inner ∈ w.dispatched, PartOf inner pkt)
    (hun : ∀ j ∈ w.joining instant k v pkt, 2 ≤ j.2.length → ∃ inner ∈ w.dispatched, ∀ part ∈ j.2, PartOf inner part) :
    ∃ inner ∈ w.dispatched, PartOf inner pkt ∧
      ∀ part ∈ w.waiting instant k v (groupKey d.header frag), PartOf inner part := by
  cases hwait : w.waiting instant k v (groupKey d.header frag) with
  | nil =>
    obtain ⟨inner, hinner, hpart⟩ := hpart
    exact ⟨inner, hinner, hpart, nofun⟩
  | cons part parts =>
    have hjoin : w.joining instant k v pkt = some (groupKey d.header frag, pkt :: part :: parts) := by
      unfold joining
      rw [hd]
      dsimp only
      rw [hc]
      dsimp only
      rw [if_pos hr, hwait]
    obtain ⟨inner, hinner, hall⟩ := hun _ hjoin (Nat.le_add_left 2 parts.length)
    exact ⟨inner, hinner, List.forall_mem_cons.mp hall⟩

/-- What a worker of the receiver gets out of a frame is part of a dispatched packet. -/
lemma Inv.partOf_opened (h : w.Inv) (hid : w.Ideal A (.inbound instant frame)) {head : FrameHead}
    (hhead : parseHead frame = .ok head) (hv : w.rx.workers[w.rx.shardOf head.keyId]? = some v)
    (hp : (decapsulate A v.keys frame).2 = .ok pkt) : ∃ inner ∈ w.dispatched, PartOf inner pkt := by
  obtain ⟨head', d, pt, hhead', hd, hopened, rfl⟩ := decapsulate_opened (h.rxCache v (List.mem_of_getElem? hv)) hp
  rw [hhead] at hhead'
  cases hhead'
  obtain ⟨u, hu, hauth⟩ := hid head (by rw [hhead]; rfl) v hv d (by rw [hd]; rfl)
  obtain ⟨r, hr, -, -, haad, hmsg⟩ := hauth pt hopened
  rw [← haad, ← hmsg]
  exact h.sent u hu r hr

lemma step_inbound (w : ShardWorld) (instant : Nat) (frame : Bytes) :
    w.step A (.inbound instant frame) =
      ({ w with
          rx := (w.rx.handleInbound A instant frame).1
          parts := w.noted A instant frame }, (w.rx.handleInbound A instant frame).2) := rfl

/-- A worker that gets a part of a dispatched packet keeps the invariant, and delivers dispatched packets only. -/
lemma Inv.receive (h : w.Inv) (hv : w.rx.workers[k]? = some v) {keys : TunnelKeys} (hcache : keys.RxCacheOk)
    (hpart : ∃ inner ∈ w.dispatched, PartOf inner pkt)
    (hun : ∀ j ∈ w.joining instant k v pkt, 2 ≤ j.2.length → ∃ inner ∈ w.dispatched, ∀ part ∈ j.2, PartOf inner part) :
    ({ w with
        rx := { w.rx with workers := w.rx.workers.set k ({ v with keys }.receive instant pkt).1 }
        parts := Function.update w.parts k (w.collected instant k v pkt) } : ShardWorld).Inv ∧
      ∀ x, ({ v with keys }.receive instant pkt).2 = .ok (.delivered x) → x.payload ∈ w.dispatched := by
  have hkept : ({ v with keys } : Worker).reasm.Kept := h.kept v (List.mem_of_getElem? hv)
  cases hd : decode pkt with
  | err e =>
    obtain ⟨inner, -, hpart⟩ := hpart
    unfold PartOf at hpart
    rw [hd] at hpart
    exact hpart.elim
  | panic => exact absurd hd (decode_ne_panic pkt)
  | ok d =>
    obtain ⟨hreasm, hkeys⟩ := Worker.reasm_receive { v with keys } instant hd
    refine ⟨h.set ?_ ?_ ?_, fun x hx => ?_⟩
    · rw [hkeys]
      exact hcache
    · rw [hreasm]
      exact hkept.insert (decode_eq_ok.mp hd).1
    · intro key g hg data hparts
      rw [hreasm] at hg
      exact h.collected hv hd hg hparts
    · rcases Worker.receive_delivers hkept hd hx with ⟨hflag, rfl⟩ | ⟨frag, t, hf, hpay⟩
      · obtain ⟨inner, hinner, hpart⟩ := hpart
        rw [hpart.whole hd hflag]
        exact hinner
      · obtain ⟨inner, hinner, hpart, hall⟩ := exists_common (v := v) hd hf.check hf.accepted hpart hun
        rw [hpay, hf.payload (h.groupFor hv hall) (hpart.spells hd hf.check)]
        exact hinner

/-- A frame that is handed over. -/
theorem Inv.inbound (h : w.Inv) (hid : w.Ideal A (.inbound instant frame)) (hun : w.Unmixed A (.inbound instant frame)) :
    (w.step A (.inbound instant frame)).1.Inv ∧ w.Genuine A (.inbound instant frame) := by
  unfold Genuine
  rw [step_inbound]
  unfold noted
  -- a frame that no worker takes, one that its worker does not open, and one that it does
  obtain ⟨hsame, hnone, hno⟩ | ⟨head, v, hhead, hv, hin, hopen⟩ := w.rx.handleInbound_cases instant frame
  · rw [hsame, hnone]
    exact ⟨h, fun d hd => absurd hd (hno d)⟩
  have hmem := List.mem_of_getElem? hv
  have hcache := (h.rxCache v hmem).decapsulate (A := A) frame
  rw [hin, hopen]
  obtain ⟨hnone, hreasm, hkeys, hno⟩ | ⟨pkt, hp, hdata⟩ := v.data_cases instant frame
  · rw [hnone]
    have hset : ({ w with
        rx := { w.rx with workers := w.rx.workers.set (w.rx.shardOf head.keyId) (v.data A instant frame).1 }
        parts := Function.update w.parts (w.rx.shardOf head.keyId) (w.parts (w.rx.shardOf head.keyId)) } :
          ShardWorld).Inv := by
      apply h.set
      · rw [hkeys]
        exact hcache
      · rw [hreasm]
        exact h.kept v hmem
      · rw [hreasm]
        exact h.groups _ v hv
    rw [Function.update_eq_self] at hset
    refine ⟨hset, fun d hd => ?_⟩
    exact absurd (Option.some.inj hd) (hno d)
  · have hmixed : ∀ j ∈ w.joining instant (w.rx.shardOf head.keyId) v pkt,
        2 ≤ j.2.length → ∃ inner ∈ w.dispatched, ∀ part ∈ j.2, PartOf inner part := by
      refine hun (w.rx.shardOf head.keyId, v, pkt) ?_
      rw [hopen, hp]
      rfl
    obtain ⟨hinv, hdel⟩ := h.receive hv hcache (h.partOf_opened hid hhead hv hp) hmixed
    rw [hp, hdata]
    exact ⟨hinv, fun d hd => hdel d (Option.some.inj hd)⟩

/-- A packet that is dispatched. -/
lemma Inv.dispatch (h : w.Inv) (clock : Nat → Nat) (inner : Bytes) : (w.step A (.dispatch clock inner)).1.Inv := by
  have hold : ∀ u ∈ w.tx.workers, u.keys.CacheOk ∧
      ∀ r ∈ u.keys.history, ∃ inner' ∈ inner :: w.dispatched, PartOf inner' (r.aad ++ r.msg) := by
    refine fun u hu => ⟨h.cache u hu, fun r hr => ?_⟩
    obtain ⟨inner', hmem, hpart⟩ := h.sent u hu r hr
    exact ⟨inner', List.mem_cons_of_mem _ hmem, hpart⟩
  have hall : ∀ u ∈ (w.tx.sealDispatch A clock inner).1.workers, u.keys.CacheOk ∧
      ∀ r ∈ u.keys.history, ∃ inner' ∈ inner :: w.dispatched, PartOf inner' (r.aad ++ r.msg) := by
    unfold FlowShards.sealDispatch
    split
    · exact hold
    dsimp only
    split
    · exact hold
    next u hu =>
    have hmem := List.mem_of_getElem? hu
    obtain ⟨hcache, hsent⟩ := u.seal_sends (A := A) clock inner (hold u hmem).1
    -- only the worker of the flow has encrypted anything, and only parts of this packet
    have hset : ∀ u' ∈ w.tx.workers.set ((hashFlow inner).toNat % w.tx.workers.length) (u.seal A clock inner).1,
        u'.keys.CacheOk ∧ ∀ r ∈ u'.keys.history, ∃ inner' ∈ inner :: w.dispatched, PartOf inner' (r.aad ++ r.msg) := by
      intro u' hu'
      cases List.mem_or_eq_of_mem_set hu' with
      | inl hu' => exact hold u' hu'
      | inr hu' =>
        subst hu'
        refine ⟨hcache, fun r hr => ?_⟩
        cases hsent r hr with
        | inl hr => exact (hold u hmem).2 r hr
        | inr hpart => exact ⟨inner, List.mem_cons_self, hpart⟩
    generalize u.seal A clock inner = x at hset ⊢
    rcases x with ⟨u', frames | e | _⟩
    · exact hset
    · exact hset
    · exact hset
  exact ⟨fun u hu => (hall u hu).1, fun u hu => (hall u hu).2, h.rxCache, h.kept, h.groups⟩

lemma Inv.step (h : w.Inv) {c : ShardCall} (hid : w.Ideal A c) (hun : w.Unmixed A c) : (w.step A c).1.Inv := by
  cases c with
  | dispatch clock inner => exact h.dispatch clock inner
  | inbound instant frame => exact (h.inbound hid hun).1

lemma Inv.genuine (h : w.Inv) {c : ShardCall} (hid : w.Ideal A c) (hun : w.Unmixed A c) : w.Genuine A c := by
  cases c with
  | dispatch clock inner =>
    intro d hd
    cases hd
  | inbound instant frame => exact (h.inbound hid hun).2

/-- Workers as built. -/
lemma inv_start {tx rx : FlowShards} (htx : ∀ u ∈ tx.workers, u.keys.Unused)
    (hrx : ∀ v ∈ rx.workers, v.keys.Unused ∧ v.reasm = .new) : (start tx rx).Inv where
  cache := fun u hu => (htx u hu).tidy.cache
  sent := by
    intro u hu r hr
    rw [(htx u hu).history] at hr
    cases hr
  rxCache := fun v hv => Silent.cacheOk ⟨(hrx v hv).1.rx, (hrx v hv).1.rxReceipt, (hrx v hv).1.rxCiphers⟩
  kept := by
    intro v hv
    rw [(hrx v hv).2]
    exact Reassembler.new_kept
  groups := by
    intro k v hv key g hg
    rw [(hrx v (List.mem_of_getElem? hv)).2, Reassembler.new, Std.ExtTreeMap.getElem?_empty] at hg
    cases hg

end ShardWorld

/-- The workers of an engine that was split. -/
lemma FlowShards.workers_of_split {e : Engine} {now : Nat} {n : UInt64} {shards : List TunnelKeys}
    {localAddr peerAddr : IPv8Address} {mtu : Nat} {f : FlowShards}
    (hsplit : (e.splitShards now n).2 = .ok (shards, localAddr, peerAddr, mtu))
    (hf : FlowShards.new shards localAddr peerAddr mtu = .ok f) :
    ∀ w ∈ f.workers, w.keys.Unused ∧ w.reasm = .new := by
  unfold FlowShards.new at hf
  split at hf
  · cases hf
  cases hf
  intro w hw
  obtain ⟨keys, hkeys, rfl⟩ := List.mem_map.mp hw
  obtain ⟨k, hk⟩ := List.getElem?_of_mem hkeys
  obtain ⟨hlt, base, rfl⟩ := shardKeys_of_split hsplit hk
  exact ⟨shardKeys_unused hlt, rfl⟩

/-- One engine is split into `n` shards, the other into `m`. In every run with an ideal AEAD in which no group takes
in fragments of different packets, every packet that is delivered was dispatched. -/
theorem shard_delivery (A : Aead) {e e' : Engine} {now now' : Nat} {n m : UInt64} {shards shards' : List TunnelKeys}
    {localAddr localAddr' peerAddr peerAddr' : IPv8Address} {mtu mtu' : Nat} {tx rx : FlowShards}
    (hsplit : (e.splitShards now n).2 = .ok (shards, localAddr, peerAddr, mtu))
    (hsplit' : (e'.splitShards now' m).2 = .ok (shards', localAddr', peerAddr', mtu'))
    (htx : FlowShards.new shards localAddr peerAddr mtu = .ok tx)
    (hrx : FlowShards.new shards' localAddr' peerAddr' mtu' = .ok rx) {calls : List ShardCall}
    (hideal : Along (ShardWorld.step A) (ShardWorld.Ideal A) (ShardWorld.start tx rx) calls)
    (hunmixed : Along (ShardWorld.step A) (ShardWorld.Unmixed A) (ShardWorld.start tx rx) calls) :
    Along (ShardWorld.step A) (ShardWorld.Genuine A) (ShardWorld.start tx rx) calls :=
  Along.of_invariant (fun _ _ h hc => h.step hc.1 hc.2) (fun _ _ h hc => h.genuine hc.1 hc.2)
    (ShardWorld.inv_start (fun u hu => (FlowShards.workers_of_split hsplit htx u hu).1)
      (FlowShards.workers_of_split hsplit' hrx))
    (along_and.mpr ⟨hideal, hunmixed⟩)

/-- An established engine. -/
def sampleEnd (isInitiator : Bool) : Engine :=
  { sampleEngine with state := .established, keys := some (.new 0 (sampleDh 7) isInitiator), mtu := 58 }

/-- The shards that the engine is split into. -/
def sampleShards (isInitiator : Bool) (n : UInt64) : FlowShards where
  workers := (List.range n.toNat).map fun k =>
    .new (Engine.shardKeys (.new 0 (sampleDh 7) isInitiator) 0 n k) sampleEngine.localAddr sampleEngine.peerAddr 58
  ok := true

/-- The frames that packets go out in. -/
def sampleFrames (f : FlowShards) : List Bytes → List Bytes
  | [] => []
  | inner :: packets =>
    let (f, frames) := f.sealDispatch sampleAead (fun _ => 0) inner
    frames.toOption.getD [] ++ sampleFrames f packets

/-- The second packet goes out from shard 0 and the third from shard 1, both with id 1 and in three fragments. The one
worker of the receiver gets the first fragment of the one and the others of the other. -/
theorem shard_splices :
    let packets := [[1], List.replicate 24 0, List.replicate 24 7]
    let frames := sampleFrames (sampleShards true 2) packets
    let calls : List ShardCall := packets.map (.dispatch fun _ => 0) ++
      [.inbound 0 (frames.getD 1 []), .inbound 0 (frames.getD 5 []), .inbound 0 (frames.getD 6 [])]
    Along (ShardWorld.step sampleAead) (ShardWorld.Ideal sampleAead)
        (.start (sampleShards true 2) (sampleShards false 1)) calls ∧
      ¬ Along (ShardWorld.step sampleAead) (ShardWorld.Genuine sampleAead)
        (.start (sampleShards true 2) (sampleShards false 1)) calls :=
  ⟨by decide +kernel, by decide +kernel⟩

/-- The fragments of both packets out of order, one of them twice, and one group after the other. -/
theorem shard_delivery_sample :
    let packets := [[1], List.replicate 24 0, List.replicate 24 7]
    let frames := sampleFrames (sampleShards true 2) packets
    let calls : List ShardCall := packets.map (.dispatch fun _ => 0) ++
      [3, 1, 3, 2, 0, 4, 6, 5].map fun i => .inbound 0 (frames.getD i [])
    Along (ShardWorld.step sampleAead) (ShardWorld.Genuine sampleAead)
      (.start (sampleShards true 2) (sampleShards false 1)) calls := by
  intro packets frames calls
  have hsplit : ∀ initiator n, n = 1 ∨ n = 2 → ∃ shards,
      ((sampleEnd initiator).splitShards 0 n).2 =
          .ok (shards, sampleEngine.localAddr, sampleEngine.peerAddr, 58) ∧
        FlowShards.new shards sampleEngine.localAddr sampleEngine.peerAddr 58 = .ok (sampleShards initiator n) := by
    rintro initiator n (rfl | rfl)
    · exact ⟨_, rfl, rfl⟩
    · exact ⟨_, rfl, rfl⟩
  obtain ⟨_, hsplit1, htx⟩ := hsplit true 2 (.inr rfl)
  obtain ⟨_, hsplit2, hrx⟩ := hsplit false 1 (.inl rfl)
  exact shard_delivery sampleAead hsplit1 hsplit2 htx hrx (by decide +kernel) (by decide +kernel)

end IPv8Plus.Tunnel
