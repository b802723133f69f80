import IPv8Plus.Lib.Ledger
import IPv8Plus.Tunnel.Relay

/-!
# Relays in a network

Any number of engines get any frames in any order. A packet that a relay passes on is a copy in flight until a relay
passes it on again; every other packet that is passed on has entered the network anew. `relays_bounded` says that a
signed packet that enters once is passed on once at most at every place of its route. Engines do not remember the
packets they have passed on, so one that enters twice is passed on twice (`relay_repeats`).
-/

namespace IPv8Plus.Tunnel
open Lib Codec Routing

/-- Engines, the multi-hop packets that they have passed on, and at which place of its route each of them was. -/
structure Network (S : SigScheme) where
  engines : Nat → DataPlane S
  copies : Ledger (IPv8Header × Bytes)
  passes : List (Nat × IPv8Header × Bytes)

/-- An engine gets a frame, or any other call changes an engine. -/
inductive NetworkCall (S : SigScheme) where
  | frame (j : Nat) (instant : Nat) (now : UInt64) (frame : Bytes)
  | other (j : Nat) (e : DataPlane S)

/-- What does not change on the way: all but the hop limit. -/
def signedPart (p : IPv8Header × Bytes) : IPv8Header × Bytes := ({ p.1 with hopLimit := 0 }, p.2)

/-- How many hops a packet has behind it, by its hop limit. -/
def hopsDone (p : IPv8Header × Bytes) : Nat :=
  match routeOf p.1 with
  | none => 0
  | some trace => trace.initHopLimit.toNat - p.1.hopLimit.toNat

/-- The place of the engine in the route of a packet. -/
def placeOf {S : SigScheme} (e : DataPlane S) (hdr : IPv8Header) : Nat :=
  match routeOf hdr with
  | none => 0
  | some trace => trace.hops.idxOf e.localAddr

namespace Network

variable {S : SigScheme} (A : Aead)

def start (engines : Nat → DataPlane S) : Network S := { engines, copies := .empty, passes := [] }

/-- Note a packet that an engine has passed on. -/
def note (w : Network S) (e : DataPlane S) : Outcome Empty Verdict → Network S
  | .ok (.forwarded d _ _) =>
    { w with
      copies := w.copies.pass (d.header, d.payload) ({ d.header with hopLimit := d.header.hopLimit - 1 }, d.payload)
      passes := (placeOf e d.header, d.header, d.payload) :: w.passes }
  | _ => w

def step (w : Network S) : NetworkCall S → Network S × Option (Outcome Empty Verdict)
  | .frame j instant now frame =>
    let (e, x) := (w.engines j).handleFrameAt A instant now frame
    ({ w with engines := Function.update w.engines j e }.note (w.engines j) x, some x)
  | .other j e => ({ w with engines := Function.update w.engines j e }, none)

/-- The engine that gets a frame passes on and delivers only what it has checked. -/
def Relayed (Signed : PublicKey → Bytes → Prop) (w : Network S) : NetworkCall S → Prop
  | .frame j instant now frame =>
    Relays Signed (w.engines j) ((w.engines j).handleFrameAt A instant now frame).1 now
      ((w.engines j).handleFrameAt A instant now frame).2
  | .other _ _ => True

/-- The packets of one signed part that were passed on, in all and at one place of the route. -/
def passesOf (w : Network S) (x : IPv8Header × Bytes) : Nat := w.passes.countP fun a => signedPart a.2 = x

@[inherit_doc passesOf] def passesAt (w : Network S) (x : IPv8Header × Bytes) (k : Nat) : Nat :=
  w.passes.countP fun a => signedPart a.2 = x ∧ a.1 = k

/-- How often a packet of this signed part has entered. -/
def entriesOf (w : Network S) (x : IPv8Header × Bytes) : Nat := w.copies.entered.countP fun a => signedPart a = x

/-- What holds of the copies in the network. -/
structure Inv (w : Network S) : Prop where
  covered : w.copies.Covered signedPart hopsDone
  passes : w.passes.map (·.2) = w.copies.passed
  place : ∀ a ∈ w.passes, hopsDone a.2 = a.1 ∧
    ∃ trace, routeOf a.2.1 = some trace ∧ a.1 + 1 < trace.hops.length

variable {A} {w : Network S} {Signed : PublicKey → Bytes → Prop} {e e' : DataPlane S} {now : UInt64}
  {x : IPv8Header × Bytes} {k : Nat}

lemma inv_start (engines : Nat → DataPlane S) : (start engines).Inv := ⟨Ledger.covered_empty, rfl, nofun⟩


/-- The hop limit of a checked packet says at which place of its route the engine stands. -/
lemma hopsDone_eq {d : Decoded} {trace : RouteTrace} (hc : Checked Signed e now d trace) :
    hopsDone (d.header, d.payload) = trace.hops.idxOf e.localAddr ∧ placeOf e d.header = trace.hops.idxOf e.localAddr := by
  have hlimit := hc.hopLimit
  unfold hopsDone placeOf
  rw [hc.route]
  refine ⟨?_, rfl⟩
  dsimp only
  omega

lemma Inv.note (h : w.Inv) {v : Outcome Empty Verdict} (hr : Relays Signed e e' now v) : (w.note e v).Inv := by
  rcases v with (d | ⟨d, next, packet⟩ | _ | _ | _ | _) | _ | _
  · exact h
  · obtain ⟨-, -, ⟨trace, hc, hnext⟩, -, hlower, -⟩ := hr
    obtain ⟨hdone, hplace⟩ := hopsDone_eq hc
    have hroute : routeOf { d.header with hopLimit := d.header.hopLimit - 1 } = some trace := hc.route
    have hnew : hopsDone ({ d.header with hopLimit := d.header.hopLimit - 1 }, d.payload) =
        hopsDone (d.header, d.payload) + 1 := by
      have hlimit := hc.hopLimit
      rw [hdone]
      unfold hopsDone
      rw [hroute]
      dsimp only
      omega
    refine ⟨h.covered.pass rfl hnew, congrArg (_ :: ·) h.passes, ?_⟩
    refine List.forall_mem_cons.mpr ⟨⟨hdone.trans hplace.symm, trace, hc.route, ?_⟩, h.place⟩
    show placeOf e d.header + 1 < trace.hops.length
    rw [hplace]
    exact (List.getElem?_eq_some_iff.mp hnext).1
  · exact h
  · exact h
  · exact h
  · exact h
  · exact h
  · exact h

lemma Inv.step (h : w.Inv) {c : NetworkCall S} (hr : w.Relayed A Signed c) : (w.step A c).1.Inv := by
  cases c with
  | frame j instant now frame =>
    have hengines : ({ w with
        engines := Function.update w.engines j ((w.engines j).handleFrameAt A instant now frame).1 } : Network S).Inv :=
      ⟨h.covered, h.passes, h.place⟩
    exact hengines.note hr
  | other j e => exact ⟨h.covered, h.passes, h.place⟩

/-- At every place of the route, as many copies are passed on as have entered, at most. -/
lemma Inv.passesAt_le (h : w.Inv) (x : IPv8Header × Bytes) (k : Nat) : w.passesAt x k ≤ w.entriesOf x := by
  have hpassed : w.passesAt x k = w.copies.passed.countP (fun a => signedPart a = x ∧ hopsDone a = k) := by
    rw [← h.passes, List.countP_map]
    refine List.countP_congr fun a ha => ?_
    rw [Function.comp_apply, decide_eq_true_eq, decide_eq_true_eq, (h.place a ha).1]
  rw [hpassed]
  exact h.covered.passed_le_entered x k

/-- The last place of the route passes nothing on. -/
lemma Inv.passesOf_le (h : w.Inv) {trace : RouteTrace} (ht : routeOf x.1 = some trace) :
    w.passesOf x ≤ (trace.hops.length - 1) * w.entriesOf x := by
  have hpassed : w.passesOf x = w.copies.passed.countP (fun a => signedPart a = x) := by
    rw [← h.passes, List.countP_map]
    rfl
  rw [hpassed]
  refine h.covered.passed_le_mul fun a ha hx => ?_
  rw [← h.passes] at ha
  obtain ⟨b, hb, rfl⟩ := List.mem_map.mp ha
  obtain ⟨hdone, trace', ht', hlt⟩ := h.place b hb
  have hsame : routeOf x.1 = routeOf b.2.1 := by
    rw [← hx]
    rfl
  rw [hsame, ht'] at ht
  cases ht
  rw [hdone]
  omega

end Network

/-- Whatever frames the engines of a network get, with calls in between that change the engines at will: every packet
that is passed on, and every delivered one that starts with a route, was checked, and leaves the relay as it came but
for a hop limit that is one lower and still positive, for the next entry of its route. A signed packet that has
entered `m` times was passed on `m` times at most at every place of its route, and `m * (n - 1)` times in all, if the
route has `n` entries. -/
theorem relays_bounded (A : Aead) {S : SigScheme} {Signed : PublicKey → Bytes → Prop}
    (hunforgeable : ∀ key msg sig, S.verifyStrict key msg sig = true → Signed key msg)
    (engines : Nat → DataPlane S) (calls : List (NetworkCall S)) :
    Along (Network.step A) (Network.Relayed A Signed) (.start engines) calls ∧
      let w := (run (Network.step A) (.start engines) calls).1
      ∀ x, (∀ k, w.passesAt x k ≤ w.entriesOf x) ∧
        ∀ trace, routeOf x.1 = some trace → w.passesOf x ≤ (trace.hops.length - 1) * w.entriesOf x := by
  have hall : Along (Network.step A) (fun _ _ => True) (Network.start engines) calls :=
    along_of_forall (P := fun _ => True) fun _ _ => trivial
  have hrelayed : ∀ (w : Network S) c, w.Relayed A Signed c := by
    intro w c
    cases c with
    | frame j instant now frame => exact handleFrameAt_relays hunforgeable _ instant now frame
    | other j e => trivial
  have hinv : Network.Inv (run (Network.step A) (.start engines) calls).1 :=
    invariant_run (fun w c h _ => h.step (hrelayed w c)) (Network.inv_start engines) hall
  refine ⟨?_, fun x => ⟨fun k => hinv.passesAt_le x k, fun trace ht => hinv.passesOf_le ht⟩⟩
  exact Along.of_invariant (I := fun _ => True) (fun _ _ _ _ => trivial) (fun w c _ _ => hrelayed w c) trivial hall

/-- An address, a tunnel end, and a key. -/
def sampleAddr (k : UInt16) : IPv8Address := ⟨0xFB14, 0, 0, 0, 0, 0, 0, k⟩

@[inherit_doc sampleAddr] def sampleTunnel (secret : UInt8) (isInitiator : Bool) (localAddr peerAddr : UInt16) : Engine :=
  { sampleReceiver (.new 0 (sampleDh secret) isInitiator) with
    localAddr := sampleAddr localAddr
    peerAddr := sampleAddr peerAddr }

lemma length_sampleKey (b : UInt8) : (List.replicate 32 b).length = 32 := List.length_replicate

@[inherit_doc sampleAddr] def sampleKey (b : UInt8) : PublicKey := ⟨List.replicate 32 b, length_sampleKey b⟩

/-- The source's key with a certificate of the anchor. -/
def sampleHost : HostIdentity sampleSig where
  addr := sampleAddr 0
  signing := sampleKey 3
  cert := issue sampleSig (sampleKey 9) (sampleAddr 0) (sampleKey 3) 100

/-- A source, a relay with its two tunnels, and a destination. -/
def sampleNetwork : Nat → DataPlane sampleSig
  | 0 => .new (sampleTunnel 7 true 0 1) (some sampleHost)
  | 1 => (DataPlane.new (sampleTunnel 7 false 1 0) none).enableForwarding (sampleKey 9)
  | 2 => .new (sampleTunnel 8 true 1 2) none
  | _ => (DataPlane.new (sampleTunnel 8 false 2 1) none).enableForwarding (sampleKey 9)

/-- The frames of one packet that the source seals a number of times. -/
def sampleRouted (e : DataPlane sampleSig) : Nat → List Bytes
  | 0 => []
  | n + 1 =>
    let (e, frames) := e.sealMultihop sampleAead (fun _ => 0) [7, 9] (sampleAddr 2) [sampleAddr 1, sampleAddr 2] 5
    frames.toOption.getD [] ++ sampleRouted e n

/-- The source seals one packet twice, and the relay passes both copies on, though the route has two entries. -/
theorem relay_repeats :
    let calls := (sampleRouted (sampleNetwork 0) 2).map (NetworkCall.frame 1 0 0)
    let w := (run (Network.step sampleAead) (.start sampleNetwork) calls).1
    ∃ a ∈ w.passes, (routeOf a.2.1).map (·.hops.length) = some 2 ∧ w.passesOf (signedPart a.2) = 2 ∧
      w.passesAt (signedPart a.2) 0 = 2 := by
  decide +kernel

/-- One packet, which the relay passes on. -/
theorem relays_bounded_sample :
    let calls := (sampleRouted (sampleNetwork 0) 1).map (NetworkCall.frame 1 0 0)
    let w := (run (Network.step sampleAead) (.start sampleNetwork) calls).1
    w.passes.length = 1 ∧ ∀ x k, w.passesAt x k ≤ w.entriesOf x := by
  intro calls w
  have hbounded := @relays_bounded sampleAead sampleSig (fun key msg => ∃ sig, sampleSig.verifyStrict key msg sig = true)
    (fun _ _ sig h => ⟨sig, h⟩) sampleNetwork calls
  refine ⟨by decide +kernel, fun x k => ?_⟩
  exact (hbounded.2 x).1 k

end IPv8Plus.Tunnel
