import IPv8Plus.Tunnel.ShardDelivery

/-!
# A tunnel in use

One direction of a tunnel with any traffic: the sender seals packets and receipts, and the network hands the receiver
whatever it likes. `Linked` are the keys of two ends in any state that they can be in after that, `Linked.transfer`
says that the next packet gets through.
-/

namespace IPv8Plus.Tunnel
open Lib Codec TunnelKeys

/-- What happens to the two ends. -/
inductive TrafficCall where
  | send (now : Nat) (packet : Bytes)
  | sendReceipt (now : Nat) (report : Bytes)
  | receive (frame : Bytes)
  | receiveReceipt (keyId : KeyId) (body : Bytes)

namespace Link

variable (A : Aead)

def traffic (w : Link) : TrafficCall → Link × Option (Outcome FrameError Bytes)
  | .send now packet =>
    let (tx, x) := encapsulate A w.tx now packet
    ({ w with tx }, some x)
  | .sendReceipt now report => ({ w with tx := (w.tx.sealReceipt A now report).1 }, none)
  | .receive frame =>
    let (rx, x) := decapsulate A w.rx frame
    ({ w with rx }, some x)
  | .receiveReceipt keyId body => ({ w with rx := (w.rx.openReceipt A keyId body).1 }, none)

/-- The AEAD is ideal at this call, and the sender's epochs fit the KeyID. -/
def TrafficOk (w : Link) : TrafficCall → Prop
  | .send now _ => w.tx.LowEpoch now
  | .sendReceipt now _ => w.tx.LowEpoch now
  | .receive frame =>
    ∀ head ∈ (parseHead frame).toOption, ∀ d ∈ (decode (frame.drop frameHeaderSize)).toOption,
      (World.mk w.tx w.rx []).Authentic A .data head.keyId
        ((frame.drop frameHeaderSize).drop d.offset) ((frame.drop frameHeaderSize).take d.offset)
  | .receiveReceipt keyId body => (World.mk w.tx w.rx []).Authentic A .receipt keyId body []

end Link

/-- The keys agree in all but what sealing changes. -/
def TunnelKeys.ReceivesAs (k k' : TunnelKeys) : Prop :=
  k = { k' with
    sendEpoch := k.sendEpoch
    epochCreated := k.epochCreated
    epochBytes := k.epochBytes
    txCounter := k.txCounter
    txReceiptCounter := k.txReceiptCounter
    sendCipher := k.sendCipher
    history := k.history }

/-- The keys agree in all but what receiving changes. -/
def TunnelKeys.SendsAs (k k' : TunnelKeys) : Prop :=
  k = { k' with rx := k.rx, rxReceipt := k.rxReceipt, rxCiphers := k.rxCiphers }

/-- The keys of a sender and a receiver after any traffic from the one to the other. The same keys may have carried
traffic the other way. -/
def Linked (A : Aead) (tx rx : TunnelKeys) : Prop :=
  ∃ tx₀ rx₀ calls, Peers tx₀ rx₀ ∧ Along (Link.traffic A) (Link.TrafficOk A) ⟨tx₀, rx₀⟩ calls ∧
    tx.SendsAs (run (Link.traffic A) ⟨tx₀, rx₀⟩ calls).1.tx ∧ rx.ReceivesAs (run (Link.traffic A) ⟨tx₀, rx₀⟩ calls).1.rx

/-- A tunnel that has carried nothing. -/
lemma Linked.of_peers {A : Aead} {tx rx : TunnelKeys} (h : Peers tx rx) : Linked A tx rx :=
  ⟨tx, rx, [], h, trivial, rfl, rfl⟩

section
variable {A : Aead} {k k' : TunnelKeys} {frame : Bytes}

/-- The keys change only by opening a body whose clear part is a header at least. -/
lemma decapsulate_cases (k : TunnelKeys) (frame : Bytes) :
    (decapsulate A k frame).1 = k ∨
      ∃ head d, parseHead frame = .ok head ∧ decode (frame.drop frameHeaderSize) = .ok d ∧
        (decapsulate A k frame).1 = (k.open A head.keyId ((frame.drop frameHeaderSize).drop d.offset)
          ((frame.drop frameHeaderSize).take d.offset)).1 := by
  unfold decapsulate
  cases hhead : parseHead frame with
  | err e => exact .inl rfl
  | panic => exact .inl rfl
  | ok head =>
    dsimp only
    split
    · exact .inl rfl
    split
    · exact .inl rfl
    unfold decapsulateBody
    cases hd : decode (frame.drop frameHeaderSize) with
    | err e => exact .inl rfl
    | panic => exact .inl rfl
    | ok d =>
      dsimp only [Outcome.mapErr_ok]
      split
      · exact .inl rfl
      refine .inr ⟨head, d, rfl, rfl, ?_⟩
      generalize k.open A head.keyId _ _ = x
      rcases x with ⟨k', e | secret⟩
      · rfl
      · rfl

end

namespace World

variable {w : World}

lemma carried_start {tx rx : TunnelKeys} (h : Peers tx rx) : (start tx rx).Carried where
  inv := inv_start h
  low := h.tx_built.unused.sendsLow
  ordered := h.tx_built.unused.ordered
  aad := by
    rw [show (start tx rx).tx.history = [] from h.tx_built.unused.history]
    exact nofun
  genuine := nofun

/-- Keys that send alike and keys that receive alike. -/
lemma Carried.of_halves (h : w.Carried) {tx rx : TunnelKeys} (htx : tx.SendsAs w.tx) (hrx : rx.ReceivesAs w.rx) :
    (World.mk tx rx w.accepted).Carried := by
  obtain ⟨⟨tidy, config, own, tracks⟩, low, ordered, aad, genuine⟩ := h
  rw [htx, hrx]
  refine ⟨⟨?_, config, own, ?_⟩, ?_, ?_, aad, genuine⟩
  · exact ⟨tidy.cache, tidy.budget, tidy.spent, tidy.proper⟩
  · exact ⟨tracks.cache, tracks.window, tracks.pruned, tracks.nodup⟩
  · exact ⟨low.residue, low.low, low.shard⟩
  · exact ⟨ordered.stride_pos, ordered.past, ordered.unique⟩

end World

namespace Link

variable {A : Aead} {w : Link}

/-- Traffic keeps what holds of sender and receiver. -/
lemma carried_traffic {accepted : List Accepted} (h : (World.mk w.tx w.rx accepted).Carried) {c : TrafficCall}
    (hok : w.TrafficOk A c) :
    ∃ accepted', (World.mk (w.traffic A c).1.tx (w.traffic A c).1.rx accepted').Carried := by
  cases c with
  | send now packet =>
    refine ⟨accepted, ?_⟩
    show (World.mk (encapsulate A w.tx now packet).1 w.rx accepted).Carried
    cases hd : decode packet with
    | err e =>
      rw [encapsulate, hd]
      exact h
    | panic =>
      rw [encapsulate, hd]
      exact h
    | ok d =>
      rw [encapsulate_tx hd]
      exact h.sealWith hok nofun
  | sendReceipt now report => exact ⟨accepted, h.sealWith hok fun _ => rfl⟩
  | receive frame =>
    rcases decapsulate_cases (A := A) w.rx frame with hsame | ⟨head, d, hhead, hd, hopen⟩
    · refine ⟨accepted, ?_⟩
      show (World.mk w.tx (decapsulate A w.rx frame).1 accepted).Carried
      rw [hsame]
      exact h
    · have hid := hok head (Outcome.mem_toOption.mpr hhead) d (Outcome.mem_toOption.mpr hd)
      have haad : (frame.drop frameHeaderSize).take d.offset ≠ [] := by
        intro hnil
        have hlen := length_take_offset hd
        obtain ⟨wf, -⟩ := decode_eq_ok.mp hd
        rw [hnil, wf.offset, baseHeaderSize, List.length_nil] at hlen
        omega
      have hdelivered := h.deliver hid fun _ => haad
      generalize hw : ((World.mk w.tx w.rx accepted).deliver A .data head.keyId _ _).1 = w' at hdelivered
      have hrx : (decapsulate A w.rx frame).1 = w'.rx := by
        rw [hopen, ← hw]
        rfl
      have htx : w.tx = w'.tx := by
        rw [← hw]
        rfl
      refine ⟨w'.accepted, ?_⟩
      show (World.mk w.tx (decapsulate A w.rx frame).1 w'.accepted).Carried
      rw [hrx, htx]
      exact hdelivered
  | receiveReceipt keyId body =>
    have hreceipt : FrameKind.receipt ≠ FrameKind.data := by decide
    have hdelivered := h.deliver hok fun hkind => absurd hkind hreceipt
    exact ⟨_, hdelivered⟩

end Link

/-- The ends of a tunnel in use. -/
theorem Linked.carried {A : Aead} {tx rx : TunnelKeys} (h : Linked A tx rx) :
    ∃ accepted, (World.mk tx rx accepted).Carried := by
  obtain ⟨tx₀, rx₀, calls, hpeers, hok, htx, hrx⟩ := h
  have hstart : ∃ accepted, (World.mk tx₀ rx₀ accepted).Carried := ⟨[], World.carried_start hpeers⟩
  obtain ⟨accepted, hcarried⟩ := invariant_run
    (I := fun w : Link => ∃ accepted, (World.mk w.tx w.rx accepted).Carried)
    (fun w c hw hc => Link.carried_traffic hw.choose_spec hc) hstart hok
  exact ⟨accepted, hcarried.of_halves htx hrx⟩

end IPv8Plus.Tunnel
