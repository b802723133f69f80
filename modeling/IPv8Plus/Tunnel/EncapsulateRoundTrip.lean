import IPv8Plus.Tunnel.Encapsulate
import IPv8Plus.Tunnel.Replay

/-!
# Round trip of encapsulation

Packets go through a tunnel, frame after frame. The sender cuts a packet where its length says, the receiver
where the decoder finds the payload; the two agree on the packets that are `Whole`. `encapsulate_roundTrip`
says that these, in epochs that fit the KeyID, are exactly the ones that come out at the peer with only header
and chain in the clear.
-/

namespace IPv8Plus.Tunnel
open Lib Codec TunnelKeys

/-- Nothing stands behind the payload of the packet. -/
def Whole (packet : Bytes) : Prop := ∀ d ∈ (decode packet).toOption, packet.length = d.consumed

instance (packet : Bytes) : Decidable (Whole packet) := inferInstanceAs (Decidable (∀ d ∈ _, _))

/-- The data frame that an encryption goes out in. -/
def Encryption.frame (A : Aead) (r : Encryption) : Bytes := writeHead [] .data r.keyId ++ r.aad ++ r.body A

def Encryption.toAccepted (r : Encryption) : Accepted := ⟨r.kind, r.epoch, r.counter⟩

section
variable {packet rest : Bytes} {d : Decoded}

lemma consumed_eq (h : decode packet = .ok d) : d.consumed = d.offset + d.payload.length := by
  obtain ⟨wf, -⟩ := decode_eq_ok.mp h
  rw [Decoded.consumed, wf.offset, wf.length]

/-- Head and chain in front of any long enough bytes are decoded as before. -/
lemma decode_take_offset (h : decode packet = .ok d) (hrest : d.payload.length ≤ rest.length) :
    decode (packet.take d.offset ++ rest) = .ok ⟨d.header, rest.take d.payload.length, d.offset⟩ := by
  obtain ⟨wf, pad, rest', rfl⟩ := decode_eq_ok.mp h
  have hclear : (d.header.headBytes pad ++ (chainBytes d.header.extHeaders ++ (d.payload ++ rest'))).take d.offset =
      d.header.headBytes pad ++ chainBytes d.header.extHeaders := by
    rw [← List.append_assoc]
    apply List.take_left'
    rw [List.length_append, IPv8Header.length_headBytes, length_chainBytes, wf.offset]
  have hlen : (rest.take d.payload.length).length = d.payload.length := by
    rw [List.length_take, Nat.min_eq_left hrest]
  rw [hclear]
  apply decode_eq_ok.mpr
  refine ⟨⟨wf.version, wf.compat, wf.payloadLen, hlen.trans wf.length, wf.chain, wf.nodup, wf.count, wf.next, wf.flag,
    wf.offset, ?_⟩, pad, rest.drop d.payload.length, ?_⟩
  · rw [hlen]
    exact wf.total
  · rw [List.take_append_drop, List.append_assoc]

/-- A whole packet is header, chain and payload. -/
lemma drop_offset (h : decode packet = .ok d) (hwhole : packet.length = d.consumed) :
    packet.drop d.offset = d.payload := by
  obtain ⟨wf, pad, rest, rfl⟩ := decode_eq_ok.mp h
  have hrest : rest = [] := by
    rw [consumed_eq h] at hwhole
    simp only [List.length_append, IPv8Header.length_headBytes, length_chainBytes] at hwhole
    have := wf.offset
    apply List.eq_nil_of_length_eq_zero
    omega
  rw [wf.offset, drop_head_chain, hrest, List.append_nil]

lemma plainLen_eq (h : decode packet = .ok d) (hwhole : packet.length = d.consumed) :
    plainLen packet d = d.offset := by
  rw [plainLen, hwhole, consumed_eq h, Nat.add_sub_cancel]

end

section
variable {A : Aead} {k : TunnelKeys} {now : Nat} {packet frame : Bytes} {d : Decoded} {r : Encryption}

lemma exists_decode (h : (encapsulate A k now packet).2 = .ok frame) : ∃ d, decode packet = .ok d := by
  unfold encapsulate at h
  cases hd : decode packet with
  | ok d => exact ⟨d, rfl⟩
  | err e =>
    rw [hd] at h
    cases h
  | panic =>
    rw [hd] at h
    cases h

/-- The encryption that `encapsulate` makes. -/
def sent (k : TunnelKeys) (now : Nat) (packet : Bytes) (d : Decoded) : Encryption :=
  (k.rotateIfDue now).encryption .data (packet.take (plainLen packet d)) (packet.drop (plainLen packet d))

lemma encapsulate_eq (A : Aead) (now : Nat) (hc : k.CacheOk) (hd : decode packet = .ok d) :
    encapsulate A k now packet =
      ((k.rotateIfDue now).record (sent k now packet d), .ok ((sent k now packet d).frame A)) := by
  have hseal := sealWith_eq A .data now (packet.take (plainLen packet d)) (packet.drop (plainLen packet d)) hc
  unfold encapsulate
  rw [hd]
  simp only [Outcome.mapErr_ok, TunnelKeys.seal, hseal]
  rfl

lemma encapsulate_tx (hd : decode packet = .ok d) :
    (encapsulate A k now packet).1 =
      (k.seal A now (packet.take (plainLen packet d)) (packet.drop (plainLen packet d))).1 := by
  unfold encapsulate
  rw [hd]
  rfl

lemma parseHead_frame (r : Encryption) : parseHead (r.frame A) = .ok ⟨.data, r.keyId⟩ := by
  rw [Encryption.frame, List.append_assoc]
  exact parseHead_writeHead _ _ _

lemma drop_frame (r : Encryption) : (r.frame A).drop frameHeaderSize = r.aad ++ r.body A := by
  rw [Encryption.frame, List.append_assoc]
  exact List.drop_left' ((length_writeHead _ _ _).trans (Nat.zero_add _))

lemma length_body (r : Encryption) : (r.body A).length = 8 + (r.msg.length + tagSize) := by
  rw [Encryption.body, List.length_append, length_be64, A.length_encrypt]

lemma length_take_offset (hd : decode packet = .ok d) : (packet.take d.offset).length = d.offset := by
  have hle := decode_consumed_le hd
  rw [consumed_eq hd] at hle
  rw [List.length_take]
  omega

/-- The receiver finds the payload of a whole packet where the sender cut. -/
lemma decode_body (hd : decode packet = .ok d) (haad : r.aad = packet.take d.offset) (hmsg : r.msg = d.payload) :
    decode (r.aad ++ r.body A) = .ok ⟨d.header, (r.body A).take d.payload.length, d.offset⟩ := by
  rw [haad]
  apply decode_take_offset hd
  rw [length_body, hmsg]
  omega

/-- What the receiver does with the frame of a whole packet. -/
lemma decapsulate_frame (hd : decode packet = .ok d) (haad : r.aad = packet.take d.offset) (hmsg : r.msg = d.payload) :
    decapsulate A k (r.frame A) =
      ((k.open A r.keyId (r.body A) r.aad).1,
        match (k.open A r.keyId (r.body A) r.aad).2 with
        | .error e => .err e
        | .ok secret => .ok (r.aad ++ secret)) := by
  obtain ⟨wf, -⟩ := decode_eq_ok.mp hd
  have hoffset : r.aad.length = d.offset := by
    rw [haad, length_take_offset hd]
  have hmin : baseHeaderSize ≤ d.offset := by
    rw [wf.offset]
    exact Nat.le_add_right _ _
  have hlong : ¬ (r.aad ++ r.body A).length < minDataBody := by
    rw [List.length_append, hoffset, length_body, minDataBody]
    omega
  have hclear : ¬ (d.offset < baseHeaderSize ∨ (r.aad ++ r.body A).length - d.offset < 8) := by
    rw [List.length_append, hoffset, length_body]
    omega
  unfold decapsulate
  rw [parseHead_frame]
  simp only [ne_eq, not_true_eq_false, if_false, drop_frame, if_neg hlong]
  unfold decapsulateBody
  rw [decode_body hd haad hmsg]
  simp only [Outcome.mapErr_ok, if_neg hclear, List.take_left' hoffset, List.drop_left' hoffset]
  generalize k.open A r.keyId (r.body A) r.aad = x
  rcases x with ⟨k', e | secret⟩
  · rfl
  · rfl

lemma aad_sent (k : TunnelKeys) (now : Nat) (hd : decode packet = .ok d) (hwhole : packet.length = d.consumed) :
    (sent k now packet d).aad = packet.take d.offset := by
  rw [← plainLen_eq hd hwhole]
  rfl

lemma msg_sent (k : TunnelKeys) (now : Nat) (hd : decode packet = .ok d) (hwhole : packet.length = d.consumed) :
    (sent k now packet d).msg = d.payload := by
  rw [← drop_offset hd hwhole, ← plainLen_eq hd hwhole]
  rfl

variable (A) in
/-- The clear part of the frame is header and chain, and the payload is what is encrypted. -/
def ClearHead (k : TunnelKeys) (c : Nat × Bytes) : Prop :=
  ∀ frame, (encapsulate A k c.1 c.2).2 = .ok frame → ∀ d, decode c.2 = .ok d →
    ∃ r, (encapsulate A k c.1 c.2).1.history = r :: k.history ∧ frame = r.frame A ∧
      r.aad = c.2.take (baseHeaderSize + chainSize d.header.extHeaders) ∧ r.msg = d.payload

/-- The clear part is as it should be exactly for the whole packets. -/
theorem clearHead_iff (hc : k.CacheOk) : ClearHead A k (now, packet) ↔ Whole packet := by
  constructor
  · intro h d hd
    rw [Outcome.mem_toOption] at hd
    obtain ⟨wf, -⟩ := decode_eq_ok.mp hd
    have he := encapsulate_eq A now hc hd
    obtain ⟨r, hr, -, haad, hmsg⟩ := h _ (congrArg Prod.snd he) d hd
    rw [he, record_history, rotateIfDue_history] at hr
    obtain ⟨rfl, -⟩ := List.cons_eq_cons.mp hr
    have hlen := congrArg List.length haad
    have hle := decode_consumed_le hd
    have hconsumed := consumed_eq hd
    simp only [sent, TunnelKeys.encryption, List.length_take, plainLen, ← wf.offset] at hlen
    omega
  · intro hwhole frame hframe d hd
    have hlen := hwhole d (Outcome.mem_toOption.mpr hd)
    obtain ⟨wf, -⟩ := decode_eq_ok.mp hd
    have he := encapsulate_eq A now hc hd
    rw [he] at hframe
    cases hframe
    refine ⟨sent k now packet d, ?_, rfl, ?_, ?_⟩
    · rw [he, record_history, rotateIfDue_history]
    · rw [← wf.offset, ← plainLen_eq hd hlen]
      rfl
    · rw [← drop_offset hd hlen, ← plainLen_eq hd hlen]
      rfl

end

namespace World

variable {A : Aead} {w : World} {r : Encryption}

/-- Handing over a genuine frame is authentic. -/
lemma Inv.authentic_genuine (h : w.Inv) (hl : w.tx.SendsLow) (hr : r ∈ w.tx.history) :
    w.Authentic A r.kind r.keyId (r.body A) r.aad := by
  intro pt hpt
  rw [h.opened_genuine hl hr] at hpt
  split at hpt
  · cases hpt
    refine ⟨r, hr, ?_, ?_, rfl, rfl⟩
    · rw [h.recvCipherFor, show keyEpoch r.keyId = r.epoch from keyEpoch_keyIdFor (hl.low r hr)]
      exact h.own r hr
    · rw [bodyCounter_body]
      rfl
  · cases hpt

/-- A fresh data frame is accepted. -/
lemma Inv.deliver_fresh (h : w.Inv) (hl : w.tx.SendsLow) (hr : r ∈ w.tx.history) (hk : r.kind = .data)
    (hf : w.Fresh r) :
    (w.rx.open A r.keyId (r.body A) r.aad).2 = .ok r.msg ∧
      (w.deliver A .data r.keyId (r.body A) r.aad).1.Inv ∧
      (w.deliver A .data r.keyId (r.body A) r.aad).1.accepted = r.toAccepted :: w.accepted := by
  have hid := h.authentic_genuine (A := A) hl hr
  rw [hk] at hid
  have hexact := h.exact (A := A) hl (.open r.keyId (r.body A) r.aad) r hr hk rfl rfl rfl
  have hopenWith : w.rx.open A r.keyId (r.body A) r.aad = w.rx.openWith A .data r.keyId (r.body A) r.aad := rfl
  rw [if_pos hf, hopenWith] at hexact
  rw [hopenWith]
  obtain ⟨hinv, ⟨pt, -, -, hopen, hacc⟩ | ⟨-, ⟨x, hopen⟩, -⟩⟩ := h.deliver hid
  · rw [hopen] at hexact ⊢
    cases hexact
    refine ⟨rfl, hinv, ?_⟩
    rw [hacc, bodyCounter_body, show keyEpoch r.keyId = r.epoch from keyEpoch_keyIdFor (hl.low r hr),
      Encryption.toAccepted, hk]
  · rw [hopen] at hexact
    cases hexact

/-- The sender's epochs fit the KeyID, and what was accepted was sealed. -/
structure Carried (w : World) : Prop where
  inv : w.Inv
  low : w.tx.SendsLow
  ordered : w.tx.Ordered
  aad : ∀ r ∈ w.tx.history, r.kind = .receipt → r.aad = []
  genuine : ∀ a ∈ w.accepted, ∃ r ∈ w.tx.history, r.epoch = a.epoch ∧
    (a.kind = .data → r.kind = .data ∧ r.counter = a.counter)

section
variable {kind : FrameKind} {now : Nat} {keyId : KeyId} {body aad plaintext packet : Bytes} {d : Decoded}

lemma Carried.sealWith (h : w.Carried) (hlow : w.tx.LowEpoch now) (haad : kind = .receipt → aad = []) :
    ({ w with tx := (w.tx.sealWith A kind now aad plaintext).1 } : World).Carried where
  inv := h.inv.sealWith
  low := h.low.sealWith h.inv.tidy.cache hlow
  ordered := sealWith_ordered A h.inv.tidy h.ordered hlow.noWrap
  aad := by
    simp only [sealWith_eq A kind now aad plaintext h.inv.tidy.cache, record_history, rotateIfDue_history]
    exact List.forall_mem_cons.mpr ⟨haad, h.aad⟩
  genuine := by
    intro a ha
    obtain ⟨r, hr, hrest⟩ := h.genuine a ha
    simp only [sealWith_eq A kind now aad plaintext h.inv.tidy.cache, record_history, rotateIfDue_history]
    exact ⟨r, List.mem_cons_of_mem _ hr, hrest⟩

/-- In epochs that fit the KeyID, the next data frame is fresh. -/
lemma Carried.fresh (h : w.Carried) (hlow : w.tx.LowEpoch now) :
    ({ w with tx := (w.tx.sealWith A .data now aad plaintext).1 } : World).Fresh
      ((w.tx.rotateIfDue now).encryption .data aad plaintext) := by
  have hsealed := @Carried.sealWith A w .data now aad plaintext h hlow nofun
  have hseal : (w.tx.sealWith A .data now aad plaintext).1 =
      (w.tx.rotateIfDue now).record ((w.tx.rotateIfDue now).encryption .data aad plaintext) :=
    congrArg Prod.fst (sealWith_eq A .data now aad plaintext h.inv.tidy.cache)
  rw [hseal] at hsealed ⊢
  generalize hr : (w.tx.rotateIfDue now).encryption .data aad plaintext = r at hsealed ⊢
  have hepoch : r.epoch = (w.tx.rotateIfDue now).sendEpoch := by rw [← hr]; rfl
  have hkind : r.kind = .data := by rw [← hr]; rfl
  have hcounter : ((w.tx.rotateIfDue now).record r).tx .data = r.counter := by
    rw [record_tx_of_eq _ _ hkind.symm, ← hr]
    rfl
  have hmem : ∀ s ∈ w.tx.history, s ∈ ((w.tx.rotateIfDue now).record r).history := by
    intro s hs
    rw [record_history, rotateIfDue_history]
    exact List.mem_cons_of_mem _ hs
  have hself : r ∈ ((w.tx.rotateIfDue now).record r).history := by
    rw [record_history]
    exact List.mem_cons_self
  have hown := hsealed.inv.own
  -- every earlier encryption is of an earlier epoch or of this one
  have hpast : ∀ s ∈ w.tx.history, s.epoch.toNat < r.epoch.toNat ∨
      s.epoch = r.epoch ∧ (s.kind = .data → s.counter.toNat ≤ r.counter.toNat) := by
    intro s hs
    have hlast := hsealed.ordered.past s (hmem s hs) (by rw [hown s (hmem s hs)]; rfl)
    rw [record_sendEpoch, ← hepoch] at hlast
    rcases hlast with hlt | ⟨heq, hle⟩
    · exact .inl hlt
    · refine .inr ⟨heq, fun hdata => ?_⟩
      rw [hdata, hcounter] at hle
      exact hle
  refine ⟨?_, ?_, ?_⟩
  · intro a ha hcarries
    obtain ⟨s, hs, hse, hsd⟩ := h.genuine a ha
    obtain ⟨hak, hae, han⟩ := hcarries
    obtain ⟨hsk, hsc⟩ := hsd (hak.trans hkind)
    have hunique := hsealed.ordered.unique
    rw [NonceUnique, record_history, rotateIfDue_history, List.map_cons, List.nodup_cons] at hunique
    apply hunique.1
    refine List.mem_map.mpr ⟨s, hs, Prod.ext ?_ ?_⟩
    · rw [hown s (hmem s hs), hown r hself, hse.trans hae]
    · show s.nonce = r.nonce
      rw [← han, hak, hkind, Encryption.nonce, hsk, hsc]
  · intro a ha
    obtain ⟨s, hs, hse, -⟩ := h.genuine a ha
    rw [← hse]
    rcases hpast s hs with hlt | ⟨heq, -⟩
    · exact (Nat.le_of_lt hlt).trans (Nat.le_add_right _ _)
    · exact (Nat.le_of_eq (congrArg UInt64.toNat heq)).trans (Nat.le_add_right _ _)
  · intro a ha hak hae
    obtain ⟨s, hs, hse, hsd⟩ := h.genuine a ha
    obtain ⟨hsk, hsc⟩ := hsd hak
    rcases hpast s hs with hlt | ⟨-, hle⟩
    · rw [hse, hae] at hlt
      exact absurd hlt (Nat.lt_irrefl _)
    · rw [← hsc]
      exact Nat.lt_of_le_of_lt (hle hsk) (Nat.lt_add_of_pos_right (by decide))

/-- The network hands over a frame, a data frame with a header in the clear. -/
lemma Carried.deliver (h : w.Carried) (hid : w.Authentic A kind keyId body aad) (haad : kind = .data → aad ≠ []) :
    (w.deliver A kind keyId body aad).1.Carried := by
  obtain ⟨hinv, hacc⟩ := h.inv.deliver hid
  refine ⟨hinv, h.low, h.ordered, h.aad, ?_⟩
  rcases hacc with ⟨pt, ho, -, -, hacc⟩ | ⟨-, -, hacc⟩
  · rw [hacc]
    refine List.forall_mem_cons.mpr ⟨?_, h.genuine⟩
    obtain ⟨r, hr, hcipher, hnonce, hra, -⟩ := hid pt ho
    refine ⟨r, hr, ?_, fun hkind => ?_⟩
    · rw [h.inv.own r hr, h.inv.recvCipherFor, cipherFor_inj] at hcipher
      exact hcipher.2.2.1
    · have hdata : r.kind = .data := by
        cases hk : r.kind with
        | data => rfl
        | receipt => exact absurd (hra.symm.trans (h.aad r hr hk)) (haad hkind)
      rw [Encryption.nonce, hdata, show kind = .data from hkind] at hnonce
      exact ⟨hdata, nonceFor_injective hnonce⟩
  · rw [hacc]
    exact h.genuine

/-- A whole packet in an epoch that fits the KeyID comes out at the receiver. -/
theorem Carried.transfer (h : w.Carried) (hd : decode packet = .ok d) (hwhole : packet.length = d.consumed)
    (hlow : w.tx.LowEpoch now) :
    let r := sent w.tx now packet d
    (decapsulate A w.rx (r.frame A)).2 = .ok packet ∧
      (World.mk (encapsulate A w.tx now packet).1 (decapsulate A w.rx (r.frame A)).1
        (r.toAccepted :: w.accepted)).Carried := by
  intro r
  have hseal : (encapsulate A w.tx now packet).1 = (w.tx.sealWith A .data now (packet.take (plainLen packet d))
      (packet.drop (plainLen packet d))).1 := encapsulate_tx hd
  have hsealed := @Carried.sealWith A w .data now (packet.take (plainLen packet d)) (packet.drop (plainLen packet d)) h
    hlow nofun
  have hfresh := @Carried.fresh A w now (packet.take (plainLen packet d)) (packet.drop (plainLen packet d)) h hlow
  have hmem : r ∈ (w.tx.sealWith A .data now (packet.take (plainLen packet d)) (packet.drop (plainLen packet d))).1.history := by
    rw [sealWith_eq A .data now _ _ h.inv.tidy.cache]
    exact List.mem_cons_self
  obtain ⟨hopen, -, hacc⟩ := @Inv.deliver_fresh A _ r hsealed.inv hsealed.low hmem rfl hfresh
  have hopen : (w.rx.open A r.keyId (r.body A) r.aad).2 = .ok r.msg := hopen
  have hid := @Inv.authentic_genuine A _ r hsealed.inv hsealed.low hmem
  rw [show r.kind = .data from rfl] at hid
  have haad : r.aad ≠ [] := by
    intro hnil
    have hlen := congrArg List.length hnil
    obtain ⟨wf, -⟩ := decode_eq_ok.mp hd
    rw [aad_sent _ _ hd hwhole, length_take_offset hd, wf.offset, baseHeaderSize, List.length_nil] at hlen
    omega
  have hdelivered := hsealed.deliver hid fun _ => haad
  rw [decapsulate_frame hd (aad_sent _ _ hd hwhole) (msg_sent _ _ hd hwhole), hseal]
  refine ⟨?_, ?_⟩
  · rw [hopen, aad_sent _ _ hd hwhole, msg_sent _ _ hd hwhole, ← drop_offset hd hwhole]
    exact congrArg Outcome.ok (List.take_append_drop _ _)
  · rw [← hacc]
    exact hdelivered

end

end World

/-- What one end sends. -/
def send (A : Aead) (keys : TunnelKeys) (c : Nat × Bytes) : TunnelKeys × Outcome FrameError Bytes :=
  encapsulate A keys c.1 c.2

/-- The two ends, with every frame handed over as soon as it is made. -/
structure Link where
  tx : TunnelKeys
  rx : TunnelKeys

namespace Link

variable (A : Aead)

def transfer (w : Link) (c : Nat × Bytes) : Link × Outcome FrameError Bytes :=
  let (tx, x) := encapsulate A w.tx c.1 c.2
  match x with
  | .ok frame =>
    let (rx, y) := decapsulate A w.rx frame
    ({ tx, rx }, y)
  | .err e => ({ w with tx }, .err e)
  | .panic => ({ w with tx }, .panic)

/-- The AEAD is ideal at the frame of this packet. -/
def Ideal (w : Link) (c : Nat × Bytes) : Prop :=
  ∀ frame ∈ (encapsulate A w.tx c.1 c.2).2.toOption, ∀ head ∈ (parseHead frame).toOption,
    ∀ d ∈ (decode (frame.drop frameHeaderSize)).toOption,
      (World.mk (encapsulate A w.tx c.1 c.2).1 w.rx []).Authentic A .data head.keyId
        ((frame.drop frameHeaderSize).drop d.offset) ((frame.drop frameHeaderSize).take d.offset)

instance (w : Link) (c : Nat × Bytes) : Decidable (w.Ideal A c) := inferInstanceAs (Decidable (∀ _ ∈ _, _))

/-- Sender, receiver and network: every frame sent was accepted. -/
def world (w : Link) : World where
  tx := w.tx
  rx := w.rx
  accepted := w.tx.history.map Encryption.toAccepted

/-- What holds between packets. -/
structure Inv (w : Link) : Prop where
  world : w.world.Inv
  low : w.tx.SendsLow
  ordered : w.tx.Ordered
  data : ∀ r ∈ w.tx.history, r.kind = .data
  epoch : w.tx.sendEpoch = w.tx.shard ∨ w.tx.sendEpoch.toNat < 2 ^ 56

variable {A} {w : Link} {now : Nat} {packet frame : Bytes} {d : Decoded}

lemma transfer_ok {c : Nat × Bytes} (h : (encapsulate A w.tx c.1 c.2).2 = .ok frame) :
    w.transfer A c = (⟨(encapsulate A w.tx c.1 c.2).1, (decapsulate A w.rx frame).1⟩, (decapsulate A w.rx frame).2) := by
  unfold transfer
  generalize encapsulate A w.tx c.1 c.2 = x at h ⊢
  rcases x with ⟨tx, x⟩
  cases h
  rfl

lemma tx_transfer (w : Link) (c : Nat × Bytes) : (w.transfer A c).1.tx = (encapsulate A w.tx c.1 c.2).1 := by
  unfold transfer
  generalize encapsulate A w.tx c.1 c.2 = x
  rcases x with ⟨tx, frame | e | _⟩
  · rfl
  · rfl
  · rfl

lemma inv_start {tx rx : TunnelKeys} (h : Peers tx rx) : (Link.mk tx rx).Inv where
  world := by
    have hempty : (Link.mk tx rx).world = World.start tx rx := by
      unfold Link.world
      rw [show (Link.mk tx rx).tx.history = [] from h.tx_built.unused.history]
      rfl
    rw [hempty]
    exact World.inv_start h
  low := h.tx_built.unused.sendsLow
  ordered := h.tx_built.unused.ordered
  data := by
    rw [show (Link.mk tx rx).tx.history = [] from h.tx_built.unused.history]
    exact nofun
  epoch := .inl h.tx_built.unused.sendEpoch

/-- The world once the packet is sealed, before its frame is handed over. -/
def sealed (A : Aead) (w : Link) (now : Nat) (packet : Bytes) : World where
  tx := (encapsulate A w.tx now packet).1
  rx := w.rx
  accepted := w.tx.history.map Encryption.toAccepted

lemma Inv.cache (h : w.Inv) : w.tx.CacheOk := h.world.tidy.cache

lemma sealed_eq (hd : decode packet = .ok d) :
    w.sealed A now packet =
      { w.world with tx := (w.tx.sealWith A .data now (packet.take (plainLen packet d))
          (packet.drop (plainLen packet d))).1 } := by
  unfold sealed
  rw [encapsulate_tx hd]
  rfl

lemma Inv.tx_sealed (h : w.Inv) (hd : decode packet = .ok d) :
    (w.sealed A now packet).tx = (w.tx.rotateIfDue now).record (sent w.tx now packet d) :=
  congrArg Prod.fst (encapsulate_eq _ _ h.cache hd)

lemma Inv.history_sealed (A : Aead) (now : Nat) (h : w.Inv) (hd : decode packet = .ok d) :
    (w.sealed A now packet).tx.history = sent w.tx now packet d :: w.tx.history := by
  rw [h.tx_sealed hd, record_history, rotateIfDue_history]

lemma Inv.sealed (A : Aead) (now : Nat) (h : w.Inv) (hd : decode packet = .ok d) : (w.sealed A now packet).Inv := by
  rw [sealed_eq hd]
  exact h.world.sealWith

lemma Inv.carried (h : w.Inv) : w.world.Carried where
  inv := h.world
  low := h.low
  ordered := h.ordered
  aad := by
    intro r hr hkind
    rw [h.data r hr] at hkind
    cases hkind
  genuine := by
    intro a ha
    obtain ⟨r, hr, rfl⟩ := List.mem_map.mp ha
    exact ⟨r, hr, rfl, fun hkind => ⟨hkind, rfl⟩⟩

/-- What the transfer of a whole packet comes down to. -/
lemma Inv.transfer_eq (h : w.Inv) (hd : decode packet = .ok d) (hwhole : packet.length = d.consumed) :
    let r := sent w.tx now packet d
    let opened := w.rx.open A r.keyId (r.body A) r.aad
    w.transfer A (now, packet) =
      (⟨(w.sealed A now packet).tx, opened.1⟩,
        match opened.2 with
        | .error e => .err e
        | .ok secret => .ok (r.aad ++ secret)) := by
  have he := encapsulate_eq A now h.cache hd
  rw [transfer_ok (congrArg Prod.snd he),
    decapsulate_frame hd (aad_sent _ _ hd hwhole) (msg_sent _ _ hd hwhole)]
  rfl

/-- A whole packet in an epoch that fits the KeyID comes out at the peer. -/
theorem Inv.transfer (h : w.Inv) (hd : decode packet = .ok d) (hwhole : packet.length = d.consumed)
    (hlow : w.tx.LowEpoch now) :
    (w.transfer A (now, packet)).2 = .ok packet ∧ (w.transfer A (now, packet)).1.Inv := by
  have he := encapsulate_eq A now h.cache hd
  have hhistory : (encapsulate A w.tx now packet).1.history = sent w.tx now packet d :: w.tx.history := by
    rw [he, record_history, rotateIfDue_history]
  obtain ⟨hok, hcarried⟩ := @World.Carried.transfer A w.world now packet d h.carried hd hwhole hlow
  rw [transfer_ok (congrArg Prod.snd he)]
  refine ⟨hok, ?_, hcarried.low, hcarried.ordered, ?_, ?_⟩
  · have hworld := hcarried.inv
    unfold Link.world
    dsimp only
    rw [hhistory]
    exact hworld
  · show ∀ r ∈ (encapsulate A w.tx now packet).1.history, r.kind = .data
    rw [hhistory]
    exact List.forall_mem_cons.mpr ⟨rfl, h.data⟩
  · right
    show (encapsulate A w.tx now packet).1.sendEpoch.toNat < 2 ^ 56
    rw [he, record_sendEpoch]
    exact hlow.sendEpoch_lt

/-- An epoch that does not fit the KeyID is not the one the KeyID names, or not of the shard. -/
lemma Inv.keyEpoch_ne (h : w.Inv) (hhigh : ¬ w.tx.LowEpoch now) (hpass : w.rx.Passes (sent w.tx now packet d).keyId) :
    keyEpoch (sent w.tx now packet d).keyId ≠ (sent w.tx now packet d).epoch := by
  intro heq
  obtain ⟨-, hshard, -⟩ := hpass
  have hconfig := h.world.config
  simp only [config, Prod.mk.injEq] at hconfig
  obtain ⟨-, -, -, hshard', hstride'⟩ := hconfig
  have hlow := congrArg UInt64.toNat heq
  rw [Encryption.keyId, toNat_keyEpoch_keyIdFor] at hlow
  rw [heq] at hshard
  have hmod := congrArg UInt64.toNat hshard
  rw [UInt64.toNat_mod, show w.rx.stride = w.tx.stride from hstride', show w.rx.shard = w.tx.shard from hshard'] at hmod
  have hresidue := h.low.residue
  have hpos := h.ordered.stride_pos
  have hepoch := h.epoch
  have he := w.tx.sendEpoch.toNat_lt
  have hs := w.tx.stride.toNat_lt
  unfold LowEpoch at hhigh
  rcases w.tx.rotateIfDue_cases now with ⟨hdue, e⟩ | ⟨hdue, e⟩
  · have hE : (sent w.tx now packet d).epoch = w.tx.sendEpoch := congrArg TunnelKeys.sendEpoch e
    rw [if_neg hdue] at hhigh
    rw [hE] at hlow
    omega
  · have hE : (sent w.tx now packet d).epoch = w.tx.sendEpoch + w.tx.stride := congrArg TunnelKeys.sendEpoch e
    rw [if_pos hdue] at hhigh
    rw [hE, UInt64.toNat_add] at hlow hmod
    -- the epoch wrapped around, so it is less than the stride and would be the shard itself
    have hge : 2 ^ 64 ≤ w.tx.sendEpoch.toNat + w.tx.stride.toNat := by omega
    have hwrapped : (w.tx.sendEpoch.toNat + w.tx.stride.toNat) % 2 ^ 64 =
        w.tx.sendEpoch.toNat + w.tx.stride.toNat - 2 ^ 64 := by omega
    rw [hwrapped, Nat.mod_eq_of_lt (by omega)] at hmod
    rcases hepoch with hepoch | hepoch
    · rw [hepoch] at hmod hge
      omega
    · rw [Nat.mod_eq_of_lt (by omega)] at hresidue
      omega

/-- A whole packet in an epoch that does not fit the KeyID does not come out. -/
theorem Inv.not_transfer (h : w.Inv) (hd : decode packet = .ok d) (hwhole : packet.length = d.consumed)
    (hideal : w.Ideal A (now, packet)) (hhigh : ¬ w.tx.LowEpoch now) : (w.transfer A (now, packet)).2 ≠ .ok packet := by
  have haad := aad_sent w.tx now hd hwhole
  have hmsg := msg_sent w.tx now hd hwhole
  have he := encapsulate_eq A now h.cache hd
  have hid : (w.sealed A now packet).Authentic A .data (sent w.tx now packet d).keyId
      ((sent w.tx now packet d).body A) (sent w.tx now packet d).aad := by
    have hdecode := decode_body (A := A) hd haad hmsg
    rw [← drop_frame] at hdecode
    have hframe := hideal _ (Outcome.mem_toOption.mpr (congrArg Prod.snd he)) _
      (Outcome.mem_toOption.mpr (parseHead_frame _)) _ (Outcome.mem_toOption.mpr hdecode)
    have hlen : (sent w.tx now packet d).aad.length = d.offset := by rw [haad, length_take_offset hd]
    dsimp only at hframe
    rw [drop_frame, List.drop_left' hlen, List.take_left' hlen] at hframe
    exact hframe
  rw [h.transfer_eq hd hwhole]
  rcases (h.sealed A now hd).deliver hid with ⟨-, ⟨pt, hopened, hadm, -⟩ | ⟨-, ⟨x, hopen⟩, -⟩⟩
  · obtain ⟨s, hs, hcipher, hnonce, -⟩ := hid pt hopened
    have hinv := h.sealed A now hd
    have hepoch : s.epoch = keyEpoch (sent w.tx now packet d).keyId := by
      rw [hinv.own s hs, hinv.recvCipherFor, cipherFor_inj] at hcipher
      exact hcipher.2.2.1
    rw [h.history_sealed A now hd] at hs
    rcases List.mem_cons.mp hs with rfl | hs
    · have hpass : w.rx.Passes (sent w.tx now packet d).keyId := by
        unfold opened at hopened
        split at hopened
        · next hp => exact hp.2
        · cases hopened
      exact absurd hepoch.symm (h.keyEpoch_ne hhigh hpass)
    · -- an earlier encryption, but its frame was accepted already
      have hcounter : s.counter = bodyCounter ((sent w.tx now packet d).body A) := by
        rw [Encryption.nonce, h.data s hs] at hnonce
        exact nonceFor_injective hnonce
      refine absurd ⟨s.toAccepted, List.mem_map.mpr ⟨s, hs, rfl⟩, h.data s hs, hepoch, ?_⟩ hadm.1
      exact congrArg UInt64.toNat hcounter
  · have hopen' : (w.rx.open A (sent w.tx now packet d).keyId ((sent w.tx now packet d).body A)
        (sent w.tx now packet d).aad).2 = .error x := hopen
    simp only [hopen']
    intro h
    cases h

/-- A condition on the sender alone. -/
lemma along_tx (rx : TunnelKeys) {P : TunnelKeys → Nat × Bytes → Prop} {tx : TunnelKeys}
    {packets : List (Nat × Bytes)} :
    Along (send A) P tx packets ↔ Along (Link.transfer A) (fun w c => P w.tx c) ⟨tx, rx⟩ packets :=
  along_map Link.tx (s := ⟨tx, rx⟩) fun w c => (tx_transfer w c).symm

end Link

/-- Handing over every frame at once or all frames at the end makes no difference. -/
lemma run_transfer {A : Aead} {tx : TunnelKeys} (rx : TunnelKeys) {packets : List (Nat × Bytes)} {frames : List Bytes}
    (hok : (run (send A) tx packets).2 = frames.map .ok) :
    (run (Link.transfer A) ⟨tx, rx⟩ packets).2 = (run (decapsulate A) rx frames).2 := by
  induction packets generalizing tx rx frames with
  | nil =>
    cases frames with
    | nil => rfl
    | cons frame frames => cases hok
  | cons c packets ih =>
    cases frames with
    | nil => cases hok
    | cons frame frames =>
      obtain ⟨hframe, hrest⟩ := List.cons_eq_cons.mp hok
      rw [run_cons, run_cons, Link.transfer_ok (w := ⟨tx, rx⟩) hframe]
      exact congrArg _ (ih _ hrest)

/-- With an ideal AEAD, the packets that were sent come out at the peer in order, and only header and chain go in
the clear, exactly if nothing stands behind the payload of any packet and all epochs fit the KeyID. -/
theorem encapsulate_roundTrip (A : Aead) {tx rx : TunnelKeys} (h : Peers tx rx) {packets : List (Nat × Bytes)}
    {frames : List Bytes} (hok : (run (send A) tx packets).2 = frames.map .ok)
    (hideal : Along (Link.transfer A) (Link.Ideal A) ⟨tx, rx⟩ packets) :
    ((run (decapsulate A) rx frames).2 = packets.map (fun c => .ok c.2) ∧ Along (send A) (ClearHead A) tx packets) ↔
      Along (send A) (fun k c => Whole c.2 ∧ k.LowEpoch c.1) tx packets := by
  have hall : ∀ x ∈ (run (send A) tx packets).2, ∃ frame, x = .ok frame := by
    rw [hok]
    intro x hx
    obtain ⟨frame, -, rfl⟩ := List.mem_map.mp hx
    exact ⟨frame, rfl⟩
  have hsent : Along (send A) (fun k c => ∃ frame, (send A k c).2 = .ok frame) tx packets := along_answer.mpr hall
  rw [Link.along_tx rx] at hsent
  rw [← run_transfer rx hok, ← along_answer_eq, Link.along_tx rx, Link.along_tx rx, ← along_and]
  apply Iff.symm
  apply along_congr (I := Link.Inv) (along_and.mpr ⟨hsent, hideal⟩)
  · rintro w ⟨now, packet⟩ hw ⟨⟨frame, hframe⟩, -⟩ ⟨hwhole, hlow⟩
    obtain ⟨d, hd⟩ := exists_decode hframe
    exact (hw.transfer hd (hwhole d (Outcome.mem_toOption.mpr hd)) hlow).2
  · rintro w ⟨now, packet⟩ hw ⟨⟨frame, hframe⟩, hid⟩
    obtain ⟨d, hd⟩ := exists_decode hframe
    rw [clearHead_iff hw.cache]
    constructor
    · rintro ⟨hwhole, hlow⟩
      exact ⟨(hw.transfer hd (hwhole d (Outcome.mem_toOption.mpr hd)) hlow).1, hwhole⟩
    · rintro ⟨hout, hwhole⟩
      refine ⟨hwhole, ?_⟩
      by_contra hhigh
      exact hw.not_transfer hd (hwhole d (Outcome.mem_toOption.mpr hd)) hid hhigh hout
  · exact Link.inv_start h

/-- A packet of 40 bytes of header and the payload, with more bytes behind it. -/
def samplePacket (payload behind : Bytes) : Bytes :=
  (IPv8Header.new ⟨0xFB14, 0, 0, 0, 0, 0, 0, 0⟩ ⟨0xFB14, 0, 0, 0, 0, 0, 0, 1⟩
    (UInt16.ofNat payload.length)).headBytes 0 ++ payload ++ behind

/-- One byte behind the payload: the first byte of the payload goes in the clear, and the peer refuses the frame. -/
theorem encapsulate_trailing_byte :
    let tx := TunnelKeys.new 0 (sampleDh 7) true
    let rx := TunnelKeys.new 0 (sampleDh 7) false
    let frame := ((encapsulate sampleAead tx 0 (samplePacket [7, 9] [1])).2.toOption).getD []
    (decode (samplePacket [7, 9] [1])).toOption.map (fun d => (d.offset, d.payload)) = some (40, [7, 9]) ∧
      (run (send sampleAead) tx [(0, samplePacket [7, 9] [1])]).2 = [frame].map .ok ∧
      Along (Link.transfer sampleAead) (Link.Ideal sampleAead) ⟨tx, rx⟩ [(0, samplePacket [7, 9] [1])] ∧
      (frame.drop (frameHeaderSize + 40)).take 1 = [7] ∧
      (run (decapsulate sampleAead) rx [frame]).2 = [.err .decryptFailed] :=
  ⟨by decide +kernel, by decide +kernel, by decide +kernel, by decide +kernel, by decide +kernel⟩

/-- Three packets, the last one after a rotation. -/
theorem encapsulate_roundTrip_sample :
    let tx := TunnelKeys.new 0 (sampleDh 7) true
    let rx := TunnelKeys.new 0 (sampleDh 7) false
    let packets := [(0, samplePacket [7, 9] []), (0, samplePacket [] []), (hours 1, samplePacket [8] [])]
    let frames := (run (send sampleAead) tx packets).2.filterMap (·.toOption)
    (run (decapsulate sampleAead) rx frames).2 = packets.map (fun c => .ok c.2) ∧
      Along (send sampleAead) (ClearHead sampleAead) tx packets :=
  (encapsulate_roundTrip sampleAead ⟨.new 0 (sampleDh 7) true, .new 0 (sampleDh 7) false, rfl⟩ (by decide +kernel)
    (by decide +kernel)).mpr (by decide +kernel)

end IPv8Plus.Tunnel
