import IPv8Plus.Fec.DataCounter
import IPv8Plus.Observe.Window
import IPv8Plus.Tunnel.EncapsulateRoundTrip

/-!
# The counter of a frame, read by three parsers

`encapsulate` writes the counter behind the clear part of a frame. Observation looks for it behind the
extension chain, error correction 24 bytes before the end, as if the ciphertext were a tag only. So the two
agree on the frames of packets without payload.
-/

namespace IPv8Plus.Observe
open Lib Codec Tunnel

/-! ## The chain walk -/

section
variable {body rest : Bytes} {cursor i : Nat} {seen : List UInt8} {chain : List ExtensionHeader}

/-- One round of the walk, once the two bytes at the cursor are known. -/
lemma chainEnd_step {cur ptr len : UInt8} (hd : body.drop cursor = ptr :: len :: rest) (hs : cur ∉ seen) (hlen : len ≠ 0)
    (hrest : len.toNat * 8 ≤ rest.length) :
    chainEnd body cursor cur seen =
      if ptr = 0 then some (cursor + 2 + len.toNat * 8)
      else chainEnd body (cursor + 2 + len.toNat * 8) ptr (seen ++ [cur]) := by
  have hl : body.length = cursor + 2 + rest.length := by
    have e := congrArg List.length hd
    simp only [List.length_drop, List.length_cons] at e
    omega
  have h0 : body.getD cursor 0 = ptr := by
    have e := congrArg (·.getD 0 0) hd
    simpa using e
  have h1 : body.getD (cursor + 1) 0 = len := by
    have e := congrArg (·.getD 1 0) hd
    simpa using e
  rw [chainEnd, if_neg (not_or.mpr ⟨by omega, hs⟩), h0, h1, if_neg hlen, dif_neg (by omega)]

/-- The walk finds the end of a chain that stands at the cursor. -/
lemma chainEnd_complete (ok : ChainOk seen i chain) (hd : body.drop cursor = chainBytes chain ++ rest) :
    chainEnd body cursor (firstWire chain) seen = some (cursor + chainSize chain) := by
  induction chain generalizing cursor seen i with
  | nil => exact absurd rfl ok.ne_nil
  | cons e chain ih =>
    have wf := ok.wf e List.mem_cons_self
    have hlen := wf.extLen_toNat
    simp only [chainBytes, List.cons_append, List.append_assoc] at hd
    have hroom : e.extLen.toNat * 8 ≤ (e.payload ++ (chainBytes chain ++ rest)).length := by
      rw [hlen, List.length_append]
      exact Nat.le_add_right _ _
    rw [firstWire, chainEnd_step hd (ok.fresh e List.mem_cons_self) wf.extLen_ne_zero hroom, hlen]
    cases chain with
    | nil =>
      rw [firstWire, if_pos rfl, chainSize_cons, chainSize_nil, ExtensionHeader.wireSize, Nat.add_assoc]
      rfl
    | cons e' chain =>
      have hne : firstWire (e' :: chain) ≠ 0 := (ok.wf e' (List.mem_cons_of_mem _ List.mem_cons_self)).wire_ne_zero
      have hd' : body.drop (cursor + 2 + e.payload.length) = chainBytes (e' :: chain) ++ rest := by
        rw [Nat.add_assoc, ← List.drop_drop, hd, Nat.add_comm 2]
        exact List.drop_left
      rw [if_neg hne, ih ok.tail hd', chainSize_cons _ (e' :: chain), ExtensionHeader.wireSize, Nat.add_assoc, Nat.add_assoc,
        Nat.add_assoc]

/-- Where the decoder finds the payload, observation looks for the counter. -/
lemma plainSegmentLen_of_decode {d : Decoded} (h : Codec.decode body = .ok d) : plainSegmentLen body = some d.offset := by
  obtain ⟨wf, pad, rest, rfl⟩ := decode_eq_ok.mp h
  have hlen : baseHeaderSize ≤ (d.header.headBytes pad ++ (chainBytes d.header.extHeaders ++ (d.payload ++ rest))).length := by
    rw [List.length_append, IPv8Header.length_headBytes]
    exact Nat.le_add_right _ _
  have hnext : (d.header.headBytes pad ++ (chainBytes d.header.extHeaders ++ (d.payload ++ rest))).getD 6 0 =
      firstWire d.header.extHeaders := wf.next
  have hdrop : (d.header.headBytes pad ++ (chainBytes d.header.extHeaders ++ (d.payload ++ rest))).drop baseHeaderSize =
      chainBytes d.header.extHeaders ++ (d.payload ++ rest) := drop_head_chain d.header pad [] _
  rw [plainSegmentLen, if_neg (Nat.not_lt.mpr hlen)]
  dsimp only
  rw [hnext, wf.offset]
  cases hchain : d.header.extHeaders with
  | nil => rfl
  | cons e chain =>
    rw [hchain] at hdrop
    have hne : firstWire (e :: chain) ≠ 0 := by
      apply (wf.chain e _).wire_ne_zero
      rw [hchain]
      exact List.mem_cons_self
    have hcount := wf.count
    have ok : ChainOk [] 0 (e :: chain) := by
      rw [← hchain]
      refine ⟨?_, wf.chain, wf.nodup, fun _ _ => List.not_mem_nil, ?_⟩
      · rw [hchain]
        exact List.cons_ne_nil _ _
      · rw [Nat.zero_add]
        exact hcount
    rw [if_neg hne]
    exact chainEnd_complete ok hdrop

end

/-! ## Frames -/

section
variable {A : Aead} {k : TunnelKeys} {now : Nat} {packet : Bytes} {d : Decoded}

lemma sendEpochReady_txCounter (k : TunnelKeys) (now : Nat) :
    (k.sendEpochReady now).1.txCounter = (k.rotateIfDue now).txCounter := by
  unfold TunnelKeys.sendEpochReady
  dsimp only
  split
  · split
    · rfl
    · rfl
  · rfl

/-- The counter that the next data frame is sealed under. -/
def nextCounter (k : TunnelKeys) (now : Nat) : UInt64 := (k.rotateIfDue now).txCounter + 1

/-- The bytes behind header, chain and payload of a packet that `encapsulate` leaves in the clear part. -/
def overhang (packet : Bytes) (d : Decoded) : Bytes := (packet.drop d.offset).take (plainLen packet d - d.offset)

lemma offset_le_plainLen (h : Codec.decode packet = .ok d) : d.offset ≤ plainLen packet d := by
  have hle := decode_consumed_le h
  rw [consumed_eq h] at hle
  rw [plainLen]
  omega

/-- The counter and the parts of a sealed body. -/
lemma exists_body (A : Aead) (k : TunnelKeys) (now : Nat) (aad msg : Bytes) :
    (k.seal A now aad msg).1.txCounter = nextCounter k now ∧ ∃ keyId cipher, (k.seal A now aad msg).2 =
      (keyId, be64 (nextCounter k now) ++ A.encrypt cipher (nonceFor (nextCounter k now)) aad msg) := by
  have hcounter : (k.sendEpochReady now).1.txCounter + 1 = nextCounter k now := by
    rw [sendEpochReady_txCounter, nextCounter]
  unfold TunnelKeys.seal TunnelKeys.sealWith
  generalize k.sendEpochReady now = r at hcounter
  obtain ⟨k', cipher⟩ := r
  dsimp only [TunnelKeys.bump, TunnelKeys.tx, FrameKind.nonce] at hcounter ⊢
  rw [hcounter]
  exact ⟨rfl, _, cipher, rfl⟩

/-- Without a payload, all that stands behind the chain is left in the clear part. -/
lemma overhang_of_nil (hnil : d.payload = []) : overhang packet d = packet.drop d.offset := by
  rw [overhang, plainLen, hnil, List.length_nil, Nat.sub_zero]
  apply List.take_of_length_le
  rw [List.length_drop]

/-- The parts of a frame. -/
lemma exists_frame (A : Aead) (k : TunnelKeys) (now : Nat) (h : Codec.decode packet = .ok d) :
    (encapsulate A k now packet).1.txCounter = nextCounter k now ∧ ∃ keyId cipher,
      (encapsulate A k now packet).2 = .ok (writeHead [] .data keyId ++ ((packet.take d.offset ++ overhang packet d) ++
        (be64 (nextCounter k now) ++ A.encrypt cipher (nonceFor (nextCounter k now)) (packet.take (plainLen packet d))
          (packet.drop (plainLen packet d))))) := by
  have hclear : packet.take (plainLen packet d) = packet.take d.offset ++ overhang packet d := by
    have hsplit : plainLen packet d = d.offset + (plainLen packet d - d.offset) :=
      (Nat.add_sub_of_le (offset_le_plainLen h)).symm
    rw [overhang, ← List.take_add, ← hsplit]
  obtain ⟨hcounter, keyId, cipher, hbody⟩ :=
    exists_body A k now (packet.take (plainLen packet d)) (packet.drop (plainLen packet d))
  refine ⟨?_, keyId, cipher, ?_⟩
  · rw [encapsulate_tx h, hcounter]
  · rw [← hclear, ← List.append_assoc]
    unfold encapsulate
    rw [h]
    dsimp only [Outcome.mapErr_ok]
    rw [congrArg Prod.fst hbody, congrArg Prod.snd hbody]

lemma ofBe64_eq_iff {b : Bytes} {c : UInt64} (h : b.length = 8) : ofBe64 b = c ↔ b = be64 c := by
  constructor
  · rintro rfl
    exact (be64_ofBe64 h).symm
  · rintro rfl
    exact ofBe64_be64 c

/-- Error correction reads the counter as many bytes too late as the ciphertext is longer than its tag. -/
lemma dataCounter_append {clear counter ct : Bytes} {n : Nat} (hclear : frameHeaderLen + Codec.baseHeaderSize ≤ clear.length)
    (hcounter : counter.length = 8) (hct : ct.length = n + tagSize) :
    Fec.dataCounter (clear ++ (counter ++ ct)) = .ok (ofBe64 (((counter ++ ct).drop n).take 8)) := by
  have hlen : (clear ++ (counter ++ ct)).length = clear.length + (8 + (n + tagSize)) := by
    rw [List.length_append, List.length_append, hcounter, hct]
  have hmin : ¬ (clear ++ (counter ++ ct)).length < Fec.dataMinFrame := by
    rw [hlen, Fec.dataMinFrame, tagSize]
    rw [frameHeaderLen, Codec.baseHeaderSize] at hclear
    omega
  have htail : (clear ++ (counter ++ ct)).length - Fec.counterFromEnd = clear.length + n := by
    rw [hlen, Fec.counterFromEnd, tagSize]
    omega
  rw [Fec.dataCounter_eq, if_neg hmin, htail, ← List.drop_drop, List.drop_left]

/-- Observation reads what stands behind the chain. -/
lemma frameMeta_append {behind : Bytes} (keyId : KeyId) (h : Codec.decode packet = .ok d)
    (hbehind : d.payload.length + 24 ≤ behind.length) :
    frameMeta (writeHead [] .data keyId ++ (packet.take d.offset ++ behind)) =
      some (ofBe64 keyId.val, ofBe64 (behind.take 8)) := by
  have hlen := length_take_offset h
  have hd := decode_take_offset h ((Nat.le_add_right _ 24).trans hbehind)
  have hhead : (writeHead [] .data keyId).length = frameHeaderLen := (length_writeHead _ _ _).trans (Nat.zero_add _)
  have hbody : (writeHead [] .data keyId ++ (packet.take d.offset ++ behind)).drop frameHeaderLen =
      packet.take d.offset ++ behind := List.drop_left' hhead
  have hfound : (writeHead [] .data keyId ++ (packet.take d.offset ++ behind)).drop (frameHeaderLen + d.offset) = behind := by
    rw [← List.drop_drop, hbody]
    exact List.drop_left' hlen
  have hkey : ((writeHead [] .data keyId ++ (packet.take d.offset ++ behind)).drop 2).take 8 = keyId.val :=
    List.take_left' keyId.property
  have htotal : (writeHead [] .data keyId ++ (packet.take d.offset ++ behind)).length =
      frameHeaderLen + (d.offset + behind.length) := by
    rw [List.length_append, List.length_append, hhead, hlen]
  have hmin : Codec.baseHeaderSize ≤ d.offset := by
    obtain ⟨wf, -⟩ := decode_eq_ok.mp h
    rw [wf.offset]
    exact Nat.le_add_right _ _
  have hguard : ¬ ((writeHead [] .data keyId ++ (packet.take d.offset ++ behind)).length < dataMinFrame ∨
      (writeHead [] .data keyId ++ (packet.take d.offset ++ behind))[0]? ≠ some tunnelVersion ∨
      (writeHead [] .data keyId ++ (packet.take d.offset ++ behind))[1]? ≠ some dataFrameType) := by
    rw [not_or, not_or, not_not, not_not, htotal]
    refine ⟨?_, rfl, rfl⟩
    rw [Codec.baseHeaderSize] at hmin
    rw [frameHeaderLen, dataMinFrame]
    omega
  rw [frameMeta, if_neg hguard, hbody, plainSegmentLen_of_decode hd]
  dsimp only [Option.bind_eq_bind, Option.bind_some]
  rw [if_neg (by rw [htotal]; omega), hkey, hfound]

end

/-! ## The counter found by all -/

/-- Error correction and observation find the counter of the frame that the packet goes out in, and observation its
KeyID. -/
def CounterFound (A : Aead) (k : TunnelKeys) (now : Nat) (packet : Bytes) : Prop :=
  ∀ frame, (encapsulate A k now packet).2 = .ok frame →
    Fec.dataCounter frame = .ok (encapsulate A k now packet).1.txCounter ∧
      ∃ keyId, parseHead frame = .ok ⟨.data, keyId⟩ ∧
        frameMeta frame = some (ofBe64 keyId.val, (encapsulate A k now packet).1.txCounter)

section
variable {A : Aead} {k : TunnelKeys} {now : Nat} {packet : Bytes} {d : Decoded}

/-- What the parsers find, for one AEAD. -/
lemma counterFound_iff (A : Aead) (k : TunnelKeys) (now : Nat) (h : Codec.decode packet = .ok d) :
    ∃ cipher, CounterFound A k now packet ↔
      ((be64 (nextCounter k now) ++ A.encrypt cipher (nonceFor (nextCounter k now)) (packet.take (plainLen packet d))
          (packet.drop (plainLen packet d))).drop d.payload.length).take 8 = be64 (nextCounter k now) ∧
        (overhang packet d ++ be64 (nextCounter k now)).take 8 = be64 (nextCounter k now) := by
  obtain ⟨hcounter, keyId, cipher, hframe⟩ := exists_frame A k now h
  have hle := decode_consumed_le h
  have hlen := length_take_offset h
  have hoffset := consumed_eq h
  have hct := A.length_encrypt cipher (nonceFor (nextCounter k now)) (packet.take (plainLen packet d))
    (packet.drop (plainLen packet d))
  have hsecret : (packet.drop (plainLen packet d)).length = d.payload.length := by
    rw [List.length_drop, plainLen]
    omega
  rw [hsecret] at hct
  refine ⟨cipher, ?_⟩
  generalize A.encrypt cipher (nonceFor (nextCounter k now)) (packet.take (plainLen packet d))
    (packet.drop (plainLen packet d)) = ct at hct hframe ⊢
  have hclear : frameHeaderLen + Codec.baseHeaderSize ≤
      (writeHead [] .data keyId ++ (packet.take d.offset ++ overhang packet d)).length := by
    obtain ⟨wf, -⟩ := decode_eq_ok.mp h
    rw [List.length_append, List.length_append, length_writeHead, hlen, wf.offset, frameHeaderLen, frameHeaderSize]
    omega
  have hfec := dataCounter_append hclear (length_be64 (nextCounter k now)) hct
  have hbehind : d.payload.length + 24 ≤ (overhang packet d ++ (be64 (nextCounter k now) ++ ct)).length := by
    rw [List.length_append, List.length_append, length_be64, hct, tagSize]
    omega
  have hmeta := frameMeta_append keyId h hbehind
  have hread : (overhang packet d ++ (be64 (nextCounter k now) ++ ct)).take 8 =
      (overhang packet d ++ be64 (nextCounter k now)).take 8 := by
    rw [← List.append_assoc]
    apply List.take_append_of_le_length
    rw [List.length_append, length_be64]
    exact Nat.le_add_left _ _
  have hfecLen : (((be64 (nextCounter k now) ++ ct).drop d.payload.length).take 8).length = 8 := by
    rw [List.length_take, List.length_drop, List.length_append, length_be64, hct, tagSize]
    omega
  have hmetaLen : ((overhang packet d ++ be64 (nextCounter k now)).take 8).length = 8 := by
    rw [List.length_take, List.length_append, length_be64]
    omega
  rw [List.append_assoc] at hfec
  rw [hread, ← List.append_assoc (packet.take d.offset)] at hmeta
  rw [← ofBe64_eq_iff hfecLen, ← ofBe64_eq_iff hmetaLen]
  constructor
  · intro hfound
    obtain ⟨hcount, keyId', -, hkey⟩ := hfound _ hframe
    rw [hfec, hcounter] at hcount
    rw [hmeta, hcounter] at hkey
    exact ⟨Outcome.ok.inj hcount, congrArg Prod.snd (Option.some.inj hkey)⟩
  · rintro ⟨hcount, hkey⟩ frame hok
    rw [← Outcome.ok.inj (hframe.symm.trans hok), hcounter]
    refine ⟨?_, keyId, parseHead_writeHead _ _ _, ?_⟩
    · rw [hfec, hcount]
    · rw [hmeta, hkey]

/-- The AEAD that encrypts a message with a mask on every byte. -/
def masked (A : Aead) (mask : UInt8) : Aead where
  encrypt c nonce aad msg := A.encrypt c nonce aad (msg.map (· ^^^ mask))
  decrypt c nonce aad ct := (A.decrypt c nonce aad ct).map (List.map (· ^^^ mask))
  decrypt_encrypt := by
    intro c nonce aad msg
    rw [A.decrypt_encrypt, Option.map_some, List.map_map]
    apply congrArg some
    rw [List.map_congr_left (g := id) fun b _ => ?_, List.map_id]
    rw [Function.comp_apply, UInt8.xor_assoc, UInt8.xor_self, UInt8.xor_zero, id]
  encrypt_of_decrypt := by
    intro c nonce aad ct msg h
    obtain ⟨msg', hopen, rfl⟩ := Option.map_eq_some_iff.mp h
    rw [A.encrypt_of_decrypt c nonce aad ct msg' hopen, List.map_map]
    apply congrArg
    rw [List.map_congr_left (g := id) fun b _ => ?_, List.map_id]
    rw [Function.comp_apply, UInt8.xor_assoc, UInt8.xor_self, UInt8.xor_zero, id]
  length_encrypt := by
    intro c nonce aad msg
    rw [A.length_encrypt, List.length_map]

/-- If error correction reads the counter of a frame with a payload, then it reads its last byte from the ciphertext. -/
lemma last_byte_of_found {mask : UInt8} (h : Codec.decode packet = .ok d) (hne : d.payload ≠ [])
    (hfound : CounterFound (masked sampleAead mask) k now packet) :
    (packet.drop (plainLen packet d)).getD (d.payload.length - 1) 0 ^^^ mask = (be64 (nextCounter k now)).getD 7 0 := by
  obtain ⟨cipher, hiff⟩ := counterFound_iff (masked sampleAead mask) k now h
  obtain ⟨hread, -⟩ := hiff.mp hfound
  have hle := decode_consumed_le h
  rw [consumed_eq h] at hle
  have hpos : 0 < d.payload.length := List.length_pos_iff.mpr hne
  have hsecret : (packet.drop (plainLen packet d)).length = d.payload.length := by
    rw [List.length_drop, plainLen]
    omega
  generalize packet.drop (plainLen packet d) = msg at hread hsecret ⊢
  have hbyte := congrArg (·.getD 7 0) hread
  have hbehind : (be64 (nextCounter k now)).length ≤ d.payload.length + 7 := by
    rw [length_be64]
    omega
  have hindex : d.payload.length + 7 - 8 = d.payload.length - 1 := by omega
  have hin : d.payload.length - 1 < (msg.map (· ^^^ mask)).length := by
    rw [List.length_map, hsecret]
    omega
  have hmsg : d.payload.length - 1 < msg.length := by
    rw [hsecret]
    omega
  rw [← hbyte, List.getD_eq_getElem?_getD, List.getD_eq_getElem?_getD, List.getElem?_take_of_lt (by omega), List.getElem?_drop,
    List.getElem?_append_right hbehind, length_be64, hindex]
  show _ = ((msg.map (· ^^^ mask) ++ sampleTag _ _ _ _)[d.payload.length - 1]?).getD 0
  rw [List.getElem?_append_left hin, List.getElem?_map, List.getElem?_eq_getElem hmsg]
  rfl

/-- For all ciphers together, the counter is found exactly where there is no payload and nothing stands between the
chain and the counter, up to bytes that repeat the counter. -/
theorem counter_found (k : TunnelKeys) (now : Nat) (packet : Bytes) :
    (∀ A, CounterFound A k now packet) ↔ ∀ d ∈ (Codec.decode packet).toOption, d.payload = [] ∧
      (packet.drop d.offset ++ be64 (nextCounter k now)).take 8 = be64 (nextCounter k now) := by
  constructor
  · intro hall d hd
    have h := Outcome.mem_toOption.mp hd
    have hnil : d.payload = [] := by
      by_contra hne
      have h0 := last_byte_of_found h hne (hall (masked sampleAead 0))
      have h1 := last_byte_of_found h hne (hall (masked sampleAead 1))
      rw [← h0, UInt8.xor_right_inj] at h1
      cases h1
    obtain ⟨cipher, hiff⟩ := counterFound_iff sampleAead k now h
    obtain ⟨-, hmeta⟩ := hiff.mp (hall sampleAead)
    rw [overhang_of_nil hnil] at hmeta
    exact ⟨hnil, hmeta⟩
  · intro hcond A
    cases h : Codec.decode packet with
    | err e =>
      intro frame hframe
      obtain ⟨d, hd⟩ := exists_decode hframe
      rw [h] at hd
      cases hd
    | panic =>
      intro frame hframe
      obtain ⟨d, hd⟩ := exists_decode hframe
      rw [h] at hd
      cases hd
    | ok d =>
      obtain ⟨hnil, hmeta⟩ := hcond d (Outcome.mem_toOption.mpr h)
      obtain ⟨cipher, hiff⟩ := counterFound_iff A k now h
      apply hiff.mpr
      rw [overhang_of_nil hnil]
      refine ⟨?_, hmeta⟩
      rw [hnil, List.length_nil, List.drop_zero]
      exact List.take_left' (length_be64 _)

end

/-- Two bytes of payload: error correction takes two bytes of the ciphertext for the end of the counter. -/
theorem counter_missed :
    let k := TunnelKeys.new 0 (sampleDh 7) true
    let packet := samplePacket [7, 9] []
    ¬ CounterFound sampleAead k 0 packet ∧
      ((encapsulate sampleAead k 0 packet).2.toOption.map fun frame => (Fec.dataCounter frame, frameMeta frame)) =
        some (Outcome.ok 0x10709, some (0, 1)) := by
  intro k packet
  have hok : (encapsulate sampleAead k 0 packet).2 = .ok ((encapsulate sampleAead k 0 packet).2.toOption.getD []) := by
    decide +kernel
  refine ⟨?_, by decide +kernel⟩
  intro h
  obtain ⟨hcount, -⟩ := h _ hok
  revert hcount
  decide +kernel

end IPv8Plus.Observe
