import IPv8Plus.Tunnel.Nonce

/-!
# Encapsulation

`ipv8-tunnel/src/encapsulate.rs`: a packet is cut into the clear part, which is authenticated, and the part
that is encrypted. The frame is head ‖ clear part ‖ counter ‖ ciphertext. The sender takes the length of
the clear part from the length of the packet, the receiver from where the decoder found the payload.
-/

namespace IPv8Plus.Tunnel
open Lib

variable (A : Aead)

/-- How many bytes of a decoded packet `encapsulate` leaves in the clear. -/
def plainLen (packet : Bytes) (d : Codec.Decoded) : Nat := packet.length - d.payload.length

def encapsulate (keys : TunnelKeys) (now : Nat) (packet : Bytes) : TunnelKeys × Outcome FrameError Bytes :=
  match (Codec.decode packet).mapErr .header with
  | .err e => (keys, .err e)
  | .panic => (keys, .panic)
  | .ok d =>
    let plain := packet.take (plainLen packet d)
    let secret := packet.drop (plainLen packet d)
    let (keys, keyId, cipherBody) := keys.seal A now plain secret
    (keys, .ok (writeHead [] .data keyId ++ plain ++ cipherBody))

/-- Open the body of a data frame: the clear part ends where the decoder finds the payload. -/
def decapsulateBody (keys : TunnelKeys) (keyId : KeyId) (body : Bytes) :
    TunnelKeys × Outcome FrameError Bytes :=
  match (Codec.decode body).mapErr .header with
  | .err e => (keys, .err e)
  | .panic => (keys, .panic)
  | .ok d =>
    if d.offset < Codec.baseHeaderSize ∨ body.length - d.offset < 8 then (keys, .err .bodyTooShort)
    else
      let plain := body.take d.offset
      match keys.open A keyId (body.drop d.offset) plain with
      | (keys, .error e) => (keys, .err e)
      | (keys, .ok secret) => (keys, .ok (plain ++ secret))

def decapsulate (keys : TunnelKeys) (frame : Bytes) : TunnelKeys × Outcome FrameError Bytes :=
  match parseHead frame with
  | .err e => (keys, .err e)
  | .panic => (keys, .panic)
  | .ok head =>
    if head.frameType ≠ .data then (keys, .err (.notData head.frameType))
    else
      let body := frame.drop frameHeaderSize
      if body.length < minDataBody then (keys, .err .bodyTooShort)
      else decapsulateBody A keys head.keyId body

variable {A} {keys : TunnelKeys} {now : Nat} {packet : Bytes}

/-- The keys change only by sealing a data frame. -/
lemma encapsulate_keys {P : TunnelKeys → Prop} (h : P keys)
    (hseal : ∀ aad plaintext, P (keys.seal A now aad plaintext).1) : P (encapsulate A keys now packet).1 := by
  unfold encapsulate
  split
  · exact h
  · exact h
  · exact hseal _ _

/-- The keys change only by opening a data frame. -/
lemma decapsulate_keys {P : TunnelKeys → Prop} {frame : Bytes} (h : P keys)
    (hopen : ∀ keyId body aad, P (keys.open A keyId body aad).1) : P (decapsulate A keys frame).1 := by
  unfold decapsulate
  split
  · exact h
  · exact h
  next head _ =>
  split
  · exact h
  dsimp only
  split
  · exact h
  unfold decapsulateBody
  split
  · exact h
  · exact h
  next d _ =>
  split
  · exact h
  have hbody := hopen head.keyId ((frame.drop frameHeaderSize).drop d.offset) ((frame.drop frameHeaderSize).take d.offset)
  dsimp only
  generalize keys.open A head.keyId _ _ = x at hbody ⊢
  rcases x with ⟨keys', e | secret⟩
  · exact hbody
  · exact hbody

end IPv8Plus.Tunnel
