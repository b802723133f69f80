import IPv8Plus.Codec.Decode

/-!
# Tunnel frames

`ipv8-tunnel/src/frame.rs`: the ten byte head of a frame (version, type, KeyID) and the errors of the data
plane. `parseHead_eq_ok` is the specification of the parser: it accepts exactly the strings that start with
a written head.
-/

namespace IPv8Plus.Tunnel
open Lib

def tunnelVersion : UInt8 := 0x01

def frameHeaderSize : Nat := 10

def tagSize : Nat := 16

/-- Base header, counter and tag. -/
def minDataBody : Nat := Codec.baseHeaderSize + 8 + tagSize

/-- The first byte says the suite, the other seven the key epoch. -/
abbrev KeyId := Arr UInt8 8

def KeyId.suiteByte (keyId : KeyId) : UInt8 := keyId.at 0

/-- A shared secret of the key exchange. -/
abbrev Dh := Arr UInt8 32

inductive CipherSuite where
  | chaCha20Poly1305
  | aes256Gcm
  deriving DecidableEq, Repr

def CipherSuite.byte : CipherSuite → UInt8
  | chaCha20Poly1305 => 0
  | aes256Gcm => 1

def CipherSuite.fromByte (b : UInt8) : Option CipherSuite :=
  if b = 0 then some chaCha20Poly1305
  else if b = 1 then some aes256Gcm
  else none

inductive FrameType where
  | handshakeInit
  | handshakeResp
  | data
  | rekey
  | authInit
  | authResp
  | fecRecovery
  | receipt
  deriving DecidableEq, Repr

def FrameType.toU8 : FrameType → UInt8
  | handshakeInit => 0
  | handshakeResp => 1
  | data => 2
  | rekey => 3
  | authInit => 4
  | authResp => 5
  | fecRecovery => 6
  | receipt => 7

def FrameType.fromU8 (v : UInt8) : Option FrameType :=
  if v = 0 then some handshakeInit
  else if v = 1 then some handshakeResp
  else if v = 2 then some data
  else if v = 3 then some rekey
  else if v = 4 then some authInit
  else if v = 5 then some authResp
  else if v = 6 then some fecRecovery
  else if v = 7 then some receipt
  else none

structure FrameHead where
  frameType : FrameType
  keyId : KeyId
  deriving DecidableEq, Repr

inductive FrameError where
  | tooShort (n : Nat)
  | badVersion (v : UInt8)
  | badType (t : UInt8)
  | notData (t : FrameType)
  | bodyTooShort
  | decryptFailed
  | payloadLenMismatch
  | replay
  | staleEpoch (epoch newest : UInt64)
  | unknownKeyId
  | badHandshakeLen
  | suiteMismatch (expected got : CipherSuite)
  | shardMismatch (epoch shard stride : UInt64)
  | authFailed
  | header (e : Codec.DecodeError)
  deriving DecidableEq, Repr

def parseHead (frame : Bytes) : Outcome FrameError FrameHead :=
  if frame.length < frameHeaderSize then
    .err (.tooShort frame.length)
  else do
    let version ← idx frame 0
    if version ≠ tunnelVersion then
      .err (.badVersion version)
    else do
      let ty ← idx frame 1
      match FrameType.fromU8 ty with
      | none => .err (.badType ty)
      | some frameType =>
        let keyId ← copyFromSlice 8 (← slice frame 2 10)
        return { frameType, keyId }

/-- Append a frame head. -/
def writeHead (frame : Bytes) (frameType : FrameType) (keyId : KeyId) : Bytes :=
  frame ++ [tunnelVersion, frameType.toU8] ++ keyId.val

@[simp] lemma length_writeHead (frame : Bytes) (t : FrameType) (k : KeyId) :
    (writeHead frame t k).length = frame.length + frameHeaderSize := by
  simp [writeHead, frameHeaderSize, k.property]

@[simp] lemma CipherSuite.fromByte_byte (s : CipherSuite) : fromByte s.byte = some s := by
  cases s <;> rfl

lemma CipherSuite.byte_of_fromByte {b : UInt8} {s : CipherSuite} (h : fromByte b = some s) : s.byte = b := by
  unfold fromByte at h
  split at h
  · next hb => cases h; exact hb.symm
  split at h
  · next hb => cases h; exact hb.symm
  exact absurd h nofun

@[simp] lemma FrameType.fromU8_toU8 (t : FrameType) : fromU8 t.toU8 = some t := by
  cases t <;> rfl

lemma FrameType.toU8_of_fromU8 {v : UInt8} {t : FrameType} (h : fromU8 v = some t) : t.toU8 = v := by
  unfold fromU8 at h
  repeat (split at h; next hv => cases h; exact hv.symm)
  exact absurd h nofun

/-- A frame that is long enough has a version, a type, a KeyID and a body. -/
lemma exists_fields {frame : Bytes} (h : frameHeaderSize ≤ frame.length) :
    ∃ v ty, ∃ k : KeyId, ∃ body, frame = v :: ty :: (k.val ++ body) := by
  match frame, h with
  | v :: ty :: rest, h =>
    have hk : (rest.take 8).length = 8 := by
      rw [List.length_take]
      exact Nat.min_eq_left (Nat.le_of_add_le_add_right (b := 2) h)
    exact ⟨v, ty, ⟨rest.take 8, hk⟩, rest.drop 8, by simp⟩

/-- What the parser does with the fields. -/
lemma parseHead_fields (v ty : UInt8) (k : KeyId) (body : Bytes) :
    parseHead (v :: ty :: (k.val ++ body)) =
      if v ≠ tunnelVersion then .err (.badVersion v)
      else match FrameType.fromU8 ty with
        | none => .err (.badType ty)
        | some frameType => .ok { frameType, keyId := k } := by
  have hlen : frameHeaderSize ≤ (v :: ty :: (k.val ++ body)).length := by
    simp [frameHeaderSize, k.property]
  have hs : (slice (v :: ty :: (k.val ++ body)) 2 10 : Outcome FrameError Bytes) = .ok k.val := by
    rw [slice_of_le (b := 10) (by decide) hlen]
    show Outcome.ok ((k.val ++ body).take 8) = .ok k.val
    rw [List.take_append_of_le_length k.property.ge, List.take_of_length_le k.property.le]
  unfold parseHead
  rw [if_neg (Nat.not_lt.mpr hlen), idx_of_getElem? (x := v) rfl, Outcome.ok_bind,
    idx_of_getElem? (x := ty) rfl, Outcome.ok_bind, hs]
  simp only [Outcome.ok_bind, copyFromSlice_val, Outcome.pure_def]

/-- A written head is read back, whatever follows it. -/
theorem parseHead_writeHead (t : FrameType) (k : KeyId) (body : Bytes) :
    parseHead (writeHead [] t k ++ body) = .ok { frameType := t, keyId := k } := by
  have h := parseHead_fields tunnelVersion t.toU8 k body
  rw [if_neg (not_not_intro rfl), FrameType.fromU8_toU8] at h
  exact h

/-- The parser accepts exactly the strings that start with a written head. -/
theorem parseHead_eq_ok {frame : Bytes} {head : FrameHead} :
    parseHead frame = .ok head ↔ ∃ body, frame = writeHead [] head.frameType head.keyId ++ body := by
  constructor
  · intro h
    by_cases hlen : frame.length < frameHeaderSize
    · unfold parseHead at h
      rw [if_pos hlen] at h
      cases h
    obtain ⟨v, ty, k, body, rfl⟩ := exists_fields (Nat.le_of_not_lt hlen)
    rw [parseHead_fields] at h
    split at h
    · cases h
    next hv =>
    split at h
    · cases h
    next t ht =>
    cases h
    exact ⟨body, by rw [not_not.mp hv, ← FrameType.toU8_of_fromU8 ht]; rfl⟩
  · rintro ⟨body, rfl⟩
    exact parseHead_writeHead _ _ _

/-- No access of the parser is out of range. -/
theorem parseHead_ne_panic (frame : Bytes) : parseHead frame ≠ .panic := by
  by_cases hlen : frame.length < frameHeaderSize
  · unfold parseHead
    rw [if_pos hlen]
    exact nofun
  obtain ⟨v, ty, k, body, rfl⟩ := exists_fields (Nat.le_of_not_lt hlen)
  rw [parseHead_fields]
  split
  · exact nofun
  split
  · exact nofun
  · exact nofun

end IPv8Plus.Tunnel
