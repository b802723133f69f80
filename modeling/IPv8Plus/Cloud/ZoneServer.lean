import IPv8Plus.Cloud.SignedMessages
import IPv8Plus.Cloud.Store
import IPv8Plus.Lib.IpText
import IPv8Plus.Lib.Run
import IPv8Plus.Lib.Word64

/-!
# The zone server

`ZoneServer` of `cloud/zoneserver/src/lib.rs`: registrations, rotations of keys, and the tokens between them. HMAC, base64
and JSON come from libraries. In a run, each rotation is asked for by the holder of the key or by somebody else, and the
tokens that the server has given out are kept beside its state.
-/

namespace IPv8Plus.Cloud
open Lib Codec Routing Tunnel

inductive ZoneError where
  | badAddress
  | badKeyLength
  | badProof
  | alreadyRegistered (addr : IPv8Address)
  | notRegistered (addr : IPv8Address)
  | badToken
  | tokenExpired (exp now : UInt64)
  | tokenMismatch
  deriving DecidableEq, Repr

/-- A value of JSON, as far as the server looks at it. -/
inductive JsonValue where
  | u64 (n : UInt64)
  | str (s : Bytes)
  | object (fields : List (Bytes × JsonValue))
  | other

namespace JsonValue

def get : JsonValue → Bytes → Option JsonValue
  | object fields, key => fields.lookup key
  | _, _ => none

def asU64 : JsonValue → Option UInt64
  | u64 n => some n
  | _ => none

def asStr : JsonValue → Option Bytes
  | str s => some s
  | _ => none

end JsonValue

/-- What tokens are made with: HMAC-SHA256, base64 for URLs without padding, and JSON. `claims` writes the object with the
fields `sub`, `iat` and `exp`. -/
structure TokenLib where
  hmac256 : Arr UInt8 32 → Bytes → Bytes
  b64 : Bytes → Bytes
  unb64 : Bytes → Option Bytes
  claims : Bytes → UInt64 → UInt64 → Bytes
  fromSlice : Bytes → Option JsonValue

/-- `sub` -/
def subField : Bytes := [0x73, 0x75, 0x62]

/-- `exp` -/
def expField : Bytes := [0x65, 0x78, 0x70]

/-- The JSON text with `alg` `HS256` and `typ` `JWT`. -/
def jwtHeader : Bytes :=
  [0x7B, 0x22, 0x61, 0x6C, 0x67, 0x22, 0x3A, 0x22, 0x48, 0x53, 0x32, 0x35, 0x36, 0x22, 0x2C, 0x22, 0x74, 0x79, 0x70, 0x22,
    0x3A, 0x22, 0x4A, 0x57, 0x54, 0x22, 0x7D]

def defaultTokenTtlSecs : UInt64 := 24 * 3600

structure Issued where
  cert : Cert
  jwt : Bytes
  deriving DecidableEq, Repr

structure ZoneServer (S : SigScheme) where
  ca : S.Seed
  jwtKey : Arr UInt8 32
  records : AddrMap PublicKey

namespace ZoneServer

variable {S : SigScheme} (L : TokenLib)

def parseAddr (text : Bytes) : Outcome ZoneError IPv8Address :=
  (IPv8Address.fromCanonicalStr text).mapErr fun _ => .badAddress

def parsePub (S : SigScheme) (b : Bytes) : Outcome ZoneError PublicKey :=
  if h : b.length = 32 then
    if S.validKey ⟨b, h⟩ then .ok ⟨b, h⟩ else .err .badKeyLength
  else .err .badKeyLength

def parseSig (b : Bytes) : Outcome ZoneError Signature :=
  if h : b.length = 64 then .ok ⟨b, h⟩ else .err .badKeyLength

def issueJwt (z : ZoneServer S) (addrText : Bytes) (now ttlSecs : UInt64) : Bytes :=
  let signingInput := L.b64 jwtHeader ++ dot :: L.b64 (L.claims addrText now (satAdd now ttlSecs))
  signingInput ++ dot :: L.b64 (L.hmac256 z.jwtKey signingInput)

def verifyTokenClaims (z : ZoneServer S) (jwt : Bytes) (now : UInt64) : Outcome ZoneError (Bytes × UInt64) :=
  match jwt.splitOn dot with
  | [h, p, s] =>
    if L.b64 (L.hmac256 z.jwtKey (h ++ dot :: p)) ≠ s then .err .badToken
    else
      match (L.unb64 p).bind L.fromSlice with
      | none => .err .badToken
      | some v =>
        match (v.get expField).bind JsonValue.asU64 with
        | none => .err .badToken
        | some exp =>
          if exp < now then .err (.tokenExpired exp now)
          else
            match (v.get subField).bind JsonValue.asStr with
            | none => .err .badToken
            | some sub => .ok (sub, exp)
  | _ => .err .badToken

/-- The checks of a registration. The key that is registered may come again, another one may not. -/
def checkRegister (z : ZoneServer S) (addrText edPub proof : Bytes) : Outcome ZoneError (IPv8Address × PublicKey) := do
  let addr ← parseAddr addrText
  let key ← parsePub S edPub
  let sig ← parseSig proof
  if !S.verifyStrict key (zoneRegisterMessage addrText edPub) sig then .err .badProof
  else
    match z.records[addr]? with
    | some k => if k ≠ key then .err (.alreadyRegistered addr) else return (addr, key)
    | none => return (addr, key)

/-- The checks of a rotation: a token for the address, and a proof under the new key. -/
def checkRotate (z : ZoneServer S) (jwt addrText newEdPub proof : Bytes) (now : UInt64) :
    Outcome ZoneError (IPv8Address × PublicKey) := do
  let (sub, _) ← z.verifyTokenClaims L jwt now
  if sub ≠ addrText then .err .tokenMismatch
  else
    let addr ← parseAddr addrText
    let key ← parsePub S newEdPub
    let sig ← parseSig proof
    if !S.verifyStrict key (rotatePopMessage addrText newEdPub) sig then .err .badProof
    else if z.records[addr]?.isNone then .err (.notRegistered addr)
    else return (addr, key)

/-- Where the checks have passed, the key is recorded and certified. -/
def grant (z : ZoneServer S) (jwt : Bytes) (notAfter : UInt64) :
    Outcome ZoneError (IPv8Address × PublicKey) → ZoneServer S × Outcome ZoneError Issued
  | .ok (addr, key) => ({ z with records := z.records.insert addr key }, .ok ⟨issue S z.ca addr key notAfter, jwt⟩)
  | .err e => (z, .err e)
  | .panic => (z, .panic)

def register (z : ZoneServer S) (addrText edPub proof : Bytes) (ttlSecs now : UInt64) : ZoneServer S × Outcome ZoneError Issued :=
  z.grant (z.issueJwt L addrText now defaultTokenTtlSecs) (satAdd now ttlSecs) (z.checkRegister addrText edPub proof)

def rotateKey (z : ZoneServer S) (jwt addrText newEdPub proof : Bytes) (ttlSecs now : UInt64) :
    ZoneServer S × Outcome ZoneError Issued :=
  z.grant jwt (satAdd now ttlSecs) (z.checkRotate L jwt addrText newEdPub proof now)

/-- The key that is registered for an address. -/
def keyOf (z : ZoneServer S) (a : IPv8Address) : Option PublicKey := z.records[a]?

variable {L} {z : ZoneServer S} {jwt addrText edPub proof : Bytes} {a addr : IPv8Address} {key : PublicKey}
  {ttlSecs now notAfter : UInt64}

lemma checkRegister_eq_ok (h : z.checkRegister addrText edPub proof = .ok (addr, key)) :
    parseAddr addrText = .ok addr ∧ ∀ k, z.keyOf addr = some k → k = key := by
  obtain ⟨addr', haddr, h⟩ := Outcome.bind_eq_ok.mp h
  obtain ⟨key', -, h⟩ := Outcome.bind_eq_ok.mp h
  obtain ⟨sig, -, h⟩ := Outcome.bind_eq_ok.mp h
  split_ifs at h
  cases hfound : z.records[addr']? with
  | none =>
    rw [hfound] at h
    cases h
    exact ⟨haddr, fun k hk => nomatch hfound.symm.trans hk⟩
  | some k =>
    rw [hfound] at h
    dsimp only at h
    split_ifs at h with hne
    cases h
    refine ⟨haddr, fun k' hk' => ?_⟩
    cases hfound.symm.trans hk'
    exact not_not.mp hne

lemma checkRotate_eq_ok (h : z.checkRotate L jwt addrText edPub proof now = .ok (addr, key)) :
    parseAddr addrText = .ok addr ∧ ∃ exp, z.verifyTokenClaims L jwt now = .ok (addrText, exp) := by
  obtain ⟨⟨sub, exp⟩, hclaims, h⟩ := Outcome.bind_eq_ok.mp h
  dsimp only at h
  split_ifs at h with hsub
  cases not_not.mp hsub
  obtain ⟨addr', haddr, h⟩ := Outcome.bind_eq_ok.mp h
  obtain ⟨key', -, h⟩ := Outcome.bind_eq_ok.mp h
  obtain ⟨sig, -, h⟩ := Outcome.bind_eq_ok.mp h
  split_ifs at h
  cases h
  exact ⟨haddr, exp, hclaims⟩

/-- A call is refused and changes nothing, or records and certifies the key that has passed the checks. -/
lemma grant_cases (z : ZoneServer S) (jwt : Bytes) (notAfter : UInt64) (x : Outcome ZoneError (IPv8Address × PublicKey)) :
    ((z.grant jwt notAfter x).1 = z ∧ ∀ issued, (z.grant jwt notAfter x).2 ≠ .ok issued) ∨
      ∃ addr key, x = .ok (addr, key) ∧ (z.grant jwt notAfter x).2 = .ok ⟨issue S z.ca addr key notAfter, jwt⟩ ∧
        ∀ b, (z.grant jwt notAfter x).1.keyOf b = if addr = b then some key else z.keyOf b := by
  cases x with
  | err e => exact .inl ⟨rfl, fun _ h => nomatch h⟩
  | panic => exact .inl ⟨rfl, fun _ h => nomatch h⟩
  | ok r =>
    refine .inr ⟨r.1, r.2, rfl, rfl, fun b => ?_⟩
    exact getElem?_insert_ite

/-- Whoever shows an accepted token for a registered address gives it the key of their proof. -/
theorem rotation_takes {k : PublicKey} {sig : Signature} {exp : UInt64}
    (hclaims : z.verifyTokenClaims L jwt now = .ok (addrText, exp)) (haddr : parseAddr addrText = .ok a)
    (hfound : z.keyOf a = some k) (hvalid : S.validKey key = true)
    (hproof : S.verifyStrict key (rotatePopMessage addrText key.val) sig = true) :
    (z.rotateKey L jwt addrText key.val sig.val ttlSecs now).1.keyOf a = some key := by
  have hpub : parsePub S key.val = .ok key := (dif_pos key.property).trans (if_pos hvalid)
  have hsig : parseSig sig.val = .ok sig := dif_pos sig.property
  have hcheck : z.checkRotate L jwt addrText key.val sig.val now = .ok (a, key) := by
    rw [checkRotate, hclaims, Outcome.ok_bind]
    dsimp only
    rw [if_neg (not_not.mpr rfl), haddr, Outcome.ok_bind, hpub, Outcome.ok_bind, hsig, Outcome.ok_bind, hproof,
      show z.records[a]? = some k from hfound]
    rfl
  rcases z.grant_cases jwt (satAdd now ttlSecs) (z.checkRotate L jwt addrText key.val sig.val now) with
    ⟨-, hno⟩ | ⟨addr, key', hx, -, hkeys⟩
  · rw [hcheck] at hno
    exact absurd rfl (hno _)
  · cases hcheck.symm.trans hx
    exact (hkeys a).trans (if_pos rfl)

end ZoneServer

/-- Whom a rotation comes from. -/
inductive Caller where
  | holder
  | other
  deriving DecidableEq, Repr

inductive ZoneCall where
  | register (addrText edPub proof : Bytes) (ttlSecs now : UInt64)
  | rotateKey (caller : Caller) (jwt addrText newEdPub proof : Bytes) (ttlSecs now : UInt64)
  deriving DecidableEq, Repr

/-- The server, and the tokens that it has given out. -/
structure Zone (S : SigScheme) where
  server : ZoneServer S
  tokens : List Bytes

namespace Zone

variable {S : SigScheme} (L : TokenLib)

def hand (w : Zone S) : ZoneServer S × Outcome ZoneError Issued → Zone S × Outcome ZoneError Issued
  | (server, .ok issued) => (⟨server, issued.jwt :: w.tokens⟩, .ok issued)
  | (server, x) => (⟨server, w.tokens⟩, x)

def step (w : Zone S) : ZoneCall → Zone S × Outcome ZoneError Issued
  | .register addrText edPub proof ttlSecs now => w.hand (w.server.register L addrText edPub proof ttlSecs now)
  | .rotateKey _ jwt addrText newEdPub proof ttlSecs now => w.hand (w.server.rotateKey L jwt addrText newEdPub proof ttlSecs now)

/-- A rotation for the address that the holder of the key has asked for. -/
def RotatedByHolder (a : IPv8Address) : ZoneCall → Prop
  | .rotateKey .holder _ addrText .. => ZoneServer.parseAddr addrText = .ok a
  | _ => False

/-- A token that others show and the server accepts is one that the server has given out. -/
def Unforged (w : Zone S) : ZoneCall → Prop
  | .rotateKey .other jwt _ _ _ _ now =>
    ∀ sub exp, w.server.verifyTokenClaims L jwt now = .ok (sub, exp) → jwt ∈ w.tokens
  | _ => True

/-- Others do not show a token for the address that the server has given out and still accepts. -/
def Unstolen (a : IPv8Address) (w : Zone S) : ZoneCall → Prop
  | .rotateKey .other jwt addrText _ _ _ now => ZoneServer.parseAddr addrText = .ok a → jwt ∈ w.tokens →
    ∀ exp, w.server.verifyTokenClaims L jwt now ≠ .ok (addrText, exp)
  | _ => True

/-- The step is the holder's rotation, or the key stays and only this key is certified for the address. -/
def Bound (a : IPv8Address) (w : Zone S) (c : ZoneCall) : Prop :=
  RotatedByHolder a c ∨ ((w.step L c).1.server.keyOf a = w.server.keyOf a ∧
    ∀ issued, (w.step L c).2 = .ok issued → issued.cert.addr = a → w.server.keyOf a = some issued.cert.verifyKey)

variable {L} {w : Zone S} {c : ZoneCall} {a : IPv8Address} {k : PublicKey}

lemma hand_server (r : ZoneServer S × Outcome ZoneError Issued) : (w.hand r).1.server = r.1 := by
  obtain ⟨server, x⟩ := r
  cases x with
  | ok issued => rfl
  | err e => rfl
  | panic => rfl

lemma hand_answer (r : ZoneServer S × Outcome ZoneError Issued) : (w.hand r).2 = r.2 := by
  obtain ⟨server, x⟩ := r
  cases x with
  | ok issued => rfl
  | err e => rfl
  | panic => rfl

/-- The key of an address is what it was, and the only one that is certified for the address. -/
def KeepsKey (a : IPv8Address) (z : ZoneServer S) (r : ZoneServer S × Outcome ZoneError Issued) : Prop :=
  r.1.keyOf a = z.keyOf a ∧ ∀ issued, r.2 = .ok issued → issued.cert.addr = a → z.keyOf a = some issued.cert.verifyKey

/-- A grant for the address is one of its own key. -/
lemma keepsKey_grant {z : ZoneServer S} {jwt : Bytes} {notAfter : UInt64} {x : Outcome ZoneError (IPv8Address × PublicKey)}
    (h : ∀ key, x = .ok (a, key) → z.keyOf a = some key) : KeepsKey a z (z.grant jwt notAfter x) := by
  rcases z.grant_cases jwt notAfter x with ⟨hsame, hno⟩ | ⟨addr, key, hx, hanswer, hkeys⟩
  · exact ⟨by rw [hsame], fun issued hok => absurd hok (hno issued)⟩
  · constructor
    · rw [hkeys a]
      split_ifs with heq
      · exact (h key (heq ▸ hx)).symm
      · rfl
    · intro issued hok haddr
      cases hanswer.symm.trans hok
      exact h key (hx.trans (congrArg (fun b => Outcome.ok (b, key)) haddr))

/-- A registered address stays registered. -/
lemma isSome_grant {z : ZoneServer S} {jwt : Bytes} {notAfter : UInt64} {x : Outcome ZoneError (IPv8Address × PublicKey)}
    (h : (z.keyOf a).isSome) : ((z.grant jwt notAfter x).1.keyOf a).isSome := by
  rcases z.grant_cases jwt notAfter x with ⟨hsame, -⟩ | ⟨addr, key, -, -, hkeys⟩
  · rw [hsame]
    exact h
  · rw [hkeys a]
    split_ifs
    · rfl
    · exact h

lemma step_isSome (h : (w.server.keyOf a).isSome) : ((w.step L c).1.server.keyOf a).isSome := by
  cases c with
  | register addrText edPub proof ttlSecs now =>
    rw [step, hand_server]
    exact isSome_grant h
  | rotateKey caller jwt addrText newEdPub proof ttlSecs now =>
    rw [step, hand_server]
    exact isSome_grant h

lemma step_bound (hkey : w.server.keyOf a = some k) (hunforged : Unforged L w c) (hunstolen : Unstolen L a w c) :
    Bound L a w c := by
  cases c with
  | register addrText edPub proof ttlSecs now =>
    rw [Bound, step, hand_server, hand_answer]
    refine .inr (keepsKey_grant fun key hx => ?_)
    exact hkey.trans (congrArg some ((ZoneServer.checkRegister_eq_ok hx).2 k hkey))
  | rotateKey caller jwt addrText newEdPub proof ttlSecs now =>
    cases caller with
    | holder =>
      by_cases haddr : ZoneServer.parseAddr addrText = .ok a
      · exact .inl haddr
      · rw [Bound, step, hand_server, hand_answer]
        exact .inr (keepsKey_grant fun key hx => absurd (ZoneServer.checkRotate_eq_ok hx).1 haddr)
    | other =>
      rw [Bound, step, hand_server, hand_answer]
      refine .inr (keepsKey_grant fun key hx => ?_)
      -- the token was accepted, so the server has given it out, and somebody else shows it
      obtain ⟨haddr, exp, hclaims⟩ := ZoneServer.checkRotate_eq_ok hx
      exact absurd hclaims (hunstolen haddr (hunforged addrText exp hclaims) exp)

/-- In every run in which others do not show a token for the address that the server has given out and still accepts, the key
of the address changes, and another key is certified for it, only in rotations that the holder has asked for. -/
theorem key_bound {S : SigScheme} {L : TokenLib} {w : Zone S} {a : IPv8Address} {k : PublicKey} {calls : List ZoneCall}
    (hkey : w.server.keyOf a = some k) (hunforgeable : Along (step L) (Unforged L) w calls)
    (hunstolen : Along (step L) (Unstolen L a) w calls) : Along (step L) (Bound L a) w calls := by
  refine Along.of_invariant (I := fun w => (w.server.keyOf a).isSome) ?_ ?_ (Option.isSome_of_eq_some hkey)
    (along_and.mpr ⟨hunforgeable, hunstolen⟩)
  · exact fun w c h _ => step_isSome h
  · rintro w c h ⟨hunforged, hstolen⟩
    obtain ⟨k', hk'⟩ := Option.isSome_iff_exists.mp h
    exact step_bound hk' hunforged hstolen

end Zone

/-! ## Tokens to run the model with -/

def ascii (s : String) : Bytes := s.toList.map fun c => UInt8.ofNat c.toNat

/-- The digits of base64 for URLs. -/
def b64Alphabet : Bytes := ascii "ABCDEFGHIJKLMNOPQRSTUVWXYZabcdefghijklmnopqrstuvwxyz0123456789-_"

def b64Digit (n : ℕ) : UInt8 := b64Alphabet.getD (n % 64) 0

def b64Encode : Bytes → Bytes
  | a :: b :: c :: rest =>
    let n := (a.toNat * 256 + b.toNat) * 256 + c.toNat
    b64Digit (n / 64 ^ 3) :: b64Digit (n / 64 ^ 2) :: b64Digit (n / 64) :: b64Digit n :: b64Encode rest
  | [a, b] =>
    let n := (a.toNat * 256 + b.toNat) * 4
    [b64Digit (n / 64 ^ 2), b64Digit (n / 64), b64Digit n]
  | [a] => [b64Digit (a.toNat / 4), b64Digit (a.toNat * 16)]
  | [] => []

/-- What was not written as above is not read. -/
def b64Decode : Bytes → Option Bytes
  | a :: b :: c :: d :: rest => do
    let n := ((← b64Alphabet.idxOf? a) * 64 + (← b64Alphabet.idxOf? b)) * 64 ^ 2 + (← b64Alphabet.idxOf? c) * 64 +
      (← b64Alphabet.idxOf? d)
    return UInt8.ofNat (n / 256 ^ 2) :: UInt8.ofNat (n / 256) :: UInt8.ofNat n :: (← b64Decode rest)
  | [a, b, c] => do
    let n := ((← b64Alphabet.idxOf? a) * 64 + (← b64Alphabet.idxOf? b)) * 64 + (← b64Alphabet.idxOf? c)
    if n % 4 = 0 then some [UInt8.ofNat (n / 1024), UInt8.ofNat (n / 4)] else none
  | [a, b] => do
    let n := (← b64Alphabet.idxOf? a) * 64 + (← b64Alphabet.idxOf? b)
    if n % 16 = 0 then some [UInt8.ofNat (n / 16)] else none
  | [_] => none
  | [] => some []

def sampleClaims (sub : Bytes) (iat exp : UInt64) : Bytes :=
  ascii "\x7b\"sub\":\"" ++ sub ++ ascii "\",\"iat\":" ++ decimal iat.toNat ++ ascii ",\"exp\":" ++ decimal exp.toNat ++
    ascii "\x7d"

def afterPrefix (front text : Bytes) : Option Bytes :=
  if text.take front.length = front then some (text.drop front.length) else none

/-- The digits at the front, and what they say. -/
def frontNumber (text : Bytes) : Bytes × UInt64 :=
  let digits := text.takeWhile fun c => 0x30 ≤ c ∧ c ≤ 0x39
  (digits, UInt64.ofNat (digits.foldl (fun n c => n * 10 + (c.toNat - 0x30)) 0))

/-- A reader for claims as they are written. -/
def sampleFromSlice (text : Bytes) : Option JsonValue := do
  let text ← afterPrefix (ascii "\x7b\"sub\":\"") text
  let sub := text.takeWhile (· ≠ 0x22)
  let text ← afterPrefix (ascii "\",\"iat\":") (text.drop sub.length)
  let iat := frontNumber text
  let text ← afterPrefix (ascii ",\"exp\":") (text.drop iat.1.length)
  let exp := frontNumber text
  if text.drop exp.1.length = ascii "\x7d" then
    return .object [(subField, .str sub), (ascii "iat", .u64 iat.2), (expField, .u64 exp.2)]
  else none

/-- A checksum of key and text in place of HMAC. -/
def sampleMac (key : Arr UInt8 32) (text : Bytes) : Bytes :=
  toBe 32 ((key.val ++ text).foldl (fun acc b => (acc * 257 + b.toNat + 1) % (2 ^ 127 - 1)) 0)

def sampleTokens : TokenLib := ⟨sampleMac, b64Encode, b64Decode, sampleClaims, sampleFromSlice⟩

namespace Zone

def homeAddr : IPv8Address := ⟨protocolMagic, 0, 0, 0, 0, 0, 0, 1⟩

def homeText : Bytes := homeAddr.toCanonicalString

lemma length_keyNamed (d : UInt8) : (List.replicate 32 d).length = 32 := List.length_replicate

def keyNamed (d : UInt8) : PublicKey := ⟨List.replicate 32 d, length_keyNamed d⟩

/-- A server nobody has registered at. -/
def opened : Zone sampleSig := ⟨⟨keyNamed 1, keyNamed 0x2A, ∅⟩, []⟩

def registration (d : UInt8) (now : UInt64) : ZoneCall :=
  .register homeText (keyNamed d).val (sampleSignature (keyNamed d) (zoneRegisterMessage homeText (keyNamed d).val)).val
    900 now

/-- A rotation to the key `d`, with a proof under it. -/
def rotation (caller : Caller) (jwt : Bytes) (d : UInt8) (now : UInt64) : ZoneCall :=
  .rotateKey caller jwt homeText (keyNamed d).val (sampleSignature (keyNamed d) (rotatePopMessage homeText (keyNamed d).val)).val
    900 now

/-- The holder of key 7 has registered. -/
def registered : Zone sampleSig := (opened.step sampleTokens (registration 7 1700000000)).1

/-- The token that the holder has got. -/
def homeToken : Bytes := opened.server.issueJwt sampleTokens homeText 1700000000 defaultTokenTtlSecs

/-- The registration is repeated, the holder takes a new key, and somebody else shows a token of their own making. -/
def kept : List ZoneCall :=
  [registration 7 1700000005, rotation .holder homeToken 8 1700000010, rotation .other [] 9 1700000020]

theorem key_bound_sample : Along (step sampleTokens) (Bound sampleTokens homeAddr) registered kept := by
  have hrefused : ∀ (w : Zone sampleSig) (now : UInt64), w.server.verifyTokenClaims sampleTokens [] now = .err .badToken :=
    fun _ _ => rfl
  refine key_bound (k := keyNamed 7) (by decide +kernel) ⟨trivial, trivial, fun sub exp h => ?_, trivial⟩
    ⟨trivial, trivial, fun _ _ exp h => ?_, trivial⟩
  · exact nomatch (hrefused _ _).symm.trans h
  · exact nomatch (hrefused _ _).symm.trans h

/-- Somebody else shows the holder's token with a proof under a key of their own, and has the address. -/
theorem stolen_token_rotates : registered.tokens = [homeToken] ∧ registered.server.keyOf homeAddr = some (keyNamed 7) ∧
    (registered.step sampleTokens (rotation .other homeToken 9 1700000010)).1.server.keyOf homeAddr = some (keyNamed 9) ∧
    (registered.step sampleTokens (rotation .other homeToken 9 1700000010)).2 =
      .ok ⟨issue sampleSig (keyNamed 1) homeAddr (keyNamed 9) 1700000910, homeToken⟩ := by
  decide +kernel

end Zone

end IPv8Plus.Cloud
