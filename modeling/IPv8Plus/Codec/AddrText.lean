import IPv8Plus.Codec.Decode

/-!
# Addresses as text

The canonical text of an address (`ipv8-codec/src/header.rs`): 32 hexadecimal digits, without separators. Text is
its bytes here. `fromCanonicalStr_hex` says what the reader makes of digits that were written.
-/

namespace IPv8Plus.Codec
open Lib

def protocolMagic : UInt16 := 0xFB14

inductive AddrParseError where
  | format
  | badProtocol
  deriving DecidableEq, Repr

/-- The digits `0123456789abcdef`. -/
def hexDigits : Bytes := [0x30, 0x31, 0x32, 0x33, 0x34, 0x35, 0x36, 0x37, 0x38, 0x39, 0x61, 0x62, 0x63, 0x64, 0x65, 0x66]

def hexDigit (v : UInt8) : UInt8 := hexDigits.getD v.toNat 0

def isAsciiHexdigit (b : UInt8) : Bool := (0x30 ≤ b ∧ b ≤ 0x39) ∨ (0x61 ≤ b ∧ b ≤ 0x66) ∨ (0x41 ≤ b ∧ b ≤ 0x46)

def hexVal (b : UInt8) : UInt8 :=
  if 0x30 ≤ b ∧ b ≤ 0x39 then b - 0x30
  else if 0x61 ≤ b ∧ b ≤ 0x66 then b - 0x61 + 10
  else if 0x41 ≤ b ∧ b ≤ 0x46 then b - 0x41 + 10
  else 0

/-- Two digits for each byte, in lower case. -/
def hex (b : Bytes) : Bytes := b.flatMap fun x : UInt8 => [hexDigit (x >>> 4), hexDigit (x &&& 0x0F)]

/-- The bytes that pairs of digits stand for. -/
def unhex : Bytes → Bytes
  | hi :: lo :: rest => (hexVal hi <<< 4 ||| hexVal lo) :: unhex rest
  | _ => []

namespace IPv8Address

def toCanonicalString (a : IPv8Address) : Bytes := hex a.toBytes

/-- Upper and lower case are read; the first two bytes must be the magic number. -/
def fromCanonicalStr (s : Bytes) : Outcome AddrParseError IPv8Address :=
  if s.length ≠ 32 ∨ ¬ s.all isAsciiHexdigit then .err .format
  else do
    let addr ← readAddr (unhex s)
    if addr.protocol ≠ protocolMagic then .err .badProtocol
    else return addr

end IPv8Address

lemma hexDigit_spec (x : UInt8) : (isAsciiHexdigit (hexDigit (x >>> 4)) ∧ isAsciiHexdigit (hexDigit (x &&& 0x0F))) ∧
    hexVal (hexDigit (x >>> 4)) <<< 4 ||| hexVal (hexDigit (x &&& 0x0F)) = x := by
  have hall : ∀ n : Fin 256, (isAsciiHexdigit (hexDigit (UInt8.ofFin n >>> 4)) ∧ isAsciiHexdigit (hexDigit (UInt8.ofFin n &&& 0x0F))) ∧
      hexVal (hexDigit (UInt8.ofFin n >>> 4)) <<< 4 ||| hexVal (hexDigit (UInt8.ofFin n &&& 0x0F)) = UInt8.ofFin n := by
    decide +kernel
  exact hall x.toFin

lemma hex_cons (x : UInt8) (b : Bytes) : hex (x :: b) = hexDigit (x >>> 4) :: hexDigit (x &&& 0x0F) :: hex b := rfl

@[simp] lemma length_hex (b : Bytes) : (hex b).length = 2 * b.length := by
  induction b with
  | nil => rfl
  | cons x b ih =>
    rw [hex_cons, List.length_cons, List.length_cons, ih, List.length_cons, Nat.mul_add_one]

lemma all_hex (b : Bytes) : (hex b).all isAsciiHexdigit = true := by
  induction b with
  | nil => rfl
  | cons x b ih =>
    obtain ⟨⟨hhi, hlo⟩, -⟩ := hexDigit_spec x
    rw [hex_cons, List.all_cons, List.all_cons, hhi, hlo, ih]
    rfl

@[simp] lemma unhex_hex (b : Bytes) : unhex (hex b) = b := by
  induction b with
  | nil => rfl
  | cons x b ih =>
    obtain ⟨-, hjoin⟩ := hexDigit_spec x
    rw [hex_cons, unhex, hjoin, ih]

lemma toCanonicalString_injective : Function.Injective IPv8Address.toCanonicalString := by
  intro a b h
  have hhex := congrArg unhex h
  rw [IPv8Address.toCanonicalString, IPv8Address.toCanonicalString, unhex_hex, unhex_hex] at hhex
  exact IPv8Address.toBytes_injective hhex

lemma fromCanonicalStr_length {s : Bytes} {a : IPv8Address} (h : IPv8Address.fromCanonicalStr s = .ok a) : s.length = 32 := by
  unfold IPv8Address.fromCanonicalStr at h
  split at h
  · cases h
  · next hok => exact not_not.mp (not_or.mp hok).1

/-- The text of an address is read back, if the address has the magic number. -/
theorem fromCanonicalStr_toCanonicalString (a : IPv8Address) : IPv8Address.fromCanonicalStr a.toCanonicalString =
    if a.protocol = protocolMagic then .ok a else .err .badProtocol := by
  have hok : ¬ ((hex a.toBytes).length ≠ 32 ∨ ¬ (hex a.toBytes).all isAsciiHexdigit) := by
    rw [length_hex, IPv8Address.length_toBytes, all_hex, not_or, not_not, not_not]
    exact ⟨rfl, rfl⟩
  rw [IPv8Address.fromCanonicalStr, IPv8Address.toCanonicalString, if_neg hok, unhex_hex, readAddr_toBytes, Outcome.ok_bind]
  by_cases hmagic : a.protocol = protocolMagic
  · rw [if_neg (not_not.mpr hmagic), if_pos hmagic, Outcome.pure_def]
  · rw [if_pos hmagic, if_neg hmagic]

/-- The digits of 16 bytes are read as the address with this wire form. -/
lemma fromCanonicalStr_hex {b : Bytes} {a : IPv8Address} (hlen : b.length = 16) :
    IPv8Address.fromCanonicalStr (hex b) = .ok a ↔ b = a.toBytes ∧ a.protocol = protocolMagic := by
  obtain ⟨a', rfl⟩ := exists_toBytes hlen
  have htext := fromCanonicalStr_toCanonicalString a'
  rw [IPv8Address.toCanonicalString] at htext
  rw [htext]
  constructor
  · intro h
    split at h
    · next hmagic =>
      cases h
      exact ⟨rfl, hmagic⟩
    · cases h
  · rintro ⟨heq, hmagic⟩
    cases IPv8Address.toBytes_injective heq
    exact if_pos hmagic

end IPv8Plus.Codec
