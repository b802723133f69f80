import Mathlib

/-!
# Lists of texts in a column

`encode_json_strings` and `decode_json_strings` of `cloud/resolver/src/sqlite_store.rs`: a list of texts as an array of
JSON strings, written and read by hand. What is written is read back.
-/

namespace IPv8Plus.Cloud

def quote : Char := .ofNat 0x22

def backslash : Char := .ofNat 0x5C

/-- Four digits in base 16. -/
def hexFour (n : ℕ) : List Char :=
  [Nat.digitChar (n / 4096 % 16), Nat.digitChar (n / 256 % 16), Nat.digitChar (n / 16 % 16), Nat.digitChar (n % 16)]

def escapeChar (c : Char) : List Char :=
  if c = quote then [backslash, quote]
  else if c = backslash then [backslash, backslash]
  else if c = '\n' then [backslash, 'n']
  else if c = '\r' then [backslash, 'r']
  else if c = '\t' then [backslash, 't']
  else if c.toNat < 0x20 then backslash :: 'u' :: hexFour c.toNat
  else [c]

def quoted (s : String) : List Char := quote :: s.toList.flatMap escapeChar ++ [quote]

def encodeItems : List String → List Char
  | [] => []
  | s :: rest => quoted s ++ rest.flatMap fun s => ',' :: quoted s

def encodeJsonStrings (list : List String) : String := .ofList ('[' :: encodeItems list ++ [']'])

/-- `char::is_whitespace`. -/
def isWhitespace (c : Char) : Bool :=
  let n := c.toNat
  (0x09 ≤ n ∧ n ≤ 0x0D) ∨ n = 0x20 ∨ n = 0x85 ∨ n = 0xA0 ∨ n = 0x1680 ∨ (0x2000 ≤ n ∧ n ≤ 0x200A) ∨ n = 0x2028 ∨ n = 0x2029 ∨
    n = 0x202F ∨ n = 0x205F ∨ n = 0x3000

def trim (s : List Char) : List Char := ((s.dropWhile isWhitespace).reverse.dropWhile isWhitespace).reverse

def digitValue (c : Char) : Option ℕ :=
  if '0' ≤ c ∧ c ≤ '9' then some (c.toNat - 0x30)
  else if 'a' ≤ c ∧ c ≤ 'f' then some (c.toNat - 0x57)
  else if 'A' ≤ c ∧ c ≤ 'F' then some (c.toNat - 0x37)
  else none

def ofDigits (s : List Char) : Option ℕ := s.foldlM (fun n c => (digitValue c).map (16 * n + ·)) 0

/-- `u32::from_str_radix` with radix 16 reads a sign before the digits. -/
def fromStrRadix16 (s : List Char) : Option ℕ :=
  let digits := if s.head? = some '+' then s.tail else s
  if digits = [] then none else ofDigits digits

/-- `char::from_u32`. -/
def fromU32 (n : ℕ) : Option Char := if n.isValidChar then some (.ofNat n) else none

/-- Where the loop over the characters is. `skip` characters ahead have been read already. -/
structure Scan where
  current : List Char
  inString : Bool
  escape : Bool
  skip : ℕ
  result : List String

def unescape (c : Char) (rest : List Char) (st : Scan) : Scan :=
  if c = 'n' then { st with current := st.current ++ ['\n'], escape := false }
  else if c = 'r' then { st with current := st.current ++ ['\r'], escape := false }
  else if c = 't' then { st with current := st.current ++ ['\t'], escape := false }
  else if c = 'u' then
    if 4 ≤ rest.length then
      { st with
        current := st.current ++ ((fromStrRadix16 (rest.take 4)).bind fromU32).toList
        escape := false
        skip := 4 }
    else { st with escape := false }
  else { st with current := st.current ++ [c], escape := false }

def scanChar (c : Char) (rest : List Char) (st : Scan) : Scan :=
  if st.escape then unescape c rest st
  else if st.inString then
    if c = backslash then { st with escape := true }
    else if c = quote then { st with inString := false, result := st.result ++ [.ofList st.current], current := [] }
    else { st with current := st.current ++ [c] }
  else if c = quote then { st with inString := true }
  else st

def scan : List Char → Scan → Scan
  | [], st => st
  | c :: rest, st => scan rest (if st.skip = 0 then scanChar c rest st else { st with skip := st.skip - 1 })

def decodeJsonStrings (s : String) : List String :=
  let s := trim s.toList
  if s.head? ≠ some '[' ∨ s.getLast? ≠ some ']' then []
  else
    let inner := s.tail.dropLast
    if trim inner = [] then [] else (scan inner ⟨[], false, false, 0, []⟩).result

variable {c : Char} {rest cur : List Char} {result : List String}

lemma fromStrRadix16_hexFour {n : ℕ} (h : n < 0x20) : fromStrRadix16 (hexFour n) = some n := by
  have hall : ∀ n : Fin 0x20, fromStrRadix16 (hexFour n.val) = some n.val := by decide
  exact hall ⟨n, h⟩

/-- A character is read back from the way it is written. -/
lemma scan_escapeChar : scan (escapeChar c ++ rest) ⟨cur, true, false, 0, result⟩ = scan rest ⟨cur ++ [c], true, false, 0, result⟩ := by
  -- the five escapes of one letter, the control characters, and all others
  rw [escapeChar]
  split
  · next h =>
    rw [h]
    rfl
  split
  · next h =>
    rw [h]
    rfl
  split
  · next h =>
    rw [h]
    rfl
  split
  · next h =>
    rw [h]
    rfl
  split
  · next h =>
    rw [h]
    rfl
  split
  · next h =>
    have hread : ((fromStrRadix16 (hexFour c.toNat)).bind fromU32).toList = [c] := by
      rw [fromStrRadix16_hexFour h, Option.bind_some, fromU32, if_pos (by left; omega), Char.ofNat_toNat]
      rfl
    rw [← hread]
    rfl
  · next hq hb _ _ _ _ =>
    rw [List.singleton_append, scan, if_pos rfl, scanChar, if_neg Bool.false_ne_true, if_pos rfl, if_neg hb, if_neg hq]

lemma scan_flatMap (cs : List Char) : scan (cs.flatMap escapeChar ++ rest) ⟨cur, true, false, 0, result⟩ =
    scan rest ⟨cur ++ cs, true, false, 0, result⟩ := by
  induction cs generalizing cur with
  | nil => rw [List.append_nil, List.flatMap_nil, List.nil_append]
  | cons c cs ih => rw [List.flatMap_cons, List.append_assoc, scan_escapeChar, ih, List.append_assoc, List.singleton_append]

lemma scan_quoted (s : String) : scan (quoted s ++ rest) ⟨[], false, false, 0, result⟩ =
    scan rest ⟨[], false, false, 0, result ++ [s]⟩ := by
  rw [quoted, List.cons_append, List.cons_append, List.append_assoc]
  -- the scanner enters a string at its first quote and leaves it at the next that is not escaped
  have hopen : scan (quote :: (s.toList.flatMap escapeChar ++ ([quote] ++ rest))) ⟨[], false, false, 0, result⟩ =
      scan (s.toList.flatMap escapeChar ++ ([quote] ++ rest)) ⟨[], true, false, 0, result⟩ := rfl
  have hclose : scan ([quote] ++ rest) ⟨s.toList, true, false, 0, result⟩ =
      scan rest ⟨[], false, false, 0, result ++ [.ofList s.toList]⟩ := rfl
  rw [hopen, scan_flatMap, List.nil_append, hclose, String.ofList_toList]

lemma scan_items (list : List String) : scan (list.flatMap fun s => ',' :: quoted s) ⟨[], false, false, 0, result⟩ =
    ⟨[], false, false, 0, result ++ list⟩ := by
  induction list generalizing result with
  | nil => rw [List.append_nil, List.flatMap_nil, scan]
  | cons s list ih =>
    have hcomma : scan (',' :: (quoted s ++ list.flatMap fun s => ',' :: quoted s)) ⟨[], false, false, 0, result⟩ =
        scan (quoted s ++ list.flatMap fun s => ',' :: quoted s) ⟨[], false, false, 0, result⟩ := rfl
    rw [List.flatMap_cons, List.cons_append, hcomma, scan_quoted, ih, List.append_assoc, List.singleton_append]

/-- Nothing is trimmed off between two characters that are no white space. -/
lemma trim_eq {a b : Char} {s : List Char} (ha : isWhitespace a = false) (hb : isWhitespace b = false) :
    trim (a :: s ++ [b]) = a :: s ++ [b] := by
  rw [trim, List.cons_append, List.dropWhile_cons_of_neg (by rw [ha]; exact Bool.false_ne_true), ← List.cons_append,
    List.reverse_append, List.reverse_singleton, List.singleton_append,
    List.dropWhile_cons_of_neg (by rw [hb]; exact Bool.false_ne_true), ← List.singleton_append, List.reverse_append,
    List.reverse_reverse, List.reverse_singleton]

/-- A list of texts is read back. -/
lemma decodeJsonStrings_encodeJsonStrings (list : List String) : decodeJsonStrings (encodeJsonStrings list) = list := by
  have htrim : trim ('[' :: encodeItems list ++ [']']) = '[' :: encodeItems list ++ [']'] := trim_eq (by decide) (by decide)
  have hlast : ('[' :: encodeItems list ++ [']']).getLast? = some ']' := List.getLast?_concat
  rw [decodeJsonStrings, encodeJsonStrings, String.toList_ofList, htrim]
  dsimp only
  rw [hlast, if_neg (by rw [not_or, not_not, not_not]; exact ⟨rfl, rfl⟩), List.cons_append, List.tail_cons,
    List.dropLast_concat]
  cases list with
  | nil => rfl
  | cons s rest =>
    -- a list that is not empty has a quote inside the brackets
    have hinner : trim (encodeItems (s :: rest)) ≠ [] := by
      rw [encodeItems, quoted, List.cons_append, List.cons_append, trim,
        List.dropWhile_cons_of_neg (by decide), Ne, List.reverse_eq_nil_iff, List.dropWhile_eq_nil_iff]
      intro hall
      have hquote := hall quote (by simp)
      exact absurd hquote (by decide)
    rw [if_neg hinner, encodeItems, scan_quoted, scan_items]
    rfl

/-- Whatever the texts are made of, the column gives the list back; so no two lists are written alike. -/
theorem jsonStrings_roundTrip : Function.LeftInverse decodeJsonStrings encodeJsonStrings ∧ Function.Injective encodeJsonStrings := by
  have hleft : Function.LeftInverse decodeJsonStrings encodeJsonStrings := decodeJsonStrings_encodeJsonStrings
  exact ⟨hleft, hleft.injective⟩

end IPv8Plus.Cloud
