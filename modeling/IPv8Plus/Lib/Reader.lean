import IPv8Plus.Lib.Buffer

/-!
# Readers

A reader takes a value off the front of a byte string. Words in little-endian order, counted lists, and text in UTF-8
where what is no text is replaced.
-/

namespace Lib

def le16 (x : UInt16) : Bytes := (be16 x).reverse

def ofLe16 (bs : Bytes) : UInt16 := ofBe16 bs.reverse

def le64 (x : UInt64) : Bytes := (be64 x).reverse

def ofLe64 (bs : Bytes) : UInt64 := ofBe64 bs.reverse

@[simp] lemma length_le16 (x : UInt16) : (le16 x).length = 2 := by
  rw [le16, List.length_reverse, length_be16]

@[simp] lemma ofLe16_le16 (x : UInt16) : ofLe16 (le16 x) = x := by
  rw [ofLe16, le16, List.reverse_reverse, ofBe16_be16]

@[simp] lemma length_le64 (x : UInt64) : (le64 x).length = 8 := by
  rw [le64, List.length_reverse, length_be64]

@[simp] lemma ofLe64_le64 (x : UInt64) : ofLe64 (le64 x) = x := by
  rw [ofLe64, le64, List.reverse_reverse, ofBe64_be64]

lemma le64_ofLe64 {bs : Bytes} (h : bs.length = 8) : le64 (ofLe64 bs) = bs := by
  rw [le64, ofLe64, be64_ofBe64 ((List.length_reverse).trans h), List.reverse_reverse]

abbrev Reader (α : Type) := Bytes → Option (α × Bytes)

/-- So many bytes, if there are as many. -/
def readBytes (n : ℕ) : Reader Bytes := fun data => if data.length < n then none else some (data.take n, data.drop n)

/-- A value read from so many bytes. -/
def readWith {α : Type} (n : ℕ) (f : Bytes → α) : Reader α := fun data => (readBytes n data).map fun x => (f x.1, x.2)

/-- So many values. -/
def readMany {α : Type} (read : Reader α) : ℕ → Reader (List α)
  | 0, data => some ([], data)
  | n + 1, data => do
    let (a, data) ← read data
    let (as, data) ← readMany read n data
    return (a :: as, data)

variable {α : Type} {n : ℕ} {bs rest : Bytes} {f : Bytes → α} {read : Reader α} {write : α → Bytes}

lemma readBytes_append (h : bs.length = n) : readBytes n (bs ++ rest) = some (bs, rest) := by
  have hroom : ¬ (bs ++ rest).length < n := by
    rw [List.length_append]
    omega
  rw [readBytes, if_neg hroom, List.take_left' h, List.drop_left' h]

lemma readWith_append (h : bs.length = n) : readWith n f (bs ++ rest) = some (f bs, rest) := by
  rw [readWith, readBytes_append h]
  rfl

/-- What is written value by value is read back. -/
lemma readMany_flatMap {as : List α} (h : ∀ a ∈ as, ∀ rest, read (write a ++ rest) = some (a, rest)) :
    readMany read as.length (as.flatMap write ++ rest) = some (as, rest) := by
  induction as with
  | nil => rfl
  | cons a as ih =>
    have hhead := h a List.mem_cons_self (as.flatMap write ++ rest)
    have htail := ih fun b hb => h b (List.mem_cons_of_mem _ hb)
    rw [List.length_cons, readMany, List.flatMap_cons, List.append_assoc, hhead]
    dsimp only [Option.bind_eq_bind, Option.bind_some]
    rw [htail]
    rfl

lemma length_readMany {as : List α} {data : Bytes} (h : readMany read n data = some (as, rest)) : as.length = n := by
  induction n generalizing as data with
  | zero =>
    cases h
    rfl
  | succ n ih =>
    rw [readMany] at h
    obtain ⟨⟨a, data'⟩, -, h⟩ := Option.bind_eq_some_iff.mp h
    obtain ⟨⟨as', rest'⟩, hrest, h⟩ := Option.bind_eq_some_iff.mp h
    cases h
    exact congrArg (· + 1) (ih hrest)

/-- What is read back of a list is read back of each of its values. -/
lemma forall_of_readMany {P : α → Prop} {as : List α} {rest' : Bytes}
    (hread : ∀ a rest rest', read (write a ++ rest) = some (a, rest') → P a ∧ rest' = rest)
    (h : readMany read as.length (as.flatMap write ++ rest) = some (as, rest')) : ∀ a ∈ as, P a := by
  induction as with
  | nil => exact fun _ h => absurd h List.not_mem_nil
  | cons a as ih =>
    rw [List.length_cons, readMany, List.flatMap_cons, List.append_assoc] at h
    obtain ⟨⟨a', data⟩, hhead, h⟩ := Option.bind_eq_some_iff.mp h
    obtain ⟨⟨as', rest''⟩, htail, h⟩ := Option.bind_eq_some_iff.mp h
    cases h
    obtain ⟨ha, rfl⟩ := hread a _ _ hhead
    exact List.forall_mem_cons.mpr ⟨ha, ih htail⟩

/-- The bytes of a text. -/
def utf8 (s : String) : Bytes := s.toByteArray.data.toList

/-- How many bytes at the front are the beginning of a character that is not completed. -/
def brokenLength : Bytes → ℕ
  | b :: c :: rest =>
    let cont := fun x : UInt8 => x &&& 0xC0 == 0x80
    let second := (b == 0xE0 && 0xA0 ≤ c && c ≤ 0xBF) || (0xE1 ≤ b && b ≤ 0xEC && cont c) || (b == 0xED && 0x80 ≤ c && c ≤ 0x9F) ||
      (0xEE ≤ b && b ≤ 0xEF && cont c)
    let fourth := (b == 0xF0 && 0x90 ≤ c && c ≤ 0xBF) || (0xF1 ≤ b && b ≤ 0xF3 && cont c) || (b == 0xF4 && 0x80 ≤ c && c ≤ 0x8F)
    if second then 2 else if fourth then (if rest.head?.any cont then 3 else 2) else 1
  | _ => 1

/-- The characters of the text, each broken one replaced. -/
def lossyChars : ℕ → Bytes → List Char
  | 0, _ => []
  | _ + 1, [] => []
  | n + 1, b :: bs =>
    match ByteArray.utf8DecodeChar? ⟨(b :: bs).toArray⟩ 0 with
    | some c => c :: lossyChars n ((b :: bs).drop c.utf8Size)
    | none => Char.ofNat 0xFFFD :: lossyChars n ((b :: bs).drop (brokenLength (b :: bs)))

/-- `String::from_utf8_lossy`. -/
def fromUtf8Lossy (bs : Bytes) : String :=
  match String.fromUTF8? ⟨bs.toArray⟩ with
  | some s => s
  | none => .ofList (lossyChars bs.length bs)

/-- Text is read back from its bytes. -/
lemma fromUtf8Lossy_utf8 (s : String) : fromUtf8Lossy (utf8 s) = s := by
  have hbytes : (⟨(utf8 s).toArray⟩ : ByteArray) = s.toByteArray := by
    rw [utf8, Array.toArray_toList]
  rw [fromUtf8Lossy, hbytes, String.fromUTF8?, dif_pos s.isValidUTF8]
  rfl

end Lib
