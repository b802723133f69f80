import IPv8Plus.Codec.Layouts
import IPv8Plus.Cloud.Ans
import IPv8Plus.Lib.Reader

/-!
# Semantic tags

`SemanticTags` of `ipv8-codec/src/layouts.rs`: capability tags with separators between them, filled up with zeros to a multiple
of eight bytes. What is accepted is exactly the tags that can be written, with any number of zeros behind them.
-/

namespace IPv8Plus.Codec
open Lib

/-- The errors of a layout that are about tags. -/
inductive TagError where
  | emptyTags
  | tooManyTags
  | badTag
  | tagsTooLong
  deriving DecidableEq, Repr

namespace SemanticTags

def maxTagLen : Nat := 48

def maxTags : Nat := 32

def maxPayload : Nat := 1536

/-- U+001F. -/
def sep : UInt8 := 0x1F

def dash : UInt8 := 0x2D

def isTagByte (c : UInt8) : Bool := (0x61 ≤ c && c ≤ 0x7A) || (0x30 ≤ c && c ≤ 0x39) || c == dash

def checkTag (b : Bytes) : Except TagError Unit :=
  if b.isEmpty ∨ maxTagLen < b.length then .error .badTag
  else if b.head? = some dash ∨ b.getLast? = some dash then .error .badTag
  else if ¬ b.all isTagByte then .error .badTag
  else .ok ()

/-- Zeros up to a multiple of eight. -/
def pad (p : Bytes) : Bytes := p ++ List.replicate ((8 - p.length % 8) % 8) 0

def encode (tags : List String) : Except TagError Bytes :=
  if tags.isEmpty then .error .emptyTags
  else if maxTags < tags.length then .error .tooManyTags
  else do
    tags.forM fun t => checkTag (utf8 t)
    let p := [sep].intercalate (tags.map utf8)
    if maxPayload < p.length then .error .tagsTooLong else .ok (pad p)

def trimPad (p : Bytes) : Bytes := p.rdropWhile (· == 0)

/-- A part between separators must be text and a tag. -/
def readTag (part : Bytes) : Except TagError String :=
  match String.fromUTF8? ⟨part.toArray⟩ with
  | none => .error .badTag
  | some s => do
    checkTag (utf8 s)
    return s

def decode (p : Bytes) : Except TagError (List String) :=
  if p.isEmpty then .error .emptyTags
  else if maxPayload < p.length then .error .tagsTooLong
  else
    let parts := (trimPad p).splitOn sep
    if maxTags < parts.length then .error .tooManyTags else parts.mapM readTag

/-- 1 to 48 bytes of `a-z0-9-`, with no dash at either end. -/
structure ValidTag (b : Bytes) : Prop where
  nonempty : b ≠ []
  short : b.length ≤ maxTagLen
  head : b.head? ≠ some dash
  last : b.getLast? ≠ some dash
  bytes : ∀ c ∈ b, isTagByte c = true

/-- The tags of a header: 1 to 32 of them. -/
structure ValidTags (tags : List String) : Prop where
  nonempty : tags ≠ []
  few : tags.length ≤ maxTags
  valid : ∀ t ∈ tags, ValidTag (utf8 t)

/-- The tags with separators between them. -/
def joined (tags : List String) : Bytes := [sep].intercalate (tags.map utf8)

variable {b p q : Bytes} {t : String} {tags : List String} {n : Nat}

/-! ## Single tags -/

lemma checkTag_eq_ok : checkTag b = .ok () ↔ ValidTag b := by
  rw [checkTag]
  constructor
  · intro h
    split_ifs at h with hlen hdash hbytes
    obtain ⟨hempty, hlong⟩ := not_or.mp hlen
    obtain ⟨hhead, hlast⟩ := not_or.mp hdash
    exact ⟨fun hb => hempty (List.isEmpty_iff.mpr hb), Nat.not_lt.mp hlong, hhead, hlast, List.all_eq_true.mp hbytes⟩
  · intro h
    rw [if_neg (not_or.mpr ⟨fun hb => h.nonempty (List.isEmpty_iff.mp hb), Nat.not_lt.mpr h.short⟩), if_neg (not_or.mpr ⟨h.head, h.last⟩),
      if_neg (not_not.mpr (List.all_eq_true.mpr h.bytes))]

lemma isTagByte_ne : ¬ isTagByte sep = true ∧ ¬ isTagByte 0 = true := by decide

lemma fromUTF8_utf8 (s : String) : String.fromUTF8? ⟨(utf8 s).toArray⟩ = some s := by
  have hbytes : (⟨(utf8 s).toArray⟩ : ByteArray) = s.toByteArray := by rw [utf8, Array.toArray_toList]
  rw [hbytes, String.fromUTF8?, dif_pos s.isValidUTF8]
  rfl

lemma utf8_of_fromUTF8 (h : String.fromUTF8? ⟨b.toArray⟩ = some t) : utf8 t = b := by
  rw [String.fromUTF8?] at h
  split_ifs at h with hvalid
  cases h
  rfl

lemma readTag_eq_ok : readTag b = .ok t ↔ b = utf8 t ∧ ValidTag (utf8 t) := by
  rw [readTag]
  constructor
  · intro h
    cases htext : String.fromUTF8? ⟨b.toArray⟩ with
    | none =>
      rw [htext] at h
      cases h
    | some s =>
      rw [htext] at h
      cases hcheck : checkTag (utf8 s) with
      | error e =>
        dsimp only at h
        rw [hcheck] at h
        cases h
      | ok u =>
        dsimp only at h
        rw [hcheck] at h
        cases h
        exact ⟨(utf8_of_fromUTF8 htext).symm, checkTag_eq_ok.mp hcheck⟩
  · rintro ⟨rfl, hvalid⟩
    rw [fromUTF8_utf8]
    dsimp only
    rw [checkTag_eq_ok.mpr hvalid]
    rfl

/-! ## Lists of tags -/

lemma forM_checkTag_eq_ok : (tags.forM fun t => checkTag (utf8 t)) = .ok () ↔ ∀ t ∈ tags, ValidTag (utf8 t) := by
  induction tags with
  | nil => exact iff_of_true rfl nofun
  | cons t tags ih =>
    rw [List.forall_mem_cons, ← checkTag_eq_ok, ← ih]
    change (checkTag (utf8 t) >>= fun _ => tags.forM fun t => checkTag (utf8 t)) = .ok () ↔ _
    cases checkTag (utf8 t) with
    | error e => exact iff_of_false nofun fun h => nomatch h.1
    | ok u => exact (and_iff_right rfl).symm

lemma mapM_readTag_eq_ok {parts : List Bytes} :
    parts.mapM readTag = .ok tags ↔ parts = tags.map utf8 ∧ ∀ t ∈ tags, ValidTag (utf8 t) := by
  induction parts generalizing tags with
  | nil =>
    constructor
    · rintro ⟨⟩
      exact ⟨rfl, nofun⟩
    · rintro ⟨hparts, -⟩
      rw [List.map_eq_nil_iff.mp hparts.symm]
      rfl
  | cons part parts ih =>
    rw [List.mapM_cons]
    constructor
    · intro h
      cases hpart : readTag part with
      | error e =>
        rw [hpart] at h
        cases h
      | ok t =>
        rw [hpart] at h
        cases hrest : parts.mapM readTag with
        | error e =>
          rw [hrest] at h
          cases h
        | ok rest =>
          rw [hrest] at h
          cases h
          obtain ⟨rfl, hvalid⟩ := readTag_eq_ok.mp hpart
          obtain ⟨rfl, hall⟩ := ih.mp hrest
          exact ⟨rfl, List.forall_mem_cons.mpr ⟨hvalid, hall⟩⟩
    · rintro ⟨hparts, hall⟩
      cases tags with
      | nil => cases hparts
      | cons t tags =>
        obtain ⟨rfl, rfl⟩ := List.cons.inj hparts
        obtain ⟨hvalid, hrest⟩ := List.forall_mem_cons.mp hall
        rw [readTag_eq_ok.mpr ⟨rfl, hvalid⟩, ih.mpr ⟨rfl, hrest⟩]
        rfl

/-- Tags have no separators, so they are found again between them. -/
lemma splitOn_joined (h : ValidTags tags) : (joined tags).splitOn sep = tags.map utf8 := by
  refine List.splitOn_intercalate sep ?_ (List.map_eq_nil_iff.not.mpr h.nonempty)
  intro part hpart hsep
  obtain ⟨t, ht, rfl⟩ := List.mem_map.mp hpart
  exact isTagByte_ne.1 ((h.valid t ht).bytes sep hsep)

lemma joined_splitOn (h : b.splitOn sep = tags.map utf8) : joined tags = b := by
  rw [joined, ← h, List.intercalate_splitOn]

lemma getLast_intercalate {l : List Bytes} (hne : l ≠ []) (h : ∀ b ∈ l, b ≠ [] ∧ ∀ c ∈ b, c ≠ 0) :
    ∃ c, ([sep].intercalate l).getLast? = some c ∧ c ≠ 0 := by
  induction l with
  | nil => exact absurd rfl hne
  | cons b l ih =>
    cases l with
    | nil =>
      obtain ⟨hb, hzero⟩ := h b List.mem_cons_self
      refine ⟨b.getLast hb, ?_, hzero _ (List.getLast_mem hb)⟩
      rw [List.intercalate_singleton, List.getLast?_eq_some_getLast hb]
    | cons b' l =>
      obtain ⟨c, hlast, hc⟩ := ih (List.cons_ne_nil _ _) fun x hx => h x (List.mem_cons_of_mem _ hx)
      refine ⟨c, ?_, hc⟩
      rw [List.intercalate_cons_cons, List.getLast?_append, hlast]
      rfl

/-- The last byte is that of the last tag, and no zero. -/
lemma getLast_joined (h : ValidTags tags) : ∃ c, (joined tags).getLast? = some c ∧ c ≠ 0 := by
  refine getLast_intercalate (List.map_eq_nil_iff.not.mpr h.nonempty) fun b hb => ?_
  obtain ⟨t, ht, rfl⟩ := List.mem_map.mp hb
  refine ⟨(h.valid t ht).nonempty, fun c hc hzero => ?_⟩
  exact isTagByte_ne.2 (hzero ▸ (h.valid t ht).bytes c hc)

lemma joined_ne_nil (h : ValidTags tags) : joined tags ≠ [] := by
  obtain ⟨c, hlast, -⟩ := getLast_joined h
  rintro hnil
  rw [hnil] at hlast
  cases hlast

lemma trimPad_joined (h : ValidTags tags) (n : Nat) : trimPad (joined tags ++ List.replicate n 0) = joined tags := by
  induction n with
  | zero =>
    obtain ⟨c, hlast, hc⟩ := getLast_joined h
    rw [List.replicate_zero, List.append_nil, trimPad, List.rdropWhile_eq_self_iff]
    intro hne hzero
    rw [List.getLast?_eq_some_getLast hne] at hlast
    cases hlast
    exact hc (beq_iff_eq.mp hzero)
  | succ n ih => rwa [List.replicate_succ', ← List.append_assoc, trimPad, List.rdropWhile_concat_pos _ _ _ (by decide), ← trimPad]

lemma exists_zeros (p : Bytes) : ∃ n, p = trimPad p ++ List.replicate n 0 := by
  have hzero : ∀ c ∈ p.rtakeWhile (· == 0), c = 0 := fun c hc => beq_iff_eq.mp (List.mem_rtakeWhile_imp (p := fun x => x == 0) hc)
  refine ⟨(p.rtakeWhile (· == 0)).length, ?_⟩
  rw [← List.eq_replicate_of_mem hzero, trimPad, List.rdropWhile_append_rtakeWhile]

/-! ## What is accepted -/

lemma encode_eq_ok : encode tags = .ok p ↔ ValidTags tags ∧ (joined tags).length ≤ maxPayload ∧ p = pad (joined tags) := by
  rw [encode, ← joined]
  constructor
  · intro h
    split_ifs at h with hempty hmany
    cases hcheck : tags.forM fun t => checkTag (utf8 t) with
    | error e =>
      rw [hcheck] at h
      cases h
    | ok u =>
      rw [hcheck] at h
      change (if maxPayload < (joined tags).length then Except.error TagError.tagsTooLong else Except.ok (pad (joined tags))) = _ at h
      split_ifs at h with hlong
      cases h
      exact ⟨⟨fun hnil => hempty (List.isEmpty_iff.mpr hnil), Nat.not_lt.mp hmany, forM_checkTag_eq_ok.mp hcheck⟩, Nat.not_lt.mp hlong, rfl⟩
  · rintro ⟨hvalid, hlen, rfl⟩
    rw [if_neg fun hempty => hvalid.nonempty (List.isEmpty_iff.mp hempty), if_neg (Nat.not_lt.mpr hvalid.few),
      forM_checkTag_eq_ok.mpr hvalid.valid]
    exact if_neg (Nat.not_lt.mpr hlen)

lemma decode_eq_ok : decode p = .ok tags ↔
    ValidTags tags ∧ p.length ≤ maxPayload ∧ ∃ n, p = joined tags ++ List.replicate n 0 := by
  rw [decode]
  dsimp only
  constructor
  · intro h
    split_ifs at h with hempty hlong hmany
    obtain ⟨hparts, hvalid⟩ := mapM_readTag_eq_ok.mp h
    obtain ⟨n, hp⟩ := exists_zeros p
    rw [hparts, List.length_map] at hmany
    refine ⟨⟨?_, Nat.not_lt.mp hmany, hvalid⟩, Nat.not_lt.mp hlong, n, ?_⟩
    · rintro rfl
      exact List.splitOn_ne_nil _ _ hparts
    · rwa [joined_splitOn hparts]
  · rintro ⟨hvalid, hlen, n, rfl⟩
    rw [if_neg fun hempty => joined_ne_nil hvalid (List.append_eq_nil_iff.mp (List.isEmpty_iff.mp hempty)).1, if_neg (Nat.not_lt.mpr hlen),
      trimPad_joined hvalid, splitOn_joined hvalid, List.length_map, if_neg (Nat.not_lt.mpr hvalid.few)]
    exact mapM_readTag_eq_ok.mpr ⟨rfl, hvalid.valid⟩

lemma length_pad_mod (p : Bytes) : (pad p).length % 8 = 0 := by
  rw [pad, List.length_append, List.length_replicate]
  omega

/-- The limit is a multiple of eight, so zeros do not exceed it. -/
lemma length_pad_le (h : p.length ≤ maxPayload) : (pad p).length ≤ maxPayload := by
  rw [maxPayload] at h ⊢
  rw [pad, List.length_append, List.length_replicate]
  omega

/-- What is written for tags can be carried by an extension of any type. -/
lemma new_pad (h : ValidTags tags) (hlen : (joined tags).length ≤ maxPayload) {ty : ExtType} (hty : ty ≠ .none) :
    ExtensionHeader.new ty (pad (joined tags)) = some ⟨ty, pad (joined tags)⟩ := by
  have hmod := length_pad_mod (joined tags)
  have hle := length_pad_le hlen
  have hpos : 0 < (pad (joined tags)).length := by
    rw [pad, List.length_append]
    exact Nat.add_pos_left (List.length_pos_of_ne_nil (joined_ne_nil h)) _
  rw [maxPayload] at hle
  rw [ExtensionHeader.new, if_neg hty, if_neg (by omega)]

/-- **The codec of semantic tags.** Tags that are written are read back, in a payload that an extension can carry; what can be
read are tags that can be written with zeros behind them, and writing them again gives the same up to the zeros. -/
theorem semanticTags_codec :
    (∀ tags p, encode tags = .ok p → decode p = .ok tags ∧ p.length % 8 = 0 ∧ p.length ≤ maxPayload ∧
      ∀ ty, ty ≠ ExtType.none → ExtensionHeader.new ty p = some ⟨ty, p⟩) ∧
    (∀ p tags, decode p = .ok tags ↔ ValidTags tags ∧ p.length ≤ maxPayload ∧ ∃ n, p = joined tags ++ List.replicate n 0) ∧
    ∀ p tags, decode p = .ok tags → ∃ q, encode tags = .ok q ∧ trimPad q = trimPad p := by
  refine ⟨fun tags p h => ?_, fun p tags => decode_eq_ok, fun p tags h => ?_⟩
  · obtain ⟨hvalid, hlen, rfl⟩ := encode_eq_ok.mp h
    exact ⟨decode_eq_ok.mpr ⟨hvalid, length_pad_le hlen, _, rfl⟩, length_pad_mod _, length_pad_le hlen, fun ty => new_pad hvalid hlen⟩
  · obtain ⟨hvalid, hlen, n, rfl⟩ := decode_eq_ok.mp h
    rw [List.length_append] at hlen
    refine ⟨pad (joined tags), encode_eq_ok.mpr ⟨hvalid, by omega, rfl⟩, ?_⟩
    rw [pad, trimPad_joined hvalid, trimPad_joined hvalid]

/-- The rule of the name service for a tag is that of the codec. -/
lemma ans_checkTag_iff : Cloud.Ans.checkTag b = true ↔ ValidTag b := by
  have hbyte : ∀ c : UInt8, isTagByte c = decide ((0x61 ≤ c ∧ c ≤ 0x7A) ∨ (0x30 ≤ c ∧ c ≤ 0x39) ∨ c = 0x2D) := by
    intro c
    rw [isTagByte, dash, Bool.or_assoc, Bool.decide_or, Bool.decide_or, Bool.decide_and, Bool.decide_and]
    rfl
  rw [Cloud.Ans.checkTag, decide_eq_true_iff, ← funext hbyte, List.all_eq_true]
  exact ⟨fun ⟨hne, hlen, hhead, hlast, hbytes⟩ => ⟨hne, hlen, hhead, hlast, hbytes⟩,
    fun h => ⟨h.nonempty, h.short, h.head, h.last, h.bytes⟩⟩

/-- The name service accepts the tags that can be written. -/
theorem validateTags_iff : Cloud.Ans.validateTags (tags.map utf8) = .ok () ↔ ∃ p, encode tags = .ok p := by
  have hrule : (tags.map utf8).all Cloud.Ans.checkTag = true ↔ ∀ t ∈ tags, ValidTag (utf8 t) := by
    rw [List.all_eq_true, List.forall_mem_map]
    exact forall₂_congr fun t _ => ans_checkTag_iff
  rw [Cloud.Ans.validateTags]
  constructor
  · intro h
    split_ifs at h with hbad
    push Not at hbad
    obtain ⟨hne, hfew, hvalid, hlen⟩ := hbad
    rw [List.length_map] at hfew
    exact ⟨_, encode_eq_ok.mpr ⟨⟨fun hnil => hne (List.map_eq_nil_iff.mpr hnil), hfew, hrule.mp hvalid⟩, hlen, rfl⟩⟩
  · rintro ⟨p, hp⟩
    obtain ⟨hvalid, hlen, -⟩ := encode_eq_ok.mp hp
    refine if_neg ?_
    rintro (hnil | hmany | hbad | hlong)
    · exact hvalid.nonempty (List.map_eq_nil_iff.mp hnil)
    · rw [List.length_map] at hmany
      exact Nat.not_lt.mpr hvalid.few hmany
    · exact hbad (hrule.mpr hvalid.valid)
    · exact Nat.not_lt.mpr hlen hlong

end SemanticTags

end IPv8Plus.Codec
