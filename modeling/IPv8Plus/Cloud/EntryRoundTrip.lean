import IPv8Plus.Cloud.Candidates

/-!
# Entries that do not fit their bytes

A text or a list goes into the bytes of an entry behind its length, cut off to 16 bits. The service bounds the candidates
that a node reports, and nothing else: an entry that it stores is read back from its bytes exactly if its texts and lists
are short. Else the bytes behind the cut are read as further fields.
-/

namespace IPv8Plus.Cloud
open Lib Codec Routing

/-- The entry comes back from its bytes, its instants to the second. -/
def ReadsBack (clock clock' : ℕ → Reading) (e : Entry) : Prop :=
  ∃ e', decodeEntry clock' (encodeEntry clock e) = .ok e' ∧ e'.onWall clock' = e.onWall clock

/-- What the service does not bound. -/
structure Fits (e : Entry) : Prop where
  tunnelEntry : Short e.record.tunnelEntry
  altEntries : ShortList e.record.altEntries
  observed : ∀ x ∈ e.record.observed, Short x.1

/-- What the service bounds. -/
structure Bounded (e : Entry) : Prop where
  ttl : 10 ^ 9 ∣ e.record.ttl.val
  localCandidates : ShortList e.record.localCandidates

section

variable {clock clock' : ℕ → Reading} {r r' : Reading} {e e' : Entry} {s : String} {l : List String} {data rest rest' : Bytes}

lemma Fits.encodable (h : Fits e) (hb : Bounded e) : Encodable e :=
  ⟨h.tunnelEntry, h.altEntries, hb.ttl, h.observed, hb.localCandidates⟩

/-- The text whose bytes are read has at least as many as are cut off. -/
lemma short_of_readString (h : readString (encodeString s ++ rest) = some (s, rest')) : Short s ∧ rest' = rest := by
  have hshort : Short s := by
    by_contra hlong
    rw [Short, not_lt] at hlong
    rw [readString, encodeString, List.append_assoc, readU16_append] at h
    simp only [Option.bind_eq_bind, Option.bind_some] at h
    rw [UInt16.toNat_ofNat'] at h
    -- the length that is written has lost its upper bits, so at least 2^16 bytes are left over
    have hcut : (utf8 s).length % 2 ^ 16 + 2 ^ 16 ≤ (utf8 s).length := by omega
    generalize (utf8 s).length % 2 ^ 16 = k at h hcut
    have htake : (utf8 s ++ rest).take k = (utf8 s).take k := List.take_append_of_le_length (by omega)
    have hread : s = fromUtf8Lossy ((utf8 s).take k) := by
      rw [readStr, readWith, readBytes] at h
      split at h
      · cases h
      · rw [Option.map_some, htake] at h
        exact (congrArg Prod.fst (Option.some.inj h)).symm
    -- what is read from so few bytes cannot be the whole text
    have hlen := length_fromUtf8Lossy_take s k
    rw [← hread] at hlen
    omega
  have hback := @readString_append rest s hshort
  rw [h] at hback
  exact ⟨hshort, congrArg Prod.snd (Option.some.inj hback)⟩

lemma shortList_of_readStrings (h : readStrings (encodeStrings l ++ rest) = some (l, rest')) : ShortList l ∧ rest' = rest := by
  have hshort : ShortList l := by
    rw [readStrings, encodeStrings, List.append_assoc, readU16_append] at h
    simp only [Option.bind_eq_bind, Option.bind_some] at h
    -- the count that is read is below 2^16, and each text is read for itself
    have hlen := length_readMany h
    rw [← hlen] at h
    refine ⟨?_, forall_of_readMany (fun s rest rest' h => short_of_readString h) h⟩
    rw [hlen]
    exact UInt16.toNat_lt _
  have hback := @readStrings_append rest l hshort
  rw [h] at hback
  exact ⟨hshort, congrArg Prod.snd (Option.some.inj hback)⟩

lemma orErr_eq_ok {α : Type} {x : Option α} {a : α} (h : orErr x = .ok a) : x = some a := by
  cases x with
  | none => cases h
  | some b =>
    cases h
    rfl

/-- The fields of an entry in its bytes, one behind the other. -/
lemma decodeEntry_eq_ok (h : decodeEntry clock data = .ok e) : ∃ d₁ d₂ d₃ d₄ d₅ d₆ d₇ d₈ d₉ capable regSecs ttlSecs,
    readKey data = some (e.edPub, d₁) ∧ readString d₁ = some (e.record.tunnelEntry, d₂) ∧
      readStrings d₂ = some (e.record.altEntries, d₃) ∧ readU8 d₃ = some (capable, d₄) ∧ readU32 d₄ = some (e.record.mtu, d₅) ∧
        readU64 d₅ = some (regSecs, d₆) ∧ readU64 d₆ = some (ttlSecs, d₇) ∧
          readObserved (clock 1) d₇ = .ok (e.record.observed, d₈) ∧ readStrings d₈ = some (e.record.localCandidates, d₉) := by
  unfold decodeEntry at h
  obtain ⟨⟨edPub, d₁⟩, hkey, h⟩ := Outcome.bind_eq_ok.mp h
  obtain ⟨⟨tunnelEntry, d₂⟩, htunnel, h⟩ := Outcome.bind_eq_ok.mp h
  obtain ⟨⟨altEntries, d₃⟩, halt, h⟩ := Outcome.bind_eq_ok.mp h
  obtain ⟨⟨capable, d₄⟩, hcapable, h⟩ := Outcome.bind_eq_ok.mp h
  obtain ⟨⟨mtu, d₅⟩, hmtu, h⟩ := Outcome.bind_eq_ok.mp h
  obtain ⟨⟨regSecs, d₆⟩, hreg, h⟩ := Outcome.bind_eq_ok.mp h
  obtain ⟨⟨ttlSecs, d₇⟩, httl, h⟩ := Outcome.bind_eq_ok.mp h
  obtain ⟨⟨observed, d₈⟩, hobserved, h⟩ := Outcome.bind_eq_ok.mp h
  obtain ⟨⟨localCandidates, d₉⟩, hlocal, h⟩ := Outcome.bind_eq_ok.mp h
  obtain ⟨registeredAt, -, h⟩ := Outcome.bind_eq_ok.mp h
  cases h
  exact ⟨d₁, d₂, d₃, d₄, d₅, d₆, d₇, d₈, d₉, capable, regSecs, ttlSecs, orErr_eq_ok hkey, orErr_eq_ok htunnel, orErr_eq_ok halt,
    orErr_eq_ok hcapable, orErr_eq_ok hmtu, orErr_eq_ok hreg, orErr_eq_ok httl, hobserved, orErr_eq_ok hlocal⟩

/-- The observed address that is read, whatever its seconds. -/
lemma short_of_readObserved {observed observed' : Option (String × Instant)}
    (h : readObserved r' (encodeObserved r observed ++ rest) = .ok (observed', rest'))
    (hsame : observed'.map Prod.fst = observed.map Prod.fst) : ∀ x ∈ observed, Short x.1 := by
  rintro ⟨addr, t⟩ ⟨⟩
  have hbytes : encodeObserved r (some (addr, t)) ++ rest =
      1 :: (encodeString addr ++ (le64 (instantToSystemSecs r t) ++ rest)) := by
    rw [encodeObserved, List.cons_append, List.cons_append, List.append_assoc]
  rw [hbytes, readObserved, orErr_bind readU8_cons] at h
  dsimp only at h
  rw [if_neg (by decide), if_pos rfl] at h
  obtain ⟨⟨addr', d₁⟩, haddr, h⟩ := Outcome.bind_eq_ok.mp h
  obtain ⟨⟨secs, d₂⟩, -, h⟩ := Outcome.bind_eq_ok.mp h
  obtain ⟨t', -, h⟩ := Outcome.bind_eq_ok.mp h
  cases h
  cases Option.some.inj hsame
  exact (short_of_readString (orErr_eq_ok haddr)).1

/-- An entry that comes back fits. -/
lemma fits_of_readsBack (h : ReadsBack clock clock' e) : Fits e := by
  obtain ⟨e', hdecode, hwall⟩ := h
  obtain ⟨d₁, d₂, d₃, d₄, d₅, d₆, d₇, d₈, d₉, capable, regSecs, ttlSecs, hkey, htunnel, halt, hcapable, hmtu, hreg, httl,
    hobserved, -⟩ := decodeEntry_eq_ok hdecode
  have htunnelEntry : (e'.onWall clock').record.tunnelEntry = (e.onWall clock).record.tunnelEntry := by rw [hwall]
  have haltEntries : (e'.onWall clock').record.altEntries = (e.onWall clock).record.altEntries := by rw [hwall]
  have hsame : (e'.onWall clock').record.observed.map Prod.fst = (e.onWall clock).record.observed.map Prod.fst := by rw [hwall]
  unfold Entry.onWall at htunnelEntry haltEntries hsame
  dsimp only at htunnelEntry haltEntries hsame
  rw [Option.map_map, Option.map_map] at hsame
  rw [encodeEntry] at hkey
  simp only [List.append_assoc] at hkey
  obtain rfl := congrArg Prod.snd (Option.some.inj (hkey.symm.trans readKey_append))
  -- the reader is where the writer was only behind a field that is short, so the fields go one by one
  rw [htunnelEntry] at htunnel
  obtain ⟨hshort, rfl⟩ := short_of_readString htunnel
  rw [haltEntries] at halt
  obtain ⟨hshortList, rfl⟩ := shortList_of_readStrings halt
  cases hcapable.symm.trans readU8_cons
  obtain rfl := congrArg Prod.snd (Option.some.inj (hmtu.symm.trans readU32_append))
  cases hreg.symm.trans readU64_append
  cases httl.symm.trans readU64_append
  exact ⟨hshort, hshortList, short_of_readObserved hobserved hsame⟩

/-- An entry that is bounded comes back exactly if it fits. -/
lemma readsBack_iff (hclock : ∀ i, (clock i).Sane) (hclock' : ∀ i, (clock' i).Sane) (hb : Bounded e) :
    ReadsBack clock clock' e ↔ Fits e :=
  ⟨fits_of_readsBack, fun h => decodeEntry_encodeEntry hclock hclock' (h.encodable hb)⟩

end

namespace Resolver

variable {S : SigScheme} {D : Type} [Store D] [LawfulStore D] {d : D} {c : Call} {now : Instant}

lemma shortList_nil : ShortList [] := ⟨by decide, nofun⟩

/-- A candidate is at most 64 characters of at most four bytes. -/
lemma shortList_sanitizeCandidates (list : List String) : ShortList (sanitizeCandidates list) := by
  constructor
  · calc (sanitizeCandidates list).length ≤ (list.take maxLocalCandidates).length := List.length_filterMap_le _ _
      _ ≤ maxLocalCandidates := List.length_take_le _ _
      _ < 2 ^ 16 := by decide
  · intro t ht
    obtain ⟨s, -, hsome⟩ := List.mem_filterMap.mp ht
    unfold sanitizeCandidate at hsome
    dsimp only at hsome
    split at hsome
    · cases hsome
    · cases hsome
      have hchars := (List.length_filter_le (fun c => !isControl c) (s.toList.take maxCandidateLen)).trans (List.length_take_le _ _)
      have hbytes := length_charBytes_le ((s.toList.take maxCandidateLen).filter fun c => !isControl c)
      rw [Short, utf8_ofList]
      rw [maxCandidateLen] at hchars hbytes ⊢
      omega

lemma dvd_fromSecs (secs : UInt64) : 10 ^ 9 ∣ (Duration.fromSecs secs).val := Dvd.intro_left _ rfl

lemma dvd_ttlOf (ttlSecs : UInt64) : 10 ^ 9 ∣ (ttlOf ttlSecs).val := by
  unfold ttlOf
  split
  · exact dvd_fromSecs 300
  · exact dvd_fromSecs _

lemma bounded_step (hv : LawfulStore.Valid d) (hs : Stored Bounded d) : Stored Bounded (step S d c).1 := by
  apply Stored.step hv hs
  · intro clock spec now key existing _ hbounded
    refine ⟨dvd_ttlOf spec.ttlSecs, ?_⟩
    rcases recordOf_candidates spec key existing now with hnone | ⟨e, he, hsame⟩
    · exact hnone ▸ shortList_nil
    · exact hsame ▸ (hbounded e he).localCandidates
  · intro clock spec now me _ _ hbounded
    exact ⟨hbounded.ttl, shortList_sanitizeCandidates _⟩

/-- A registration that is admitted is stored. -/
lemma view_register (hv : LawfulStore.Valid d) {clock : ℕ → ℕ → Reading} {spec : RegisterSpec} {addr : IPv8Address}
    {key : PublicKey} {existing : Option Entry} (haddr : parseAddr spec.addrText = .ok addr)
    (hkey : parsePub S spec.edPub = .ok key) (hfound : (lookup d (clock 0) addr).2 = .ok existing)
    (hadmitted : admitRegister S spec addr key existing now = .ok ()) :
    LawfulStore.view (register S d clock spec now).1 addr = some ⟨key, recordOf spec key existing now⟩ := by
  unfold register
  rw [haddr, hkey]
  simp only [Outcome.ok_bind, Outcome.pure_def]
  rw [← Prod.mk.eta (p := lookup d (clock 0) addr), hfound]
  dsimp only
  rw [hadmitted]
  dsimp only
  have hfirst := valid_lookup hv (clock 0) addr
  rw [view_lookup (LawfulStore.insert_valid _ (clock 1) addr _ hfirst), LawfulStore.insert_view _ (clock 1) addr addr _ hfirst,
    if_pos rfl]

/-- Whatever the calls, an entry that is stored is read back from its bytes exactly if its own texts and lists are short. -/
theorem stored_readsBack_iff (hvalid : LawfulStore.Valid d) (hempty : ∀ a, LawfulStore.view d a = none) (calls : List Call)
    (a : IPv8Address) (e : Entry) (hstored : LawfulStore.view (run (step S) d calls).1 a = some e) (clock clock' : ℕ → Reading)
    (hclock : ∀ i, (clock i).Sane) (hclock' : ∀ i, (clock' i).Sane) : ReadsBack clock clock' e ↔ Fits e := by
  have hkept : ∀ (d : D) (c : Call), LawfulStore.Valid d ∧ Stored Bounded d →
      LawfulStore.Valid (step S d c).1 ∧ Stored Bounded (step S d c).1 :=
    fun d c h => ⟨valid_call h.1 c, bounded_step h.1 h.2⟩
  have hrun : LawfulStore.Valid _ ∧ Stored Bounded _ := invariant_run_all hkept ⟨hvalid, .of_empty hempty⟩ calls
  exact readsBack_iff hclock hclock' (hrun.2 a e hstored)

lemma fits_nodeEntry : Fits nodeEntry where
  tunnelEntry := by
    unfold Short
    decide +kernel
  altEntries := shortList_nil
  observed := nofun

theorem stored_readsBack_iff_sample : ReadsBack (steadyClock 0) (steadyClock 0) nodeEntry :=
  (stored_readsBack_iff (S := sampleSig) (d := (⟨∅⟩ : MemStore)) trivial view_empty nodeCalls (nodeAddr 1) nodeEntry
    (by decide +kernel) _ _ (sane_steadyClock le_rfl (by decide)) (sane_steadyClock le_rfl (by decide))).mpr fits_nodeEntry

/-- A text of so many bytes. -/
def textOf (n : ℕ) : String := .ofList (List.replicate n 'a')

lemma length_textOf (n : ℕ) : (utf8 (textOf n)).length = n := by
  have hascii : ∀ c ∈ (textOf n).toList, c.toNat < 0x80 := by
    intro c hc
    rw [textOf, String.toList_ofList] at hc
    rw [List.eq_of_mem_replicate hc]
    decide
  rw [length_utf8_of_ascii hascii, textOf, String.toList_ofList, List.length_replicate]

/-- The proof of node 1 for its registration. -/
def nodeProof : Bytes := (sampleSignature nodeKey (resolverRegisterMessage (nodeText 1) nodeKey.val)).val

def longSpec (tunnelEntry : String) : RegisterSpec where
  addrText := nodeText 1
  edPub := nodeKey.val
  proof := nodeProof
  tunnelEntry := tunnelEntry
  altEntries := []
  ipv8Capable := true
  mtu := 0
  ttlSecs := 0
  observed := none

/-- The store after node 1 has registered the tunnel entry with its proof. -/
def registered (tunnelEntry : String) : MemStore :=
  (register sampleSig (⟨∅⟩ : MemStore) (fun _ _ => ⟨0, 0⟩) (longSpec tunnelEntry) 0).1

lemma admitted_longSpec (tunnelEntry : String) :
    admitRegister sampleSig (longSpec tunnelEntry) (nodeAddr 1) nodeKey none 0 = .ok () := by
  have hproof : checkProof sampleSig nodeKey (resolverRegisterMessage (nodeText 1) nodeKey.val) nodeProof = .ok () := by
    decide +kernel
  exact hproof

lemma registered_lost (tunnelEntry : String) (hlong : 2 ^ 16 ≤ (utf8 tunnelEntry).length) :
    ∃ e, (registered tunnelEntry).get (nodeAddr 1) = some e ∧ e.record.tunnelEntry = tunnelEntry ∧
      ¬ ReadsBack (steadyClock 0) (steadyClock 0) e := by
  have haddr : parseAddr (nodeText 1) = .ok (nodeAddr 1) := by decide +kernel
  have hkey : parsePub sampleSig nodeKey.val = .ok nodeKey := by decide +kernel
  have hview := @view_register sampleSig MemStore _ _ ⟨∅⟩ 0 trivial (fun _ _ => ⟨0, 0⟩) (longSpec tunnelEntry) (nodeAddr 1)
    nodeKey none haddr hkey (by decide +kernel) (admitted_longSpec tunnelEntry)
  have hstored : (registered tunnelEntry).get (nodeAddr 1) = _ := hview
  refine ⟨_, hstored, rfl, fun h => ?_⟩
  have hshort : Short tunnelEntry := (fits_of_readsBack h).tunnelEntry
  exact absurd hlong (not_le.mpr hshort)

/-- A tunnel entry of 65536 bytes is stored, and is another one when it is read back. -/
theorem long_text_lost : ∃ e, (registered (textOf 65536)).get (nodeAddr 1) = some e ∧
    e.record.tunnelEntry = textOf 65536 ∧ ¬ ReadsBack (steadyClock 0) (steadyClock 0) e :=
  registered_lost (textOf 65536) (length_textOf 65536).ge

end Resolver

end IPv8Plus.Cloud
