import IPv8Plus.Fec.Tx
import IPv8Plus.Fec.RecoveryFrame
import IPv8Plus.Lib.Blocks

/-!
# Single losses

A recovery frame gives back the one member of its group that the receiver has not seen, byte for byte.
`wellFormed_encode`, `memberCounters_encode` and `memberLens_encode` say that the receiver reads what the sender wrote,
`rebuild_eq` is the argument about sums, and `single_loss_recovered` puts them behind any run of either side.
-/

namespace IPv8Plus.Fec
open Lib

/-! ## Tables -/

section

lemma findIdx_split {α : Type} {p : α → Bool} {before after : List α} {x : α} (h : ∀ y ∈ before, p y = false) (hx : p x = true) :
    (before ++ x :: after).findIdx p = before.length := by
  induction before with
  | nil => rw [List.nil_append, List.findIdx_cons, hx, cond_true, List.length_nil]
  | cons y before ih =>
    rw [List.cons_append, List.findIdx_cons, h y List.mem_cons_self, cond_false,
      ih fun z hz => h z (List.mem_cons_of_mem _ hz), List.length_cons]

lemma foldl_max (l : List Nat) (a : Nat) : l.foldl max a = max a (l.foldr max 0) := by
  induction l generalizing a with
  | nil => exact (Nat.max_zero a).symm
  | cons x l ih => rw [List.foldl_cons, ih, List.foldr_cons, Nat.max_assoc]

lemma max_lengths (bs : List Bytes) : (bs.map List.length).max?.getD 0 = maxLength bs := by
  cases bs with
  | nil => rfl
  | cons b bs => exact foldl_max _ _

end

/-! ## What the receiver reads -/

section
variable {members : List Bytes} {full : FecTx} {keyId : KeyId}

/-- A recovery frame up to its member table. -/
def recoveryHead (tx : FecTx) (keyId : KeyId) : Bytes :=
  [tunnelVersion, fecFrameType] ++ keyId.val ++ be64 tx.groupSeq ++ [UInt8.ofNat tx.counters.length] ++ List.replicate 3 0

lemma length_recoveryHead : (recoveryHead full keyId).length = fixedEnd := by
  simp only [recoveryHead, List.length_append, List.length_cons, List.length_nil, List.length_replicate, length_be64,
    keyId.property]
  rfl

lemma encodeRecovery_eq : full.encodeRecovery keyId =
    recoveryHead full keyId ++ (full.counters.flatMap be64 ++ (full.lens.flatMap be16 ++ full.acc)) := by
  rw [FecTx.encodeRecovery, recoveryHead, List.append_assoc _ (full.lens.flatMap be16), List.append_assoc _ (full.counters.flatMap be64)]

lemma length_encodeRecovery (h : full.Collects members) (keyId : KeyId) :
    (full.encodeRecovery keyId).length = fixedEnd + members.length * 10 + maxLength members := by
  rw [encodeRecovery_eq, List.length_append, List.length_append, List.length_append, length_recoveryHead,
    length_blocks length_be64, length_blocks length_be16, h.counters, h.lens, h.accLen, List.length_map, List.length_map]
  omega

lemma drop_encodeRecovery (h : full.Collects members) :
    (full.encodeRecovery keyId).drop (fixedEnd + members.length * 10) = full.acc := by
  have hskip : (recoveryHead full keyId ++ (full.counters.flatMap be64 ++ full.lens.flatMap be16)).length =
      fixedEnd + members.length * 10 := by
    rw [List.length_append, List.length_append, length_recoveryHead, length_blocks length_be64,
      length_blocks length_be16, h.counters, h.lens, List.length_map, List.length_map]
    omega
  rw [encodeRecovery_eq, ← List.append_assoc (full.counters.flatMap be64), ← List.append_assoc, ← hskip, List.drop_left]

/-- The fixed part of a recovery frame. -/
lemma exists_fixed_part (full : FecTx) (keyId : KeyId) : ∃ rest, full.encodeRecovery keyId =
    ([tunnelVersion, fecFrameType] ++ keyId.val) ++ (be64 full.groupSeq ++ UInt8.ofNat full.counters.length :: rest) := by
  refine ⟨List.replicate 3 0 ++ (full.counters.flatMap be64 ++ (full.lens.flatMap be16 ++ full.acc)), ?_⟩
  rw [encodeRecovery_eq, recoveryHead, List.append_assoc, List.append_assoc, List.append_assoc, List.singleton_append]

lemma length_start (keyId : KeyId) : ([tunnelVersion, fecFrameType] ++ keyId.val).length = 10 := by
  rw [List.length_append, keyId.property]
  rfl

lemma groupSeqOf_encode : groupSeqOf (full.encodeRecovery keyId) = full.groupSeq := by
  obtain ⟨rest, hfixed⟩ := exists_fixed_part full keyId
  rw [groupSeqOf, hfixed, List.drop_left' (length_start keyId), List.take_left' (length_be64 _), ofBe64_be64]

/-- The receiver reads the size of the group. -/
lemma groupSize_encode (keyId : KeyId) (h : full.Collects members) (hmax : members.length ≤ fecMaxK) :
    groupSize (full.encodeRecovery keyId) = members.length := by
  obtain ⟨rest, hfixed⟩ := exists_fixed_part full keyId
  have hstart : ([tunnelVersion, fecFrameType] ++ keyId.val ++ be64 full.groupSeq).length = 18 := by
    rw [List.length_append, length_start, length_be64]
  have hbyte : byteAt (full.encodeRecovery keyId) 18 = UInt8.ofNat full.counters.length := by
    rw [hfixed, ← List.append_assoc, byteAt, List.getD_append_right _ _ _ _ hstart.le, hstart]
    rfl
  rw [groupSize, hbyte, h.counters, List.length_map]
  exact UInt8.toNat_ofNat_of_lt' (Nat.lt_of_le_of_lt hmax (by decide))

lemma memberCounters_encode (keyId : KeyId) (h : full.Collects members) (hmax : members.length ≤ fecMaxK) :
    memberCounters (full.encodeRecovery keyId) = members.map counterOf := by
  have hread := map_range_blocks full.counters length_be64 (recoveryHead full keyId) (full.lens.flatMap be16 ++ full.acc) ofBe64
  rw [← encodeRecovery_eq, length_recoveryHead, h.counters, List.length_map] at hread
  simp only [ofBe64_be64, List.map_id'] at hread
  rw [memberCounters, groupSize_encode keyId h hmax, hread]

lemma memberLens_encode (keyId : KeyId) (h : full.Collects members) (hmax : members.length ≤ fecMaxK) (hdata : ∀ m ∈ members, IsDataFrame m) :
    memberLens (full.encodeRecovery keyId) = members.map List.length := by
  have hbefore : (recoveryHead full keyId ++ full.counters.flatMap be64).length = fixedEnd + members.length * 8 := by
    rw [List.length_append, length_recoveryHead, length_blocks length_be64, h.counters, List.length_map]
  have hread := map_range_blocks full.lens length_be16 (recoveryHead full keyId ++ full.counters.flatMap be64) full.acc
    fun b => (ofBe16 b).toNat
  rw [List.append_assoc, ← encodeRecovery_eq, hbefore, h.lens, List.length_map, List.map_map] at hread
  rw [memberLens, groupSize_encode keyId h hmax, hread]
  refine List.map_congr_left fun m hm => ?_
  rw [Function.comp_apply, ofBe16_be16]
  exact UInt16.toNat_ofNat_of_lt' (hdata m hm).maxLen

/-- What is sent has the form that the receiver asks for. -/
lemma wellFormed_encode (keyId : KeyId) (h : full.Collects members) (hmin : fecMinK ≤ members.length) (hmax : members.length ≤ fecMaxK)
    (hdata : ∀ m ∈ members, IsDataFrame m) : WellFormed (full.encodeRecovery keyId) := by
  have hlen := length_encodeRecovery h keyId
  have hsize := groupSize_encode keyId h hmax
  obtain ⟨rest, hfixed⟩ := exists_fixed_part full keyId
  refine ⟨⟨by omega, ?_, ?_, by rw [hsize]; exact ⟨hmin, hmax⟩, by omega⟩, ?_, ?_⟩
  · rw [hfixed]
    rfl
  · rw [hfixed]
    rfl
  · rw [hsize, hlen, Nat.add_sub_cancel_left, memberLens_encode keyId h hmax hdata, max_lengths]
  · intro l hl
    rw [memberLens_encode keyId h hmax hdata] at hl
    obtain ⟨m, hm, rfl⟩ := List.mem_map.mp hl
    exact (hdata m hm).minLen

end

/-! ## Sums -/

section
variable {others : List Bytes} {acc m : Bytes}

lemma length_foldl_xorInto : (others.foldl xorInto acc).length = acc.length := by
  induction others generalizing acc with
  | nil => rfl
  | cons b others ih => rw [List.foldl_cons, ih, length_xorInto]

lemma byteAt_foldl_xorInto {i : Nat} (hi : i < acc.length) :
    byteAt (others.foldl xorInto acc) i = byteAt acc i ^^^ parity others i := by
  induction others generalizing acc with
  | nil => exact (UInt8.xor_zero).symm
  | cons b others ih =>
    have hnext : i < (xorInto acc b).length := hi.trans_eq length_xorInto.symm
    rw [List.foldl_cons, ih hnext, byteAt_xorInto hi, parity_cons, UInt8.xor_assoc]

/-- The sum of a group and all members but one starts with that one. -/
theorem take_foldl_xorInto {before after : List Bytes} (hlen : acc.length = maxLength (before ++ m :: after))
    (hacc : ∀ i, byteAt acc i = parity (before ++ m :: after) i) :
    ((before ++ after).foldl xorInto acc).take m.length = m := by
  have hle : m.length ≤ acc.length := by
    rw [hlen]
    exact le_maxLength (List.mem_append_right _ List.mem_cons_self)
  have htake : (((before ++ after).foldl xorInto acc).take m.length).length = m.length := by
    rw [List.length_take, length_foldl_xorInto, Nat.min_eq_left hle]
  apply eq_of_byteAt htake
  intro i hi
  rw [htake] at hi
  rw [byteAt_take hi, byteAt_foldl_xorInto (hi.trans_le hle), hacc, parity_cancel]

end

/-! ## Recovery -/

section
variable {rx : FecRx} {members before after : List Bytes} {full : FecTx} {m : Bytes} {keyId : KeyId}

/-- Under the counters of the members, the cache holds nothing but the members. -/
def FecRx.Knows (rx : FecRx) (members : List Bytes) : Prop :=
  ∀ m ∈ members, ∀ frame ∈ rx.cache[counterOf m]?, frame = m

/-- The members that are not in the cache. -/
def FecRx.missing (rx : FecRx) (members : List Bytes) : List Bytes := members.filter (counterOf · ∉ rx.cache)

/-- The missing member is rebuilt. -/
lemma rebuild_eq (h : full.Collects (before ++ m :: after)) (hdata : IsDataFrame m)
    (hothers : ∀ b ∈ before ++ after, rx.cache[counterOf b]? = some b) :
    rx.rebuild full.acc ((before ++ m :: after).map counterOf) ((before ++ m :: after).map List.length) before.length = .ok m := by
  have hcached : (((before ++ m :: after).map counterOf).eraseIdx before.length).filterMap (rx.cache[·]?) = before ++ after := by
    have herase : ((before ++ m :: after).map counterOf).eraseIdx before.length = (before ++ after).map counterOf := by
      rw [List.map_append, List.map_cons, ← List.length_map (f := counterOf), List.eraseIdx_append_of_length_le le_rfl,
        Nat.sub_self, List.eraseIdx_cons_zero, List.map_append]
    rw [herase, List.filterMap_map]
    exact (List.filterMap_congr hothers).trans List.filterMap_some
  have hlen : (idx ((before ++ m :: after).map List.length) before.length : Outcome FecError Nat) = .ok m.length := by
    apply idx_of_getElem?
    rw [List.getElem?_map, List.getElem?_append_right le_rfl, Nat.sub_self]
    rfl
  have hcounter : (idx ((before ++ m :: after).map counterOf) before.length : Outcome FecError UInt64) = .ok (counterOf m) := by
    apply idx_of_getElem?
    rw [List.getElem?_map, List.getElem?_append_right le_rfl, Nat.sub_self]
    rfl
  have hroom : ¬ ((before ++ after).foldl xorInto full.acc).length < m.length := by
    rw [length_foldl_xorInto, h.accLen]
    exact Nat.not_lt.mpr (le_maxLength (List.mem_append_right _ List.mem_cons_self))
  unfold FecRx.rebuild
  dsimp only
  rw [hcached, hlen, Outcome.ok_bind, if_neg hroom, take_foldl_xorInto h.accLen h.acc, idx_of_getElem? hdata.version,
    Outcome.ok_bind, idx_of_getElem? hdata.type, Outcome.ok_bind, hcounter, Outcome.ok_bind,
    if_neg (not_or.mpr ⟨not_not_intro rfl, not_not_intro rfl⟩), hdata.dataCounter, Outcome.ok_bind,
    if_neg (not_not_intro rfl), Outcome.pure_def]

/-- What a recovery frame gives back: the missing member, if there is just one. -/
theorem acceptRecovery_encode (h : full.Collects members) (hmin : fecMinK ≤ members.length) (hmax : members.length ≤ fecMaxK)
    (hdata : ∀ m ∈ members, IsDataFrame m) (hknows : rx.Knows members) (hfirst : full.groupSeq ∉ rx.seenGroups) :
    (rx.acceptRecovery (full.encodeRecovery keyId)).2 = .ok (match rx.missing members with
      | [m] => some m
      | _ => none) := by
  have hcount : ((members.map counterOf).filter (· ∉ rx.cache)).length = (rx.missing members).length := by
    rw [List.filter_map, List.length_map]
    rfl
  have hform := wellFormed_encode keyId h hmin hmax hdata
  unfold FecRx.acceptRecovery
  rw [hform.fields]
  dsimp only
  rw [groupSeqOf_encode, if_neg hfirst, hform.table]
  dsimp only
  rw [memberCounters_encode keyId h hmax, memberLens_encode keyId h hmax hdata, groupSize_encode keyId h hmax, hcount, drop_encodeRecovery h]
  cases hmissing : rx.missing members with
  | nil => rfl
  | cons m rest =>
    cases rest with
    | cons m' rest =>
      rw [List.length_cons, List.length_cons]
      split
      · omega
      · omega
      · rfl
    | nil =>
      obtain ⟨before, after, rfl, hbefore, hm, hafter⟩ := List.filter_eq_cons_iff.mp hmissing
      have hnone := List.filter_eq_nil_iff.mp hafter
      have hothers : ∀ b ∈ before ++ after, rx.cache[counterOf b]? = some b := by
        intro b hb
        have hin : counterOf b ∈ rx.cache := by
          rcases List.mem_append.mp hb with hb | hb
          · exact not_not.mp fun hout => hbefore b hb (decide_eq_true hout)
          · exact not_not.mp fun hout => hnone b hb (decide_eq_true hout)
        have hmem : b ∈ before ++ m :: after := by
          rcases List.mem_append.mp hb with hb | hb
          · exact List.mem_append_left _ hb
          · exact List.mem_append_right _ (List.mem_cons_of_mem _ hb)
        obtain ⟨frame, hframe⟩ := Option.isSome_iff_exists.mp (Std.ExtTreeMap.isSome_getElem?_iff_mem.mpr hin)
        rw [hframe, hknows b hmem frame hframe]
      have hindex : ((before ++ m :: after).map counterOf).findIdx (· ∉ rx.cache) = before.length := by
        rw [List.findIdx_map]
        apply findIdx_split
        · intro b hb
          exact Bool.eq_false_iff.mpr (hbefore b hb)
        · exact hm
      have hrebuild : ∀ seen, FecRx.rebuild { rx with seenGroups := seen } full.acc ((before ++ m :: after).map counterOf)
          ((before ++ m :: after).map List.length) before.length = .ok m :=
        fun seen => rebuild_eq h (hdata m (List.mem_append_right _ List.mem_cons_self)) hothers
      rw [List.length_singleton, hindex]
      split
      · omega
      · rw [hrebuild]
      · next _ hone => exact absurd rfl hone

end

/-! ## Runs -/

inductive RxCall where
  | observe (frame : Bytes)
  | accept (frame : Bytes)
  deriving DecidableEq, Repr

def FecRx.step (rx : FecRx) : RxCall → FecRx × Outcome FecError (Option Bytes)
  | .observe frame => ((rx.observeData frame).1, (fun _ => none) <$> (rx.observeData frame).2)
  | .accept frame => rx.acceptRecovery frame

/-- The frame is no other frame under the counter of a member. -/
def RxCall.Genuine (members : List Bytes) : RxCall → Prop
  | .observe frame => ∀ m ∈ members, dataCounter frame = dataCounter m → frame = m
  | .accept _ => True

instance (members : List Bytes) (c : RxCall) : Decidable (c.Genuine members) :=
  match c with
  | .observe _ => inferInstanceAs (Decidable (∀ m ∈ _, _))
  | .accept _ => isTrue trivial

/-- The cache takes the frame in without dropping another. -/
def FecRx.HasRoom (rx : FecRx) : RxCall → Prop
  | .observe frame => dataMinFrame ≤ frame.length → counterOf frame ∈ rx.cache ∨ rx.cache.size < rx.limit
  | .accept _ => True

instance (rx : FecRx) (c : RxCall) : Decidable (rx.HasRoom c) :=
  match c with
  | .observe _ => inferInstanceAs (Decidable (_ → _))
  | .accept _ => isTrue trivial

section
variable {rx : FecRx} {members : List Bytes} {frame : Bytes} {calls : List RxCall}

lemma evict_of_le {limit : Nat} {cache : Std.ExtTreeMap UInt64 Bytes} {order : List UInt64} (h : cache.size ≤ limit) :
    evict limit cache order = (cache, order) := by
  cases order with
  | nil => rfl
  | cons oldest order => rw [evict, if_neg (Nat.not_lt.mpr h)]

/-- With room, a frame is kept and no other is dropped. -/
lemma observeData_cache (hroom : rx.HasRoom (.observe frame)) :
    (rx.observeData frame).1.cache =
      if frame.length < dataMinFrame then rx.cache else rx.cache.insert (counterOf frame) frame := by
  have hcounter := dataCounter_eq frame
  unfold FecRx.observeData
  split
  · rfl
  · next hlen =>
    rw [if_neg hlen] at hcounter
    rw [hcounter]
    dsimp only
    split
    · rfl
    · next hnew =>
      have hlt := (hroom (Nat.le_of_not_lt hlen)).resolve_left hnew
      rw [evict_of_le]
      · rfl
      · rw [Std.ExtTreeMap.size_insert, if_neg fun hin => hnew (Std.ExtTreeMap.mem_iff_contains.mpr hin)]
        exact hlt

lemma acceptRecovery_cache (rx : FecRx) (frame : Bytes) : (rx.acceptRecovery frame).1.cache = rx.cache := by
  unfold FecRx.acceptRecovery
  split
  · rfl
  · rfl
  · split
    · rfl
    · split
      · rfl
      · rfl
      · dsimp only
        split
        · rfl
        · split
          · rfl
          · rfl
          · rfl
        · rfl

/-- One call: the cache stays right about the members, and holds one more if it is observed. -/
lemma FecRx.Knows.step {c : RxCall} (hknows : rx.Knows members) (hdata : ∀ m ∈ members, IsDataFrame m)
    (hroom : rx.HasRoom c) (hsame : c.Genuine members) :
    (rx.step c).1.Knows members ∧
      ∀ m ∈ members, counterOf m ∈ (rx.step c).1.cache ↔ counterOf m ∈ rx.cache ∨ c = .observe m := by
  cases c with
  | accept frame =>
    have hcache : (rx.step (.accept frame)).1.cache = rx.cache := acceptRecovery_cache rx frame
    unfold FecRx.Knows
    rw [hcache]
    exact ⟨hknows, fun m _ => ⟨.inl, fun h => h.resolve_right nofun⟩⟩
  | observe frame =>
    have hcache : (rx.step (.observe frame)).1.cache = _ := observeData_cache hroom
    unfold FecRx.Knows
    rw [hcache]
    split
    · next hlen =>
      refine ⟨hknows, fun m hm => ⟨.inl, fun h => h.resolve_right ?_⟩⟩
      intro heq
      rw [RxCall.observe.inj heq] at hlen
      exact absurd (hdata m hm).minLen (Nat.not_le.mpr hlen)
    · next hlen =>
      have hcounter : dataCounter frame = .ok (counterOf frame) := by
        rw [dataCounter_eq, if_neg hlen, counterOf]
      have hmember : ∀ m ∈ members, counterOf frame = counterOf m → frame = m := by
        intro m hm heq
        apply hsame m hm
        rw [hcounter, (hdata m hm).dataCounter, heq]
      refine ⟨?_, ?_⟩
      · intro m hm f hf
        rw [Std.ExtTreeMap.getElem?_insert] at hf
        split at hf
        · next heq =>
          rw [← Option.some.inj hf]
          exact hmember m hm (Std.LawfulEqOrd.eq_of_compare heq)
        · exact hknows m hm f hf
      · intro m hm
        rw [Std.ExtTreeMap.mem_insert]
        constructor
        · rintro (heq | hin)
          · rw [hmember m hm (Std.LawfulEqOrd.eq_of_compare heq)]
            exact .inr rfl
          · exact .inl hin
        · rintro (hin | heq)
          · exact .inr hin
          · rw [RxCall.observe.inj heq]
            exact .inl (Std.ReflOrd.compare_self)

/-- After a run without evictions, the cache has the members that it had and the ones that were observed. -/
lemma FecRx.Knows.run (hknows : rx.Knows members) (hdata : ∀ m ∈ members, IsDataFrame m)
    (hroom : Along FecRx.step FecRx.HasRoom rx calls)
    (hsame : ∀ c ∈ calls, c.Genuine members) :
    (run FecRx.step rx calls).1.Knows members ∧
      ∀ m ∈ members, counterOf m ∈ (run FecRx.step rx calls).1.cache ↔ counterOf m ∈ rx.cache ∨ .observe m ∈ calls := by
  induction calls generalizing rx with
  | nil => exact ⟨hknows, fun m _ => ⟨.inl, fun h => h.resolve_right List.not_mem_nil⟩⟩
  | cons c calls ih =>
    obtain ⟨hnext, hmem⟩ := hknows.step hdata hroom.1 (hsame c List.mem_cons_self)
    obtain ⟨hlast, hrest⟩ := ih hnext hroom.2 fun c hc => hsame c (List.mem_cons_of_mem _ hc)
    refine ⟨hlast, fun m hm => ?_⟩
    rw [run_cons, hrest m hm, hmem m hm, List.mem_cons, or_assoc, eq_comm (a := c)]

end

/-- A recovery frame of a group is for the last `k` frames pushed. Behind any run of the receiver in which the cache has
dropped nothing and no other frame came under the counter of a member, the first copy of the recovery frame gives back
the one member that the receiver does not have, and nothing if it has all or lacks more. -/
theorem single_loss_recovered {k : Nat} {tx₀ : FecTx} (hnew : FecTx.new k = .ok tx₀) {pushes : List (Bytes × KeyId)}
    {frame recovery : Bytes} {keyId : KeyId} (hpushes : ∀ c ∈ pushes, IsDataFrame c.1) (hframe : IsDataFrame frame)
    (hpush : ((run (fun tx c => tx.push c.1 c.2) tx₀ pushes).1.push frame keyId).2 = .ok (some recovery))
    {earlier members : List Bytes} (hgroup : pushes.map Prod.fst ++ [frame] = earlier ++ members) (hk : members.length = k)
    {rx₀ : FecRx} {calls : List RxCall} (hknows : rx₀.Knows members) (hroom : Along FecRx.step FecRx.HasRoom rx₀ calls)
    (hsame : ∀ c ∈ calls, c.Genuine members)
    (hfirst : groupSeqOf recovery ∉ (run FecRx.step rx₀ calls).1.seenGroups) :
    let rx := (run FecRx.step rx₀ calls).1
    (rx.acceptRecovery recovery).1.cache = rx.cache ∧
      (rx.acceptRecovery recovery).2 =
        .ok (match members.filter fun m => counterOf m ∉ rx₀.cache ∧ .observe m ∉ calls with
          | [m] => some m
          | _ => none) := by
  have hrange : fecMinK ≤ members.length ∧ members.length ≤ fecMaxK := by
    rw [hk]
    unfold FecTx.new at hnew
    split at hnew
    · assumption
    · cases hnew
  have hall : ∀ m ∈ pushes.map Prod.fst ++ [frame], IsDataFrame m := by
    intro m hm
    rcases List.mem_append.mp hm with hm | hm
    · obtain ⟨c, hc, rfl⟩ := List.mem_map.mp hm
      exact hpushes c hc
    · rw [List.mem_singleton.mp hm]
      exact hframe
  have hdata : ∀ m ∈ members, IsDataFrame m := fun m hm => hall m (hgroup ▸ List.mem_append_right _ hm)
  obtain ⟨earlier', members', full, hgroup', hk', hfull, rfl⟩ := push_run hnew hpushes hframe hpush
  have hsize : members'.length = members.length := hk'.trans hk.symm
  obtain ⟨-, rfl⟩ := List.append_inj' (hgroup'.symm.trans hgroup) hsize
  obtain ⟨hlast, hmem⟩ := hknows.run hdata hroom hsame
  rw [groupSeqOf_encode] at hfirst
  have hmissing : (run FecRx.step rx₀ calls).1.missing members' =
      members'.filter fun m => counterOf m ∉ rx₀.cache ∧ .observe m ∉ calls := by
    apply List.filter_congr
    intro m hm
    rw [decide_eq_decide, hmem m hm, not_or]
  intro rx
  refine ⟨acceptRecovery_cache rx _, ?_⟩
  rw [acceptRecovery_encode hfull hrange.1 hrange.2 hdata hlast hfirst, hmissing]

/-- A data frame with this counter, and this many bytes before it. -/
def sampleData (counter : UInt64) (n : Nat) (b : UInt8) : Bytes :=
  [tunnelVersion, dataFrameType] ++ List.replicate (48 + n) b ++ be64 counter ++ List.replicate 16 7

def sampleKeyId : KeyId := ⟨List.replicate 8 0, rfl⟩

def sampleTx : FecTx := { k := 3, groupSeq := 0, acc := [], counters := [], lens := [] }

def sampleObserved : List RxCall :=
  [.observe (sampleData 9 1 3), .observe (sampleData 7 0 4), .observe (sampleData 5 0 1), .observe (sampleData 9 1 3)]

def samplePushes : List (Bytes × KeyId) := [(sampleData 5 0 1, sampleKeyId), (sampleData 6 3 2, sampleKeyId)]

def sampleMembers : List Bytes := [sampleData 5 0 1, sampleData 6 3 2, sampleData 9 1 3]

/-- The recovery frame of a group of three frames of different lengths. -/
def sampleRecovery : Bytes :=
  (((run (fun tx c => FecTx.push tx c.1 c.2) sampleTx samplePushes).1.push (sampleData 9 1 3) sampleKeyId).2.toOption.getD
    none).getD []

/-- The second frame is lost, the third one comes twice and before the first, and another frame comes in between. -/
theorem single_loss_recovered_sample :
    ((run FecRx.step (.new 0) sampleObserved).1.acceptRecovery sampleRecovery).2 = .ok (some (sampleData 6 3 2)) := by
  have hpush : ((run (fun tx c => FecTx.push tx c.1 c.2) sampleTx samplePushes).1.push (sampleData 9 1 3) sampleKeyId).2 =
      .ok (some sampleRecovery) := by decide +kernel
  have hgroup : samplePushes.map Prod.fst ++ [sampleData 9 1 3] = [] ++ sampleMembers := by decide +kernel
  have hknows : (FecRx.new 0).Knows sampleMembers := by
    intro m _ frame hframe
    rw [show (FecRx.new 0).cache[counterOf m]? = none from Std.ExtTreeMap.getElem?_empty] at hframe
    cases hframe
  have hmissing : sampleMembers.filter (fun m => counterOf m ∉ (FecRx.new 0).cache ∧ .observe m ∉ sampleObserved) =
      [sampleData 6 3 2] := by decide +kernel
  obtain ⟨-, hrecovered⟩ := @single_loss_recovered 3 sampleTx rfl samplePushes (sampleData 9 1 3) sampleRecovery sampleKeyId
    (by decide +kernel) (by decide +kernel) hpush [] sampleMembers hgroup rfl (.new 0) sampleObserved hknows
    (by decide +kernel) (by decide +kernel) (by decide +kernel)
  rw [hrecovered, hmissing]

end IPv8Plus.Fec
