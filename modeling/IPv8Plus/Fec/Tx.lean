import IPv8Plus.Fec.DataCounter
import IPv8Plus.Lib.Run

/-!
# Groups of data frames

`ipv8-fec/src/tx.rs`: the sender adds up `k` data frames and sends the sum as a recovery frame, with the
counters and lengths of the members. `FecTx.Collects` says what is in the accumulator between two recovery
frames, and `push_run` which frames a recovery frame is for.
-/

namespace IPv8Plus.Fec
open Lib

/-- Key generation in the head of a recovery frame. -/
abbrev KeyId := Arr UInt8 8

structure FecTx where
  k : Nat
  groupSeq : UInt64
  acc : Bytes
  counters : List UInt64
  lens : List UInt16
  deriving DecidableEq, Repr

namespace FecTx

def new (k : Nat) : Outcome FecError FecTx :=
  if fecMinK ≤ k ∧ k ≤ fecMaxK then .ok { k, groupSeq := 0, acc := [], counters := [], lens := [] }
  else .err (.badK k)

/-- Head, fixed part, member table and sum. -/
def encodeRecovery (tx : FecTx) (keyId : KeyId) : Bytes :=
  [tunnelVersion, fecFrameType] ++ keyId.val ++ be64 tx.groupSeq ++ [UInt8.ofNat tx.counters.length] ++
    List.replicate 3 0 ++ tx.counters.flatMap be64 ++ tx.lens.flatMap be16 ++ tx.acc

/-- `u16::try_from(n).unwrap_or(u16::MAX)`. -/
def memberLen (n : Nat) : UInt16 := if n < 2 ^ 16 then UInt16.ofNat n else 0xFFFF

/-- A data frame, and the recovery frame if its group is full. -/
def push (tx : FecTx) (frame : Bytes) (keyId : KeyId) : FecTx × Outcome FecError (Option Bytes) :=
  if frame.length < dataMinFrame then (tx, .err (.tooShort frame.length))
  else
    match dataCounter frame with
    | .err e => (tx, .err e)
    | .panic => (tx, .panic)
    | .ok counter =>
      let acc := if tx.acc.length < frame.length then tx.acc ++ List.replicate (frame.length - tx.acc.length) 0 else tx.acc
      let tx := { tx with
        acc := xorInto acc frame
        counters := tx.counters ++ [counter]
        lens := tx.lens ++ [memberLen frame.length] }
      if tx.counters.length < tx.k then (tx, .ok none)
      else
        ({ tx with groupSeq := tx.groupSeq + 1, acc := [], counters := [], lens := [] },
          .ok (some (tx.encodeRecovery keyId)))

end FecTx

/-- A data frame of the tunnel, with a length that the member table can hold. -/
structure IsDataFrame (frame : Bytes) : Prop where
  version : frame[0]? = some tunnelVersion
  type : frame[1]? = some dataFrameType
  minLen : dataMinFrame ≤ frame.length
  maxLen : frame.length < 2 ^ 16

instance (frame : Bytes) : Decidable (IsDataFrame frame) :=
  decidable_of_iff (frame[0]? = some tunnelVersion ∧ frame[1]? = some dataFrameType ∧ dataMinFrame ≤ frame.length ∧
    frame.length < 2 ^ 16) ⟨fun ⟨a, b, c, d⟩ => ⟨a, b, c, d⟩, fun ⟨a, b, c, d⟩ => ⟨a, b, c, d⟩⟩

/-- The bytes that `dataCounter` reads. -/
def counterOf (frame : Bytes) : UInt64 := ofBe64 ((frame.drop (frame.length - counterFromEnd)).take 8)

/-- The members of a group, as the accumulator and the tables have them. -/
structure FecTx.Collects (tx : FecTx) (members : List Bytes) : Prop where
  counters : tx.counters = members.map counterOf
  lens : tx.lens = members.map fun m => UInt16.ofNat m.length
  accLen : tx.acc.length = maxLength members
  acc : ∀ i, byteAt tx.acc i = parity members i

section
variable {frame : Bytes} {members : List Bytes} {tx : FecTx} {keyId : KeyId} {k : Nat}
  {calls : List (Bytes × KeyId)} {recovery : Bytes}

lemma IsDataFrame.dataCounter (h : IsDataFrame frame) : dataCounter frame = .ok (counterOf frame) := by
  rw [dataCounter_eq, if_neg (Nat.not_lt.mpr h.minLen), counterOf]

/-- The accumulator with one more member. -/
lemma FecTx.Collects.add (h : tx.Collects members) (hframe : IsDataFrame frame) (acc : Bytes)
    (hacc : acc = if tx.acc.length < frame.length then tx.acc ++ List.replicate (frame.length - tx.acc.length) 0 else tx.acc) :
    FecTx.Collects { tx with
      acc := xorInto acc frame
      counters := tx.counters ++ [counterOf frame]
      lens := tx.lens ++ [memberLen frame.length] } (members ++ [frame]) := by
  have hlen : acc.length = max (maxLength members) frame.length := by
    rw [hacc, ← h.accLen]
    split
    · rw [List.length_append, List.length_replicate]
      omega
    · omega
  have hbyte : ∀ i, byteAt acc i = parity members i := by
    intro i
    rw [← h.acc i, hacc]
    split
    · exact byteAt_append_zeros
    · rfl
  refine ⟨?_, ?_, ?_, ?_⟩
  · rw [h.counters, List.map_append, List.map_singleton]
  · rw [h.lens, List.map_append, List.map_singleton, memberLen, if_pos hframe.maxLen]
  · rw [length_xorInto, hlen, maxLength_append]
  · intro i
    rw [parity_append, parity_cons, parity_nil, UInt8.xor_zero]
    by_cases hi : i < acc.length
    · rw [byteAt_xorInto hi, hbyte]
    · have hle : max (maxLength members) frame.length ≤ i := hlen ▸ Nat.le_of_not_lt hi
      have hout : (xorInto acc frame).length ≤ i := by
        rw [length_xorInto]
        exact Nat.le_of_not_lt hi
      rw [byteAt_of_le hout, parity_of_le ((Nat.le_max_left _ _).trans hle),
        byteAt_of_le ((Nat.le_max_right _ _).trans hle), UInt8.xor_zero]

/-- What a data frame does to a group that is not full. -/
lemma FecTx.Collects.push (h : tx.Collects members) (hframe : IsDataFrame frame) (keyId : KeyId) :
    (members.length + 1 < tx.k ∧ (tx.push frame keyId).2 = .ok none ∧ (tx.push frame keyId).1.Collects (members ++ [frame]) ∧
        (tx.push frame keyId).1.k = tx.k) ∨
      (tx.k ≤ members.length + 1 ∧ (tx.push frame keyId).1.Collects [] ∧ (tx.push frame keyId).1.k = tx.k ∧
        ∃ full : FecTx, full.Collects (members ++ [frame]) ∧
          (tx.push frame keyId).2 = .ok (some (full.encodeRecovery keyId))) := by
  have hadd := h.add hframe _ rfl
  have hcount : (tx.counters ++ [counterOf frame]).length = members.length + 1 := by
    rw [h.counters, List.length_append, List.length_map, List.length_singleton]
  unfold FecTx.push
  rw [if_neg (Nat.not_lt.mpr hframe.minLen), hframe.dataCounter]
  dsimp only
  rw [hcount]
  by_cases hroom : members.length + 1 < tx.k
  · rw [if_pos hroom]
    exact .inl ⟨hroom, rfl, hadd, rfl⟩
  · rw [if_neg hroom]
    exact .inr ⟨Nat.le_of_not_lt hroom, ⟨rfl, rfl, rfl, fun _ => rfl⟩, rfl, _, hadd, rfl⟩

/-- Between two recovery frames, the accumulator holds the last frames, fewer than a group. -/
lemma FecTx.Collects.run (h : tx.Collects members) (hk : 0 < tx.k) (hroom : members.length < tx.k)
    (hcalls : ∀ c ∈ calls, IsDataFrame c.1) :
    ∃ earlier members', members ++ calls.map Prod.fst = earlier ++ members' ∧
      (run (fun tx c => tx.push c.1 c.2) tx calls).1.Collects members' ∧ members'.length < tx.k ∧
      (run (fun tx c => tx.push c.1 c.2) tx calls).1.k = tx.k := by
  induction calls generalizing tx members with
  | nil =>
    refine ⟨[], members, ?_, h, hroom, rfl⟩
    rw [List.map_nil, List.append_nil, List.nil_append]
  | cons c calls ih =>
    have hrest : ∀ c ∈ calls, IsDataFrame c.1 := fun c hc => hcalls c (List.mem_cons_of_mem _ hc)
    have hframes : members ++ (c :: calls).map Prod.fst = (members ++ [c.1]) ++ calls.map Prod.fst := by
      rw [List.map_cons, List.append_assoc, List.singleton_append]
    rw [hframes]
    rcases h.push (hcalls c List.mem_cons_self) c.2 with ⟨hlt, -, hnext, hsame⟩ | ⟨-, hnext, hsame, -⟩
    · rw [← hsame] at hk hlt ⊢
      apply ih hnext hk _ hrest
      rw [List.length_append, List.length_singleton]
      exact hlt
    · rw [← hsame] at hk ⊢
      obtain ⟨earlier, members', hsplit, hlast⟩ := ih hnext hk hk hrest
      refine ⟨members ++ [c.1] ++ earlier, members', ?_, hlast⟩
      rw [List.nil_append] at hsplit
      rw [hsplit]
      exact (List.append_assoc _ _ _).symm

/-- A recovery frame is for the last `k` frames. -/
theorem push_run {tx₀ : FecTx} (hnew : FecTx.new k = .ok tx₀) (hcalls : ∀ c ∈ calls, IsDataFrame c.1)
    (hframe : IsDataFrame frame)
    (hpush : ((run (fun tx c => tx.push c.1 c.2) tx₀ calls).1.push frame keyId).2 = .ok (some recovery)) :
    ∃ earlier members full, calls.map Prod.fst ++ [frame] = earlier ++ members ∧ members.length = k ∧
      FecTx.Collects full members ∧ recovery = full.encodeRecovery keyId := by
  have hstart : tx₀.k = k ∧ 0 < k ∧ tx₀.Collects [] := by
    unfold FecTx.new at hnew
    split at hnew
    · next hrange =>
      cases hnew
      exact ⟨rfl, Nat.lt_of_lt_of_le (by decide) hrange.1, rfl, rfl, rfl, fun _ => rfl⟩
    · cases hnew
  obtain ⟨rfl, hpos, hcollects⟩ := hstart
  obtain ⟨earlier, members, hsplit, hlast, hlt, hk⟩ := hcollects.run hpos hpos hcalls
  rcases hlast.push hframe keyId with ⟨-, hnone, -⟩ | ⟨hfull, -, -, full, hmembers, hsome⟩
  · rw [hnone] at hpush
    cases hpush
  · refine ⟨earlier, members ++ [frame], full, ?_, ?_, hmembers, ?_⟩
    · rw [← List.append_assoc, ← hsplit, List.nil_append]
    · rw [List.length_append, List.length_singleton]
      rw [hk] at hfull
      exact Nat.le_antisymm hlt hfull
    · rw [hsome] at hpush
      exact (Option.some.inj (Outcome.ok.inj hpush)).symm

end

end IPv8Plus.Fec
