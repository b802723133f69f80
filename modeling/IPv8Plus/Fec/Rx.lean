import IPv8Plus.Fec.DataCounter

/-!
# Recovery of data frames

`ipv8-fec/src/rx.rs`: the receiver keeps the data frames it sees by their counters, the last `limit` of them,
and gets the one member of a group that it did not see from the recovery frame and the other members.
-/

namespace IPv8Plus.Fec
open Lib

/-- `order` has the keys of `cache`, oldest first. -/
structure FecRx where
  cache : Std.ExtTreeMap UInt64 Bytes
  order : List UInt64
  limit : Nat
  seenGroups : List UInt64
  recovered : UInt64
  abandoned : UInt64
  dupRecovery : UInt64

/-- Drop the oldest frames beyond the limit. -/
def evict (limit : Nat) : Std.ExtTreeMap UInt64 Bytes → List UInt64 → Std.ExtTreeMap UInt64 Bytes × List UInt64
  | cache, [] => (cache, [])
  | cache, oldest :: order =>
    if limit < cache.size then evict limit (cache.erase oldest) order else (cache, oldest :: order)

/-- Where the member table starts. -/
def fixedEnd : Nat := frameHeaderSize + recoveryFixedBody

/-- The fixed part of a recovery frame, checked: group number and group size. -/
def recoveryFields (frame : Bytes) : Outcome FecError (UInt64 × Nat) :=
  if frame.length < fixedEnd then .err (.bodyTooShort fixedEnd frame.length)
  else do
    let version ← idx frame 0
    let ty ← idx frame 1
    if version ≠ tunnelVersion ∨ ty ≠ fecFrameType then .err .sanityCheck
    else do
      let groupSeq ← copyFromSlice 8 (← slice frame 10 18)
      let k ← idx frame 18
      if ¬ (fecMinK ≤ k.toNat ∧ k.toNat ≤ fecMaxK) then .err (.badK k.toNat)
      else if frame.length < fixedEnd + k.toNat * 10 then .err (.bodyTooShort (fixedEnd + k.toNat * 10) frame.length)
      else return (ofBe64 groupSeq.val, k.toNat)

/-- The counters and lengths of the members, checked. -/
def memberTable (frame : Bytes) (k : Nat) : Outcome FecError (List UInt64 × List Nat) := do
  let counters ← (List.range k).mapM fun i => do
    let b ← copyFromSlice 8 (← slice frame (fixedEnd + i * 8) (fixedEnd + i * 8 + 8))
    return ofBe64 b.val
  let lens ← (List.range k).mapM fun i => do
    let b ← copyFromSlice 2 (← slice frame (fixedEnd + k * 8 + i * 2) (fixedEnd + k * 8 + i * 2 + 2))
    return (ofBe16 b.val).toNat
  let xorLen := frame.length - (fixedEnd + k * 10)
  let maxLen := lens.max?.getD 0
  if xorLen ≠ maxLen then .err (.xorLenMismatch maxLen xorLen)
  else
    match lens.find? (· < dataMinFrame) with
    | some l => .err (.badMemberLen l)
    | none => return (counters, lens)

namespace FecRx

def new (limit : Nat) : FecRx where
  cache := ∅
  order := []
  limit := if limit = 0 then defaultRxCache else limit
  seenGroups := []
  recovered := 0
  abandoned := 0
  dupRecovery := 0

/-- Keep a data frame; one with the same counter takes its place. -/
def observeData (rx : FecRx) (frame : Bytes) : FecRx × Outcome FecError Unit :=
  if frame.length < dataMinFrame then (rx, .err (.tooShort frame.length))
  else
    match dataCounter frame with
    | .err e => (rx, .err e)
    | .panic => (rx, .panic)
    | .ok counter =>
      if counter ∈ rx.cache then ({ rx with cache := rx.cache.insert counter frame }, .ok ())
      else
        let (cache, order) := evict rx.limit (rx.cache.insert counter frame) (rx.order ++ [counter])
        ({ rx with cache, order }, .ok ())

/-- The one missing member, from the sum in the recovery frame and the members in the cache. -/
def rebuild (rx : FecRx) (xorSeg : Bytes) (counters : List UInt64) (lens : List Nat) (missing : Nat) :
    Outcome FecError Bytes := do
  let others := (counters.eraseIdx missing).filterMap (rx.cache[·]?)
  let recon := others.foldl xorInto xorSeg
  let want ← idx lens missing
  if recon.length < want then .err (.xorLenMismatch want recon.length)
  else do
    let recon := recon.take want
    let version ← idx recon 0
    let ty ← idx recon 1
    let expected ← idx counters missing
    if version ≠ tunnelVersion ∨ ty ≠ dataFrameType then .err .sanityCheck
    else do
      let counter ← dataCounter recon
      if counter ≠ expected then .err .sanityCheck
      else return recon

/-- A recovery frame: the member that it gives back, if just one of the group is missing. -/
def acceptRecovery (rx : FecRx) (frame : Bytes) : FecRx × Outcome FecError (Option Bytes) :=
  match recoveryFields frame with
  | .err e => (rx, .err e)
  | .panic => (rx, .panic)
  | .ok (groupSeq, k) =>
    if groupSeq ∈ rx.seenGroups then ({ rx with dupRecovery := rx.dupRecovery + 1 }, .ok none)
    else
      match memberTable frame k with
      | .err e => (rx, .err e)
      | .panic => (rx, .panic)
      | .ok (counters, lens) =>
        let seen := rx.seenGroups ++ [groupSeq]
        let rx := { rx with seenGroups := seen.drop (seen.length - maxSeenGroups) }
        -- the source stops counting at two
        match (counters.filter (· ∉ rx.cache)).length with
        | 0 => (rx, .ok none)
        | 1 =>
          match rx.rebuild (frame.drop (fixedEnd + k * 10)) counters lens (counters.findIdx (· ∉ rx.cache)) with
          | .err e => (rx, .err e)
          | .panic => (rx, .panic)
          | .ok recon => ({ rx with recovered := rx.recovered + 1 }, .ok (some recon))
        | _ => ({ rx with abandoned := rx.abandoned + 1 }, .ok none)

end FecRx

end IPv8Plus.Fec
