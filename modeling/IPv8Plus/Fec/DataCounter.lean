import IPv8Plus.Lib.Outcome
import IPv8Plus.Lib.Parity

/-!
# The counter at the end of a data frame

`ipv8-fec/src/lib.rs`: the constants and errors of forward error correction, where it finds the counter of a
data frame, and how it adds frames. The crate knows the tunnel frame format by its own constants.
-/

namespace IPv8Plus.Fec
open Lib

def frameHeaderSize : Nat := 10

/-- Head, base header, counter and tag. -/
def dataMinFrame : Nat := 74

def fecMinK : Nat := 2

def fecMaxK : Nat := 16

def defaultRxCache : Nat := 256

def maxSeenGroups : Nat := 128

/-- Where the counter is taken to be, from the end of a frame. -/
def counterFromEnd : Nat := 24

/-- Group number, group size and three reserved bytes. -/
def recoveryFixedBody : Nat := 12

def tunnelVersion : UInt8 := 0x01

def dataFrameType : UInt8 := 2

def fecFrameType : UInt8 := 6

inductive FecError where
  | tooShort (n : Nat)
  | badK (k : Nat)
  | bodyTooShort (need got : Nat)
  | xorLenMismatch (expect got : Nat)
  | badMemberLen (n : Nat)
  | sanityCheck
  deriving DecidableEq, Repr

def dataCounter (frame : Bytes) : Outcome FecError UInt64 :=
  if frame.length < dataMinFrame then .err (.tooShort frame.length)
  else do
    let tail := frame.length - counterFromEnd
    let b ← copyFromSlice 8 (← slice frame tail (tail + 8))
    return ofBe64 b.val

/-- `acc[i] ^= other[i]`, as far as both go. -/
def xorInto (acc other : Bytes) : Bytes :=
  let n := min acc.length other.length
  List.zipWith (· ^^^ ·) (acc.take n) (other.take n) ++ acc.drop n

/-- The eight bytes that are taken for the counter. -/
lemma dataCounter_eq (frame : Bytes) :
    dataCounter frame = if frame.length < dataMinFrame then .err (.tooShort frame.length)
      else .ok (ofBe64 ((frame.drop (frame.length - counterFromEnd)).take 8)) := by
  unfold dataCounter
  split
  · rfl
  · next hlen =>
    have hle : frame.length - counterFromEnd + 8 ≤ frame.length := by
      rw [dataMinFrame] at hlen
      rw [counterFromEnd]
      omega
    have hslice : (slice frame (frame.length - counterFromEnd) (frame.length - counterFromEnd + 8) :
        Outcome FecError Bytes) = .ok ((frame.drop (frame.length - counterFromEnd)).take 8) := by
      rw [slice_of_le (Nat.le_add_right _ _) hle, Nat.add_sub_cancel_left]
    have height : ((frame.drop (frame.length - counterFromEnd)).take 8).length = 8 := by
      rw [List.length_take, List.length_drop]
      omega
    dsimp only
    rw [hslice, Outcome.ok_bind, copyFromSlice, dif_pos height, Outcome.ok_bind, Outcome.pure_def]

variable {acc other : Bytes} {i : Nat}

@[simp] lemma length_xorInto : (xorInto acc other).length = acc.length := by
  rw [xorInto, List.length_append, List.length_zipWith, List.length_take, List.length_take, List.length_drop]
  omega

/-- Every byte of the first operand is added to. -/
lemma byteAt_xorInto (hi : i < acc.length) : byteAt (xorInto acc other) i = byteAt acc i ^^^ byteAt other i := by
  rw [byteAt, byteAt, byteAt, List.getD_eq_getElem?_getD, List.getD_eq_getElem?_getD, List.getD_eq_getElem?_getD, xorInto]
  by_cases ho : i < other.length
  · have hmin : i < min acc.length other.length := lt_min hi ho
    have hzip : i < (List.zipWith (· ^^^ ·) (acc.take (min acc.length other.length))
        (other.take (min acc.length other.length))).length := by
      rw [List.length_zipWith, List.length_take, List.length_take]
      omega
    rw [List.getElem?_append_left hzip, List.getElem?_zipWith, List.getElem?_take_of_lt hmin,
      List.getElem?_take_of_lt hmin, List.getElem?_eq_getElem hi, List.getElem?_eq_getElem ho]
    rfl
  · have hzip : (List.zipWith (· ^^^ ·) (acc.take (min acc.length other.length))
        (other.take (min acc.length other.length))).length = other.length := by
      rw [List.length_zipWith, List.length_take, List.length_take]
      omega
    have hrest : min acc.length other.length + (i - other.length) = i := by omega
    rw [List.getElem?_append_right (hzip.le.trans (Nat.le_of_not_lt ho)), hzip, List.getElem?_drop, hrest,
      List.getElem?_eq_none (Nat.le_of_not_lt ho), Option.getD_none, UInt8.xor_zero]

end IPv8Plus.Fec
