import IPv8Plus.Observe.Window

/-!
# Reports

`ipv8-observe/src/report.rs` and `rtt.rs`: the 124 bytes of a report with the counts of both paths and their
union, and the round trip times that reports echo. `decode_encode` is the round trip of the format.
-/

namespace IPv8Plus.Observe
open Lib

def reportVersion : UInt8 := 1

def reportLen : Nat := 124

/-- The counts of a report: main path, alternate path and union. -/
structure Slots where
  main : PathCounters
  alt : PathCounters
  union : PathCounters
  deriving DecidableEq, Repr

structure Report where
  seq : UInt32
  sendTsUs : UInt64
  lsrUs : UInt64
  dlsrUs : UInt32
  slotsValid : UInt8
  slots : Slots
  deriving DecidableEq, Repr

inductive ReportError where
  | badLen (n : Nat)
  | badVersion (v : UInt8)
  deriving DecidableEq, Repr

def clampSlots (n : UInt8) : UInt8 := max 1 (min n 2)

def putSlot (s : PathCounters) : Bytes :=
  be64 s.expected ++ be64 s.seen ++ be64 s.dup ++ be32 s.resets ++ be32 s.lastRecvAgeMs

def getSlot (b : Bytes) : PathCounters where
  expected := ofBe64 (b.take 8)
  seen := ofBe64 ((b.drop 8).take 8)
  dup := ofBe64 ((b.drop 16).take 8)
  resets := ofBe32 ((b.drop 24).take 4)
  lastRecvAgeMs := ofBe32 ((b.drop 28).take 4)

def encode (r : Report) : Bytes :=
  [reportVersion, clampSlots r.slotsValid, 0, 0] ++ be32 r.seq ++ be64 r.sendTsUs ++ be64 r.lsrUs ++ be32 r.dlsrUs ++
    putSlot r.slots.main ++ putSlot r.slots.alt ++ putSlot r.slots.union

def decode (b : Bytes) : Except ReportError Report :=
  if b.length ≠ reportLen then .error (.badLen b.length)
  else if b.getD 0 0 ≠ reportVersion then .error (.badVersion (b.getD 0 0))
  else
    .ok {
      seq := ofBe32 ((b.drop 4).take 4)
      sendTsUs := ofBe64 ((b.drop 8).take 8)
      lsrUs := ofBe64 ((b.drop 16).take 8)
      dlsrUs := ofBe32 ((b.drop 24).take 4)
      slotsValid := clampSlots (b.getD 1 0)
      slots := { main := getSlot (b.drop 28), alt := getSlot (b.drop 60), union := getSlot (b.drop 92) } }

/-- What is needed to echo the last report of the peer, and the round trip time it gave. -/
structure RttTracker where
  peerSendTs : UInt64 := 0
  peerRecvUs : Option UInt64 := none
  rttUs : Option UInt64 := none
  deriving DecidableEq, Repr

def RttTracker.onPeerReport (t : RttTracker) (nowUs : UInt64) (r : Report) : RttTracker :=
  let t := { t with peerSendTs := r.sendTsUs, peerRecvUs := some nowUs }
  if r.lsrUs ≠ 0 then
    let dlsr := if r.dlsrUs = 0xFFFFFFFF then 0 else UInt64.ofNat r.dlsrUs.toNat
    let total := satAdd r.lsrUs dlsr
    if total ≤ nowUs then { t with rttUs := some (nowUs - total) } else t
  else t

def RttTracker.echo (t : RttTracker) (nowUs : UInt64) : UInt64 × UInt32 :=
  let dlsr := match t.peerRecvUs with
    | some r => if r ≤ nowUs then UInt32.ofNat (min (nowUs - r).toNat 0xFFFFFFFE) else 0xFFFFFFFF
    | none => 0xFFFFFFFF
  (t.peerSendTs, dlsr)

/-! ## Round trip -/

lemma length_putSlot (s : PathCounters) : (putSlot s).length = 32 := by
  simp only [putSlot, List.length_append, length_be64, length_be32]

/-- What stands behind a field. -/
lemma drop_next {b field rest : Bytes} {n m : Nat} (h : b.drop n = field ++ rest) (hlen : field.length = m) :
    b.drop (n + m) = rest := by
  rw [← List.drop_drop, h, List.drop_left' hlen]

lemma getSlot_putSlot (s : PathCounters) (rest : Bytes) : getSlot (putSlot s ++ rest) = s := by
  have h0 : (putSlot s ++ rest).drop 0 =
      be64 s.expected ++ (be64 s.seen ++ (be64 s.dup ++ (be32 s.resets ++ (be32 s.lastRecvAgeMs ++ rest)))) := by
    simp only [putSlot, List.append_assoc, List.drop_zero]
  have h8 : (putSlot s ++ rest).drop 8 = _ := drop_next h0 (length_be64 _)
  have h16 : (putSlot s ++ rest).drop 16 = _ := drop_next h8 (length_be64 _)
  have h24 : (putSlot s ++ rest).drop 24 = _ := drop_next h16 (length_be64 _)
  have h28 : (putSlot s ++ rest).drop 28 = _ := drop_next h24 (length_be32 _)
  rw [List.drop_zero] at h0
  rw [getSlot, h8, h16, h24, h28, h0, List.take_left' (length_be64 _), List.take_left' (length_be64 _),
    List.take_left' (length_be64 _), List.take_left' (length_be32 _), List.take_left' (length_be32 _), ofBe64_be64,
    ofBe64_be64, ofBe64_be64, ofBe32_be32, ofBe32_be32]

lemma clampSlots_idem (n : UInt8) : clampSlots (clampSlots n) = clampSlots n := by
  have h : ∀ m : Fin 256, clampSlots (clampSlots (UInt8.ofFin m)) = clampSlots (UInt8.ofFin m) := by decide +kernel
  exact h n.toFin

lemma length_encode (r : Report) : (encode r).length = reportLen := by
  simp only [encode, List.length_append, length_be64, length_be32, length_putSlot, List.length_cons, List.length_nil]
  rfl

/-- A report comes back, with its number of paths brought into range. -/
theorem decode_encode (r : Report) : decode (encode r) = .ok { r with slotsValid := clampSlots r.slotsValid } := by
  have hlen := length_encode r
  have hstart : (encode r).getD 0 0 = reportVersion ∧ (encode r).getD 1 0 = clampSlots r.slotsValid := ⟨rfl, rfl⟩
  have hshape : encode r = [reportVersion, clampSlots r.slotsValid, 0, 0] ++ (be32 r.seq ++ (be64 r.sendTsUs ++ (be64 r.lsrUs ++
      (be32 r.dlsrUs ++ (putSlot r.slots.main ++ (putSlot r.slots.alt ++ (putSlot r.slots.union ++ []))))))) := by
    simp only [encode, List.append_assoc, List.append_nil]
  generalize encode r = b at hlen hstart hshape ⊢
  have h4 : b.drop 4 = be32 r.seq ++ _ := hshape ▸ List.drop_left' rfl
  have h8 : b.drop 8 = _ := drop_next h4 (length_be32 _)
  have h16 : b.drop 16 = _ := drop_next h8 (length_be64 _)
  have h24 : b.drop 24 = _ := drop_next h16 (length_be64 _)
  have h28 : b.drop 28 = _ := drop_next h24 (length_be32 _)
  have h60 : b.drop 60 = _ := drop_next h28 (length_putSlot _)
  have h92 : b.drop 92 = _ := drop_next h60 (length_putSlot _)
  rw [decode, if_neg (not_not_intro hlen), hstart.1, hstart.2, if_neg (not_not_intro rfl), h4, h8, h16, h24, h28, h60, h92,
    getSlot_putSlot, getSlot_putSlot, getSlot_putSlot, List.take_left' (length_be32 _), List.take_left' (length_be64 _),
    List.take_left' (length_be64 _), List.take_left' (length_be32 _), ofBe32_be32, ofBe64_be64, ofBe64_be64, ofBe32_be32,
    clampSlots_idem]

end IPv8Plus.Observe
