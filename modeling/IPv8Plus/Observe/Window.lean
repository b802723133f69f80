import IPv8Plus.Lib.BigEndian
import IPv8Plus.Lib.Word64

/-!
# Observation windows

`ipv8-observe/src/window.rs`: KeyID and counter of a data frame, read off without decryption, and what has
been seen of the counters. There is one window for each KeyID, at most eight of them; the counts of a path are
sums over its windows. All accesses to the bytes of a frame stand behind a check of its length.
-/

namespace IPv8Plus.Observe
open Lib

def windowBits : UInt64 := 128

/-- A larger jump of the counter is a reset. -/
def jumpGuard : UInt64 := 4096

def maxSas : Nat := 8

def dataMinFrame : Nat := 74

def frameHeaderLen : Nat := 10

def tunnelVersion : UInt8 := 0x01

def dataFrameType : UInt8 := 2

def baseHeaderSize : Nat := 40

/-- `saturating_add` on `u32`. -/
def satAdd32 (a b : UInt32) : UInt32 := UInt32.ofNat (min (a.toNat + b.toNat) (2 ^ 32 - 1))

/-- The counts of one path, or of the union of the paths. -/
structure PathCounters where
  expected : UInt64 := 0
  seen : UInt64 := 0
  dup : UInt64 := 0
  resets : UInt32 := 0
  lastRecvAgeMs : UInt32 := 0xFFFFFFFF
  deriving DecidableEq, Repr

/-- The loop over the extension chain. -/
def chainEnd (body : Bytes) (cursor : Nat) (curType : UInt8) (seen : List UInt8) : Option Nat :=
  if body.length < cursor + 2 ∨ curType ∈ seen then none
  else
    let ptrNext := body.getD cursor 0
    let extLen := body.getD (cursor + 1) 0
    if extLen = 0 then none
    else if _h : body.length < cursor + 2 + extLen.toNat * 8 then none
    else if ptrNext = 0 then some (cursor + 2 + extLen.toNat * 8)
    else chainEnd body (cursor + 2 + extLen.toNat * 8) ptrNext (seen ++ [curType])
termination_by body.length - cursor

def plainSegmentLen (body : Bytes) : Option Nat :=
  if body.length < baseHeaderSize then none
  else
    let nextHeader := body.getD 6 0
    if nextHeader = 0 then some baseHeaderSize
    else chainEnd body baseHeaderSize nextHeader []

/-- KeyID and counter of a data frame. -/
def frameMeta (frame : Bytes) : Option (UInt64 × UInt64) :=
  if frame.length < dataMinFrame ∨ frame[0]? ≠ some tunnelVersion ∨ frame[1]? ≠ some dataFrameType then none
  else do
    let plainLen ← plainSegmentLen (frame.drop frameHeaderLen)
    let off := frameHeaderLen + plainLen
    if frame.length < off + 8 then none
    else some (ofBe64 ((frame.drop 2).take 8), ofBe64 ((frame.drop off).take 8))

/-- What has been seen of the counters under one KeyID. Bit `k` of the mask is the counter `k` below the top. -/
structure CounterWindow where
  top : UInt64
  mask : BitVec 128
  expected : UInt64
  seen : UInt64
  dup : UInt64
  resets : UInt32
  deriving DecidableEq, Repr

def CounterWindow.first (c : UInt64) : CounterWindow where
  top := c
  mask := 1
  expected := 1
  seen := 1
  dup := 0
  resets := 0

def CounterWindow.observe (w : CounterWindow) (c : UInt64) : CounterWindow :=
  if w.top < c then
    let delta := c - w.top
    if jumpGuard < delta then
      { w with
        top := c
        mask := 1
        expected := satAdd w.expected 1
        seen := satAdd w.seen 1
        resets := satAdd32 w.resets 1 }
    else
      let mask := if windowBits ≤ delta then 0 else w.mask <<< delta.toNat
      { w with top := c, mask := mask ||| 1, expected := satAdd w.expected delta, seen := satAdd w.seen 1 }
  else
    let back := w.top - c
    if windowBits ≤ back then { w with dup := satAdd w.dup 1 }
    else
      let bit := (1 : BitVec 128) <<< back.toNat
      if w.mask &&& bit ≠ 0 then { w with dup := satAdd w.dup 1 }
      else { w with mask := w.mask ||| bit, seen := satAdd w.seen 1 }

/-- The windows of a path, oldest first. -/
abbrev SaWindows := List (UInt64 × CounterWindow)

/-- Observe a counter in the first window of the KeyID, or in a new one. -/
def SaWindows.observe (entries : SaWindows) (key counter : UInt64) : SaWindows :=
  match entries.findIdx? (·.1 = key) with
  | some i => entries.modify i fun e => (e.1, e.2.observe counter)
  | none =>
    let entries := entries ++ [(key, .first counter)]
    if maxSas < entries.length then entries.tail else entries

/-- Count a window in. -/
def PathCounters.add (t : PathCounters) (w : CounterWindow) : PathCounters :=
  { t with
    expected := satAdd t.expected w.expected
    seen := satAdd t.seen w.seen
    dup := satAdd t.dup w.dup
    resets := satAdd32 t.resets w.resets }

/-- The counts of all windows together; the age is for the path to give. -/
def SaWindows.totals (entries : SaWindows) : PathCounters := entries.foldl (fun t e => t.add e.2) {}

/-- What has been seen of one path. -/
structure PathState where
  sas : SaWindows := []
  lastRecvMs : Option UInt64 := none
  rawFrames : UInt64 := 0
  deriving DecidableEq, Repr

def PathState.observeData (p : PathState) (nowMs : UInt64) (frame : Bytes) : PathState × Bool :=
  match frameMeta frame with
  | none => (p, false)
  | some (key, counter) =>
    ({ sas := p.sas.observe key counter, lastRecvMs := some nowMs, rawFrames := satAdd p.rawFrames 1 }, true)

/-- How long ago an instant was, if it is not in the future. -/
def ageMs (last : Option UInt64) (nowMs : UInt64) : UInt32 :=
  match last with
  | some t => if t ≤ nowMs then UInt32.ofNat (min (nowMs - t).toNat 0xFFFFFFFF) else 0xFFFFFFFF
  | none => 0xFFFFFFFF

def PathState.counters (p : PathState) (nowMs : UInt64) : PathCounters :=
  { p.sas.totals with lastRecvAgeMs := ageMs p.lastRecvMs nowMs }

end IPv8Plus.Observe
