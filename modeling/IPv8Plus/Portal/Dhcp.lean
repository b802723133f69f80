import IPv8Plus.Codec.AddrText
import IPv8Plus.Lib.IpText

/-!
# The address manager of the portal

`deploy/portal/ipv8-dhcp.ps1`: a table of records by client number, a counter for the next number, and a file that the table
is saved to and loaded from. Texts are their UTF-8 bytes. `-eq` ignores case by the rules of the culture, and it is a
parameter here, as is SHA-256. The mutex makes every function one step.
-/

namespace IPv8Plus.Portal
open Lib

/-- `-eq` on texts. -/
structure TextEq where
  eq : Bytes → Bytes → Bool
  equivalence : Equivalence fun a b => eq a b = true

def text (s : String) : Bytes := s.toList.map fun c => UInt8.ofNat c.toNat

inductive Status where
  | active
  | stale
  | released
  deriving DecidableEq, Repr

/-- A record; fields that a function does not set are null. -/
structure Record where
  ipv8Address : Bytes
  ipv8Canonical : Bytes
  tunIp : Bytes
  clientIp : Bytes
  clientName : Bytes
  fingerprint : Option Bytes := none
  assignedAt : Bytes
  lastSeen : Bytes
  status : Status
  registered : Bool
  visaExists : Bool := false
  caExists : Bool := false
  releasedAt : Option Bytes := none
  deriving DecidableEq, Repr

abbrev Allocations := Std.ExtTreeMap Nat Record

/-- What `Save-Allocations` writes. -/
structure Snapshot where
  nextClient : Nat
  records : Allocations

structure Dhcp where
  allocations : Allocations := ∅
  nextClient : Nat := 2
  disk : Option Snapshot := none

/-- The wire format: ASN, HostID, DeviceID, CapTag, SecLevel. -/
def wire (hashBytes : Bytes) (clientNum : Nat) : Bytes :=
  ([0x00, 0x00, 0xFB, 0x14] : Bytes) ++ hashBytes.take 4 ++
    [UInt8.ofNat (clientNum >>> 8 &&& 0xFF), UInt8.ofNat (clientNum &&& 0xFF)] ++ [0x00, 0x01, 1, 0, 0, 0]

/-- Groups of four digits. -/
def ipv8Display (wire : Bytes) : Bytes :=
  [colon].intercalate ((List.range 8).map fun i => Codec.hex ((wire.drop (2 * i)).take 2))

def ipv8Canonical (wire : Bytes) : Bytes := Codec.hex wire

def tunSuffix (clientNum : Nat) : Nat :=
  if clientNum &&& 0xFF = 0 ∨ clientNum &&& 0xFF = 255 then 254 else clientNum &&& 0xFF

def tunIp (clientNum : Nat) : Bytes := text "100.64.0." ++ decimal (tunSuffix clientNum)

def serverTunIp : Bytes := text "100.64.0.1"

/-- A text that is not empty, or else the other one. -/
def orElse (t other : Bytes) : Bytes := if t.isEmpty then other else t

inductive Reply where
  | record (r : Record)
  | records (rs : List Record)
  | nothing
  | thrown
  deriving DecidableEq, Repr

inductive DhcpCall where
  | allocate (now clientIp clientName : Bytes)
  | register (now clientIp ipv8Addr hostname fingerprint : Bytes) (visaExists caExists : Bool)
  | release (now clientIp : Bytes)
  | save
  | restart (now : Bytes)
  deriving DecidableEq, Repr

namespace Dhcp

def saveAllocations (s : Dhcp) : Dhcp := { s with disk := some ⟨s.nextClient, s.allocations⟩ }

/-- A record as it comes back from the file. -/
def restored (now : Bytes) (r : Record) : Record :=
  let assignedAt := orElse r.assignedAt now
  { r with
    assignedAt
    lastSeen := orElse r.lastSeen assignedAt
    status := if r.status = .active then .stale else r.status
    releasedAt := none }

def loadRecord (now : Bytes) (allocations : Allocations) (e : Nat × Record) : Allocations :=
  if e.2.clientIp.isEmpty then allocations
  else if e.1 = 0 then allocations
  else allocations.insert e.1 (restored now e.2)

def loadAllocations (s : Dhcp) (now : Bytes) : Dhcp :=
  match s.disk with
  | none => s
  | some snap =>
    { s with
      allocations := snap.records.toList.foldl (loadRecord now) s.allocations
      nextClient := if s.nextClient < snap.nextClient then snap.nextClient else s.nextClient }

/-- The script starts again. -/
def restart (s : Dhcp) (now : Bytes) : Dhcp := loadAllocations { disk := s.disk } now

variable (sha256 : Bytes → Arr UInt8 32) (E : TextEq)

/-- The records of a client. -/
def existing (s : Dhcp) (clientIp : Bytes) : List (Nat × Record) :=
  s.allocations.toList.filter fun e => E.eq e.2.clientIp clientIp

/-- `Allocate-IPv8Address`. A number beyond 16 bits fails the conversion to `uint16`, which comes after the counter. -/
def allocate (s : Dhcp) (now clientIp clientName : Bytes) : Dhcp × Reply :=
  match s.existing E clientIp with
  | [e] => (s, .record e.2)
  | e :: es => (s, .records ((e :: es).map Prod.snd))
  | [] =>
    let clientNum := s.nextClient
    let s := { s with nextClient := s.nextClient + 1 }
    if 2 ^ 16 ≤ clientNum then (s, .thrown)
    else
      let wire := wire (sha256 clientIp).val clientNum
      let record : Record :=
        { ipv8Address := ipv8Display wire
          ipv8Canonical := ipv8Canonical wire
          tunIp := tunIp clientNum
          clientIp
          clientName := orElse clientName (text "client-" ++ decimal clientNum)
          assignedAt := now
          lastSeen := now
          status := .active
          registered := false }
      (saveAllocations { s with allocations := s.allocations.insert clientNum record }, .record record)

/-- `Register-Client`. A field of an array of records cannot be set. -/
def register (s : Dhcp) (now clientIp ipv8Addr hostname fingerprint : Bytes) (visaExists caExists : Bool) :
    Dhcp × Reply :=
  match s.existing E clientIp with
  | [(clientNum, r)] =>
    let record : Record :=
      { r with
        lastSeen := now
        status := .active
        ipv8Address := orElse ipv8Addr r.ipv8Address
        clientName := orElse hostname r.clientName
        fingerprint := if fingerprint.isEmpty then r.fingerprint else some fingerprint
        visaExists
        caExists
        registered := true }
    ({ s with allocations := s.allocations.insert clientNum record }, .record record)
  | _ :: _ => (s, .thrown)
  | [] =>
    let clientNum := s.nextClient
    let s := { s with nextClient := s.nextClient + 1 }
    let wire := wire (sha256 clientIp).val clientNum
    let record : Record :=
      { ipv8Address := orElse ipv8Addr (ipv8Display wire)
        ipv8Canonical := ipv8Canonical wire
        tunIp := tunIp clientNum
        clientIp
        clientName := orElse hostname (text "client-" ++ decimal clientNum)
        fingerprint := some fingerprint
        assignedAt := now
        lastSeen := now
        status := .active
        registered := true
        visaExists
        caExists }
    (saveAllocations { s with allocations := s.allocations.insert clientNum record }, .record record)

/-- `Release-IPv8Address` -/
def release (s : Dhcp) (now clientIp : Bytes) : Dhcp × Reply :=
  match s.existing E clientIp with
  | [(clientNum, r)] =>
    let record : Record := { r with status := .released, releasedAt := some now }
    (saveAllocations { s with allocations := s.allocations.insert clientNum record }, .nothing)
  | _ :: _ => (s, .thrown)
  | [] => (s, .nothing)

def step (s : Dhcp) : DhcpCall → Dhcp × Reply
  | .allocate now clientIp clientName => s.allocate sha256 E now clientIp clientName
  | .register now clientIp ipv8Addr hostname fingerprint visaExists caExists =>
    s.register sha256 E now clientIp ipv8Addr hostname fingerprint visaExists caExists
  | .release now clientIp => s.release E now clientIp
  | .save => (s.saveAllocations, .nothing)
  | .restart now => (s.restart now, .nothing)

end Dhcp

end IPv8Plus.Portal
