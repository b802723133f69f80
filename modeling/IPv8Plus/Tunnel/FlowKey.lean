import IPv8Plus.Tunnel.Flow

/-!
# The key of a flow

What IP packets carry of a TCP or UDP flow, and what `hash_flow` makes of them. The hash reads the protocol that the IP
header itself names, and the four bytes behind the header (`Alike`). These are the ports if the transport header stands
there, but not in a later fragment, and not behind an IPv6 extension header.
-/

namespace IPv8Plus.Tunnel
open Lib Codec

/-! ## IP packets -/

structure Flow where
  src : Bytes
  dst : Bytes
  proto : UInt8
  ports : Bytes
  deriving DecidableEq

def tcp : UInt8 := 6

def udp : UInt8 := 17

def ipVersion (packet : Bytes) : UInt8 := packet.getD 0 0 >>> 4

/-- The length of an IPv4 header with its options. -/
def ihlBytes (packet : Bytes) : Nat := (packet.getD 0 0 &&& 0x0F).toNat * 4

/-- The fragment offset of an IPv4 packet, in units of 8 bytes. -/
def fragmentOffset (packet : Bytes) : Nat := ofBe ((packet.drop 6).take 2) % 2 ^ 13

/-- What stands behind an IPv6 header that names the protocol: behind any extension headers the transport header of
`proto`, with its bytes, or a later fragment of a datagram of `proto`. -/
inductive Transport : UInt8 → Bytes → UInt8 → Option Bytes → Prop where
  | here (proto : UInt8) (bytes : Bytes) : Transport proto bytes proto (some bytes)
  | extension {ext next len proto : UInt8} {rest : Bytes} {bytes : Option Bytes} :
    ext ∈ [0, 43, 60, 135, 139, 140] →
    Transport next ((next :: len :: rest).drop (8 * (len.toNat + 1))) proto bytes →
    Transport ext (next :: len :: rest) proto bytes
  | authentication {next len proto : UInt8} {rest : Bytes} {bytes : Option Bytes} :
    Transport next ((next :: len :: rest).drop (4 * (len.toNat + 2))) proto bytes →
    Transport 51 (next :: len :: rest) proto bytes
  | firstFragment {next reserved hi lo proto : UInt8} {rest : Bytes} {bytes : Option Bytes} :
    ofBe [hi, lo] / 8 = 0 →
    Transport next (rest.drop 4) proto bytes →
    Transport 44 (next :: reserved :: hi :: lo :: rest) proto bytes
  | laterFragment {next reserved hi lo proto : UInt8} {rest : Bytes} :
    ofBe [hi, lo] / 8 ≠ 0 →
    (next = tcp ∨ next = udp → next = proto) →
    Transport 44 (next :: reserved :: hi :: lo :: rest) proto none

/-- A packet of the flow: a datagram or a fragment of one. A later fragment does not show its ports, so it may be of any
flow with its addresses and protocol. -/
inductive Carries (packet : Bytes) (flow : Flow) : Prop where
  | v4 (version : ipVersion packet = 4) (header : 20 ≤ ihlBytes packet) (whole : ihlBytes packet ≤ packet.length)
    (src : (packet.drop 12).take 4 = flow.src) (dst : (packet.drop 16).take 4 = flow.dst)
    (proto : packet.getD 9 0 = flow.proto)
    (ports : fragmentOffset packet = 0 →
      ihlBytes packet + 4 ≤ packet.length ∧ (packet.drop (ihlBytes packet)).take 4 = flow.ports)
  | v6 (bytes : Option Bytes) (version : ipVersion packet = 6) (whole : 40 ≤ packet.length)
    (src : (packet.drop 8).take 16 = flow.src) (dst : (packet.drop 24).take 16 = flow.dst)
    (transport : Transport (packet.getD 6 0) (packet.drop 40) flow.proto bytes)
    (ports : ∀ bs ∈ bytes, 4 ≤ bs.length ∧ bs.take 4 = flow.ports)

/-! ## What the hash reads -/

/-- The ports of a TCP or UDP header at this place, if the packet is long enough. -/
def readPorts (innerIp : Bytes) (proto : UInt8) (start : Nat) : Outcome Empty Bytes :=
  if (proto = 6 ∨ proto = 17) ∧ start + 4 ≤ innerIp.length then slice innerIp start (start + 4) else .ok []

/-- The accesses of `hash_flow`, of which one outside of the packet panics. -/
def readFlow (innerIp : Bytes) : Outcome Empty Bytes :=
  if innerIp.isEmpty then .ok []
  else do
    let first ← idx innerIp 0
    if first >>> 4 = 4 ∧ 20 ≤ innerIp.length then
      let addrs ← slice innerIp 12 20
      let proto ← idx innerIp 9
      let ihl := (first &&& 0x0F).toNat * 4
      let ihl := if 6 ≤ ihl ∧ ihl ≤ 60 ∧ ihl ≤ innerIp.length then ihl else 20
      let ports ← readPorts innerIp proto ihl
      .ok (addrs ++ ports ++ [proto])
    else if first >>> 4 = 6 ∧ 40 ≤ innerIp.length then
      let addrs ← slice innerIp 8 40
      let nh ← idx innerIp 6
      let ports ← readPorts innerIp nh 40
      .ok (addrs ++ ports ++ [nh])
    else slice innerIp 0 (min innerIp.length 16)

/-- The hash of a key. -/
def hashBytes (key : Bytes) : UInt32 :=
  let h := (key.take 40).foldl (fun h b => (h ^^^ b.toUInt64) * 0x100000001B3) (0xCBF29CE484222325 : UInt64)
  (h >>> 32 ^^^ h).toUInt32

/-- The protocol that the IP header itself names. -/
def headProto (packet : Bytes) : UInt8 := if ipVersion packet = 4 then packet.getD 9 0 else packet.getD 6 0

/-- The first four bytes behind the IPv4 header, or behind the fixed IPv6 header. -/
def front (packet : Bytes) : Bytes :=
  let start := if ipVersion packet = 4 then ihlBytes packet else 40
  if start + 4 ≤ packet.length then (packet.drop start).take 4 else []

/-- The packets show the same to `hash_flow`, apart from their addresses. -/
def Alike (p q : Bytes) : Prop :=
  headProto p = headProto q ∧ (headProto p = tcp ∨ headProto p = udp → front p = front q)

instance (p q : Bytes) : Decidable (Alike p q) := inferInstanceAs (Decidable (_ ∧ _))

lemma Alike.refl (p : Bytes) : Alike p p := ⟨rfl, fun _ => rfl⟩

lemma Alike.symm {p q : Bytes} (h : Alike p q) : Alike q p :=
  ⟨h.1.symm, fun hproto => (h.2 (by rw [h.1]; exact hproto)).symm⟩

/-- The transport header stands where `hash_flow` looks for it. -/
def Plain (packet : Bytes) : Prop :=
  if ipVersion packet = 4 then fragmentOffset packet = 0 else headProto packet = tcp ∨ headProto packet = udp

section
variable {packet : Bytes} {proto : UInt8} {i start : Nat}

/-- The bytes at this place that the key takes for ports. -/
def portBytes (packet : Bytes) (proto : UInt8) (start : Nat) : Bytes :=
  if (proto = 6 ∨ proto = 17) ∧ start + 4 ≤ packet.length then (packet.drop start).take 4 else []

/-- Where the key takes the ports of an IPv4 packet from. -/
def portsAt (packet : Bytes) : Nat :=
  if 6 ≤ ihlBytes packet ∧ ihlBytes packet ≤ 60 ∧ ihlBytes packet ≤ packet.length then ihlBytes packet else 20

lemma flowBytes_v4 (hv : ipVersion packet = 4) (hlen : 20 ≤ packet.length) : flowBytes packet =
    (packet.drop 12).take 8 ++ portBytes packet (packet.getD 9 0) (portsAt packet) ++ [packet.getD 9 0] := by
  have hne : ¬ packet.isEmpty := fun h => by
    rw [List.isEmpty_iff.mp h] at hlen
    exact absurd hlen (by decide)
  have hv' : packet.getD 0 0 >>> 4 = 4 := hv
  unfold flowBytes
  rw [if_neg hne, if_pos ⟨hv', hlen⟩]
  show (packet.drop 12).take 8 ++ (if (packet.getD 9 0 = 6 ∨ packet.getD 9 0 = 17) ∧ portsAt packet + 4 ≤ packet.length then
    (packet.drop (portsAt packet)).take (portsAt packet + 4 - portsAt packet) else []) ++ [packet.getD 9 0] = _
  rw [Nat.add_sub_cancel_left]
  rfl

lemma flowBytes_v6 (hv : ipVersion packet = 6) (hlen : 40 ≤ packet.length) : flowBytes packet =
    (packet.drop 8).take 32 ++ portBytes packet (packet.getD 6 0) 40 ++ [packet.getD 6 0] := by
  have hne : ¬ packet.isEmpty := fun h => by
    rw [List.isEmpty_iff.mp h] at hlen
    exact absurd hlen (by decide)
  have hv' : packet.getD 0 0 >>> 4 = 6 := hv
  have hv4 : ¬ (packet.getD 0 0 >>> 4 = 4 ∧ 20 ≤ packet.length) := fun h => absurd (hv'.symm.trans h.1) (by decide)
  unfold flowBytes
  rw [if_neg hne, if_neg hv4, if_pos ⟨hv', hlen⟩]
  rfl

lemma idx_of_lt (h : i < packet.length) : (idx packet i : Outcome Empty UInt8) = .ok (packet.getD i 0) := by
  apply idx_of_getElem?
  rw [List.getD_eq_getElem?_getD, List.getElem?_eq_getElem h]
  rfl

lemma readPorts_eq (packet : Bytes) (proto : UInt8) (start : Nat) :
    readPorts packet proto start = .ok (portBytes packet proto start) := by
  unfold readPorts portBytes
  split
  · next h => rw [slice_of_le (Nat.le_add_right _ _) h.2, Nat.add_sub_cancel_left]
  · rfl

/-- No access is outside of the packet. -/
theorem readFlow_eq (innerIp : Bytes) : readFlow innerIp = .ok (flowBytes innerIp) := by
  unfold readFlow
  split
  · next h => rw [List.isEmpty_iff.mp h]; rfl
  next hne =>
  have hpos : 0 < innerIp.length := List.length_pos_iff.mpr fun h => hne (List.isEmpty_iff.mpr h)
  rw [idx_of_lt hpos, Outcome.ok_bind]
  split
  · next hv4 =>
    obtain ⟨hv, hlen⟩ := hv4
    rw [flowBytes_v4 hv hlen, slice_of_le (by omega) hlen, idx_of_lt (by omega), Outcome.ok_bind, Outcome.ok_bind]
    dsimp only
    rw [readPorts_eq]
    rfl
  next hv4 =>
  split
  · next hv6 =>
    obtain ⟨hv, hlen⟩ := hv6
    rw [flowBytes_v6 hv hlen, slice_of_le (by omega) hlen, idx_of_lt (by omega), Outcome.ok_bind, Outcome.ok_bind,
      readPorts_eq]
    rfl
  · next hv6 =>
    unfold flowBytes
    rw [if_neg hne, if_neg hv4, if_neg hv6, slice_of_le (Nat.zero_le _) (Nat.min_le_left _ _), List.drop_zero,
      Nat.sub_zero, Nat.min_comm, ← List.take_take, List.take_length]

lemma hashFlow_eq (innerIp : Bytes) : hashFlow innerIp = hashBytes (flowBytes innerIp) := rfl

/-! ## Packets of one flow -/

variable {p q : Bytes} {flow : Flow}

/-- The key of a packet of a flow. -/
lemma Carries.flowBytes_eq (h : Carries packet flow) : flowBytes packet =
    flow.src ++ flow.dst ++ (if headProto packet = 6 ∨ headProto packet = 17 then front packet else []) ++ [headProto packet] := by
  cases h with
  | v4 version header whole src dst proto ports =>
    have hbound : ihlBytes packet ≤ 60 := by
      have hlt : (packet.getD 0 0 &&& 0x0F).toNat ≤ 15 := by
        rw [UInt8.toNat_and]
        exact Nat.and_le_right
      unfold ihlBytes
      omega
    have hat : portsAt packet = ihlBytes packet := if_pos ⟨by omega, hbound, whole⟩
    have haddrs : (packet.drop 12).take 8 = flow.src ++ flow.dst := by
      rw [← src, ← dst, List.take_add (i := 4) (j := 4), List.drop_drop]
    rw [flowBytes_v4 version (header.trans whole), haddrs, hat]
    unfold portBytes front headProto
    rw [if_pos version, if_pos version, ite_and]
  | v6 bytes version whole src dst transport ports =>
    have hv4 : ipVersion packet ≠ 4 := fun h => absurd (version.symm.trans h) (by decide)
    have haddrs : (packet.drop 8).take 32 = flow.src ++ flow.dst := by
      rw [← src, ← dst, List.take_add (i := 16) (j := 16), List.drop_drop]
    rw [flowBytes_v6 version whole, haddrs]
    unfold portBytes front headProto
    rw [if_neg hv4, if_neg hv4, ite_and]

/-- Packets of a flow have one key exactly if they are alike. -/
theorem flowBytes_inj (hp : Carries p flow) (hq : Carries q flow) : flowBytes p = flowBytes q ↔ Alike p q := by
  rw [hp.flowBytes_eq, hq.flowBytes_eq, List.append_assoc, List.append_assoc (flow.src ++ flow.dst), List.append_cancel_left_eq]
  constructor
  · intro h
    obtain ⟨hports, hproto⟩ := List.append_inj' h rfl
    have hproto : headProto p = headProto q := List.head_eq_of_cons_eq hproto
    refine ⟨hproto, fun htransport => ?_⟩
    have htransport : headProto p = 6 ∨ headProto p = 17 := htransport
    rw [← hproto, if_pos htransport, if_pos htransport] at hports
    exact hports
  · rintro ⟨hproto, hports⟩
    rw [← hproto]
    split
    · next hp => rw [hports hp]
    · rfl

/-- A packet that shows its ports. -/
lemma Carries.front_eq (h : Carries packet flow) (hplain : Plain packet) :
    headProto packet = flow.proto ∧ front packet = flow.ports := by
  cases h with
  | v4 version header whole src dst proto ports =>
    unfold Plain at hplain
    rw [if_pos version] at hplain
    obtain ⟨hlen, hports⟩ := ports hplain
    unfold headProto front
    rw [if_pos version, if_pos version]
    exact ⟨proto, (if_pos hlen).trans hports⟩
  | v6 bytes version whole src dst transport ports =>
    have hv4 : ipVersion packet ≠ 4 := fun h => absurd (version.symm.trans h) (by decide)
    unfold Plain headProto at hplain
    rw [if_neg hv4, if_neg hv4] at hplain
    unfold headProto front
    rw [if_neg hv4, if_neg hv4]
    generalize packet.getD 6 0 = nh at transport hplain ⊢
    generalize hrest : packet.drop 40 = rest at transport
    cases transport with
    | here proto bytes =>
      obtain ⟨hlen, hports⟩ := ports rest rfl
      have hlen' : 40 + 4 ≤ packet.length := by
        rw [← hrest, List.length_drop] at hlen
        omega
      exact ⟨rfl, by rw [if_pos hlen', hrest, hports]⟩
    | extension hext =>
      rcases hplain with rfl | rfl
      · exact absurd hext (by decide)
      · exact absurd hext (by decide)
    | authentication => exact absurd hplain (by decide)
    | firstFragment => exact absurd hplain (by decide)
    | laterFragment => exact absurd hplain (by decide)

/-- Packets of a flow that show their ports are alike. -/
theorem Carries.alike (hp : Carries p flow) (hq : Carries q flow) (hplain : Plain p) (hplain' : Plain q) : Alike p q := by
  obtain ⟨hp1, hp2⟩ := hp.front_eq hplain
  obtain ⟨hq1, hq2⟩ := hq.front_eq hplain'
  exact ⟨hp1.trans hq1.symm, fun _ => hp2.trans hq2.symm⟩

end

end IPv8Plus.Tunnel
