import IPv8Plus.Neigh.Neighbor

/-!
# The neighbor commands

`tools/ipv8-client/src/main.rs`: what `ping8 neigh hello` and `ping8 neigh watch` do with each packet, the UDP transport under
them, and `ping8 neigh remove`. A command loads the table when it starts and saves it after every change. What it prints, the
transport over the driver and datagrams that are longer than the receive buffer are left out.
-/

namespace IPv8Plus.Neigh
open Lib

inductive PayloadKind where
  | neighbor
  | ipv8
  | other
  deriving DecidableEq

def classify (payload : Bytes) : PayloadKind :=
  if payload.take 4 = magic then if payload.length = msgLen then .neighbor else .other
  else if payload.head?.map (· >>> (4 : UInt8)) = some 8 then .ipv8
  else .other

def isNeighborPayload (payload : Bytes) : Bool := classify payload = .neighbor

/-- A broadcast of the node itself comes back to it. -/
def payloadIsOwn (payload : Bytes) (localPk : PublicKey) : Bool :=
  decide (signedLen ≤ payload.length) && decide ((payload.drop 40).take 32 = localPk.val)

/-! ## The UDP transport -/

abbrev Ipv4 := Arr UInt8 4

lemma length_ipToRec (ip : Ipv4) : (ip.val ++ [0, 0]).length = 6 := by
  rw [List.length_append, ip.property]
  rfl

/-- A peer's address stands in the place of a MAC. -/
def ipToRec (ip : Ipv4) : Mac := ⟨ip.val ++ [0, 0], length_ipToRec ip⟩

lemma length_broadcastMac : (List.replicate 6 (0xFF : UInt8)).length = 6 := List.length_replicate

def broadcastMac : Mac := ⟨List.replicate 6 0xFF, length_broadcastMac⟩

lemma length_broadcastIp : (List.replicate 4 (0xFF : UInt8)).length = 4 := List.length_replicate

def broadcastIp : Ipv4 := ⟨List.replicate 4 0xFF, length_broadcastIp⟩

/-- The cache has one MAC for an address. -/
structure UdpTransport where
  ipMacCache : List (Ipv4 × Mac)
  nodup : (ipMacCache.map Prod.fst).Nodup

namespace UdpTransport

def new : UdpTransport := ⟨[], List.nodup_nil⟩

def cacheIpMac (t : UdpTransport) (ip : Ipv4) (mac : Mac) : UdpTransport :=
  ⟨putBy Prod.fst (ip, mac) t.ipMacCache, nodup_putBy t.nodup⟩

def lookupIpForMac (t : UdpTransport) (mac : Mac) : Option Ipv4 :=
  if mac = broadcastMac then some broadcastIp else (t.ipMacCache.find? fun e => e.2 = mac).map Prod.fst

/-- A datagram from an address, and the MAC that stands for it. -/
def recv (t : UdpTransport) (src : Ipv4) : UdpTransport × Mac := (t.cacheIpMac src (ipToRec src), ipToRec src)

/-- Where a packet for a MAC goes. -/
def send (t : UdpTransport) (dst : Mac) : Option Ipv4 := t.lookupIpForMac dst

end UdpTransport

/-! ## The commands -/

/-- A command that runs. -/
structure Session where
  proc : NeighborProcessor
  transport : UdpTransport := .new

/-- What a command does about a packet: it goes on or ends, saves a table, sends a reply, and its user may have agreed to a
key. -/
structure Turn where
  session : Option Session
  save : Option NeighborStore := none
  reply : Option (Ipv4 × Bytes) := none
  agreed : Option PublicKey := none

variable (S : SignatureOps)

/-- `neigh hello` up to its wait: the HELLO goes to all. -/
def cmdNeighHello (addr : Addr) (pk : PublicKey) (store : NeighborStore) (nonce : UInt64) (now : Int) : Session × Bytes :=
  let (proc, hello) := (NeighborProcessor.new addr pk store).buildHello S nonce now
  ({ proc }, hello)

def cmdNeighWatch (addr : Addr) (pk : PublicKey) (store : NeighborStore) : Session := { proc := .new addr pk store }

namespace Session

/-- A packet while `neigh hello` waits: the first ACK that counts ends the command. -/
def helloTurn (s : Session) (src : Ipv4) (pkt : Bytes) (now : Int) : Turn :=
  let (transport, srcMac) := s.transport.recv src
  if classify pkt ≠ .neighbor ∨ payloadIsOwn pkt s.proc.localPubkey then { session := some { s with transport } }
  else if pkt.getD 5 0 = msgAck then
    match s.proc.processAck S pkt srcMac now with
    | (proc, .ok _) => { session := none, save := some proc.store }
    | (proc, .error _) => { session := some { proc, transport } }
  else { session := some { s with transport } }

/-- The ACK of a HELLO goes back to where the HELLO came from. -/
def ack (proc : NeighborProcessor) (transport : UdpTransport) (hello : NeighborMessage) (srcMac : Mac) (now : Int) :
    Option (Ipv4 × Bytes) :=
  (transport.send srcMac).map fun ip => (ip, proc.buildAck S hello now)

/-- A packet while `neigh watch` listens; `agree` is what the user says when asked. -/
def watchTurn (s : Session) (src : Ipv4) (payload : Bytes) (now : Int) (agree : Bool) : Turn :=
  let (transport, srcMac) := s.transport.recv src
  if ¬ isNeighborPayload payload ∨ payloadIsOwn payload s.proc.localPubkey then { session := some { s with transport } }
  else if payload.getD 5 0 = msgHello then
    match s.proc.processHello S payload srcMac now with
    | (proc, .autoAck m) =>
      { session := some { proc, transport }, save := some proc.store, reply := ack S proc transport m srcMac now }
    | (proc, .needsConsent m) =>
      if agree then
        let proc := proc.approveConsent m srcMac now
        { session := some { proc, transport }, save := some proc.store, reply := ack S proc transport m srcMac now
          agreed := some m.pubkey }
      else { session := some { proc, transport } }
    | (proc, .reject _) => { session := some { proc, transport } }
  else if payload.getD 5 0 = msgAck then
    match s.proc.processAck S payload srcMac now with
    | (proc, .ok _) => { session := some { proc, transport }, save := some proc.store }
    | (proc, .error _) => { session := some { proc, transport } }
  else { session := some { s with transport } }

end Session

inductive Command where
  | hello
  | watch
  deriving DecidableEq

def Session.turn (s : Session) (src : Ipv4) (pkt : Bytes) (now : Int) (agree : Bool) : Command → Turn
  | .hello => s.helloTurn S src pkt now
  | .watch => s.watchTurn S src pkt now agree

/-- What `neigh remove` may name; 32 hex digits are an address or else the start of a key. -/
inductive Target where
  | mac (mac : Mac)
  | addrOrPrefix (bytes : Addr)
  | pubkey (pubkey : PublicKey)
  | pubkeyPrefix (start : Bytes)

def NeighborStore.removeTarget (store : NeighborStore) : Target → NeighborStore × Bool
  | .mac mac => store.removeMac mac
  | .addrOrPrefix bytes =>
    let (store', removed) := store.removeAddr bytes
    if removed then (store', true) else store'.removePubkeyPrefix bytes.val
  | .pubkey pubkey => store.removePubkey pubkey
  | .pubkeyPrefix start => store.removePubkeyPrefix start

namespace NeighborStore

lemma mem_keys_removeTarget {store : NeighborStore} {target : Target} {key : PublicKey}
    (h : key ∈ (store.removeTarget target).1.keys) : key ∈ store.keys := by
  cases target with
  | mac mac => exact mem_keys_retain h
  | addrOrPrefix bytes =>
    rw [removeTarget] at h
    dsimp only at h
    split at h
    · exact mem_keys_retain h
    · exact mem_keys_retain (mem_keys_removePubkeyPrefix h)
  | pubkey pubkey => exact mem_keys_retain h
  | pubkeyPrefix start => exact mem_keys_removePubkeyPrefix h

end NeighborStore

/-! ## Frames that were built -/

/-- The nonce of a frame. -/
def frameNonce (frame : Bytes) : UInt64 := ofBe64 ((frame.drop 32).take 8)

variable {frame frame' : Bytes} {msg : NeighborMessage}

lemma decode_fields (h : decode frame = .ok msg) :
    frame.length = msgLen ∧ frame.take 4 = magic ∧ frame.getD 5 0 = msg.msgType ∧ frameNonce frame = msg.nonce ∧
      (frame.drop 40).take 32 = msg.pubkey.val := by
  unfold decode at h
  split at h
  · next hlen =>
    split at h
    · cases h
    next hmagic =>
    split at h
    · cases h
    dsimp only at h
    split at h
    · cases h
    split at h
    · cases h
    split at h
    · cases h
    cases h
    exact ⟨hlen, not_not.mp hmagic, rfl, rfl, rfl⟩
  · cases h

/-- What is signed holds the type and the nonce. -/
lemma signed_fields (h : frame.take signedLen = frame'.take signedLen) :
    frame.getD 5 0 = frame'.getD 5 0 ∧ frameNonce frame = frameNonce frame' := by
  have hdrop : ∀ f : Bytes, (f.drop 32).take 8 = ((f.take signedLen).drop 32).take 8 := by
    intro f
    rw [List.drop_take, List.take_take]
    rfl
  have hget : ∀ f : Bytes, f.getD 5 0 = (f.take signedLen).getD 5 0 := by
    intro f
    rw [List.getD_eq_getElem?_getD, List.getD_eq_getElem?_getD, List.getElem?_take_of_lt (by decide)]
  constructor
  · rw [hget frame, hget frame', h]
  · rw [frameNonce, frameNonce, hdrop frame, hdrop frame', h]

/-- What follows a field. -/
lemma drop_add {l field rest : Bytes} {a n : Nat} (h : l.drop a = field ++ rest) (hn : field.length = n) : l.drop (a + n) = rest := by
  rw [← List.drop_drop, h, List.drop_left' hn]

section Parts

variable (type : UInt8) (addr : Addr) (ts : Int) (nonce : UInt64) (pubkey : PublicKey) (sig : Signature)

/-- The header of a frame. -/
abbrev header : Bytes := magic ++ [version, type, 0, 0]

lemma encodeParts_eq : encodeParts type addr ts nonce pubkey sig =
    header type ++ (addr.val ++ (be64 (UInt64.ofInt ts) ++ (be64 nonce ++ (pubkey.val ++ sig.val)))) := by
  simp only [encodeParts, header, List.append_assoc]

lemma length_encodeParts : (encodeParts type addr ts nonce pubkey sig).length = msgLen := by
  rw [encodeParts_eq]
  simp only [List.length_append, addr.property, pubkey.property, sig.property, length_be64]
  rfl

lemma getD_encodeParts : (encodeParts type addr ts nonce pubkey sig).getD 5 0 = type := by
  rw [encodeParts_eq]
  rfl

lemma drop_addr : (encodeParts type addr ts nonce pubkey sig).drop 8 =
    addr.val ++ (be64 (UInt64.ofInt ts) ++ (be64 nonce ++ (pubkey.val ++ sig.val))) := by
  rw [encodeParts_eq]
  exact List.drop_left' rfl

lemma drop_ts : (encodeParts type addr ts nonce pubkey sig).drop 24 =
    be64 (UInt64.ofInt ts) ++ (be64 nonce ++ (pubkey.val ++ sig.val)) := drop_add (drop_addr ..) addr.property

lemma drop_nonce : (encodeParts type addr ts nonce pubkey sig).drop 32 = be64 nonce ++ (pubkey.val ++ sig.val) :=
  drop_add (drop_ts ..) (length_be64 _)

lemma drop_pubkey : (encodeParts type addr ts nonce pubkey sig).drop 40 = pubkey.val ++ sig.val :=
  drop_add (drop_nonce ..) (length_be64 _)

lemma drop_sig : (encodeParts type addr ts nonce pubkey sig).drop 72 = sig.val := drop_add (drop_pubkey ..) pubkey.property

lemma frameNonce_encodeParts : frameNonce (encodeParts type addr ts nonce pubkey sig) = nonce := by
  rw [frameNonce, drop_nonce, List.take_left' (length_be64 _), ofBe64_be64]

lemma getD_buildSigned (S : SignatureOps) : (buildSigned S type addr ts nonce pubkey).getD 5 0 = type := getD_encodeParts ..

lemma frameNonce_buildSigned (S : SignatureOps) : frameNonce (buildSigned S type addr ts nonce pubkey) = nonce :=
  frameNonce_encodeParts ..

/-- The signature is not part of what is signed. -/
lemma take_signed : (encodeParts type addr ts nonce pubkey sig).take signedLen =
    (encodeParts type addr ts nonce pubkey zeroSig).take signedLen := by
  have hpre : ∀ s : Signature, encodeParts type addr ts nonce pubkey s =
      (header type ++ (addr.val ++ (be64 (UInt64.ofInt ts) ++ (be64 nonce ++ pubkey.val)))) ++ s.val := by
    intro s
    rw [encodeParts_eq]
    simp only [List.append_assoc]
  have hlen : (header type ++ (addr.val ++ (be64 (UInt64.ofInt ts) ++ (be64 nonce ++ pubkey.val)))).length = signedLen := by
    simp only [List.length_append, addr.property, pubkey.property, length_be64]
    rfl
  rw [hpre sig, hpre zeroSig, List.take_left' hlen, List.take_left' hlen]

/-- A frame that was built decodes to what went in, at any time that is not before 1970. -/
lemma decode_encodeParts (htype : type = msgHello ∨ type = msgAck) (h0 : 0 ≤ ts) (hts : ts < 2 ^ 63) :
    decode (encodeParts type addr ts nonce pubkey sig) = .ok ⟨type, 0, addr, ts, nonce, pubkey, sig⟩ := by
  have hmagic : (encodeParts type addr ts nonce pubkey sig).take 4 = magic := by
    rw [encodeParts_eq]
    rfl
  have hversion : (encodeParts type addr ts nonce pubkey sig).getD 4 0 = version := by
    rw [encodeParts_eq]
    rfl
  have hflags : ((encodeParts type addr ts nonce pubkey sig).drop 6).take 2 = [0, 0] := by
    rw [encodeParts_eq]
    rfl
  have hrawTs : ofBe (((encodeParts type addr ts nonce pubkey sig).drop 24).take 8) = ts.toNat := by
    have hbits : UInt64.ofInt ts = UInt64.ofNat ts.toNat := by
      rw [UInt64.ofInt, Int.emod_eq_of_lt h0 (by omega)]
    have hlt : ts.toNat < UInt64.size := by
      have hsize : UInt64.size = 2 ^ 64 := rfl
      omega
    rw [drop_ts, List.take_left' (length_be64 _), hbits, be64, ofBe_toBe (UInt64.toNat_lt _), UInt64.toNat_ofNat_of_lt' hlt]
  have haddr : ((encodeParts type addr ts nonce pubkey sig).drop 8).take 16 = addr.val := by
    rw [drop_addr, List.take_left' addr.property]
  have hpubkey : ((encodeParts type addr ts nonce pubkey sig).drop 40).take 32 = pubkey.val := by
    rw [drop_pubkey, List.take_left' pubkey.property]
  have hsig : ((encodeParts type addr ts nonce pubkey sig).drop 72).take 64 = sig.val := by
    rw [drop_sig, List.take_of_length_le sig.property.le]
  have hknown : ¬ (type ≠ msgHello ∧ type ≠ msgAck) := fun h => htype.elim h.1 h.2
  have hnat : ¬ 2 ^ 63 ≤ ts.toNat := by omega
  have hzero : ofBe [0, 0] = 0 := rfl
  rw [decode, dif_pos (length_encodeParts ..)]
  simp only [hmagic, hversion, getD_encodeParts, hknown, hflags, hrawTs, haddr, hpubkey, hsig, hnat, hzero, drop_nonce,
    List.take_left' (length_be64 nonce), ofBe64_be64, Int.toNat_of_nonneg h0, ne_eq, not_true_eq_false, if_false]

end Parts


/-! ## What a packet does to a command -/

namespace UdpTransport

/-- Every MAC is made of its address. -/
def Plain (t : UdpTransport) : Prop := ∀ e ∈ t.ipMacCache, e.2 = ipToRec e.1

variable {t : UdpTransport} {src ip : Ipv4}

lemma plain_new : new.Plain := fun _ h => absurd h List.not_mem_nil

lemma ipToRec_injective (h : ipToRec src = ipToRec ip) : src = ip :=
  Subtype.ext (List.append_cancel_right (congrArg Subtype.val h))

/-- No peer looks like the broadcast address. -/
lemma ipToRec_ne_broadcastMac : ipToRec src ≠ broadcastMac := by
  intro h
  have hlast : (src.val ++ [0, 0]).drop 4 = (List.replicate 6 (0xFF : UInt8)).drop 4 :=
    congrArg (fun m : Mac => m.val.drop 4) h
  rw [List.drop_left' src.property] at hlast
  exact absurd hlast (by decide)

lemma Plain.recv (h : t.Plain) (src : Ipv4) : (t.recv src).1.Plain := by
  intro e he
  rcases (mem_putBy t.nodup).mp he with rfl | ⟨hold, -⟩
  · rfl
  · exact h e hold

/-- A packet for a peer goes to the address that its packet came from. -/
lemma Plain.send (h : t.Plain) (src : Ipv4) : (t.recv src).1.send (ipToRec src) = some src := by
  rw [UdpTransport.send, lookupIpForMac, if_neg ipToRec_ne_broadcastMac]
  cases hfind : (t.recv src).1.ipMacCache.find? fun e => e.2 = ipToRec src with
  | none =>
    have hcached := List.find?_eq_none.mp hfind (src, ipToRec src) ((mem_putBy t.nodup).mpr (.inl rfl))
    exact absurd (decide_eq_true rfl) hcached
  | some e =>
    have hmac := List.find?_some hfind
    rw [decide_eq_true_eq] at hmac
    rw [h.recv src e (List.mem_of_find?_eq_some hfind)] at hmac
    rw [Option.map_some, ipToRec_injective hmac]

end UdpTransport

/-- What a command that goes on keeps. -/
structure Session.GoesOn (s s' : Session) (src : Ipv4) : Prop where
  key : s'.proc.localPubkey = s.proc.localPubkey
  addr : s'.proc.localAddr = s.proc.localAddr
  pending : s'.proc.pending ⊆ s.proc.pending
  transport : s'.transport = (s.transport.recv src).1

/-- What a packet may do: it changes no table, or it is an ACK of a HELLO that waits, or it is a HELLO of a key that is listed
or that the user agrees to. -/
inductive Session.Took (s : Session) (src : Ipv4) (pkt : Bytes) (now : Int) : Turn → Prop where
  | quiet {s' : Session} (on : s.GoesOn s' src) (store : s'.proc.store = s.proc.store) :
      Took s src pkt now { session := some s' }
  | acked {msg : NeighborMessage} {t : Int} {session : Option Session}
      (genuine : NeighborProcessor.Genuine S msgAck pkt now msg) (foreign : msg.pubkey ≠ s.proc.localPubkey)
      (waiting : (msg.nonce, t) ∈ s.proc.pending) (timely : now - t ≤ pendingTtlSecs)
      (on : ∀ s', session = some s' →
        s.GoesOn s' src ∧ s'.proc.store = s.proc.store.upsert (ipToRec src) msg.addr msg.pubkey now) :
      Took s src pkt now { session, save := some (s.proc.store.upsert (ipToRec src) msg.addr msg.pubkey now) }
  | greeted {msg : NeighborMessage} {s' : Session} {agreed : Option PublicKey}
      (genuine : NeighborProcessor.Genuine S msgHello pkt now msg) (foreign : msg.pubkey ≠ s.proc.localPubkey)
      (allowed : agreed = none ∧ msg.pubkey ∈ s.proc.store.keys ∨ agreed = some msg.pubkey) (on : s.GoesOn s' src)
      (store : s'.proc.store = s.proc.store.upsert (ipToRec src) msg.addr msg.pubkey now) :
      Took s src pkt now {
        session := some s', save := some s'.proc.store
        reply := Session.ack S s'.proc s'.transport msg (ipToRec src) now, agreed }

namespace Session

variable {S} {s : Session}

lemma GoesOn.idle (s : Session) (src : Ipv4) : s.GoesOn { s with transport := (s.transport.recv src).1 } src :=
  ⟨rfl, rfl, List.Subset.refl _, rfl⟩

lemma foreign_of_not_own {pkt : Bytes} {msg : NeighborMessage} {localPk : PublicKey} (hdecoded : decode pkt = .ok msg)
    (hown : ¬ payloadIsOwn pkt localPk) : msg.pubkey ≠ localPk := by
  obtain ⟨hlen, -, -, -, hpubkey⟩ := decode_fields hdecoded
  intro heq
  apply hown
  rw [payloadIsOwn, hpubkey, heq, hlen, decide_eq_true rfl, Bool.and_true]
  decide

lemma Took.goesOn {src : Ipv4} {pkt : Bytes} {now : Int} {turn : Turn} {s' : Session} (h : s.Took S src pkt now turn)
    (hs' : turn.session = some s') : s.GoesOn s' src := by
  cases h with
  | quiet on => exact Option.some.inj hs' ▸ on
  | acked _ _ _ _ on => exact (on s' hs').1
  | greeted _ _ _ on => exact Option.some.inj hs' ▸ on

/-- A command saves the table that it goes on with. -/
lemma Took.save_eq {src : Ipv4} {pkt : Bytes} {now : Int} {turn : Turn} {s' : Session} {store : NeighborStore}
    (h : s.Took S src pkt now turn) (hs' : turn.session = some s') (hsave : turn.save = some store) : s'.proc.store = store := by
  cases h with
  | quiet on => cases hsave
  | acked _ _ _ _ on => exact (on s' hs').2.trans (Option.some.inj hsave)
  | greeted _ _ _ _ => exact Option.some.inj hs' ▸ Option.some.inj hsave

/-- The table stays, or the sender of the packet is put in. -/
lemma Took.table {src : Ipv4} {pkt : Bytes} {now : Int} {turn : Turn} {store : NeighborStore} (h : s.Took S src pkt now turn)
    (hstore : turn.save = some store ∨ ∃ s', turn.session = some s' ∧ s'.proc.store = store) :
    store = s.proc.store ∨
      ∃ msg, decode pkt = .ok msg ∧ store = s.proc.store.upsert (ipToRec src) msg.addr msg.pubkey now := by
  cases h with
  | quiet on hs' =>
    rcases hstore with hsave | ⟨s', heq, rfl⟩
    · cases hsave
    · cases heq
      exact .inl hs'
  | @acked msg t next genuine foreign waiting timely on =>
    rcases hstore with hsave | ⟨s', heq, rfl⟩
    · exact .inr ⟨msg, genuine.decoded, (Option.some.inj hsave).symm⟩
    · exact .inr ⟨msg, genuine.decoded, (on s' heq).2⟩
  | @greeted msg s' agreed genuine foreign allowed on hs' =>
    rcases hstore with hsave | ⟨s'', heq, rfl⟩
    · exact .inr ⟨msg, genuine.decoded, (Option.some.inj hsave).symm.trans hs'⟩
    · cases heq
      exact .inr ⟨msg, genuine.decoded, hs'⟩

/-- What `processAck` does to the processor of a command. -/
lemma took_ack (src : Ipv4) {pkt : Bytes} (now : Int) (hown : ¬ payloadIsOwn pkt s.proc.localPubkey)
    (next : NeighborProcessor → Option Session)
    (hnext : ∀ proc s', next proc = some s' → s' = ⟨proc, (s.transport.recv src).1⟩) :
    s.Took S src pkt now (match s.proc.processAck S pkt (ipToRec src) now with
      | (proc, .ok _) => { session := next proc, save := some proc.store }
      | (proc, .error _) => { session := some ⟨proc, (s.transport.recv src).1⟩ }) := by
  rcases s.proc.processAck_cases S pkt (ipToRec src) now with ⟨e, -, he⟩ | ⟨msg, hgen, -, -, hcase⟩
  · rw [he]
    exact .quiet (GoesOn.idle s src) rfl
  · rcases hcase with ⟨-, he⟩ | ⟨pos, hpos, he⟩
    · rw [he]
      exact .quiet ⟨rfl, rfl, List.filter_subset_self .., rfl⟩ rfl
    · rw [he]
      obtain ⟨hlt, hnonce, -⟩ := List.findIdx?_eq_some_iff_getElem.mp hpos
      rw [decide_eq_true_eq] at hnonce
      obtain ⟨hmem, hlive⟩ := List.mem_filter.mp (List.getElem_mem hlt)
      refine .acked hgen (foreign_of_not_own hgen.decoded hown) (hnonce ▸ hmem) (NeighborProcessor.live_iff.mp hlive) ?_
      intro s' hs'
      rw [hnext _ s' hs']
      exact ⟨⟨rfl, rfl, List.Subset.trans (List.eraseIdx_subset ..) (List.filter_subset_self ..), rfl⟩, rfl⟩

lemma took_hello (src : Ipv4) (pkt : Bytes) (now : Int) : s.Took S src pkt now (s.helloTurn S src pkt now) := by
  unfold helloTurn
  dsimp only
  split
  · exact .quiet (GoesOn.idle s src) rfl
  next hguard =>
  obtain ⟨-, hown⟩ := not_or.mp hguard
  split
  · exact took_ack src now hown (fun _ => none) (fun _ _ h => nomatch h)
  · exact .quiet (GoesOn.idle s src) rfl

lemma took_watch (src : Ipv4) (pkt : Bytes) (now : Int) (agree : Bool) :
    s.Took S src pkt now (s.watchTurn S src pkt now agree) := by
  unfold watchTurn
  dsimp only
  split
  · exact .quiet (GoesOn.idle s src) rfl
  next hguard =>
  obtain ⟨-, hown⟩ := not_or.mp hguard
  split
  · rcases s.proc.processHello_cases S pkt (s.transport.recv src).2 now with ⟨e, -, he⟩ | ⟨msg, hgen, -, -, ⟨hmem, he⟩ | he⟩
    · rw [he]
      exact .quiet (GoesOn.idle s src) rfl
    · rw [he]
      exact .greeted hgen (foreign_of_not_own hgen.decoded hown) (.inl ⟨rfl, hmem⟩)
        ⟨rfl, rfl, List.Subset.refl _, rfl⟩ rfl
    · rw [he]
      dsimp only
      split
      · exact .greeted hgen (foreign_of_not_own hgen.decoded hown) (.inr rfl) ⟨rfl, rfl, List.Subset.refl _, rfl⟩ rfl
      · exact .quiet ⟨rfl, rfl, List.Subset.refl _, rfl⟩ rfl
  split
  · exact took_ack src now hown (fun proc => some ⟨proc, (s.transport.recv src).1⟩) (fun _ _ h => (Option.some.inj h).symm)
  · exact .quiet (GoesOn.idle s src) rfl

/-- Every packet is one of these for a command. -/
lemma took (src : Ipv4) (pkt : Bytes) (now : Int) (agree : Bool) (cmd : Command) :
    s.Took S src pkt now (s.turn S src pkt now agree cmd) := by
  cases cmd with
  | hello => exact took_hello src pkt now
  | watch => exact took_watch src pkt now agree

end Session

end IPv8Plus.Neigh
