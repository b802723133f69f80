import IPv8Plus.Adapter.Sched
import IPv8Plus.Fec.Rx
import IPv8Plus.Observe.Window
import IPv8Plus.Tunnel.Flow
import IPv8Plus.Tunnel.ReplayedInit

/-!
# The learned entry

`Plane::handle_inbound` of `wintun-node/src/main.rs`, as far as it decides where a node sends: the stages before the
engine, learning from the source address, the engine, and the refresh by its answer. Any frame with the version byte of
the tunnel is learned from, before the engine has judged it. `learned_entry` says when no junk comes in between.
-/

namespace IPv8Plus.Adapter
open Lib Codec Routing Tunnel Fec

/-- The knock of a hole punch: `IP8PUNCH`. -/
def punchKnock : Bytes := [0x49, 0x50, 0x38, 0x50, 0x55, 0x4E, 0x43, 0x48]

/-- The loss injected in tests, by a rate in thousandths. -/
def testDropDecide (counter : UInt64) (rate : UInt32) : Bool :=
  0 < rate ∧ ((counter * 0x9E3779B97F4A7C15) >>> 32) % 1000 < rate.toUInt64

/-- A tunnel frame of this type, by its first two bytes. -/
def IsFrame (ty : UInt8) (raw : Bytes) : Prop := raw[0]? = some 0x01 ∧ raw[1]? = some ty

instance (ty : UInt8) (raw : Bytes) : Decidable (IsFrame ty raw) := inferInstanceAs (Decidable (_ ∧ _))

/-- A plain packet, by its version. -/
def IsIp (raw : Bytes) : Prop := (raw.head?.map fun v : UInt8 => v >>> 4) ∈ ([some 4, some 6] : List (Option UInt8))

instance (raw : Bytes) : Decidable (IsIp raw) := inferInstanceAs (Decidable (_ ∈ ([_, _] : List (Option UInt8))))

def dataType : UInt8 := 2

def authInitType : UInt8 := 4

def recoveryType : UInt8 := 6

def receiptType : UInt8 := 7

/-- `is_strong_roam_credential` -/
def isStrongRoamCredential (raw : Bytes) (hasResp hasDelivered : Bool) : Bool :=
  hasDelivered || (hasResp && decide (IsFrame authInitType raw))

/-- What is rebuilt from a recovery frame is a data frame. -/
lemma acceptRecovery_data {rx rx' : FecRx} {raw recon : Bytes} (h : rx.acceptRecovery raw = (rx', .ok (some recon))) :
    IsFrame dataType recon := by
  -- the two bytes that make a data frame are checked before anything is rebuilt
  have hrebuild : ∀ {rx : FecRx} {xorSeg : Bytes} {counters : List UInt64} {lens : List Nat} {missing : Nat},
      rx.rebuild xorSeg counters lens missing = .ok recon → IsFrame dataType recon := by
    intro rx xorSeg counters lens missing h
    unfold FecRx.rebuild at h
    obtain ⟨want, -, h⟩ := Outcome.bind_eq_ok.mp h
    split at h
    · cases h
    obtain ⟨version, hversion, h⟩ := Outcome.bind_eq_ok.mp h
    obtain ⟨ty, hty, h⟩ := Outcome.bind_eq_ok.mp h
    obtain ⟨expected, -, h⟩ := Outcome.bind_eq_ok.mp h
    split at h
    · cases h
    next hframe =>
    rw [not_or, not_not, not_not] at hframe
    obtain ⟨counter, -, h⟩ := Outcome.bind_eq_ok.mp h
    split at h
    · cases h
    cases h
    rw [hframe.1] at hversion
    rw [hframe.2] at hty
    exact ⟨idx_eq_ok.mp hversion, idx_eq_ok.mp hty⟩
  unfold FecRx.acceptRecovery at h
  split at h
  · cases h
  · cases h
  split at h
  · cases h
  split at h
  · cases h
  · cases h
  dsimp only at h
  split at h
  · cases h
  · split at h
    · cases h
    · cases h
    · next hok =>
      cases h
      exact hrebuild hok
  · cases h

/-- A node that receives. `shards` are the workers of a split engine, `learned` is the flag of the receiving thread. -/
structure Plane (S : SigScheme) (X : KeyAgreement) where
  engine : Session S X
  sched : Sched
  shards : Option FlowShards
  fec : Option FecRx
  learned : Bool
  learn : Bool
  migrate : Bool
  plainDemux : Bool

/-- A datagram, with the readings of the clocks while it is handled: before the engine, in it, and after it. `dropRate`
is the rate of `--test-drop-file`. -/
structure Datagram (X : KeyAgreement) where
  raw : Bytes
  source : SocketAddr
  clock : Nat → Nat
  epoch : UInt64
  eph : X.Secret
  dropRate : UInt32

/-- What the stages before the engine do with a datagram. -/
inductive Passed where
  | taken
  | rebuilt (frame : Bytes)
  | frame

/-- A handshake response with its destination, and the inner packet. -/
structure Reply where
  resp : Option (Bytes × SocketAddr)
  delivered : Option Decoded

def Reply.none : Reply := ⟨.none, .none⟩

namespace Plane

variable {S : SigScheme} {X : KeyAgreement} (A : Aead)

/-- `Engine::open_receipt`: only the keys change. -/
def openReceipt (e : Session S X) (frame : Bytes) : Session S X :=
  match parseHead frame, e.keys with
  | .ok head, some keys =>
    if head.frameType ≠ .receipt then e
    else { e with keys := some (keys.openReceipt A head.keyId (frame.drop Tunnel.frameHeaderSize)).1 }
  | _, _ => e

/-- The stages before the engine. Observation changes nothing here, and neither does a plain packet. -/
def pass (p : Plane S X) (d : Datagram X) (raw : Bytes) : Plane S X × Outcome Empty Passed :=
  if raw = punchKnock then (p, .ok .taken)
  else if IsFrame dataType raw ∧ (Observe.frameMeta raw).any fun m => testDropDecide m.2 d.dropRate then (p, .ok .taken)
  else
    match p.fec with
    | some rx =>
      if IsFrame recoveryType raw then
        match rx.acceptRecovery raw with
        | (rx, .ok (some recon)) => ({ p with fec := some rx }, .ok (.rebuilt recon))
        | (rx, .panic) => ({ p with fec := some rx }, .panic)
        | (rx, _) => ({ p with fec := some rx }, .ok .taken)
      else if IsFrame dataType raw then
        match rx.observeData raw with
        | (rx, .panic) => ({ p with fec := some rx }, .panic)
        | (rx, _) => afterFec { p with fec := some rx } raw
      else afterFec p raw
    | none => afterFec p raw
where
  afterFec (p : Plane S X) (raw : Bytes) : Plane S X × Outcome Empty Passed :=
    if IsFrame receiptType raw then ({ p with engine := openReceipt A p.engine raw }, .ok .taken)
    else if p.plainDemux ∧ (raw.length < 10 ∨ raw[0]? ≠ some 0x01) ∧ IsIp raw then (p, .ok .taken)
    else (p, .ok .frame)

/-- The frame that gets to the engine. One that is rebuilt from a recovery frame is a data frame, and passes the stages
once more; it is not rebuilt again. -/
def arrival (p : Plane S X) (d : Datagram X) : Plane S X × Outcome Empty (Option Bytes) :=
  match p.pass A d d.raw with
  | (p, .ok .frame) => (p, .ok (some d.raw))
  | (p, .ok (.rebuilt recon)) =>
    match p.pass A d recon with
    | (p, .ok .frame) => (p, .ok (some recon))
    | (p, .ok _) => (p, .ok none)
    | (p, .err e) => (p, .err e)
    | (p, .panic) => (p, .panic)
  | (p, .ok .taken) => (p, .ok none)
  | (p, .err e) => (p, .err e)
  | (p, .panic) => (p, .panic)

/-- A tunnel frame is learned from once, and with `--migrate` again. -/
def Learns (p : Plane S X) (raw : Bytes) : Prop :=
  p.learn = true ∧ raw[0]? = some 0x01 ∧ (p.learned = false ∨ p.migrate = true)

instance (p : Plane S X) (raw : Bytes) : Decidable (p.Learns raw) := inferInstanceAs (Decidable (_ ∧ _))

def learnFrom (p : Plane S X) (d : Datagram X) (raw : Bytes) : Plane S X :=
  if p.Learns raw then
    let (sched, learned, _) := p.sched.unauthRefresh d.source p.learned true (d.clock 0)
    { p with sched, learned }
  else p

/-- The frame goes to a worker. -/
def feed (p : Plane S X) (d : Datagram X) (raw : Bytes) : Plane S X × Bool :=
  match p.shards with
  | none => (p, false)
  | some f =>
    match f.handleInbound A (d.clock 1) raw with
    | (f, some _) => ({ p with shards := some f }, true)
    | (f, none) => ({ p with shards := some f }, false)

/-- The packet that the engine delivers out of a frame. -/
def delivered (e : Session S X) (d : Datagram X) (raw : Bytes) : Option Decoded :=
  match parseHead raw with
  | .ok head =>
    if head.frameType = .data then
      match (e.toDataPlane.handleData A (d.clock 1) d.epoch raw).2 with
      | .ok (.delivered packet) => some packet
      | _ => none
    else none
  | _ => none

/-- With `--migrate` what the engine accepts refreshes the entry. -/
def refresh (p : Plane S X) (d : Datagram X) (raw : Bytes) (hasResp hasDelivered : Bool) : Plane S X :=
  if p.migrate ∧ (hasResp || hasDelivered) then
    if isStrongRoamCredential raw hasResp hasDelivered then { p with sched := (p.sched.strongRefresh d.source (d.clock 2)).1 }
    else
      let (sched, learned, _) := p.sched.unauthRefresh d.source p.learned p.learn (d.clock 2)
      { p with sched, learned }
  else p

/-- From learning to the response. -/
def handleFrame (p : Plane S X) (d : Datagram X) (raw : Bytes) : Plane S X × Outcome Empty Reply :=
  let (p, fed) := (p.learnFrom d raw).feed A d raw
  if fed then (p, .ok .none)
  else
    let packet := delivered A p.engine d raw
    match p.engine.handleFrameAt A (d.clock 1) d.epoch d.eph raw with
    | (e, .ok resp) =>
      let p := { p with engine := e }.refresh d raw resp.isSome packet.isSome
      (p, .ok { resp := resp.map fun frame => (frame, p.sched.transport.dest), delivered := packet })
    | (e, .err x) => ({ p with engine := e }, .err x)
    | (e, .panic) => ({ p with engine := e }, .panic)

/-- `handle_inbound` -/
def handleInbound (p : Plane S X) (d : Datagram X) : Plane S X × Outcome Empty Reply :=
  match p.arrival A d with
  | (p, .ok (some raw)) => p.handleFrame A d raw
  | (p, .ok none) => (p, .ok .none)
  | (p, .err e) => (p, .err e)
  | (p, .panic) => (p, .panic)

/-- The engine answers the frame, or delivers a packet out of it. -/
def accepts (p : Plane S X) (d : Datagram X) (raw : Bytes) : Bool :=
  !(p.feed A d raw).2 &&
    (((p.engine.handleFrameAt A (d.clock 1) d.epoch d.eph raw).2.toOption.getD none).isSome || (delivered A p.engine d raw).isSome)

/-- The entry is refreshed before the engine has judged the frame. -/
def Learning (p : Plane S X) (d : Datagram X) (raw : Bytes) : Prop :=
  p.Learns raw ∧ p.sched.NeedsUpdate d.source ∧ (p.learned = false ∨ p.sched.WindowOpen (d.clock 0))

section
variable {A : Aead} {p : Plane S X} {d : Datagram X} {raw : Bytes}

/-- The stages before the engine touch the engine and the cache of frames alone. -/
lemma pass_fst : ∃ engine fec, (p.pass A d raw).1 = { p with engine, fec } := by
  have hafter : ∀ q : Plane S X, ∃ engine, (pass.afterFec A q raw).1 = { q with engine } := by
    intro q
    unfold pass.afterFec
    split
    · exact ⟨_, rfl⟩
    split
    · exact ⟨_, rfl⟩
    · exact ⟨_, rfl⟩
  unfold pass
  split
  · exact ⟨_, _, rfl⟩
  split
  · exact ⟨_, _, rfl⟩
  split
  · split
    · split
      · exact ⟨_, _, rfl⟩
      · exact ⟨_, _, rfl⟩
      · exact ⟨_, _, rfl⟩
    split
    · split
      · exact ⟨_, _, rfl⟩
      · next rx' _ _ _ =>
        obtain ⟨engine, heq⟩ := hafter { p with fec := some rx' }
        rw [heq]
        exact ⟨_, _, rfl⟩
    · obtain ⟨engine, heq⟩ := hafter p
      rw [heq]
      exact ⟨_, _, rfl⟩
  · obtain ⟨engine, heq⟩ := hafter p
    rw [heq]
    exact ⟨_, _, rfl⟩

lemma arrival_fst : ∃ engine fec, (p.arrival A d).1 = { p with engine, fec } := by
  obtain ⟨engine, fec, hpass⟩ := @pass_fst _ _ A p d d.raw
  unfold arrival
  generalize p.pass A d d.raw = x at hpass
  rcases x with ⟨q, (_ | recon | _) | e | _⟩
  · exact ⟨engine, fec, hpass⟩
  · obtain ⟨engine', fec', hpass'⟩ := @pass_fst _ _ A q d recon
    have hq : q = { p with engine, fec } := hpass
    dsimp only
    generalize q.pass A d recon = y at hpass'
    have hagain : y.1 = { p with engine := engine', fec := fec' } := by
      rw [hpass', hq]
    rcases y with ⟨r, (_ | recon' | _) | e | _⟩
    · exact ⟨engine', fec', hagain⟩
    · exact ⟨engine', fec', hagain⟩
    · exact ⟨engine', fec', hagain⟩
    · exact e.elim
    · exact ⟨engine', fec', hagain⟩
  · exact ⟨engine, fec, hpass⟩
  · exact e.elim
  · exact ⟨engine, fec, hpass⟩

/-- So what is rebuilt once is not rebuilt again. -/
lemma pass_rebuilt {recon : Bytes} (h : (p.pass A d raw).2 = .ok (.rebuilt recon)) (q : Plane S X) (recon' : Bytes) :
    (q.pass A d recon).2 ≠ .ok (.rebuilt recon') := by
  have hafter : ∀ (q : Plane S X) (raw recon : Bytes), (pass.afterFec A q raw).2 ≠ .ok (.rebuilt recon) := by
    intro q raw recon
    unfold pass.afterFec
    split
    · intro h
      cases h
    split
    · intro h
      cases h
    · intro h
      cases h
  have hdata : IsFrame dataType recon := by
    unfold pass at h
    split at h
    · cases h
    split at h
    · cases h
    split at h
    · split at h
      · split at h
        · next haccept =>
          cases h
          exact acceptRecovery_data haccept
        · cases h
        · cases h
      · split at h
        · split at h
          · cases h
          · exact absurd h (hafter _ _ _)
        · exact absurd h (hafter _ _ _)
    · exact absurd h (hafter _ _ _)
  have hother : ¬ IsFrame recoveryType recon := by
    intro hrecovery
    have hne : dataType ≠ recoveryType := by decide
    exact hne (Option.some.inj (hdata.2.symm.trans hrecovery.2))
  unfold pass
  split
  · intro h
    cases h
  split
  · intro h
    cases h
  split
  · split
    · intro h
      cases h
    · exact hafter _ _ _
  · exact hafter _ _ _

/-- What is learned from changes the entry to its source. -/
lemma learnFrom_of_learning (h : p.Learning d raw) : (p.learnFrom d raw).sched.transport = .tunnel d.source := by
  unfold learnFrom
  rw [if_pos h.1]
  exact Sched.unauthRefresh_of_update h.2.1 h.2.2

lemma learnFrom_of_not (h : ¬ p.Learning d raw) : (p.learnFrom d raw).sched = p.sched := by
  unfold learnFrom
  split
  · next hlearns => exact Sched.unauthRefresh_of_not fun hupdate => h ⟨hlearns, hupdate⟩
  · rfl

lemma learnFrom_fst : ∃ sched learned, p.learnFrom d raw = { p with sched, learned } := by
  unfold learnFrom
  split
  · exact ⟨_, _, rfl⟩
  · exact ⟨_, _, rfl⟩

lemma feed_fst : ∃ shards, (p.feed A d raw).1 = { p with shards } := by
  unfold feed
  split
  · exact ⟨_, rfl⟩
  split
  · exact ⟨_, rfl⟩
  · exact ⟨_, rfl⟩

/-- Learning has no part in what the engine does. -/
lemma feed_learnFrom : ((p.learnFrom d raw).feed A d raw).2 = (p.feed A d raw).2 := by
  obtain ⟨sched, learned, heq⟩ := @learnFrom_fst _ _ p d raw
  rw [heq]
  unfold feed
  dsimp only
  split
  · rfl
  split
  · rfl
  · rfl

/-- Learning comes before the engine sees the frame, and does not touch the engine. -/
lemma feed_learned : ∃ q, (p.learnFrom d raw).feed A d raw = (q, (p.feed A d raw).2) ∧ q.engine = p.engine ∧
    q.sched = (p.learnFrom d raw).sched ∧ q.migrate = p.migrate := by
  obtain ⟨shards, hshards⟩ := @feed_fst _ _ A (p.learnFrom d raw) d raw
  obtain ⟨sched, learned, hlearn⟩ := @learnFrom_fst _ _ p d raw
  refine ⟨((p.learnFrom d raw).feed A d raw).1, Prod.ext rfl feed_learnFrom, ?_, ?_, ?_⟩
  · rw [hshards, hlearn]
  · rw [hshards]
  · rw [hshards, hlearn]

/-- A frame that is not accepted is not answered, and only learned from. -/
lemma handleFrame_of_not (h : p.accepts A d raw = false) : (p.handleFrame A d raw).1.sched = (p.learnFrom d raw).sched ∧
    ∀ r, (p.handleFrame A d raw).2 = .ok r → r.resp = none := by
  obtain ⟨q, hfeed, hengine, hsched, -⟩ := @feed_learned _ _ A p d raw
  unfold accepts at h
  unfold handleFrame
  rw [hfeed]
  dsimp only
  split
  · refine ⟨hsched, ?_⟩
    rintro r ⟨⟩
    rfl
  next hnot =>
  have hfalse : (p.feed A d raw).2 = false := Bool.eq_false_iff.mpr hnot
  rw [hfalse, Bool.not_false, Bool.true_and, Bool.or_eq_false_iff] at h
  rw [hengine]
  generalize p.engine.handleFrameAt A (d.clock 1) d.epoch d.eph raw = y at h
  rcases y with ⟨e, resp | e' | _⟩
  · have hresp : resp.isSome = false := h.1
    dsimp only
    rw [hresp, h.2]
    refine ⟨?_, ?_⟩
    · unfold refresh
      rw [if_neg (fun hmigrate => Bool.false_ne_true hmigrate.2)]
      exact hsched
    · rintro r ⟨⟩
      rw [Option.isSome_eq_false_iff, Option.isNone_iff_eq_none] at hresp
      rw [hresp]
      rfl
  · exact e'.elim
  · refine ⟨hsched, ?_⟩
    rintro r ⟨⟩

/-- No packet comes out of an AuthInit. -/
lemma delivered_authInit {e : Session S X} (h : IsFrame authInitType raw) : delivered A e d raw = none := by
  unfold delivered
  cases hhead : parseHead raw with
  | ok head =>
    dsimp only
    split
    · next htype =>
      obtain ⟨rest, rfl⟩ := parseHead_eq_ok.mp hhead
      rw [htype] at h
      have hsecond : (writeHead [] .data head.keyId ++ rest)[1]? = some 2 := rfl
      have hne : (2 : UInt8) ≠ authInitType := by decide
      exact absurd (Option.some.inj (hsecond.symm.trans h.2)) hne
    · rfl
  | err x => rfl
  | panic => rfl

/-- An accepted AuthInit is answered, to the entry that is learned, and with `--migrate` refreshed. -/
lemma handleFrame_authInit (hinit : IsFrame authInitType raw) (h : p.accepts A d raw = true) :
    ∃ resp, (p.handleFrame A d raw).2 = .ok ⟨some (resp, (p.handleFrame A d raw).1.sched.transport.dest), none⟩ ∧
      (p.handleFrame A d raw).1.sched =
        if p.migrate then ((p.learnFrom d raw).sched.strongRefresh d.source (d.clock 2)).1 else (p.learnFrom d raw).sched := by
  obtain ⟨q, hfeed, hengine, hsched, hmigrate⟩ := @feed_learned _ _ A p d raw
  have hpacket : ∀ e : Session S X, delivered A e d raw = none := fun e => delivered_authInit hinit
  unfold accepts at h
  rw [hpacket, Option.isSome_none, Bool.or_false, Bool.and_eq_true, Bool.not_eq_true'] at h
  obtain ⟨hnot, hresp⟩ := h
  unfold handleFrame
  rw [hfeed, hnot]
  dsimp only
  rw [if_neg Bool.false_ne_true, hpacket, hengine]
  generalize p.engine.handleFrameAt A (d.clock 1) d.epoch d.eph raw = y at hresp
  rcases y with ⟨e, (_ | resp) | e' | _⟩
  · cases hresp
  · refine ⟨resp, rfl, ?_⟩
    have hstrong : isStrongRoamCredential raw true false = true := by
      unfold isStrongRoamCredential
      rw [decide_eq_true hinit]
      rfl
    dsimp only
    unfold refresh
    rw [Option.isSome_some, Option.isSome_none, hstrong, if_pos rfl, hsched, hmigrate, Bool.true_or]
    cases p.migrate with
    | true => rfl
    | false => rfl
  · exact e'.elim
  · cases hresp

end

end Plane

/-- A node, the entry that it chose itself, and whether its engine has accepted a datagram. -/
structure Watch (S : SigScheme) (X : KeyAgreement) where
  plane : Plane S X
  configured : Transport
  accepted : Bool

/-- What happens to a node: a datagram; a call of its own on the engine; workers that are installed or retired; and an
entry that its main loop chooses. -/
inductive NodeCall (X : KeyAgreement) where
  | datagram (d : Datagram X)
  | engine (c : Session.Call X)
  | install (shards : Option FlowShards)
  | choose (transport : Transport) (attempt : Option (Bytes × UInt64 × SocketAddr))

namespace Watch

variable {S : SigScheme} {X : KeyAgreement} (A : Aead)

/-- The frame of the datagram that gets to the engine is accepted by it. -/
def accepts (p : Plane S X) (d : Datagram X) : Bool :=
  match p.arrival A d with
  | (p, .ok (some raw)) => p.accepts A d raw
  | _ => false

def step (w : Watch S X) : NodeCall X → Watch S X × Option (Outcome Empty Reply)
  | .datagram d =>
    let (p, x) := w.plane.handleInbound A d
    ({ w with plane := p, accepted := w.accepted || accepts A w.plane d }, some x)
  | .engine c =>
    if c.frame.isSome then (w, none)
    else ({ w with plane := { w.plane with engine := (w.plane.engine.step A c).1 } }, none)
  | .install shards => ({ w with plane := { w.plane with shards } }, none)
  | .choose transport attempt =>
    ({ w with plane := { w.plane with sched := { w.plane.sched with transport, attempt } }, configured := transport }, none)

/-- A node with `--learn-peer` at its start. -/
def start (engine : Session S X) (peer : SocketAddr) (alt : Option SocketAddr) (mp : Bool) (fec : Option FecRx)
    (migrate plainDemux : Bool) : Watch S X where
  plane :=
    { engine
      sched := { main := peer, alt, transport := .tunnel peer, attempt := none, lastUnauthRoam := none, mp }
      shards := none
      fec
      learned := false
      learn := true
      migrate
      plainDemux }
  configured := .tunnel peer
  accepted := false

/-- An address that a response to a frame from `src` may go to. -/
def Suits (s : Sched) (src dest : SocketAddr) : Prop := dest = src ∨ s.mp = true ∧ (dest = s.main ∨ s.alt = some dest)

/-- The response to an accepted AuthInit goes where this came from, or to an entry of two, and until a datagram has been
accepted the entry is the one the node chose. -/
structure Kept (w : Watch S X) (c : NodeCall X) : Prop where
  answered : ∀ d raw resp dest x, c = .datagram d → (w.plane.arrival A d).2 = .ok (some raw) → IsFrame authInitType raw →
    (w.step A c).2 = some (.ok ⟨some (resp, dest), x⟩) → Suits (w.step A c).1.plane.sched d.source dest
  entry : (w.step A c).1.accepted = false → (w.step A c).1.plane.sched.transport = (w.step A c).1.configured

/-- No junk is learned from. An AuthInit that the engine accepts comes from the entry, or is learned from: before the flag
is set, or with `--migrate`. And until a datagram has been accepted, none is learned from that is not. -/
structure NoJunk (w : Watch S X) (c : NodeCall X) : Prop where
  answered : ∀ d raw, c = .datagram d → (w.plane.arrival A d).2 = .ok (some raw) → IsFrame authInitType raw →
    (w.plane.arrival A d).1.accepts A d raw = true → Suits w.plane.sched d.source w.plane.sched.transport.dest ∨
      w.plane.Learning d raw ∨ w.plane.migrate = true ∧ w.plane.sched.Strays d.source
  entry : w.accepted = false → ∀ d raw, c = .datagram d → (w.plane.arrival A d).2 = .ok (some raw) →
    w.plane.Learning d raw → (w.plane.arrival A d).1.accepts A d raw = true

section
variable {A : Aead} {w : Watch S X}

lemma handleInbound_some {p : Plane S X} {d : Datagram X} {raw : Bytes} (h : (p.arrival A d).2 = .ok (some raw)) :
    p.handleInbound A d = (p.arrival A d).1.handleFrame A d raw := by
  unfold Plane.handleInbound
  generalize p.arrival A d = x at h
  obtain ⟨q, y⟩ := x
  cases h
  rfl

lemma accepts_some {p : Plane S X} {d : Datagram X} {raw : Bytes} (h : (p.arrival A d).2 = .ok (some raw)) :
    accepts A p d = (p.arrival A d).1.accepts A d raw := by
  unfold accepts
  generalize p.arrival A d = x at h
  obtain ⟨q, y⟩ := x
  cases h
  rfl

/-- A datagram that does not get to the engine changes nothing of the entry. -/
lemma handleInbound_none {p : Plane S X} {d : Datagram X} (h : ∀ raw, (p.arrival A d).2 ≠ .ok (some raw)) :
    (p.handleInbound A d).1.sched = p.sched ∧ accepts A p d = false := by
  obtain ⟨engine, fec, harrival⟩ := @Plane.arrival_fst _ _ A p d
  unfold Plane.handleInbound accepts
  generalize p.arrival A d = x at h harrival
  have hsched : x.1.sched = p.sched := by
    rw [harrival]
  rcases x with ⟨q, (_ | raw) | e | _⟩
  · exact ⟨hsched, rfl⟩
  · exact absurd rfl (h raw)
  · exact e.elim
  · exact ⟨hsched, rfl⟩

/-- The stages before the engine have no part in learning. -/
lemma learning_arrival {p : Plane S X} {d : Datagram X} {raw : Bytes} :
    (p.arrival A d).1.sched = p.sched ∧ (p.arrival A d).1.migrate = p.migrate ∧
      ((p.arrival A d).1.Learning d raw ↔ p.Learning d raw) := by
  obtain ⟨engine, fec, harrival⟩ := @Plane.arrival_fst _ _ A p d
  rw [harrival]
  exact ⟨rfl, rfl, Iff.rfl⟩

/-- The response to an accepted AuthInit suits exactly if it comes from the entry, or the entry is refreshed. -/
lemma answered_iff {p : Plane S X} {d : Datagram X} {raw : Bytes} (hinit : IsFrame authInitType raw)
    (h : p.accepts A d raw = true) :
    Suits (p.handleFrame A d raw).1.sched d.source (p.handleFrame A d raw).1.sched.transport.dest ↔
      Suits p.sched d.source p.sched.transport.dest ∨ p.Learning d raw ∨ p.migrate = true ∧ p.sched.Strays d.source := by
  obtain ⟨resp, -, hsched⟩ := Plane.handleFrame_authInit hinit h
  rw [hsched]
  by_cases hlearning : p.Learning d raw
  · have htransport := Plane.learnFrom_of_learning hlearning
    have hstrays : ¬ (p.learnFrom d raw).sched.Strays d.source := by
      intro hstrays
      exact hstrays.needsUpdate.transport_ne htransport
    rw [Sched.strongRefresh_of_not hstrays, ite_self]
    refine iff_of_true (.inl ?_) (.inr (.inl hlearning))
    rw [htransport]
    rfl
  · rw [Plane.learnFrom_of_not hlearning]
    cases hmigrate : p.migrate with
    | false =>
      rw [if_neg Bool.false_ne_true]
      exact ⟨.inl, fun h => h.resolve_right fun h => h.elim hlearning fun h => Bool.false_ne_true h.1⟩
    | true =>
      rw [if_pos rfl]
      by_cases hstrays : p.sched.Strays d.source
      · refine iff_of_true (.inl ?_) (.inr (.inr ⟨rfl, hstrays⟩))
        rw [Sched.strongRefresh_of_strays hstrays]
        rfl
      · rw [Sched.strongRefresh_of_not hstrays]
        exact ⟨.inl, fun h => h.resolve_right fun h => h.elim hlearning fun h => hstrays h.2⟩

/-- Until a datagram has been accepted, the entry is the one the node chose. -/
def Inv (w : Watch S X) : Prop := w.accepted = false → w.plane.sched.transport = w.configured

lemma answered_step {d : Datagram X} {raw : Bytes} (harrival : (w.plane.arrival A d).2 = .ok (some raw))
    (hinit : IsFrame authInitType raw) : (∀ resp dest x, (w.step A (.datagram d)).2 = some (.ok ⟨some (resp, dest), x⟩) →
      Suits (w.step A (.datagram d)).1.plane.sched d.source dest) ↔
    ((w.plane.arrival A d).1.accepts A d raw = true → Suits w.plane.sched d.source w.plane.sched.transport.dest ∨
      w.plane.Learning d raw ∨ w.plane.migrate = true ∧ w.plane.sched.Strays d.source) := by
  obtain ⟨hsched, hmigrate, hlearning⟩ := @learning_arrival _ _ A w.plane d raw
  have hfst : (w.step A (.datagram d)).1.plane = ((w.plane.arrival A d).1.handleFrame A d raw).1 :=
    congrArg Prod.fst (handleInbound_some harrival)
  have hsnd : (w.step A (.datagram d)).2 = some ((w.plane.arrival A d).1.handleFrame A d raw).2 :=
    congrArg (fun x : Plane S X × Outcome Empty Reply => some x.2) (handleInbound_some harrival)
  rw [hfst, hsnd, ← hsched, ← hmigrate, ← hlearning]
  by_cases haccepts : (w.plane.arrival A d).1.accepts A d raw = true
  · rw [← answered_iff hinit haccepts]
    obtain ⟨resp, hreply, -⟩ := Plane.handleFrame_authInit hinit haccepts
    rw [hreply]
    constructor
    · intro h _
      exact h _ _ _ rfl
    · rintro h _ _ _ ⟨⟩
      exact h haccepts
  · have hnone := (Plane.handleFrame_of_not (Bool.eq_false_iff.mpr haccepts)).2
    refine iff_of_true ?_ fun h => absurd h haccepts
    intro resp dest x heq
    cases hnone _ (Option.some.inj heq)

/-- Junk is what breaks the property. -/
lemma kept_iff (hinv : w.Inv) (c : NodeCall X) : w.NoJunk A c ↔ w.Kept A c := by
  cases c with
  | engine c =>
    have hkept : (w.step A (.engine c)).1.accepted = false →
        (w.step A (.engine c)).1.plane.sched.transport = (w.step A (.engine c)).1.configured := by
      unfold step
      dsimp only
      split
      · exact hinv
      · exact hinv
    exact iff_of_true ⟨fun d raw h => (by cases h), fun _ d raw h => (by cases h)⟩ ⟨fun d raw resp dest x h => (by cases h), hkept⟩
  | install shards =>
    exact iff_of_true ⟨fun d raw h => (by cases h), fun _ d raw h => (by cases h)⟩ ⟨fun d raw resp dest x h => (by cases h), hinv⟩
  | choose transport attempt =>
    exact iff_of_true ⟨fun d raw h => (by cases h), fun _ d raw h => (by cases h)⟩
      ⟨fun d raw resp dest x h => (by cases h), fun _ => rfl⟩
  | datagram d =>
    have haccepted : (w.step A (.datagram d)).1.accepted = (w.accepted || accepts A w.plane d) := rfl
    have hplane : (w.step A (.datagram d)).1.plane = (w.plane.handleInbound A d).1 := rfl
    constructor
    · intro h
      refine ⟨?_, ?_⟩
      · rintro d' raw resp dest x ⟨⟩ harrival hinit hreply
        exact (answered_step harrival hinit).mpr (h.answered d raw rfl harrival hinit) resp dest x hreply
      · intro hnot
        rw [haccepted, Bool.or_eq_false_iff] at hnot
        have hentry := hinv hnot.1
        rw [hplane]
        by_cases harrives : ∃ raw, (w.plane.arrival A d).2 = .ok (some raw)
        · obtain ⟨raw, harrival⟩ := harrives
          obtain ⟨hsched, -, hlearning⟩ := @learning_arrival _ _ A w.plane d raw
          have hrefused : (w.plane.arrival A d).1.accepts A d raw = false := (accepts_some harrival).symm.trans hnot.2
          have hquiet : ¬ (w.plane.arrival A d).1.Learning d raw := by
            intro hlearns
            rw [h.entry hnot.1 d raw rfl harrival (hlearning.mp hlearns)] at hrefused
            cases hrefused
          rw [handleInbound_some harrival, (Plane.handleFrame_of_not hrefused).1, Plane.learnFrom_of_not hquiet, hsched]
          exact hentry
        · rw [(handleInbound_none fun raw harrival => harrives ⟨raw, harrival⟩).1]
          exact hentry
    · intro h
      refine ⟨?_, ?_⟩
      · rintro d' raw ⟨⟩ harrival hinit
        exact (answered_step harrival hinit).mp fun resp dest x hreply => h.answered d raw resp dest x rfl harrival hinit hreply
      · rintro hnot d' raw ⟨⟩ harrival hlearns
        -- what is refused but learned from has moved the entry, which is not the configured one any more
        by_contra hrefused
        have hrefused := Bool.eq_false_iff.mpr hrefused
        obtain ⟨hsched, -, hlearning⟩ := @learning_arrival _ _ A w.plane d raw
        have hkept := h.entry (by rw [haccepted, hnot, accepts_some harrival, hrefused]; rfl)
        rw [hplane, handleInbound_some harrival, (Plane.handleFrame_of_not hrefused).1,
          Plane.learnFrom_of_learning (hlearning.mpr hlearns)] at hkept
        exact hlearns.2.1.transport_ne ((hinv hnot).trans hkept.symm)

end

/-- The responses to accepted AuthInits go where these came from, and the entry stays until a datagram is accepted, in
exactly those runs in which no junk is learned from. -/
theorem learned_entry (A : Aead) (engine : Session S X) (peer : SocketAddr) (alt : Option SocketAddr) (mp : Bool)
    (fec : Option FecRx) (migrate plainDemux : Bool) (calls : List (NodeCall X)) :
    let w := start engine peer alt mp fec migrate plainDemux
    Along (step A) (NoJunk A) w calls ↔ Along (step A) (Kept A) w calls := by
  intro w
  have hstart : w.Inv := fun _ => rfl
  refine along_congr (D := fun _ _ => True) (along_of_forall fun _ _ => trivial) (fun w c hinv _ hquiet => ?_)
    (fun w c hinv _ => kept_iff hinv c) hstart
  exact ((kept_iff hinv c).mp hquiet).entry

/-- A host of some network. -/
def sampleSource (k : UInt16) : SocketAddr := .v4 10 k

/-- A datagram from one of them. -/
def sampleDatagram (raw : Bytes) (k : UInt16) : Datagram sampleAgreement where
  raw
  source := sampleSource k
  clock _ := 0
  epoch := 0
  eph := sampleKey 11
  dropRate := 0

/-- A node that waits for the first host, with the entry 1 in its configuration. -/
def sampleNode : Watch sampleSig sampleAgreement :=
  start (.authenticated (EnginePair.samplePeer true) (sampleKey 9) (sampleAddr 1) (sampleAddr 0)) (sampleSource 1) none false none
    false false

/-- Where a response goes. -/
def destOf : Option (Outcome Empty Reply) → Option SocketAddr
  | some (.ok r) => r.resp.map Prod.snd
  | _ => none

/-- Somebody sends a single byte from address 3, and then the first host an AuthInit from address 2. The engine has
accepted nothing, and the entry is address 3, which then gets the response to the AuthInit. -/
theorem junk_captures :
    let junk := NodeCall.datagram (sampleDatagram [0x01] 3)
    let init := NodeCall.datagram (sampleDatagram (writeHead [] .authInit zeroKeyId ++ (EnginePair.sampleInit 10).pack) 2)
    let w := (sampleNode.step sampleAead junk).1
    (w.accepted = false ∧ w.plane.sched.transport = .tunnel (sampleSource 3)) ∧
      destOf (w.step sampleAead init).2 = some (sampleSource 3) ∧
      ¬ Along (step sampleAead) (Kept sampleAead) sampleNode [junk, init] := by
  intro junk init w
  have hjunk : w.accepted = false ∧ w.plane.sched.transport = .tunnel (sampleSource 3) := by
    decide +kernel
  refine ⟨hjunk, by decide +kernel, fun hkept => ?_⟩
  have hentry := hkept.1.entry hjunk.1
  rw [hjunk.2] at hentry
  have hne : Transport.tunnel (sampleSource 3) ≠ .tunnel (sampleSource 1) := by decide
  exact hne hentry

end Watch

end IPv8Plus.Adapter
