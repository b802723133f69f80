import IPv8Plus.Tunnel.RelayFailover

/-!
# The guard against abuse

`abuse_guard.rs`: for every node the guard keeps a sliding window of what it sends, how its connections end, and
the ban it is under. Too much of something is a strike; strikes lead to a temporary ban and these to a permanent
one. Permanently banned nodes are also on the blacklist.
-/

namespace IPv8Plus.Tunnel
open Lib

inductive BanLevel where
  | none
  | warn
  | tempBan
  | permBan
  deriving DecidableEq, Repr

def BanLevel.rank : BanLevel → Nat
  | .none => 0
  | .warn => 1
  | .tempBan => 2
  | .permBan => 3

instance : LE BanLevel := ⟨fun a b => a.rank ≤ b.rank⟩

instance (a b : BanLevel) : Decidable (a ≤ b) := inferInstanceAs (Decidable (a.rank ≤ b.rank))

/-- The buckets are the packets and bytes of the window with their times. -/
structure NodeStats where
  pktBuckets : List (Instant × UInt64) := []
  byteBuckets : List (Instant × UInt64) := []
  connFailures : UInt32 := 0
  connSuccesses : UInt32 := 0
  strikes : UInt32 := 0
  banCount : UInt32 := 0
  banLevel : BanLevel := .none
  bannedAt : Option Instant := .none
  banDuration : Option Duration := .none
  lastActive : Instant
  lastBanReason : String := ""

structure AbuseConfig where
  window : Duration := 10 * 10 ^ 9
  ppsWarn : UInt32 := 500
  ppsBan : UInt32 := 2000
  bpsBan : UInt64 := 10000000
  failureRateThreshold : Float := 0.8
  minAttemptsForFailureRate : UInt32 := 10
  warnToBanStrikes : UInt32 := 3
  tempToPermStrikes : UInt32 := 3
  tempBanDuration : Duration := 300 * 10 ^ 9
  smallPktSize : UInt64 := 64
  smallPktRatio : Float := 0.9

inductive Detection where
  | normal
  | warn (reason : String)
  | ban (level : BanLevel) (reason : String) (duration : Option Duration)
  deriving DecidableEq, Repr

structure AbuseGuard where
  config : AbuseConfig
  nodes : Std.ExtTreeMap String NodeStats := ∅
  blacklist : List String := []

structure AbuseStats where
  monitored : Nat
  banned : Nat
  permanent : Nat
  warned : Nat
  deriving DecidableEq, Repr

/-! ## Numbers -/

/-- Seconds as a float. -/
def asSecsF64 (d : Duration) : Float := (UInt64.ofNat (d / 10 ^ 9)).toFloat + (UInt64.ofNat (d % 10 ^ 9)).toFloat / 1e9

/-- A float with so many digits behind the point, the last one rounded to even. -/
def fixed (digits : Nat) (x : Float) : String :=
  let bits := x.toBits.toNat
  let sign := if 2 ^ 63 ≤ bits then "-" else ""
  let exponent := bits / 2 ^ 52 % 2 ^ 11
  let fraction := bits % 2 ^ 52
  if exponent = 2047 then if fraction = 0 then sign ++ "inf" else "NaN"
  else
    let num := (if exponent = 0 then fraction else fraction + 2 ^ 52) * 2 ^ max exponent 1 * 10 ^ digits
    let den := 2 ^ 1075
    let up := den < 2 * (num % den) ∨ (den = 2 * (num % den) ∧ num / den % 2 = 1)
    let rounded := if up then num / den + 1 else num / den
    let tail := toString (rounded % 10 ^ digits)
    sign ++ toString (rounded / 10 ^ digits) ++
      (if digits = 0 then "" else "." ++ String.ofList (List.replicate (digits - tail.length) '0') ++ tail)

def pushBucket (buckets : List (Instant × UInt64)) (now : Instant) (val : UInt64) (window : Duration) :
    List (Instant × UInt64) :=
  (buckets ++ [(now, val)]).filter fun b => now < b.1 + window

def sumBuckets (buckets : List (Instant × UInt64)) (now : Instant) (window : Duration) : UInt64 :=
  ((buckets.filter fun b => now < b.1 + window).map (·.2)).sum

/-! ## One node -/

namespace NodeStats

/-- The ban is lifted. -/
def lift (s : NodeStats) : NodeStats := { s with banLevel := .none, bannedAt := .none, banDuration := .none, strikes := 0 }

/-- A temporary ban that has run out is lifted, any other ban refuses the packet. -/
def checkBan (s : NodeStats) (now : Instant) : NodeStats × Option Detection :=
  match s.banLevel, s.bannedAt, s.banDuration with
  | .tempBan, some bannedAt, some dur =>
    if dur ≤ now - bannedAt then (s.lift, none) else (s, some (.ban .tempBan s.lastBanReason s.banDuration))
  | .permBan, _, _ => (s, some (.ban .permBan s.lastBanReason none))
  | _, _, _ => (s, none)

/-- Count a packet in the window. -/
def push (s : NodeStats) (cfg : AbuseConfig) (pktSize : UInt64) (now : Instant) : NodeStats :=
  { s with
    pktBuckets := pushBucket s.pktBuckets now 1 cfg.window
    byteBuckets := pushBucket s.byteBuckets now pktSize cfg.window }

/-- What is wrong with the traffic of the window. -/
def detected (s : NodeStats) (cfg : AbuseConfig) (pktSize : UInt64) (now : Instant) : List String :=
  let pps := sumBuckets s.pktBuckets now cfg.window
  let bps := sumBuckets s.byteBuckets now cfg.window
  let windowSecs := asSecsF64 cfg.window
  let ppsRate := pps.toFloat / windowSecs
  let bpsRate := bps.toFloat / windowSecs
  let inWindow := (UInt64.ofNat (s.pktBuckets.filter fun b => now - b.1 < cfg.window).length).toFloat
  -- the small packets are counted as all packets of the window are
  let smallPktRatio := if pktSize < cfg.smallPktSize then (if 0 < inWindow then inWindow / inWindow else 0) else 0
  (if cfg.ppsBan ≤ ppsRate.toUInt32 then
    ["包速率 " ++ fixed 0 ppsRate ++ " pps 超过封禁阈值 " ++ toString cfg.ppsBan]
  else if cfg.ppsWarn ≤ ppsRate.toUInt32 then
    ["包速率 " ++ fixed 0 ppsRate ++ " pps 超过警告阈值 " ++ toString cfg.ppsWarn]
  else []) ++
  (if cfg.bpsBan ≤ bpsRate.toUInt64 then ["字节速率 " ++ fixed 1 (bpsRate * 8 / 1000000) ++ " Mbps 超过封禁阈值"] else []) ++
  (if cfg.smallPktRatio < smallPktRatio ∧ 100 < pps then
    ["小包占比 " ++ fixed 0 (smallPktRatio * 100) ++ "% 疑似轰炸"]
  else [])

/-- One strike more, and the ban it leads to (`none` if it leads to none). -/
def strike (s : NodeStats) (cfg : AbuseConfig) (reason : String) (now : Instant) : NodeStats × BanLevel :=
  let s := { s with strikes := s.strikes + 1 }
  if cfg.tempToPermStrikes ≤ s.banCount + 1 then
    ({ s with
      banCount := s.banCount + 1
      banLevel := .permBan
      bannedAt := some now
      banDuration := .none
      lastBanReason := reason }, .permBan)
  else if cfg.warnToBanStrikes ≤ s.strikes then
    ({ s with
      banCount := s.banCount + 1
      banLevel := .tempBan
      bannedAt := some now
      banDuration := some cfg.tempBanDuration
      lastBanReason := reason }, .tempBan)
  else (s, .none)

/-- A level set by hand. -/
def setBan (s : NodeStats) (cfg : AbuseConfig) (level : BanLevel) (reason : String) (now : Instant) : NodeStats :=
  { s with
    banLevel := level
    bannedAt := some now
    banDuration := if level = .tempBan then some cfg.tempBanDuration else .none
    lastBanReason := reason }

/-- One strike more is enough for a ban. -/
def Due (s : NodeStats) (cfg : AbuseConfig) : Prop :=
  cfg.tempToPermStrikes ≤ s.banCount + 1 ∨ cfg.warnToBanStrikes ≤ s.strikes + 1

/-- Count the end of a connection. -/
def countConn (s : NodeStats) (success : Bool) : NodeStats :=
  if success then { s with connSuccesses := s.connSuccesses + 1 } else { s with connFailures := s.connFailures + 1 }

def failureRate (s : NodeStats) : Float := s.connFailures.toFloat / (s.connFailures + s.connSuccesses).toFloat

/-- Too many connections have failed. -/
def failing (s : NodeStats) (cfg : AbuseConfig) : Bool :=
  cfg.minAttemptsForFailureRate ≤ s.connFailures + s.connSuccesses ∧ cfg.failureRateThreshold < s.failureRate

def failureReason (s : NodeStats) : String :=
  "连接失败率 " ++ fixed 0 (s.failureRate * 100) ++ "% (" ++ toString s.connFailures ++ "/" ++
    toString (s.connFailures + s.connSuccesses) ++ ")"

end NodeStats

/-! ## The guard -/

namespace AbuseGuard

def new (config : AbuseConfig) : AbuseGuard := { config }

/-- What the guard knows about a node; a node that is new was last active at `clock`. -/
def statsOf (g : AbuseGuard) (node : String) (clock : Instant) : NodeStats := (g.nodes[node]?).getD { lastActive := clock }

/-- The statistics of a node that is active now. -/
def touch (g : AbuseGuard) (node : String) (now : Instant) : NodeStats := { g.statsOf node now with lastActive := now }

def put (g : AbuseGuard) (node : String) (s : NodeStats) : AbuseGuard := { g with nodes := g.nodes.insert node s }

def isBanned (g : AbuseGuard) (node : String) : Bool :=
  if node ∈ g.blacklist then true
  else
    match g.nodes[node]? with
    | some s => s.banLevel = .tempBan ∨ s.banLevel = .permBan
    | none => false

def recordPacket (g : AbuseGuard) (node : String) (pktSize : UInt64) (now : Instant) : AbuseGuard × Detection :=
  match (g.touch node now).checkBan now with
  | (s, some refusal) => (g.put node s, refusal)
  | (s, none) =>
    let s := s.push g.config pktSize now
    let detected := s.detected g.config pktSize now
    if detected = [] then (g.put node s, .normal)
    else
      let reason := String.intercalate "; " detected
      match s.strike g.config reason now with
      | (s, .permBan) => ({ g.put node s with blacklist := g.blacklist ++ [node] }, .ban .permBan reason none)
      | (s, .tempBan) => (g.put node s, .ban .tempBan reason (some g.config.tempBanDuration))
      | (s, _) => (g.put node { s with lastBanReason := reason }, .warn reason)

def recordConnResult (g : AbuseGuard) (node : String) (success : Bool) (now : Instant) : AbuseGuard :=
  let s := (g.touch node now).countConn success
  if s.failing g.config then
    match s.strike g.config s.failureReason now with
    | (s, .permBan) => { g.put node s with blacklist := g.blacklist ++ [node] }
    | (s, _) => g.put node s
  else g.put node s

/-- Ban by hand. A node that is new counts as active at the time of the clock, whatever `now` is. -/
def ban (g : AbuseGuard) (node : String) (level : BanLevel) (reason : String) (now clock : Instant) : AbuseGuard :=
  let g := g.put node ((g.statsOf node clock).setBan g.config level reason now)
  if level = .permBan ∧ node ∉ g.blacklist then { g with blacklist := g.blacklist ++ [node] } else g

def unban (g : AbuseGuard) (node : String) : AbuseGuard × Bool :=
  let g := { g with blacklist := g.blacklist.filter (· ≠ node) }
  match g.nodes[node]? with
  | some s => (g.put node s.lift, BanLevel.tempBan ≤ s.banLevel)
  | none => (g, false)

def gc (g : AbuseGuard) (maxIdle : Duration) (now : Instant) : AbuseGuard :=
  { g with nodes := g.nodes.filter fun _ s => s.banLevel = .permBan ∨ now - s.lastActive < maxIdle }

def stats (g : AbuseGuard) : AbuseStats where
  monitored := g.nodes.size
  banned := (g.nodes.filter fun _ s => BanLevel.tempBan ≤ s.banLevel).size
  permanent := g.blacklist.length
  warned := (g.nodes.filter fun _ s => s.banLevel = .warn).size

end AbuseGuard

/-- The calls of a guard. The readers have no clock; `now` is when they are called. -/
inductive GuardCall where
  | recordPacket (node : String) (pktSize : UInt64) (now : Instant)
  | recordConnResult (node : String) (success : Bool) (now : Instant)
  | ban (node : String) (level : BanLevel) (reason : String) (now clock : Instant)
  | unban (node : String)
  | gc (maxIdle : Duration) (now : Instant)
  | isBanned (node : String) (now : Instant)
  | stats (now : Instant)
  deriving DecidableEq, Repr

inductive GuardAnswer where
  | detection (d : Detection)
  | banned (b : Bool)
  | stats (s : AbuseStats)
  | done
  deriving DecidableEq, Repr

def AbuseGuard.step (g : AbuseGuard) : GuardCall → AbuseGuard × GuardAnswer
  | .recordPacket node pktSize now => ((g.recordPacket node pktSize now).1, .detection (g.recordPacket node pktSize now).2)
  | .recordConnResult node success now => (g.recordConnResult node success now, .done)
  | .ban node level reason now clock => (g.ban node level reason now clock, .done)
  | .unban node => ((g.unban node).1, .banned (g.unban node).2)
  | .gc maxIdle now => (g.gc maxIdle now, .done)
  | .isBanned node _ => (g, .banned (g.isBanned node))
  | .stats _ => (g, .stats g.stats)

end IPv8Plus.Tunnel
