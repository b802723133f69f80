import IPv8Plus.Codec.AddrText

/-!
# Firewall rules

`core/ipv8-firewall/src/lib.rs`: a list of rules, and the question which of them a connection matches. The first enabled
rule that fits the protocol, the port and the source decides.
-/

namespace IPv8Plus.Forward
open Lib Codec

inductive Protocol where
  | tcp
  | udp
  | any
  | custom (n : UInt8)
  deriving DecidableEq, Repr

/-- The protocol of a rule fits an IANA number. -/
def Protocol.matches (p : Protocol) (actual : UInt8) : Bool :=
  match p with
  | .any => true
  | .tcp => actual = 6
  | .udp => actual = 17
  | .custom n => n = actual

inductive Direction where
  | inbound
  | outbound
  deriving DecidableEq, Repr

/-- A rule; its name and comment are read by nobody. -/
structure Rule where
  id : Bytes
  protocol : Protocol
  portStart : UInt16
  portEnd : UInt16
  sourcePattern : Bytes
  targetAddr : Bytes
  targetPort : UInt16
  enabled : Bool
  direction : Direction
  deriving DecidableEq, Repr

structure MatchResult where
  ruleId : Bytes
  target : Option IPv8Address
  targetPort : UInt16
  deriving DecidableEq, Repr

structure RuleSet where
  rules : List Rule
  deriving DecidableEq, Repr

def asciiLower (b : UInt8) : UInt8 := if 0x41 ≤ b ∧ b ≤ 0x5A then b + 0x20 else b

/-- `*` -/
def star : Bytes := [0x2A]

namespace Rule
variable (r : Rule)

def covers (port : UInt16) : Bool := r.portStart ≤ port ∧ port ≤ r.portEnd

/-- The source's text begins with the pattern; an empty pattern and a star fit every source. -/
def sourceFits (source : IPv8Address) : Bool :=
  r.sourcePattern = [] ∨ r.sourcePattern = star ∨ (r.sourcePattern.map asciiLower) <+: source.toCanonicalString

def fits (protocol : UInt8) (port : UInt16) (source : IPv8Address) : Bool :=
  r.protocol.matches protocol && r.covers port && r.sourceFits source

/-- The address that the rule names, if its text is one. -/
def target : Option IPv8Address := if r.targetAddr = [] then none else (IPv8Address.fromCanonicalStr r.targetAddr).toOption

/-- A target port of zero keeps the port. -/
def portFor (port : UInt16) : UInt16 := if r.targetPort = 0 then port else r.targetPort

def result (port : UInt16) : MatchResult := ⟨r.id, r.target, r.portFor port⟩

end Rule

namespace RuleSet
variable (rs : RuleSet)

def activeRules : List Rule := rs.rules.filter Rule.enabled

def matchRule (protocol : UInt8) (port : UInt16) (source : IPv8Address) : Option MatchResult :=
  (rs.activeRules.find? fun r => r.fits protocol port source).map fun r => r.result port

end RuleSet

variable {rs : RuleSet} {r : Rule} {protocol : UInt8} {port : UInt16} {source : IPv8Address} {m : MatchResult}

/-- A match comes from an enabled rule of the set that fits. -/
lemma matchRule_eq_some (h : rs.matchRule protocol port source = some m) :
    ∃ r ∈ rs.rules, r.enabled = true ∧ r.fits protocol port source = true ∧ m = r.result port := by
  obtain ⟨r, hfind, rfl⟩ := Option.map_eq_some_iff.mp h
  obtain ⟨hmem, henabled⟩ := List.mem_filter.mp (List.mem_of_find?_eq_some hfind)
  exact ⟨r, hmem, henabled, List.find?_some (p := fun r : Rule => r.fits protocol port source) hfind, rfl⟩

lemma matchRule_eq_none : rs.matchRule protocol port source = none ↔ ∀ r ∈ rs.rules, r.enabled = true → r.fits protocol port source = false := by
  rw [RuleSet.matchRule, Option.map_eq_none_iff, List.find?_eq_none]
  constructor
  · intro h r hr henabled
    exact Bool.eq_false_iff.mpr (h r (List.mem_filter.mpr ⟨hr, henabled⟩))
  · intro h r hr
    obtain ⟨hmem, henabled⟩ := List.mem_filter.mp hr
    exact Bool.eq_false_iff.mp (h r hmem henabled)

end IPv8Plus.Forward
