import IPv8Plus.Forward.Firewall
import IPv8Plus.Lib.Keyed
import IPv8Plus.Lib.Run

/-!
# Edits of a rule set

`RuleSet::add`, `remove` and `toggle` of `ipv8-firewall/src/lib.rs`, and what the rules left by a run of them decide. A rule
whose target is no address is answered like a rule without one: `matchRule_semantics_iff` says that nothing else goes wrong.
-/

namespace IPv8Plus.Forward
open Lib Codec

namespace RuleSet

/-- A rule whose id is known takes the place of the one before it. -/
def add (rs : RuleSet) (rule : Rule) : RuleSet :=
  match rs.rules.findIdx? fun r => r.id = rule.id with
  | some pos => { rs with rules := rs.rules.set pos rule }
  | none => { rs with rules := rs.rules ++ [rule] }

def remove (rs : RuleSet) (id : Bytes) : RuleSet × Bool :=
  ({ rs with rules := rs.rules.filter fun r => r.id ≠ id }, (rs.rules.filter fun r => r.id ≠ id).length ≠ rs.rules.length)

def toggle (rs : RuleSet) (id : Bytes) : RuleSet × Bool :=
  match rs.rules.findIdx? fun r => r.id = id with
  | some pos => ({ rs with rules := rs.rules.modify pos fun r => { r with enabled := !r.enabled } }, true)
  | none => (rs, false)

end RuleSet

inductive RuleCall where
  | add (rule : Rule)
  | remove (id : Bytes)
  | toggle (id : Bytes)
  deriving DecidableEq, Repr

namespace RuleSet

def step (rs : RuleSet) : RuleCall → RuleSet × Option Bool
  | .add rule => (rs.add rule, none)
  | .remove id => ((rs.remove id).1, some (rs.remove id).2)
  | .toggle id => ((rs.toggle id).1, some (rs.toggle id).2)

def ids (rs : RuleSet) : List Bytes := rs.rules.map Rule.id

end RuleSet

/-! ## What the rules should decide -/

/-- `pattern` is the beginning of `text` in upper or lower case. -/
def BeginsWith (text pattern : Bytes) : Prop := pattern.map asciiLower <+: text.map asciiLower

/-- A connection that a rule is about. -/
structure Rule.Applies (r : Rule) (protocol : UInt8) (port : UInt16) (source : IPv8Address) : Prop where
  enabled : r.enabled = true
  matched : r.protocol.matches protocol = true
  start : r.portStart ≤ port
  stop : port ≤ r.portEnd
  fromSource : r.sourcePattern = [] ∨ r.sourcePattern = star ∨ BeginsWith source.toCanonicalString r.sourcePattern

/-- What a rule answers: a target if one is named, and then the one it names. -/
structure Rule.Answers (r : Rule) (port : UInt16) (m : MatchResult) : Prop where
  ruleId : m.ruleId = r.id
  targetPort : m.targetPort = if r.targetPort = 0 then port else r.targetPort
  target : m.target.isSome = true ↔ r.targetAddr ≠ []
  address : ∀ a, m.target = some a → IPv8Address.fromCanonicalStr r.targetAddr = .ok a

namespace RuleSet

/-- The first rule that the connection is for. -/
def First (rs : RuleSet) (protocol : UInt8) (port : UInt16) (source : IPv8Address) (r : Rule) : Prop :=
  ∃ before after, rs.rules = before ++ r :: after ∧ r.Applies protocol port source ∧ ∀ r' ∈ before, ¬ r'.Applies protocol port source

/-- Rules have distinct ids, stay in their places when they are added again, and the first one that applies is answered. -/
structure Semantics (rs : RuleSet) (protocol : UInt8) (port : UInt16) (source : IPv8Address) : Prop where
  nodup : rs.ids.Nodup
  keeps : ∀ (i : Nat) r rule, rs.rules[i]? = some r → r.id = rule.id → (rs.add rule).rules = rs.rules.set i rule
  answers : ∀ r, rs.First protocol port source r → ∃ m, rs.matchRule protocol port source = some m ∧ r.Answers port m
  refuses : (∀ r ∈ rs.rules, ¬ r.Applies protocol port source) → rs.matchRule protocol port source = none

end RuleSet

variable {rs : RuleSet} {r rule : Rule} {protocol : UInt8} {port : UInt16} {source : IPv8Address}

/-! ## Edits -/

namespace RuleSet

lemma rules_add : (rs.add rule).rules = putBy Rule.id rule rs.rules := by
  rw [putBy_findIdx?, add]
  cases rs.rules.findIdx? fun r => r.id = rule.id with
  | none => rfl
  | some pos => rfl

lemma ids_toggle (id : Bytes) : (rs.toggle id).1.ids = rs.ids := by
  rw [toggle]
  cases rs.rules.findIdx? fun r => r.id = id with
  | none => rfl
  | some pos =>
    apply List.ext_getElem?
    intro i
    change ((rs.rules.modify pos _).map Rule.id)[i]? = (rs.rules.map Rule.id)[i]?
    rw [List.getElem?_map, List.getElem?_map, List.getElem?_modify]
    cases rs.rules[i]? with
    | none => rfl
    | some r =>
      split
      · rfl
      · rfl

/-- The ids stay distinct. -/
lemma nodup_step (h : rs.ids.Nodup) (c : RuleCall) : (rs.step c).1.ids.Nodup := by
  cases c with
  | add rule =>
    change (rs.add rule).ids.Nodup
    rw [ids, rules_add]
    exact nodup_putBy h
  | remove id => exact h.sublist (List.filter_sublist.map _)
  | toggle id =>
    change (rs.toggle id).1.ids.Nodup
    rwa [ids_toggle]

lemma nodup_run (calls : List RuleCall) : (run step ⟨[]⟩ calls).1.ids.Nodup := by
  have hempty : (⟨[]⟩ : RuleSet).ids.Nodup := List.nodup_nil
  exact invariant_run_all (I := fun rs : RuleSet => rs.ids.Nodup) (fun _ c h => nodup_step h c) hempty calls

end RuleSet

/-! ## Matching -/

/-- The canonical text is in lower case. -/
lemma map_asciiLower_canonical (a : IPv8Address) : a.toCanonicalString.map asciiLower = a.toCanonicalString := by
  have hdigit : ∀ v, asciiLower (hexDigit v) = hexDigit v := by
    intro v
    have hall : ∀ c ∈ 0 :: hexDigits, asciiLower c = c := by decide +kernel
    apply hall
    rw [hexDigit, List.getD_eq_getElem?_getD]
    cases hget : hexDigits[v.toNat]? with
    | none => exact List.mem_cons_self
    | some c => exact List.mem_cons_of_mem _ (List.mem_of_getElem? hget)
  rw [IPv8Address.toCanonicalString, hex, List.map_flatMap]
  refine congrArg (fun f => a.toBytes.flatMap f) (funext fun x => ?_)
  rw [List.map_cons, List.map_singleton, hdigit, hdigit]

lemma applies_iff : r.Applies protocol port source ↔ r.enabled = true ∧ r.fits protocol port source = true := by
  have hsource : r.sourceFits source = true ↔
      r.sourcePattern = [] ∨ r.sourcePattern = star ∨ BeginsWith source.toCanonicalString r.sourcePattern := by
    rw [Rule.sourceFits, decide_eq_true_iff, BeginsWith, map_asciiLower_canonical]
  rw [Rule.fits, Bool.and_eq_true, Bool.and_eq_true, hsource, Rule.covers, decide_eq_true_iff]
  constructor
  · intro h
    exact ⟨h.enabled, ⟨h.matched, h.start, h.stop⟩, h.fromSource⟩
  · rintro ⟨henabled, ⟨hmatched, hstart, hstop⟩, hfrom⟩
    exact ⟨henabled, hmatched, hstart, hstop, hfrom⟩

namespace RuleSet

/-- The first rule that applies is found. -/
lemma matchRule_first (h : rs.First protocol port source r) : rs.matchRule protocol port source = some (r.result port) := by
  obtain ⟨before, after, hrules, happlies, hbefore⟩ := h
  obtain ⟨henabled, hfits⟩ := applies_iff.mp happlies
  have hskip : (before.filter Rule.enabled).find? (fun r => r.fits protocol port source) = none := by
    rw [List.find?_eq_none]
    intro r' hr' hfits'
    obtain ⟨hmem, henabled'⟩ := List.mem_filter.mp hr'
    exact hbefore r' hmem (applies_iff.mpr ⟨henabled', hfits'⟩)
  rw [matchRule, activeRules, hrules, List.filter_append, List.filter_cons_of_pos henabled, List.find?_append, hskip, Option.none_or,
    List.find?_cons_of_pos (p := fun r : Rule => r.fits protocol port source) hfits, Option.map_some]

lemma matchRule_none (h : ∀ r ∈ rs.rules, ¬ r.Applies protocol port source) : rs.matchRule protocol port source = none := by
  refine matchRule_eq_none.mpr fun r hr henabled => ?_
  exact Bool.eq_false_iff.mpr fun hfits => h r hr (applies_iff.mpr ⟨henabled, hfits⟩)

/-- A rule is answered as it should be if and only if its target is empty or an address. -/
lemma result_answers_iff : r.Answers port (r.result port) ↔
    r.targetAddr = [] ∨ ∃ a, IPv8Address.fromCanonicalStr r.targetAddr = .ok a := by
  have haddress : ∀ a, (r.result port).target = some a ↔ r.targetAddr ≠ [] ∧ IPv8Address.fromCanonicalStr r.targetAddr = .ok a := by
    intro a
    change r.target = some a ↔ _
    rw [Rule.target]
    split
    · next hempty => exact iff_of_false nofun fun h => h.1 hempty
    · next hne =>
      rw [and_iff_right hne]
      exact Outcome.mem_toOption
  have htarget : (r.result port).target.isSome = true ↔ r.targetAddr ≠ [] ∧ ∃ a, IPv8Address.fromCanonicalStr r.targetAddr = .ok a := by
    rw [Option.isSome_iff_exists, ← exists_and_left]
    exact exists_congr haddress
  constructor
  · intro h
    by_cases hempty : r.targetAddr = []
    · exact .inl hempty
    · exact .inr (htarget.mp (h.target.mpr hempty)).2
  · intro h
    refine ⟨rfl, rfl, ?_, fun a ha => ((haddress a).mp ha).2⟩
    rw [htarget]
    exact ⟨fun ht => ht.1, fun hne => ⟨hne, h.resolve_left hne⟩⟩

/-- **The meaning of a rule set.** After any edits a connection is answered as its first rule says exactly when the target of this
rule is empty or an address. -/
theorem matchRule_semantics_iff (calls : List RuleCall) (protocol : UInt8) (port : UInt16) (source : IPv8Address) :
    let rs := (run step ⟨[]⟩ calls).1
    rs.Semantics protocol port source ↔
      ∀ r, rs.First protocol port source r → r.targetAddr = [] ∨ ∃ a, IPv8Address.fromCanonicalStr r.targetAddr = .ok a := by
  intro rs
  have hnodup : rs.ids.Nodup := nodup_run calls
  constructor
  · intro h r hr
    obtain ⟨m, hm, hanswers⟩ := h.answers r hr
    rw [matchRule_first hr] at hm
    cases hm
    exact result_answers_iff.mp hanswers
  · intro h
    refine ⟨hnodup, ?_, ?_, matchRule_none⟩
    · intro i r rule hi hid
      rw [rules_add]
      exact putBy_set hnodup hi hid
    · intro r hr
      exact ⟨_, matchRule_first hr, result_answers_iff.mpr (h r hr)⟩

/-- A rule for TCP port 80 that names `ipv8` as its target admits to the local host. -/
theorem bad_target_admitted : ¬ ∀ (calls : List RuleCall) (protocol : UInt8) (port : UInt16) (source : IPv8Address),
    (run step ⟨[]⟩ calls).1.Semantics protocol port source := by
  intro h
  let rule : Rule := ⟨[0x72, 0x31], .tcp, 80, 80, [], [0x69, 0x70, 0x76, 0x38], 0, true, .inbound⟩
  let source : IPv8Address := ⟨protocolMagic, 0, 0, 0, 0, 0, 0, 1⟩
  have hfirst : (run step ⟨[]⟩ [.add rule]).1.First 6 80 source rule :=
    ⟨[], [], rfl, ⟨rfl, rfl, by decide, by decide, .inl rfl⟩, nofun⟩
  obtain ⟨m, hm, hanswers⟩ := (h [.add rule] 6 80 source).answers rule hfirst
  rw [matchRule_first hfirst] at hm
  cases hm
  have hnone : (rule.result 80).target = none := by decide
  have hsome := hanswers.target.mpr (by decide)
  rw [hnone] at hsome
  cases hsome

end RuleSet

end IPv8Plus.Forward
