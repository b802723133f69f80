import IPv8Plus.Lib.Maps
import IPv8Plus.Tunnel.AbuseGuard

/-!
# The two records of a permanent ban

A permanent ban is written down twice, as the level of the node and on the blacklist. `ban_state` says in which
runs the two agree: a connection of a permanently banned node must not strike again, and nobody may set the level
of such a node to a lower one by hand.
-/

namespace IPv8Plus.Tunnel
open Lib

namespace AbuseGuard

variable {g g' : AbuseGuard} {node m : String} {s : NodeStats} {cfg : AbuseConfig} {reason : String} {pktSize : UInt64}
  {now clock : Instant} {success : Bool}

/-! ## Levels -/

def level (g : AbuseGuard) (node : String) : BanLevel := (g.nodes[node]?).elim .none (·.banLevel)

/-- A node is on the blacklist, once, if its level says that it is banned for good. -/
structure Consistent (g : AbuseGuard) : Prop where
  nodup : g.blacklist.Nodup
  listed : ∀ node, node ∈ g.blacklist ↔ g.level node = .permBan

/-- The node is under a temporary ban that has run out. -/
def Expired (g : AbuseGuard) (node : String) (now : Instant) : Prop :=
  ∃ s bannedAt dur, g.nodes[node]? = some s ∧ s.banLevel = .tempBan ∧ s.bannedAt = some bannedAt ∧ s.banDuration = some dur ∧
    dur ≤ now - bannedAt

/-- What is recorded lowers no level, but for temporary bans that have run out. -/
def KeepsLevels (g : AbuseGuard) : GuardCall → Prop
  | .recordPacket node pktSize now => ∀ m, g.level m ≤ (g.recordPacket node pktSize now).1.level m ∨ g.Expired m now
  | .recordConnResult node success now => ∀ m, g.level m ≤ (g.recordConnResult node success now).level m ∨ g.Expired m now
  | .ban _ _ _ _ _ => True
  | .unban _ => True
  | .gc _ _ => True
  | .isBanned _ _ => True
  | .stats _ => True

structure Upholds (g : AbuseGuard) (c : GuardCall) : Prop where
  consistent : (g.step c).1.Consistent
  levels : g.KeepsLevels c

/-- The end of this connection is one failure too many, and the strike leads to a ban. -/
def ConnStrikes (g : AbuseGuard) (node : String) (success : Bool) (now : Instant) : Prop :=
  ((g.touch node now).countConn success).failing g.config = true ∧ (g.touch node now).Due g.config

/-- The call does not touch the permanent ban of a node in a way that writes down only one of the two records. -/
def Lawful (g : AbuseGuard) : GuardCall → Prop
  | .recordConnResult node success now => g.level node = .permBan → ¬ g.ConnStrikes node success now
  | .ban node level _ _ _ => g.level node = .permBan → level = .permBan
  | .recordPacket _ _ _ => True
  | .unban _ => True
  | .gc _ _ => True
  | .isBanned _ _ => True
  | .stats _ => True

lemma nodes_put : (g.put node s).nodes[m]? = if node = m then some s else g.nodes[m]? := getElem?_insert_ite

lemma level_put : (g.put node s).level m = if node = m then s.banLevel else g.level m := by
  unfold level
  rw [nodes_put]
  split
  · rfl
  · rfl

lemma level_put_self : (g.put node s).level node = s.banLevel := by
  rw [level_put, if_pos rfl]

lemma level_put_ne (h : node ≠ m) : (g.put node s).level m = g.level m := by
  rw [level_put, if_neg h]

/-- The level is that of the statistics, also of a node that is new. -/
lemma statsOf_banLevel : (g.statsOf node clock).banLevel = g.level node := by
  unfold statsOf level
  cases g.nodes[node]? with
  | none => rfl
  | some s => rfl

lemma touch_banLevel : (g.touch node now).banLevel = g.level node := statsOf_banLevel

/-! ## Consistency -/

/-- Writing down a node whose permanent ban neither begins nor ends. -/
lemma Consistent.put (h : g.Consistent) (hs : s.banLevel = .permBan ↔ g.level node = .permBan) : (g.put node s).Consistent where
  nodup := h.nodup
  listed m := by
    rw [level_put]
    split
    · next heq =>
      cases heq
      exact (h.listed node).trans hs.symm
    · exact h.listed m

/-- A permanent ban that begins. -/
lemma Consistent.list (h : g.Consistent) (hold : g.level node ≠ .permBan) (hs : s.banLevel = .permBan) :
    Consistent { g.put node s with blacklist := g.blacklist ++ [node] } where
  nodup := by
    refine List.nodup_append.mpr ⟨h.nodup, List.nodup_singleton _, ?_⟩
    intro a ha b hb heq
    cases List.mem_singleton.mp hb
    cases heq
    exact hold ((h.listed node).mp ha)
  listed m := by
    show m ∈ g.blacklist ++ [node] ↔ (g.put node s).level m = .permBan
    rw [level_put, List.mem_append, List.mem_singleton]
    split
    · next heq =>
      cases heq
      exact iff_of_true (.inr rfl) hs
    · next hne =>
      rw [h.listed m]
      exact or_iff_left fun heq => hne heq.symm

/-- Writing down a node that is banned for good already. -/
lemma not_consistent_list (h : g.Consistent) (hold : g.level node = .permBan) :
    ¬ Consistent { g.put node s with blacklist := g.blacklist ++ [node] } := by
  intro h'
  have hdisj := (List.nodup_append.mp h'.nodup).2.2
  exact hdisj node ((h.listed node).mpr hold) node (List.mem_singleton_self node) rfl

/-- A level that is lowered by hand, or by a strike. -/
lemma not_consistent_put (h : g.Consistent) (hold : g.level node = .permBan) (hs : s.banLevel ≠ .permBan) :
    ¬ (g.put node s).Consistent := by
  intro h'
  have hlevel := (h'.listed node).mp ((h.listed node).mpr hold)
  rw [level_put_self] at hlevel
  exact hs hlevel

/-! ## Strikes -/

/-- What a strike leads to. -/
inductive Struck (s : NodeStats) : NodeStats × BanLevel → Prop where
  | perm (s' : NodeStats) (h : s'.banLevel = .permBan) : Struck s (s', .permBan)
  | temp (s' : NodeStats) (h : s'.banLevel = .tempBan) : Struck s (s', .tempBan)
  | none (s' : NodeStats) (h : s'.banLevel = s.banLevel) : Struck s (s', .none)

lemma struck (s : NodeStats) (cfg : AbuseConfig) (reason : String) (now : Instant) : Struck s (s.strike cfg reason now) := by
  unfold NodeStats.strike
  dsimp only
  split
  · exact .perm _ rfl
  · split
    · exact .temp _ rfl
    · exact .none _ rfl

lemma strike_ne_none : (s.strike cfg reason now).2 ≠ .none ↔ s.Due cfg := by
  have hperm : BanLevel.permBan ≠ .none := by decide
  have htemp : BanLevel.tempBan ≠ .none := by decide
  unfold NodeStats.strike NodeStats.Due
  dsimp only
  split
  · next h => exact iff_of_true hperm (.inl h)
  · next h =>
    split
    · next h' => exact iff_of_true htemp (.inr h')
    · next h' =>
      refine iff_of_false (not_not_intro rfl) ?_
      rintro (hdue | hdue)
      · exact h hdue
      · exact h' hdue

/-! ## Calls -/

/-- What is recorded about a node: its level stays, or goes up, or comes down from a ban that has run out. -/
inductive Recorded (g : AbuseGuard) (node : String) (now : Instant) : AbuseGuard → Prop where
  | kept (s : NodeStats) (hs : s.banLevel = g.level node) : Recorded g node now (g.put node s)
  | lifted (s : NodeStats) (hexpired : g.Expired node now) (hs : s.banLevel = .none) : Recorded g node now (g.put node s)
  | temp (s : NodeStats) (hold : g.level node ≠ .permBan) (hs : s.banLevel = .tempBan) : Recorded g node now (g.put node s)
  | perm (s : NodeStats) (hold : g.level node ≠ .permBan) (hs : s.banLevel = .permBan) :
    Recorded g node now { g.put node s with blacklist := g.blacklist ++ [node] }

lemma Recorded.consistent (h : g.Consistent) (hrec : g.Recorded node now g') : g'.Consistent := by
  cases hrec with
  | kept s hs => exact h.put (by rw [hs])
  | lifted s hexpired hs =>
    obtain ⟨s', _, _, hget, hlevel, -⟩ := hexpired
    have hold : g.level node = .tempBan := by
      rw [level, hget]
      exact hlevel
    exact h.put (by rw [hs, hold]; decide)
  | temp s hold hs => exact h.put (by rw [hs]; exact iff_of_false (by decide) hold)
  | perm s hold hs => exact h.list hold hs

lemma BanLevel.le_refl (a : BanLevel) : a ≤ a := Nat.le_refl a.rank

lemma Recorded.levels (hrec : g.Recorded node now g') (m : String) : g.level m ≤ g'.level m ∨ g.Expired m now := by
  by_cases hm : node = m
  · cases hm
    cases hrec with
    | kept s hs =>
      rw [level_put_self, hs]
      exact .inl (BanLevel.le_refl _)
    | lifted s hexpired hs => exact .inr hexpired
    | temp s hold hs =>
      rw [level_put_self, hs]
      refine .inl ?_
      cases hlevel : g.level node with
      | permBan => exact absurd hlevel hold
      | none => decide
      | warn => decide
      | tempBan => decide
    | perm s hold hs =>
      refine .inl ?_
      show g.level node ≤ (g.put node s).level node
      rw [level_put_self, hs]
      cases g.level node with
      | none => decide
      | warn => decide
      | tempBan => decide
      | permBan => decide
  · refine .inl ?_
    have hsame : g'.level m = g.level m := by
      cases hrec with
      | kept s hs => exact level_put_ne hm
      | lifted s hexpired hs => exact level_put_ne hm
      | temp s hold hs => exact level_put_ne hm
      | perm s hold hs => exact level_put_ne hm
    rw [hsame]
    exact BanLevel.le_refl _

/-- What becomes of the ban of a node when a packet comes. -/
inductive BanChecked (s : NodeStats) (now : Instant) : NodeStats × Option Detection → Prop where
  | refused (d : Detection) : BanChecked s now (s, some d)
  | lifted (bannedAt : Instant) (dur : Duration) (hlevel : s.banLevel = .tempBan) (hat : s.bannedAt = some bannedAt)
    (hdur : s.banDuration = some dur) (hover : dur ≤ now - bannedAt) : BanChecked s now (s.lift, none)
  | passed (hlevel : s.banLevel ≠ .permBan) : BanChecked s now (s, none)

lemma banChecked (s : NodeStats) (now : Instant) : BanChecked s now (s.checkBan now) := by
  unfold NodeStats.checkBan
  split
  · next hlevel hat hdur =>
    split
    · next hover => exact .lifted _ _ hlevel hat hdur hover
    · exact .refused _
  · exact .refused _
  · next hperm _ => exact .passed hperm

/-- A packet of a node that nothing is held against any more. -/
lemma recorded_inspect (hold : g.level node ≠ .permBan)
    (hkept : ∀ s', s'.banLevel = s.banLevel → g.Recorded node now (g.put node s')) (hcheck : (g.touch node now).checkBan now = (s, none)) :
    g.Recorded node now (g.recordPacket node pktSize now).1 := by
  unfold recordPacket
  rw [hcheck]
  dsimp only
  split
  · exact hkept _ rfl
  · generalize String.intercalate "; " _ = reason
    have hstruck := struck (s.push g.config pktSize now) g.config reason now
    generalize (s.push g.config pktSize now).strike g.config reason now = result at hstruck ⊢
    cases hstruck with
    | perm s' h => exact .perm s' hold h
    | temp s' h => exact .temp s' hold h
    | none s' h => exact hkept _ h

lemma recorded_packet (g : AbuseGuard) (node : String) (pktSize : UInt64) (now : Instant) :
    g.Recorded node now (g.recordPacket node pktSize now).1 := by
  have hchecked := banChecked (g.touch node now) now
  cases hcheck : (g.touch node now).checkBan now with
  | mk s refusal =>
    rw [hcheck] at hchecked
    cases hchecked with
    | refused d =>
      unfold recordPacket
      rw [hcheck]
      exact .kept _ touch_banLevel
    | lifted bannedAt dur hlevel hat hdur hover =>
      have hexpired : g.Expired node now := by
        cases hget : g.nodes[node]? with
        | none =>
          rw [touch_banLevel, level, hget] at hlevel
          cases hlevel
        | some s =>
          have htouch : g.touch node now = { s with lastActive := now } := by
            rw [touch, statsOf, hget]
            rfl
          rw [htouch] at hlevel hat hdur
          exact ⟨s, bannedAt, dur, hget, hlevel, hat, hdur, hover⟩
      have hold : g.level node ≠ .permBan := by
        rw [← touch_banLevel, hlevel]
        decide
      refine recorded_inspect hold ?_ hcheck
      intro s' hs'
      exact .lifted s' hexpired hs'
    | passed hlevel =>
      rw [touch_banLevel] at hlevel
      refine recorded_inspect hlevel ?_ hcheck
      intro s' hs'
      exact .kept s' (hs'.trans touch_banLevel)

lemma countConn_banLevel : (s.countConn success).banLevel = s.banLevel := by
  unfold NodeStats.countConn
  split
  · rfl
  · rfl

/-- Counting a connection makes no ban due. -/
lemma countConn_due : (s.countConn success).Due cfg ↔ s.Due cfg := by
  unfold NodeStats.countConn
  split
  · exact Iff.rfl
  · exact Iff.rfl

lemma recorded_conn (h : g.level node = .permBan → ¬ g.ConnStrikes node success now) :
    g.Recorded node now (g.recordConnResult node success now) := by
  have hperm : BanLevel.permBan ≠ .none := by decide
  have htemp : BanLevel.tempBan ≠ .none := by decide
  have hlevel : ((g.touch node now).countConn success).banLevel = g.level node := countConn_banLevel.trans touch_banLevel
  unfold recordConnResult
  dsimp only
  split
  · next hfailing =>
    generalize ((g.touch node now).countConn success).failureReason = reason
    have hstruck := struck ((g.touch node now).countConn success) g.config reason now
    have hdue := @strike_ne_none ((g.touch node now).countConn success) g.config reason now
    have hold : ((g.touch node now).countConn success).Due g.config → g.level node ≠ .permBan := fun hdue hperm =>
      h hperm ⟨hfailing, countConn_due.mp hdue⟩
    generalize ((g.touch node now).countConn success).strike g.config reason now = result at hstruck hdue ⊢
    cases hstruck with
    | perm s' hs => exact .perm s' (hold (hdue.mp hperm)) hs
    | temp s' hs => exact .temp s' (hold (hdue.mp htemp)) hs
    | none s' hs => exact .kept s' (hs.trans hlevel)
  · exact .kept _ hlevel

/-- A connection that strikes against a permanently banned node. -/
lemma not_consistent_conn (h : g.Consistent) (hold : g.level node = .permBan) (hstrikes : g.ConnStrikes node success now) :
    ¬ (g.recordConnResult node success now).Consistent := by
  obtain ⟨hfailing, hdue⟩ := hstrikes
  unfold recordConnResult
  dsimp only
  rw [if_pos hfailing]
  generalize ((g.touch node now).countConn success).failureReason = reason
  have hstruck := struck ((g.touch node now).countConn success) g.config reason now
  have hne := (@strike_ne_none ((g.touch node now).countConn success) g.config reason now).mpr (countConn_due.mpr hdue)
  generalize ((g.touch node now).countConn success).strike g.config reason now = result at hstruck hne ⊢
  cases hstruck with
  | perm s' hs => exact not_consistent_list h hold
  | temp s' hs =>
    refine not_consistent_put h hold ?_
    rw [hs]
    decide
  | none s' hs => exact absurd rfl hne

lemma consistent_ban {level : BanLevel} (h : g.Consistent) :
    (g.ban node level reason now clock).Consistent ↔ (g.level node = .permBan → level = .permBan) := by
  unfold ban
  dsimp only
  split
  · next hperm =>
    obtain ⟨hlevel, hlisted⟩ := hperm
    have hold : g.level node ≠ .permBan := fun hold => hlisted ((h.listed node).mpr hold)
    exact iff_of_true (h.list hold hlevel) fun _ => hlevel
  · next hnot =>
    by_cases hold : g.level node = .permBan
    · by_cases hlevel : level = .permBan
      · exact iff_of_true (h.put (iff_of_true hlevel hold)) fun _ => hlevel
      · exact iff_of_false (not_consistent_put h hold hlevel) fun hkeeps => hlevel (hkeeps hold)
    · have hlevel : level ≠ .permBan := fun hlevel => hnot ⟨hlevel, fun hmem => hold ((h.listed node).mp hmem)⟩
      exact iff_of_true (h.put (iff_of_false hlevel hold)) fun hperm => absurd hperm hold

lemma consistent_unban (h : g.Consistent) : (g.unban node).1.Consistent := by
  have hmem : ∀ m, m ∈ g.blacklist.filter (· ≠ node) ↔ g.level m = .permBan ∧ m ≠ node := by
    intro m
    rw [List.mem_filter, h.listed m, decide_eq_true_eq]
  unfold unban
  dsimp only
  cases hget : g.nodes[node]? with
  | none =>
    refine ⟨h.nodup.filter _, fun m => (hmem m).trans ?_⟩
    refine and_iff_left_of_imp ?_
    rintro hlevel rfl
    rw [level, hget] at hlevel
    cases hlevel
  | some s =>
    refine ⟨h.nodup.filter _, fun m => (hmem m).trans ?_⟩
    by_cases hm : node = m
    · cases hm
      refine iff_of_false (fun hne => hne.2 rfl) ?_
      show ¬ (put _ node s.lift).level node = .permBan
      rw [level_put_self]
      intro hlevel
      cases hlevel
    · show _ ↔ (put _ node s.lift).level m = .permBan
      rw [level_put_ne hm]
      exact and_iff_left fun heq => hm heq.symm

lemma consistent_gc {maxIdle : Duration} (h : g.Consistent) : (g.gc maxIdle now).Consistent := by
  refine ⟨h.nodup, fun m => (h.listed m).trans ?_⟩
  unfold level gc
  dsimp only
  rw [Std.ExtTreeMap.getElem?_filter']
  cases g.nodes[m]? with
  | none => exact Iff.rfl
  | some s =>
    rw [Option.filter_some]
    split
    · exact Iff.rfl
    · next hdropped =>
      refine iff_of_false ?_ (by decide)
      intro hlevel
      exact hdropped (decide_eq_true (.inl hlevel))

lemma consistent_new (cfg : AbuseConfig) : (new cfg).Consistent where
  nodup := List.nodup_nil
  listed node := by
    refine iff_of_false List.not_mem_nil ?_
    have hget : (new cfg).nodes[node]? = none := Std.ExtTreeMap.getElem?_empty
    rw [level, hget]
    decide

/-- One call keeps the two records together, if and only if it is lawful. -/
lemma upholds_iff {c : GuardCall} (h : g.Consistent) : g.Upholds c ↔ g.Lawful c := by
  cases c with
  | recordPacket node pktSize now =>
    have hrec := recorded_packet g node pktSize now
    exact iff_of_true ⟨hrec.consistent h, hrec.levels⟩ trivial
  | recordConnResult node success now =>
    constructor
    · intro hup hold hstrikes
      exact not_consistent_conn h hold hstrikes hup.consistent
    · intro hlawful
      have hrec := recorded_conn hlawful
      exact ⟨hrec.consistent h, hrec.levels⟩
  | ban node level reason now clock =>
    constructor
    · intro hup
      exact (consistent_ban h).mp hup.consistent
    · intro hlawful
      exact ⟨(consistent_ban h).mpr hlawful, trivial⟩
  | unban node => exact iff_of_true ⟨consistent_unban h, trivial⟩ trivial
  | gc maxIdle now => exact iff_of_true ⟨consistent_gc h, trivial⟩ trivial
  | isBanned node now => exact iff_of_true ⟨h, trivial⟩ trivial
  | stats now => exact iff_of_true ⟨h, trivial⟩ trivial

/-- In a run the two records of permanent bans agree after every call, and what is recorded lowers no level, if and
only if all calls are lawful. -/
theorem ban_state {calls : List GuardCall} : Along step Upholds (new cfg) calls ↔ Along step Lawful (new cfg) calls :=
  along_congr (along_of_forall (P := fun _ => True) fun _ _ => trivial) (fun _ _ _ _ h => h.consistent)
    (fun _ _ h _ => upholds_iff h) (consistent_new cfg)

/-- Fifteen failed connections. -/
def failedConns : List GuardCall := List.replicate 15 (.recordConnResult "node" false 0)

/-- The last two of them put the node on the blacklist. -/
theorem blacklisted_twice : ¬ Along step Upholds (new {}) failedConns ∧
    (run step (new {}) failedConns).1.blacklist = ["node", "node"] := by
  have htwice : (run step (new {}) failedConns).1.blacklist = ["node", "node"] := by decide +kernel
  refine ⟨?_, htwice⟩
  intro h
  have hnodup := (invariant_run (fun _ _ _ h => h.consistent) (consistent_new {}) h).nodup
  rw [htwice] at hnodup
  revert hnodup
  decide

end AbuseGuard

end IPv8Plus.Tunnel
