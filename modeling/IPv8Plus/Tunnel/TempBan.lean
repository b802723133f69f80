import IPv8Plus.Lib.Run
import IPv8Plus.Lib.Word64
import IPv8Plus.Tunnel.BanState

/-!
# How long a temporary ban lasts

Only `record_packet` looks at the clock of a temporary ban, and `gc` drops idle nodes with their temporary bans.
`temp_ban_exact` is about the runs in which no such node is dropped and the other readers come after a packet that
has ended the ban: there the ban lasts exactly as long as it should, for all three readers.
-/

namespace IPv8Plus.Tunnel
open Lib

/-- The part of the statistics that says what ban a node is under. -/
def NodeStats.theBan (s : NodeStats) : BanLevel × Option Instant × Option Duration := (s.banLevel, s.bannedAt, s.banDuration)

namespace AbuseGuard

/-- The node was banned at `t` for the time `d`, and not for good. -/
structure TempBanned (g : AbuseGuard) (node : String) (t d : Nat) : Prop where
  ban : ∃ s, g.nodes[node]? = some s ∧ s.theBan = (.tempBan, some t, some d)
  listed : node ∉ g.blacklist

/-- The node is not under a ban. -/
structure Free (g : AbuseGuard) (node : String) : Prop where
  level : ¬ BanLevel.tempBan ≤ g.level node
  listed : node ∉ g.blacklist

def banCount (g : AbuseGuard) (node : String) : UInt32 := (g.nodes[node]?).elim 0 (·.banCount)

/-- The node was not active for so long. -/
def idle (g : AbuseGuard) (node : String) (maxIdle : Duration) (now : Instant) : Bool :=
  (g.nodes[node]?).any fun s => maxIdle ≤ now - s.lastActive

end AbuseGuard

/-! ## Watching one node -/

/-- A guard in which one node is watched: when the last call was, and if there was a call at which the ban ended in
the records. -/
structure Watch where
  guard : AbuseGuard
  clock : Instant
  ended : Bool

namespace GuardCall

/-- The node that a call is about. -/
def node : GuardCall → Option String
  | .recordPacket node _ _ => some node
  | .recordConnResult node _ _ => some node
  | .ban node _ _ _ _ => some node
  | .unban node => some node
  | .gc _ _ => none
  | .isBanned node _ => some node
  | .stats _ => none

def time : GuardCall → Option Instant
  | .recordPacket _ _ now => some now
  | .recordConnResult _ _ now => some now
  | .ban _ _ _ now _ => some now
  | .unban _ => none
  | .gc _ now => some now
  | .isBanned _ now => some now
  | .stats now => some now

end GuardCall

/-- A packet of the node, or a collection that drops it, after the end of the ban. -/
def AbuseGuard.ends (g : AbuseGuard) (node : String) (due : Instant) : GuardCall → Bool
  | .recordPacket m _ now => m = node ∧ due ≤ now
  | .gc maxIdle now => due ≤ now ∧ g.idle node maxIdle now
  | .recordConnResult _ _ _ => false
  | .ban _ _ _ _ _ => false
  | .unban _ => false
  | .isBanned _ _ => false
  | .stats _ => false

namespace Watch

def step (node : String) (due : Instant) (w : Watch) (c : GuardCall) : Watch × GuardAnswer :=
  ({ guard := (w.guard.step c).1, clock := c.time.getD w.clock, ended := w.ended || w.guard.ends node due c },
    (w.guard.step c).2)

/-- Clocks do not run back, and the node is neither banned anew nor set free by hand. -/
def Quiet (node : String) (w : Watch) (c : GuardCall) : Prop :=
  w.clock ≤ c.time.getD w.clock ∧
    match c with
    | .recordPacket m _ _ => m = node → (w.guard.step c).1.banCount node = w.guard.banCount node
    | .recordConnResult m _ _ => m = node → (w.guard.step c).1.banCount node = w.guard.banCount node
    | .ban m _ _ _ _ => m ≠ node
    | .unban m => m ≠ node
    | .gc _ _ => True
    | .isBanned _ _ => True
    | .stats _ => True

/-- No collection drops the node while it is banned, and the readers without a clock come after a call at which the ban
ended in the records. -/
def Lasting (node : String) (due : Instant) (w : Watch) : GuardCall → Prop
  | .gc maxIdle now => now < due → w.guard.idle node maxIdle now = false
  | .isBanned m now => m = node → due ≤ now → w.ended = true
  | .stats now => due ≤ now → w.ended = true
  | .recordPacket _ _ _ => True
  | .recordConnResult _ _ _ => True
  | .ban _ _ _ _ _ => True
  | .unban _ => True

instance (node : String) (w : Watch) (c : GuardCall) : Decidable (w.Quiet node c) :=
  match c with
  | .recordPacket _ _ _ => inferInstanceAs (Decidable (_ ∧ (_ → _)))
  | .recordConnResult _ _ _ => inferInstanceAs (Decidable (_ ∧ (_ → _)))
  | .ban _ _ _ _ _ => inferInstanceAs (Decidable (_ ∧ _))
  | .unban _ => inferInstanceAs (Decidable (_ ∧ _))
  | .gc _ _ => inferInstanceAs (Decidable (_ ∧ True))
  | .isBanned _ _ => inferInstanceAs (Decidable (_ ∧ True))
  | .stats _ => inferInstanceAs (Decidable (_ ∧ True))

instance (node : String) (due : Instant) (w : Watch) (c : GuardCall) : Decidable (w.Lasting node due c) :=
  match c with
  | .gc _ _ => inferInstanceAs (Decidable (_ → _))
  | .isBanned _ _ => inferInstanceAs (Decidable (_ → _ → _))
  | .stats _ => inferInstanceAs (Decidable (_ → _))
  | .recordPacket _ _ _ => isTrue trivial
  | .recordConnResult _ _ _ => isTrue trivial
  | .ban _ _ _ _ _ => isTrue trivial
  | .unban _ => isTrue trivial

/-- The node is banned until the ban is due to end, and not from then on. -/
def Exact (node : String) (d : Duration) (due : Instant) (w : Watch) : GuardCall → Prop
  | .recordPacket m pktSize now => m = node →
    if now < due then ∃ reason, (w.guard.recordPacket m pktSize now).2 = .ban .tempBan reason (some d)
    else ∀ level reason dur, (w.guard.recordPacket m pktSize now).2 ≠ .ban level reason dur
  | .isBanned m now => m = node → (w.guard.isBanned node = true ↔ now < due)
  | .stats now => w.guard.stats.banned =
    { w.guard with nodes := w.guard.nodes.erase node }.stats.banned + if now < due then 1 else 0
  | .recordConnResult _ _ _ => True
  | .ban _ _ _ _ _ => True
  | .unban _ => True
  | .gc _ _ => True

end Watch

namespace AbuseGuard

variable {g : AbuseGuard} {node m : String} {s s' : NodeStats} {cfg : AbuseConfig} {reason : String} {pktSize : UInt64}
  {now clock t d : Nat} {success : Bool} {g' : AbuseGuard}

/-! ## Calls about the node -/

lemma strike_none_or (s : NodeStats) (cfg : AbuseConfig) (reason : String) (now : Instant) :
    s.strike cfg reason now = ({ s with strikes := s.strikes + 1 }, .none) ∨
      (s.strike cfg reason now).1.banCount = s.banCount + 1 := by
  unfold NodeStats.strike
  dsimp only
  split
  · exact .inr rfl
  · split
    · exact .inr rfl
    · exact .inl rfl

lemma checkBan_banned (h : s.theBan = (.tempBan, some t, some d)) : s.checkBan now =
    if d ≤ now - t then (s.lift, none) else (s, some (.ban .tempBan s.lastBanReason (some d))) := by
  obtain ⟨hlevel, hrest⟩ := Prod.mk.inj h
  obtain ⟨hat, hdur⟩ := Prod.mk.inj hrest
  unfold NodeStats.checkBan
  rw [hlevel, hat, hdur]

lemma checkBan_free (h : ¬ BanLevel.tempBan ≤ s.banLevel) : s.checkBan now = (s, none) := by
  unfold NodeStats.checkBan
  cases hlevel : s.banLevel with
  | none => rfl
  | warn => rfl
  | tempBan =>
    rw [hlevel] at h
    exact absurd (by decide) h
  | permBan =>
    rw [hlevel] at h
    exact absurd (by decide) h

lemma banCount_put : (g.put node s).banCount node = s.banCount := by
  rw [banCount, nodes_put, if_pos rfl]
  rfl

lemma touch_banCount : (g.touch node now).banCount = g.banCount node := by
  unfold touch statsOf banCount
  cases g.nodes[node]? with
  | none => rfl
  | some s => rfl

lemma checkBan_banCount {refusal : Option Detection} (h : s.checkBan now = (s', refusal)) : s'.banCount = s.banCount := by
  have hchecked := banChecked s now
  rw [h] at hchecked
  cases hchecked with
  | refused d => rfl
  | lifted _ _ _ _ _ _ => rfl
  | passed _ => rfl

/-- A packet that nothing is held against and that bans nobody leaves the ban as it is. -/
lemma recordPacket_quiet (hcheck : (g.touch node now).checkBan now = (s, none))
    (hcount : (g.recordPacket node pktSize now).1.banCount node = g.banCount node) :
    ∃ s', (g.recordPacket node pktSize now).1 = g.put node s' ∧ s'.theBan = s.theBan ∧
      ∀ level reason dur, (g.recordPacket node pktSize now).2 ≠ .ban level reason dur := by
  have hsame := (checkBan_banCount hcheck).trans touch_banCount
  unfold recordPacket at hcount ⊢
  rw [hcheck] at hcount ⊢
  dsimp only at hcount ⊢
  split
  · refine ⟨_, rfl, rfl, ?_⟩
    intro level reason dur h
    cases h
  · next hdetected =>
    rw [if_neg hdetected] at hcount
    generalize String.intercalate "; " _ = reason at hcount ⊢
    rcases strike_none_or (s.push g.config pktSize now) g.config reason now with hnone | hbanned
    · rw [hnone]
      refine ⟨_, rfl, rfl, ?_⟩
      intro level reason dur h
      cases h
    · exfalso
      have hne : (s.push g.config pktSize now).banCount + 1 ≠ g.banCount node := by
        rw [← hsame]
        exact succ_ne_self _
      rw [← hbanned] at hne
      generalize (s.push g.config pktSize now).strike g.config reason now = result at hcount hne
      obtain ⟨s', level⟩ := result
      cases level with
      | permBan => exact hne (banCount_put.symm.trans hcount)
      | tempBan => exact hne (banCount_put.symm.trans hcount)
      | warn => exact hne ((@banCount_put g node { s' with lastBanReason := reason }).symm.trans hcount)
      | none => exact hne ((@banCount_put g node { s' with lastBanReason := reason }).symm.trans hcount)

/-- A connection that bans nobody leaves the ban as it is. -/
lemma recordConnResult_quiet (hcount : (g.recordConnResult node success now).banCount node = g.banCount node) :
    ∃ s', g.recordConnResult node success now = g.put node s' ∧ s'.theBan = (g.touch node now).theBan := by
  have hcounted : ∀ s : NodeStats, (s.countConn success).banCount = s.banCount ∧ (s.countConn success).theBan = s.theBan := by
    intro s
    unfold NodeStats.countConn
    split
    · exact ⟨rfl, rfl⟩
    · exact ⟨rfl, rfl⟩
  obtain ⟨hsame, hban⟩ := hcounted (g.touch node now)
  rw [touch_banCount] at hsame
  unfold recordConnResult at hcount ⊢
  dsimp only at hcount ⊢
  split
  · next hfailing =>
    rw [if_pos hfailing] at hcount
    generalize ((g.touch node now).countConn success).failureReason = reason at hcount ⊢
    rcases strike_none_or ((g.touch node now).countConn success) g.config reason now with hnone | hbanned
    · rw [hnone]
      exact ⟨_, rfl, hban⟩
    · exfalso
      have hne : ((g.touch node now).countConn success).banCount + 1 ≠ g.banCount node := by
        rw [← hsame]
        exact succ_ne_self _
      rw [← hbanned] at hne
      generalize ((g.touch node now).countConn success).strike g.config reason now = result at hcount hne
      obtain ⟨s', level⟩ := result
      cases level with
      | permBan => exact hne (banCount_put.symm.trans hcount)
      | tempBan => exact hne (banCount_put.symm.trans hcount)
      | warn => exact hne (banCount_put.symm.trans hcount)
      | none => exact hne (banCount_put.symm.trans hcount)
  · exact ⟨_, rfl, hban⟩

/-! ## Calls about other nodes -/

/-- The records of a node are the same. -/
structure Same (node : String) (g g' : AbuseGuard) : Prop where
  nodes : g'.nodes[node]? = g.nodes[node]?
  listed : node ∈ g'.blacklist → node ∈ g.blacklist

lemma TempBanned.same (h : g.TempBanned node t d) (hs : Same node g g') : g'.TempBanned node t d where
  ban := by
    rw [hs.nodes]
    exact h.ban
  listed hmem := h.listed (hs.listed hmem)

lemma Free.same (h : g.Free node) (hs : Same node g g') : g'.Free node where
  level := by
    rw [AbuseGuard.level, hs.nodes]
    exact h.level
  listed hmem := h.listed (hs.listed hmem)

lemma same_put (hne : m ≠ node) : Same node g (g.put m s) where
  nodes := by rw [nodes_put, if_neg hne]
  listed := id

/-- Another node on the blacklist. -/
lemma same_list (hne : m ≠ node) : Same node g { g.put m s with blacklist := g.blacklist ++ [m] } where
  nodes := (same_put hne).nodes
  listed hmem := by
    rcases List.mem_append.mp hmem with hmem | hmem
    · exact hmem
    · exact absurd (List.mem_singleton.mp hmem).symm hne

lemma same_recordPacket (hne : m ≠ node) : Same node g (g.recordPacket m pktSize now).1 := by
  have hrec := recorded_packet g m pktSize now
  generalize (g.recordPacket m pktSize now).1 = g' at hrec ⊢
  cases hrec with
  | kept s hs => exact same_put hne
  | lifted s hexpired hs => exact same_put hne
  | temp s hold hs => exact same_put hne
  | perm s hold hs => exact same_list hne

lemma same_recordConnResult (hne : m ≠ node) : Same node g (g.recordConnResult m success now) := by
  unfold recordConnResult
  dsimp only
  split
  · split
    · exact same_list hne
    · exact same_put hne
  · exact same_put hne

lemma same_ban {level : BanLevel} (hne : m ≠ node) : Same node g (g.ban m level reason now clock) := by
  unfold ban
  dsimp only
  split
  · exact same_list hne
  · exact same_put hne

lemma same_unban (hne : m ≠ node) : Same node g (g.unban m).1 := by
  have hlisted : node ∈ g.blacklist.filter (· ≠ m) → node ∈ g.blacklist := fun hmem => (List.mem_filter.mp hmem).1
  unfold unban
  dsimp only
  split
  · exact ⟨(same_put hne).nodes, hlisted⟩
  · exact ⟨rfl, hlisted⟩

/-- A collection that does not drop the node. -/
lemma same_gc {maxIdle : Duration} (h : g.idle node maxIdle now = false) : Same node g (g.gc maxIdle now) where
  nodes := by
    rw [gc, Std.ExtTreeMap.getElem?_filter']
    unfold idle at h
    cases hget : g.nodes[node]? with
    | none => rfl
    | some s =>
      rw [hget, Option.any_some, decide_eq_false_iff_not, Nat.not_le] at h
      rw [Option.filter_some, if_pos (decide_eq_true (.inr h))]
  listed := id

lemma Free.put (h : g.Free node) (hs : s.banLevel = g.level node) : (g.put node s).Free node where
  level := by
    rw [level_put_self, hs]
    exact h.level
  listed := h.listed

lemma Free.gc {maxIdle : Duration} (h : g.Free node) : (g.gc maxIdle now).Free node where
  level := by
    have hlevel := h.level
    unfold AbuseGuard.gc AbuseGuard.level at *
    dsimp only
    rw [Std.ExtTreeMap.getElem?_filter']
    cases hget : g.nodes[node]? with
    | none =>
      rw [hget] at hlevel
      exact hlevel
    | some s =>
      rw [hget] at hlevel
      rw [Option.filter_some]
      split
      · exact hlevel
      · decide
  listed := h.listed

/-- A collection that drops the node. -/
lemma TempBanned.gc {maxIdle : Duration} (h : g.TempBanned node t d) (hidle : g.idle node maxIdle now = true) :
    (g.gc maxIdle now).Free node where
  level := by
    obtain ⟨s, hget, hban⟩ := h.ban
    have hlevel : s.banLevel = .tempBan := congrArg Prod.fst hban
    rw [idle, hget, Option.any_some, decide_eq_true_eq] at hidle
    have hdropped : ¬ (s.banLevel = .permBan ∨ now - s.lastActive < maxIdle) := by
      rw [hlevel]
      rintro (hperm | hlt)
      · cases hperm
      · exact absurd hidle (Nat.not_le.mpr hlt)
    rw [AbuseGuard.gc, AbuseGuard.level, Std.ExtTreeMap.getElem?_filter', hget, Option.filter_some, if_neg (by rwa [decide_eq_true_eq])]
    decide
  listed := h.listed

/-! ## The readers -/

lemma TempBanned.level (h : g.TempBanned node t d) : g.level node = .tempBan := by
  obtain ⟨s, hget, hban⟩ := h.ban
  rw [AbuseGuard.level, hget]
  exact congrArg Prod.fst hban

lemma isBanned_iff (h : node ∉ g.blacklist) : g.isBanned node = true ↔ BanLevel.tempBan ≤ g.level node := by
  rw [isBanned, if_neg h, AbuseGuard.level]
  cases g.nodes[node]? with
  | none => decide
  | some s =>
    show decide (s.banLevel = .tempBan ∨ s.banLevel = .permBan) = true ↔ BanLevel.tempBan ≤ s.banLevel
    cases s.banLevel with
    | none => decide
    | warn => decide
    | tempBan => decide
    | permBan => decide

/-- How a node counts among the banned ones. -/
lemma stats_banned (g : AbuseGuard) (node : String) : g.stats.banned =
    { g with nodes := g.nodes.erase node }.stats.banned + if BanLevel.tempBan ≤ g.level node then 1 else 0 := by
  show (g.nodes.filter fun _ s => BanLevel.tempBan ≤ s.banLevel).size =
    ((g.nodes.erase node).filter fun _ s => BanLevel.tempBan ≤ s.banLevel).size + _
  have herase : (g.nodes.erase node).filter (fun _ s => BanLevel.tempBan ≤ s.banLevel) =
      (g.nodes.filter fun _ s => BanLevel.tempBan ≤ s.banLevel).erase node := by
    apply Std.ExtTreeMap.ext_getElem?
    intro k
    rw [Std.ExtTreeMap.getElem?_filter', Std.ExtTreeMap.getElem?_erase, Std.ExtTreeMap.getElem?_erase,
      Std.ExtTreeMap.getElem?_filter']
    split
    · rfl
    · rfl
  have hmem : node ∈ g.nodes.filter (fun _ s => BanLevel.tempBan ≤ s.banLevel) ↔ BanLevel.tempBan ≤ g.level node := by
    rw [Std.ExtTreeMap.mem_iff_isSome_getElem?, Std.ExtTreeMap.getElem?_filter', AbuseGuard.level]
    cases g.nodes[node]? with
    | none => decide
    | some s =>
      rw [Option.filter_some]
      split
      · next h => exact iff_of_true rfl (of_decide_eq_true h)
      · next h => exact iff_of_false (by decide) fun hle => h (decide_eq_true hle)
  rw [herase, Std.ExtTreeMap.size_erase]
  split
  · next hin =>
    have hpos : (g.nodes.filter fun _ s => BanLevel.tempBan ≤ s.banLevel).size ≠ 0 := by
      intro hzero
      rw [Std.ExtTreeMap.eq_empty_iff_size_eq_zero.mpr hzero] at hin
      exact Std.ExtTreeMap.not_mem_empty hin
    rw [if_pos (hmem.mp hin)]
    exact (Nat.sub_one_add_one hpos).symm
  · next hout => rw [if_neg fun hlevel => hout (hmem.mpr hlevel), Nat.add_zero]

end AbuseGuard

namespace Watch

variable {w : Watch} {node : String} {t d : Nat} {c : GuardCall}

/-- Until the ban has ended in the records it is there as it was set, and from then on there is none. -/
structure Inv (node : String) (t d : Nat) (w : Watch) : Prop where
  started : t ≤ w.clock
  banned : w.ended = false → w.guard.TempBanned node t d
  free : w.ended = true → t + d ≤ w.clock ∧ w.guard.Free node

/-- A call that leaves the records of the node as they are. -/
lemma Inv.same (h : w.Inv node t d) (hclock : w.clock ≤ c.time.getD w.clock) (hends : w.guard.ends node (t + d) c = false)
    (hs : AbuseGuard.Same node w.guard (w.guard.step c).1) : (w.step node (t + d) c).1.Inv node t d where
  started := h.started.trans hclock
  banned hended := (h.banned (Bool.or_eq_false_iff.mp hended).1).same hs
  free hended := by
    rw [step, hends, Bool.or_false] at hended
    obtain ⟨hle, hfree⟩ := h.free hended
    exact ⟨hle.trans hclock, hfree.same hs⟩

/-- What the node is told, and what becomes of its records, when it sends a packet. -/
lemma packet_step {pktSize : UInt64} {now : Instant} (h : w.Inv node t d) (hq : w.Quiet node (.recordPacket node pktSize now)) :
    w.Exact node d (t + d) (.recordPacket node pktSize now) ∧
      (w.step node (t + d) (.recordPacket node pktSize now)).1.Inv node t d := by
  have hclock : w.clock ≤ now := hq.1
  have hcount : (w.guard.recordPacket node pktSize now).1.banCount node = w.guard.banCount node := hq.2 rfl
  have hstart : t ≤ now := h.started.trans hclock
  have hnone : ¬ BanLevel.tempBan ≤ .none := by decide
  have hlisted : node ∉ w.guard.blacklist := by
    cases hended : w.ended with
    | false => exact (h.banned hended).listed
    | true => exact (h.free hended).2.listed
  unfold Exact step
  by_cases hdue : t + d ≤ now
  · have hends : w.guard.ends node (t + d) (.recordPacket node pktSize now) = true := decide_eq_true ⟨rfl, hdue⟩
    -- the ban is over: what is held against the node now has no ban in it
    have hcheck : ∃ s, (w.guard.touch node now).checkBan now = (s, none) ∧ ¬ BanLevel.tempBan ≤ s.banLevel := by
      cases hended : w.ended with
      | false =>
        obtain ⟨s, hget, hban⟩ := (h.banned hended).ban
        have htouch : (w.guard.touch node now).theBan = (.tempBan, some t, some d) := by
          rw [AbuseGuard.touch, AbuseGuard.statsOf, hget]
          exact hban
        refine ⟨(w.guard.touch node now).lift, ?_, hnone⟩
        rw [AbuseGuard.checkBan_banned htouch, if_pos (Nat.le_sub_of_add_le' hdue)]
      | true =>
        have hlevel := (h.free hended).2.level
        rw [← @AbuseGuard.touch_banLevel _ _ now] at hlevel
        exact ⟨_, AbuseGuard.checkBan_free hlevel, hlevel⟩
    obtain ⟨s, hcheck, hfree⟩ := hcheck
    obtain ⟨s', hput, hban, hanswer⟩ := AbuseGuard.recordPacket_quiet hcheck hcount
    have hlevel : s'.banLevel = s.banLevel := congrArg Prod.fst hban
    refine ⟨fun _ => ?_, hstart, ?_, ?_⟩
    · rw [if_neg (Nat.not_lt.mpr hdue)]
      exact hanswer
    · intro hended
      rw [hends, Bool.or_true] at hended
      cases hended
    · intro _
      show t + d ≤ now ∧ (w.guard.recordPacket node pktSize now).1.Free node
      rw [hput]
      refine ⟨hdue, ?_, hlisted⟩
      rw [AbuseGuard.level_put_self, hlevel]
      exact hfree
  · have hends : w.guard.ends node (t + d) (.recordPacket node pktSize now) = false := decide_eq_false fun hends => hdue hends.2
    have hended : w.ended = false := by
      cases hended : w.ended with
      | false => rfl
      | true => exact absurd ((h.free hended).1.trans hclock) hdue
    obtain ⟨s, hget, hban⟩ := (h.banned hended).ban
    have htouch : (w.guard.touch node now).theBan = (.tempBan, some t, some d) := by
      rw [AbuseGuard.touch, AbuseGuard.statsOf, hget]
      exact hban
    have hrefused : w.guard.recordPacket node pktSize now = (w.guard.put node (w.guard.touch node now),
        .ban .tempBan (w.guard.touch node now).lastBanReason (some d)) := by
      have hearly : ¬ d ≤ now - t := fun hle => hdue (Nat.add_le_of_le_sub' hstart hle)
      unfold AbuseGuard.recordPacket
      rw [AbuseGuard.checkBan_banned htouch, if_neg hearly]
    refine ⟨fun _ => ?_, hstart, ?_, ?_⟩
    · rw [if_pos (Nat.not_le.mp hdue), hrefused]
      exact ⟨_, rfl⟩
    · intro _
      show (w.guard.recordPacket node pktSize now).1.TempBanned node t d
      rw [hrefused]
      refine ⟨⟨_, ?_, htouch⟩, hlisted⟩
      rw [AbuseGuard.nodes_put, if_pos rfl]
    · intro hnow
      rw [hends, hended] at hnow
      cases hnow

/-- A connection of the node that bans nobody. -/
lemma conn_step {success : Bool} {now : Instant} (h : w.Inv node t d) (hq : w.Quiet node (.recordConnResult node success now)) :
    (w.step node (t + d) (.recordConnResult node success now)).1.Inv node t d := by
  have hclock : w.clock ≤ now := hq.1
  have hcount : (w.guard.recordConnResult node success now).banCount node = w.guard.banCount node := hq.2 rfl
  obtain ⟨s', hput, hban⟩ := AbuseGuard.recordConnResult_quiet hcount
  refine ⟨h.started.trans hclock, ?_, ?_⟩
  · intro hended
    obtain ⟨⟨s, hget, hs⟩, hlisted⟩ := h.banned (Bool.or_eq_false_iff.mp hended).1
    show (w.guard.recordConnResult node success now).TempBanned node t d
    rw [hput]
    refine ⟨⟨s', ?_, hban.trans ?_⟩, hlisted⟩
    · rw [AbuseGuard.nodes_put, if_pos rfl]
    · rw [AbuseGuard.touch, AbuseGuard.statsOf, hget]
      exact hs
  · intro hended
    obtain ⟨hdue, hfree⟩ := h.free ((Bool.or_false _).symm.trans hended)
    show t + d ≤ now ∧ (w.guard.recordConnResult node success now).Free node
    rw [hput]
    exact ⟨hdue.trans hclock, hfree.put ((congrArg Prod.fst hban).trans AbuseGuard.touch_banLevel)⟩

/-- A collection, which does not drop the node while it is banned. -/
lemma gc_step {maxIdle : Duration} {now : Instant} (h : w.Inv node t d) (hq : w.Quiet node (.gc maxIdle now))
    (hl : w.Lasting node (t + d) (.gc maxIdle now)) : (w.step node (t + d) (.gc maxIdle now)).1.Inv node t d := by
  have hclock : w.clock ≤ now := hq.1
  cases hidle : w.guard.idle node maxIdle now with
  | false =>
    refine h.same hclock ?_ (AbuseGuard.same_gc hidle)
    exact decide_eq_false fun hends => absurd hends.2 (by rw [hidle]; decide)
  | true =>
    have hdue : t + d ≤ now := by
      by_contra hearly
      have hkept := hl (Nat.not_le.mp hearly)
      rw [hidle] at hkept
      cases hkept
    have hends : w.guard.ends node (t + d) (.gc maxIdle now) = true := decide_eq_true ⟨hdue, hidle⟩
    refine ⟨h.started.trans hclock, ?_, ?_⟩
    · intro hended
      have hnow := (Bool.or_eq_false_iff.mp hended).2
      rw [hends] at hnow
      cases hnow
    · intro _
      refine ⟨hdue, ?_⟩
      cases hended : w.ended with
      | false => exact (h.banned hended).gc hidle
      | true => exact (h.free hended).2.gc

/-- The node counts as banned until the ban is due to end. -/
lemma Inv.level_iff {now : Instant} (h : w.Inv node t d) (hclock : w.clock ≤ now) (hread : t + d ≤ now → w.ended = true) :
    BanLevel.tempBan ≤ w.guard.level node ↔ now < t + d := by
  cases hended : w.ended with
  | false =>
    refine iff_of_true ?_ ?_
    · rw [(h.banned hended).level]
      decide
    · by_contra hdue
      have htrue := hread (Nat.not_lt.mp hdue)
      rw [hended] at htrue
      cases htrue
  | true =>
    obtain ⟨hdue, hfree⟩ := h.free hended
    exact iff_of_false hfree.level (Nat.not_lt.mpr (hdue.trans hclock))

lemma inv_step (h : w.Inv node t d) (hq : w.Quiet node c) (hl : w.Lasting node (t + d) c) :
    (w.step node (t + d) c).1.Inv node t d := by
  cases c with
  | recordPacket m pktSize now =>
    by_cases hm : m = node
    · cases hm
      exact (packet_step h hq).2
    · refine h.same hq.1 ?_ (AbuseGuard.same_recordPacket hm)
      exact decide_eq_false fun hends => hm hends.1
  | recordConnResult m success now =>
    by_cases hm : m = node
    · cases hm
      exact conn_step h hq
    · exact h.same hq.1 rfl (AbuseGuard.same_recordConnResult hm)
  | ban m level reason now clock => exact h.same hq.1 rfl (AbuseGuard.same_ban hq.2)
  | unban m => exact h.same hq.1 rfl (AbuseGuard.same_unban hq.2)
  | gc maxIdle now => exact gc_step h hq hl
  | isBanned m now => exact h.same hq.1 rfl ⟨rfl, id⟩
  | stats now => exact h.same hq.1 rfl ⟨rfl, id⟩

lemma exact_of_inv (h : w.Inv node t d) (hq : w.Quiet node c) (hl : w.Lasting node (t + d) c) :
    w.Exact node d (t + d) c := by
  cases c with
  | recordPacket m pktSize now =>
    intro hm
    cases hm
    exact (packet_step h hq).1 rfl
  | isBanned m now =>
    intro hm
    have hlisted : node ∉ w.guard.blacklist := by
      cases hended : w.ended with
      | false => exact (h.banned hended).listed
      | true => exact (h.free hended).2.listed
    exact (AbuseGuard.isBanned_iff hlisted).trans (h.level_iff hq.1 (hl hm))
  | stats now =>
    have hbanned := AbuseGuard.stats_banned w.guard node
    exact hbanned.trans (congrArg _ (if_congr (h.level_iff hq.1 hl) rfl rfl))
  | recordConnResult m success now => trivial
  | ban m level reason now clock => trivial
  | unban m => trivial
  | gc maxIdle now => trivial

/-- A node that is banned at `t` for the time `d` is banned until `t + d` and not longer, for all readers, in every run
in which the node is neither banned anew nor set free by hand, no collection drops it while it is banned, and
the readers without a clock come after the ban has ended in the records. -/
theorem temp_ban_exact {g : AbuseGuard} {calls : List GuardCall} (h : g.TempBanned node t d)
    (hquiet : Along (step node (t + d)) (Quiet node) ⟨g, t, false⟩ calls)
    (hlasting : Along (step node (t + d)) (Lasting node (t + d)) ⟨g, t, false⟩ calls) :
    Along (step node (t + d)) (Exact node d (t + d)) ⟨g, t, false⟩ calls :=
  Along.of_invariant (I := Inv node t d) (fun _ _ hinv hp => inv_step hinv hp.1 hp.2)
    (fun _ _ hinv hp => exact_of_inv hinv hp.1 hp.2) ⟨Nat.le_refl t, fun _ => h, fun hended => Bool.noConfusion hended⟩
    (along_and.mpr ⟨hquiet, hlasting⟩)

/-- A node that is banned by hand. -/
def sampleGuard : AbuseGuard := (AbuseGuard.new {}).ban "node" .tempBan "by hand" 0 0

lemma sampleGuard_tempBanned : sampleGuard.TempBanned "node" 0 (300 * 10 ^ 9) where
  ban := ⟨_, AbuseGuard.nodes_put.trans (if_pos rfl), rfl⟩
  listed := List.not_mem_nil

/-- A collection at 100 s lets the node in again at 101 s, and without a packet it counts as banned at 300 s. -/
theorem temp_ban_inexact :
    (∀ calls ∈ [[GuardCall.gc (60 * 10 ^ 9) (100 * 10 ^ 9), .recordPacket "node" 100 (101 * 10 ^ 9)],
        [.isBanned "node" (300 * 10 ^ 9)]],
      Along (step "node" (300 * 10 ^ 9)) (Quiet "node") ⟨sampleGuard, 0, false⟩ calls ∧
        ¬ Along (step "node" (300 * 10 ^ 9)) (Exact "node" (300 * 10 ^ 9) (300 * 10 ^ 9)) ⟨sampleGuard, 0, false⟩ calls) ∧
      sampleGuard.TempBanned "node" 0 (300 * 10 ^ 9) := by
  refine ⟨?_, sampleGuard_tempBanned⟩
  have hadmitted : ((sampleGuard.gc (60 * 10 ^ 9) (100 * 10 ^ 9)).recordPacket "node" 100 (101 * 10 ^ 9)).2 = .normal := by
    decide +kernel
  have hbanned : sampleGuard.isBanned "node" = true := by decide +kernel
  intro calls hcalls
  rcases List.mem_cons.mp hcalls with rfl | hcalls
  · refine ⟨by decide +kernel, ?_⟩
    rintro ⟨-, hexact, -⟩
    obtain ⟨reason, hrefused⟩ := hexact rfl
    cases hadmitted.symm.trans hrefused
  · cases List.mem_singleton.mp hcalls
    refine ⟨by decide +kernel, ?_⟩
    rintro ⟨hexact, -⟩
    exact absurd ((hexact rfl).mp hbanned) (by decide)

def sampleCalls : List GuardCall := [
  .recordPacket "node" 100 (10 ^ 9), .gc (60 * 10 ^ 9) (50 * 10 ^ 9), .isBanned "node" (60 * 10 ^ 9),
  .recordPacket "node" 100 (301 * 10 ^ 9), .isBanned "node" (302 * 10 ^ 9), .stats (303 * 10 ^ 9)]

theorem temp_ban_exact_sample :
    Along (step "node" (0 + 300 * 10 ^ 9)) (Exact "node" (300 * 10 ^ 9) (0 + 300 * 10 ^ 9)) ⟨sampleGuard, 0, false⟩ sampleCalls :=
  temp_ban_exact sampleGuard_tempBanned (by decide +kernel) (by decide +kernel)

end Watch

end IPv8Plus.Tunnel
