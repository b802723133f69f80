import IPv8Plus.Fec.SingleLoss
import IPv8Plus.Lib.KeyQueue

/-!
# The state of the receiver

The receiver takes frames of any form. Its queue has the counters of its cache, which is why the loop that drops the oldest
frames comes to an end; cache and list of groups stay within their bounds; no frame makes a call panic; and a recovery frame
that is refused for its form leaves everything as it was. `evictTurns` is the loop as it stands in the source, where a turn
that finds the queue empty drops nothing.
-/

namespace IPv8Plus.Fec
open Lib

/-! ## The loop -/

/-- The loop of `observe_data`, with so many turns: nothing, when it is not done by then. -/
def evictTurns (limit : Nat) : Nat → Std.ExtTreeMap UInt64 Bytes → List UInt64 → Option (Std.ExtTreeMap UInt64 Bytes × List UInt64)
  | 0, cache, order => if limit < cache.size then none else some (cache, order)
  | turns + 1, cache, order =>
    if limit < cache.size then
      match order with
      | [] => evictTurns limit turns cache []
      | oldest :: order => evictTurns limit turns (cache.erase oldest) order
    else some (cache, order)

namespace FecRx

/-- A data frame, with so many turns for the loop. -/
def observeTurns (rx : FecRx) (turns : Nat) (frame : Bytes) : Option (FecRx × Outcome FecError Unit) :=
  if frame.length < dataMinFrame then some (rx, .err (.tooShort frame.length))
  else
    match dataCounter frame with
    | .err e => some (rx, .err e)
    | .panic => some (rx, .panic)
    | .ok counter =>
      if counter ∈ rx.cache then some ({ rx with cache := rx.cache.insert counter frame }, .ok ())
      else
        (evictTurns rx.limit turns (rx.cache.insert counter frame) (rx.order ++ [counter])).map fun left =>
          ({ rx with cache := left.1, order := left.2 }, .ok ())

def stepTurns (rx : FecRx) (turns : Nat) : RxCall → Option (FecRx × Outcome FecError (Option Bytes))
  | .observe frame => (rx.observeTurns turns frame).map fun r => (r.1, (fun _ => none) <$> r.2)
  | .accept frame => some (rx.acceptRecovery frame)

/-- The call returns, and says so from some number of turns on. -/
def Returns (rx : FecRx) (c : RxCall) (result : FecRx × Outcome FecError (Option Bytes)) : Prop :=
  ∃ enough, ∀ turns, enough ≤ turns → rx.stepTurns turns c = some result

/-- What holds of the receiver between calls. -/
structure Inv (rx : FecRx) : Prop where
  queue : KeyQueue rx.cache rx.order
  cache : rx.cache.size ≤ rx.limit
  groups : rx.seenGroups.length ≤ maxSeenGroups

end FecRx

section
variable {cache : Std.ExtTreeMap UInt64 Bytes} {order : List UInt64}

/-- A cache with the queue of its counters: the loop ends when the queue is empty at the latest, within the limit. -/
lemma evict_spec (limit : Nat) (h : KeyQueue cache order) :
    KeyQueue (evict limit cache order).1 (evict limit cache order).2 ∧ (evict limit cache order).1.size ≤ limit ∧
      ∀ turns, order.length ≤ turns → evictTurns limit turns cache order = some (evict limit cache order) := by
  induction order generalizing cache with
  | nil =>
    have hempty : cache.size = 0 := h.size_eq
    have hle : ¬ limit < cache.size := by omega
    refine ⟨h, Nat.not_lt.mp hle, fun turns _ => ?_⟩
    cases turns with
    | zero => exact if_neg hle
    | succ turns => exact if_neg hle
  | cons oldest order ih =>
    rw [evict]
    split_ifs with hfull
    · obtain ⟨hqueue, hsize, hturns⟩ := ih h.pop
      refine ⟨hqueue, hsize, fun turns hle => ?_⟩
      obtain ⟨turns, rfl⟩ := Nat.exists_eq_add_of_le' (Nat.le_of_add_left_le hle)
      rw [evictTurns, if_pos hfull]
      exact hturns turns (Nat.le_of_succ_le_succ hle)
    · refine ⟨h, Nat.not_lt.mp hfull, fun turns _ => ?_⟩
      cases turns with
      | zero => exact if_neg hfull
      | succ turns => exact if_neg hfull

end

/-! ## Recovery frames -/

section
variable {frame : Bytes}

lemma length_memberLens : (memberLens frame).length = (memberCounters frame).length := by
  rw [memberLens, memberCounters, List.length_map, List.length_map]

/-- The lengths that were checked leave room for all that is read of a frame that is rebuilt. -/
lemma rebuild_ne_panic (rx : FecRx) (xorSeg : Bytes) {counters : List UInt64} {lens : List Nat} {missing : Nat}
    (hmissing : missing < counters.length) (hlen : lens.length = counters.length) (hlens : ∀ l ∈ lens, dataMinFrame ≤ l) :
    rx.rebuild xorSeg counters lens missing ≠ .panic := by
  have hmin : dataMinFrame = 74 := rfl
  have hin : missing < lens.length := hmissing.trans_eq hlen.symm
  have hwant := hlens lens[missing] (List.getElem_mem hin)
  rw [FecRx.rebuild]
  dsimp only
  generalize ((counters.eraseIdx missing).filterMap (rx.cache[·]?)).foldl xorInto xorSeg = recon
  rw [idx_of_getElem? (List.getElem?_eq_getElem hin), Outcome.ok_bind]
  split_ifs with hshort
  · nofun
  have hlong : (recon.take lens[missing]).length = lens[missing] := List.length_take_of_le (Nat.not_lt.mp hshort)
  rw [idx_byteAt (by omega), Outcome.ok_bind, idx_byteAt (by omega), Outcome.ok_bind,
    idx_of_getElem? (List.getElem?_eq_getElem hmissing), Outcome.ok_bind]
  split_ifs with hhead
  · nofun
  rw [dataCounter_eq, if_neg (by omega), Outcome.ok_bind]
  split_ifs
  · nofun
  · nofun

/-- The groups noted last, with one more. -/
def noteGroup (groups : List UInt64) (groupSeq : UInt64) : List UInt64 :=
  (groups ++ [groupSeq]).drop ((groups ++ [groupSeq]).length - maxSeenGroups)

lemma length_noteGroup_le (groups : List UInt64) (groupSeq : UInt64) : (noteGroup groups groupSeq).length ≤ maxSeenGroups := by
  rw [noteGroup, List.length_drop]
  omega

/-- What a recovery frame does: it is refused for its form, counted as a repeat, or noted with its group. -/
lemma acceptRecovery_cases (rx : FecRx) (frame : Bytes) :
    (¬ WellFormed frame ∧ ∃ e, rx.acceptRecovery frame = (rx, .err e)) ∨
    rx.acceptRecovery frame = ({ rx with dupRecovery := rx.dupRecovery + 1 }, .ok none) ∨
    WellFormed frame ∧ ∃ recovered abandoned x, rx.acceptRecovery frame =
      ({ rx with seenGroups := noteGroup rx.seenGroups (groupSeqOf frame), recovered, abandoned }, x) ∧ x ≠ .panic := by
  rw [FecRx.acceptRecovery]
  rcases recoveryFields_cases frame with ⟨hfixed, e, herr⟩ | ⟨hfixed, hfields⟩
  · rw [herr]
    exact .inl ⟨fun h => hfixed h.fixed, e, rfl⟩
  rw [hfields]
  dsimp only
  split_ifs with hseen
  · exact .inr (.inl rfl)
  rcases memberTable_cases hfixed with ⟨hform, e, herr⟩ | ⟨hform, htable⟩
  · rw [herr]
    exact .inl ⟨hform, e, rfl⟩
  rw [htable]
  dsimp only
  refine .inr (.inr ⟨hform, ?_⟩)
  split
  · exact ⟨_, _, _, rfl, nofun⟩
  · next hone =>
    obtain ⟨c, hc⟩ := List.exists_mem_of_length_pos (hone ▸ Nat.one_pos)
    have hmissing : (memberCounters frame).findIdx (· ∉ rx.cache) < (memberCounters frame).length :=
      List.findIdx_lt_length.mpr ⟨c, (List.mem_filter.mp hc).1, (List.mem_filter.mp hc).2⟩
    split
    · exact ⟨_, _, _, rfl, nofun⟩
    · next hrebuilt => exact absurd hrebuilt (rebuild_ne_panic _ _ hmissing length_memberLens hform.lens)
    · exact ⟨_, _, _, rfl, nofun⟩
  · exact ⟨_, _, _, rfl, nofun⟩

end

/-! ## Calls -/

namespace FecRx

variable {rx : FecRx} {frame : Bytes}

/-- The receiver with what the loop leaves of cache and queue. -/
def withLeft (rx : FecRx) (left : Std.ExtTreeMap UInt64 Bytes × List UInt64) : FecRx := { rx with cache := left.1, order := left.2 }

/-- What a data frame does: it is too short, takes the place of one with its counter, or is kept and others are dropped. -/
lemma observeData_cases (rx : FecRx) (frame : Bytes) :
    (∃ e, rx.observeData frame = (rx, .err e) ∧ ∀ turns, rx.observeTurns turns frame = some (rx, .err e)) ∨
    (counterOf frame ∈ rx.cache ∧ rx.observeData frame = ({ rx with cache := rx.cache.insert (counterOf frame) frame }, .ok ()) ∧
      ∀ turns, rx.observeTurns turns frame = some ({ rx with cache := rx.cache.insert (counterOf frame) frame }, .ok ())) ∨
    counterOf frame ∉ rx.cache ∧
      rx.observeData frame =
        (rx.withLeft (evict rx.limit (rx.cache.insert (counterOf frame) frame) (rx.order ++ [counterOf frame])), .ok ()) ∧
      ∀ turns, rx.observeTurns turns frame =
        (evictTurns rx.limit turns (rx.cache.insert (counterOf frame) frame) (rx.order ++ [counterOf frame])).map
          fun left => (rx.withLeft left, .ok ()) := by
  by_cases hlen : frame.length < dataMinFrame
  · exact .inl ⟨_, if_pos hlen, fun turns => if_pos hlen⟩
  have hcounter : dataCounter frame = .ok (counterOf frame) := by rw [dataCounter_eq, if_neg hlen, counterOf]
  rw [observeData, if_neg hlen, hcounter]
  dsimp only
  by_cases hin : counterOf frame ∈ rx.cache
  · refine .inr (.inl ⟨hin, if_pos hin, fun turns => ?_⟩)
    rw [observeTurns, if_neg hlen, hcounter]
    exact if_pos hin
  · refine .inr (.inr ⟨hin, if_neg hin, fun turns => ?_⟩)
    rw [observeTurns, if_neg hlen, hcounter]
    exact if_neg hin

lemma inv_new (limit : Nat) : (new limit).Inv := ⟨.empty, Nat.zero_le _, Nat.zero_le _⟩

/-- The limit is that of the start. -/
lemma limit_step (rx : FecRx) (c : RxCall) : (rx.step c).1.limit = rx.limit := by
  cases c with
  | observe frame =>
    rw [step]
    rcases observeData_cases rx frame with ⟨e, heq, -⟩ | ⟨-, heq, -⟩ | ⟨-, heq, -⟩
    · rw [heq]
    · rw [heq]
    · rw [heq]
      rfl
  | accept frame =>
    rw [step]
    rcases acceptRecovery_cases rx frame with ⟨-, e, heq⟩ | heq | ⟨-, recovered, abandoned, x, heq, -⟩
    · rw [heq]
    · rw [heq]
    · rw [heq]

lemma Inv.step (h : rx.Inv) (c : RxCall) : (rx.step c).1.Inv := by
  cases c with
  | observe frame =>
    rw [FecRx.step]
    rcases observeData_cases rx frame with ⟨e, heq, -⟩ | ⟨hin, heq, -⟩ | ⟨hnew, heq, -⟩
    · rw [heq]
      exact h
    · rw [heq]
      have hqueue : KeyQueue (rx.cache.insert (counterOf frame) frame) rx.order := h.queue.replace hin
      refine ⟨hqueue, ?_, h.groups⟩
      rw [hqueue.size_eq, ← h.queue.size_eq]
      exact h.cache
    · rw [heq]
      obtain ⟨hqueue, hsize, -⟩ := evict_spec rx.limit (h.queue.push (v := frame) hnew)
      exact ⟨hqueue, hsize, h.groups⟩
  | accept frame =>
    rw [FecRx.step]
    rcases acceptRecovery_cases rx frame with ⟨-, e, heq⟩ | heq | ⟨-, recovered, abandoned, x, heq, -⟩
    · rw [heq]
      exact h
    · rw [heq]
      exact ⟨h.queue, h.cache, h.groups⟩
    · rw [heq]
      refine ⟨h.queue, h.cache, ?_⟩
      dsimp only
      exact length_noteGroup_le rx.seenGroups (groupSeqOf frame)

/-- Every call returns. -/
lemma Inv.returns (h : rx.Inv) (c : RxCall) : rx.Returns c (rx.step c) := by
  cases c with
  | observe frame =>
    rw [FecRx.step]
    rcases observeData_cases rx frame with ⟨e, heq, hturns⟩ | ⟨-, heq, hturns⟩ | ⟨hnew, heq, hturns⟩
    · rw [heq]
      refine ⟨0, fun turns _ => ?_⟩
      rw [stepTurns, hturns]
      rfl
    · rw [heq]
      refine ⟨0, fun turns _ => ?_⟩
      rw [stepTurns, hturns]
      rfl
    · rw [heq]
      obtain ⟨-, -, hloop⟩ := evict_spec rx.limit (h.queue.push (v := frame) hnew)
      refine ⟨(rx.order ++ [counterOf frame]).length, fun turns hle => ?_⟩
      rw [stepTurns, hturns, hloop turns hle]
      rfl
  | accept frame => exact ⟨0, fun turns _ => rfl⟩

lemma step_ne_panic (rx : FecRx) (c : RxCall) : (rx.step c).2 ≠ .panic := by
  intro hpanic
  cases c with
  | observe frame =>
    rw [step, Outcome.map_eq_panic] at hpanic
    rcases observeData_cases rx frame with ⟨e, heq, -⟩ | ⟨-, heq, -⟩ | ⟨-, heq, -⟩
    · rw [heq] at hpanic
      cases hpanic
    · rw [heq] at hpanic
      cases hpanic
    · rw [heq] at hpanic
      cases hpanic
  | accept frame =>
    rw [step] at hpanic
    rcases acceptRecovery_cases rx frame with ⟨-, e, heq⟩ | heq | ⟨-, recovered, abandoned, x, heq, hx⟩
    · rw [heq] at hpanic
      cases hpanic
    · rw [heq] at hpanic
      cases hpanic
    · rw [heq] at hpanic
      exact hx hpanic

lemma inv_run (limit : Nat) (calls : List RxCall) :
    (run step (new limit) calls).1.Inv ∧ (run step (new limit) calls).1.limit = if limit = 0 then defaultRxCache else limit :=
  invariant_run_all (I := fun rx => rx.Inv ∧ rx.limit = if limit = 0 then defaultRxCache else limit)
    (fun rx c h => ⟨h.1.step c, (limit_step rx c).trans h.2⟩) ⟨inv_new limit, rfl⟩ calls

/-- A recovery frame that is refused for its form changes nothing. -/
lemma acceptRecovery_malformed (h : ¬ WellFormed frame) {e : FecError} (herr : (rx.acceptRecovery frame).2 = .err e) :
    (rx.acceptRecovery frame).1 = rx := by
  rcases acceptRecovery_cases rx frame with ⟨-, e', heq⟩ | heq | ⟨hform, -⟩
  · rw [heq]
  · rw [heq] at herr
    cases herr
  · exact absurd hform h

/-- **The state of the receiver.** After any calls from any limit on, the queue has the counters of the cache, each once, and
cache and groups are within their bounds, where the limit 0 stands for the default; whatever comes next, the call returns
without a panic; and a recovery frame of a wrong form that is refused changes nothing. -/
theorem receiver_state (limit : Nat) (calls : List RxCall) :
    let rx := (run step (new limit) calls).1
    (rx.order.Nodup ∧ rx.order.Perm rx.cache.keys) ∧
      rx.cache.size ≤ (if limit = 0 then defaultRxCache else limit) ∧ rx.seenGroups.length ≤ maxSeenGroups ∧
      (∀ c, rx.Returns c (rx.step c) ∧ (rx.step c).2 ≠ .panic) ∧
      ∀ frame e, ¬ WellFormed frame → (rx.acceptRecovery frame).2 = .err e → (rx.acceptRecovery frame).1 = rx := by
  obtain ⟨hinv, hlimit⟩ := inv_run limit calls
  refine ⟨⟨hinv.queue.nodup, hinv.queue.perm⟩, ?_, hinv.groups, fun c => ⟨hinv.returns c, step_ne_panic _ c⟩,
    fun frame e h => acceptRecovery_malformed h⟩
  rw [← hlimit]
  exact hinv.cache

/-- A receiver with the limit 0 keeps frames. -/
theorem limit_zero_keeps : ¬ ∀ (limit : Nat) (calls : List RxCall), (run step (new limit) calls).1.cache.size ≤ limit := by
  intro h
  have hroom : (new 0).HasRoom (.observe (List.replicate 74 0)) := fun _ => .inr (by decide)
  have hcache := observeData_cache hroom
  rw [if_neg (by decide)] at hcache
  have hsize : ((new 0).observeData (List.replicate 74 0)).1.cache.size ≤ 0 := h 0 [.observe (List.replicate 74 0)]
  have hempty : (new 0).cache = ∅ := rfl
  rw [hcache, hempty, Std.ExtTreeMap.size_insert,
    if_neg fun hin => Std.ExtTreeMap.not_mem_empty (Std.ExtTreeMap.mem_iff_contains.mpr hin)] at hsize
  exact absurd hsize (by decide)

end FecRx

end IPv8Plus.Fec
