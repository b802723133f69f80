import IPv8Plus.Cloud.Sweep

/-!
# Decoding what others have stored

`decode_entry` of `cloud/resolver/src/dht_store.rs` checks every length before it reads. The two times in the bytes are
brought back to instants without a check: seconds that the clocks cannot show panic, in `get` and in `sweep_expired` too.
-/

namespace IPv8Plus.Cloud
open Lib Codec Routing

/-- The wall clock and the monotonic clock can show these seconds since the epoch. -/
def Representable (r : Reading) (secs : UInt64) : Prop :=
  let target : Int := secs.toNat * 10 ^ 9
  let t := r.instant + (target - r.system)
  target < clockEnd ∧ (r.system ≤ target → t < clockEnd) ∧ (target < r.system → -clockEnd ≤ t)

/-- The bytes up to the tag of the observed address, and the seconds of the registration. -/
def readRegistered : Reader UInt64 := fun data => do
  let (_, data) ← readKey data
  let (_, data) ← readString data
  let (_, data) ← readStrings data
  let (_, data) ← readU8 data
  let (_, data) ← readU32 data
  let (regSecs, data) ← readU64 data
  let (_, data) ← readU64 data
  return (regSecs, data)

/-- The observed address, with its seconds. -/
def readSeen : Reader (Option UInt64) := fun data => do
  let (tag, data) ← readU8 data
  if tag = 0 then return (none, data)
  else if tag = 1 then
    let (_, data) ← readString data
    let (secs, data) ← readU64 data
    return (some secs, data)
  else none

/-- The seconds of the observed address, if the bytes get as far. -/
def observedSecs (data : Bytes) : Option UInt64 := do
  let (_, data) ← readRegistered data
  let (secs, _) ← readSeen data
  secs

/-- The seconds of the registration, if everything can be read. -/
def registeredSecs (data : Bytes) : Option UInt64 := do
  let (regSecs, data) ← readRegistered data
  let (_, data) ← readSeen data
  let _ ← readStrings data
  return regSecs

/-- The clocks can show the times in the bytes. Each instant has readings of its own. -/
structure Timely (clock : ℕ → Reading) (data : Bytes) : Prop where
  observed : ∀ secs, observedSecs data = some secs → Representable (clock 1) secs
  registered : ∀ secs, registeredSecs data = some secs → Representable (clock 0) secs

section
variable {r : Reading} {secs : UInt64} {data : Bytes} {clock : ℕ → Reading}

/-- Seconds come back as an instant, or panic. -/
lemma systemSecsToInstant_cases (r : Reading) (secs : UInt64) :
    (Representable r secs ∧ ∃ t, systemSecsToInstant r secs = .ok t) ∨
      (¬ Representable r secs ∧ systemSecsToInstant r secs = .panic) := by
  unfold Representable systemSecsToInstant
  dsimp only
  split
  · next hend => exact .inr ⟨fun h => absurd h.1 (not_lt.mpr hend), rfl⟩
  next hend =>
  split
  · next hfuture =>
    split
    · next hlt => exact .inl ⟨⟨not_le.mp hend, fun _ => hlt, fun hpast => absurd hfuture (not_le.mpr hpast)⟩, _, rfl⟩
    · next hge => exact .inr ⟨fun h => hge (h.2.1 hfuture), rfl⟩
  · next hpast =>
    split
    · next hle => exact .inl ⟨⟨not_le.mp hend, fun hfuture => absurd hfuture hpast, fun _ => hle⟩, _, rfl⟩
    · next hlt => exact .inr ⟨fun h => hlt (h.2.2 (not_le.mp hpast)), rfl⟩

/-- On a machine whose clocks are sane, these are the seconds of an `i64`. -/
lemma representable_iff (hr : r.Sane) : Representable r secs ↔ secs.toNat < 2 ^ 63 := by
  obtain ⟨h0, hle, hend⟩ := hr
  unfold Representable
  unfold clockEnd at hend ⊢
  dsimp only
  omega

lemma orErr_none_bind {α β : Type} {x : Option α} {f : α → Outcome Unit β} (h : x = none) : (orErr x >>= f) = .err () := by
  rw [h]
  rfl

lemma readObserved_cases (r : Reading) (data : Bytes) : (readSeen data = none ∧ readObserved r data = .err ()) ∨
    (∃ rest, readSeen data = some (none, rest) ∧ readObserved r data = .ok (none, rest)) ∨
    ∃ addr secs rest, readSeen data = some (some secs, rest) ∧
      readObserved r data = (systemSecsToInstant r secs >>= fun t => .ok (some (addr, t), rest)) := by
  unfold readSeen readObserved
  cases htag : readU8 data with
  | none =>
    rw [orErr_none_bind rfl]
    exact .inl ⟨rfl, rfl⟩
  | some x =>
    obtain ⟨tag, data⟩ := x
    rw [orErr_bind rfl]
    simp only [Option.bind_eq_bind, Option.bind_some]
    split
    · exact .inr (.inl ⟨data, rfl, rfl⟩)
    split
    · cases haddr : readString data with
      | none =>
        rw [orErr_none_bind rfl]
        exact .inl ⟨rfl, rfl⟩
      | some x =>
        obtain ⟨addr, data⟩ := x
        rw [orErr_bind rfl]
        dsimp only [Option.bind_some]
        cases hsecs : readU64 data with
        | none =>
          rw [orErr_none_bind rfl]
          exact .inl ⟨rfl, rfl⟩
        | some x =>
          obtain ⟨secs, data⟩ := x
          rw [orErr_bind rfl]
          dsimp only
          exact .inr (.inr ⟨addr, secs, data, rfl, rfl⟩)
    · exact .inl ⟨rfl, rfl⟩

/-- What is left to do behind the fields of a fixed place. -/
lemma decodeEntry_cases (data : Bytes) : (readRegistered data = none ∧ ∀ clock, decodeEntry clock data = .err ()) ∨
    ∃ regSecs rest, ∃ entry : Option (String × Instant) → List String → Instant → Entry,
      readRegistered data = some (regSecs, rest) ∧ ∀ clock, decodeEntry clock data = (do
        let (observed, rest) ← readObserved (clock 1) rest
        let (localCandidates, _) ← orErr (readStrings rest)
        let registeredAt ← systemSecsToInstant (clock 0) regSecs
        return entry observed localCandidates registeredAt) := by
  unfold readRegistered decodeEntry
  -- no field before the observed address can panic: each is read or is missing
  cases readKey data with
  | none =>
    refine .inl ⟨rfl, fun _ => ?_⟩
    rw [orErr_none_bind rfl]
  | some x =>
    obtain ⟨key, data⟩ := x
    simp only [orErr_bind rfl, Option.bind_eq_bind, Option.bind_some]
    cases readString data with
    | none =>
      refine .inl ⟨rfl, fun _ => ?_⟩
      rw [orErr_none_bind rfl]
    | some x =>
      obtain ⟨tunnelEntry, data⟩ := x
      simp only [orErr_bind rfl, Option.bind_some]
      cases readStrings data with
      | none =>
        refine .inl ⟨rfl, fun _ => ?_⟩
        rw [orErr_none_bind rfl]
      | some x =>
        obtain ⟨altEntries, data⟩ := x
        simp only [orErr_bind rfl, Option.bind_some]
        cases readU8 data with
        | none =>
          refine .inl ⟨rfl, fun _ => ?_⟩
          rw [orErr_none_bind rfl]
        | some x =>
          obtain ⟨capable, data⟩ := x
          simp only [orErr_bind rfl, Option.bind_some]
          cases readU32 data with
          | none =>
            refine .inl ⟨rfl, fun _ => ?_⟩
            rw [orErr_none_bind rfl]
          | some x =>
            obtain ⟨mtu, data⟩ := x
            simp only [orErr_bind rfl, Option.bind_some]
            cases readU64 data with
            | none =>
              refine .inl ⟨rfl, fun _ => ?_⟩
              rw [orErr_none_bind rfl]
            | some x =>
              obtain ⟨regSecs, data⟩ := x
              simp only [orErr_bind rfl, Option.bind_some]
              cases readU64 data with
              | none =>
                refine .inl ⟨rfl, fun _ => ?_⟩
                rw [orErr_none_bind rfl]
              | some x =>
                obtain ⟨ttlSecs, data⟩ := x
                refine .inr ⟨regSecs, data, fun observed localCandidates registeredAt => ⟨key, ⟨tunnelEntry, altEntries,
                  capable != 0, mtu, registeredAt, .fromSecs ttlSecs, observed, localCandidates⟩⟩, rfl, fun clock => ?_⟩
                rw [orErr_bind rfl]

/-- The end of the bytes, and the time of the registration. -/
lemma registered_ne_panic {regSecs : UInt64} {rest : Bytes} {entry : List String → Instant → Entry} :
    (do let (localCandidates, _) ← orErr (readStrings rest)
        let registeredAt ← systemSecsToInstant r regSecs
        return entry localCandidates registeredAt) ≠ .panic ↔ ((readStrings rest).isSome → Representable r regSecs) := by
  cases readStrings rest with
  | none =>
    rw [orErr_none_bind rfl]
    exact iff_of_true nofun nofun
  | some x =>
    rw [orErr_bind rfl]
    rcases systemSecsToInstant_cases r regSecs with ⟨hshown, t, ht⟩ | ⟨hnot, hpanic⟩
    · rw [ht]
      exact iff_of_true nofun fun _ => hshown
    · rw [hpanic]
      exact iff_of_false (fun h => h rfl) fun h => hnot (h rfl)

/-- Decoding panics exactly where a time is read that the clocks cannot show. -/
lemma decodeEntry_ne_panic : decodeEntry clock data ≠ .panic ↔ Timely clock data := by
  rcases decodeEntry_cases data with ⟨hnone, herr⟩ | ⟨regSecs, rest, entry, hreg, hdecode⟩
  · have hobserved : observedSecs data = none := by rw [observedSecs, hnone]; rfl
    have hregistered : registeredSecs data = none := by rw [registeredSecs, hnone]; rfl
    rw [herr]
    refine iff_of_true nofun ⟨?_, ?_⟩
    · rw [hobserved]
      nofun
    · rw [hregistered]
      nofun
  · have hobserved : observedSecs data = (readSeen rest).bind fun x => x.1 := by rw [observedSecs, hreg]; rfl
    have hregistered : registeredSecs data = (readSeen rest).bind fun x => (readStrings x.2).bind fun _ => some regSecs := by
      rw [registeredSecs, hreg]
      rfl
    -- the registration is only brought back if the last list can be read
    have hend : ∀ {rest : Bytes}, ((readStrings rest).isSome → Representable (clock 0) regSecs) ↔
        ∀ secs, ((readStrings rest).bind fun _ => some regSecs) = some secs → Representable (clock 0) secs := by
      intro rest
      cases readStrings rest with
      | none => exact iff_of_true nofun nofun
      | some x =>
        constructor
        · rintro h _ ⟨⟩
          exact h rfl
        · exact fun h _ => h regSecs rfl
    have htimely : Timely clock data ↔ (∀ secs, observedSecs data = some secs → Representable (clock 1) secs) ∧
        ∀ secs, registeredSecs data = some secs → Representable (clock 0) secs := ⟨fun h => ⟨h.1, h.2⟩, fun h => ⟨h.1, h.2⟩⟩
    rw [htimely, hobserved, hregistered, hdecode]
    -- the observed address comes first: where it panics, nothing after it is read
    rcases readObserved_cases (clock 1) rest with ⟨hseen, hread⟩ | ⟨rest', hseen, hread⟩ | ⟨addr, secs, rest', hseen, hread⟩
    · rw [hseen, hread]
      exact iff_of_true nofun ⟨nofun, nofun⟩
    · rw [hseen, hread, Outcome.ok_bind, Option.bind_some, Option.bind_some, ← hend]
      exact registered_ne_panic.trans ⟨fun h => ⟨nofun, h⟩, fun h => h.2⟩
    · rw [hseen, hread, Option.bind_some, Option.bind_some, ← hend]
      rcases systemSecsToInstant_cases (clock 1) secs with ⟨hshown, t, ht⟩ | ⟨hnot, hpanic⟩
      · rw [ht, Outcome.ok_bind, Outcome.ok_bind]
        refine registered_ne_panic.trans ⟨fun h => ⟨?_, h⟩, fun h => h.2⟩
        rintro _ ⟨⟩
        exact hshown
      · rw [hpanic, Outcome.panic_bind, Outcome.panic_bind]
        exact iff_of_false (fun h => h rfl) fun h => hnot (h.1 secs rfl)

variable {R : Type} [ChordRpc R]

lemma get_ne_panic (s : DhtStore R) (clock : ℕ → Reading) (addr : IPv8Address) : s.get clock addr ≠ .panic ↔
    ∀ data, ChordRpc.dhtGet s.rpc s.node (addrToKey addr) = some data → Timely clock data := by
  unfold DhtStore.get
  cases ChordRpc.dhtGet s.rpc s.node (addrToKey addr) with
  | none => exact iff_of_true nofun nofun
  | some data =>
    have hdata : (∀ data', some data = some data' → Timely clock data') ↔ decodeEntry clock data ≠ .panic := by
      rw [decodeEntry_ne_panic]
      constructor
      · exact fun h => h data rfl
      · rintro h _ ⟨⟩
        exact h
    rw [hdata]
    dsimp only
    cases decodeEntry clock data with
    | ok e => exact iff_of_true nofun nofun
    | err e => exact iff_of_true nofun nofun
    | panic => exact iff_of_false (fun h => h rfl) fun h => h rfl

lemma slotExpired_ne_panic {now : Instant} : DhtStore.slotExpired clock now data ≠ .panic ↔ Timely clock data := by
  rw [← decodeEntry_ne_panic, DhtStore.slotExpired]
  cases decodeEntry clock data with
  | ok e => exact iff_of_true nofun nofun
  | err e => exact iff_of_true nofun nofun
  | panic => exact iff_of_false (fun h => h rfl) fun h => h rfl

lemma timely_iff (hclock : ∀ i, (clock i).Sane) : Timely clock data ↔
    (∀ secs, observedSecs data = some secs → secs.toNat < 2 ^ 63) ∧
      ∀ secs, registeredSecs data = some secs → secs.toNat < 2 ^ 63 := by
  constructor
  · intro h
    exact ⟨fun secs hsecs => (representable_iff (hclock 1)).mp (h.observed secs hsecs),
      fun secs hsecs => (representable_iff (hclock 0)).mp (h.registered secs hsecs)⟩
  · rintro ⟨hobserved, hregistered⟩
    exact ⟨fun secs hsecs => (representable_iff (hclock 1)).mpr (hobserved secs hsecs),
      fun secs hsecs => (representable_iff (hclock 0)).mpr (hregistered secs hsecs)⟩

end

/-- Decoding, a read of the ring and a sweep return exactly where the clocks can show the times in the bytes. On a machine
whose clocks are sane, these are the seconds of an `i64`. -/
theorem decode_total (clock : ℕ → Reading) :
    (∀ data, decodeEntry clock data ≠ .panic ↔ Timely clock data) ∧
    ((∀ i, (clock i).Sane) → ∀ data, Timely clock data ↔
      (∀ secs, observedSecs data = some secs → secs.toNat < 2 ^ 63) ∧
        ∀ secs, registeredSecs data = some secs → secs.toNat < 2 ^ 63) ∧
    (∀ (R : Type) [ChordRpc R] (s : DhtStore R) (addr : IPv8Address), s.get clock addr ≠ .panic ↔
      ∀ data, ChordRpc.dhtGet s.rpc s.node (addrToKey addr) = some data → Timely clock data) ∧
    ∀ (s : DhtStore InProcessRpc) (clock : NodeId → ℕ → Reading) (now : Instant),
      (∃ s' removed, s.sweepExpired clock now = .ok (s', removed)) ↔
        ∀ key data, s.slots[key]? = some data → Timely (clock key) data := by
  refine ⟨fun data => decodeEntry_ne_panic, fun hclock data => timely_iff hclock, fun R _ s addr => get_ne_panic s clock addr,
    fun s clock now => ?_⟩
  rw [DhtStore.sweepExpired_returns]
  exact forall₃_congr fun key data _ => slotExpired_ne_panic

/-- An entry of a node without a name, registered at these seconds. -/
def registeredAtSecs (secs : UInt64) : Bytes :=
  List.replicate 32 0 ++ [0, 0] ++ [0, 0] ++ [1] ++ le32 0 ++ le64 secs ++ le64 300 ++ [0] ++ [0, 0]

lemma times_registeredAtSecs : observedSecs (registeredAtSecs 0x7FFFFFFFFFFFFFFF) = none ∧
    registeredSecs (registeredAtSecs 0x7FFFFFFFFFFFFFFF) = some 0x7FFFFFFFFFFFFFFF :=
  ⟨by decide +kernel, by decide +kernel⟩

/-- The last seconds that the clocks can show. -/
theorem decode_total_sample : decodeEntry (steadyClock 300000000000) (registeredAtSecs 0x7FFFFFFFFFFFFFFF) ≠ .panic := by
  obtain ⟨hobserved, hregistered⟩ := times_registeredAtSecs
  have hclock : ∀ i, (steadyClock 300000000000 i).Sane := sane_steadyClock (by decide) (by decide)
  refine ((decode_total _).1 _).mpr (((decode_total _).2.1 hclock _).mpr ⟨?_, ?_⟩)
  · rw [hobserved]
    nofun
  · rw [hregistered]
    rintro _ ⟨⟩
    decide

/-- A node with such a slot in its table, which any node can put there, panics when it reads or sweeps. -/
theorem decode_panics : decodeEntry (steadyClock 300000000000) (registeredAtSecs 0xFFFFFFFFFFFFFFFF) = .panic := by
  decide +kernel

end IPv8Plus.Cloud
