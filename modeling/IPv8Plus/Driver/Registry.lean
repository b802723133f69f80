import IPv8Plus.Driver.Transport

/-!
# The registry of network cards

`driver.c`, from `IPv8BindAdapterEx` to `IPv8CloseAdapterCompleteEx`: NDIS binds the driver to network cards and unbinds
it, and what it was asked to do later is done in calls of their own. Any number of calls run at the same time; one step is
what a call does up to the next place where another can come between. Memory of contexts is a map from handles to contents,
and an allocator gives out no handle that is in use. What NDIS may do is the guard of a step: it completes a call once, it
unbinds what is bound, and a close is complete after the requests of the binding.
-/

namespace IPv8Plus.Driver
open Lib

/-- `NDIS_STATUS`, as far as the driver tells the values apart. -/
inductive NdisStatus where
  | success
  | pending
  | failure
  | resources
  | other (code : UInt32)
  deriving DecidableEq, Repr

/-- `IPV8_OPEN_CONTEXT`. The name stands in a buffer of its own, which is allocated and freed with the context. -/
structure OpenContext where
  adapterName : List UInt16
  ifIndex : UInt32
  bindContext : Option Nat := none
  bound : Bool := false
  packetsReceived : UInt64 := 0
  txPackets : UInt64 := 0
  rxDropped : UInt64 := 0
  txDropped : UInt64 := 0
  currentMac : Option (Arr UInt8 6) := none
  deriving DecidableEq, Repr

inductive Oid where
  | currentAddress
  | currentPacketFilter
  deriving DecidableEq, Repr

/-- A request on its way, `IPV8_OID_WRAPPER`. -/
structure OidWrapper where
  openContext : Nat
  serial : Nat
  oid : Oid
  deriving DecidableEq, Repr

/-- What NDIS answers to a request. -/
structure OidResult where
  status : NdisStatus
  bytesWritten : Nat
  macBuf : Arr UInt8 6
  deriving DecidableEq, Repr

/-- What happens to a context next: the open is pending, `IPv8FinishOpen` goes on at one of its calls, the card is bound,
`IPv8UnbindAdapterEx` goes on, or the close is pending. -/
inductive Stage where
  | opening
  | inserting (bindContext : Option Nat)
  | counting (bindContext : Option Nat)
  | queryingMac (bindContext : Option Nat)
  | settingFilter (bindContext : Option Nat)
  | completing (bindContext : Option Nat)
  | bound
  | uncounting
  | removing
  | closingAdapter
  | closing
  deriving DecidableEq, Repr

namespace Stage

/-- The context is linked in the list. -/
def listed : Stage → Bool
  | .counting _ | .queryingMac _ | .settingFilter _ | .completing _ | .bound | .uncounting | .removing => true
  | _ => false

/-- And counted. -/
def counted : Stage → Bool
  | .queryingMac _ | .settingFilter _ | .completing _ | .bound | .uncounting => true
  | _ => false

/-- Requests may be on their way. -/
def asked : Stage → Bool
  | .settingFilter _ | .completing _ | .bound | .uncounting | .removing | .closingAdapter | .closing => true
  | _ => false

/-- NDIS waits for the end of the bind. -/
def unfinished : Stage → Bool
  | .opening | .inserting _ | .counting _ | .queryingMac _ | .settingFilter _ | .completing _ => true
  | _ => false

/-- `Bound` in the context. -/
def flag : Stage → Bool
  | .counting _ | .queryingMac _ | .settingFilter _ | .completing _ | .bound => true
  | _ => false

/-- The context that the bind will be completed with. -/
def carried : Stage → Option (Option Nat)
  | .inserting b | .counting b | .queryingMac b | .settingFilter b | .completing b => some b
  | _ => none

end Stage

/-- A bind that is told that the open is pending, and still has to keep its context. -/
structure Storing where
  openContext : Nat
  serial : Nat
  bindContext : Nat
  deriving DecidableEq, Repr

/-- A call of `NdisCompleteBindAdapterEx`. -/
structure Completion where
  serial : Nat
  bindContext : Option Nat
  status : NdisStatus
  deriving DecidableEq, Repr

/-- `owner` says which bind a context belongs to, and what happens to it next. From `opened` on it is a record: the contexts
of the binds that got to the open, the binds that were refused before, the ends of the others, those whose open failed later,
those whose open was complete before its context was kept, and those for which freed memory was used. -/
structure Registry where
  contexts : Nat → Option OpenContext := fun _ => none
  openList : List Nat := []
  openCount : UInt32 := 0
  unloading : Bool := false
  nextIfIndex : UInt32 := 0
  owner : Nat → Option (Nat × Stage) := fun _ => none
  storing : List Storing := []
  failing : List (Nat × NdisStatus) := []
  wrappers : List OidWrapper := []
  opened : List Nat := []
  refused : List (Nat × NdisStatus) := []
  completed : List Completion := []
  failed : List Nat := []
  overtaken : List Nat := []
  stale : List Nat := []

/-- The steps. Allocation may fail, `opened` and `result` are what NDIS answers at once, and `seen` is what stands in freed
memory. -/
inductive BindAction where
  | bindAdapter (bindContext : Nat) (adapterName : List UInt16) (context : Option Nat) (named : Bool) (opened : NdisStatus)
  | storeBindContext (k : Nat)
  | openComplete (h : Nat) (status : NdisStatus)
  | completeFailed (k : Nat) (seen : Option Nat)
  | insertOpen (h : Nat)
  | countOpen (h : Nat)
  | queryCurrentMac (h : Nat) (allocated : Bool) (result : OidResult)
  | setPacketFilter (h : Nat) (allocated : Bool) (result : OidResult)
  | completeBind (h : Nat)
  | oidRequestComplete (k : Nat) (result : OidResult)
  | unbindAdapter (h : Nat)
  | uncountOpen (h : Nat)
  | removeOpen (h : Nat)
  | closeAdapter (h : Nat) (status : NdisStatus)
  | closeComplete (h : Nat)
  | unload
  deriving DecidableEq, Repr

namespace Registry

/-- The context belongs to the bind. -/
def owns (s : Registry) (h serial : Nat) : Bool := (s.owner h).map Prod.fst = some serial

/-- Write to a context, wherever the pointer leads. -/
def write (s : Registry) (h serial : Nat) (f : OpenContext → OpenContext) : Registry :=
  { s with
    contexts := Function.update s.contexts h ((s.contexts h).map f)
    stale := if s.owns h serial then s.stale else s.stale ++ [serial] }

/-- The context goes on. -/
def advance (s : Registry) (h serial : Nat) (stage : Stage) : Registry :=
  { s with owner := Function.update s.owner h (some (serial, stage)) }

/-- The name and the context are freed. -/
def free (s : Registry) (h serial : Nat) : Registry :=
  { s with
    contexts := Function.update s.contexts h none
    owner := Function.update s.owner h none
    stale := if (s.contexts h).isSome then s.stale else s.stale ++ [serial] }

/-- `NdisCompleteBindAdapterEx` -/
def complete (s : Registry) (serial : Nat) (bindContext : Option Nat) (status : NdisStatus) : Registry × Option Completion :=
  ({ s with completed := s.completed ++ [⟨serial, bindContext, status⟩] }, some ⟨serial, bindContext, status⟩)

/-- A bind that does not get to the open. -/
def refuse (s : Registry) (bindContext : Nat) (status : NdisStatus) : Registry × Option Completion :=
  ({ s with refused := s.refused ++ [(bindContext, status)] }, none)

/-- A context of its own for a bind, with the next number. -/
def allocate (s : Registry) (bindContext : Nat) (adapterName : List UInt16) (h : Nat) (stage : Stage) : Registry :=
  { s with
    contexts := Function.update s.contexts h (some { adapterName, ifIndex := s.nextIfIndex + 1 })
    owner := Function.update s.owner h (some (s.opened.length, stage))
    nextIfIndex := s.nextIfIndex + 1
    opened := s.opened ++ [bindContext] }

/-- `IPv8BindAdapterEx`, up to what follows the open. Where the open fails at once, the context is freed again. -/
def bindAdapter (s : Registry) (bindContext : Nat) (adapterName : List UInt16) (context : Option Nat) (named : Bool)
    (opened : NdisStatus) : Registry × Option Completion :=
  if s.unloading then s.refuse bindContext .failure
  else
    match context with
    | none => s.refuse bindContext .resources
    | some h =>
      if ¬ named then s.refuse bindContext .resources
      else if (s.contexts h).isSome then (s, none)
      else
        match opened with
        | .pending =>
          ({ s.allocate bindContext adapterName h .opening with
              storing := s.storing ++ [⟨h, s.opened.length, bindContext⟩] }, none)
        | .success => (s.allocate bindContext adapterName h (.inserting (some bindContext)), none)
        | status =>
          { s with nextIfIndex := s.nextIfIndex + 1, opened := s.opened ++ [bindContext] }.complete s.opened.length
            (some bindContext) status

/-- The rest of `IPv8BindAdapterEx` where the open is pending. -/
def storeBindContext (s : Registry) (k : Nat) : Registry × Option Completion :=
  match s.storing[k]? with
  | some x =>
    ({ s.write x.openContext x.serial fun c => { c with bindContext := some x.bindContext } with
        storing := s.storing.eraseIdx k }, none)
  | none => (s, none)

/-- The bind has not kept its context yet. -/
def late (s : Registry) (serial : Nat) : Bool := s.storing.any fun x => x.serial = serial

/-- `IPv8OpenAdapterCompleteEx`, up to `IPv8FinishOpen` or past the frees. -/
def openComplete (s : Registry) (h : Nat) (status : NdisStatus) : Registry × Option Completion :=
  match s.owner h with
  | some (n, .opening) =>
    let s := { s with overtaken := if s.late n then s.overtaken ++ [n] else s.overtaken }
    if status = .success then (s.advance h n (.inserting ((s.contexts h).bind OpenContext.bindContext)), none)
    else ({ s.free h n with failing := s.failing ++ [(n, status)], failed := s.failed ++ [n] }, none)
  | _ => (s, none)

/-- The context has been freed, and its `BindContext` is read. -/
def completeFailed (s : Registry) (k : Nat) (seen : Option Nat) : Registry × Option Completion :=
  match s.failing[k]? with
  | some (n, status) => { s with failing := s.failing.eraseIdx k, stale := s.stale ++ [n] }.complete n seen status
  | none => (s, none)

/-- `IPv8FinishOpen`: the list. -/
def insertOpen (s : Registry) (h : Nat) : Registry × Option Completion :=
  match s.owner h with
  | some (n, .inserting b) =>
    ({ (s.write h n fun c => { c with bound := true }).advance h n (.counting b) with openList := s.openList ++ [h] }, none)
  | _ => (s, none)

/-- `IPv8FinishOpen`: the count. -/
def countOpen (s : Registry) (h : Nat) : Registry × Option Completion :=
  match s.owner h with
  | some (n, .counting b) => ({ s.advance h n (.queryingMac b) with openCount := s.openCount + 1 }, none)
  | _ => (s, none)

/-- `IPv8QueryMacComplete`, without the free of the wrapper. -/
def queryMacComplete (s : Registry) (h serial : Nat) (result : OidResult) : Registry :=
  if result.status = .success ∧ 6 ≤ result.bytesWritten then s.write h serial fun c => { c with currentMac := some result.macBuf }
  else s

/-- `IPv8QueryCurrentMac`: without memory nothing is asked. -/
def queryCurrentMac (s : Registry) (h : Nat) (allocated : Bool) (result : OidResult) : Registry × Option Completion :=
  match s.owner h with
  | some (n, .queryingMac b) =>
    let s := s.advance h n (.settingFilter b)
    if ¬ allocated then (s, none)
    else if result.status = .pending then ({ s with wrappers := s.wrappers ++ [⟨h, n, .currentAddress⟩] }, none)
    else (s.queryMacComplete h n result, none)
  | _ => (s, none)

/-- `IPv8SetPacketFilter` -/
def setPacketFilter (s : Registry) (h : Nat) (allocated : Bool) (result : OidResult) : Registry × Option Completion :=
  match s.owner h with
  | some (n, .settingFilter b) =>
    let s := s.advance h n (.completing b)
    if allocated ∧ result.status = .pending then ({ s with wrappers := s.wrappers ++ [⟨h, n, .currentPacketFilter⟩] }, none)
    else (s, none)
  | _ => (s, none)

/-- The end of `IPv8FinishOpen`. -/
def completeBind (s : Registry) (h : Nat) : Registry × Option Completion :=
  match s.owner h with
  | some (n, .completing b) => (s.advance h n .bound).complete n b .success
  | _ => (s, none)

/-- `IPv8OidRequestComplete` -/
def oidRequestComplete (s : Registry) (k : Nat) (result : OidResult) : Registry × Option Completion :=
  match s.wrappers[k]? with
  | some x =>
    let s := { s with wrappers := s.wrappers.eraseIdx k }
    match x.oid with
    | .currentPacketFilter => (s, none)
    | .currentAddress => (s.queryMacComplete x.openContext x.serial result, none)
  | none => (s, none)

/-- `IPv8UnbindAdapterEx`: the flag. -/
def unbindAdapter (s : Registry) (h : Nat) : Registry × Option Completion :=
  match s.owner h with
  | some (n, .bound) => ((s.write h n fun c => { c with bound := false }).advance h n .uncounting, none)
  | _ => (s, none)

/-- `IPv8UnbindAdapterEx`: the count. -/
def uncountOpen (s : Registry) (h : Nat) : Registry × Option Completion :=
  match s.owner h with
  | some (n, .uncounting) => ({ s.advance h n .removing with openCount := s.openCount - 1 }, none)
  | _ => (s, none)

/-- `IPv8UnbindAdapterEx`: the list. -/
def removeOpen (s : Registry) (h : Nat) : Registry × Option Completion :=
  match s.owner h with
  | some (n, .removing) => ({ s.advance h n .closingAdapter with openList := s.openList.erase h }, none)
  | _ => (s, none)

/-- No request of the binding is on its way. -/
def quiet (s : Registry) (h : Nat) : Bool := s.wrappers.all fun x => x.openContext ≠ h

/-- `IPv8UnbindAdapterEx`: the close. NDIS is done at once only if nothing is on its way. -/
def closeAdapter (s : Registry) (h : Nat) (status : NdisStatus) : Registry × Option Completion :=
  match s.owner h with
  | some (n, .closingAdapter) =>
    if status = .pending then (s.advance h n .closing, none)
    else if s.quiet h then (s.free h n, none)
    else (s, none)
  | _ => (s, none)

/-- `IPv8CloseAdapterCompleteEx` -/
def closeComplete (s : Registry) (h : Nat) : Registry × Option Completion :=
  match s.owner h with
  | some (n, .closing) => if s.quiet h then (s.free h n, none) else (s, none)
  | _ => (s, none)

def step (s : Registry) : BindAction → Registry × Option Completion
  | .bindAdapter bindContext adapterName context named opened => s.bindAdapter bindContext adapterName context named opened
  | .storeBindContext k => s.storeBindContext k
  | .openComplete h status => s.openComplete h status
  | .completeFailed k seen => s.completeFailed k seen
  | .insertOpen h => s.insertOpen h
  | .countOpen h => s.countOpen h
  | .queryCurrentMac h allocated result => s.queryCurrentMac h allocated result
  | .setPacketFilter h allocated result => s.setPacketFilter h allocated result
  | .completeBind h => s.completeBind h
  | .oidRequestComplete k result => s.oidRequestComplete k result
  | .unbindAdapter h => s.unbindAdapter h
  | .uncountOpen h => s.uncountOpen h
  | .removeOpen h => s.removeOpen h
  | .closeAdapter h status => s.closeAdapter h status
  | .closeComplete h => s.closeComplete h
  | .unload => ({ s with unloading := true }, none)

/-! ## The list, the count and the memory -/

/-- The context is counted. -/
def isCounted (s : Registry) (h : Nat) : Bool := (s.owner h).any fun x => x.2.counted

/-- Every context is in the hands of NDIS or of a call, the list links what is live, and the count is that of the list but
for the calls between the two. -/
structure Registered (s : Registry) : Prop where
  live : ∀ h, (s.contexts h).isSome = (s.owner h).isSome
  numbered : ∀ h n st, s.owner h = some (n, st) → n < s.opened.length
  described : ∀ h n st c, s.owner h = some (n, st) → s.contexts h = some c → c.ifIndex = UInt32.ofNat (n + 1) ∧ c.bound = st.flag
  next : s.nextIfIndex = UInt32.ofNat s.opened.length
  distinct : ∀ h h' n st st', s.owner h = some (n, st) → s.owner h' = some (n, st') → h = h'
  nodup : s.openList.Nodup
  listed : ∀ h, h ∈ s.openList ↔ ∃ n st, s.owner h = some (n, st) ∧ st.listed
  count : s.openCount = UInt32.ofNat (s.openList.countP s.isCounted)
  asked : ∀ x ∈ s.wrappers, ∃ st, s.owner x.openContext = some (x.serial, st) ∧ st.asked
  storing : ∀ x ∈ s.storing, s.owner x.openContext = some (x.serial, .opening) ∨ x.serial ∈ s.overtaken
  failing : ∀ x ∈ s.failing, x.1 ∈ s.failed
  stale : ∀ n ∈ s.stale, n ∈ s.failed ∨ n ∈ s.overtaken

variable {s : Registry} {h n k : Nat} {st st' : Stage} {c : OpenContext} {f : OpenContext → OpenContext}

lemma registered_empty : Registered {} where
  live _ := rfl
  numbered _ _ _ hx := by cases hx
  described _ _ _ _ hx := by cases hx
  next := rfl
  distinct _ _ _ _ _ hx := by cases hx
  nodup := List.nodup_nil
  listed h := by
    constructor
    · intro hx
      cases hx
    · rintro ⟨n, st, hx, -⟩
      cases hx
  count := rfl
  asked x hx := by cases hx
  storing x hx := by cases hx
  failing x hx := by cases hx
  stale n hx := by cases hx

/-- A list without repetitions is counted with one element apart. -/
lemma countP_apart {p q : Nat → Bool} {l : List Nat} (hl : l.Nodup) (hmem : h ∈ l) (hpq : ∀ i, i ≠ h → p i = q i) :
    l.countP p = (l.erase h).countP q + (p h).toNat := by
  have hrest : (l.erase h).countP p = (l.erase h).countP q := by
    refine List.countP_congr fun i hi => ?_
    rw [hpq i (hl.mem_erase_iff.mp hi).1]
  rw [(List.perm_cons_erase hmem).countP_eq p, List.countP_cons, hrest]
  cases p h with
  | true => rfl
  | false => rfl

/-- What an owned context does on its way, with the list and the count. -/
def move (s : Registry) (h n : Nat) (st : Stage) (f : OpenContext → OpenContext) (openList : List Nat) (openCount : UInt32) :
    Registry :=
  { s with
    contexts := Function.update s.contexts h ((s.contexts h).map f)
    owner := Function.update s.owner h (some (n, st))
    openList
    openCount }

lemma owner_move {openList : List Nat} {openCount : UInt32} :
    (s.move h n st f openList openCount).owner = Function.update s.owner h (some (n, st)) := rfl

lemma owner_free : (s.free h n).owner = Function.update s.owner h none := rfl

lemma owner_allocate {bindContext : Nat} {adapterName : List UInt16} :
    (s.allocate bindContext adapterName h st).owner = Function.update s.owner h (some (s.opened.length, st)) := rfl

/-- A context that goes on, where the list and the count follow. -/
lemma Registered.move {openList : List Nat} {openCount : UInt32} (hs : s.Registered) (howner : s.owner h = some (n, st))
    (hf : ∀ c : OpenContext, c.bound = st.flag → (f c).ifIndex = c.ifIndex ∧ (f c).bound = st'.flag)
    (hasked : st.asked → st'.asked) (hlate : st = .opening → s.late n → n ∈ s.overtaken)
    (hnodup : openList.Nodup) (hself : h ∈ openList ↔ st'.listed) (hother : ∀ i, i ≠ h → (i ∈ openList ↔ i ∈ s.openList))
    (hcount : openCount = UInt32.ofNat (openList.countP (s.move h n st' f openList openCount).isCounted)) :
    (s.move h n st' f openList openCount).Registered where
  live i := by
    have hi := hs.live i
    simp only [Registry.move, Function.update_apply]
    split
    · next heq =>
      subst heq
      rw [howner] at hi
      rw [Option.isSome_map, hi]
      rfl
    · exact hi
  numbered i m t hi := by
    simp only [Registry.move, Function.update_apply] at hi
    split at hi
    · cases hi
      exact hs.numbered h n st howner
    · exact hs.numbered i m t hi
  described i m t c hi hc := by
    simp only [Registry.move, Function.update_apply] at hi hc
    split at hi
    · next heq =>
      cases hi
      rw [if_pos heq, Option.map_eq_some_iff] at hc
      obtain ⟨c, hc, rfl⟩ := hc
      obtain ⟨hindex, hbound⟩ := hs.described h n st c howner hc
      obtain ⟨hindex', hbound'⟩ := hf c hbound
      exact ⟨hindex'.trans hindex, hbound'⟩
    · next hne =>
      rw [if_neg hne] at hc
      exact hs.described i m t c hi hc
  next := hs.next
  distinct i j m t t' hi hj := by
    have hold : ∀ i m t, Function.update s.owner h (some (n, st')) i = some (m, t) → ∃ t, s.owner i = some (m, t) := by
      intro i m t hi
      rw [Function.update_apply] at hi
      split at hi
      · next heq =>
        cases hi
        exact ⟨st, heq ▸ howner⟩
      · exact ⟨t, hi⟩
    obtain ⟨t, hi⟩ := hold i m t hi
    obtain ⟨t', hj⟩ := hold j m t' hj
    exact hs.distinct i j m t t' hi hj
  nodup := hnodup
  listed i := by
    simp only [Registry.move, Function.update_apply]
    split
    · next heq =>
      subst heq
      refine hself.trans ⟨fun hst => ⟨n, st', rfl, hst⟩, ?_⟩
      rintro ⟨m, t, ht, hst⟩
      cases ht
      exact hst
    · next hne => exact (hother i hne).trans (hs.listed i)
  count := hcount
  asked x hx := by
    obtain ⟨t, hx, ht⟩ := hs.asked x hx
    simp only [Registry.move, Function.update_apply]
    split
    · next heq =>
      rw [heq, howner] at hx
      cases hx
      exact ⟨st', rfl, hasked ht⟩
    · exact ⟨t, hx, ht⟩
  storing x hx := by
    simp only [Registry.move, Function.update_apply]
    cases hs.storing x hx with
    | inl hopening =>
      split
      · next heq =>
        rw [heq, howner] at hopening
        cases hopening
        exact .inr (hlate rfl (List.any_eq_true.mpr ⟨x, hx, decide_eq_true rfl⟩))
      · exact .inl hopening
    | inr hover => exact .inr hover
  failing := hs.failing
  stale := hs.stale

lemma isCounted_move {openList : List Nat} {openCount : UInt32} {i : Nat} (hne : i ≠ h) :
    (s.move h n st f openList openCount).isCounted i = s.isCounted i := by
  unfold isCounted
  rw [owner_move, Function.update_of_ne hne]

lemma isCounted_move_self {openList : List Nat} {openCount : UInt32} :
    (s.move h n st f openList openCount).isCounted h = st.counted := by
  unfold isCounted
  rw [owner_move, Function.update_self]
  rfl

lemma isCounted_of_owner (howner : s.owner h = some (n, st)) : s.isCounted h = st.counted := by
  unfold isCounted
  rw [howner]
  rfl

/-- Where the context stays in the list, or out of it, and is counted as before. -/
lemma Registered.stay (hs : s.Registered) (howner : s.owner h = some (n, st))
    (hf : ∀ c : OpenContext, c.bound = st.flag → (f c).ifIndex = c.ifIndex ∧ (f c).bound = st'.flag)
    (hasked : st.asked → st'.asked) (hlate : st = .opening → s.late n → n ∈ s.overtaken)
    (hlisted : st'.listed = st.listed) (hcounted : st'.counted = st.counted) :
    (s.move h n st' f s.openList s.openCount).Registered := by
  refine hs.move howner hf hasked hlate hs.nodup ?_ (fun _ _ => Iff.rfl) ?_
  · rw [hlisted, hs.listed h]
    constructor
    · rintro ⟨m, t, hm, ht⟩
      rw [howner] at hm
      cases hm
      exact ht
    · intro hst
      exact ⟨n, st, howner, hst⟩
  · rw [hs.count]
    refine congrArg UInt32.ofNat (List.countP_congr fun i _ => ?_)
    by_cases heq : i = h
    · rw [heq, isCounted_move_self, isCounted_of_owner howner, hcounted]
    · rw [isCounted_move heq]

lemma move_id : s.move h n st id s.openList s.openCount = s.advance h n st := by
  unfold Registry.move advance
  rw [Option.map_id_fun, id_eq, Function.update_eq_self]

lemma Registered.advance (hs : s.Registered) (howner : s.owner h = some (n, st)) (hflag : st'.flag = st.flag)
    (hasked : st.asked → st'.asked) (hlate : st = .opening → s.late n → n ∈ s.overtaken)
    (hlisted : st'.listed = st.listed) (hcounted : st'.counted = st.counted) : (s.advance h n st').Registered := by
  have hmove := hs.stay (f := id) howner (fun c hc => ⟨rfl, hc.trans hflag.symm⟩) hasked hlate hlisted hcounted
  rw [move_id] at hmove
  exact hmove

/-- A write that leaves number and flag alone, if freed memory is used for no other bind than those. -/
lemma Registered.write (hs : s.Registered) (hf : ∀ c, (f c).ifIndex = c.ifIndex ∧ (f c).bound = c.bound)
    (howns : s.owns h n = false → n ∈ s.failed ∨ n ∈ s.overtaken) : (s.write h n f).Registered where
  live i := by
    have hi := hs.live i
    simp only [Registry.write, Function.update_apply]
    split
    · next heq =>
      subst heq
      rw [Option.isSome_map]
      exact hi
    · exact hi
  numbered := hs.numbered
  described i m t c hi hc := by
    simp only [Registry.write, Function.update_apply] at hi hc
    split at hc
    · next heq =>
      subst heq
      obtain ⟨c', hc', rfl⟩ := Option.map_eq_some_iff.mp hc
      rw [(hf c').1, (hf c').2]
      exact hs.described i m t c' hi hc'
    · exact hs.described i m t c hi hc
  next := hs.next
  distinct := hs.distinct
  nodup := hs.nodup
  listed := hs.listed
  count := hs.count
  asked := hs.asked
  storing := hs.storing
  failing := hs.failing
  stale m hm := by
    simp only [Registry.write] at hm
    split at hm
    · exact hs.stale m hm
    · next hnot =>
      cases List.mem_append.mp hm with
      | inl hm => exact hs.stale m hm
      | inr hm =>
        rw [List.mem_singleton.mp hm]
        exact howns (Bool.eq_false_iff.mpr hnot)

/-- A context out of the list is freed, and nothing of it is left. -/
lemma Registered.free (hs : s.Registered) (howner : s.owner h = some (n, st)) (hst : st.listed = false)
    (hquiet : ∀ x ∈ s.wrappers, x.openContext ≠ h) (hlate : st = .opening → s.late n → n ∈ s.overtaken) :
    (s.free h n).Registered where
  live i := by
    simp only [Registry.free, Function.update_apply]
    split
    · rfl
    · exact hs.live i
  numbered i m t hi := by
    simp only [Registry.free, Function.update_apply] at hi
    split at hi
    · cases hi
    · exact hs.numbered i m t hi
  described i m t c hi hc := by
    simp only [Registry.free, Function.update_apply] at hi hc
    split at hi
    · cases hi
    · next hne =>
      rw [if_neg hne] at hc
      exact hs.described i m t c hi hc
  next := hs.next
  distinct i j m t t' hi hj := by
    simp only [Registry.free, Function.update_apply] at hi hj
    split at hi
    · cases hi
    · split at hj
      · cases hj
      · exact hs.distinct i j m t t' hi hj
  nodup := hs.nodup
  listed i := by
    refine (hs.listed i).trans ?_
    simp only [Registry.free, Function.update_apply]
    split
    · next heq =>
      subst heq
      rw [howner]
      constructor
      · rintro ⟨m, t, hm, ht⟩
        cases hm
        rw [hst] at ht
        cases ht
      · rintro ⟨m, t, hm, -⟩
        cases hm
    · rfl
  count := by
    refine hs.count.trans (congrArg UInt32.ofNat (List.countP_congr fun i hi => ?_))
    have hne : i ≠ h := by
      rintro rfl
      obtain ⟨m, t, hm, ht⟩ := (hs.listed i).mp hi
      rw [howner] at hm
      cases hm
      rw [hst] at ht
      cases ht
    unfold isCounted
    rw [owner_free, Function.update_of_ne hne]
  asked x hx := by
    obtain ⟨t, ht⟩ := hs.asked x hx
    refine ⟨t, ?_⟩
    rw [owner_free, Function.update_of_ne (hquiet x hx)]
    exact ht
  storing x hx := by
    simp only [Registry.free, Function.update_apply]
    cases hs.storing x hx with
    | inl hopening =>
      split
      · next heq =>
        rw [heq, howner] at hopening
        cases hopening
        exact .inr (hlate rfl (List.any_eq_true.mpr ⟨x, hx, decide_eq_true rfl⟩))
      · exact .inl hopening
    | inr hover => exact .inr hover
  failing := hs.failing
  stale := by
    have hlive := hs.live h
    rw [howner] at hlive
    simp only [Registry.free, hlive, Option.isSome_some, if_true]
    exact hs.stale

/-- What is free belongs to no bind. -/
lemma owner_eq_none (hs : s.Registered) (hfree : s.contexts h = none) : s.owner h = none := by
  have hlive := hs.live h
  rw [hfree] at hlive
  exact Option.isNone_iff_eq_none.mp (Option.isSome_eq_false_iff.mp hlive.symm)

/-- A context of its own for a new bind. -/
lemma Registered.allocate {bindContext : Nat} {adapterName : List UInt16} (hs : s.Registered) (hfree : s.contexts h = none)
    (hst : st.flag = false) (hlisted : st.listed = false) : (s.allocate bindContext adapterName h st).Registered := by
  have hnone := owner_eq_none hs hfree
  have hnext : s.nextIfIndex + 1 = UInt32.ofNat (s.opened.length + 1) := by
    rw [hs.next, UInt32.ofNat_add]
    rfl
  have hfresh : ∀ i m t, s.owner i = some (m, t) → i ≠ h ∧ m ≠ s.opened.length := by
    intro i m t hi
    refine ⟨?_, (hs.numbered i m t hi).ne⟩
    rintro rfl
    rw [hnone] at hi
    cases hi
  constructor
  · intro i
    simp only [Registry.allocate, Function.update_apply]
    split
    · rfl
    · exact hs.live i
  · intro i m t hi
    simp only [Registry.allocate, Function.update_apply] at hi ⊢
    rw [List.length_append, List.length_singleton]
    split at hi
    · cases hi
      exact Nat.lt_succ_self _
    · exact (hs.numbered i m t hi).trans (Nat.lt_succ_self _)
  · intro i m t c hi hc
    simp only [Registry.allocate, Function.update_apply] at hi hc
    split at hi
    · next heq =>
      rw [if_pos heq] at hc
      cases hi
      cases hc
      exact ⟨hnext, hst.symm⟩
    · next hne =>
      rw [if_neg hne] at hc
      exact hs.described i m t c hi hc
  · simp only [Registry.allocate]
    rw [hnext, List.length_append, List.length_singleton]
  · intro i j m t t' hi hj
    simp only [Registry.allocate, Function.update_apply] at hi hj
    split at hi
    · next heq =>
      cases hi
      split at hj
      · next heq' => exact heq.trans heq'.symm
      · exact absurd rfl (hfresh j _ t' hj).2
    · split at hj
      · cases hj
        exact absurd rfl (hfresh i _ t hi).2
      · exact hs.distinct i j m t t' hi hj
  · exact hs.nodup
  · intro i
    refine (hs.listed i).trans ?_
    simp only [Registry.allocate, Function.update_apply]
    split
    · next heq =>
      subst heq
      rw [hnone]
      constructor
      · rintro ⟨m, t, hm, -⟩
        cases hm
      · rintro ⟨m, t, hm, ht⟩
        cases hm
        rw [hlisted] at ht
        cases ht
    · rfl
  · refine hs.count.trans (congrArg UInt32.ofNat (List.countP_congr fun i hi => ?_))
    obtain ⟨m, t, hm, -⟩ := (hs.listed i).mp hi
    unfold isCounted
    rw [owner_allocate, Function.update_of_ne (hfresh i m t hm).1]
  · intro x hx
    obtain ⟨t, ht⟩ := hs.asked x hx
    refine ⟨t, ?_⟩
    rw [owner_allocate, Function.update_of_ne (hfresh _ _ _ ht.1).1]
    exact ht
  · intro x hx
    refine (hs.storing x hx).imp_left fun hopening => ?_
    rw [owner_allocate, Function.update_of_ne (hfresh _ _ _ hopening).1]
    exact hopening
  · exact hs.failing
  · exact hs.stale

/-- A request on its way for a context that asks. -/
lemma Registered.ask {oid : Oid} (hs : s.Registered) (howner : s.owner h = some (n, st)) (hst : st.asked) :
    Registered { s with wrappers := s.wrappers ++ [⟨h, n, oid⟩] } :=
  { hs with
    asked := by
      intro x hx
      cases List.mem_append.mp hx with
      | inl hx => exact hs.asked x hx
      | inr hx =>
        rw [List.mem_singleton.mp hx]
        exact ⟨st, howner, hst⟩ }

lemma owns_of_owner (howner : s.owner h = some (n, st)) : s.owns h n = true := by
  unfold owns
  rw [howner]
  exact decide_eq_true rfl

lemma registered_complete {bindContext : Option Nat} {status : NdisStatus} (hs : s.Registered) :
    (s.complete n bindContext status).1.Registered := { hs with }

lemma registered_refuse {bindContext : Nat} {status : NdisStatus} (hs : s.Registered) :
    (s.refuse bindContext status).1.Registered := { hs with }

lemma registered_bindAdapter (hs : s.Registered) (bindContext : Nat) (adapterName : List UInt16) (context : Option Nat) (named : Bool)
    (opened : NdisStatus) : (s.bindAdapter bindContext adapterName context named opened).1.Registered := by
  unfold bindAdapter
  split
  · exact registered_refuse hs
  · cases context with
    | none => exact registered_refuse hs
    | some h =>
      dsimp only
      split
      · exact registered_refuse hs
      · split
        · exact hs
        · next hfree =>
          have hfree := Option.not_isSome_iff_eq_none.mp hfree
          split
          · have hnew : (s.allocate bindContext adapterName h .opening).Registered := hs.allocate hfree rfl rfl
            refine { hnew with storing := fun x hx => ?_ }
            cases List.mem_append.mp hx with
            | inl hx => exact hnew.storing x hx
            | inr hx =>
              rw [List.mem_singleton.mp hx]
              exact .inl (Function.update_self ..)
          · exact hs.allocate hfree rfl rfl
          · refine registered_complete { hs with numbered := fun i m t hi => ?_, next := ?_ }
            · rw [List.length_append]
              exact (hs.numbered i m t hi).trans_le (Nat.le_add_right _ _)
            · dsimp only
              rw [hs.next, List.length_append, List.length_singleton, UInt32.ofNat_add]
              rfl

lemma registered_storeBindContext (hs : s.Registered) (k : Nat) : (s.storeBindContext k).1.Registered := by
  unfold storeBindContext
  cases hk : s.storing[k]? with
  | none => exact hs
  | some x =>
    have hx := hs.storing x (List.mem_of_getElem? hk)
    have hwrite := hs.write (h := x.openContext) (n := x.serial) (f := fun c => { c with bindContext := some x.bindContext })
      (fun _ => ⟨rfl, rfl⟩) fun howns => .inr (hx.resolve_left fun hopening => ?_)
    · exact { hwrite with storing := fun y hy => hwrite.storing y (List.mem_of_mem_eraseIdx hy) }
    · rw [owns_of_owner hopening] at howns
      cases howns

lemma registered_openComplete (hs : s.Registered) (h : Nat) (status : NdisStatus) : (s.openComplete h status).1.Registered := by
  unfold openComplete
  split
  · next n howner =>
    dsimp only
    have hlate : Registered { s with overtaken := if s.late n then s.overtaken ++ [n] else s.overtaken } := by
      have hsub : s.overtaken ⊆ if s.late n then s.overtaken ++ [n] else s.overtaken := by
        split
        · exact List.subset_append_left _ _
        · exact List.Subset.refl _
      exact { hs with
        storing := fun x hx => (hs.storing x hx).imp_right (@hsub _)
        stale := fun m hm => (hs.stale m hm).imp_right (@hsub _) }
    have hover : s.late n → n ∈ if s.late n then s.overtaken ++ [n] else s.overtaken := by
      intro hn
      rw [if_pos hn]
      exact List.mem_append_right _ (List.mem_singleton_self n)
    split
    · exact hlate.advance howner rfl (fun hfalse => by cases hfalse) (fun _ => hover) rfl rfl
    · have hquiet : ∀ x ∈ s.wrappers, x.openContext ≠ h := by
        rintro x hx rfl
        obtain ⟨t, ht, hasked⟩ := hs.asked x hx
        rw [howner] at ht
        cases ht
        cases hasked
      have hfree := hlate.free howner rfl hquiet fun _ => hover
      refine { hfree with failing := fun x hx => ?_, stale := fun m hm => (hfree.stale m hm).imp_left (List.mem_append_left _) }
      cases List.mem_append.mp hx with
      | inl hx => exact List.mem_append_left _ (hs.failing x hx)
      | inr hx =>
        rw [List.mem_singleton.mp hx]
        exact List.mem_append_right _ (List.mem_singleton_self n)
  · exact hs

lemma registered_completeFailed (hs : s.Registered) (k : Nat) (seen : Option Nat) : (s.completeFailed k seen).1.Registered := by
  unfold completeFailed
  cases hk : s.failing[k]? with
  | none => exact hs
  | some x =>
    obtain ⟨n, status⟩ := x
    refine registered_complete { hs with
      failing := fun y hy => hs.failing y (List.mem_of_mem_eraseIdx hy), stale := fun m hm => ?_ }
    cases List.mem_append.mp hm with
    | inl hm => exact hs.stale m hm
    | inr hm =>
      rw [List.mem_singleton.mp hm]
      exact .inl (hs.failing _ (List.mem_of_getElem? hk))

lemma write_advance (howner : s.owner h = some (n, st)) :
    (s.write h n f).advance h n st' = s.move h n st' f s.openList s.openCount := by
  unfold write advance
  rw [if_pos (owns_of_owner howner)]
  rfl

lemma not_mem_openList (hs : s.Registered) (howner : s.owner h = some (n, st)) (hst : st.listed = false) : h ∉ s.openList := by
  intro hmem
  obtain ⟨m, t, hm, ht⟩ := (hs.listed h).mp hmem
  rw [howner] at hm
  cases hm
  rw [hst] at ht
  cases ht

lemma registered_insertOpen (hs : s.Registered) (h : Nat) : (s.insertOpen h).1.Registered := by
  unfold insertOpen
  split
  · next n b howner =>
    have hnot := not_mem_openList hs howner rfl
    have hnodup : (s.openList ++ [h]).Nodup := by
      rw [← List.concat_eq_append]
      exact hs.nodup.concat hnot
    have hmove : (s.move h n (.counting b) (fun c => { c with bound := true }) (s.openList ++ [h]) s.openCount).Registered := by
      refine hs.move howner (fun _ _ => ⟨rfl, rfl⟩) (fun hfalse => by cases hfalse) (fun hfalse => by cases hfalse) hnodup
        ⟨fun _ => rfl, fun _ => List.mem_append_right _ (List.mem_singleton_self h)⟩ (fun i hne => ?_) ?_
      · rw [List.mem_append, List.mem_singleton, or_iff_left hne]
      · rw [hs.count, List.countP_append, List.countP_singleton, isCounted_move_self]
        refine congrArg UInt32.ofNat (List.countP_congr fun i hi => ?_)
        rw [isCounted_move (ne_of_mem_of_not_mem hi hnot)]
    rw [write_advance howner]
    exact hmove
  · exact hs

/-- The count follows a context that stays in the list. -/
lemma Registered.recount {openCount : UInt32} (hs : s.Registered) (howner : s.owner h = some (n, st)) (hflag : st'.flag = st.flag)
    (hasked : st.asked → st'.asked) (hlisted : st.listed) (hlisted' : st'.listed)
    (hcount : ∀ rest, s.openCount = UInt32.ofNat (rest + st.counted.toNat) →
      openCount = UInt32.ofNat (rest + st'.counted.toNat)) :
    Registered { s.advance h n st' with openCount } := by
  have hmem : h ∈ s.openList := (hs.listed h).mpr ⟨n, st, howner, hlisted⟩
  have hmove : (s.move h n st' id s.openList openCount).Registered := by
    refine hs.move howner (fun c hc => ⟨rfl, hc.trans hflag.symm⟩) hasked (fun hopening => ?_) hs.nodup
      ⟨fun _ => hlisted', fun _ => hmem⟩ (fun _ _ => Iff.rfl) ?_
    · rw [hopening] at hlisted
      cases hlisted
    · rw [countP_apart hs.nodup hmem fun i hne => isCounted_move hne, isCounted_move_self]
      refine hcount _ ?_
      rw [hs.count, countP_apart hs.nodup hmem fun i _ => rfl, isCounted_of_owner howner]
  unfold Registry.move at hmove
  rw [Option.map_id_fun, id_eq, Function.update_eq_self] at hmove
  exact hmove

lemma registered_countOpen (hs : s.Registered) (h : Nat) : (s.countOpen h).1.Registered := by
  unfold countOpen
  split
  · next n b howner =>
    refine hs.recount howner rfl (fun hfalse => by cases hfalse) rfl rfl fun rest hrest => ?_
    rw [hrest]
    exact (UInt32.ofNat_add rest 1).symm
  · exact hs

lemma registered_uncountOpen (hs : s.Registered) (h : Nat) : (s.uncountOpen h).1.Registered := by
  unfold uncountOpen
  split
  · next n howner =>
    refine hs.recount howner rfl id rfl rfl fun rest hrest => ?_
    rw [hrest, UInt32.ofNat_add rest]
    exact add_sub_cancel_right _ _
  · exact hs

lemma registered_removeOpen (hs : s.Registered) (h : Nat) : (s.removeOpen h).1.Registered := by
  unfold removeOpen
  split
  · next n howner =>
    have hmem : h ∈ s.openList := (hs.listed h).mpr ⟨n, _, howner, rfl⟩
    have hother : ∀ i, i ≠ h → s.isCounted i = (s.move h n .closingAdapter id (s.openList.erase h) s.openCount).isCounted i :=
      fun i hne => (isCounted_move hne).symm
    have hmove : (s.move h n .closingAdapter id (s.openList.erase h) s.openCount).Registered := by
      refine hs.move howner (fun c hc => ⟨rfl, hc⟩) id (fun hfalse => by cases hfalse) (hs.nodup.erase h)
        ⟨fun hself => absurd hself hs.nodup.not_mem_erase, fun hfalse => by cases hfalse⟩ (fun i hne => List.mem_erase_of_ne hne) ?_
      rw [hs.count, countP_apart hs.nodup hmem hother, isCounted_of_owner howner]
      rfl
    unfold Registry.move at hmove
    rw [Option.map_id_fun, id_eq, Function.update_eq_self] at hmove
    exact hmove
  · exact hs

lemma registered_queryMacComplete (hs : s.Registered) {result : OidResult} (howner : s.owner h = some (n, st)) :
    (s.queryMacComplete h n result).Registered := by
  unfold queryMacComplete
  split
  · refine hs.write (fun _ => ⟨rfl, rfl⟩) fun howns => ?_
    rw [owns_of_owner howner] at howns
    cases howns
  · exact hs

lemma owner_advance : (s.advance h n st).owner h = some (n, st) := Function.update_self ..

lemma registered_queryCurrentMac (hs : s.Registered) (h : Nat) (allocated : Bool) (result : OidResult) :
    (s.queryCurrentMac h allocated result).1.Registered := by
  unfold queryCurrentMac
  split
  · next n b howner =>
    have hnext : (s.advance h n (.settingFilter b)).Registered :=
      hs.advance howner rfl (fun hfalse => by cases hfalse) (fun hfalse => by cases hfalse) rfl rfl
    dsimp only
    split
    · exact hnext
    · split
      · exact hnext.ask owner_advance rfl
      · exact registered_queryMacComplete hnext owner_advance
  · exact hs

lemma registered_setPacketFilter (hs : s.Registered) (h : Nat) (allocated : Bool) (result : OidResult) :
    (s.setPacketFilter h allocated result).1.Registered := by
  unfold setPacketFilter
  split
  · next n b howner =>
    have hnext : (s.advance h n (.completing b)).Registered := hs.advance howner rfl (fun _ => rfl) (fun hfalse => by cases hfalse) rfl rfl
    dsimp only
    split
    · exact hnext.ask owner_advance rfl
    · exact hnext
  · exact hs

lemma registered_completeBind (hs : s.Registered) (h : Nat) : (s.completeBind h).1.Registered := by
  unfold completeBind
  split
  · next n b howner =>
    exact registered_complete (hs.advance howner rfl (fun _ => rfl) (fun hfalse => by cases hfalse) rfl rfl)
  · exact hs

lemma registered_oidRequestComplete (hs : s.Registered) (k : Nat) (result : OidResult) :
    (s.oidRequestComplete k result).1.Registered := by
  unfold oidRequestComplete
  cases hk : s.wrappers[k]? with
  | none => exact hs
  | some x =>
    obtain ⟨t, howner, -⟩ := hs.asked x (List.mem_of_getElem? hk)
    have hrest : Registered { s with wrappers := s.wrappers.eraseIdx k } :=
      { hs with asked := fun y hy => hs.asked y (List.mem_of_mem_eraseIdx hy) }
    dsimp only
    split
    · exact hrest
    · exact registered_queryMacComplete hrest howner

lemma registered_unbindAdapter (hs : s.Registered) (h : Nat) : (s.unbindAdapter h).1.Registered := by
  unfold unbindAdapter
  split
  · next n howner =>
    rw [write_advance howner]
    exact hs.stay howner (fun _ _ => ⟨rfl, rfl⟩) id (fun hfalse => by cases hfalse) rfl rfl
  · exact hs

lemma quiet_iff : s.quiet h = true ↔ ∀ x ∈ s.wrappers, x.openContext ≠ h := by
  unfold quiet
  rw [List.all_eq_true]
  exact forall₂_congr fun x _ => decide_eq_true_iff

lemma registered_closeAdapter (hs : s.Registered) (h : Nat) (status : NdisStatus) : (s.closeAdapter h status).1.Registered := by
  unfold closeAdapter
  split
  · next n howner =>
    split
    · exact hs.advance howner rfl id (fun hfalse => by cases hfalse) rfl rfl
    · split
      · next hquiet => exact hs.free howner rfl (quiet_iff.mp hquiet) fun hfalse => by cases hfalse
      · exact hs
  · exact hs

lemma registered_closeComplete (hs : s.Registered) (h : Nat) : (s.closeComplete h).1.Registered := by
  unfold closeComplete
  split
  · next n howner =>
    split
    · next hquiet => exact hs.free howner rfl (quiet_iff.mp hquiet) fun hfalse => by cases hfalse
    · exact hs
  · exact hs

/-- Every step keeps the registry in order. -/
theorem registered_step (hs : s.Registered) (a : BindAction) : (s.step a).1.Registered := by
  cases a with
  | bindAdapter bindContext adapterName context named opened =>
    exact registered_bindAdapter hs bindContext adapterName context named opened
  | storeBindContext k => exact registered_storeBindContext hs k
  | openComplete h status => exact registered_openComplete hs h status
  | completeFailed k seen => exact registered_completeFailed hs k seen
  | insertOpen h => exact registered_insertOpen hs h
  | countOpen h => exact registered_countOpen hs h
  | queryCurrentMac h allocated result => exact registered_queryCurrentMac hs h allocated result
  | setPacketFilter h allocated result => exact registered_setPacketFilter hs h allocated result
  | completeBind h => exact registered_completeBind hs h
  | oidRequestComplete k result => exact registered_oidRequestComplete hs k result
  | unbindAdapter h => exact registered_unbindAdapter hs h
  | uncountOpen h => exact registered_uncountOpen hs h
  | removeOpen h => exact registered_removeOpen hs h
  | closeAdapter h status => exact registered_closeAdapter hs h status
  | closeComplete h => exact registered_closeComplete hs h
  | unload => exact { hs with }

lemma registered_run (actions : List BindAction) : (run step {} actions).1.Registered :=
  invariant_run_all (I := Registered) (fun _ a hs => registered_step hs a) registered_empty actions

/-- What the list links is live. -/
lemma live_of_mem (hs : s.Registered) (hmem : h ∈ s.openList) : (s.contexts h).isSome := by
  obtain ⟨n, st, howner, -⟩ := (hs.listed h).mp hmem
  rw [hs.live, howner]
  rfl

/-- Without bindings nothing is left. -/
lemma nothing_left (hs : s.Registered) (hnone : ∀ h, s.owner h = none) :
    (∀ h, s.contexts h = none) ∧ s.wrappers = [] ∧ s.openList = [] ∧ s.openCount = 0 := by
  have hlist : s.openList = [] := by
    refine List.eq_nil_iff_forall_not_mem.mpr fun h hmem => ?_
    obtain ⟨n, st, howner, -⟩ := (hs.listed h).mp hmem
    rw [hnone] at howner
    cases howner
  refine ⟨fun h => ?_, ?_, hlist, ?_⟩
  · have hlive := hs.live h
    rw [hnone] at hlive
    exact Option.isNone_iff_eq_none.mp (Option.isSome_eq_false_iff.mp hlive)
  · refine List.eq_nil_iff_forall_not_mem.mpr fun x hx => ?_
    obtain ⟨st, howner, -⟩ := hs.asked x hx
    rw [hnone] at howner
    cases howner
  · rw [hs.count, hlist]
    rfl

/-- In every run: a context is live as long as NDIS or a call has it, the list links live contexts, each once, and the count is
that of the list but for the calls between the two; no request outlives its context; freed memory is used only for a bind whose
open has failed later or was complete too early; and when NDIS has no binding left, nothing is. -/
theorem registry_sound (actions : List BindAction) :
    let s := (run step {} actions).1
    (∀ h, (s.contexts h).isSome = (s.owner h).isSome) ∧ s.openList.Nodup ∧ (∀ h ∈ s.openList, (s.contexts h).isSome) ∧
      s.openCount = UInt32.ofNat (s.openList.countP s.isCounted) ∧ (∀ x ∈ s.wrappers, (s.contexts x.openContext).isSome) ∧
      (∀ n ∈ s.stale, n ∈ s.failed ∨ n ∈ s.overtaken) ∧
      ((∀ h, s.owner h = none) → (∀ h, s.contexts h = none) ∧ s.wrappers = [] ∧ s.openList = [] ∧ s.openCount = 0) := by
  intro s
  have hs : s.Registered := registered_run actions
  refine ⟨hs.live, hs.nodup, fun h hmem => live_of_mem hs hmem, hs.count, fun x hx => ?_, hs.stale, nothing_left hs⟩
  obtain ⟨st, howner, -⟩ := hs.asked x hx
  rw [hs.live, howner]
  rfl

/-! ## Numbers -/

/-- `IPv8LookupBindingLocked` -/
def lookup (s : Registry) (ifIndex : UInt32) : Option Nat :=
  s.openList.find? fun h => (s.contexts h).any fun c => c.bound ∧ c.ifIndex = ifIndex

/-- The bind that a context belongs to. -/
def serial (s : Registry) (h : Nat) : Option Nat := (s.owner h).map Prod.fst

lemma any_context {i : UInt32} (hfound : ((s.contexts h).any fun c => c.bound ∧ c.ifIndex = i) = true) :
    ∃ c, s.contexts h = some c ∧ c.bound = true ∧ c.ifIndex = i := by
  cases hc : s.contexts h with
  | none =>
    rw [hc] at hfound
    cases hfound
  | some c =>
    rw [hc] at hfound
    exact ⟨c, rfl, of_decide_eq_true hfound⟩

lemma lookup_described {i : UInt32} (hs : s.Registered) (hlookup : s.lookup i = some h) :
    ∃ n < s.opened.length, s.serial h = some n ∧ i = UInt32.ofNat (n + 1) := by
  unfold lookup at hlookup
  obtain ⟨n, st, howner, -⟩ := (hs.listed h).mp (List.mem_of_find?_eq_some hlookup)
  have hfound := List.find?_some hlookup
  obtain ⟨c, hc, -, hi⟩ := any_context hfound
  exact ⟨n, hs.numbered h n st howner, congrArg (Option.map Prod.fst) howner, hi.symm.trans (hs.described h n st c howner hc).1⟩

/-- The binds that got to the open are only added to. -/
lemma opened_step (s : Registry) (a : BindAction) : s.opened <+: (s.step a).1.opened := by
  cases a
  all_goals
    simp only [step, bindAdapter, refuse, complete, allocate, storeBindContext, openComplete, completeFailed, insertOpen, countOpen,
      queryCurrentMac, setPacketFilter, completeBind, oidRequestComplete, queryMacComplete, unbindAdapter, uncountOpen, removeOpen,
      closeAdapter, closeComplete, write, advance, free]
    repeat' split
    all_goals first
      | exact List.prefix_rfl
      | exact List.prefix_append _ _

lemma opened_run (s : Registry) (actions : List BindAction) : s.opened <+: (run step s actions).1.opened := by
  induction actions generalizing s with
  | nil => exact List.prefix_rfl
  | cons a actions ih => exact (opened_step s a).trans (ih _)

lemma toNat_number (hn : n < s.opened.length) (hmax : s.opened.length < 2 ^ 32) : (UInt32.ofNat (n + 1)).toNat = n + 1 :=
  UInt32.toNat_ofNat_of_lt' (Nat.lt_of_le_of_lt hn hmax)

/-- A card that is bound is found by its number. -/
lemma lookup_bound (hs : s.Registered) (hmax : s.opened.length < 2 ^ 32) (hmem : h ∈ s.openList) (hc : s.contexts h = some c)
    (hbound : c.bound = true) : s.lookup c.ifIndex = some h ∧ ∃ n < s.opened.length, s.serial h = some n ∧
      c.ifIndex.toNat = n + 1 := by
  obtain ⟨n, st, howner, -⟩ := (hs.listed h).mp hmem
  have hindex := (hs.described h n st c howner hc).1
  have hn := hs.numbered h n st howner
  have hself : ((s.contexts h).any fun c' => c'.bound ∧ c'.ifIndex = c.ifIndex) = true := by
    rw [hc]
    exact decide_eq_true ⟨hbound, rfl⟩
  refine ⟨?_, n, hn, congrArg (Option.map Prod.fst) howner, hindex ▸ toNat_number hn hmax⟩
  cases hlookup : s.lookup c.ifIndex with
  | none => exact absurd hself (List.find?_eq_none.mp hlookup h hmem)
  | some h' =>
    obtain ⟨m, hm, hserial, heq⟩ := lookup_described hs hlookup
    obtain ⟨x, hx, hxm⟩ := Option.map_eq_some_iff.mp hserial
    have hnm := congrArg UInt32.toNat (hindex.symm.trans heq)
    rw [toNat_number hn hmax, toNat_number hm hmax] at hnm
    obtain rfl := Nat.succ_injective hnm
    subst hxm
    exact congrArg some (hs.distinct h' h x.1 x.2 st hx howner)

/-- A number stands for one bind: whoever is found by it later is a context of the same bind. -/
lemma lookup_later {i : UInt32} (hs : s.Registered) (hmax : s.opened.length < 2 ^ 32) (hi : i.toNat = n + 1)
    (hlater : s.lookup i = some h) : s.serial h = some n := by
  obtain ⟨m, hm, hserial, hnumber⟩ := lookup_described hs hlater
  rw [hnumber, toNat_number hm hmax] at hi
  rw [hserial, Nat.succ_injective hi]

lemma length_opened_le (pre post : List BindAction) :
    (run step {} pre).1.opened.length ≤ (run step {} (pre ++ post)).1.opened.length := by
  rw [run_append]
  exact (opened_run _ _).length_le

end Registry

end IPv8Plus.Driver
