import IPv8Plus.Lib.Moves
import IPv8Plus.Lib.Run
import IPv8Plus.WintunNode.Rio

/-!
# Where the slots are

A send slot is free or in the hand of one send; a receive slot is posted, completed or held as a packet. Every step but one
moves slots from place to place. The exception is the return from the self-check, which forgets the packets that came in the
same batch behind the probe.
-/

namespace IPv8Plus.WintunNode
open Lib

/-! ## Contexts -/

lemma toNat_ofNat_slot {slot : Nat} (h : slot < 2 ^ 63) : (UInt64.ofNat slot).toNat = slot :=
  UInt64.toNat_ofNat_of_lt' (h.trans (by decide))

lemma toNat_sendContext {slot : Nat} (h : slot < 2 ^ 63) : (sendContext slot).toNat = 2 ^ 63 + slot := by
  rw [sendContext, UInt64.toNat_or, toNat_ofNat_slot h]
  exact (Nat.two_pow_add_eq_or_of_lt h 1).symm

/-- The slot of a send whose context this is. -/
def sendOf (ctx : UInt64) : Option Nat := if ctx &&& ctxSendBit ≠ 0 then some (ctx &&& ~~~ctxSendBit).toNat else none

def recvOf (ctx : UInt64) : Option Nat := if ctx &&& ctxSendBit ≠ 0 then none else some ctx.toNat

lemma and_ctxSendBit (ctx : UInt64) : ctx &&& ctxSendBit ≠ 0 ↔ ctx.toNat.testBit 63 = true := by
  have hand : (ctx &&& ctxSendBit).toNat = (ctx.toNat.testBit 63).toNat * 2 ^ 63 := by
    rw [UInt64.toNat_and, ← Nat.and_two_pow]
    rfl
  rw [ne_eq, ← UInt64.toNat_inj, hand]
  cases ctx.toNat.testBit 63 with
  | true => decide
  | false => decide

lemma and_not_ctxSendBit (ctx : UInt64) : (ctx &&& ~~~ctxSendBit).toNat = ctx.toNat % 2 ^ 63 := by
  rw [UInt64.toNat_and, ← Nat.and_two_pow_sub_one_eq_mod]
  rfl

section
variable {slot : Nat}

lemma sendOf_sendContext (h : slot < 2 ^ 63) : sendOf (sendContext slot) = some slot := by
  have hbit : sendContext slot &&& ctxSendBit ≠ 0 := by
    rw [and_ctxSendBit, toNat_sendContext h, Nat.testBit_two_pow_add_eq, Nat.testBit_lt_two_pow h]
    rfl
  rw [sendOf, if_pos hbit, and_not_ctxSendBit, toNat_sendContext h, Nat.add_mod_left, Nat.mod_eq_of_lt h]

lemma recvOf_sendContext (h : slot < 2 ^ 63) : recvOf (sendContext slot) = none := by
  have hsend := sendOf_sendContext h
  unfold sendOf at hsend
  unfold recvOf
  split at hsend
  · next hbit => exact if_pos hbit
  · cases hsend

lemma not_and_recvContext (h : slot < 2 ^ 63) : ¬ recvContext slot &&& ctxSendBit ≠ 0 := by
  rw [and_ctxSendBit, recvContext, toNat_ofNat_slot h, Nat.testBit_lt_two_pow h]
  exact Bool.false_ne_true

lemma sendOf_recvContext (h : slot < 2 ^ 63) : sendOf (recvContext slot) = none := if_neg (not_and_recvContext h)

lemma recvOf_recvContext (h : slot < 2 ^ 63) : recvOf (recvContext slot) = some slot := by
  rw [recvOf, if_neg (not_and_recvContext h), recvContext, toNat_ofNat_slot h]

end

/-! ## The table -/

namespace SlotTable

variable {t : SlotTable} {slot : Nat}

/-- The slots that are marked as used. -/
def usedSlots (t : SlotTable) : Multiset Nat := ((List.range t.used.length).filter fun i => t.used.getD i false : List Nat)

lemma mem_usedSlots : slot ∈ t.usedSlots ↔ t.used.getD slot false = true := by
  rw [usedSlots, Multiset.mem_coe, List.mem_filter, List.mem_range, and_iff_right_iff_imp]
  intro h
  by_contra hlen
  rw [List.getD_eq_default _ _ (Nat.le_of_not_lt hlen)] at h
  cases h

lemma nodup_usedSlots : t.usedSlots.Nodup := Multiset.coe_nodup.mpr (List.nodup_range.filter _)

lemma getD_set {b : Bool} (h : slot < t.used.length) (i : Nat) :
    (t.used.set slot b).getD i false = if i = slot then b else t.used.getD i false := by
  rw [List.getD_eq_getElem?_getD, List.getElem?_set, if_pos h, List.getD_eq_getElem?_getD]
  split
  · next heq =>
    rw [if_pos heq.symm]
    rfl
  · next hne => rw [if_neg (Ne.symm hne)]

/-- A free slot is marked. -/
lemma usedSlots_swap_true (h : slot < t.used.length) (hfree : t.used.getD slot false = false) :
    (t.swap slot true).1.usedSlots = {slot} + t.usedSlots := by
  have hnot : slot ∉ t.usedSlots := by
    rw [mem_usedSlots, hfree]
    exact Bool.false_ne_true
  rw [Multiset.singleton_add, Multiset.Nodup.ext nodup_usedSlots (Multiset.nodup_cons.mpr ⟨hnot, nodup_usedSlots⟩)]
  intro i
  rw [mem_usedSlots, swap, getD_set h, Multiset.mem_cons, mem_usedSlots]
  split
  · next heq => exact iff_of_true rfl (.inl heq)
  · next hne => exact (or_iff_right hne).symm

/-- A used slot is cleared. -/
lemma usedSlots_swap_false (hused : t.used.getD slot false = true) :
    t.usedSlots = {slot} + (t.swap slot false).1.usedSlots := by
  have h : slot < t.used.length := List.mem_range.mp (List.mem_of_mem_filter (mem_usedSlots.mpr hused))
  have hnot : slot ∉ (t.swap slot false).1.usedSlots := by
    rw [mem_usedSlots, swap, getD_set h, if_pos rfl]
    exact Bool.false_ne_true
  rw [Multiset.singleton_add, Multiset.Nodup.ext nodup_usedSlots (Multiset.nodup_cons.mpr ⟨hnot, nodup_usedSlots⟩)]
  intro i
  rw [mem_usedSlots, Multiset.mem_cons, mem_usedSlots, swap, getD_set h]
  split
  · next heq => exact iff_of_true (heq ▸ hused) (.inl heq)
  · next hne => exact (or_iff_right hne).symm

/-- A used slot that is marked again stays. -/
lemma usedSlots_swap_used (hused : t.used.getD slot false = true) : (t.swap slot true).1.usedSlots = t.usedSlots := by
  have h : slot < t.used.length := List.mem_range.mp (List.mem_of_mem_filter (mem_usedSlots.mpr hused))
  rw [Multiset.Nodup.ext nodup_usedSlots nodup_usedSlots]
  intro i
  rw [mem_usedSlots, mem_usedSlots, swap, getD_set h]
  split
  · next heq => exact iff_of_true rfl (heq ▸ hused)
  · exact Iff.rfl

lemma count_usedSlots : t.usedSlots.count slot = if t.used.getD slot false then 1 else 0 := by
  rw [Multiset.count_eq_of_nodup nodup_usedSlots]
  simp only [mem_usedSlots]

end SlotTable

/-! ## The places -/

def SendCall.slot : SendCall → Option Nat
  | .scanning _ _ _ => none
  | .copying _ _ slot => some slot
  | .submitting slot => some slot
  | .failing slot => some slot

def RioRequest.sendSlot (r : RioRequest) : Option Nat := if r.send then some r.slot else none

def RioRequest.recvSlot (r : RioRequest) : Option Nat := if r.send then none else some r.slot

def RioResult.sendSlot (r : RioResult) : Option Nat := sendOf r.requestContext

def RioResult.recvSlot (r : RioResult) : Option Nat := recvOf r.requestContext

/-- The results that `dequeue` has still to look at. -/
def Drain.results : Drain → List RioResult
  | .dequeuing results _ => results
  | _ => []

def Drain.held : Drain → List RioPacket
  | .dequeuing _ out => out
  | .handling _ packets => packets
  | .reposting todo => todo
  | .probing todo => todo
  | .ready => []
  | .stopped => []

namespace Rio

/-- Slots of sends that are being prepared, in flight, and completed. -/
def preparing (s : Rio) : List Nat := s.calls.filterMap SendCall.slot

def inFlight (s : Rio) : List Nat := s.outstanding.filterMap RioRequest.sendSlot

def sent (s : Rio) : List Nat := (s.completions ++ s.drain.results).filterMap RioResult.sendSlot

/-- Receive slots that are posted, completed, and held. -/
def posted (s : Rio) : List Nat := s.outstanding.filterMap RioRequest.recvSlot

def received (s : Rio) : List Nat := (s.completions ++ s.drain.results).filterMap RioResult.recvSlot

def held (s : Rio) : List Nat := s.drain.held.map RioPacket.slot

/-- No two sends in flight share a slot; a send slot is free or has one send; no slot was freed twice; a receive slot is in
one place; and the completion queue has room for all that Winsock has. -/
structure Conserved (s : Rio) : Prop where
  distinct : s.inFlight.Nodup
  send : ∀ slot < s.nSend,
    (s.preparing ++ s.inFlight ++ s.sent).count slot = if s.sendSlots.used.getD slot false then 1 else 0
  freed : s.freedTwice = false
  recv : ∀ slot < s.nRecv, (s.posted ++ s.received ++ s.held).count slot = 1
  room : s.outstanding.length + s.completions.length ≤ s.nRecv + s.nSend

/-- No error has ended the thread, and the slots are conserved. -/
def Sound (s : Rio) : Prop := s.drain ≠ .stopped → s.Conserved

/-- The data of the packets that are held stays. -/
def Intact (s : Rio) (a : RioAct) : Prop :=
  s.drain ≠ .stopped → ∀ pkt ∈ s.drain.held, (s.step a).1.packetData pkt = s.packetData pkt

/-- The packet with which the self-check passes is the last one of its batch. -/
def NothingLeft (s : Rio) : RioAct → Prop
  | .advance ok =>
    match s.drain with
    | .probing (pkt :: todo) => ok = true → s.packetData pkt = probe → 1 ≤ s.sendCompleted → todo = []
    | _ => True
  | _ => True

instance (s : Rio) : ∀ a : RioAct, Decidable (s.NothingLeft a)
  | .advance ok =>
    match h : s.drain with
    | .probing (pkt :: todo) =>
      decidable_of_iff (ok = true → s.packetData pkt = probe → 1 ≤ s.sendCompleted → todo = []) (by simp only [NothingLeft, h])
    | .probing [] | .ready | .dequeuing _ _ | .handling _ _ | .reposting _ | .stopped => isTrue (by simp only [NothingLeft, h])
  | .sendTo _ _ | .turn _ _ | .complete _ _ _ _ _ | .dequeue _ | .fail => isTrue trivial

end Rio

/-! ## What the steps move -/

def Drain.sends (d : Drain) : Multiset Nat := d.results.filterMap RioResult.sendSlot

def Drain.recvs (d : Drain) : Multiset Nat := d.results.filterMap RioResult.recvSlot + d.held.map RioPacket.slot

lemma Drain.recvs_reposting (pkt : RioPacket) (todo : List RioPacket) :
    Drain.recvs (.reposting (pkt :: todo)) = {pkt.slot} + Drain.recvs (.reposting todo) := by
  show (0 : Multiset Nat) + ((pkt :: todo).map RioPacket.slot : List Nat) = {pkt.slot} + (0 + (todo.map RioPacket.slot : List Nat))
  rw [zero_add, zero_add, List.map_cons, Multiset.singleton_add, Multiset.cons_coe]

lemma Drain.recvs_probing (pkt : RioPacket) (todo : List RioPacket) :
    Drain.recvs (.probing (pkt :: todo)) = {pkt.slot} + Drain.recvs (.probing todo) :=
  Drain.recvs_reposting pkt todo

namespace Rio

def sendPlaces (s : Rio) : Multiset Nat :=
  s.preparing + s.inFlight + s.completions.filterMap RioResult.sendSlot + s.drain.sends

def recvPlaces (s : Rio) : Multiset Nat := s.posted + s.completions.filterMap RioResult.recvSlot + s.drain.recvs

/-- All slots are in their places, but for those that the step has in its hands. -/
structure Holds (s : Rio) (sendHand recvHand : Multiset Nat) : Prop where
  size : s.sendSlots.used.length = s.nSend
  few : s.nSend < 2 ^ 63 ∧ s.nRecv < 2 ^ 63
  contexts : ∀ q ∈ s.outstanding, q.context = if q.send then sendContext q.slot else recvContext q.slot
  freed : s.freedTwice = false
  sends : s.sendPlaces + sendHand = s.sendSlots.usedSlots
  recvs : s.recvPlaces + recvHand = (List.range s.nRecv : List Nat)

section
variable {s : Rio} {h r h' r' : Multiset Nat} {k slot : Nat}

/-- The thread goes on. -/
lemma Holds.goto (hs : s.Holds h r) {d : Drain} (hsend : s.drain.sends + h = d.sends + h')
    (hrecv : s.drain.recvs + r = d.recvs + r') : Holds { s with drain := d } h' r' where
  size := hs.size
  few := hs.few
  contexts := hs.contexts
  freed := hs.freed
  sends := by
    show (s.preparing : Multiset Nat) + s.inFlight + s.completions.filterMap RioResult.sendSlot + d.sends + h' = _
    rw [← hs.sends, sendPlaces, add_assoc _ d.sends, ← hsend, ← add_assoc]
  recvs := by
    show (s.posted : Multiset Nat) + s.completions.filterMap RioResult.recvSlot + d.recvs + r' = _
    rw [← hs.recvs, recvPlaces, add_assoc _ d.recvs, ← hrecv, ← add_assoc]

lemma Holds.setCall (hs : s.Holds h r) {c c' : SendCall} (hk : s.calls[k]? = some c)
    (hslot : (c.slot.toList : Multiset Nat) + h = c'.slot.toList + h') : Holds { s with calls := s.calls.set k c' } h' r where
  size := hs.size
  few := hs.few
  contexts := hs.contexts
  freed := hs.freed
  sends := by
    have hold := coe_filterMap_eraseIdx SendCall.slot hk
    have hnew := coe_filterMap_set SendCall.slot hk c'
    show ((s.calls.set k c').filterMap SendCall.slot : Multiset Nat) + s.inFlight +
      s.completions.filterMap RioResult.sendSlot + s.drain.sends + h' = s.sendSlots.usedSlots
    rw [← hs.sends, sendPlaces, preparing, hold, hnew]
    have hmove : ∀ a b c d e : Multiset Nat, a + b + c + d + e + h' = (a + h') + b + c + d + e := fun a b c d e => by abel
    have hback : ∀ a b c d e : Multiset Nat, a + b + c + d + e + h = (a + h) + b + c + d + e := fun a b c d e => by abel
    rw [hmove, hback, hslot]
  recvs := hs.recvs

lemma Holds.eraseCall (hs : s.Holds h r) {c : SendCall} (hk : s.calls[k]? = some c) :
    Holds { s with calls := s.calls.eraseIdx k } (c.slot.toList + h) r where
  size := hs.size
  few := hs.few
  contexts := hs.contexts
  freed := hs.freed
  sends := by
    show ((s.calls.eraseIdx k).filterMap SendCall.slot : Multiset Nat) + s.inFlight +
      s.completions.filterMap RioResult.sendSlot + s.drain.sends + (c.slot.toList + h) = s.sendSlots.usedSlots
    rw [← hs.sends, sendPlaces, preparing, coe_filterMap_eraseIdx SendCall.slot hk]
    abel
  recvs := hs.recvs

/-- A free slot is taken in hand. -/
lemma Holds.mark (hs : s.Holds h r) (hlt : slot < s.sendSlots.used.length) (hfree : s.sendSlots.used.getD slot false = false) :
    Holds { s with sendSlots := (s.sendSlots.swap slot true).1 } ({slot} + h) r where
  size := (List.length_set ..).trans hs.size
  few := hs.few
  contexts := hs.contexts
  freed := hs.freed
  sends := by
    rw [SlotTable.usedSlots_swap_true hlt hfree, ← hs.sends, add_left_comm]
    rfl
  recvs := hs.recvs

lemma Holds.markUsed (hs : s.Holds h r) (hused : s.sendSlots.used.getD slot false = true) :
    Holds { s with sendSlots := (s.sendSlots.swap slot true).1 } h r where
  size := (List.length_set ..).trans hs.size
  few := hs.few
  contexts := hs.contexts
  freed := hs.freed
  sends := hs.sends.trans (SlotTable.usedSlots_swap_used hused).symm
  recvs := hs.recvs

/-- The slot in hand was marked, and it is free afterwards. -/
lemma Holds.free (hs : s.Holds ({slot} + h) r) : (s.free slot).Holds h r := by
  have hused : s.sendSlots.used.getD slot false = true := by
    rw [← SlotTable.mem_usedSlots, ← hs.sends]
    exact Multiset.mem_add.mpr (.inr (Multiset.mem_add.mpr (.inl (Multiset.mem_singleton_self slot))))
  refine ⟨(List.length_set ..).trans hs.size, hs.few, hs.contexts, ?_, ?_, hs.recvs⟩
  · show (s.freedTwice || !s.sendSlots.used.getD slot false) = false
    rw [hs.freed, hused]
    rfl
  · have hsends := hs.sends
    rw [SlotTable.usedSlots_swap_false hused, add_left_comm] at hsends
    exact add_left_cancel hsends

/-- The slot in hand is that of a new request. -/
lemma Holds.request {q : RioRequest} (hs : s.Holds (q.sendSlot.toList + h) (q.recvSlot.toList + r))
    (hq : q.context = if q.send then sendContext q.slot else recvContext q.slot) :
    Holds { s with outstanding := s.outstanding ++ [q] } h r where
  size := hs.size
  few := hs.few
  contexts := by
    intro q' hq'
    rcases List.mem_append.mp hq' with hold | hnew
    · exact hs.contexts q' hold
    · rw [List.mem_singleton.mp hnew]
      exact hq
  freed := hs.freed
  sends := by
    show (s.preparing : Multiset Nat) + ((s.outstanding ++ [q]).filterMap RioRequest.sendSlot : List Nat) +
      s.completions.filterMap RioResult.sendSlot + s.drain.sends + h = s.sendSlots.usedSlots
    rw [coe_filterMap_concat, ← hs.sends, sendPlaces]
    show s.preparing + (s.inFlight + (q.sendSlot.toList : Multiset Nat)) + _ + _ + _ = _
    abel
  recvs := by
    show (((s.outstanding ++ [q]).filterMap RioRequest.recvSlot : List Nat) : Multiset Nat) +
      s.completions.filterMap RioResult.recvSlot + s.drain.recvs + r = _
    rw [coe_filterMap_concat, ← hs.recvs, recvPlaces]
    show s.posted + (q.recvSlot.toList : Multiset Nat) + _ + _ + _ = _
    abel

lemma Holds.submit (hs : s.Holds ({slot} + h) r) :
    Holds { s with outstanding := s.outstanding ++ [{ send := true, slot, context := sendContext slot }] } h r := by
  rw [← zero_add r] at hs
  exact hs.request rfl

lemma Holds.post (hs : s.Holds h ({slot} + r)) :
    Holds { s with outstanding := s.outstanding ++ [{ send := false, slot, context := recvContext slot }] } h r := by
  rw [← zero_add h] at hs
  exact hs.request rfl

lemma Holds.mem_sends (hs : s.Holds h r) {i : Nat} (hi : i ∈ s.sendPlaces + h) : i < s.nSend := by
  rw [hs.sends] at hi
  rw [← hs.size]
  exact List.mem_range.mp (List.mem_of_mem_filter hi)

lemma Holds.mem_recvs (hs : s.Holds h r) {i : Nat} (hi : i ∈ s.recvPlaces + r) : i < s.nRecv := by
  rw [hs.recvs] at hi
  exact List.mem_range.mp hi

/-- The context of a request tells what it was. -/
lemma Holds.context (hs : s.Holds h r) {q : RioRequest} (hq : q ∈ s.outstanding) :
    sendOf q.context = q.sendSlot ∧ recvOf q.context = q.recvSlot := by
  obtain ⟨send, slot, context⟩ := q
  have hcontext := hs.contexts _ hq
  cases send with
  | true =>
    have hmem : slot ∈ s.inFlight := List.mem_filterMap.mpr ⟨_, hq, rfl⟩
    have hlt := hs.mem_sends (i := slot) (by
      simp only [sendPlaces, Multiset.mem_add, Multiset.mem_coe]
      exact .inl (.inl (.inl (.inr hmem))))
    have hslot := hlt.trans hs.few.1
    rw [show context = sendContext slot from hcontext]
    exact ⟨sendOf_sendContext hslot, recvOf_sendContext hslot⟩
  | false =>
    have hmem : slot ∈ s.posted := List.mem_filterMap.mpr ⟨_, hq, rfl⟩
    have hlt := hs.mem_recvs (i := slot) (by
      simp only [recvPlaces, Multiset.mem_add, Multiset.mem_coe]
      exact .inl (.inl (.inl hmem)))
    have hslot := hlt.trans hs.few.2
    rw [show context = recvContext slot from hcontext]
    exact ⟨sendOf_recvContext hslot, recvOf_recvContext hslot⟩

/-- A request is completed. -/
lemma Holds.complete (hs : s.Holds h r) (k status bytesTransferred : Nat) (data addr : Bytes) :
    (s.complete k status bytesTransferred data addr).Holds h r := by
  unfold Rio.complete
  cases hk : s.outstanding[k]? with
  | none => exact hs
  | some q =>
    obtain ⟨hsend, hrecv⟩ := hs.context (List.mem_of_getElem? hk)
    have hbase : Holds { s with
        outstanding := s.outstanding.eraseIdx k
        completions := s.completions ++ [{ status, bytesTransferred, requestContext := q.context }] } h r := by
      refine ⟨hs.size, hs.few, fun q' hq' => hs.contexts q' (List.mem_of_mem_eraseIdx hq'), hs.freed, ?_, ?_⟩
      · have hnew := coe_filterMap_concat RioResult.sendSlot s.completions ⟨status, bytesTransferred, q.context⟩
        show (s.preparing : Multiset Nat) + ((s.outstanding.eraseIdx k).filterMap RioRequest.sendSlot : List Nat) +
          ((s.completions ++ [_]).filterMap RioResult.sendSlot : List Nat) + s.drain.sends + h = s.sendSlots.usedSlots
        rw [hnew, ← hs.sends, sendPlaces, inFlight, coe_filterMap_eraseIdx RioRequest.sendSlot hk, RioResult.sendSlot, hsend]
        abel
      · have hnew := coe_filterMap_concat RioResult.recvSlot s.completions ⟨status, bytesTransferred, q.context⟩
        show (((s.outstanding.eraseIdx k).filterMap RioRequest.recvSlot : List Nat) : Multiset Nat) +
          ((s.completions ++ [_]).filterMap RioResult.recvSlot : List Nat) + s.drain.recvs + r = _
        rw [hnew, ← hs.recvs, recvPlaces, posted, coe_filterMap_eraseIdx RioRequest.recvSlot hk, RioResult.recvSlot, hrecv]
        abel
    dsimp only
    split
    · exact hbase
    · exact ⟨hbase.size, hbase.few, hbase.contexts, hbase.freed, hbase.sends, hbase.recvs⟩

/-- Results are dequeued. -/
lemma Holds.dequeue (hs : s.Holds h r) (hready : s.drain = .ready) (n : Nat) :
    Holds { s with completions := s.completions.drop n, drain := .dequeuing (s.completions.take n) [] } h r := by
  have hsplit : ∀ f : RioResult → Option Nat, ((s.completions.filterMap f : List Nat) : Multiset Nat) =
      (s.completions.drop n).filterMap f + (s.completions.take n).filterMap f := by
    intro f
    rw [add_comm, Multiset.coe_add, ← List.filterMap_append, List.take_append_drop]
  refine ⟨hs.size, hs.few, hs.contexts, hs.freed, ?_, ?_⟩
  · have hsends := hs.sends
    rw [sendPlaces, hready, hsplit, ← add_assoc] at hsends
    rw [← hsends]
    exact congrArg (· + h) (add_zero _).symm
  · have hrecvs := hs.recvs
    rw [recvPlaces, hready, hsplit, ← add_assoc] at hrecvs
    rw [← hrecvs]
    show _ + (((s.completions.take n).filterMap RioResult.recvSlot : List Nat) + (0 : Multiset Nat)) + r = _ + (0 + 0) + r
    rw [add_zero, add_zero, add_zero]
    rfl

lemma Holds.postRecv (hs : s.Holds h r) {d : Drain} (ok : Bool) (hsend : s.drain.sends + h = d.sends + h')
    (hrecv : s.drain.recvs + r = d.recvs + ({slot} + r')) :
    (s.postRecv slot ok d).drain ≠ .stopped → (s.postRecv slot ok d).Holds h' r' := by
  unfold Rio.postRecv
  cases ok with
  | true => exact fun _ => (hs.goto hsend hrecv).post
  | false => exact fun hne => absurd rfl hne

/-- Everything is in its place, unless an error has ended the thread. -/
def Inv (s : Rio) : Prop := s.drain ≠ .stopped → s.Holds 0 0

lemma Inv.finish {k : Nat} {x : Except SendError Unit} (hstop : s.drain = .stopped → (s.finish k x).1.drain = .stopped)
    (hs : s.drain ≠ .stopped → Holds { s with calls := s.calls.eraseIdx k } 0 0) : (s.finish k x).1.Inv := by
  intro hne
  have hs := hs fun h => hne (hstop h)
  unfold Rio.finish at hne ⊢
  cases x with
  | ok _ => exact hs
  | error _ =>
    dsimp only at hne ⊢
    split at hne
    · exact absurd rfl hne
    · next hchecking =>
      rw [if_neg hchecking]
      exact hs

lemma drain_finish {k : Nat} {x : Except SendError Unit} (hs : s.drain = .stopped) : (s.finish k x).1.drain = .stopped := by
  unfold Rio.finish
  cases x with
  | ok _ => exact hs
  | error _ =>
    dsimp only
    split
    · rfl
    · exact hs

/-- A call of `send_to` takes its next step. -/
lemma Inv.turn (hi : s.Inv) (k : Nat) (ok : Bool) : (s.turn k ok).1.Inv := by
  unfold Rio.turn
  cases hk : s.calls[k]? with
  | none => exact hi
  | some c =>
    cases c with
    | scanning buf dest i =>
      dsimp only
      split
      · next hlt =>
        intro hne
        have hs := hi hne
        cases hused : s.sendSlots.used.getD i false with
        | true => exact (hs.markUsed hused).setCall hk (by rw [show (s.sendSlots.swap i true).2 = true from hused]; rfl)
        | false =>
          exact (hs.mark hlt hused).setCall hk (by rw [show (s.sendSlots.swap i true).2 = false from hused]; exact zero_add _)
      · exact .finish drain_finish fun hne => (hi hne).eraseCall hk
    | copying buf dest slot =>
      intro hne
      have hs : Holds { s with calls := s.calls.set k (.submitting slot) } _ _ := (hi hne).setCall hk rfl
      exact ⟨hs.size, hs.few, hs.contexts, hs.freed, hs.sends, hs.recvs⟩
    | submitting slot =>
      dsimp only
      split
      · apply Inv.finish drain_finish
        intro hne
        exact ((hi hne).eraseCall hk).submit
      · exact fun hne => (hi hne).setCall hk rfl
    | failing slot =>
      apply Inv.finish drain_finish
      intro hne
      exact ((hi hne).eraseCall hk).free

/-- The loop of `dequeue` takes a result. -/
lemma Holds.take (hs : s.Holds 0 0) {q : RioResult} {results : List RioResult} {out : List RioPacket}
    (hd : s.drain = .dequeuing (q :: results) out) (ok : Bool) : (s.take q results out ok).Inv := by
  have hsends : s.drain.sends + 0 = Drain.sends (.dequeuing results out) + q.sendSlot.toList := by
    rw [hd, add_zero, Drain.sends, Drain.sends, add_comm, ← filterMap_singleton, ← Multiset.filterMap_coe,
      ← Multiset.filterMap_coe, ← Multiset.filterMap_add]
    rfl
  have hrecvs : s.drain.recvs + 0 = Drain.recvs (.dequeuing results out) + q.recvSlot.toList := by
    rw [hd, add_zero, Drain.recvs, Drain.recvs, add_right_comm, ← filterMap_singleton, ← Multiset.filterMap_coe,
      ← Multiset.filterMap_coe, ← Multiset.filterMap_add, add_comm (Drain.results _ : Multiset RioResult)]
    rfl
  unfold Rio.take RioResult.sendSlot sendOf at *
  unfold RioResult.recvSlot recvOf at hrecvs
  dsimp only
  split
  · next hbit =>
    intro _
    rw [if_pos hbit] at hsends hrecvs
    have hslot : s.drain.sends + 0 =
        Drain.sends (.dequeuing results out) + ({(q.requestContext &&& ~~~ctxSendBit).toNat} + 0) := hsends
    have hfree := (hs.goto hslot hrecvs).free
    exact ⟨hfree.size, hfree.few, hfree.contexts, hfree.freed, hfree.sends, hfree.recvs⟩
  · next hbit =>
    rw [if_neg hbit] at hsends hrecvs
    have hpost := hs.postRecv (d := .dequeuing results out) ok hsends (hrecvs.trans (by rw [add_zero]; rfl))
    split
    · exact hpost
    · split
      · split
        · intro _
          refine hs.goto hsends (hrecvs.trans ?_)
          rw [add_zero]
          show ((results.filterMap RioResult.recvSlot : List Nat) : Multiset Nat) + (out.map RioPacket.slot : List Nat) + _ =
            (results.filterMap RioResult.recvSlot : List Nat) + ((out ++ [_]).map RioPacket.slot : List Nat)
          rw [coe_map_concat, add_assoc]
          rfl
        · exact hpost
      · exact hpost

/-- The self-check comes back with its probe as the last packet. -/
lemma Inv.advance (hi : s.Inv) {ok : Bool} (hleft : s.NothingLeft (.advance ok)) : (s.advance ok).Inv := by
  unfold Rio.advance
  -- one case for each place where the drain can be
  cases hd : s.drain with
  | ready => exact hi
  | stopped => exact hi
  | dequeuing results out =>
    have hs := hi (by rw [hd]; nofun)
    cases results with
    | nil =>
      intro _
      apply hs.goto
      · rw [hd]
        split
        · rfl
        · rfl
      · rw [hd]
        split
        · rfl
        · rfl
    | cons q results => exact hs.take hd ok
  | handling todo packets =>
    have hs := hi (by rw [hd]; nofun)
    cases todo with
    | nil =>
      intro _
      exact hs.goto (by rw [hd]; rfl) (by rw [hd]; rfl)
    | cons pkt todo =>
      intro _
      exact hs.goto (by rw [hd]; rfl) (by rw [hd]; rfl)
  | reposting todo =>
    have hs := hi (by rw [hd]; nofun)
    cases todo with
    | nil =>
      intro _
      exact hs.goto (by rw [hd]; rfl) (by rw [hd]; rfl)
    | cons pkt todo => exact hs.postRecv ok (by rw [hd]; rfl) (by rw [hd, Drain.recvs_reposting]; abel)
  | probing todo =>
    have hs := hi (by rw [hd]; nofun)
    cases todo with
    | nil =>
      intro _
      exact hs.goto (by rw [hd]; rfl) (by rw [hd]; rfl)
    | cons pkt todo =>
      -- the slot of the probe goes back like any other; what differs is what is left behind
      have hpost : (s.postRecv pkt.slot ok (.probing todo)).Inv :=
        hs.postRecv ok (by rw [hd]; rfl) (by rw [hd, Drain.recvs_probing]; abel)
      dsimp only
      split
      · next hpass =>
        obtain ⟨rfl, hmatched, hcompleted⟩ := hpass
        unfold NothingLeft at hleft
        rw [hd] at hleft
        cases hleft rfl hmatched hcompleted
        have hpost := hpost (by nofun)
        exact fun _ => ⟨hpost.size, hpost.few, hpost.contexts, hpost.freed, hpost.sends, hpost.recvs⟩
      · exact hpost

lemma Inv.step (hi : s.Inv) {a : RioAct} (hleft : s.NothingLeft a) : (s.step a).1.Inv := by
  cases a with
  | sendTo buf dest =>
    unfold Rio.step
    dsimp only
    split
    · exact hi
    · split
      · exact hi
      · intro hne
        have hs := hi hne
        refine ⟨hs.size, hs.few, hs.contexts, hs.freed, ?_, hs.recvs⟩
        have hnew : (s.calls ++ [SendCall.scanning buf dest 0]).filterMap SendCall.slot = s.preparing := by
          rw [List.filterMap_append]
          exact List.append_nil _
        show ((s.calls ++ [_]).filterMap SendCall.slot : Multiset Nat) + s.inFlight +
          s.completions.filterMap RioResult.sendSlot + s.drain.sends + 0 = s.sendSlots.usedSlots
        rw [hnew]
        exact hs.sends
  | turn k ok => exact hi.turn k ok
  | complete k status bytesTransferred data addr =>
    intro hne
    have hdrain : (s.complete k status bytesTransferred data addr).drain = s.drain := by
      unfold Rio.complete
      split
      · rfl
      · dsimp only
        split
        · rfl
        · rfl
    exact (hi fun h => hne (hdrain.trans h)).complete k status bytesTransferred data addr
  | dequeue n =>
    unfold Rio.step
    dsimp only
    split
    · next hready =>
      intro _
      exact (hi (by rw [hready.1]; nofun)).dequeue hready.1 n
    · exact hi
  | advance ok => exact hi.advance hleft
  | fail => exact fun hne => absurd rfl hne

/-- The slots are conserved where they are in their places. -/
theorem Holds.slotsConserved (hs : s.Holds 0 0) : s.Conserved := by
  have hsends := hs.sends
  have hrecvs := hs.recvs
  rw [add_zero, sendPlaces] at hsends
  rw [add_zero, recvPlaces] at hrecvs
  have hsent : ((s.sent : List Nat) : Multiset Nat) = s.completions.filterMap RioResult.sendSlot + s.drain.sends := by
    rw [sent, List.filterMap_append, ← Multiset.coe_add, Drain.sends]
  have hreceived : ((s.received ++ s.held : List Nat) : Multiset Nat) =
      s.completions.filterMap RioResult.recvSlot + s.drain.recvs := by
    rw [received, List.filterMap_append, ← Multiset.coe_add, ← Multiset.coe_add, Drain.recvs, add_assoc]
    rfl
  have hinFlight : ((s.inFlight : List Nat) : Multiset Nat) ≤ s.sendSlots.usedSlots := by
    rw [← hsends, add_assoc, add_comm (s.preparing : Multiset Nat), add_assoc]
    exact Multiset.le_add_right _ _
  refine ⟨Multiset.coe_nodup.mp (Multiset.nodup_of_le hinFlight SlotTable.nodup_usedSlots), ?_, hs.freed, ?_, ?_⟩
  · intro slot _
    rw [← Multiset.coe_count, ← Multiset.coe_add, ← Multiset.coe_add, hsent, ← add_assoc, hsends, SlotTable.count_usedSlots]
  · intro slot hslot
    rw [List.append_assoc, ← Multiset.coe_count, ← Multiset.coe_add, hreceived, ← add_assoc, hrecvs, Multiset.coe_count]
    exact List.count_eq_one_of_mem List.nodup_range (List.mem_range.mpr hslot)
  · have hcardSend := congrArg Multiset.card hsends
    have hcardRecv := congrArg Multiset.card hrecvs
    simp only [Multiset.card_add, Multiset.coe_card, List.length_range] at hcardSend hcardRecv
    -- the bounds are those of the cards: every slot is in one place
    have hused : s.sendSlots.usedSlots.card ≤ s.nSend := by
      rw [SlotTable.usedSlots, Multiset.coe_card, ← hs.size]
      exact (List.length_filter_le _ _).trans_eq List.length_range
    have hrequests : s.inFlight.length + s.posted.length = s.outstanding.length := by
      refine length_filterMap_add (fun q => ?_) _
      unfold RioRequest.recvSlot RioRequest.sendSlot
      split
      · rfl
      · rfl
    have hresults : (s.completions.filterMap RioResult.sendSlot).length + (s.completions.filterMap RioResult.recvSlot).length =
        s.completions.length := by
      refine length_filterMap_add (fun q => ?_) _
      unfold RioResult.recvSlot RioResult.sendSlot recvOf sendOf
      split
      · rfl
      · rfl
    omega

/-- The self-check that comes back loses the packets that it has not looked at. -/
lemma Conserved.nothing_held (hs : s.Conserved) (hlt : ∀ slot ∈ s.held, slot < s.nRecv)
    (hnext : Conserved { s with drain := .ready, checking := false }) (hresults : s.drain.results = []) : s.drain.held = [] := by
  by_contra hne
  obtain ⟨pkt, hpkt⟩ := List.exists_mem_of_ne_nil _ hne
  have hheld : pkt.slot ∈ s.held := List.mem_map_of_mem hpkt
  have hone := hs.recv pkt.slot (hlt _ hheld)
  have hsame := hnext.recv pkt.slot (hlt _ hheld)
  have hreceived : received { s with drain := .ready, checking := false } = s.received := by
    unfold received
    rw [hresults]
    rfl
  change ((s.posted ++ received { s with drain := .ready, checking := false } ++ []).count pkt.slot = 1) at hsame
  rw [hreceived, List.append_nil] at hsame
  rw [List.count_append, hsame] at hone
  have := List.count_pos_iff.mpr hheld
  omega

/-- A step leaves the slots conserved exactly if the self-check leaves no packet behind. -/
theorem Inv.sound_iff (hi : s.Inv) (a : RioAct) : s.NothingLeft a ↔ (s.step a).1.Sound := by
  constructor
  · exact fun hleft hne => (hi.step hleft hne).slotsConserved
  · intro hsound
    cases a with
    | advance ok =>
      unfold NothingLeft
      cases hd : s.drain with
      | probing todo =>
        cases todo with
        | nil => trivial
        | cons pkt todo =>
          rintro rfl hmatched hcompleted
          -- the self-check is the only step that can lose a slot
          have hpost : (s.postRecv pkt.slot true (.probing todo)).Holds 0 0 :=
            (hi (by rw [hd]; nofun)).postRecv true (by rw [hd]; rfl) (by rw [hd, Drain.recvs_probing]; abel) nofun
          have hnext : Conserved { s.postRecv pkt.slot true (.probing todo) with drain := .ready, checking := false } := by
            have hstep : (s.step (.advance true)).1 =
                { s.postRecv pkt.slot true (.probing todo) with drain := .ready, checking := false } := by
              unfold Rio.step Rio.advance
              rw [hd]
              exact if_pos ⟨rfl, hmatched, hcompleted⟩
            rw [hstep] at hsound
            exact hsound nofun
          apply hpost.slotsConserved.nothing_held _ hnext rfl
          intro slot hslot
          apply hpost.mem_recvs
          simp only [recvPlaces, Drain.recvs, Multiset.mem_add, Multiset.mem_coe]
          exact .inl (.inr (.inr hslot))
      | ready => trivial
      | dequeuing _ _ => trivial
      | handling _ _ => trivial
      | reposting _ => trivial
      | stopped => trivial
    | sendTo _ _ => trivial
    | turn _ _ => trivial
    | complete _ _ _ _ _ => trivial
    | dequeue _ => trivial
    | fail => trivial

lemma recvData_postRecv (ok : Bool) (d : Drain) : (s.postRecv slot ok d).recvData = s.recvData := by
  cases ok with
  | true => rfl
  | false => rfl

lemma recvData_finish (k : Nat) (x : Except SendError Unit) : (s.finish k x).1.recvData = s.recvData := by
  unfold Rio.finish
  cases x with
  | ok _ => rfl
  | error _ =>
    dsimp only
    split
    · rfl
    · rfl

lemma recvData_turn (k : Nat) (ok : Bool) : (s.turn k ok).1.recvData = s.recvData := by
  unfold Rio.turn
  split
  · rfl
  · split
    · rfl
    · exact recvData_finish k _
  · rfl
  · split
    · rfl
    · rfl
  · exact recvData_finish k _

lemma recvData_take (q : RioResult) (results : List RioResult) (out : List RioPacket) (ok : Bool) :
    (s.take q results out ok).recvData = s.recvData := by
  unfold Rio.take
  dsimp only
  split
  · rfl
  · split
    · exact recvData_postRecv ok _
    · split
      · split
        · rfl
        · exact recvData_postRecv ok _
      · exact recvData_postRecv ok _

lemma recvData_advance (ok : Bool) : (s.advance ok).recvData = s.recvData := by
  unfold Rio.advance
  split
  · rfl
  · rfl
  · exact recvData_take _ _ _ ok
  · rfl
  · rfl
  · rfl
  · exact recvData_postRecv ok _
  · rfl
  · dsimp only
    split
    · exact recvData_postRecv ok _
    · exact recvData_postRecv ok _
  · rfl

/-- Winsock writes to slots that are posted only. -/
theorem Inv.intact (hi : s.Inv) (a : RioAct) : s.Intact a := by
  intro hne pkt hpkt
  have hs := hi hne
  have hslot : pkt.slot ∈ s.held := List.mem_map_of_mem hpkt
  suffices hdata : (s.step a).1.recvData.getD pkt.slot [] = s.recvData.getD pkt.slot [] by rw [packetData, packetData, hdata]
  cases a with
  | sendTo buf dest =>
    unfold Rio.step
    dsimp only
    split
    · rfl
    · split
      · rfl
      · rfl
  | turn k ok =>
    show (s.turn k ok).1.recvData.getD pkt.slot [] = _
    rw [recvData_turn]
  | complete k status bytesTransferred data addr =>
    unfold Rio.step Rio.complete
    dsimp only
    split
    · rfl
    · next q hk =>
      split
      · rfl
      · next hrecv =>
        have hposted : q.slot ∈ s.posted :=
          List.mem_filterMap.mpr ⟨q, List.mem_of_getElem? hk, by rw [RioRequest.recvSlot, if_neg hrecv]⟩
        -- a slot that is both posted and held would be counted twice
        have hother : q.slot ≠ pkt.slot := by
          intro heq
          have hone := hs.slotsConserved.recv pkt.slot (hs.mem_recvs (by
            simp only [recvPlaces, Drain.recvs, Multiset.mem_add, Multiset.mem_coe]
            exact .inl (.inr (.inr hslot))))
          rw [heq] at hposted
          have hp := List.count_pos_iff.mpr hposted
          have hh := List.count_pos_iff.mpr hslot
          rw [List.count_append, List.count_append] at hone
          omega
        show (s.recvData.set q.slot _).getD pkt.slot [] = _
        rw [List.getD_eq_getElem?_getD, List.getElem?_set_ne hother, List.getD_eq_getElem?_getD]
  | dequeue n =>
    unfold Rio.step
    dsimp only
    split
    · rfl
    · rfl
  | advance ok =>
    show (s.advance ok).recvData.getD pkt.slot [] = _
    rw [recvData_advance]
  | fail => rfl

end

end Rio

open Rio

lemma few_of_checkedRegion {n : Nat} (h : (checkedRegion n).isSome) : n < 2 ^ 63 := by
  unfold checkedRegion at h
  split at h
  · next hlt =>
    unfold slotCap addrCap at hlt
    omega
  · cases h

lemma holds_create {nRecv nSend : Nat} (hrecv : (checkedRegion nRecv).isSome) (hsend : (checkedRegion nSend).isSome)
    (target : SocketAddr) : (create nRecv nSend target).Holds 0 0 where
  size := List.length_replicate
  few := ⟨few_of_checkedRegion hsend, few_of_checkedRegion hrecv⟩
  contexts := by
    intro q hq
    obtain ⟨slot, -, rfl⟩ := List.mem_map.mp hq
    rfl
  freed := rfl
  sends := by
    have hnone : (create nRecv nSend target).inFlight = [] := by
      unfold inFlight create
      rw [List.filterMap_map, List.filterMap_eq_nil_iff]
      exact fun _ _ => rfl
    have hfree : (create nRecv nSend target).sendSlots.usedSlots = 0 := by
      apply Multiset.eq_zero_of_forall_notMem
      intro slot hslot
      rw [SlotTable.mem_usedSlots, create, SlotTable.new] at hslot
      simp at hslot
    rw [sendPlaces, hnone, hfree]
    rfl
  recvs := by
    have hall : (create nRecv nSend target).posted = List.range nRecv := by
      unfold posted create
      rw [List.filterMap_map]
      exact List.filterMap_some
    rw [recvPlaces, hall]
    show ((List.range nRecv : List Nat) : Multiset Nat) + 0 + (0 + 0) + 0 = _
    simp only [add_zero]
    rfl

/-- In every run from `create` on, whatever the threads, the network and Winsock do, up to the first error the slots are
conserved and the data of the packets that are held stays, if and only if the self-check passes with the last packet of its
batch. -/
theorem slots_conserved_iff {nRecv nSend : Nat} (hrecv : (checkedRegion nRecv).isSome) (hsend : (checkedRegion nSend).isSome)
    (target : SocketAddr) (acts : List RioAct) :
    ((∀ pre, pre <+: acts → (run Rio.step (create nRecv nSend target) pre).1.Sound) ∧
        Along Rio.step Intact (create nRecv nSend target) acts) ↔
      Along Rio.step NothingLeft (create nRecv nSend target) acts := by
  have hstart := holds_create hrecv hsend target
  have hany : Along Rio.step (fun _ _ => True) (create nRecv nSend target) acts := along_of_forall fun _ _ => trivial
  have hsound : Along Rio.step NothingLeft (create nRecv nSend target) acts ↔
      Along Rio.step (fun s a => (s.step a).1.Sound) (create nRecv nSend target) acts :=
    along_congr (I := Inv) hany (fun s a hs _ hleft => hs.step hleft) (fun s a hs _ => hs.sound_iff a) fun _ => hstart
  have hbegin : (create nRecv nSend target).Sound := fun _ => hstart.slotsConserved
  rw [forall_prefix_iff, and_iff_right hbegin, ← hsound, and_iff_left_iff_imp]
  exact fun hleft => hleft.of_invariant (I := Inv) (fun s a hs hl => hs.step hl) (fun s a hs _ => hs.intact a) fun _ => hstart

def loopback : SocketAddr := ⟨[127, 0, 0, 1], 7000⟩

/-- The probe comes in, and with it a datagram of someone else. -/
def foreignBehindProbe : List RioAct :=
  [.turn 0 true, .turn 0 true, .turn 0 true, .complete 2 0 18 [] [], .complete 0 0 18 probe [2, 0, 0x1B, 0x58, 127, 0, 0, 1],
    .complete 0 0 3 [1, 2, 3] [2, 0, 0x1B, 0x59, 203, 0, 113, 9], .dequeue 64, .advance true, .advance true, .advance true,
    .advance true, .advance true]

/-- The check passes, and the second receive slot is in no place any more. -/
theorem slot_lost_in_self_check : ¬ (run Rio.step (create 2 1 loopback) foreignBehindProbe).1.Sound := by
  intro hsound
  have hone := (hsound (by decide +kernel)).recv 1 (by decide +kernel)
  revert hone
  decide +kernel

/-- The self-check, two calls of which one finds no free slot, a datagram and its way through the event loop. -/
theorem slots_conserved_iff_sample :
    let acts : List RioAct :=
      [.turn 0 true, .turn 0 true, .turn 0 true, .complete 2 0 18 [] [],
        .complete 0 0 18 probe [2, 0, 0x1B, 0x58, 127, 0, 0, 1], .dequeue 64, .advance true, .advance true, .advance true,
        .advance true, .sendTo [7] loopback, .sendTo [8] loopback, .turn 0 true, .turn 1 true, .turn 0 true, .turn 0 false,
        .turn 1 true, .complete 0 0 3 [1, 2, 3] [2, 0, 0x1B, 0x59, 203, 0, 113, 9], .dequeue 64, .advance true, .advance true,
        .advance true, .advance true, .turn 0 true, .advance true]
    (∀ pre, pre <+: acts → (run Rio.step (create 2 1 loopback) pre).1.Sound) ∧ Along Rio.step Intact (create 2 1 loopback) acts :=
  (slots_conserved_iff (by decide) (by decide) loopback _).mpr (by decide +kernel)

end IPv8Plus.WintunNode
