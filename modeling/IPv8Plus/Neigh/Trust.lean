import IPv8Plus.Neigh.Neighbor
import IPv8Plus.Lib.Run

/-!
# Who becomes a neighbor

A world keeps beside the processor what it has forgotten: every recording of a HELLO, which of them the queue still holds and
which an ACK has consumed, and every nonce that passed the checks on a frame. A key gets into the table by consent or by an ACK
that consumes a recording, and no recording is consumed twice.
-/

namespace IPv8Plus.Neigh
open Lib

inductive Call where
  | buildHello (nonce : UInt64) (now : Int)
  | recordHelloSent (nonce : UInt64) (now : Int)
  | processHello (frame : Bytes) (srcMac : Mac) (now : Int)
  | processAck (frame : Bytes) (srcMac : Mac) (now : Int)
  | approveConsent (hello : NeighborMessage) (srcMac : Mac) (now : Int)
  | removePubkey (pubkey : PublicKey)
  | removePubkeyPrefix (start : Bytes)
  | removeAddr (addr : Addr)
  | removeMac (mac : Mac)

inductive Answer where
  | done
  | removed (found : Bool)
  | frame (bytes : Bytes)
  | hello (decision : HelloDecision)
  | ack (result : Except NeighError NeighborRecord)

def Answer.rejected : Answer → Bool
  | .hello (.reject _) => true
  | .ack (.error _) => true
  | _ => false

def Answer.acked : Answer → Bool
  | .ack (.ok _) => true
  | _ => false

/-- The frame that a call brings in. -/
def Call.brings : Call → Option Bytes
  | .processHello frame _ _ => some frame
  | .processAck frame _ _ => some frame
  | _ => none

/-- What the processor has forgotten: all recordings, which of them the queue holds and which an ACK has consumed, and the
nonces that passed, key by key. -/
structure History where
  recorded : List (UInt64 × Int) := []
  waiting : List Nat := []
  consumed : List Nat := []
  verified : PublicKey → List UInt64 := fun _ => []

namespace History

def entry (h : History) (i : Nat) : UInt64 × Int := h.recorded.getD i (0, 0)

/-- The nonces of a key that passed last. -/
def recent (h : History) (key : PublicKey) : List UInt64 := (h.verified key).rtake nonceRing

def prune (h : History) (now : Int) : History := { h with waiting := h.waiting.filter fun i => live now (h.entry i).2 }

def record (h : History) (nonce : UInt64) (now : Int) : History :=
  let h := h.prune now
  let waiting := if pendingMax ≤ h.waiting.length then h.waiting.drop 1 else h.waiting
  { h with recorded := h.recorded ++ [(nonce, now)], waiting := waiting ++ [h.recorded.length] }

def pass (h : History) (msg : NeighborMessage) : History :=
  { h with verified := fun k => if k = msg.pubkey then h.verified msg.pubkey ++ [msg.nonce] else h.verified k }

def spend (h : History) (pos : Nat) : History :=
  { h with waiting := h.waiting.eraseIdx pos, consumed := h.consumed ++ [h.waiting.getD pos 0] }

def consume (h : History) (nonce : UInt64) (now : Int) : History :=
  let h := h.prune now
  match h.waiting.findIdx? fun i => (h.entry i).1 = nonce with
  | none => h
  | some pos => h.spend pos

lemma consume_none {h : History} {nonce : UInt64} {now : Int}
    (hnone : (h.prune now).waiting.findIdx? (fun i => ((h.prune now).entry i).1 = nonce) = none) :
    h.consume nonce now = h.prune now := by
  simp only [consume, hnone]

lemma consume_some {h : History} {nonce : UInt64} {now : Int} {pos : Nat}
    (hsome : (h.prune now).waiting.findIdx? (fun i => ((h.prune now).entry i).1 = nonce) = some pos) :
    h.consume nonce now = (h.prune now).spend pos := by
  simp only [consume, hsome]

def hello (h : History) : Except NeighError NeighborMessage → History
  | .error _ => h
  | .ok msg => h.pass msg

def ack (h : History) (now : Int) : Except NeighError NeighborMessage → History
  | .error _ => h
  | .ok msg => (h.pass msg).consume msg.nonce now

end History

structure World where
  proc : NeighborProcessor
  past : History := {}

namespace World

def start (localAddr : Addr) (localPubkey : PublicKey) (store : NeighborStore) : World :=
  { proc := .new localAddr localPubkey store }

def keys (w : World) : List PublicKey := w.proc.store.keys

def setStore (w : World) (store : NeighborStore) : World := { w with proc := { w.proc with store } }

variable (S : SignatureOps)

def step (w : World) : Call → World × Answer
  | .buildHello nonce now =>
    (⟨(w.proc.buildHello S nonce now).1, w.past.record nonce now⟩, .frame (w.proc.buildHello S nonce now).2)
  | .recordHelloSent nonce now => (⟨w.proc.recordHelloSent nonce now, w.past.record nonce now⟩, .done)
  | .processHello frame srcMac now =>
    let (proc, decision) := w.proc.processHello S frame srcMac now
    (⟨proc, w.past.hello (w.proc.verifyFrame S frame msgHello now).2⟩, .hello decision)
  | .processAck frame srcMac now =>
    let (proc, result) := w.proc.processAck S frame srcMac now
    (⟨proc, w.past.ack now (w.proc.verifyFrame S frame msgAck now).2⟩, .ack result)
  | .approveConsent hello srcMac now => ({ w with proc := w.proc.approveConsent hello srcMac now }, .done)
  | .removePubkey pubkey => (w.setStore (w.proc.store.removePubkey pubkey).1, .removed (w.proc.store.removePubkey pubkey).2)
  | .removePubkeyPrefix start =>
    (w.setStore (w.proc.store.removePubkeyPrefix start).1, .removed (w.proc.store.removePubkeyPrefix start).2)
  | .removeAddr addr => (w.setStore (w.proc.store.removeAddr addr).1, .removed (w.proc.store.removeAddr addr).2)
  | .removeMac mac => (w.setStore (w.proc.store.removeMac mac).1, .removed (w.proc.store.removeMac mac).2)

end World

/-! ## The queue and the rings -/

/-- The queue and the rings are what is left of the history. -/
structure Follows (p : NeighborProcessor) (h : History) : Prop where
  pending : p.pending = h.waiting.map h.entry
  seen : ∀ key, p.seen key = h.recent key
  fresh : (h.waiting ++ h.consumed).Nodup
  bound : ∀ i ∈ h.waiting ++ h.consumed, i < h.recorded.length

namespace Follows
open NeighborProcessor

variable {p : NeighborProcessor} {h : History} {nonce : UInt64} {now : Int} {msg : NeighborMessage}

lemma push_rtake (l : List UInt64) (nonce : UInt64) : push (l.rtake nonceRing) nonce = (l ++ [nonce]).rtake nonceRing := by
  unfold push List.rtake
  rw [List.length_drop, List.length_append, List.length_singleton]
  split
  · next hfull =>
    rw [List.drop_drop, List.drop_append_of_le_length (by unfold nonceRing at *; omega)]
    congr 2
    unfold nonceRing at *
    omega
  · next hroom =>
    have hall : l.length - nonceRing = 0 := by unfold nonceRing at *; omega
    have hall' : l.length + 1 - nonceRing = 0 := by unfold nonceRing at *; omega
    rw [hall, hall']
    rfl

lemma setStore (hf : Follows p h) (store : NeighborStore) : Follows { p with store } h := ⟨hf.pending, hf.seen, hf.fresh, hf.bound⟩

lemma note (hf : Follows p h) (msg : NeighborMessage) : Follows (p.note msg) (h.pass msg) := by
  refine ⟨hf.pending, ?_, hf.fresh, hf.bound⟩
  intro key
  show (if key = msg.pubkey then _ else _) = List.rtake (if key = msg.pubkey then _ else _) nonceRing
  split
  · rw [hf.seen]
    exact push_rtake _ _
  · exact hf.seen key

/-- Fewer of the recordings wait. -/
lemma sublist {waiting : List Nat} (hf : Follows p h) (hsub : waiting.Sublist h.waiting) :
    Follows { p with pending := waiting.map h.entry } { h with waiting } :=
  ⟨rfl, hf.seen, hf.fresh.sublist (hsub.append_right _), fun i hi => hf.bound i ((hsub.append_right _).subset hi)⟩

lemma pending_prune (hf : Follows p h) (now : Int) : (p.prunePending now).pending = (h.prune now).waiting.map h.entry := by
  show p.pending.filter _ = _
  rw [hf.pending, List.filter_map]
  rfl

lemma prune (hf : Follows p h) (now : Int) : Follows (p.prunePending now) (h.prune now) := by
  have hsub := hf.sublist (List.filter_sublist (p := fun i => live now (h.entry i).2))
  exact ⟨hf.pending_prune now, hsub.seen, hsub.fresh, hsub.bound⟩

lemma spend (hf : Follows p h) {pos : Nat} (hpos : pos < h.waiting.length) :
    Follows { p with pending := p.pending.eraseIdx pos } (h.spend pos) := by
  have hget : h.waiting.getD pos 0 = h.waiting[pos] := by rw [List.getD_eq_getElem?_getD, List.getElem?_eq_getElem hpos]; rfl
  -- the recording moves from those that wait to those that are consumed
  have hperm : (h.waiting.eraseIdx pos ++ (h.consumed ++ [h.waiting.getD pos 0])).Perm (h.waiting ++ h.consumed) := by
    rw [hget, ← List.append_assoc]
    apply (List.perm_append_singleton _ _).trans
    exact (List.getElem_cons_eraseIdx_perm hpos).append_right h.consumed
  refine ⟨?_, hf.seen, hperm.nodup_iff.mpr hf.fresh, fun i hi => hf.bound i (hperm.subset hi)⟩
  show p.pending.eraseIdx pos = (h.waiting.eraseIdx pos).map h.entry
  rw [hf.pending, List.eraseIdx_map]

lemma entry_concat {i : Nat} (hi : i < h.recorded.length) (e : UInt64 × Int) :
    ({ h with recorded := h.recorded ++ [e] } : History).entry i = h.entry i := by
  unfold History.entry
  rw [List.getD_append _ _ _ _ hi]

/-- A new recording waits behind the others. -/
lemma concat (hf : Follows p h) (e : UInt64 × Int) :
    Follows { p with pending := p.pending ++ [e] }
      { h with recorded := h.recorded ++ [e], waiting := h.waiting ++ [h.recorded.length] } := by
  refine ⟨?_, hf.seen, ?_, ?_⟩
  · have hold : h.waiting.map ({ h with recorded := h.recorded ++ [e] } : History).entry = h.waiting.map h.entry :=
      List.map_congr_left fun i hi => entry_concat (hf.bound i (List.mem_append_left _ hi)) e
    have hnew : ({ h with recorded := h.recorded ++ [e] } : History).entry h.recorded.length = e := by simp [History.entry]
    show p.pending ++ [e] = (h.waiting ++ [h.recorded.length]).map ({ h with recorded := h.recorded ++ [e] } : History).entry
    rw [List.map_append, hold, List.map_singleton, hnew, hf.pending]
  · show (h.waiting ++ [h.recorded.length] ++ h.consumed).Nodup
    apply (List.perm_append_singleton _ _).append_right h.consumed |>.nodup_iff.mpr
    exact List.nodup_cons.mpr ⟨fun hmem => (hf.bound _ hmem).false, hf.fresh⟩
  · intro i hi
    rw [List.length_append]
    rcases List.mem_append.mp hi with hi | hi
    · rcases List.mem_append.mp hi with hi | hi
      · exact Nat.lt_succ_of_lt (hf.bound i (List.mem_append_left _ hi))
      · rw [List.mem_singleton.mp hi]
        exact Nat.lt_succ_self _
    · exact Nat.lt_succ_of_lt (hf.bound i (List.mem_append_right _ hi))

lemma cap (hf : Follows p h) :
    Follows { p with pending := if pendingMax ≤ p.pending.length then p.pending.drop 1 else p.pending }
      { h with waiting := if pendingMax ≤ h.waiting.length then h.waiting.drop 1 else h.waiting } := by
  rw [hf.pending, List.length_map]
  split
  · rw [← List.map_drop]
    exact hf.sublist (List.drop_sublist 1 h.waiting)
  · exact hf.sublist (List.Sublist.refl h.waiting)

lemma record (hf : Follows p h) (nonce : UInt64) (now : Int) : Follows (p.recordHelloSent nonce now) (h.record nonce now) :=
  (hf.prune now).cap.concat (nonce, now)

/-- The entry with the nonce stands where its recording does. -/
lemma findIdx?_pending (hf : Follows p h) (nonce : UInt64) :
    (p.pending.findIdx? fun e => e.1 = nonce) = h.waiting.findIdx? fun i => (h.entry i).1 = nonce := by
  rw [hf.pending, List.findIdx?_map]
  rfl

end Follows

/-! ## One call -/

/-- A genuine ACK with the nonce of the `i`-th recording, which is not too old and which no ACK has consumed. -/
structure Echoes (S : SignatureOps) (h : History) (frame : Bytes) (now : Int) (msg : NeighborMessage) (i : Nat) : Prop where
  genuine : NeighborProcessor.Genuine S msgAck frame now msg
  recorded : ∃ t, h.recorded[i]? = some (msg.nonce, t) ∧ now - t ≤ pendingTtlSecs
  unused : i ∉ h.consumed

/-- The call is an ACK that consumes the `i`-th recording. -/
def Acks (S : SignatureOps) (w : World) (c : Call) (msg : NeighborMessage) (i : Nat) : Prop :=
  ∃ frame srcMac now, c = .processAck frame srcMac now ∧ Echoes S w.past frame now msg i ∧
    (w.step S c).1.past.consumed = w.past.consumed ++ [i]

/-- What a call may do to the table, to the recordings and to the nonces that passed. -/
structure Trusted (S : SignatureOps) (w : World) (c : Call) : Prop where
  joins : ∀ key ∈ (w.step S c).1.keys, key ∉ w.keys →
    (∃ hello srcMac now, c = .approveConsent hello srcMac now ∧ hello.pubkey = key) ∨
      ∃ msg i, Acks S w c msg i ∧ msg.pubkey = key
  consumes : (w.step S c).2.acked = true → ∃ msg i, Acks S w c msg i
  spares : (w.step S c).2.acked = false → (w.step S c).1.past.consumed = w.past.consumed
  keeps : (w.step S c).2.rejected = true → (w.step S c).1.proc.store = w.proc.store
  passes : ∀ frame, c.brings = some frame → (w.step S c).2.rejected = false →
    ∃ msg, decode frame = .ok msg ∧ msg.nonce ∉ w.past.recent msg.pubkey ∧
      (w.step S c).1.past.verified msg.pubkey = w.past.verified msg.pubkey ++ [msg.nonce]

namespace Follows

variable {S : SignatureOps} {p : NeighborProcessor} {h : History} {msg : NeighborMessage} {now : Int}

/-- The entry of the queue that an ACK finds is a recording that still counts. -/
lemma echoes (hf : Follows p h) {frame : Bytes} {pos : Nat} (hgen : NeighborProcessor.Genuine S msgAck frame now msg)
    (hpos : ((h.pass msg).prune now).waiting.findIdx? (fun i => (h.entry i).1 = msg.nonce) = some pos) :
    Echoes S h frame now msg (((h.pass msg).prune now).waiting.getD pos 0) := by
  obtain ⟨hlt, hnonce, -⟩ := List.findIdx?_eq_some_iff_getElem.mp hpos
  have hmem := List.getElem_mem hlt
  have hget : ((h.pass msg).prune now).waiting.getD pos 0 = ((h.pass msg).prune now).waiting[pos] := by
    rw [List.getD_eq_getElem?_getD, List.getElem?_eq_getElem hlt]
    rfl
  rw [hget]
  generalize ((h.pass msg).prune now).waiting[pos] = i at hnonce hmem
  obtain ⟨hwait, hlive⟩ := List.mem_filter.mp hmem
  have hbound : i < h.recorded.length := hf.bound i (List.mem_append_left _ hwait)
  have hentry : h.entry i = h.recorded[i] := by
    unfold History.entry
    rw [List.getD_eq_getElem?_getD, List.getElem?_eq_getElem hbound]
    rfl
  rw [hentry, decide_eq_true_eq] at hnonce
  have hlive' : live now (h.entry i).2 = true := hlive
  rw [NeighborProcessor.live_iff, hentry] at hlive'
  refine ⟨hgen, ⟨h.recorded[i].2, ?_, hlive'⟩, fun hused => ?_⟩
  · rw [List.getElem?_eq_getElem hbound, ← hnonce]
  · exact (List.nodup_append.mp hf.fresh).2.2 i hwait i hused rfl

end Follows

namespace World

variable {S : SignatureOps} {w : World}

/-- A call that brings no frame in is trusted if it adds no key but by consent. -/
lemma trusted_quiet {c : Call} (hc : c.brings = none) (hkeys : ∀ key ∈ (w.step S c).1.keys, key ∉ w.keys →
    ∃ hello srcMac now, c = .approveConsent hello srcMac now ∧ hello.pubkey = key) : Trusted S w c := by
  have hanswer : (w.step S c).2.acked = false ∧ (w.step S c).2.rejected = false ∧
      (w.step S c).1.past.consumed = w.past.consumed := by
    cases c with
    | processHello => cases hc
    | processAck => cases hc
    | _ => exact ⟨rfl, rfl, rfl⟩
  obtain ⟨hacked, hrejected, hconsumed⟩ := hanswer
  refine ⟨fun key hmem hnew => .inl (hkeys key hmem hnew), ?_, fun _ => hconsumed, ?_, ?_⟩
  · rw [hacked]
    exact nofun
  · rw [hrejected]
    exact nofun
  · rw [hc]
    exact nofun

lemma verified_pass {h : History} {msg : NeighborMessage} :
    (h.pass msg).verified msg.pubkey = h.verified msg.pubkey ++ [msg.nonce] := if_pos rfl

lemma acked_of_rejected {r : Answer} (h : r.rejected = true) : r.acked = false := by
  cases r with
  | ack result =>
    cases result with
    | error e => rfl
    | ok record => cases h
  | _ => rfl

/-- A frame that is refused before its nonce is noted. -/
lemma trusted_refused {c : Call} {r : Answer} (hstep : w.step S c = (w, r)) (hr : r.rejected = true) : Trusted S w c := by
  constructor <;> rw [hstep]
  · exact fun key hmem hnew => absurd hmem hnew
  · rw [acked_of_rejected hr]
    exact nofun
  · exact fun _ => rfl
  · exact fun _ => rfl
  · rw [hr]
    exact nofun

/-- A frame whose nonce is noted. -/
lemma trusted_noted {c : Call} {frame : Bytes} {msg : NeighborMessage} {proc : NeighborProcessor} {past : History} {r : Answer}
    (hstep : w.step S c = (⟨proc, past⟩, r)) (hc : c.brings = some frame) (hdecoded : decode frame = .ok msg)
    (hseen : msg.nonce ∉ w.past.recent msg.pubkey) (hverified : past.verified = (w.past.pass msg).verified)
    (hack : r.acked = true → ∃ i, Acks S w c msg i) (hspares : r.acked = false → past.consumed = w.past.consumed)
    (hjoins : ∀ key ∈ proc.store.keys, key ∈ w.keys ∨ r.acked = true ∧ key = msg.pubkey)
    (hkeeps : r.rejected = true → proc.store = w.proc.store) : Trusted S w c := by
  constructor <;> rw [hstep]
  · intro key hmem hnew
    rcases hjoins key hmem with hold | ⟨hacked, rfl⟩
    · exact absurd hold hnew
    · obtain ⟨i, hi⟩ := hack hacked
      exact .inr ⟨msg, i, hi, rfl⟩
  · exact fun hacked => ⟨msg, hack hacked⟩
  · exact hspares
  · exact hkeeps
  · intro f hf _
    cases hc.symm.trans hf
    exact ⟨msg, hdecoded, hseen, (congrFun hverified _).trans verified_pass⟩

lemma step_hello (frame : Bytes) (srcMac : Mac) (now : Int) : w.step S (.processHello frame srcMac now) =
    (⟨(w.proc.processHello S frame srcMac now).1, w.past.hello (w.proc.verifyFrame S frame msgHello now).2⟩,
      .hello (w.proc.processHello S frame srcMac now).2) := rfl

lemma step_ack (frame : Bytes) (srcMac : Mac) (now : Int) : w.step S (.processAck frame srcMac now) =
    (⟨(w.proc.processAck S frame srcMac now).1, w.past.ack now (w.proc.verifyFrame S frame msgAck now).2⟩,
      .ack (w.proc.processAck S frame srcMac now).2) := rfl

lemma trusted_hello (hf : Follows w.proc w.past) (frame : Bytes) (srcMac : Mac) (now : Int) :
    Trusted S w (.processHello frame srcMac now) ∧
      Follows (w.step S (.processHello frame srcMac now)).1.proc (w.step S (.processHello frame srcMac now)).1.past := by
  rcases w.proc.processHello_cases S frame srcMac now with ⟨e, hv, hp⟩ | ⟨msg, hgen, hseen, hv, hp⟩
  · have hstep := w.step_hello (S := S) frame srcMac now
    rw [hv, hp] at hstep
    refine ⟨trusted_refused hstep rfl, ?_⟩
    rw [hstep]
    exact hf
  · rw [hf.seen] at hseen
    rcases hp with ⟨hmem, hp⟩ | hp
    · have hstep := w.step_hello (S := S) frame srcMac now
      rw [hv, hp] at hstep
      refine ⟨trusted_noted hstep rfl hgen.decoded hseen rfl nofun (fun _ => rfl) ?_ nofun, ?_⟩
      · intro key hkey
        rcases NeighborStore.mem_keys_upsert.mp hkey with hold | rfl
        · exact .inl hold
        · exact .inl hmem
      · rw [hstep]
        exact (hf.note msg).setStore _
    · have hstep := w.step_hello (S := S) frame srcMac now
      rw [hv, hp] at hstep
      refine ⟨trusted_noted hstep rfl hgen.decoded hseen rfl nofun (fun _ => rfl) (fun _ => .inl) nofun, ?_⟩
      rw [hstep]
      exact hf.note msg

lemma trusted_ack (hf : Follows w.proc w.past) (frame : Bytes) (srcMac : Mac) (now : Int) :
    Trusted S w (.processAck frame srcMac now) ∧
      Follows (w.step S (.processAck frame srcMac now)).1.proc (w.step S (.processAck frame srcMac now)).1.past := by
  have hstep := w.step_ack (S := S) frame srcMac now
  rcases w.proc.processAck_cases S frame srcMac now with ⟨e, hv, hp⟩ | ⟨msg, hgen, hseen, hv, hp⟩
  · rw [hv, hp] at hstep
    refine ⟨trusted_refused hstep rfl, ?_⟩
    rw [hstep]
    exact hf
  · rw [hf.seen] at hseen
    have hpruned := (hf.note msg).prune now
    have hfind := hpruned.findIdx?_pending msg.nonce
    rw [hv] at hstep
    rcases hp with ⟨hnone, hp⟩ | ⟨pos, hsome, hp⟩
    · rw [hfind] at hnone
      have hpast : w.past.ack now (.ok msg) = (w.past.pass msg).prune now := History.consume_none hnone
      rw [hp, hpast] at hstep
      refine ⟨trusted_noted hstep rfl hgen.decoded hseen rfl nofun (fun _ => rfl) (fun _ => .inl) (fun _ => rfl), ?_⟩
      rw [hstep]
      exact hpruned
    · rw [hfind] at hsome
      have hpast : w.past.ack now (.ok msg) = ((w.past.pass msg).prune now).spend pos := History.consume_some hsome
      rw [hp, hpast] at hstep
      obtain ⟨hlt, -⟩ := List.findIdx?_eq_some_iff_getElem.mp hsome
      refine ⟨trusted_noted hstep rfl hgen.decoded hseen rfl (fun _ => ?_) nofun ?_ nofun, ?_⟩
      · refine ⟨_, frame, srcMac, now, rfl, hf.echoes hgen hsome, ?_⟩
        rw [hstep]
        rfl
      · intro key hkey
        rcases NeighborStore.mem_keys_upsert.mp hkey with hold | rfl
        · exact .inl hold
        · exact .inr ⟨rfl, rfl⟩
      · rw [hstep]
        exact (hpruned.spend hlt).setStore _

lemma trusted_step (hf : Follows w.proc w.past) (c : Call) :
    Trusted S w c ∧ Follows (w.step S c).1.proc (w.step S c).1.past := by
  cases c with
  | buildHello nonce now => exact ⟨trusted_quiet rfl fun key hmem hnew => absurd hmem hnew, hf.record nonce now⟩
  | recordHelloSent nonce now => exact ⟨trusted_quiet rfl fun key hmem hnew => absurd hmem hnew, hf.record nonce now⟩
  | processHello frame srcMac now => exact trusted_hello hf frame srcMac now
  | processAck frame srcMac now => exact trusted_ack hf frame srcMac now
  | approveConsent hello srcMac now =>
    refine ⟨trusted_quiet rfl fun key hmem hnew => ?_, hf.setStore _⟩
    rcases NeighborStore.mem_keys_upsert.mp hmem with hold | heq
    · exact absurd hold hnew
    · exact ⟨hello, srcMac, now, rfl, heq.symm⟩
  | removePubkey pubkey =>
    exact ⟨trusted_quiet rfl fun key hmem hnew => absurd (NeighborStore.mem_keys_retain hmem) hnew, hf.setStore _⟩
  | removePubkeyPrefix start =>
    exact ⟨trusted_quiet rfl fun key hmem hnew => absurd (NeighborStore.mem_keys_removePubkeyPrefix hmem) hnew, hf.setStore _⟩
  | removeAddr addr =>
    exact ⟨trusted_quiet rfl fun key hmem hnew => absurd (NeighborStore.mem_keys_retain hmem) hnew, hf.setStore _⟩
  | removeMac mac =>
    exact ⟨trusted_quiet rfl fun key hmem hnew => absurd (NeighborStore.mem_keys_retain hmem) hnew, hf.setStore _⟩

lemma follows_start (localAddr : Addr) (localPubkey : PublicKey) (store : NeighborStore) :
    Follows (start localAddr localPubkey store).proc (start localAddr localPubkey store).past :=
  ⟨rfl, fun _ => rfl, List.nodup_nil, nofun⟩

/-- Every call of every run is trusted, no recording admits two ACKs, and the table has one record for a key. -/
theorem trusted (S : SignatureOps) (localAddr : Addr) (localPubkey : PublicKey) (store : NeighborStore) (calls : List Call) :
    Along (step S) (Trusted S) (start localAddr localPubkey store) calls ∧
      (run (step S) (start localAddr localPubkey store) calls).1.past.consumed.Nodup ∧
      (run (step S) (start localAddr localPubkey store) calls).1.keys.Nodup := by
  have hstart := follows_start localAddr localPubkey store
  have hend : Follows (run (step S) (start localAddr localPubkey store) calls).1.proc
      (run (step S) (start localAddr localPubkey store) calls).1.past :=
    invariant_run_all (I := fun w : World => Follows w.proc w.past) (fun w c hf => (trusted_step hf c).2) hstart calls
  refine ⟨?_, (List.nodup_append.mp hend.fresh).2.1, NeighborStore.nodup _⟩
  exact Along.of_invariant (I := fun w : World => Follows w.proc w.past) (P := fun _ _ => True) (fun w c hf _ => (trusted_step hf c).2)
    (fun w c hf _ => (trusted_step hf c).1) hstart (along_of_forall fun _ _ => trivial)

/-! ## What the table does not promise -/

/-- A copy of what is signed in the place of a signature. -/
def sampleOps : SignatureOps where
  sign signed := ⟨(signed.drop 8).takeD 64 0, List.takeD_length 64 _ 0⟩
  verify _ signed sig := sig.val = signed.drop 8

def sampleKey (b : UInt8) : PublicKey := ⟨List.replicate 32 b, List.length_replicate⟩

def sampleAddr : Addr := ⟨List.replicate 16 1, List.length_replicate⟩

def sampleMac : Mac := ⟨List.replicate 6 2, List.length_replicate⟩

def sampleFrame (type : UInt8) (nonce : UInt64) (key : PublicKey) : Bytes :=
  buildSigned sampleOps type sampleAddr 1000 nonce key

/-- A nonce that is recorded twice admits two ACKs. A HELLO that passed passes again once 64 ACKs with the signature of its
key have been rejected. -/
theorem nonce_serves_twice :
    (run (step sampleOps) (start sampleAddr (sampleKey 0) .new)
      [.recordHelloSent 5 1000, .recordHelloSent 5 1000, .processAck (sampleFrame msgAck 5 (sampleKey 1)) sampleMac 1000,
        .processAck (sampleFrame msgAck 5 (sampleKey 2)) sampleMac 1000]).2.map Answer.acked = [false, false, true, true] ∧
    (run (step sampleOps) (start sampleAddr (sampleKey 0) .new)
      (.processHello (sampleFrame msgHello 5 (sampleKey 1)) sampleMac 1000 ::
        (List.range 64).map (fun i => .processAck (sampleFrame msgAck (100 + i.toUInt64) (sampleKey 1)) sampleMac 1000) ++
        [.processHello (sampleFrame msgHello 5 (sampleKey 1)) sampleMac 1000])).2.map Answer.rejected =
      false :: List.replicate 64 true ++ [false] := by
  decide +kernel

end World

end IPv8Plus.Neigh
