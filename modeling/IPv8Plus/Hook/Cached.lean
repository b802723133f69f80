import IPv8Plus.Hook.Attribution

/-!
# Cached verdicts

A verdict with a time to live is cached under the key of its packet and is applied to every packet with that key. The key
has the name of the protocol and not its number, and packets that cannot be parsed share one key; `cached_own_flow` says
that a verdict stays with its flow as long as no two packets are evaluated that these cases confuse.
-/

namespace IPv8Plus.Hook
open Lib

/-- The key tells the packets apart, or they belong to the same flow. -/
def Apart (p q : Bytes) : Prop :=
  (Parseable p ∨ Parseable q) ∧ (Parseable p → Parseable q → endpoints p = endpoints q →
    Named (inspect p).protoNum ∨ Named (inspect q).protoNum ∨ (inspect p).protoNum = (inspect q).protoNum)

instance (p q : Bytes) : Decidable (Apart p q) := inferInstanceAs (Decidable (_ ∧ _))

lemma apart_iff (p q : Bytes) : (flowKey (inspect p) = flowKey (inspect q) → Parseable q ∧ SameFlow p q) ↔ Apart p q := by
  rw [flowKey_eq_iff]
  constructor
  · intro h
    refine ⟨?_, fun hp hq hends => ?_⟩
    · by_contra hneither
      obtain ⟨hp, hq⟩ := not_or.mp hneither
      exact hq (h (.inl ⟨hp, hq⟩)).1
    · by_cases hp' : Named (inspect p).protoNum
      · exact .inl hp'
      · by_cases hq' : Named (inspect q).protoNum
        · exact .inr (.inl hq')
        · exact .inr (.inr (h (.inr ⟨hp, hq, hends, .inr ⟨hp', hq'⟩⟩)).2.proto)
  · rintro ⟨hparse, happart⟩ (⟨hp, hq⟩ | ⟨hp, hq, hends, hproto | ⟨hp', hq'⟩⟩)
    · exact absurd hparse (not_or.mpr ⟨hp, hq⟩)
    · exact ⟨hq, hproto, hends⟩
    · exact ⟨hq, ((happart hp hq hends).resolve_left hp').resolve_left hq', hends⟩

namespace Bus

/-- The decider has given a verdict with a time to live for the packet. -/
def Granted (cfg : HookConfig) (ops : List Op) (q : Bytes) : Prop :=
  ∃ k c id r, Judged cfg ops k id r ∧ 0 < r.ttlMs ∧ (after cfg ops).calls[k]? = some c ∧ c.packet = q

/-- The packet is told apart from every packet evaluated before. -/
def Separate (s : Bus) (p : Bytes) : Prop := ∀ c ∈ s.calls, Apart p c.packet

instance (s : Bus) (p : Bytes) : Decidable (Separate s p) := inferInstanceAs (Decidable (∀ c ∈ s.calls, _))

/-- There has been a verdict with a time to live on a packet with this key. -/
def Source (cfg : HookConfig) (ops : List Op) (calls : List Call) (key : Bytes) : Prop :=
  ∃ k c id r, Judged cfg ops k id r ∧ 0 < r.ttlMs ∧ calls[k]? = some c ∧ flowKey (inspect c.packet) = key

/-- Every entry of the cache has its source. -/
def Kept (cfg : HookConfig) (ops : List Op) (s : Bus) : Prop :=
  ∀ (key : Bytes) (e : CachedEntry), s.flows[key]? = some e → Source cfg ops s.calls key

variable {cfg : HookConfig} {s s' : Bus} {ops : List Op} {op : Op} {k : CallId} {now : Instant} {room : UInt64 → Bool}

lemma Source.mono {calls calls' : List Call} {key : Bytes} (h : Source cfg ops calls key) (op : Op) (hlater : Later calls calls') :
    Source cfg (ops ++ [op]) calls' key := by
  obtain ⟨k, c, id, r, hjudged, httl, hc, hkey⟩ := h
  obtain ⟨c', hc', hpacket, -⟩ := hlater k c hc
  exact ⟨k, c', id, r, hjudged.mono op, httl, hc', by rw [hpacket, hkey]⟩

lemma Kept.mono (h : Kept cfg ops s) (op : Op) (hflows : ∀ (key : Bytes) (e : CachedEntry), s'.flows[key]? = some e → s.flows[key]? = some e)
    (hlater : Later s.calls s'.calls) : Kept cfg (ops ++ [op]) s' :=
  fun key e he => Source.mono (h key e (hflows key e he)) op hlater

lemma Kept.dispatch (h : Kept cfg ops (after cfg ops)) (now : Instant) (room : UInt64 → Bool) :
    Kept cfg (ops ++ [.dispatch now room]) ((after cfg ops).dispatch now room) := by
  cases hq : (after cfg ops).queue with
  | nil =>
    rw [dispatch_empty hq]
    exact h.mono _ (fun _ _ he => he) (.refl _)
  | cons msg rest =>
    rw [dispatch_eq hq]
    have hlater := Later.delivers (after cfg ops).calls ((after cfg ops).toHub.receive msg now room).2.replies
    rcases Hub.receive_flows (after cfg ops).toHub msg now room with hsame | ⟨x, id, r, p, rfl, hx, hp, hflows⟩
    · exact h.mono _ (fun key e he => hsame ▸ he) hlater
    · intro key e he
      have he' : ((after cfg ops).toHub.receive (.clientVerdict x id r) now room).1.flows[key]? = some e := he
      rw [hflows, Hub.getElem?_flowsAfter] at he'
      split at he'
      · -- the entry that this verdict writes
        next hnew =>
        obtain ⟨c, hc, -, -, hflow⟩ := (linked_after cfg ops).pending id p hp
        obtain ⟨c', hc', hpacket, -⟩ := hlater p.reply c hc
        exact ⟨p.reply, c', id, r, .concat now room ⟨x, rest, p, hq, hx, hp, rfl⟩, hnew.1, hc', by rw [hpacket, ← hflow, hnew.2]⟩
      · exact Source.mono (h key e he') _ hlater

lemma Kept.step (h : Kept cfg ops (after cfg ops)) (op : Op) : Kept cfg (ops ++ [op]) ((after cfg ops).step op).1 := by
  by_cases hop : ∃ now room, op = .dispatch now room
  · obtain ⟨now, room, rfl⟩ := hop
    exact h.dispatch now room
  · have hf := frame_step (after cfg ops) fun now room heq => hop ⟨now, room, heq⟩
    exact h.mono op hf.flows hf.later

lemma kept_after (cfg : HookConfig) (ops : List Op) : Kept cfg ops (after cfg ops) := by
  refine invariant_prefix (I := Kept cfg) (P := fun _ _ => True) ?_ (fun ops op h _ => h.step op) (along_of_forall fun _ _ => trivial)
  intro key e he
  have hnone : (Bus.new cfg).flows[key]? = none := Std.ExtTreeMap.getElem?_empty
  rw [hnone] at he
  cases he

/-- A verdict that is returned as cached is in the cache under the packet's key. -/
lemma evaluate_cached {direction : Direction} {p : Bytes} {v : Verdict} (h : (s.evaluate direction p now).2 = some (k, v)) :
    ∃ e, s.flows[flowKey (inspect p)]? = some e := by
  rw [evaluate] at h
  dsimp only at h
  split at h
  · next hlookup =>
    rw [lookup] at hlookup
    split at hlookup
    · cases hlookup
    · next e he => exact ⟨e, he⟩
  · cases h

/-- Two packets share a key and are not of one flow just when the key confuses them; where it confuses no packet with one
evaluated before, a cached verdict is one that the decider gave for a packet of the same flow. -/
theorem cached_own_flow (p : Bytes) :
    (∀ q, (flowKey (inspect p) = flowKey (inspect q) → Parseable q ∧ SameFlow p q) ↔ Apart p q) ∧
    ∀ cfg ops direction now k v, Separate (after cfg ops) p → ((after cfg ops).step (.evaluate direction p now)).2 = some (k, v) →
      v.source = .cached → ∃ q, Granted cfg ops q ∧ Parseable q ∧ SameFlow p q := by
  refine ⟨apart_iff p, fun cfg ops direction now k v hsep hstep _ => ?_⟩
  obtain ⟨e, he⟩ := evaluate_cached hstep
  obtain ⟨k', c, id, r, hjudged, httl, hc, hkey⟩ := kept_after cfg ops _ e he
  exact ⟨c.packet, ⟨k', c, id, r, hjudged, httl, hc, rfl⟩, (apart_iff p c.packet).mpr (hsep c (List.mem_of_getElem? hc)) hkey.symm⟩

/-- An IPv4 packet without payload from 10.0.0.1 to 10.0.0.2. -/
def plainPacket (proto : UInt8) : Bytes := [0x45, 0, 0, 20, 0, 0, 0, 0, 64, proto, 0, 0, 10, 0, 0, 1, 10, 0, 0, 2]

/-- The decider has the packet dropped and its flow for a second. -/
def droppedRun (p : Bytes) : List Op :=
  [.client 1 (.line (some (.hello (some .decision) none none))), .dispatch 0 fun _ => true,
    .evaluate .out p 0, .check 0, .number 0, .submit 0 0 0 true, .dispatch 0 fun _ => true,
    .client 1 (.line (some (.verdict 1 .drop 0 1000 none))), .dispatch 0 fun _ => true, .recv 0]

theorem cached_own_flow_sample : ∃ q, Granted .default (droppedRun (plainPacket 1)) q ∧ Parseable q ∧ SameFlow (plainPacket 1) q :=
  (cached_own_flow (plainPacket 1)).2 .default (droppedRun (plainPacket 1)) .out 1 1 ⟨.drop, 0, none, .cached⟩ (by decide +kernel)
    (by decide +kernel) rfl

/-- What was said of a GRE packet is applied to an ESP packet between the same hosts. -/
theorem cached_for_another : flowKey (inspect (plainPacket 47)) = flowKey (inspect (plainPacket 50)) ∧
    ((after .default (droppedRun (plainPacket 47))).step (.evaluate .out (plainPacket 50) 1)).2 = some (1, ⟨.drop, 0, none, .cached⟩) ∧
    ¬ ∀ cfg ops direction p now k v, ((after cfg ops).step (.evaluate direction p now)).2 = some (k, v) →
      v.source = .cached → ∃ q, Granted cfg ops q ∧ Parseable q ∧ SameFlow p q := by
  have hstep : ((after .default (droppedRun (plainPacket 47))).step (.evaluate .out (plainPacket 50) 1)).2 =
      some (1, ⟨.drop, 0, none, .cached⟩) := by decide +kernel
  have hpackets : ∀ c ∈ (after .default (droppedRun (plainPacket 47))).calls, (inspect (plainPacket 50)).protoNum ≠ (inspect c.packet).protoNum := by
    decide +kernel
  refine ⟨by decide +kernel, hstep, fun hall => ?_⟩
  obtain ⟨q, ⟨k, c, id, r, -, -, hc, rfl⟩, -, hflow⟩ := hall .default _ .out (plainPacket 50) 1 1 _ hstep rfl
  exact hpackets c (List.mem_of_getElem? hc) hflow.proto

end Bus

end IPv8Plus.Hook
