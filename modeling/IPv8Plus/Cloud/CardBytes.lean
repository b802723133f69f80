import IPv8Plus.Cloud.Ans
import IPv8Plus.Codec.AgentCard
import IPv8Plus.Lib.PrefixFree

/-!
# The bytes of a card

`AgentCard::canonical_bytes` of `cloud/ans/src/lib.rs`: the fields in a fixed order, every text and every list with its
length in a byte before it. The fields can be taken off the bytes one by one, so no two cards share them; what is hashed
and signed is the whole card, as far as the hash tells byte strings apart.
-/

namespace IPv8Plus.Cloud.Ans
open Lib Codec Routing

/-- A text after its length. -/
def countedStr (s : Bytes) : Bytes := UInt8.ofNat s.length :: s

def countedStrs (v : List Bytes) : Bytes := UInt8.ofNat v.length :: v.flatMap countedStr

/-- The length fits a byte. -/
def FitsByte {α : Type} (l : List α) : Prop := l.length < 2 ^ 8

def FitsBytes (v : List Bytes) : Prop := FitsByte v ∧ ∀ s ∈ v, FitsByte s

lemma fitsByte_inj {α : Type} {l l' : List α} (hl : FitsByte l) (hl' : FitsByte l')
    (h : UInt8.ofNat l.length = UInt8.ofNat l'.length) : l.length = l'.length := by
  have hnat := congrArg UInt8.toNat h
  rw [UInt8.toNat_ofNat_of_lt' hl, UInt8.toNat_ofNat_of_lt' hl'] at hnat
  exact hnat

lemma prefixFreeOn_countedStr : PrefixFreeOn FitsByte countedStr := by
  intro a b s t ha hb h
  obtain ⟨hlen, htail⟩ := List.cons.inj h
  exact List.append_inj htail (fitsByte_inj ha hb hlen)

lemma prefixFreeOn_countedStrs : PrefixFreeOn FitsBytes countedStrs := by
  intro v w s t hv hw h
  obtain ⟨hlen, htail⟩ := List.cons.inj h
  exact prefixFreeOn_countedStr.flatMap hv.2 hw.2 (fitsByte_inj hv.1 hw.1 hlen) htail

section
variable {s b : Bytes} {v : List Bytes} {card card' : AgentCard}

lemma pushStr_eq_ok : pushStr s = .ok b ↔ FitsByte s ∧ b = countedStr s := by
  unfold pushStr FitsByte
  split
  · next hlong =>
    apply iff_of_false
    · intro h
      cases h
    · intro h
      omega
  · next hshort =>
    constructor
    · intro h
      cases h
      exact ⟨by omega, rfl⟩
    · rintro ⟨-, rfl⟩
      rfl

lemma mapM_pushStr {items : List Bytes} (h : v.mapM pushStr = .ok items) :
    (∀ s ∈ v, FitsByte s) ∧ items.flatten = v.flatMap countedStr := by
  -- the first text that is too long ends the loop with its error
  induction v generalizing items with
  | nil =>
    cases h
    exact ⟨nofun, rfl⟩
  | cons s v ih =>
    rw [List.mapM_cons] at h
    cases hs : pushStr s with
    | error e => cases hs ▸ h
    | ok word =>
      rw [hs] at h
      cases hv : v.mapM pushStr with
      | error e => cases hv ▸ h
      | ok words =>
        rw [hv] at h
        cases h
        obtain ⟨hfits, rfl⟩ := pushStr_eq_ok.mp hs
        obtain ⟨hall, hflat⟩ := ih hv
        refine ⟨List.forall_mem_cons.mpr ⟨hfits, hall⟩, ?_⟩
        rw [List.flatten_cons, List.flatMap_cons, hflat]

lemma pushStrs_eq_ok (h : pushStrs v = .ok b) : FitsBytes v ∧ b = countedStrs v := by
  unfold pushStrs at h
  split at h
  · cases h
  next hshort =>
  cases hitems : v.mapM pushStr with
  | error e => cases hitems ▸ h
  | ok items =>
    rw [hitems] at h
    cases h
    obtain ⟨hall, hflat⟩ := mapM_pushStr hitems
    refine ⟨⟨?_, hall⟩, congrArg _ hflat⟩
    unfold FitsByte
    omega

/-- A card with a canonical form has short texts and lists, and the form is its fields. -/
lemma canonicalBytes_eq_ok (h : card.canonicalBytes = .ok b) :
    FitsByte card.name ∧ FitsByte card.tunnelEntry ∧ FitsBytes card.capabilities ∧ FitsBytes card.endpoints ∧
      b = [card.version] ++ (card.addr.toBytes ++ (countedStr card.name ++ (countedStr card.tunnelEntry ++ ([card.qosHint] ++
        (be64 card.notAfter ++ (countedStrs card.capabilities ++ countedStrs card.endpoints)))))) := by
  unfold AgentCard.canonicalBytes at h
  cases hname : pushStr card.name with
  | error e => cases hname ▸ h
  | ok name =>
    cases hentry : pushStr card.tunnelEntry with
    | error e => cases hname ▸ hentry ▸ h
    | ok tunnelEntry =>
      simp only [hname, hentry, bind, Except.bind] at h
      split at h
      · cases h
      cases hcaps : pushStrs card.capabilities with
      | error e => cases hcaps ▸ h
      | ok capabilities =>
        cases hends : pushStrs card.endpoints with
        | error e => cases hcaps ▸ hends ▸ h
        | ok endpoints =>
          simp only [hcaps, hends, pure, Except.pure] at h
          cases h
          obtain ⟨hn, rfl⟩ := pushStr_eq_ok.mp hname
          obtain ⟨ht, rfl⟩ := pushStr_eq_ok.mp hentry
          obtain ⟨hc, rfl⟩ := pushStrs_eq_ok hcaps
          obtain ⟨he, rfl⟩ := pushStrs_eq_ok hends
          refine ⟨hn, ht, hc, he, ?_⟩
          simp

/-- The fields are taken off the front one after the other. -/
lemma canonicalBytes_inj (h : card.canonicalBytes = .ok b) (h' : card'.canonicalBytes = .ok b) : card = card' := by
  obtain ⟨hname, hentry, hcaps, hends, rfl⟩ := canonicalBytes_eq_ok h
  obtain ⟨hname', hentry', hcaps', hends', hbytes⟩ := canonicalBytes_eq_ok h'
  obtain ⟨hversion, hbytes⟩ := List.append_inj hbytes rfl
  obtain ⟨haddr, hbytes⟩ := List.append_inj hbytes (by rw [IPv8Address.length_toBytes, IPv8Address.length_toBytes])
  obtain ⟨hname, hbytes⟩ := prefixFreeOn_countedStr _ _ _ _ hname hname' hbytes
  obtain ⟨hentry, hbytes⟩ := prefixFreeOn_countedStr _ _ _ _ hentry hentry' hbytes
  obtain ⟨hqos, hbytes⟩ := List.append_inj hbytes rfl
  obtain ⟨hexpiry, hbytes⟩ := List.append_inj hbytes ((length_be64 _).trans (length_be64 _).symm)
  obtain ⟨hcaps, hbytes⟩ := prefixFreeOn_countedStrs _ _ _ _ hcaps hcaps' hbytes
  -- nothing follows the endpoints
  have hnil : countedStrs card.endpoints ++ [] = countedStrs card'.endpoints ++ [] := congrArg (· ++ []) hbytes
  obtain ⟨hends, -⟩ := prefixFreeOn_countedStrs _ _ _ _ hends hends' hnil
  cases card
  cases card'
  cases List.head_eq_of_cons_eq hversion
  cases IPv8Address.toBytes_injective haddr
  cases hname
  cases hentry
  cases List.head_eq_of_cons_eq hqos
  cases be64_injective hexpiry
  cases hcaps
  cases hends
  rfl

end

/-- Different byte strings with one card hash. -/
def Collide (sha256 : Bytes → Arr UInt8 32) (b b' : Bytes) : Prop := b ≠ b' ∧ (sha256 b).val.take 16 = (sha256 b').val.take 16

lemma cardHash_eq_ok {sha256 : Bytes → Arr UInt8 32} {card : AgentCard} {h : Arr UInt8 16} (hok : card.cardHash sha256 = .ok h) :
    ∃ b, card.canonicalBytes = .ok b ∧ h.val = (sha256 b).val.take 16 := by
  unfold AgentCard.cardHash at hok
  cases hb : card.canonicalBytes with
  | error e => cases hb ▸ hok
  | ok b =>
    rw [hb] at hok
    cases hok
    exact ⟨b, rfl, rfl⟩

/-- Cards with one hash are one card, or a collision of the hash. -/
lemma cardHash_inj {sha256 : Bytes → Arr UInt8 32} {card card' : AgentCard} {h : Arr UInt8 16}
    (hok : card.cardHash sha256 = .ok h) (hok' : card'.cardHash sha256 = .ok h) :
    card = card' ∨ ∃ b b', card.canonicalBytes = .ok b ∧ card'.canonicalBytes = .ok b' ∧ Collide sha256 b b' := by
  obtain ⟨b, hb, hhash⟩ := cardHash_eq_ok hok
  obtain ⟨b', hb', hhash'⟩ := cardHash_eq_ok hok'
  by_cases hsame : b = b'
  · cases hsame
    exact .inl (canonicalBytes_inj hb hb')
  · exact .inr ⟨b, b', hb, hb', hsame, hhash.symm.trans hhash'⟩

/-- The canonical bytes determine the card. So does its hash, and so does the message that is signed for it together with
the key of the signer, unless the bytes of two cards collide. -/
theorem card_bound (sha256 : Bytes → Arr UInt8 32) (card card' : AgentCard) :
    (∀ b, card.canonicalBytes = .ok b → card'.canonicalBytes = .ok b → card = card') ∧
      (∀ h, card.cardHash sha256 = .ok h → card'.cardHash sha256 = .ok h →
        card = card' ∨ ∃ b b', card.canonicalBytes = .ok b ∧ card'.canonicalBytes = .ok b' ∧ Collide sha256 b b') ∧
      ∀ h h' key key', card.cardHash sha256 = .ok h → card'.cardHash sha256 = .ok h' →
        agentCardMessage card.version h card.notAfter key = agentCardMessage card'.version h' card'.notAfter key' →
        key = key' ∧
          (card = card' ∨ ∃ b b', card.canonicalBytes = .ok b ∧ card'.canonicalBytes = .ok b' ∧ Collide sha256 b b') := by
  refine ⟨fun b hb hb' => canonicalBytes_inj hb hb', fun h hok hok' => cardHash_inj hok hok', ?_⟩
  intro h h' key key' hok hok' hmessage
  obtain ⟨-, hhash, -, hkey⟩ := agentCardMessage_inj hmessage
  cases hhash
  exact ⟨hkey, cardHash_inj hok hok'⟩

/-- A card of one agent with these tags and endpoints. -/
def cardWith (capabilities endpoints : List Bytes) : AgentCard where
  version := cardVersion
  name := [0x61]
  addr := ⟨protocolMagic, 0, 0, 0, 0, 0, 0, 1⟩
  capabilities
  endpoints
  qosHint := 3
  notAfter := 100
  tunnelEntry := []

/-- A text cannot move from one list to the next. -/
example : (cardWith [[0x62]] [[0x63], [0x64]]).canonicalBytes ≠ (cardWith [[0x62], [0x63]] [[0x64]]).canonicalBytes := by
  decide +kernel

end IPv8Plus.Cloud.Ans
