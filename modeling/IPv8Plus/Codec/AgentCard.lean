import IPv8Plus.Codec.Layouts

/-!
# The signature of an agent card

The message that an agent signs for the summary of its card (`ipv8-codec/src/layouts.rs`).
-/

namespace IPv8Plus.Codec
open Lib

/-- The domain of card signatures: `ipv8plus-agentcard`. -/
def agentCardDomain : Bytes :=
  [0x69, 0x70, 0x76, 0x38, 0x70, 0x6C, 0x75, 0x73, 0x2D, 0x61, 0x67, 0x65, 0x6E, 0x74, 0x63, 0x61, 0x72, 0x64]

/-- The signed fields of a card summary. -/
def agentCardMessage (version : UInt8) (cardHash : Arr UInt8 16) (notAfter : UInt64) (agentPubkey : PublicKey) : Bytes :=
  agentCardDomain ++ [version] ++ cardHash.val ++ be64 notAfter ++ agentPubkey.val

/-- The message determines every field. -/
lemma agentCardMessage_inj {version version' : UInt8} {cardHash cardHash' : Arr UInt8 16} {notAfter notAfter' : UInt64}
    {agentPubkey agentPubkey' : PublicKey}
    (h : agentCardMessage version cardHash notAfter agentPubkey = agentCardMessage version' cardHash' notAfter' agentPubkey') :
    version = version' ∧ cardHash = cardHash' ∧ notAfter = notAfter' ∧ agentPubkey = agentPubkey' := by
  simp only [agentCardMessage, List.append_assoc] at h
  obtain ⟨-, h⟩ := List.append_inj h rfl
  obtain ⟨hversion, h⟩ := List.append_inj h rfl
  obtain ⟨hhash, h⟩ := List.append_inj h (cardHash.property.trans cardHash'.property.symm)
  obtain ⟨hexpiry, hkey⟩ := List.append_inj h ((length_be64 _).trans (length_be64 _).symm)
  exact ⟨List.head_eq_of_cons_eq hversion, Subtype.ext hhash, be64_injective hexpiry, Subtype.ext hkey⟩

end IPv8Plus.Codec
