import VerticalAI.Contracts.Principal

/-! What a signed challenge says: exactly the challenges that expire together and whose fields are
made of the same pieces between bars cannot be told apart by their digest.
-/

namespace VerticalAI.Correctness
open VerticalAI.Foundation VerticalAI.Contracts

section Determination

variable [Digest] [SignatureScheme]

/-- The digest tells a challenge from one that was signed, and a signature made for that one gets
no approval of another subject accepted.
-/
structure Determines (made presented : Challenge) : Prop where
  digests : made ≠ presented → made.digest ≠ presented.digest
  subjects : ∀ (approval : Approval) (devices : DeviceRegistry) (nowMs : UInt64)
      (deviceId signatureHex : String) (key : VerifyingKey) (signature : Signature),
    approval.approver = .human deviceId → devices.keys[deviceId]? = some key
    → approval.challenge = some presented → approval.signatureHex = some signatureHex
    → signatureOfHex signatureHex = some signature
    → SignatureScheme.verifies key made.digest signature = true
    → approval.verifyHuman devices nowMs = .ok ()
    → approval.subjectHash = made.actionDigest

/-- An approval that passes verifies the challenge it carries under the enrolled key. -/
theorem verifies_of_verifyHuman {approval : Approval} {devices : DeviceRegistry} {nowMs : UInt64}
    {deviceId signatureHex : String} {key : VerifyingKey} {signature : Signature}
    {challenge : Challenge} (approver : approval.approver = .human deviceId)
    (enrolled : devices.keys[deviceId]? = some key)
    (challenged : approval.challenge = some challenge)
    (signed : approval.signatureHex = some signatureHex)
    (read : signatureOfHex signatureHex = some signature)
    (passed : approval.verifyHuman devices nowMs = .ok ())
    : SignatureScheme.verifies key challenge.digest signature = true
      ∧ challenge.actionDigest = approval.subjectHash := by
  obtain ⟨device, found, text, bytes, named, held, subject, -, spelled, decoded, verified⟩ :=
    Approval.verifyHuman_ok passed
  obtain rfl := Principal.human.inj (named.symm.trans approver)
  obtain rfl := Option.some.inj (held.symm.trans challenged)
  obtain rfl := Option.some.inj (spelled.symm.trans signed)
  obtain rfl := Option.some.inj (decoded.symm.trans read)
  obtain ⟨other, there, verifies⟩ := DeviceRegistry.verify_ok_iff.mp verified
  obtain rfl := Option.some.inj (there.symm.trans enrolled)
  exact ⟨verifies, subject⟩

/-- A signed challenge determines the challenge exactly up to where the bars in its fields are. -/
theorem determines_iff (injective : Function.Injective Digest.sha256)
    (binding : ∀ (key : VerifyingKey) (signature : Signature) (message other : List UInt8),
      SignatureScheme.verifies key message signature = true
      → SignatureScheme.verifies key other signature = true → message = other)
    (made presented : Challenge)
    : Determines made presented
      ↔ made = presented ∨ made.expiresAtMs ≠ presented.expiresAtMs
        ∨ made.pieces ≠ presented.pieces := by
  have differ : made.digest ≠ presented.digest
      ↔ made.expiresAtMs ≠ presented.expiresAtMs ∨ made.pieces ≠ presented.pieces := by
    rw [ne_eq, Challenge.digest_inj_iff injective, not_and_or]
  constructor
  · intro determines
    by_cases same : made = presented
    · exact Or.inl same
    · exact Or.inr (differ.mp (determines.digests same))
  · intro apart
    have digests : made ≠ presented → made.digest ≠ presented.digest := fun different =>
      differ.mpr (apart.resolve_left different)
    refine ⟨digests, ?_⟩
    intro approval devices nowMs deviceId signatureHex key signature approver enrolled challenged
      signed read verified passed
    have ⟨verifies, subject⟩ :=
      verifies_of_verifyHuman approver enrolled challenged signed read passed
    have same := binding key signature _ _ verified verifies
    obtain rfl : made = presented := by
      by_contra different
      exact digests different same
    exact subject.symm

end Determination

section Run

/-- Signs messages of up to 31 bytes: the key, the length and the message, padded. -/
@[reducible] private def paddedSignatures : SignatureScheme where
  verifies key message signature :=
    message.length < 32 ∧ signature.val
      = key.val ++ UInt8.ofNat message.length
        :: (message ++ List.replicate (31 - message.length) 0)

private theorem paddedSignatures_binding (key : VerifyingKey) (signature : Signature)
    (message other : List UInt8) (verified : paddedSignatures.verifies key message signature = true)
    (verifies : paddedSignatures.verifies key other signature = true)
    : message = other := by
  have verified := of_decide_eq_true verified
  have verifies := of_decide_eq_true verifies
  have same := List.append_cancel_left (verified.2.symm.trans verifies.2)
  injection same with lengths rest
  have equal : message.length = other.length := by
    have counted := congrArg UInt8.toNat lengths
    rw [UInt8.toNat_ofNat', UInt8.toNat_ofNat'] at counted
    omega
  exact (List.append_inj rest equal).1

private def signedChallenge : Challenge := ⟨"r", "a", "n", 9⟩

/-- Challenges without bars are told apart. -/
theorem determines_of_plain_fields
    : @Determines plainDigest paddedSignatures signedChallenge ⟨"r", "b", "n", 9⟩ := by
  refine (@determines_iff plainDigest paddedSignatures (fun _ _ same => same)
    paddedSignatures_binding signedChallenge ⟨"r", "b", "n", 9⟩).mpr ?_
  exact Or.inr (Or.inr (by decide))

/-- A bar moved from one field to the next is not noticed: what a human signed for one action gets
an approval of another one accepted.
-/
theorem moved_bar_keeps_digest
    : ∃ made presented : Challenge,
        made.actionDigest ≠ presented.actionDigest
        ∧ (∀ _ : Digest, made.digest = presented.digest)
        ∧ ∀ (_ : Digest) (_ : SignatureScheme) (key : VerifyingKey) (signature : Signature),
            SignatureScheme.verifies key made.digest signature = true
            → ∃ approval : Approval,
                approval.subjectHash = presented.actionDigest
                ∧ approval.challenge = some presented
                ∧ approval.verifyHuman ⟨(∅ : Table VerifyingKey).insert "phone" key⟩ 5 = .ok () := by
  have same (_ : Digest) : Challenge.digest ⟨"r", "a|b", "n", 9⟩
      = Challenge.digest ⟨"r|a", "b", "n", 9⟩ := rfl
  refine ⟨⟨"r", "a|b", "n", 9⟩, ⟨"r|a", "b", "n", 9⟩, by decide, same, ?_⟩
  intro digest scheme key signature verified
  refine ⟨⟨"b", .human, .human "phone", some ⟨"r|a", "b", "n", 9⟩,
    some (Hex.encode signature.val)⟩, rfl, rfl, ?_⟩
  have read : signatureOfHex (Hex.encode signature.val) = some signature := by
    rw [signatureOfHex, Hex.decode_encode, Option.bind_some, sized, dif_pos signature.property]
  have accepted : (⟨(∅ : Table VerifyingKey).insert "phone" key⟩ : DeviceRegistry).verify "phone"
      (Challenge.digest ⟨"r|a", "b", "n", 9⟩) signature = .ok () :=
    DeviceRegistry.verify_ok_iff.mpr
      ⟨key, Std.ExtTreeMap.getElem?_insert_self, same digest ▸ verified⟩
  simp only [Approval.verifyHuman, read, accepted]
  rfl

end Run

end VerticalAI.Correctness
