import VerticalAI.Contracts.Principal

/-! Federation trust roles: a root with threshold signatures. -/

namespace VerticalAI.Contracts
open VerticalAI.Foundation

structure RootRole where
  keys : Table String
  threshold : UInt8
  expiresAtMs : UInt64

def RootRole.toJson (root : RootRole) : Json :=
  .obj [("keys", .obj (root.keys.list.map fun row => (row.1, .str row.2))),
    ("threshold", .num root.threshold.toNat), ("expires_at_ms", .num root.expiresAtMs.toNat)]

structure SignedRoot where
  root : RootRole
  signatures : Table String

inductive FederationError where
  | expired
  | thresholdNotMet (valid need : Nat)
  deriving DecidableEq, Repr

/-- The verifying key a hexadecimal text spells. -/
def verifyingKeyOfHex (text : String) : Option VerifyingKey := (Hex.decode text).bind (sized 32)

variable [Digest] [SignatureScheme]

omit [SignatureScheme] in
/-- What the keys of a root sign. -/
def RootRole.digest (root : RootRole) : List UInt8 := Challenge.utf8 (hashCanonical root.toJson)

/-- The key behind an entry of the signatures: the one its key id is listed with, if the signature
verifies under it.
-/
def RootRole.signer (root : RootRole) (entry : String × String) : Option VerifyingKey := do
  let vkHex ← root.keys[entry.1]?
  let key ← verifyingKeyOfHex vkHex
  let signature ← signatureOfHex entry.2
  if SignatureScheme.verifies key root.digest signature then some key else none

/-- As many entries as the threshold says have to be valid; after its expiry a root never is. -/
def SignedRoot.verify (signed : SignedRoot) (nowMs : UInt64) : Except FederationError Unit :=
  if signed.root.expiresAtMs ≤ nowMs then .error .expired
  else
    let valid := signed.signatures.list.countP fun entry => (signed.root.signer entry).isSome
    let need := signed.root.threshold.toNat
    if valid < need then .error (.thresholdNotMet valid need) else .ok ()

/-- A root is accepted exactly if it is in time and enough of the entries under it count. -/
theorem SignedRoot.verify_ok_iff {signed : SignedRoot} {nowMs : UInt64}
    : signed.verify nowMs = .ok ()
      ↔ nowMs < signed.root.expiresAtMs
        ∧ signed.root.threshold.toNat
          ≤ signed.signatures.list.countP fun entry => (signed.root.signer entry).isSome := by
  unfold SignedRoot.verify
  rw [← UInt64.not_le, ← Nat.not_lt]
  split
  · next expired => simp [expired]
  · next current =>
      dsimp only
      split
      · next few => simp [few]
      · next many => simp [many, current]

/-- An entry counts exactly if its key id is listed, key and signature parse, and the
signature verifies over the root's digest.
-/
theorem RootRole.signer_eq_some_iff {root : RootRole} {keyId sigHex : String} {key : VerifyingKey}
    : root.signer (keyId, sigHex) = some key
      ↔ ∃ vkHex signature,
          root.keys[keyId]? = some vkHex ∧ verifyingKeyOfHex vkHex = some key
          ∧ signatureOfHex sigHex = some signature
          ∧ SignatureScheme.verifies key root.digest signature = true := by
  simp only [RootRole.signer, Option.bind_eq_bind, Option.bind_eq_some_iff]
  constructor
  · intro ⟨vkHex, listed, found, spelled, signature, read, checked⟩
    split at checked
    · next verifies =>
        obtain rfl := Option.some.inj checked
        exact ⟨vkHex, signature, listed, spelled, read, verifies⟩
    · cases checked
  · intro ⟨vkHex, signature, listed, spelled, read, verifies⟩
    exact ⟨vkHex, listed, key, spelled, signature, read, if_pos verifies⟩

end VerticalAI.Contracts
