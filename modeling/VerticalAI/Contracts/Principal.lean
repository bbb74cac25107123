import Mathlib.Algebra.GroupWithZero.Nat
import VerticalAI.Contracts.Hashing
import VerticalAI.Foundation.Table

/-! Principals, enrolled devices and the human approval ceremony. -/

namespace VerticalAI.Contracts
open VerticalAI.Foundation

/-- A verifying key. -/
abbrev VerifyingKey := { bytes : List UInt8 // bytes.length = 32 }

/-- The key that repeats one byte, for concrete runs. -/
def VerifyingKey.repeated (byte : UInt8) : VerifyingKey :=
  ⟨List.replicate 32 byte, List.length_replicate⟩

abbrev Signature := { bytes : List UInt8 // bytes.length = 64 }

/-- Bytes of the right number, as `try_into` an array of that length gives them. -/
def sized (length : Nat) (bytes : List UInt8)
    : Option { bytes : List UInt8 // bytes.length = length } :=
  if fits : bytes.length = length then some ⟨bytes, fits⟩ else none

/-- The signature library: does the signature over the message verify under the key? A key that
is no curve point verifies nothing.
-/
class SignatureScheme where
  verifies : VerifyingKey → List UInt8 → Signature → Bool

inductive Principal where
  | machine (nodeId leaseId : String)
  | human (deviceId : String)
  deriving DecidableEq, Repr

namespace Principal

def isHuman : Principal → Bool
  | .human _ => true
  | .machine _ _ => false

def toJson : Principal → Json
  | .machine nodeId leaseId =>
      .obj [("kind", .str "machine"), ("node_id", .str nodeId), ("lease_id", .str leaseId)]
  | .human deviceId => .obj [("kind", .str "human"), ("device_id", .str deviceId)]

end Principal

structure Challenge where
  resource : String
  actionDigest : String
  nonce : String
  expiresAtMs : UInt64
  deriving DecidableEq, Repr

namespace Challenge

/-- The eight bytes of a `u64`, most significant first. -/
def bigEndian (value : UInt64) : List UInt8 :=
  (List.range 8).map fun place => UInt8.ofNat (value.toNat / 256 ^ (7 - place))

def utf8 (text : String) : List UInt8 := Utf8.encode text.toList

/-- What the hardware key signs: the hash of the fields with a bar between them. -/
def digest [Digest] (challenge : Challenge) : List UInt8 :=
  Digest.sha256 (utf8 challenge.resource ++ utf8 "|" ++ utf8 challenge.actionDigest ++ utf8 "|"
    ++ utf8 challenge.nonce ++ utf8 "|" ++ bigEndian challenge.expiresAtMs)

def toJson (challenge : Challenge) : Json :=
  .obj [("resource", .str challenge.resource), ("action_digest", .str challenge.actionDigest),
    ("nonce", .str challenge.nonce), ("expires_at_ms", .num challenge.expiresAtMs.toNat)]

/-- The eight bytes determine the number. -/
theorem bigEndian_injective {first second : UInt64} (same : bigEndian first = bigEndian second)
    : first = second := by
  have place (index : Nat) (small : index < 8)
      : first.toNat / 256 ^ (7 - index) % 256 = second.toNat / 256 ^ (7 - index) % 256 := by
    have byte := congrArg (·[index]?) same
    simp only [bigEndian, List.getElem?_map, List.getElem?_range small, Option.map_some,
      Option.some.injEq] at byte
    simpa only [UInt8.toNat_ofNat'] using congrArg UInt8.toNat byte
  have bound := first.toNat_lt
  have otherBound := second.toNat_lt
  have byte0 := place 0 (by decide)
  have byte1 := place 1 (by decide)
  have byte2 := place 2 (by decide)
  have byte3 := place 3 (by decide)
  have byte4 := place 4 (by decide)
  have byte5 := place 5 (by decide)
  have byte6 := place 6 (by decide)
  have byte7 := place 7 (by decide)
  simp only [Nat.reduceSub, Nat.reducePow] at byte0 byte1 byte2 byte3 byte4 byte5 byte6 byte7
  exact UInt64.toNat_inj.mp (by omega)

/-- The text fields with a bar between them. -/
def joined (challenge : Challenge) : List Char :=
  challenge.resource.toList ++ '|' :: (challenge.actionDigest.toList ++ '|' :: challenge.nonce.toList)

/-- What the text fields are made of, cut at every bar. -/
def pieces (challenge : Challenge) : List (List Char) :=
  challenge.resource.toList.splitOn '|' ++ (challenge.actionDigest.toList.splitOn '|'
    ++ challenge.nonce.toList.splitOn '|')

theorem digest_eq [Digest] (challenge : Challenge)
    : challenge.digest
      = Digest.sha256
          (Utf8.encode challenge.joined ++ (utf8 "|" ++ bigEndian challenge.expiresAtMs)) := by
  have bar : "|".toList = ['|'] := rfl
  have front : utf8 challenge.resource ++ utf8 "|" ++ utf8 challenge.actionDigest ++ utf8 "|"
      ++ utf8 challenge.nonce = Utf8.encode challenge.joined := by
    simp only [utf8, joined, bar, ← Utf8.encode_append, List.append_assoc, List.cons_append,
      List.nil_append]
  rw [digest, front, List.append_assoc]

theorem splitOn_joined (challenge : Challenge)
    : challenge.joined.splitOn '|' = challenge.pieces := by
  rw [joined, List.splitOn_append_cons_self, List.splitOn_append_cons_self, pieces]

/-- Two challenges have one joined text exactly if their parts, split at bars, are the
same.
-/
theorem joined_inj_iff {first second : Challenge}
    : first.joined = second.joined ↔ first.pieces = second.pieces := by
  rw [← splitOn_joined, ← splitOn_joined]
  constructor
  · exact congrArg _
  · intro same
    have back := congrArg (['|'].intercalate ·) same
    simpa only [List.intercalate_splitOn] using back

/-- What is hashed is the same exactly for challenges that expire together and whose fields are
made of the same pieces.
-/
theorem digest_inj_iff [Digest] (injective : Function.Injective Digest.sha256)
    {first second : Challenge}
    : first.digest = second.digest
      ↔ first.expiresAtMs = second.expiresAtMs ∧ first.pieces = second.pieces := by
  rw [digest_eq, digest_eq, injective.eq_iff, ← joined_inj_iff]
  constructor
  · intro same
    have ⟨text, bytes⟩ := List.append_inj' same rfl
    exact ⟨bigEndian_injective (List.append_cancel_left bytes), Utf8.encode_injective text⟩
  · intro ⟨expiry, text⟩
    rw [expiry, text]

end Challenge

inductive ApprovalKind where
  | test
  | audit
  | human
  deriving DecidableEq, Repr

def ApprovalKind.name : ApprovalKind → String
  | .test => "test"
  | .audit => "audit"
  | .human => "human"

structure Approval where
  subjectHash : String
  kind : ApprovalKind
  approver : Principal
  challenge : Option Challenge
  signatureHex : Option String
  deriving DecidableEq, Repr

def Approval.toJson (approval : Approval) : Json :=
  .obj [("subject_hash", .str approval.subjectHash), ("kind", .str approval.kind.name),
    ("approver", approval.approver.toJson),
    ("challenge", Json.ofOption Challenge.toJson approval.challenge),
    ("signature_hex", Json.ofOption .str approval.signatureHex)]

inductive PrincipalError where
  | notHuman
  | expired
  | incomplete
  | unknownDevice
  | badSignature
  | subjectMismatch
  deriving DecidableEq, Repr

def PrincipalError.text : PrincipalError → String
  | .notHuman => "approval of kind human requires a human principal"
  | .expired => "challenge expired"
  | .incomplete => "challenge or signature missing"
  | .unknownDevice => "device not enrolled"
  | .badSignature => "signature does not verify"
  | .subjectMismatch => "approval subject does not match challenge action"

/-- Enrolled devices and their keys. -/
structure DeviceRegistry where
  keys : Table VerifyingKey := ∅

namespace DeviceRegistry

def register (registry : DeviceRegistry) (deviceId : String) (key : VerifyingKey)
    : DeviceRegistry :=
  ⟨registry.keys.insert deviceId key⟩

def ids (registry : DeviceRegistry) : List String := registry.keys.list.map (·.1)

def verify [SignatureScheme] (registry : DeviceRegistry) (deviceId : String)
    (message : List UInt8) (signature : Signature)
    : Except PrincipalError Unit :=
  match registry.keys[deviceId]? with
  | none => .error .unknownDevice
  | some key =>
      if SignatureScheme.verifies key message signature then .ok () else .error .badSignature

/-- A registry accepts a signature exactly if the named device is enrolled and its key
verifies it.
-/
theorem verify_ok_iff [SignatureScheme] {registry : DeviceRegistry} {deviceId : String}
    {message : List UInt8} {signature : Signature}
    : registry.verify deviceId message signature = .ok ()
      ↔ ∃ key, registry.keys[deviceId]? = some key
          ∧ SignatureScheme.verifies key message signature = true := by
  unfold verify
  cases registry.keys[deviceId]? with
  | none => simp
  | some key => cases verified : SignatureScheme.verifies key message signature <;> simp [verified]

end DeviceRegistry

/-- The signature a hexadecimal text spells. -/
def signatureOfHex (text : String) : Option Signature := (Hex.decode text).bind (sized 64)

/-- The human half of an approval: who signed what, until when, and with which key. -/
def Approval.verifyHuman [Digest] [SignatureScheme] (approval : Approval)
    (devices : DeviceRegistry) (nowMs : UInt64)
    : Except PrincipalError Unit :=
  match approval.approver with
  | .machine _ _ => .error .notHuman
  | .human deviceId =>
      match approval.challenge, approval.signatureHex with
      | some challenge, some signatureHex =>
          if challenge.actionDigest ≠ approval.subjectHash then .error .subjectMismatch
          else if challenge.expiresAtMs ≤ nowMs then .error .expired
          else
            match signatureOfHex signatureHex with
            | none => .error .badSignature
            | some signature => devices.verify deviceId challenge.digest signature
      | _, _ => .error .incomplete

/-- What passes is complete, names its subject, is not expired and verifies. -/
theorem Approval.verifyHuman_ok [Digest] [SignatureScheme] {approval : Approval}
    {devices : DeviceRegistry} {nowMs : UInt64}
    (verified : approval.verifyHuman devices nowMs = .ok ())
    : ∃ deviceId challenge signatureHex signature,
        approval.approver = .human deviceId
        ∧ approval.challenge = some challenge
        ∧ challenge.actionDigest = approval.subjectHash
        ∧ nowMs < challenge.expiresAtMs
        ∧ approval.signatureHex = some signatureHex
        ∧ signatureOfHex signatureHex = some signature
        ∧ devices.verify deviceId challenge.digest signature = .ok () := by
  unfold Approval.verifyHuman at verified
  cases named : approval.approver with
  | machine nodeId leaseId =>
      rw [named] at verified
      cases verified
  | human deviceId =>
      rw [named] at verified
      dsimp only at verified
      split at verified
      · next challenge signatureHex challenged signed =>
          split at verified
          · cases verified
          · split at verified
            · cases verified
            · next subject unexpired =>
                cases read : signatureOfHex signatureHex with
                | none =>
                    rw [read] at verified
                    cases verified
                | some signature =>
                    rw [read] at verified
                    exact ⟨deviceId, challenge, signatureHex, signature, rfl, challenged,
                      not_not.mp subject, UInt64.not_le.mp unexpired, signed, read, verified⟩
      · cases verified

end VerticalAI.Contracts
