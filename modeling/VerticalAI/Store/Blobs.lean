import Mathlib.Data.Finset.Basic
import VerticalAI.Contracts.Hashing
import VerticalAI.Contracts.Storage
import VerticalAI.Foundation.Program
import VerticalAI.Foundation.Text
import VerticalAI.Store.Keys

/-! The encrypted, content-addressed payload tier, file by file: wrapped data keys, tombstones of
shredded subjects, ciphertexts and envelopes.
-/

namespace VerticalAI.Store
open VerticalAI.Foundation VerticalAI.Contracts

/-- How the JSON library reads an envelope. -/
class EnvelopeReader where
  fromSlice : List UInt8 → Option BlobEnvelope

/-- The files of the payload tier by name: `keys/`, `shredded/`, and in the directory itself the
`.bin` and the `.json` files by what stands before the extension.
-/
structure BlobDir where
  keys : Table (List UInt8) := ∅
  shredded : Table (List UInt8) := ∅
  bins : Table (List UInt8) := ∅
  envelopes : Table (List UInt8) := ∅

structure BlobStore where
  files : BlobDir
  master : SecretKey
  shredded : Finset String := ∅

inductive BlobError where
  | storage (error : StorageError)
  | integrity (why : String)
  | io (context : String)
  deriving DecidableEq, Repr

-----------------------------------------------------------------------------------------
-- Writing files
-----------------------------------------------------------------------------------------

/-- What becomes of one file write: all of it happens, or it reports an error or the power goes,
with the file untouched or holding the first so many of the new bytes.
-/
inductive WriteFate where
  | whole
  | failed (landed : Option Nat)
  | crashed (landed : Option Nat)
  deriving DecidableEq, Repr

namespace WriteFate

/-- What a write leaves of a file. -/
def leaves (fate : WriteFate) (files : Table (List UInt8)) (name : String) (bytes : List UInt8)
    : Table (List UInt8) :=
  match fate with
  | whole => files.insert name bytes
  | failed (some landed) => files.insert name (bytes.take landed)
  | crashed (some landed) => files.insert name (bytes.take landed)
  | failed none => files
  | crashed none => files

/-- How a write ends. -/
def outcome {ε : Type} (fate : WriteFate) (error : ε) : Outcome ε Unit :=
  match fate with
  | whole => .done ()
  | failed _ => .failed error
  | crashed _ => .crashed

end WriteFate

-----------------------------------------------------------------------------------------
-- Names
-----------------------------------------------------------------------------------------

/-- `<hex of the key id>.dek` -/
def dekFile (keyId : String) : String := Hex.encode (Challenge.utf8 keyId) ++ ".dek"

/-- The name of a tombstone is the key id in hexadecimal. -/
def shredFile (keyId : String) : String := Hex.encode (Challenge.utf8 keyId)

/-- The key id a tombstone's name stands for. -/
def keyIdOfTombstone (name : String) : Except String String :=
  match Hex.decode name with
  | none => .error s!"malformed shredded tombstone filename {name}"
  | some bytes =>
      match Utf8.decode bytes with
      | none => .error s!"shredded tombstone {name} is not hex-of-utf8"
      | some keyId => .ok (String.ofList keyId)

/-- The digits of an address that was computed. -/
def hexHash (hash : String) : String :=
  String.ofList (Text.trimStartMatches "sha256:".toList hash.toList)

/-- The digits of an address that was asked for: `sha256:` and 64 lower-case hexadecimal digits. -/
def validateHash (hash : String) : Except StorageError String :=
  match Text.stripPrefix "sha256:".toList hash.toList with
  | none => .error .notFound
  | some digits =>
      if digits.length = 64 && digits.all fun digit =>
          ('0' ≤ digit && digit ≤ '9') || ('a' ≤ digit && digit ≤ 'f') then
        .ok (String.ofList digits)
      else .error .notFound

/-- The storage address of a plaintext under a key id. -/
def address [Digest] (keyId : String) (plaintext : List UInt8) : String :=
  hashBytes (Challenge.utf8 keyId ++ 0 :: plaintext)

namespace BlobStore

-----------------------------------------------------------------------------------------
-- Opening
-----------------------------------------------------------------------------------------

/-- The subjects that tombstones name. -/
def readTombstones : List String → Except String (Finset String)
  | [] => .ok ∅
  | name :: rest => do
      let keyId ← keyIdOfTombstone name
      return insert keyId (← readTombstones rest)

def «open» (files : BlobDir) (master : SecretKey) : Except String BlobStore := do
  let shredded ← readTombstones (files.shredded.list.map (·.1))
  return { files, master, shredded }

section Operations

variable [Digest] [Aead]

-----------------------------------------------------------------------------------------
-- Data keys
-----------------------------------------------------------------------------------------

omit [Digest] in
/-- The data key of a subject where its file exists; none of a shredded one. -/
def heldDek (store : BlobStore) (keyId : String) : Except StorageError (Option SecretKey) :=
  if keyId ∈ store.shredded then .error .shredded
  else
    match store.files.keys[dekFile keyId]? with
    | none => .ok none
    | some wrapped =>
        match unwrapDek store.master wrapped with
        | some dek => .ok (some dek)
        | none => .error .notFound

omit [Digest] in
/-- The data key of a subject, which is not made. -/
def readDek (store : BlobStore) (keyId : String) : Except StorageError SecretKey :=
  match store.heldDek keyId with
  | .ok (some dek) => .ok dek
  | .ok none => .error .notFound
  | .error error => .error error

/-- What a put draws: a data key in case the subject has none, and a nonce for each sealing. -/
structure PutRandom where
  dek : SecretKey
  wrapNonce : Nonce
  nonce : Nonce

omit [Digest] in
/-- The data key of a subject, made and written if it is missing. -/
def dekFor (store : BlobStore) (keyId : String) (random : PutRandom) (fate : WriteFate)
    : Outcome StorageError SecretKey × BlobStore :=
  match store.heldDek keyId with
  | .error error => (.failed error, store)
  | .ok (some dek) => (.done dek, store)
  | .ok none =>
      let wrapped := wrap store.master random.dek random.wrapNonce
      let keys := fate.leaves store.files.keys (dekFile keyId) wrapped
      ((fate.outcome .notFound).map fun _ => random.dek,
        { store with files := { store.files with keys } })

-----------------------------------------------------------------------------------------
-- Putting and getting
-----------------------------------------------------------------------------------------

/-- What becomes of the writes of a put. -/
structure PutFates where
  dek : WriteFate := .whole
  blob : WriteFate := .whole
  envelope : WriteFate := .whole

omit [Digest] [Aead] in
def writeBlob (store : BlobStore) (hash : String) (sealed : List UInt8) (fate : WriteFate)
    : BlobStore :=
  { store with
    files := { store.files with bins := fate.leaves store.files.bins (hexHash hash) sealed } }

omit [Digest] [Aead] in
def writeEnvelope (store : BlobStore) (envelope : BlobEnvelope) (fate : WriteFate) : BlobStore :=
  { store with
    files :=
      { store.files with
        envelopes := fate.leaves store.files.envelopes (hexHash envelope.hash)
          (Utf8.encode envelope.toJson.render) } }

omit [Digest] [Aead] in
/-- Write ciphertext and envelope, in this order. -/
def writeSealed (store : BlobStore) (envelope : BlobEnvelope) (sealed : List UInt8)
    (fates : PutFates)
    : Outcome BlobError BlobEnvelope × BlobStore :=
  let written := store.writeBlob envelope.hash sealed fates.blob
  match fates.blob.outcome (BlobError.io "write blob") with
  | .done _ =>
      ((fates.envelope.outcome (BlobError.io "write envelope")).map fun _ => envelope,
        written.writeEnvelope envelope fates.envelope)
  | .failed error => (.failed error, written)
  | .crashed => (.crashed, written)

/-- Seal a plaintext under its subject's data key, at the address that is also its associated
data.
-/
def put (store : BlobStore) (random : PutRandom) (keyId : String) (label : Label)
    (plaintext : List UInt8) (fates : PutFates)
    : Outcome BlobError BlobEnvelope × BlobStore :=
  match store.dekFor keyId random fates.dek with
  | (.failed error, store) => (.failed (.storage error), store)
  | (.crashed, store) => (.crashed, store)
  | (.done dek, store) =>
      let hash := address keyId plaintext
      let sealed := sealUnder dek (Challenge.utf8 hash) plaintext random.nonce
      let envelope : BlobEnvelope :=
        { hash, keyId, alg := "xchacha20poly1305", ciphertextLen := UInt64.ofNat sealed.length
          label }
      store.writeSealed envelope sealed fates

omit [Digest] [Aead] in
def envelope [EnvelopeReader] (store : BlobStore) (hash : String)
    : Except StorageError BlobEnvelope := do
  let digits ← validateHash hash
  match store.files.envelopes[digits]? with
  | none => .error .notFound
  | some text =>
      match EnvelopeReader.fromSlice text with
      | some envelope => .ok envelope
      | none => .error .notFound

/-- The plaintext at an address: the envelope has to name it, the ciphertext to open under it,
and the plaintext to derive it again.
-/
def get [EnvelopeReader] (store : BlobStore) (hash : String) : Except BlobError (List UInt8) := do
  let digits ← (validateHash hash).mapError .storage
  let envelope ← (store.envelope hash).mapError .storage
  if envelope.hash ≠ hash then
    .error (.integrity
      s!"blob {hash} failed its integrity check: its envelope names {envelope.hash}")
  else
    let dek ← (store.readDek envelope.keyId).mapError .storage
    match store.files.bins[digits]? with
    | none => .error (.storage .notFound)
    | some sealed =>
        match openUnder dek (Challenge.utf8 hash) sealed with
        | none =>
            .error (.integrity
              s!"blob {hash} failed its integrity check: the ciphertext on disk was not sealed under this address")
        | some plaintext =>
            let derived := address envelope.keyId plaintext
            if derived ≠ hash then
              .error (.integrity
                s!"blob {hash} failed its integrity check: its plaintext derives {derived}")
            else .ok plaintext

-----------------------------------------------------------------------------------------
-- Shredding
-----------------------------------------------------------------------------------------

/-- What becomes of removing a file. -/
inductive RemoveFate where
  | removed
  | failed
  | crashed
  deriving DecidableEq, Repr

/-- What becomes of the two effects of a shred. -/
structure ShredFates where
  key : RemoveFate := .removed
  tombstone : WriteFate := .whole

omit [Digest] [Aead] in
def isShredded (store : BlobStore) (keyId : String) : Bool := keyId ∈ store.shredded

omit [Digest] [Aead] in
/-- Write a tombstone. Without a name there is none to write: the path is the directory's. -/
def writeTombstone (store : BlobStore) (event : ShredEvent) (fate : WriteFate)
    : Outcome BlobError Unit × BlobStore :=
  if shredFile event.keyId = "" then (.failed (.io "write tombstone"), store)
  else
    (fate.outcome (.io "write tombstone"),
      { store with
        files :=
          { store.files with
            shredded := fate.leaves store.files.shredded (shredFile event.keyId)
              (Utf8.encode event.toJson.render) } })

omit [Digest] [Aead] in
/-- Remove a subject's data key, leave a tombstone, and remember it. -/
def shred (store : BlobStore) (event : ShredEvent) (fates : ShredFates)
    : Outcome BlobError Unit × BlobStore :=
  match fates.key with
  | .failed => (.failed (.io s!"remove {dekFile event.keyId}"), store)
  | .crashed => (.crashed, store)
  | .removed =>
      let keys := store.files.keys.erase (dekFile event.keyId)
      let removed := { store with files := { store.files with keys } }
      match removed.writeTombstone event fates.tombstone with
      | (.done _, store) =>
          (.done (), { store with shredded := insert event.keyId store.shredded })
      | (.failed error, store) => (.failed error, store)
      | (.crashed, store) => (.crashed, store)

end Operations

end BlobStore

end VerticalAI.Store
