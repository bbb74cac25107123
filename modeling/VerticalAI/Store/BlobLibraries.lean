import VerticalAI.Foundation.JsonText
import VerticalAI.Store.Blobs

/-! Concrete libraries the payload tier runs with: a digest of 32 bytes, a cipher with a tag, and a
reader that accepts exactly the texts of envelopes.
-/

namespace VerticalAI.Store
open VerticalAI.Foundation VerticalAI.Contracts

/-- A digest that keeps the first 32 bytes. -/
@[reducible] def paddedDigest : Digest := ⟨fun bytes => (bytes ++ List.replicate 32 0).take 32⟩

theorem paddedDigest_length (bytes : List UInt8) : (paddedDigest.sha256 bytes).length = 32 := by
  have padded : (bytes ++ List.replicate 32 0).length = bytes.length + 32 := by
    rw [List.length_append, List.length_replicate]
  change ((bytes ++ List.replicate 32 0).take 32).length = 32
  rw [List.length_take]
  omega

/-- A tag from the key and the digits the associated data starts with. -/
def plainTag (key associated : List UInt8) : List UInt8 :=
  (key ++ List.replicate 4 0).take 4 ++ (associated.drop 7 ++ List.replicate 12 0).take 12

theorem length_plainTag (key associated : List UInt8) : (plainTag key associated).length = 16 := by
  rw [plainTag, List.length_append, List.length_take, List.length_take, List.length_append,
    List.length_append, List.length_replicate, List.length_replicate]
  omega

/-- A cipher that adds the tag and hides nothing. -/
@[reducible] def plainAead : Aead where
  encrypt key _ associated message := message ++ plainTag key associated
  decrypt key _ associated ciphertext :=
    let message := ciphertext.take (ciphertext.length - 16)
    if ciphertext = message ++ plainTag key associated then some message else none

theorem plainAead_correct : @Aead.Correct plainAead := by
  refine @Aead.Correct.mk plainAead (fun key nonce associated message => ?_)
    fun key nonce associated message => ?_
  · change (message ++ plainTag key associated).length = _
    rw [List.length_append, length_plainTag]
  · have front : (message ++ plainTag key associated).take
        ((message ++ plainTag key associated).length - 16) = message := by
      rw [List.length_append, length_plainTag, Nat.add_sub_cancel, List.take_left]
    dsimp only [Aead.decrypt, Aead.encrypt]
    rw [front, if_pos rfl]

open Classical in
/-- Find the envelope a text is the text of. -/
noncomputable def canonicalFromSlice (text : List UInt8) : Option BlobEnvelope :=
  if written : ∃ envelope : BlobEnvelope, Utf8.encode envelope.toJson.render = text then
    some written.choose
  else none

@[reducible] noncomputable def canonicalEnvelopes : EnvelopeReader := ⟨canonicalFromSlice⟩

/-- The text of an envelope is read as that envelope. -/
theorem canonicalFromSlice_render (envelope : BlobEnvelope)
    : canonicalFromSlice (Utf8.encode envelope.toJson.render) = some envelope := by
  have written : ∃ other : BlobEnvelope,
      Utf8.encode other.toJson.render = Utf8.encode envelope.toJson.render := ⟨envelope, rfl⟩
  have same := BlobEnvelope.toJson_injective
    (Json.render_injective (Utf8.encode_injective written.choose_spec))
  simp only [canonicalFromSlice, dif_pos written, same]

def zeroKey : SecretKey := ⟨List.replicate 32 0, List.length_replicate⟩

def zeroNonce : Nonce := ⟨List.replicate 24 0, List.length_replicate⟩

def zeroRandom : BlobStore.PutRandom where
  dek := zeroKey
  wrapNonce := zeroNonce
  nonce := zeroNonce

def emptyStore : BlobStore := { files := {}, master := zeroKey }

theorem open_emptyStore : BlobStore.open emptyStore.files emptyStore.master = .ok emptyStore := rfl

def erasure : ShredEvent where
  keyId := "task:1"
  issuer := .human "device-1"
  hlcMs := 0

end VerticalAI.Store
