import VerticalAI.Contracts.Principal

/-! The master key, the data keys it wraps, and sealing under them. -/

namespace VerticalAI.Store
open VerticalAI.Foundation VerticalAI.Contracts

/-- A key of the authenticated cipher. -/
abbrev SecretKey := { bytes : List UInt8 // bytes.length = 32 }

abbrev Nonce := { bytes : List UInt8 // bytes.length = 24 }

/-- The authenticated cipher with associated data, XChaCha20-Poly1305. -/
class Aead where
  encrypt : (key nonce associated message : List UInt8) → List UInt8
  decrypt : (key nonce associated ciphertext : List UInt8) → Option (List UInt8)

/-- What was encrypted decrypts again, and carries a tag of 16 bytes. -/
structure Aead.Correct [Aead] : Prop where
  length : ∀ key nonce associated message,
    (Aead.encrypt key nonce associated message).length = message.length + 16
  decrypts : ∀ key nonce associated message,
    Aead.decrypt key nonce associated (Aead.encrypt key nonce associated message) = some message

variable [Aead]

/-- Seal a plaintext with associated data: the nonce, then the ciphertext. -/
def sealUnder (key : SecretKey) (associated plaintext : List UInt8) (nonce : Nonce) : List UInt8 :=
  nonce.val ++ Aead.encrypt key.val nonce.val associated plaintext

/-- The inverse of sealing, under the same associated data. -/
def openUnder (key : SecretKey) (associated sealed : List UInt8) : Option (List UInt8) :=
  if sealed.length ≤ 24 then none
  else Aead.decrypt key.val (sealed.take 24) associated (sealed.drop 24)

/-- Wrap a data key under the master key. -/
def wrap (master dek : SecretKey) (nonce : Nonce) : List UInt8 := sealUnder master [] dek.val nonce

def unwrapDek (master : SecretKey) (wrapped : List UInt8) : Option SecretKey :=
  (openUnder master [] wrapped).bind (sized 32)

theorem length_sealUnder (correct : Aead.Correct) (key : SecretKey)
    (associated plaintext : List UInt8)
    (nonce : Nonce)
    : (sealUnder key associated plaintext nonce).length = plaintext.length + 40 := by
  rw [sealUnder, List.length_append, nonce.property, correct.length]
  omega

theorem length_wrap (correct : Aead.Correct) (master dek : SecretKey) (nonce : Nonce)
    : (wrap master dek nonce).length = 72 := by
  rw [wrap, length_sealUnder correct, dek.property]

theorem openUnder_sealUnder (correct : Aead.Correct) (key : SecretKey)
    (associated plaintext : List UInt8)
    (nonce : Nonce)
    : openUnder key associated (sealUnder key associated plaintext nonce) = some plaintext := by
  have long : ¬(sealUnder key associated plaintext nonce).length ≤ 24 := by
    rw [length_sealUnder correct]
    omega
  rw [openUnder, if_neg long, sealUnder, List.take_left' nonce.property,
    List.drop_left' nonce.property, correct.decrypts]

theorem unwrapDek_wrap (correct : Aead.Correct) (master dek : SecretKey) (nonce : Nonce)
    : unwrapDek master (wrap master dek nonce) = some dek := by
  rw [unwrapDek, wrap, openUnder_sealUnder correct, Option.bind_some, sized, dif_pos dek.property]

end VerticalAI.Store
