import VerticalAI.Foundation.Hex
import VerticalAI.Foundation.Json
import VerticalAI.Foundation.Utf8

/-! Hashes of contract values: SHA-256 over their canonical JSON. -/

namespace VerticalAI.Contracts
open VerticalAI.Foundation

/-- The digest the cryptographic library computes. -/
class Digest where
  sha256 : List UInt8 → List UInt8

/-- A digest for concrete ledgers that keeps the bytes as they are. -/
@[reducible] def plainDigest : Digest := ⟨fun bytes => bytes⟩

variable [Digest]

/-- SHA-256 over raw bytes, rendered as `sha256:<hex>`. -/
def hashBytes (bytes : List UInt8) : String := "sha256:" ++ Hex.encode (Digest.sha256 bytes)

/-- SHA-256 over the canonical JSON of a value: the compact text of its document, members in
declaration order.
-/
def hashCanonical (document : Json) : String := hashBytes (Utf8.encode document.render)

end VerticalAI.Contracts
