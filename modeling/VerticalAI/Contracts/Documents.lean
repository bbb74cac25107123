import VerticalAI.Contracts.Principal
import VerticalAI.Foundation.JsonText

/-! The documents that approvals are hashed as determine the approvals, and so do the hashes where
the digest is injective.
-/

namespace VerticalAI.Contracts
open VerticalAI.Foundation

theorem Principal.toJson_injective {first second : Principal}
    (same : first.toJson = second.toJson)
    : first = second := by
  cases first <;> cases second <;>
    simp only [toJson, Json.obj.injEq, List.cons.injEq, Prod.mk.injEq, Json.str.injEq, true_and,
      and_true] at same
  · rw [same.1, same.2]
  · exact absurd same.1 (by decide)
  · exact absurd same.1 (by decide)
  · rw [same]

theorem Challenge.toJson_injective {first second : Challenge}
    (same : first.toJson = second.toJson)
    : first = second := by
  cases first
  cases second
  simp only [toJson, Json.obj.injEq, List.cons.injEq, Prod.mk.injEq, Json.num.injEq,
    Json.str.injEq, true_and, and_true, UInt64.toNat_inj] at same
  simp only [same]

theorem ApprovalKind.name_injective {first second : ApprovalKind} (same : first.name = second.name)
    : first = second := by
  cases first <;> cases second <;> first | rfl | exact absurd same (by decide)

/-- Optional values have one document only if they are the same, where no value's is `null`. -/
theorem ofOption_injective {α : Type} {encode : α → Json}
    (injective : ∀ first second, encode first = encode second → first = second)
    (present : ∀ value, encode value ≠ .null) {first second : Option α}
    (same : Json.ofOption encode first = Json.ofOption encode second)
    : first = second := by
  cases first with
  | none =>
      cases second with
      | none => rfl
      | some value => exact absurd same.symm (present value)
  | some value =>
      cases second with
      | none => exact absurd same (present value)
      | some other => rw [injective value other same]

/-- Different approvals have different documents, and so different keys. -/
theorem Approval.toJson_injective {first second : Approval} (same : first.toJson = second.toJson)
    : first = second := by
  cases first
  cases second
  simp only [toJson, Json.obj.injEq, List.cons.injEq, Prod.mk.injEq, Json.str.injEq, true_and,
    and_true] at same
  obtain ⟨subject, kind, approver, challenge, signature⟩ := same
  rw [subject, ApprovalKind.name_injective kind, Principal.toJson_injective approver,
    ofOption_injective (fun _ _ => Challenge.toJson_injective) (fun _ => nofun) challenge,
    ofOption_injective (fun _ _ => Json.str.inj) (fun _ => nofun) signature]

/-- The hexadecimal digits of a hash determine the document. -/
theorem digits_injective [Digest] (injective : Function.Injective Digest.sha256)
    {first second : Json}
    (same : Hex.encode (Digest.sha256 (Utf8.encode first.render))
      = Hex.encode (Digest.sha256 (Utf8.encode second.render)))
    : first = second :=
  Json.render_injective (Utf8.encode_injective (injective (Hex.encode_injective same)))

end VerticalAI.Contracts
