import Mathlib.Data.Finset.Basic
import Mathlib.Order.Lattice
import VerticalAI.Foundation.Json

/-! Information-flow labels. A label is an element of a join semilattice: what a task reads is
joined into what it writes.
-/

namespace VerticalAI.Contracts
open VerticalAI.Foundation

/-- Ordered low to high; `holdout` is the top. -/
inductive Scope where
  | «public»
  | vertical
  | business
  | personal
  | holdout
  deriving DecidableEq, Repr

namespace Scope

def rank : Scope → Nat
  | .public => 0
  | .vertical => 1
  | .business => 2
  | .personal => 3
  | .holdout => 4

def name : Scope → String
  | .public => "public"
  | .vertical => "vertical"
  | .business => "business"
  | .personal => "personal"
  | .holdout => "holdout"

theorem name_injective : Function.Injective name := by
  intro first second same
  cases first <;> cases second <;> first | rfl | exact absurd same (by decide)

/-- The name `Debug` prints. -/
def debug : Scope → String
  | .public => "Public"
  | .vertical => "Vertical"
  | .business => "Business"
  | .personal => "Personal"
  | .holdout => "Holdout"

theorem rank_injective : Function.Injective rank := by
  intro first second same
  cases first <;> cases second <;> first | rfl | cases same

instance : LinearOrder Scope := LinearOrder.lift' rank rank_injective

end Scope

/-- Ordered low to high; `unknown` is treated as third-party. -/
inductive DataClass where
  | own
  | thirdPartyMandated
  | unknown
  deriving DecidableEq, Repr

namespace DataClass

def rank : DataClass → Nat
  | .own => 0
  | .thirdPartyMandated => 1
  | .unknown => 2

def name : DataClass → String
  | .own => "own"
  | .thirdPartyMandated => "third_party_mandated"
  | .unknown => "unknown"

theorem name_injective : Function.Injective name := by
  intro first second same
  cases first <;> cases second <;> first | rfl | exact absurd same (by decide)

theorem rank_injective : Function.Injective rank := by
  intro first second same
  cases first <;> cases second <;> first | rfl | cases same

instance : LinearOrder DataClass := LinearOrder.lift' rank rank_injective

end DataClass

inductive Origin where
  | ownerAuthored
  | ownerShipped
  | thirdPartyInbound
  | web
  deriving DecidableEq, Repr

namespace Origin

def name : Origin → String
  | .ownerAuthored => "owner_authored"
  | .ownerShipped => "owner_shipped"
  | .thirdPartyInbound => "third_party_inbound"
  | .web => "web"

/-- The name `Debug` prints. -/
def debug : Origin → String
  | .ownerAuthored => "OwnerAuthored"
  | .ownerShipped => "OwnerShipped"
  | .thirdPartyInbound => "ThirdPartyInbound"
  | .web => "Web"

/-- All origins, in their order. -/
def all : List Origin := [.ownerAuthored, .ownerShipped, .thirdPartyInbound, .web]

theorem mem_all (origin : Origin) : origin ∈ all := by
  cases origin <;> decide

theorem name_injective : Function.Injective name := by
  intro first second same
  cases first <;> cases second <;> first | rfl | exact absurd same (by decide)

end Origin

structure Label where
  scope : Scope
  dataClass : DataClass
  origins : Finset Origin
  deriving DecidableEq

structure Clearance where
  maxScope : Scope
  thirdPartyAllowed : Bool
  deriving DecidableEq, Repr

namespace Label

def bottom : Label := ⟨.public, .own, ∅⟩

def join (label other : Label) : Label where
  scope := max label.scope other.scope
  dataClass := max label.dataClass other.dataClass
  origins := label.origins ∪ other.origins

instance : LE Label where
  le label other :=
    label.scope ≤ other.scope ∧ label.dataClass ≤ other.dataClass ∧ label.origins ⊆ other.origins

/-- Labels are ordered part by part, and `join` is their least upper bound. -/
instance : SemilatticeSup Label where
  sup := join
  le_refl label := ⟨le_refl label.scope, le_refl label.dataClass, Finset.Subset.refl label.origins⟩
  le_trans _ _ _ below above :=
    ⟨below.1.trans above.1, below.2.1.trans above.2.1, below.2.2.trans above.2.2⟩
  le_antisymm label other below above := by
    obtain ⟨scope, dataClass, origins⟩ := label
    obtain ⟨scope', dataClass', origins'⟩ := other
    obtain rfl : scope = scope' := le_antisymm below.1 above.1
    obtain rfl : dataClass = dataClass' := le_antisymm below.2.1 above.2.1
    obtain rfl : origins = origins' := Finset.Subset.antisymm below.2.2 above.2.2
    rfl
  le_sup_left _ _ := ⟨le_max_left _ _, le_max_left _ _, Finset.subset_union_left⟩
  le_sup_right _ _ := ⟨le_max_right _ _, le_max_right _ _, Finset.subset_union_right⟩
  sup_le _ _ _ first second :=
    ⟨max_le first.1 second.1, max_le first.2.1 second.2.1,
      Finset.union_subset first.2.2 second.2.2⟩

/-- May an object with this label be shown to a principal with this clearance? -/
def flowsTo (label : Label) (clearance : Clearance) : Bool :=
  if label.scope = .holdout then false
  else
    decide (label.scope ≤ clearance.maxScope)
      && (label.dataClass = .own || clearance.thirdPartyAllowed)

/-- Who may be shown a label may be shown every lower one. -/
theorem flowsTo_anti {label other : Label} (below : label ≤ other) {clearance : Clearance}
    (flows : other.flowsTo clearance = true)
    : label.flowsTo clearance = true := by
  have top {scope : Scope} (above : Scope.holdout ≤ scope) : scope = .holdout := by
    cases scope <;> first | rfl | exact absurd above (by decide)
  have own {dataClass : DataClass} (lower : dataClass ≤ .own) : dataClass = .own := by
    cases dataClass <;> first | rfl | exact absurd lower (by decide)
  unfold flowsTo at flows ⊢
  split at flows
  · cases flows
  · next inside =>
      rw [Bool.and_eq_true, Bool.or_eq_true, decide_eq_true_eq, decide_eq_true_eq] at flows
      obtain ⟨reached, classed⟩ := flows
      have lower : ¬label.scope = .holdout := fun held => inside (top (held ▸ below.1))
      rw [if_neg lower, Bool.and_eq_true, Bool.or_eq_true, decide_eq_true_eq, decide_eq_true_eq]
      refine ⟨below.1.trans reached, ?_⟩
      rcases classed with same | allowed
      · exact Or.inl (own (same ▸ below.2.1))
      · exact Or.inr allowed

def toJson (label : Label) : Json :=
  .obj [("scope", .str label.scope.name), ("data_class", .str label.dataClass.name),
    ("origins", .arr ((Origin.all.filter (· ∈ label.origins)).map (.str ·.name)))]

/-- A label is determined by its document. -/
theorem toJson_injective {first second : Label} (same : first.toJson = second.toJson)
    : first = second := by
  obtain ⟨scope, dataClass, origins⟩ := first
  obtain ⟨scope', dataClass', origins'⟩ := second
  simp only [toJson, Json.obj.injEq, List.cons.injEq, Prod.mk.injEq, Json.str.injEq,
    Json.arr.injEq, true_and, and_true] at same
  obtain ⟨scopes, classes, names⟩ := same
  have listed := List.map_injective_iff.mpr
    (fun (one other : Origin) equal => Origin.name_injective (Json.str.inj equal)) names
  have members : origins = origins' := by
    ext origin
    have both : origin ∈ Origin.all.filter (· ∈ origins)
        ↔ origin ∈ Origin.all.filter (· ∈ origins') := by
      rw [listed]
    simpa only [List.mem_filter, Origin.mem_all, true_and, decide_eq_true_eq] using both
  rw [Scope.name_injective scopes, DataClass.name_injective classes, members]

end Label

end VerticalAI.Contracts
