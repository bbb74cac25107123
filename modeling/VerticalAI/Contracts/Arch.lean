import VerticalAI.Contracts.Hashing
import VerticalAI.Contracts.Labels
import VerticalAI.Foundation.F64
import VerticalAI.Foundation.Table

/-! What an inference arch declares about itself. -/

namespace VerticalAI.Contracts
open VerticalAI.Foundation

inductive Capability where
  | generate
  | embed
  | predict
  | perceive
  | plan
  | judge
  deriving DecidableEq, Repr

inductive Locality where
  | «local»
  | onPrem
  | peer
  | cloud
  deriving DecidableEq, Repr

inductive Determinism where
  | seededDeterministic
  | nonDeterministic
  deriving DecidableEq, Repr

/-- Everything that changes model behaviour. -/
structure ArchIdentity where
  weightsSha256 : String
  engine : String
  engineVersion : String
  backend : String
  quant : String
  kvCache : String
  threads : UInt32
  batch : UInt32
  sampling : Table String
  seed : Option UInt64
  deriving DecidableEq

def ArchIdentity.toJson (identity : ArchIdentity) : Json :=
  .obj [("weights_sha256", .str identity.weightsSha256), ("engine", .str identity.engine),
    ("engine_version", .str identity.engineVersion), ("backend", .str identity.backend),
    ("quant", .str identity.quant), ("kv_cache", .str identity.kvCache),
    ("threads", .num identity.threads.toNat), ("batch", .num identity.batch.toNat),
    ("sampling", .obj (identity.sampling.list.map fun row => (row.1, .str row.2))),
    ("seed", Json.ofOption (fun seed => .num seed.toNat) identity.seed)]

structure ArchManifest where
  name : String
  capabilities : Finset Capability
  locality : Locality
  jurisdiction : String
  retentionDays : Option UInt32
  costPer1kTokensEur : F64
  latencyMsP50 : UInt32
  contextCeiling : UInt32
  determinism : Determinism
  identity : ArchIdentity
  clearance : Clearance
  governed : Bool
  deriving DecidableEq

inductive ArchError where
  | noCapabilities
  | zeroContext
  deriving DecidableEq, Repr

def ArchError.text : ArchError → String
  | .noCapabilities => "manifest declares no capabilities"
  | .zeroContext => "context_ceiling must be > 0"

namespace ArchManifest

def archId [Digest] (manifest : ArchManifest) : String :=
  hashCanonical manifest.identity.toJson

def validate (manifest : ArchManifest) : Except ArchError Unit :=
  if manifest.capabilities = ∅ then .error .noCapabilities
  else if manifest.contextCeiling = 0 then .error .zeroContext
  else .ok ()

/-- The comparison `==`: the costs are compared as floats. -/
def same (first second : ArchManifest) : Bool :=
  first.costPer1kTokensEur.same second.costPer1kTokensEur
    && decide ({ first with costPer1kTokensEur := second.costPer1kTokensEur } = second)

/-- What is read back of the text of a manifest. -/
def readBack [FloatText] (manifest : ArchManifest) : Except String ArchManifest :=
  manifest.costPer1kTokensEur.readBack.map fun cost => { manifest with costPer1kTokensEur := cost }

/-- The same, or so to the comparison. -/
def Alike (first second : ArchManifest) : Prop := first = second ∨ first.same second = true

theorem same_symm {first second : ArchManifest} (equal : first.same second = true)
    : second.same first = true := by
  rw [same, Bool.and_eq_true, decide_eq_true_eq] at equal ⊢
  refine ⟨F64.same_symm equal.1, ?_⟩
  rw [← equal.2]

/-- Equality of manifests, cost included, is transitive. -/
theorem same_trans {first second third : ArchManifest} (left : first.same second = true)
    (right : second.same third = true)
    : first.same third = true := by
  rw [same, Bool.and_eq_true, decide_eq_true_eq] at left right ⊢
  refine ⟨F64.same_trans left.1 right.1, ?_⟩
  rw [← right.2, ← left.2]

/-- What passes for a manifest is like whatever that one is like. -/
theorem Alike.of_same {first second third : ArchManifest} (alike : first.Alike third)
    (equal : first.same second = true)
    : second.Alike third := by
  rcases alike with rfl | same
  · exact Or.inr (same_symm equal)
  · exact Or.inr (same_trans (same_symm equal) same)

end ArchManifest

end VerticalAI.Contracts
