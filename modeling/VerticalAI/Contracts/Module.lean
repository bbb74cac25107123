import VerticalAI.Contracts.Labels

/-! Module manifests and the gates a module passes before it is promoted or exported. -/

namespace VerticalAI.Contracts
open VerticalAI.Foundation

inductive ModuleKind where
  | skill
  | process
  | automation
  deriving DecidableEq, Repr

structure AutonomyProfile where
  humanRequiredKinds : List String
  autoApproveAllowed : Bool
  deriving DecidableEq, Repr

structure Provenance where
  contentHash : String
  lineage : List String
  signer : String
  archCompat : List String
  originTaints : Finset Origin
  deriving DecidableEq

structure ModuleManifest where
  name : String
  kind : ModuleKind
  version : String
  machineEvolved : Bool
  files : List String
  provenance : Provenance
  poolEpoch : Option String
  autonomyProfile : Option AutonomyProfile
  tags : List String
  deriving DecidableEq

inductive ModuleError where
  | scriptInEvolvedModule (file : String)
  | validatorInEvolvedModule (file : String)
  | autoApproveForbidden
  deriving DecidableEq, Repr

def ModuleError.text : ModuleError → String
  | .scriptInEvolvedModule file => s!"machine-evolved module contains a script: {file}"
  | .validatorInEvolvedModule file => s!"machine-evolved module contains a validator: {file}"
  | .autoApproveForbidden =>
      "modules tagged decision_about_person cannot allow auto-approval (GDPR Art. 22)"

def scriptExtensions : List String :=
  ["py", "sh", "ps1", "bat", "cmd", "js", "ts", "exe", "dll", "so", "dylib", "wasm", "rb",
    "php"]

/-- What follows the last dot, in lower case; the whole name where there is none. -/
def extensionOf (file : String) : String :=
  String.ofList ((file.toList.reverse.takeWhile (· ≠ '.')).reverse.map Char.toLower)

namespace ModuleManifest

/-- The first file of a machine-evolved module that it may not ship. -/
def validateFiles : List String → Except ModuleError Unit
  | [] => .ok ()
  | file :: rest =>
      if extensionOf file ∈ scriptExtensions then .error (.scriptInEvolvedModule file)
      else if "validators/".toList.isPrefixOf file.toList then
        .error (.validatorInEvolvedModule file)
      else validateFiles rest

def validate (manifest : ModuleManifest) : Except ModuleError Unit := do
  if manifest.machineEvolved then validateFiles manifest.files
  if "decision_about_person" ∈ manifest.tags
      ∧ manifest.autonomyProfile.any (·.autoApproveAllowed) then
    .error .autoApproveForbidden

end ModuleManifest

inductive GateKind where
  | annexIii
  | declassification
  | outputMarking
  deriving DecidableEq, Repr

structure GateVerdict where
  gate : GateKind
  subjectHash : String
  pass : Bool
  evidenceHash : String
  signer : String
  deriving DecidableEq, Repr

end VerticalAI.Contracts
