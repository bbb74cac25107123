import VerticalAI.Kernel.Tasks

/-! The namespace: everything the kernel manages has a path. -/

namespace VerticalAI.Kernel
open VerticalAI.Foundation VerticalAI.Contracts VerticalAI.Store

/-- How many events a bare `/ledger` shows. -/
def ledgerTail : Nat := 50

inductive Entry where
  | dir (entries : List String)
  | arch (manifest : ArchManifest)
  | task (row : Task)
  | artefact (envelope : BlobEnvelope)
  | device (id : String)
  | ledgerTail (events : List LedgerEvent)

def RealKernel.arches (node : RealKernel) : List (String × ArchManifest) :=
  node.adapters.list.map fun row => (row.1, row.2.manifest)

/-- The parts of a path, without empty ones. -/
def partsOf (path : String) : List String :=
  ((Path.pieces path.toList).filter (· ≠ [])).map String.ofList

/-- An entry that is there, or the path that was not found. -/
def foundAt (path : String) (entry : Option Entry) : Syscall Entry :=
  match entry with
  | some found => return found
  | none => Program.fail (.notFound path)

/-- Resolve a path as the caller may see it. -/
def resolve (ctx : Ctx) (path : String) : Syscall Entry := do
  match partsOf path with
  | [] => return .dir ["arches", "tasks", "artefacts", "devices", "ledger"]
  | ["arches"] =>
      let arches ← kernel (·.arches)
      return .dir (arches.map fun row => s!"{row.1}  {row.2.name}")
  | ["arches", id] =>
      let arches ← kernel (·.arches)
      foundAt path ((arches.find? (·.1 = id)).map fun row => .arch row.2)
  | ["tasks"] => return .dir ((← tasks ctx).map (·.id))
  | ["tasks", id] => foundAt path ((← task ctx id).map .task)
  | ["artefacts", hash] =>
      let digits := Text.trimStartMatches "sha256:".toList hash.toList
      let address := "sha256:" ++ String.ofList digits
      return .artefact
        (← Program.mapError (fun _ => .notFound path) (blobEnvelope address))
  | ["devices"] => return .dir ((← loadOr [] (·.devices.list)).map (·.1))
  | ["devices", id] => foundAt path ((← loadOr none (·.devices[id]?)).map fun _ => .device id)
  | ["ledger"] =>
      let events ← kernel (·.chain.events)
      return .ledgerTail (events.drop (events.length - ledgerTail))
  | _ => Program.fail (.notFound path)

end VerticalAI.Kernel
