import VerticalAI.Foundation.Path
import VerticalAI.Kernel.Syscalls

/-! Tasks and the sequential scheduler: one step a call, in order. -/

namespace VerticalAI.Kernel
open VerticalAI.Foundation VerticalAI.Contracts VerticalAI.Store

section Reading

variable [Libraries]

-----------------------------------------------------------------------------------------
-- Rows
-----------------------------------------------------------------------------------------

omit [Libraries] in
def saveTask (task : Task) : Syscall Unit := save (.putTask task)

/-- The task gets the id its register was given. -/
def createTask (ctx : Ctx) (goal artefactType : String) (label : Label)
    (steps : List StepKind)
    : Syscall Task := do
  let register ← submitTask ctx goal label
  let reg ← readRegister ctx register
  let created : Task :=
    { id := reg.taskId, register, goal, artefactType
      steps := steps.map fun kind =>
        { kind, status := .pending, startedMs := none, endedMs := none, tokens := 0 }
      status := .queued
      createdMs := ctx.nowMs }
  saveTask created
  return created

omit [Libraries] in
/-- The row as stored; none if it cannot be read. -/
def taskRow (id : String) : Syscall (Option Task) := loadOr none (·.tasks[id]?)

omit [Libraries] in
/-- A task is subject to its register's label; without a readable register it is hidden. -/
def visibleTo (ctx : Ctx) (row : Task) : Syscall Bool := do
  let reg ← loadOr none (·.registers[row.register.text]?)
  return reg.any (·.label.flowsTo ctx.clearance)

omit [Libraries] in
/-- None for a task that is not there and for one above the caller's clearance. -/
def task (ctx : Ctx) (id : String) : Syscall (Option Task) := do
  match ← taskRow id with
  | none => return none
  | some row => if ← visibleTo ctx row then return some row else return none

omit [Libraries] in
/-- The tasks among these that the caller may see. -/
def keepVisible (ctx : Ctx) : List Task → Syscall (List Task)
  | [] => return []
  | row :: rest => do
      let visible ← visibleTo ctx row
      let others ← keepVisible ctx rest
      return if visible then row :: others else others

omit [Libraries] in
def tasks (ctx : Ctx) : Syscall (List Task) := do
  let rows ← loadOr [] (·.tasks.list)
  keepVisible ctx (rows.map (·.2))

-----------------------------------------------------------------------------------------
-- Approval subjects
-----------------------------------------------------------------------------------------

/-- The first step that is not done, with its place. -/
def Task.next (row : Task) : Option (Nat × Step) :=
  (row.steps.findIdx? (·.status ≠ .done)).bind fun i => row.steps[i]?.map (i, ·)

/-- The latest artefact, or the register itself. -/
def Register.subject (reg : Register) : String :=
  match reg.artefacts.getLast? with
  | some artefact => artefact.hash
  | none => hashCanonical reg.toJson

/-- What an approval of this task has to name, while the task is at its approval step. -/
def approvalSubject (ctx : Ctx) (taskId : String) : Syscall String := do
  match ← task ctx taskId with
  | none => Program.fail (.notFound taskId)
  | some row =>
      if row.next.map (·.2.kind) = some .approve then
        return Register.subject (← readRegister ctx row.register)
      else
        Program.fail (.gate (s!"task {taskId} is not waiting for an approval; its status is "
          ++ row.status.name))

end Reading

-----------------------------------------------------------------------------------------
-- Releasing
-----------------------------------------------------------------------------------------

def joinPath (base relative : String) : String :=
  String.ofList (Path.join base.toList relative.toList)

/-- The one directory a release may write to. -/
def RealKernel.exportRoot (node : RealKernel) : String := joinPath node.stateDir "exports"

/-- Only ordinary components are accepted, so nothing leaves the export root. -/
def releaseDest (node : RealKernel) (toDir : String) : Except KernelError String :=
  let ordinary (component : Path.Component) : Bool :=
    match component with
    | .normal _ | .curDir => true
    | .rootDir | .parentDir => false
  if toDir.toList ≠ [] ∧ (Path.components toDir.toList).all ordinary then
    .ok (joinPath node.exportRoot toDir)
  else
    .error (.gate "release destination must be a relative subpath of the export root")

/-- `<hash12>.<kind>`, which has to be one ordinary component. -/
def releaseFileName [Text.CharTables] (hash kind : String) : Except KernelError String :=
  let digits := Text.trimStartMatches "sha256:".toList hash.toList
  let short := (Text.takeBytes 12 digits).getD "artefact".toList
  let name := short ++ '.' :: kind.toList
  match Path.components name with
  | [.normal _] => .ok (String.ofList name)
  | _ => .error (.gate s!"artefact kind {Text.debug kind} is not a plain file name")

/-- Every artefact with its file name, or the first refusal. -/
def releaseFiles [Text.CharTables] : List ArtefactRef → Except KernelError (List (String × String))
  | [] => .ok []
  | artefact :: rest => do
      let name ← releaseFileName artefact.hash artefact.kind
      let files ← releaseFiles rest
      return (artefact.hash, name) :: files

/-- What the record says of a release. -/
structure ReleaseRecord where
  taskId : String
  hashes : List String
  destination : String

def ReleaseRecord.toJson (record : ReleaseRecord) : Json :=
  .obj [("task_id", .str record.taskId), ("hashes", .arr (record.hashes.map .str)),
    ("destination", .str record.destination)]

variable [Libraries]

omit [Libraries] in
/-- Create a directory if it is missing and make it the owner's alone. -/
def privateDir (path : String) : Syscall Unit := do
  save (.createDir path)
  load fun _ => ()

/-- Write an artefact's plaintext to a file, which opening empties first. -/
def writeFile (ctx : Ctx) (dest hash name : String) : Syscall Unit := do
  let bytes ← readArtefact ctx hash
  let path := joinPath dest name
  save (.writeExport path [])
  save (.writeExport path bytes)
  load fun _ => ()

def writeFiles (ctx : Ctx) (dest : String) : List (String × String) → Syscall Unit
  | [] => return ()
  | (hash, name) :: rest => do
      writeFile ctx dest hash name
      writeFiles ctx dest rest

/-- Write every artefact of a register out; the record says so first. -/
def release (ctx : Ctx) (taskId : String) (register : RegisterId) (toDir : String)
    : Syscall Unit := do
  let reg ← readRegister ctx register
  let node ← kernel id
  let dest ← Program.lift (releaseDest node toDir)
  let files ← Program.lift (releaseFiles reg.artefacts)
  let record : ReleaseRecord :=
    { taskId, hashes := reg.artefacts.map (·.hash), destination := dest }
  log "artefact.released" ctx.nowMs record.toJson
  privateDir node.exportRoot
  privateDir dest
  writeFiles ctx dest files

-----------------------------------------------------------------------------------------
-- Steps
-----------------------------------------------------------------------------------------

/-- The draft is the step that makes the artefact, from what the arch raised last. -/
def draft (ctx : Ctx) (archId : String) (register : RegisterId) (artefactType : String)
    : Syscall UInt32 := do
  let outcome ← infer ctx archId .generate register
  let reg ← readRegister ctx register
  match reg.decisions.getLast? with
  | none =>
      Program.fail (.gate
        s!"arch {archId} returned nothing to attach as the task's {artefactType}")
  | some drafted =>
      let _ ← attachArtefact ctx register artefactType (Challenge.utf8 drafted)
      return outcome.tokensIn

/-- Do the work of one step: what it became, and the tokens it spent. -/
def runStep (ctx : Ctx) (taskId : String) (kind : StepKind) (register : RegisterId)
    (artefactType : String)
    : Syscall (StepStatus × UInt32) := do
  match kind with
  | .plan archId => return (.done, (← infer ctx archId .plan register).tokensIn)
  | .draft archId => return (.done, ← draft ctx archId register artefactType)
  | .judge archId => return (.done, (← infer ctx archId .judge register).tokensIn)
  | .harness _ => return (.waitingHuman, 0)
  | .approve =>
      let subject ← approvalSubject ctx taskId
      let approvals ← approvalsFor subject
      return (if approvals.any (·.kind = .human) then .done else .waitingHuman, 0)
  | .release toDir =>
      release ctx taskId register toDir
      return (.done, 0)

-----------------------------------------------------------------------------------------
-- The scheduler
-----------------------------------------------------------------------------------------

namespace Task

def started (row : Task) (i : Nat) (nowMs : UInt64) : Task :=
  { row with
    steps := row.steps.modify i fun step =>
      { step with status := .running, startedMs := some nowMs }
    status := .running }

def waiting (row : Task) (i : Nat) : Task :=
  { row with
    steps := row.steps.modify i fun step => { step with status := .waitingHuman }
    status := .waitingHuman }

/-- The task is done when all its steps are. -/
def ended (row : Task) (i : Nat) (status : StepStatus) (tokens : UInt32) (nowMs : UInt64)
    : Task :=
  let steps := row.steps.modify i fun step =>
    { step with status, tokens, endedMs := some nowMs }
  { row with
    steps
    status := if steps.all (·.status = .done) then .done else .running }

def broken (row : Task) (i : Nat) (error : KernelError) (nowMs : UInt64) : Task :=
  { row with
    steps := row.steps.modify i fun step =>
      { step with status := .failed error.text, endedMs := some nowMs }
    status := .failed }

end Task

/-- Ledger before the row. -/
def recordStep (ctx : Ctx) (taskId : String) (i : Nat) (row : Task) : Syscall Task := do
  log "task.step" ctx.nowMs (.arr [.str taskId, .num i])
  saveTask row
  return row

/-- Put what a step came to on the task. Polling a step that still waits changes nothing. -/
def settleStep (ctx : Ctx) (taskId : String) (i : Nat) (wasWaiting : Bool) (row : Task)
    (result : Except KernelError (StepStatus × UInt32))
    : Syscall Task :=
  match result with
  | .ok (.waitingHuman, _) =>
      if wasWaiting then return row else recordStep ctx taskId i (row.waiting i)
  | .ok (status, tokens) => recordStep ctx taskId i (row.ended i status tokens ctx.nowMs)
  | .error error => do
      saveTask (row.broken i error ctx.nowMs)
      Program.fail error

/-- Start a step, unless it was waiting already, and run it. -/
def advance (ctx : Ctx) (taskId : String) (row : Task) (i : Nat) (step : Step)
    : Syscall Task := do
  let wasWaiting : Bool := step.status = .waitingHuman
  let row := if wasWaiting then row else row.started i ctx.nowMs
  if !wasWaiting then saveTask row
  let result ←
    Program.attempt (runStep ctx taskId step.kind row.register row.artefactType)
  settleStep ctx taskId i wasWaiting row result

/-- Run the next step that is not done. `done` and `failed` are terminal, and a STOP on the node
halts everything else.
-/
def runTaskStep (ctx : Ctx) (taskId : String) : Syscall Task := do
  match ← task ctx taskId with
  | none => Program.fail (.notFound taskId)
  | some row =>
      if row.status = .done ∨ row.status = .failed then return row
      else if (← kernel (·.stops)).stopped "node" then
        saveTask { row with status := .stopped }
        Program.fail (.stopped "node")
      else
        match row.next with
        | none =>
            saveTask { row with status := .done }
            return { row with status := .done }
        | some (i, step) => advance ctx taskId row i step

-----------------------------------------------------------------------------------------
-- The operator's screen
-----------------------------------------------------------------------------------------

structure TopView where
  arches : Table ArchStats
  tasks : Table TaskStatus
  stoppedScopes : List String
  liveness : Table UInt64

omit [Libraries] in
def top (ctx : Ctx) : Syscall TopView := do
  let arches ← loadOr ∅ (·.stats)
  let visible ← tasks ctx
  let stoppedScopes := (← kernel (·.stops)).stoppedScopes
  let leases ← loadOr ∅ (·.liveness)
  return {
    arches
    tasks := .ofList (visible.map fun row => (row.id, row.status)) compare
    stoppedScopes
    liveness := leases.map fun _ lease => lease.expiresAtMs }

end VerticalAI.Kernel
