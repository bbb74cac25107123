import VerticalAI.Kernel.Core

/-! The syscalls of the kernel contract. -/

namespace VerticalAI.Kernel
open VerticalAI.Foundation VerticalAI.Contracts VerticalAI.Store

variable [Libraries]

-----------------------------------------------------------------------------------------
-- Inference
-----------------------------------------------------------------------------------------

omit [Libraries] in
/-- Add a call to an arch's counters; they are `u64`s and wrap. -/
def bumpStats (archId : String) (tokensIn : UInt32) (projected : Bool) : Syscall Unit := do
  let stats := (← load (·.stats[archId]?)).getD {}
  save (.setStats archId
    { calls := stats.calls + 1
      tokensIn := stats.tokensIn + tokensIn.toUInt64
      projected := stats.projected + if projected then 1 else 0 })

/-- The role a capability is asked for. -/
def roleOf : Capability → String
  | .plan => "plan"
  | .judge => "judge"
  | _ => "draft"

/-- Fit the prompt into the budget and record it if that took a projection. -/
def fit (ctx : Ctx) (archId : String) (adapter : ArchAdapter) (budget : UInt32)
    (regId : RegisterId) (prompt : List Char)
    : Syscall (List Char × Bool) := do
  let tokens := adapter.countTokens prompt
  if budget < tokens then
    match project prompt budget adapter.countTokens with
    | none =>
        Program.fail (.i4Prime (s!"arch {archId} has {budget.toNat} tokens of context, "
          ++ s!"too few for the role and goal of register {regId.text}; refusing rather than "
          ++ "sending a mutilated prompt"))
    | some fitted =>
        log "infer.projected" ctx.nowMs
          (.arr [.str archId, .num tokens.toNat, .num budget.toNat])
        return (fitted, true)
  else return (prompt, false)

omit [Libraries] in
/-- Hand a prompt to an arch. Whatever it answers, the prompt has left the kernel. -/
def complete (archId : String) (adapter : ArchAdapter) (prompt : List Char)
    (maxTokens : UInt32)
    : Syscall (List Char) := do
  let calls ← Program.observe (·.sent.length)
  Program.perform (.send ⟨archId, prompt, maxTokens⟩)
  match adapter.complete calls prompt maxTokens with
  | .ok output => return output
  | .error reason => Program.fail (.notFound s!"arch error: {reason}")

def infer (ctx : Ctx) (archId : String) (capability : Capability) (regId : RegisterId)
    : Syscall InferOutcome := do
  match ← kernel (·.adapters[archId]?) with
  | none => Program.fail (.notFound archId)
  | some adapter =>
      let reg ← readRegister ctx regId
      Program.lift (i2Flow reg.label adapter.manifest)
      let role := roleOf capability
      let budget := (← kernel (·.budgets[archId]?)).getD adapter.contextBudget
      let (prompt, projected) ←
        fit ctx archId adapter budget regId (lower reg role.toList)
      let tokensIn := adapter.countTokens prompt
      let output ← complete archId adapter prompt (min budget 1024)
      log "infer" ctx.nowMs (.arr [.str archId, .str regId.text])
      Program.perform (.pushInferLog archId reg.label)
      bumpStats archId tokensIn projected
      writeRegister ctx (raise reg role output)
      return { archId, projected, tokensIn }

-----------------------------------------------------------------------------------------
-- Leases
-----------------------------------------------------------------------------------------

omit [Libraries] in
/-- Delete these lease rows. -/
def deleteLeases : List String → Syscall Unit
  | [] => return ()
  | key :: rest => do
      save (.deleteLease key)
      deleteLeases rest

def lease (ctx : Ctx) (resource : String) (ttlMs : UInt64) : Syscall Lease := do
  let rows ← load (·.leases.list)
  let superseded := (rows.filter fun row =>
    row.2.resource = resource && row.2.partition = ctx.partition).map (·.1)
  let node ← kernel id
  match node.locks.acquire resource ctx.principal ctx.nowMs ttlMs ctx.partition node.home with
  | .error error => Program.fail (.lock error)
  | .ok (granted, locks, home) =>
      Program.perform (.setLocks locks home)
      save (.putLease granted)
      deleteLeases (superseded.filter (· ≠ granted.id))
      save (.setFence resource granted.fence)
      log "lease.granted" ctx.nowMs (.str granted.id)
      return granted

-----------------------------------------------------------------------------------------
-- Approvals, STOP and RESUME
-----------------------------------------------------------------------------------------

/-- The key of an approval's row: its subject and its own hash. -/
def approvalKey (approval : Approval) : String :=
  s!"{approval.subjectHash}:{hashCanonical approval.toJson}"

/-- Ledger first: an approval stored but reported as failed would still satisfy a gate. -/
def approve (ctx : Ctx) (approval : Approval) : Syscall Unit := do
  Program.lift (i1Approval ctx.principal approval (← kernel (·.devices)) ctx.nowMs)
  log "approval.recorded" ctx.nowMs approval.toJson
  save (.putApproval (approvalKey approval) approval)

omit [Libraries] in
/-- The approvals recorded for a subject; none if they cannot be read. -/
def approvalsFor (subjectHash : String) : Syscall (List Approval) := do
  let rows ← loadOr [] (·.approvals.list)
  return (rows.map (·.2)).filter (·.subjectHash = subjectHash)

/-- Durable before in memory. -/
def stop (ctx : Ctx) (scope : String) : Syscall String := do
  Program.lift (i1Presence ctx.principal)
  let id ← nextId "stop"
  let event : StopEvent :=
    { id, scope, issuer := ctx.principal, hlcMs := ctx.nowMs, causalHeads := [] }
  save (.putStop event)
  match (← kernel (·.stops)).tryAddStop event with
  | .error error => Program.fail (.stop error)
  | .ok stops =>
      Program.perform (.setStops stops)
      log "stop" ctx.nowMs (.str id)
      return id

/-- The STOP has to be known before anything is written; then ledger, row and memory. -/
def resume (ctx : Ctx) (stopId : String) : Syscall Unit := do
  Program.lift (i1Presence ctx.principal)
  if !(← kernel (·.stops)).hasStop stopId then Program.fail (.stop .unknownStop)
  else
    let id ← nextId "resume"
    let event : ResumeEvent :=
      { id, cites := stopId, issuer := ctx.principal, hlcMs := ctx.nowMs }
    log "resume" ctx.nowMs (.str stopId)
    save (.putResume event)
    match (← kernel (·.stops)).addResume event with
    | .error error => Program.fail (.stop error)
    | .ok stops => Program.perform (.setStops stops)

-----------------------------------------------------------------------------------------
-- Automations and modules
-----------------------------------------------------------------------------------------

/-- A machine's run needs a live lease and no STOP; a human's run is no automation. -/
def runAutomation (ctx : Ctx) (business module : String) : Syscall Unit := do
  if ctx.principal.isHuman then return ()
  else
    let lease ← load (·.liveness[business]?)
    Program.lift (i4Liveness business lease (← kernel (·.stops)) ctx.nowMs)
    log "automation.ran" ctx.nowMs (.arr [.str business, .str module])

def promote (ctx : Ctx) (module : ModuleManifest) (verdicts : List GateVerdict)
    : Syscall Unit := do
  Program.lift (module.validate.mapError .module)
  let subject := module.provenance.contentHash
  if !verdicts.any fun verdict =>
      verdict.gate = .annexIii && verdict.subjectHash = subject && verdict.pass then
    Program.fail (.gate "annex_iii verdict required for promotion")
  else
    let needsHuman := (module.autonomyProfile.map fun profile =>
      !profile.autoApproveAllowed).getD true
    let hasHuman := (← approvalsFor subject).any (·.kind = .human)
    if needsHuman && !hasHuman then
      Program.fail (.i1 s!"promotion of {module.name} requires a human approval")
    else
      log "module.promoted" ctx.nowMs (.str subject)
      save (.putHot subject module)

def exportModule (ctx : Ctx) (moduleHash : String) (toScope : Scope)
    (verdicts : List GateVerdict)
    : Syscall Unit := do
  if toScope ≤ .vertical ∧ ¬verdicts.any fun verdict =>
      verdict.gate = .declassification && verdict.subjectHash = moduleHash && verdict.pass then
    Program.fail (.gate "declassification verdict required to leave the business")
  else log "module.exported" ctx.nowMs (.arr [.str moduleHash, .str toScope.name])

-----------------------------------------------------------------------------------------
-- Mounting and booting
-----------------------------------------------------------------------------------------

omit [Libraries] in
/-- The reason of an error a host function reports. -/
def failWith {α : Type} (reason : String) : Syscall α := Program.fail (.store reason)

/-- Mount an adapter under its manifest's id. Another manifest under that id is refused, as is every one
whose cost is NaN; the same one only swaps the adapter.
-/
def mount (adapter : ArchAdapter) (nowMs : UInt64) : Syscall String := do
  match adapter.manifest.validate with
  | .error error => failWith error.text
  | .ok () =>
      let id := adapter.manifest.archId
      match ← kernel (·.adapters[id]?) with
      | some mounted =>
          if !mounted.manifest.same adapter.manifest then
            failWith
              s!"arch {id} is already mounted with a different manifest; unmount first"
          else
            Program.perform (.setBudget id adapter.contextBudget)
            Program.perform (.mountAdapter id adapter)
            return id
      | none =>
          save (.putArch id adapter.manifest)
          Program.perform (.setBudget id adapter.contextBudget)
          Program.perform (.mountAdapter id adapter)
          log "arch.mounted" nowMs (.str id)
          return id

def unmount (archId : String) (nowMs : UInt64) : Syscall Unit := do
  Program.perform (.unmountAdapter archId)
  save (.deleteArch archId)
  log "arch.unmounted" nowMs (.str archId)

omit [Libraries] in
/-- The version of the policy set, written with `0` where there is none. -/
def loadPoliciesVersion : Syscall String := do
  match ← load (·.policiesVersion) with
  | some version => return version
  | none =>
      save (.setPoliciesVersion "0")
      return "0"

structure BootReport where
  ledgerOk : Bool
  ledgerLen : Nat
  recoveredPartialLine : Bool
  arches : List String
  devices : List String
  stoppedScopes : List String
  policiesVersion : String
  deriving DecidableEq, Repr

def BootReport.toJson (report : BootReport) : Json :=
  .obj [("ledger_ok", .bool report.ledgerOk), ("ledger_len", .num report.ledgerLen),
    ("recovered_partial_line", .bool report.recoveredPartialLine),
    ("arches", .arr (report.arches.map .str)), ("devices", .arr (report.devices.map .str)),
    ("stopped_scopes", .arr (report.stoppedScopes.map .str)),
    ("policies_version", .str report.policiesVersion)]

/-- Verify the record, and put the report on it whatever the verdict. -/
def boot (nowMs : UInt64) : Syscall BootReport := do
  let node ← kernel id
  let policiesVersion ← loadPoliciesVersion
  let report : BootReport :=
    { ledgerOk := node.ledgerHolds
      ledgerLen := node.chain.events.length
      recoveredPartialLine := node.recoveredPartialLine
      arches := node.adapters.list.map (·.1)
      devices := node.devices.ids
      stoppedScopes := node.stops.stoppedScopes
      policiesVersion }
  log "boot" nowMs report.toJson
  return report

end VerticalAI.Kernel
