import VerticalAI.Contracts.Interceptors
import VerticalAI.Contracts.Ledger
import VerticalAI.Contracts.Register
import VerticalAI.Foundation.Program

/-! The in-memory stub kernel: enough behaviour to test the invariants. Nothing it does can fail
for want of a store.
-/

namespace VerticalAI.Stub
open VerticalAI.Foundation VerticalAI.Contracts

/-- `counter` numbers the ids it mints, and wraps as a `u64`. -/
structure StubKernel where
  nodeId : String
  clock : HlcClock
  ledger : Ledger := {}
  registers : Table Register := ∅
  arches : Table ArchManifest := ∅
  budgets : Table UInt32 := ∅
  locks : LockTable := {}
  home : LockHome := {}
  devices : DeviceRegistry := {}
  approvals : List Approval := []
  stops : StopSet := {}
  liveness : Table LivenessLease := ∅
  hot : List String := []
  inferLog : List (String × Label) := []
  counter : UInt64 := 0

instance : Updates StubKernel (StubKernel → StubKernel) := ⟨fun change stub => change stub⟩

/-- A call into the stub. -/
abbrev StubCall (α : Type) := Program StubKernel KernelError α

namespace StubKernel

def new (nodeId : String) : StubKernel := { nodeId, clock := HlcClock.new nodeId }

def look {α : Type} (field : StubKernel → α) : StubCall α := Program.observe field

def change (update : StubKernel → StubKernel) : StubCall Unit := Program.perform update

section Calls

variable [Digest]

def log (kind : String) (nowMs : UInt64) (payload : Json) : StubCall Unit :=
  change fun stub =>
    let (hlc, clock) := stub.clock.now nowMs
    let (_, ledger) := stub.ledger.append
      { kind, retention := .operational90d, wallMs := nowMs, clockQuality := .synced, hlc
        causalHeads := [], payloadHash := hashCanonical payload }
    { stub with clock, ledger }

omit [Digest] in
def nextId (stem : String) : StubCall String := do
  change fun stub => { stub with counter := stub.counter + 1 }
  let stub ← look id
  return s!"{stem}-{stub.nodeId}-{stub.counter}"

omit [Digest] in
/-- Rough token estimate: one token for four bytes of goal and evidence. -/
def estimateTokens (reg : Register) : UInt32 :=
  let size (text : String) : Nat := (Utf8.encode text.toList).length
  UInt32.ofNat ((size reg.goal + (reg.evidence.map fun evidence => size evidence.content).sum) / 4)
    + 1

def submitTask (ctx : Ctx) (goal : String) (label : Label) : StubCall RegisterId := do
  let id := RegisterId.mk (← nextId "reg")
  let taskId ← nextId "task"
  let reg : Register :=
    { id, taskId, label, goal, constraints := [], evidence := [], decisions := []
      openQuestions := [], artefacts := [] }
  change fun stub => { stub with registers := stub.registers.insert id.text reg }
  log "task.submitted" ctx.nowMs (.str id.text)
  return id

omit [Digest] in
def readRegister (ctx : Ctx) (id : RegisterId) : StubCall Register := do
  match ← look (·.registers[id.text]?) with
  | none => Program.fail (.notFound id.text)
  | some reg =>
      if reg.label.flowsTo ctx.clearance then return reg
      else Program.fail (.i2 s!"register {id.text} exceeds caller clearance")

def writeRegister (ctx : Ctx) (reg : Register) : StubCall Unit := do
  log "register.written" ctx.nowMs (.str reg.id.text)
  change fun stub => { stub with registers := stub.registers.insert reg.id.text reg }

/-- The register is looked up here and not read for the caller. -/
def infer (ctx : Ctx) (archId : String) (_capability : Capability) (regId : RegisterId)
    : StubCall InferOutcome := do
  match ← look (·.arches[archId]?) with
  | none => Program.fail (.notFound archId)
  | some arch =>
      match ← look (·.registers[regId.text]?) with
      | none => Program.fail (.notFound regId.text)
      | some reg =>
          Program.lift (i2Flow reg.label arch)
          let tokens := estimateTokens reg
          let budget := (← look (·.budgets[archId]?)).getD arch.contextCeiling
          let projected : Bool := budget < tokens
          if projected then
            log "infer.projected" ctx.nowMs
              (.arr [.str archId, .num tokens.toNat, .num budget.toNat])
          log "infer" ctx.nowMs (.arr [.str archId, .str regId.text])
          change fun stub => { stub with inferLog := stub.inferLog ++ [(archId, reg.label)] }
          return { archId, projected, tokensIn := min tokens budget }

def lease (ctx : Ctx) (resource : String) (ttlMs : UInt64) : StubCall Lease := do
  let stub ← look id
  match stub.locks.acquire resource ctx.principal ctx.nowMs ttlMs ctx.partition stub.home with
  | .error error => Program.fail (.lock error)
  | .ok (granted, locks, home) =>
      change fun stub => { stub with locks, home }
      log "lease.granted" ctx.nowMs (.str granted.id)
      return granted

def approve [SignatureScheme] (ctx : Ctx) (approval : Approval) : StubCall Unit := do
  Program.lift (i1Approval ctx.principal approval (← look (·.devices)) ctx.nowMs)
  log "approval.recorded" ctx.nowMs approval.toJson
  change fun stub => { stub with approvals := stub.approvals ++ [approval] }

def stop (ctx : Ctx) (scope : String) : StubCall String := do
  Program.lift (i1Presence ctx.principal)
  let id ← nextId "stop"
  let event : StopEvent :=
    { id, scope, issuer := ctx.principal, hlcMs := ctx.nowMs, causalHeads := [] }
  match (← look (·.stops)).tryAddStop event with
  | .error error => Program.fail (.stop error)
  | .ok stops =>
      change fun stub => { stub with stops }
      log "stop" ctx.nowMs (.str id)
      return id

/-- The id is minted before the STOP is looked for. -/
def resume (ctx : Ctx) (stopId : String) : StubCall Unit := do
  Program.lift (i1Presence ctx.principal)
  let id ← nextId "resume"
  let event : ResumeEvent :=
    { id, cites := stopId, issuer := ctx.principal, hlcMs := ctx.nowMs }
  match (← look (·.stops)).addResume event with
  | .error error => Program.fail (.stop error)
  | .ok stops =>
      change fun stub => { stub with stops }
      log "resume" ctx.nowMs (.str stopId)

/-- A human's run is no automation. -/
def runAutomation (ctx : Ctx) (business module : String) : StubCall Unit := do
  if ctx.principal.isHuman then return ()
  else
    let stub ← look id
    Program.lift (i4Liveness business stub.liveness[business]? stub.stops ctx.nowMs)
    log "automation.ran" ctx.nowMs (.arr [.str business, .str module])

def promote (ctx : Ctx) (module : ModuleManifest) (verdicts : List GateVerdict)
    : StubCall Unit := do
  Program.lift (module.validate.mapError .module)
  let subject := module.provenance.contentHash
  if !verdicts.any fun verdict =>
      verdict.gate = .annexIii && verdict.subjectHash = subject && verdict.pass then
    Program.fail (.gate "annex_iii verdict required for promotion")
  else
    let needsHuman := (module.autonomyProfile.map fun profile =>
      !profile.autoApproveAllowed).getD true
    let hasHuman := (← look (·.approvals)).any fun approval =>
      approval.subjectHash = subject && approval.kind = .human
    if needsHuman && !hasHuman then
      Program.fail (.i1 s!"promotion of {module.name} requires a human approval")
    else
      change fun stub => { stub with hot := stub.hot ++ [subject] }
      log "module.promoted" ctx.nowMs (.str subject)

def exportModule (ctx : Ctx) (moduleHash : String) (toScope : Scope)
    (verdicts : List GateVerdict)
    : StubCall Unit := do
  if toScope ≤ .vertical ∧ ¬verdicts.any fun verdict =>
      verdict.gate = .declassification && verdict.subjectHash = moduleHash && verdict.pass then
    Program.fail (.gate "declassification verdict required to leave the business")
  else log "module.exported" ctx.nowMs (.arr [.str moduleHash, .str toScope.name])

end Calls

-----------------------------------------------------------------------------------------
-- Setting up
-----------------------------------------------------------------------------------------

/-- Register an arch under its manifest's id, with its whole context as the budget. -/
def registerArch [Digest] (stub : StubKernel) (manifest : ArchManifest) : StubKernel :=
  { stub with
    budgets := stub.budgets.insert manifest.archId manifest.contextCeiling
    arches := stub.arches.insert manifest.archId manifest }

def enrollDevice (stub : StubKernel) (deviceId : String) (key : VerifyingKey) : StubKernel :=
  { stub with devices := stub.devices.register deviceId key }

def renewLiveness (stub : StubKernel) (business deviceId : String) (expiresAtMs : UInt64)
    : StubKernel :=
  { stub with
    liveness := stub.liveness.insert business ⟨business, deviceId, expiresAtMs⟩ }

def setContextBudget (stub : StubKernel) (archId : String) (tokens : UInt32) : StubKernel :=
  { stub with budgets := stub.budgets.insert archId tokens }

end StubKernel

end VerticalAI.Stub
