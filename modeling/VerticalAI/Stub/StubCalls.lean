import VerticalAI.Kernel.WorkingCalls
import VerticalAI.Stub.Holdings
import VerticalAI.Stub.StubKernel

/-! What the stub's calls answer, and what they leave of the state that later answers depend on. -/

namespace VerticalAI.Stub
open VerticalAI.Foundation VerticalAI.Contracts VerticalAI.Kernel

/-- What of the stub the answers of the contract's calls depend on. -/
structure StubBearing where
  arches : Table ArchManifest
  devices : DeviceRegistry
  locks : LockTable
  home : LockHome
  liveness : Table LivenessLease
  approvals : List Approval
  hot : List String
  registers : Table Register
  stops : StopSet
  counter : UInt64

namespace StubKernel

def bearing (stub : StubKernel) : StubBearing where
  arches := stub.arches
  devices := stub.devices
  locks := stub.locks
  home := stub.home
  liveness := stub.liveness
  approvals := stub.approvals
  hot := stub.hot
  registers := stub.registers
  stops := stub.stops
  counter := stub.counter

variable [Libraries] {ctx : Ctx} {stub : StubKernel}

-----------------------------------------------------------------------------------------
-- Registers
-----------------------------------------------------------------------------------------

/-- A submission answers with the register it stored, under the first of its two numbers. -/
theorem submitTask_ends (ctx : Ctx) (goal : String) (label : Label) (stub : StubKernel)
    : ∃ reg : Register,
        reg.id.text = mintedId "reg" stub.nodeId (stub.counter + 1)
        ∧ reg.label = label
        ∧ (submitTask ctx goal label).Ends bearing stub (.done reg.id)
            { stub.bearing with
              registers := stub.bearing.registers.insert reg.id.text reg
              counter := stub.bearing.counter + 2 } := by
  have twice : stub.bearing.counter + 1 + 1 = stub.bearing.counter + 2 :=
    UInt64.add_assoc stub.bearing.counter 1 1
  rw [← twice]
  exact ⟨⟨⟨mintedId "reg" stub.nodeId (stub.counter + 1)⟩,
    mintedId "task" stub.nodeId (stub.counter + 1 + 1), label, goal, [], [], [], [], []⟩, rfl, rfl,
    rfl, rfl⟩

section Reads

variable {id : RegisterId} {reg : Register}

omit [Libraries]

theorem readRegister_missing (missing : stub.bearing.registers[id.text]? = none)
    : (readRegister ctx id).Ends bearing stub (.failed (.notFound id.text)) stub.bearing := by
  have missing : stub.registers[id.text]? = none := missing
  refine Program.ends_observe ?_
  rw [missing]
  exact Program.ends_fail _

/-- A register above the caller's clearance is refused, and the refusal names it. -/
theorem readRegister_above (stored : stub.bearing.registers[id.text]? = some reg)
    (above : reg.label.flowsTo ctx.clearance = false)
    : (readRegister ctx id).Ends bearing stub
        (.failed (.i2 s!"register {id.text} exceeds caller clearance")) stub.bearing := by
  have stored : stub.registers[id.text]? = some reg := stored
  refine Program.ends_observe ?_
  rw [stored]
  dsimp only
  rw [above]
  exact Program.ends_fail _

theorem readRegister_ends (stored : stub.bearing.registers[id.text]? = some reg)
    (flows : reg.label.flowsTo ctx.clearance = true)
    : (readRegister ctx id).Ends bearing stub (.done reg) stub.bearing := by
  have stored : stub.registers[id.text]? = some reg := stored
  refine Program.ends_observe ?_
  rw [stored]
  dsimp only
  rw [flows]
  exact Program.ends_pure _

end Reads

/-- A write stores the register under its own id, whoever the caller is. -/
theorem writeRegister_ends (ctx : Ctx) (reg : Register) (stub : StubKernel)
    : (writeRegister ctx reg).Ends bearing stub (.done ())
        { stub.bearing with
          registers := stub.bearing.registers.insert reg.id.text reg } := ⟨rfl, rfl⟩

-----------------------------------------------------------------------------------------
-- Leases and approvals
-----------------------------------------------------------------------------------------

theorem lease_refused {resource : String} {ttlMs : UInt64} {error : LockError}
    (busy : stub.bearing.locks.acquire resource ctx.principal ctx.nowMs ttlMs ctx.partition
      stub.bearing.home = .error error)
    : (lease ctx resource ttlMs).Ends bearing stub (.failed (.lock error)) stub.bearing := by
  have busy : stub.locks.acquire resource ctx.principal ctx.nowMs ttlMs ctx.partition
      stub.home = .error error := busy
  refine Program.ends_observe ?_
  simp only [id, busy]
  exact Program.ends_fail _

/-- A lease that the table grants is the answer, and the table has it. -/
theorem lease_granted {resource : String} {ttlMs : UInt64} {granted : Lease} {locks : LockTable}
    {home : LockHome}
    (free : stub.bearing.locks.acquire resource ctx.principal ctx.nowMs ttlMs ctx.partition
      stub.bearing.home = .ok (granted, locks, home))
    : (lease ctx resource ttlMs).Ends bearing stub (.done granted)
        { stub.bearing with locks, home } := by
  have free : stub.locks.acquire resource ctx.principal ctx.nowMs ttlMs ctx.partition
      stub.home = .ok (granted, locks, home) := free
  refine Program.ends_observe ?_
  simp only [id, free]
  exact ⟨rfl, rfl⟩

theorem approve_refused {approval : Approval} {error : KernelError}
    (refused : i1Approval ctx.principal approval stub.bearing.devices ctx.nowMs = .error error)
    : (approve ctx approval).Ends bearing stub (.failed error) stub.bearing :=
  Program.ends_observe (Program.ends_refused refused)

/-- An approval that passes its check joins the list. -/
theorem approve_done {approval : Approval}
    (passed : i1Approval ctx.principal approval stub.bearing.devices ctx.nowMs = .ok ())
    : (approve ctx approval).Ends bearing stub (.done ())
        { stub.bearing with approvals := stub.bearing.approvals ++ [approval] } :=
  Program.ends_observe (Program.ends_passed passed ⟨rfl, rfl⟩)

-----------------------------------------------------------------------------------------
-- STOP and RESUME
-----------------------------------------------------------------------------------------

theorem stop_refused {scope : String} {error : KernelError}
    (absent : i1Presence ctx.principal = .error error)
    : (stop ctx scope).Ends bearing stub (.failed error) stub.bearing :=
  Program.ends_refused absent

/-- A human's STOP is in force under the id that it answers with. -/
theorem stop_done (scope : String) (human : ctx.principal.isHuman = true) (stub : StubKernel)
    : ∃ event : StopEvent,
        event.id = mintedId "stop" stub.nodeId (stub.counter + 1)
        ∧ event.scope = scope
        ∧ (stop ctx scope).Ends bearing stub (.done event.id)
            { stub.bearing with
              stops := { stub.bearing.stops with
                stops := stub.bearing.stops.stops.insert event.id event }
              counter := stub.bearing.counter + 1 } := by
  refine ⟨⟨mintedId "stop" stub.nodeId (stub.counter + 1), scope, ctx.principal, ctx.nowMs, []⟩,
    rfl, rfl, Program.ends_passed (i1Presence_human human) (Program.ends_bind rfl
      (Program.ends_observe ?_))⟩
  simp only [StopSet.tryAddStop, human, if_true]
  exact ⟨rfl, rfl⟩

theorem resume_refused {stopId : String} {error : KernelError}
    (absent : i1Presence ctx.principal = .error error)
    : (resume ctx stopId).Ends bearing stub (.failed error) stub.bearing :=
  Program.ends_refused absent

/-- A number is used up all the same. -/
theorem resume_unknown {stopId : String} (human : ctx.principal.isHuman = true)
    (unknown : stub.bearing.stops.hasStop stopId = false)
    : (resume ctx stopId).Ends bearing stub (.failed (.stop .unknownStop))
        { stub.bearing with counter := stub.bearing.counter + 1 } := by
  let event : ResumeEvent :=
    ⟨mintedId "resume" stub.nodeId (stub.counter + 1), stopId, ctx.principal, ctx.nowMs⟩
  have refused : stub.stops.addResume event = .error .unknownStop := by
    have unknown : stub.stops.stops.contains event.cites = false := unknown
    have human : event.issuer.isHuman = true := human
    simp only [StopSet.addResume, human, unknown, not_true_eq_false, if_false,
      Bool.false_eq_true, not_false_eq_true, if_true]
  refine Program.ends_passed (i1Presence_human human)
    (Program.ends_bind rfl (Program.ends_observe ?_))
  split
  · next found =>
      cases refused.symm.trans found
      exact ⟨rfl, rfl⟩
  · next found => cases refused.symm.trans found

/-- A human's RESUME of a known STOP is added to the STOP set. -/
theorem resume_done {stopId : String} (human : ctx.principal.isHuman = true)
    (known : stub.bearing.stops.hasStop stopId = true)
    : ∃ event : ResumeEvent,
        event.id = mintedId "resume" stub.nodeId (stub.counter + 1)
        ∧ event.cites = stopId
        ∧ (resume ctx stopId).Ends bearing stub (.done ())
            { stub.bearing with
              stops := { stub.bearing.stops with
                resumes := stub.bearing.stops.resumes.insert event.id event }
              counter := stub.bearing.counter + 1 } := by
  let event : ResumeEvent :=
    ⟨mintedId "resume" stub.nodeId (stub.counter + 1), stopId, ctx.principal, ctx.nowMs⟩
  have added : stub.stops.addResume event
      = .ok { stub.stops with resumes := stub.stops.resumes.insert event.id event } := by
    have known : stub.stops.stops.contains event.cites = true := known
    have human : event.issuer.isHuman = true := human
    simp only [StopSet.addResume, human, known, not_true_eq_false, if_false]
  refine ⟨event, rfl, rfl,
    Program.ends_passed (i1Presence_human human) (Program.ends_bind rfl (Program.ends_observe ?_))⟩
  split
  · next found => cases added.symm.trans found
  · next found =>
      cases added.symm.trans found
      exact ⟨rfl, rfl⟩

-----------------------------------------------------------------------------------------
-- Automations and modules
-----------------------------------------------------------------------------------------

theorem runAutomation_human {business module : String} (human : ctx.principal.isHuman = true)
    : (runAutomation ctx business module).Ends bearing stub (.done ()) stub.bearing := by
  unfold runAutomation
  rw [if_pos human]
  exact Program.ends_pure ()

theorem runAutomation_refused {business module : String} {error : KernelError}
    (machine : ctx.principal.isHuman = false)
    (refused : i4Liveness business stub.bearing.liveness[business]? stub.bearing.stops ctx.nowMs
      = .error error)
    : (runAutomation ctx business module).Ends bearing stub (.failed error) stub.bearing := by
  unfold runAutomation
  rw [machine]
  exact Program.ends_observe (Program.ends_refused refused)

theorem runAutomation_done {business module : String} (machine : ctx.principal.isHuman = false)
    (passed : i4Liveness business stub.bearing.liveness[business]? stub.bearing.stops ctx.nowMs
      = .ok ())
    : (runAutomation ctx business module).Ends bearing stub (.done ()) stub.bearing := by
  unfold runAutomation
  rw [machine]
  exact Program.ends_observe (Program.ends_passed passed ⟨rfl, rfl⟩)

end StubKernel

/-- A human approved this subject. -/
def StubBearing.approved (bearing : StubBearing) (subject : String) : Bool :=
  bearing.approvals.any fun approval =>
    approval.subjectHash = subject && approval.kind = .human

namespace StubKernel

variable [Libraries] {ctx : Ctx} {stub : StubKernel} {module : ModuleManifest}
  {verdicts : List GateVerdict}

theorem promote_refused {error : KernelError}
    (refused : promotion module verdicts (stub.bearing.approved module.provenance.contentHash)
      = .error error)
    : (promote ctx module verdicts).Ends bearing stub (.failed error) stub.bearing := by
  have listed : stub.bearing.approvals = stub.approvals := rfl
  unfold promotion StubBearing.approved at refused
  rw [listed] at refused
  split at refused
  · next invalid =>
      cases refused
      exact Program.ends_refused invalid
  · next valid =>
      refine Program.ends_passed valid ?_
      dsimp only
      split at refused
      · next absent =>
          cases refused
          rw [if_pos absent]
          exact Program.ends_fail _
      · next present =>
          rw [if_neg present]
          refine Program.ends_observe ?_
          split at refused
          · next unapproved =>
              cases refused
              rw [if_pos unapproved]
              exact Program.ends_fail _
          · cases refused

/-- A promotion whose gates all pass puts the module's hash in force. -/
theorem promote_done
    (passed : promotion module verdicts (stub.bearing.approved module.provenance.contentHash)
      = .ok ())
    : (promote ctx module verdicts).Ends bearing stub (.done ())
        { stub.bearing with hot := stub.bearing.hot ++ [module.provenance.contentHash] } := by
  have listed : stub.bearing.approvals = stub.approvals := rfl
  unfold promotion StubBearing.approved at passed
  rw [listed] at passed
  split at passed
  · cases passed
  · next valid =>
      refine Program.ends_passed valid ?_
      dsimp only
      split at passed
      · cases passed
      · next present =>
          rw [if_neg present]
          refine Program.ends_observe ?_
          split at passed
          · cases passed
          · next approved =>
              rw [if_neg approved]
              exact ⟨rfl, rfl⟩

theorem exportModule_ends (ctx : Ctx) (moduleHash : String) (toScope : Scope)
    (verdicts : List GateVerdict) (stub : StubKernel)
    : (exportModule ctx moduleHash toScope verdicts).Ends bearing stub
        (match exporting moduleHash toScope verdicts with
          | .error error => .failed error
          | .ok () => .done ())
        stub.bearing := by
  unfold exportModule exporting
  split
  · exact Program.ends_fail _
  · exact ⟨rfl, rfl⟩

-----------------------------------------------------------------------------------------
-- Inference
-----------------------------------------------------------------------------------------

section Inferences

variable {archId : String} {capability : Capability} {regId : RegisterId} {arch : ArchManifest}
  {reg : Register}

theorem infer_unmounted (absent : stub.bearing.arches[archId]? = none)
    : (infer ctx archId capability regId).Ends bearing stub (.failed (.notFound archId))
        stub.bearing := by
  have absent : stub.arches[archId]? = none := absent
  refine Program.ends_observe ?_
  rw [absent]
  exact Program.ends_fail _

/-- An inference for a register that is not stored fails. -/
theorem infer_missing (mounted : stub.bearing.arches[archId]? = some arch)
    (missing : stub.bearing.registers[regId.text]? = none)
    : (infer ctx archId capability regId).Ends bearing stub (.failed (.notFound regId.text))
        stub.bearing := by
  have mounted : stub.arches[archId]? = some arch := mounted
  have missing : stub.registers[regId.text]? = none := missing
  refine Program.ends_observe ?_
  rw [mounted]
  refine Program.ends_observe ?_
  rw [missing]
  exact Program.ends_fail _

theorem infer_above (mounted : stub.bearing.arches[archId]? = some arch)
    (stored : stub.bearing.registers[regId.text]? = some reg) {error : KernelError}
    (refused : i2Flow reg.label arch = .error error)
    : (infer ctx archId capability regId).Ends bearing stub (.failed error) stub.bearing := by
  have mounted : stub.arches[archId]? = some arch := mounted
  have stored : stub.registers[regId.text]? = some reg := stored
  refine Program.ends_observe ?_
  rw [mounted]
  refine Program.ends_observe ?_
  rw [stored]
  exact Program.ends_refused refused

/-- Any caller gets this far. -/
theorem infer_ends (mounted : stub.bearing.arches[archId]? = some arch)
    (stored : stub.bearing.registers[regId.text]? = some reg)
    (flows : i2Flow reg.label arch = .ok ())
    : ∃ out, (infer ctx archId capability regId).Ends bearing stub (.done out) stub.bearing := by
  have mounted : stub.arches[archId]? = some arch := mounted
  have stored : stub.registers[regId.text]? = some reg := stored
  refine ⟨⟨archId, stub.budgets[archId]?.getD arch.contextCeiling < estimateTokens reg,
    min (estimateTokens reg) (stub.budgets[archId]?.getD arch.contextCeiling)⟩, ?_⟩
  refine Program.ends_observe ?_
  rw [mounted]
  refine Program.ends_observe ?_
  rw [stored]
  refine Program.ends_passed flows (Program.ends_observe ?_)
  dsimp only
  split
  · exact ⟨rfl, rfl⟩
  · exact ⟨rfl, rfl⟩

end Inferences

end StubKernel

end VerticalAI.Stub
