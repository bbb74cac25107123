import VerticalAI.Contracts.Documents
import VerticalAI.Foundation.Endings
import VerticalAI.Foundation.History
import VerticalAI.Kernel.Inference
import VerticalAI.Kernel.Rebuild
import VerticalAI.Kernel.StopEffects
import VerticalAI.Kernel.TaskStatus

/-! What the calls of the kernel contract answer on working storage, and what they leave of the
state that later answers depend on.
-/

namespace VerticalAI.Kernel
open VerticalAI.Foundation VerticalAI.Contracts VerticalAI.Store

/-- What of a node's state the answers of the contract's calls depend on. -/
structure Bearing where
  adapters : Table ArchAdapter
  devices : DeviceRegistry
  locks : LockTable
  home : LockHome
  liveness : Table LivenessLease
  approvals : Table Approval
  hot : Table ModuleManifest
  registers : Table Register
  stops : StopSet
  counter : UInt64

def World.bearing (world : World) : Bearing where
  adapters := world.kernel.adapters
  devices := world.kernel.devices
  locks := world.kernel.locks
  home := world.kernel.home
  liveness := world.disk.liveness
  approvals := world.disk.approvals
  hot := world.disk.hot
  registers := world.disk.registers
  stops := world.kernel.stops
  counter := world.kernel.counter

section Pieces

variable {α β : Type} {world : World} {bearing : Bearing} {last : Outcome KernelError β}

/-- A read hands on what is in the state directory. -/
theorem ends_load {look : StateDir → α} {next : α → Syscall β}
    (ends : (next (look world.disk)).Ends World.bearing world last bearing)
    : (load look >>= next).Ends World.bearing world last bearing :=
  Program.ends_bind rfl ends

/-- A look at the memory hands on what is in it. -/
theorem ends_kernel {look : RealKernel → α} {next : α → Syscall β}
    (ends : (next (look world.kernel)).Ends World.bearing world last bearing)
    : (kernel look >>= next).Ends World.bearing world last bearing :=
  Program.ends_bind rfl ends

/-- On working storage a stored update takes effect. -/
theorem ends_save {update : Update} {next : Unit → Syscall β}
    (ends : (next ()).Ends World.bearing (Updates.apply update world) last bearing)
    : (save update >>= next).Ends World.bearing world last bearing :=
  Program.ends_bind rfl ends

variable [Libraries]

/-- The record bears on nothing else. -/
@[simp] theorem logged_bearing (kind : String) (wallMs : UInt64) (payload : Json) (world : World)
    : (world.logged kind wallMs payload).bearing = world.bearing := by
  unfold World.logged
  split <;> rfl

/-- On working storage logging changes nothing that an outcome depends on. -/
theorem ends_log (kind : String) (wallMs : UInt64) (payload : Json)
    : (log kind wallMs payload).Ends World.bearing world (.done ()) world.bearing := by
  rw [← logged_bearing kind wallMs payload world]
  exact .of_run (log_working kind wallMs payload world)

/-- A value that is returned after logging. -/
theorem ends_log_pure {kind : String} {wallMs : UInt64} {payload : Json} {value : α}
    : (log kind wallMs payload >>= fun _ => pure value).Ends World.bearing world (.done value)
        world.bearing := by
  rw [← logged_bearing kind wallMs payload world]
  exact Program.ends_bind (log_working kind wallMs payload world) (Program.ends_pure value)

/-- A change that is stored after logging. -/
theorem ends_log_save {kind : String} {wallMs : UInt64} {payload : Json} {update : Update}
    (bears : ∀ later : World, later.bearing = world.bearing
      → World.bearing (Updates.apply update later) = bearing)
    : (log kind wallMs payload >>= fun _ => save update).Ends World.bearing world (.done ())
        bearing := by
  rw [← bears _ (logged_bearing kind wallMs payload world)]
  exact Program.ends_bind (log_working kind wallMs payload world) (.of_run rfl)

end Pieces

variable [Libraries] {ctx : Ctx} {world : World}

-----------------------------------------------------------------------------------------
-- Registers
-----------------------------------------------------------------------------------------

/-- A submission answers with the register it stored, under the first of its two numbers. -/
theorem submitTask_ends (ctx : Ctx) (goal : String) (label : Label) (world : World)
    : ∃ reg : Register,
        reg.id.text = mintedId "reg" world.kernel.nodeId (world.kernel.counter + 1)
        ∧ reg.label = label
        ∧ (submitTask ctx goal label).Ends World.bearing world (.done reg.id)
            { world.bearing with
              registers := world.bearing.registers.insert reg.id.text reg
              counter := world.bearing.counter + 2 } := by
  have first : nextId "reg" world []
      = (.done (mintedId "reg" world.kernel.nodeId (world.kernel.counter + 1)),
          world.counted, []) := rfl
  have second : nextId "task" world.counted []
      = (.done (mintedId "task" world.kernel.nodeId (world.kernel.counter + 2)),
          world.counted.counted, []) := by
    rw [← mintedId_counted]
    rfl
  refine ⟨⟨⟨mintedId "reg" world.kernel.nodeId (world.kernel.counter + 1)⟩,
    mintedId "task" world.kernel.nodeId (world.kernel.counter + 2), label, goal, [], [], [], [],
    []⟩, rfl, rfl, ?_⟩
  have twice : world.bearing.counter + 1 + 1 = world.bearing.counter + 2 :=
    UInt64.add_assoc world.bearing.counter 1 1
  rw [← twice]
  exact Program.ends_bind first (Program.ends_bind second (ends_save ends_log_pure))

section Reads

variable {id : RegisterId} {reg : Register}

omit [Libraries]

/-- A register that is not stored is not found. -/
theorem readRegister_missing (missing : world.bearing.registers[id.text]? = none)
    : (readRegister ctx id).Ends World.bearing world (.failed (.notFound id.text))
        world.bearing := by
  have missing : world.disk.registers[id.text]? = none := missing
  refine ends_load ?_
  rw [missing]
  exact Program.ends_fail _

/-- A register above the caller's clearance is refused, and the refusal names it. -/
theorem readRegister_above (stored : world.bearing.registers[id.text]? = some reg)
    (above : reg.label.flowsTo ctx.clearance = false)
    : (readRegister ctx id).Ends World.bearing world
        (.failed (.i2 s!"register {id.text} exceeds caller clearance")) world.bearing := by
  have stored : world.disk.registers[id.text]? = some reg := stored
  refine ends_load ?_
  rw [stored]
  dsimp only
  rw [above]
  exact Program.ends_fail _

/-- A register that is stored and flows to the caller is read as stored. -/
theorem readRegister_ends (stored : world.bearing.registers[id.text]? = some reg)
    (flows : reg.label.flowsTo ctx.clearance = true)
    : (readRegister ctx id).Ends World.bearing world (.done reg) world.bearing :=
  .of_run (readRegister_working stored flows)

end Reads

/-- A write stores the register under its own id, whoever the caller is. -/
theorem writeRegister_ends (ctx : Ctx) (reg : Register) (world : World)
    : (writeRegister ctx reg).Ends World.bearing world (.done ())
        { world.bearing with
          registers := world.bearing.registers.insert reg.id.text reg } :=
  ends_save (ends_log "register.written" ctx.nowMs (.str reg.id.text))

-----------------------------------------------------------------------------------------
-- Leases and approvals
-----------------------------------------------------------------------------------------

/-- A lease that the table refuses leaves the table as it was. -/
theorem lease_refused {resource : String} {ttlMs : UInt64} {error : LockError}
    (busy : world.bearing.locks.acquire resource ctx.principal ctx.nowMs ttlMs ctx.partition
      world.bearing.home = .error error)
    : (lease ctx resource ttlMs).Ends World.bearing world (.failed (.lock error))
        world.bearing := by
  have busy : world.kernel.locks.acquire resource ctx.principal ctx.nowMs ttlMs ctx.partition
      world.kernel.home = .error error := busy
  refine ends_load (ends_kernel ?_)
  simp only [id, busy]
  exact Program.ends_fail _

/-- A lease that the table grants is the answer, and the table has it. -/
theorem lease_granted {resource : String} {ttlMs : UInt64} {granted : Lease} {locks : LockTable}
    {home : LockHome}
    (free : world.bearing.locks.acquire resource ctx.principal ctx.nowMs ttlMs ctx.partition
      world.bearing.home = .ok (granted, locks, home))
    : (lease ctx resource ttlMs).Ends World.bearing world (.done granted)
        { world.bearing with locks, home } := by
  have free : world.kernel.locks.acquire resource ctx.principal ctx.nowMs ttlMs ctx.partition
      world.kernel.home = .ok (granted, locks, home) := free
  refine ends_load (ends_kernel ?_)
  simp only [id, free]
  exact Program.ends_perform (ends_save (Program.ends_bind (deleteLeases_working _ _)
    (ends_save ends_log_pure)))

/-- The digits after the last colon of a key are those of the approval's hash. -/
theorem approvalKey_injective (injective : Function.Injective Digest.sha256)
    {first second : Approval} (same : approvalKey first = approvalKey second)
    : first = second := by
  have spelled (approval : Approval)
      : (approvalKey approval).toList
        = (approval.subjectHash.toList ++ ":sha256".toList) ++ ':' ::
          (Hex.encode (Digest.sha256 (Utf8.encode approval.toJson.render))).toList := by
    simp [approvalKey, hashCanonical, hashBytes, toString, String.toList_append]
  have plain (bytes : List UInt8) : ':' ∉ (Hex.encode bytes).toList := fun member =>
    absurd (Hex.encode_lower member) (by decide)
  have texts := congrArg String.toList same
  rw [spelled, spelled] at texts
  have digits := eq_after_last texts (plain _) (plain _)
  exact Approval.toJson_injective (digits_injective injective (String.toList_inj.mp digits))

/-- An approval that fails its check is not stored. -/
theorem approve_refused {approval : Approval} {error : KernelError}
    (refused : i1Approval ctx.principal approval world.bearing.devices ctx.nowMs = .error error)
    : (approve ctx approval).Ends World.bearing world (.failed error) world.bearing :=
  ends_kernel (Program.ends_refused refused)

/-- An approval that passes its check is stored under its key. -/
theorem approve_done {approval : Approval}
    (passed : i1Approval ctx.principal approval world.bearing.devices ctx.nowMs = .ok ())
    : (approve ctx approval).Ends World.bearing world (.done ())
        { world.bearing with
          approvals := world.bearing.approvals.insert (approvalKey approval) approval } := by
  refine ends_kernel (Program.ends_passed passed (ends_log_save fun later same => ?_))
  rw [← same]
  rfl

-----------------------------------------------------------------------------------------
-- STOP and RESUME
-----------------------------------------------------------------------------------------

theorem stop_refused {scope : String} {error : KernelError}
    (absent : i1Presence ctx.principal = .error error)
    : (stop ctx scope).Ends World.bearing world (.failed error) world.bearing :=
  Program.ends_refused absent

/-- A human's STOP is in force under the id that it answers with. -/
theorem stop_done (scope : String) (human : ctx.principal.isHuman = true) (world : World)
    : ∃ event : StopEvent,
        event.id = mintedId "stop" world.kernel.nodeId (world.kernel.counter + 1)
        ∧ event.scope = scope
        ∧ (stop ctx scope).Ends World.bearing world (.done event.id)
            { world.bearing with
              stops := { world.bearing.stops with
                stops := world.bearing.stops.stops.insert event.id event }
              counter := world.bearing.counter + 1 } := by
  have minted : nextId "stop" world []
      = (.done (mintedId "stop" world.kernel.nodeId (world.kernel.counter + 1)),
          world.counted, []) := rfl
  refine ⟨⟨mintedId "stop" world.kernel.nodeId (world.kernel.counter + 1), scope, ctx.principal,
    ctx.nowMs, []⟩, rfl, rfl, ?_⟩
  refine Program.ends_passed (i1Presence_human human)
    (Program.ends_bind minted (ends_save (ends_kernel ?_)))
  simp only [StopSet.tryAddStop, human, if_true]
  exact Program.ends_perform ends_log_pure

theorem resume_refused {stopId : String} {error : KernelError}
    (absent : i1Presence ctx.principal = .error error)
    : (resume ctx stopId).Ends World.bearing world (.failed error) world.bearing :=
  Program.ends_refused absent

/-- A RESUME of a STOP that was never heard of is refused. -/
theorem resume_unknown {stopId : String} (human : ctx.principal.isHuman = true)
    (unknown : world.bearing.stops.hasStop stopId = false)
    : (resume ctx stopId).Ends World.bearing world (.failed (.stop .unknownStop))
        world.bearing := by
  have unknown : world.kernel.stops.hasStop stopId = false := unknown
  refine Program.ends_passed (i1Presence_human human) (ends_kernel ?_)
  rw [unknown]
  exact Program.ends_fail _

/-- A human's RESUME of a known STOP is added to the STOP set. -/
theorem resume_done {stopId : String} (human : ctx.principal.isHuman = true)
    (known : world.bearing.stops.hasStop stopId = true)
    : ∃ event : ResumeEvent,
        event.id = mintedId "resume" world.kernel.nodeId (world.kernel.counter + 1)
        ∧ event.cites = stopId
        ∧ (resume ctx stopId).Ends World.bearing world (.done ())
            { world.bearing with
              stops := { world.bearing.stops with
                resumes := world.bearing.stops.resumes.insert event.id event }
              counter := world.bearing.counter + 1 } := by
  have minted : nextId "resume" world []
      = (.done (mintedId "resume" world.kernel.nodeId (world.kernel.counter + 1)),
          world.counted, []) := rfl
  have known : world.kernel.stops.hasStop stopId = true := known
  obtain ⟨event, numbered, cites, issuer, built⟩ : ∃ event : ResumeEvent,
      event.id = mintedId "resume" world.kernel.nodeId (world.kernel.counter + 1)
      ∧ event.cites = stopId ∧ event.issuer = ctx.principal
      ∧ ResumeEvent.mk (mintedId "resume" world.kernel.nodeId (world.kernel.counter + 1)) stopId
          ctx.principal ctx.nowMs = event := ⟨_, rfl, rfl, rfl, rfl⟩
  refine ⟨event, numbered, cites, Program.ends_passed (i1Presence_human human) (ends_kernel ?_)⟩
  rw [known]
  refine Program.ends_bind minted ?_
  dsimp only
  rw [built]
  refine Program.ends_bind (log_working _ _ _ _) (ends_save (ends_kernel ?_))
  have kept := logged_bearing "resume" ctx.nowMs (.str stopId) world.counted
  generalize world.counted.logged "resume" ctx.nowMs (.str stopId) = later at kept
  have stops : later.kernel.stops = world.kernel.stops := congrArg Bearing.stops kept
  have added : (Updates.apply (Update.putResume event) later).kernel.stops.addResume event
      = .ok { later.kernel.stops with
          resumes := later.kernel.stops.resumes.insert event.id event } := by
    have cited : (Updates.apply (Update.putResume event) later).kernel.stops.stops.contains
        event.cites = true := by
      change later.kernel.stops.hasStop event.cites = true
      rw [stops, cites]
      exact known
    simp only [StopSet.addResume, issuer, human, cited, not_true_eq_false, if_false]
    rfl
  rw [added]
  have lifted : (Program.perform (.setStops
      { later.kernel.stops with
        resumes := later.kernel.stops.resumes.insert event.id event }) : Syscall Unit).Ends
      World.bearing (Updates.apply (Update.putResume event) later) (.done ())
      { later.bearing with
        stops := { later.bearing.stops with
          resumes := later.bearing.stops.resumes.insert event.id event } } := ⟨rfl, rfl⟩
  rw [kept] at lifted
  exact lifted

-----------------------------------------------------------------------------------------
-- Automations and modules
-----------------------------------------------------------------------------------------

theorem runAutomation_human {business module : String} (human : ctx.principal.isHuman = true)
    : (runAutomation ctx business module).Ends World.bearing world (.done ()) world.bearing := by
  unfold runAutomation
  rw [if_pos human]
  exact Program.ends_pure ()

theorem runAutomation_refused {business module : String} {error : KernelError}
    (machine : ctx.principal.isHuman = false)
    (refused : i4Liveness business world.bearing.liveness[business]? world.bearing.stops ctx.nowMs
      = .error error)
    : (runAutomation ctx business module).Ends World.bearing world (.failed error)
        world.bearing := by
  unfold runAutomation
  rw [machine]
  exact ends_load (ends_kernel (Program.ends_refused refused))

theorem runAutomation_done {business module : String} (machine : ctx.principal.isHuman = false)
    (passed : i4Liveness business world.bearing.liveness[business]? world.bearing.stops ctx.nowMs
      = .ok ())
    : (runAutomation ctx business module).Ends World.bearing world (.done ()) world.bearing := by
  unfold runAutomation
  rw [machine]
  exact ends_load (ends_kernel (Program.ends_passed passed (ends_log _ _ _)))

/-- A human approved this subject. -/
def Bearing.approved (bearing : Bearing) (subject : String) : Bool :=
  ((bearing.approvals.list.map (·.2)).filter (·.subjectHash = subject)).any (·.kind = .human)

omit [Libraries] in
theorem Bearing.approved_iff {bearing : Bearing} {subject : String}
    : bearing.approved subject = true
      ↔ ∃ (key : String) (approval : Approval), bearing.approvals[key]? = some approval
          ∧ approval.subjectHash = subject ∧ approval.kind = .human := by
  simp only [approved, List.any_eq_true, List.mem_filter, List.mem_map, decide_eq_true_eq,
    Prod.exists, Table.mem_list]
  constructor
  · rintro ⟨_, ⟨⟨key, approval, held, rfl⟩, named⟩, human⟩
    exact ⟨key, approval, held, named, human⟩
  · rintro ⟨key, approval, held, named, human⟩
    exact ⟨approval, ⟨⟨key, approval, held, rfl⟩, named⟩, human⟩

/-- What a promotion asks for. -/
def promotion (module : ModuleManifest) (verdicts : List GateVerdict) (hasHuman : Bool)
    : Except KernelError Unit :=
  match module.validate.mapError KernelError.module with
  | .error error => .error error
  | .ok () =>
      if !verdicts.any fun verdict =>
          verdict.gate = .annexIii && verdict.subjectHash = module.provenance.contentHash
            && verdict.pass then
        .error (.gate "annex_iii verdict required for promotion")
      else if (module.autonomyProfile.map fun profile => !profile.autoApproveAllowed).getD true
          && !hasHuman then
        .error (.i1 s!"promotion of {module.name} requires a human approval")
      else .ok ()

theorem promote_refused {module : ModuleManifest} {verdicts : List GateVerdict}
    {error : KernelError}
    (refused : promotion module verdicts (world.bearing.approved module.provenance.contentHash)
      = .error error)
    : (promote ctx module verdicts).Ends World.bearing world (.failed error) world.bearing := by
  have read : approvalsFor module.provenance.contentHash world []
      = (.done ((world.bearing.approvals.list.map (·.2)).filter
          (·.subjectHash = module.provenance.contentHash)), world, []) := rfl
  unfold promotion Bearing.approved at refused
  split at refused
  · next invalid =>
      cases refused
      exact Program.ends_refused invalid
  · next valid =>
      refine Program.ends_passed valid ?_
      dsimp only
      split at refused
      · next absent =>
          cases refused
          rw [if_pos absent]
          exact Program.ends_fail _
      · next present =>
          rw [if_neg present]
          refine Program.ends_bind read ?_
          split at refused
          · next unapproved =>
              cases refused
              rw [if_pos unapproved]
              exact Program.ends_fail _
          · cases refused

/-- A promotion whose gates all pass puts the module in force under its content hash. -/
theorem promote_done {module : ModuleManifest} {verdicts : List GateVerdict}
    (passed : promotion module verdicts (world.bearing.approved module.provenance.contentHash)
      = .ok ())
    : (promote ctx module verdicts).Ends World.bearing world (.done ())
        { world.bearing with
          hot := world.bearing.hot.insert module.provenance.contentHash module } := by
  have read : approvalsFor module.provenance.contentHash world []
      = (.done ((world.bearing.approvals.list.map (·.2)).filter
          (·.subjectHash = module.provenance.contentHash)), world, []) := rfl
  unfold promotion Bearing.approved at passed
  split at passed
  · cases passed
  · next valid =>
      refine Program.ends_passed valid ?_
      dsimp only
      split at passed
      · cases passed
      · next present =>
          rw [if_neg present]
          refine Program.ends_bind read ?_
          split at passed
          · cases passed
          · next approved =>
              rw [if_neg approved]
              refine ends_log_save fun later same => ?_
              rw [← same]
              rfl

/-- What an export asks for. -/
def exporting (moduleHash : String) (toScope : Scope) (verdicts : List GateVerdict)
    : Except KernelError Unit :=
  if toScope ≤ .vertical ∧ ¬verdicts.any fun verdict =>
      verdict.gate = .declassification && verdict.subjectHash = moduleHash && verdict.pass then
    .error (.gate "declassification verdict required to leave the business")
  else .ok ()

theorem exportModule_ends (ctx : Ctx) (moduleHash : String) (toScope : Scope)
    (verdicts : List GateVerdict) (world : World)
    : (exportModule ctx moduleHash toScope verdicts).Ends World.bearing world
        (match exporting moduleHash toScope verdicts with
          | .error error => .failed error
          | .ok () => .done ())
        world.bearing := by
  unfold exportModule exporting
  split
  · exact Program.ends_fail _
  · exact ends_log _ _ _

-----------------------------------------------------------------------------------------
-- Inference
-----------------------------------------------------------------------------------------

section Inferences

variable {archId : String} {capability : Capability} {regId : RegisterId} {adapter : ArchAdapter}
  {reg : Register}

/-- An inference on an adapter that is not mounted fails and sends nothing. -/
theorem infer_unmounted (absent : world.bearing.adapters[archId]? = none)
    : (infer ctx archId capability regId).Ends World.bearing world (.failed (.notFound archId))
        world.bearing := by
  have absent : world.kernel.adapters[archId]? = none := absent
  refine ends_kernel ?_
  rw [absent]
  exact Program.ends_fail _

/-- A register that cannot be read is refused as reading it is. -/
theorem infer_unread (mounted : world.bearing.adapters[archId]? = some adapter)
    {error : KernelError}
    (refused : (readRegister ctx regId).Ends World.bearing world (.failed error) world.bearing)
    : (infer ctx archId capability regId).Ends World.bearing world (.failed error)
        world.bearing := by
  have mounted : world.kernel.adapters[archId]? = some adapter := mounted
  refine ends_kernel ?_
  rw [mounted]
  exact refused.bind_failed

/-- A label that does not flow to the arch is refused. -/
theorem infer_above (mounted : world.bearing.adapters[archId]? = some adapter)
    (stored : world.bearing.registers[regId.text]? = some reg)
    (caller : reg.label.flowsTo ctx.clearance = true) {error : KernelError}
    (refused : i2Flow reg.label adapter.manifest = .error error)
    : (infer ctx archId capability regId).Ends World.bearing world (.failed error)
        world.bearing := by
  have mounted : world.kernel.adapters[archId]? = some adapter := mounted
  refine ends_kernel ?_
  rw [mounted]
  exact Program.ends_bind (readRegister_working stored caller) (Program.ends_refused refused)

/-- What happened since the arch was called bears on nothing, and the register is written. -/
theorem answered_ends (world : World) (sent : Sent) (stats : ArchStats) (payload : Json)
    (reg : Register) (role : String) (output : List Char)
    : (writeRegister ctx (raise reg role output)).Ends World.bearing
        (Updates.apply (Update.setStats sent.archId stats)
          (Updates.apply (Update.pushInferLog sent.archId reg.label)
            (World.logged (Updates.apply (Update.send sent) world) "infer" ctx.nowMs payload)))
        (.done ())
        { world.bearing with
          registers := world.bearing.registers.insert reg.id.text (raise reg role output) } := by
  generalize before : World.logged (Updates.apply (Update.send sent) world) "infer" ctx.nowMs
    payload = recorded
  have kept : World.bearing (Updates.apply (Update.setStats sent.archId stats)
      (Updates.apply (Update.pushInferLog sent.archId reg.label) recorded)) = world.bearing := by
    change recorded.bearing = _
    rw [← before, logged_bearing]
    rfl
  have written := writeRegister_ends ctx (raise reg role output)
    (Updates.apply (Update.setStats sent.archId stats)
      (Updates.apply (Update.pushInferLog sent.archId reg.label) recorded))
  rwa [kept, (raise_kept reg role output).1] at written

/-- An inference that fits its budget writes the answer into the register, if there is one. -/
theorem infer_ends (mounted : world.bearing.adapters[archId]? = some adapter)
    (stored : world.bearing.registers[regId.text]? = some reg)
    (caller : reg.label.flowsTo ctx.clearance = true)
    (arch : i2Flow reg.label adapter.manifest = .ok ())
    (ample : adapter.countTokens (lower reg (roleOf capability).toList)
      ≤ world.kernel.budgetFor archId adapter)
    {output : List Char}
    (answers : adapter.complete world.sent.length (lower reg (roleOf capability).toList)
      (min (world.kernel.budgetFor archId adapter) 1024) = .ok output)
    : (infer ctx archId capability regId).Ends World.bearing world
        (.done ⟨archId, false, adapter.countTokens (lower reg (roleOf capability).toList)⟩)
        { world.bearing with
          registers := world.bearing.registers.insert reg.id.text
            (raise reg (roleOf capability) output) } := by
  have mounted : world.kernel.adapters[archId]? = some adapter := mounted
  refine ends_kernel ?_
  rw [mounted]
  refine Program.ends_bind (readRegister_working stored caller)
    (Program.ends_passed arch (ends_kernel ?_))
  have fits : fit ctx archId adapter (world.kernel.budgetFor archId adapter) regId
      (lower reg (roleOf capability).toList) world []
      = (.done (lower reg (roleOf capability).toList, false), world, []) := by
    unfold fit
    simp only [UInt32.not_lt.mpr ample, if_false]
    rfl
  refine Program.ends_bind fits ?_
  have handed : complete archId adapter (lower reg (roleOf capability).toList)
      (min (world.kernel.budgetFor archId adapter) 1024) world []
      = (.done output, Updates.apply (Update.send ⟨archId, lower reg (roleOf capability).toList,
          min (world.kernel.budgetFor archId adapter) 1024⟩) world, []) := by
    unfold complete
    rw [Program.observe_bind_run, Program.perform_bind_run, answers]
    rfl
  refine Program.ends_bind handed (Program.ends_bind (log_working _ _ _ _) (Program.ends_perform
    (Program.ends_bind rfl ?_)))
  exact (answered_ends world ⟨archId, _, _⟩ _ (.arr [.str archId, .str regId.text]) reg
    (roleOf capability) output).then_pure _

end Inferences

end VerticalAI.Kernel
