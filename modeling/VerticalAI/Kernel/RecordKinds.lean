import VerticalAI.Kernel.ApprovalHistory

/-! What each call puts on the record: the kinds of its events and what their payloads name. Every
event on a ledger was put there by a call that makes such events.
-/

namespace VerticalAI.Kernel
open VerticalAI.Foundation VerticalAI.Contracts VerticalAI.Store

variable [Libraries]

-----------------------------------------------------------------------------------------
-- Parts
-----------------------------------------------------------------------------------------

/-- What calls are made of: parts that leave the record alone, and logging of admitted events. -/
inductive RecordPart (admitted : String → Json → Prop) : ∀ α : Type, Syscall α → Prop where
  | quiet {α : Type} {program : Syscall α} {areas : List Area} (emits : program.Emits (Within areas))
    (elsewhere : Area.record ∉ areas)
    : RecordPart admitted α program
  | log (kind : String) (wallMs : UInt64) (payload : Json) (admits : admitted kind payload)
    : RecordPart admitted Unit (log kind wallMs payload)

/-- The program puts admitted events on the record and no others. -/
def Records (admitted : String → Json → Prop) {α : Type} (program : Syscall α) : Prop :=
  Program.Composed (RecordPart admitted) α program

/-- The second ledger is the first with such events added. -/
def Gained (admitted : String → Json → Prop) (first last : List LedgerEvent) : Prop :=
  ∃ more, last = first ++ more
    ∧ ∀ event ∈ more, ∃ payload, admitted event.kind payload
        ∧ event.payloadHash = hashCanonical payload

/-- A record that stayed as it was has gained nothing. -/
theorem Gained.refl {admitted : String → Json → Prop} (events : List LedgerEvent)
    : Gained admitted events events :=
  ⟨[], (List.append_nil events).symm, fun _ member => absurd member List.not_mem_nil⟩

namespace Records

variable {α β : Type} {admitted : String → Json → Prop}

/-- A program that leaves the record alone records only what is admitted. -/
theorem quiet {program : Syscall α} {areas : List Area} (emits : program.Emits (Within areas))
    (elsewhere : Area.record ∉ areas)
    : Records admitted program :=
  .single (.quiet emits elsewhere)

/-- A part that writes nothing. -/
theorem reads {program : Syscall α}
    (emits : program.Emits (Within [])) : Records admitted program :=
  .quiet emits List.not_mem_nil

theorem pure (value : α) : Records admitted (Pure.pure value) := .reads Program.emits_pure

theorem fail (error : KernelError) : Records admitted (Program.fail error : Syscall α) :=
  .reads Program.emits_fail

theorem lift (result : Except KernelError α)
    : Records admitted (Program.lift result : Syscall α) :=
  .reads Program.emits_lift

/-- One admitted entry is all that logging it records. -/
theorem log {kind : String} {wallMs : UInt64} {payload : Json} (admits : admitted kind payload)
    : Records admitted (Kernel.log kind wallMs payload) :=
  .single (.log kind wallMs payload admits)

theorem save (update : Update) (elsewhere : update.area ≠ .record)
    (genuine : ∀ world, update.Genuine world)
    : Records admitted (Kernel.save update) :=
  .quiet (save_area update.area rfl (List.mem_singleton_self _) genuine)
    fun member => elsewhere (List.mem_singleton.mp member).symm

theorem perform (update : Update) (elsewhere : update.area ≠ .record)
    (genuine : ∀ world, update.Genuine world)
    : Records admitted (Program.perform update : Syscall Unit) :=
  .quiet (perform_area update.area rfl (List.mem_singleton_self _) genuine)
    fun member => elsewhere (List.mem_singleton.mp member).symm

/-- What two programs record one after the other is admitted if each one's part is. -/
theorem bind {first : Syscall α} {next : α → Syscall β} (head : Records admitted first)
    (tail : ∀ value, Records admitted (next value))
    : Records admitted (first >>= next) :=
  Program.Composed.bind head tail

/-- Catching an error admits no more than what was recorded before it. -/
theorem attempt {program : Syscall α} (inner : Records admitted program)
    : Records admitted (Program.attempt program : Syscall (Except KernelError α)) :=
  Program.Composed.attempt inner

theorem map {program : Syscall α} (records : Records admitted program) (change : α → β)
    : Records admitted (change <$> program) :=
  Program.Composed.map records (fun _ => .quiet Program.emits_pure List.not_mem_nil) change

/-- The record gains admitted events, wherever the program ends. -/
theorem gained {program : Syscall α} (records : Records admitted program) (world : World)
    (faults : List Fault)
    : Gained admitted world.disk.ledger (program world faults).2.1.disk.ledger := by
  let Good (later : World) (_ : List Fault) : Prop :=
    Gained admitted world.disk.ledger later.disk.ledger
  have extended (later : World) (kind : String) (wallMs : UInt64) (payload : Json)
      (good : Gained admitted world.disk.ledger later.disk.ledger)
      (admits : admitted kind payload)
      : Gained admitted world.disk.ledger
          (later.disk.ledger ++ [later.logEvent kind wallMs payload]) := by
    obtain ⟨more, grown, all⟩ := good
    refine ⟨more ++ [later.logEvent kind wallMs payload], by rw [grown, List.append_assoc], ?_⟩
    intro event member
    rcases List.mem_append.mp member with earlier | last
    · exact all event earlier
    · obtain rfl := List.mem_singleton.mp last
      exact ⟨payload, admits, rfl⟩
  have kept : Good (program world faults).2.1 (program world faults).2.2 := by
    have start : Good world faults := .refl world.disk.ledger
    refine Program.Composed.keeps records ?_ start
    intro β part is later left good
    cases is with
    | quiet emits elsewhere =>
        obtain ⟨-, ledger, -⟩ := same_of_trail (emits.trail later left) .record elsewhere
        change Gained admitted world.disk.ledger _
        rw [ledger]
        exact good
    | log kind wallMs payload admits =>
        change Gained admitted world.disk.ledger _
        rcases log_cases kind wallMs payload later left with
          ⟨rest, whole⟩ | ⟨outcome, rest, cut, -⟩ | ⟨outcome, rest, cut, -⟩
        · rw [whole, logged_ledger]
          exact extended later kind wallMs payload good admits
        · rw [cut]
          exact good
        · rw [cut]
          exact extended later kind wallMs payload good admits
  exact kept

end Records

-----------------------------------------------------------------------------------------
-- Calls
-----------------------------------------------------------------------------------------

/-- The kinds of the events that a call may put on the record, and what their payloads name. -/
def Call.records : Call → String → Json → Prop
  | .submitTask _ _ _ | .createTask _ _ _ _ _ => fun kind _ => kind = "task.submitted"
  | .writeRegister _ _ | .attachArtefact _ _ _ _ => fun kind _ => kind = "register.written"
  | .infer _ _ _ _ => fun kind _ => kind ∈ ["infer.projected", "infer", "register.written"]
  | .runTaskStep _ _ => fun kind _ =>
      kind ∈ ["infer.projected", "infer", "register.written", "artefact.released", "task.step"]
  | .lease _ _ _ => fun kind _ => kind = "lease.granted"
  | .approve _ approval => fun kind payload =>
      kind = "approval.recorded" ∧ payload = approval.toJson
  | .stop _ _ => fun kind payload => kind = "stop" ∧ ∃ id, payload = .str id
  | .resume _ stopId => fun kind payload => kind = "resume" ∧ payload = .str stopId
  | .runAutomation _ business module => fun kind payload =>
      kind = "automation.ran" ∧ payload = .arr [.str business, .str module]
  | .promote _ module _ => fun kind payload =>
      kind = "module.promoted" ∧ payload = .str module.provenance.contentHash
  | .exportModule _ moduleHash toScope _ => fun kind payload =>
      kind = "module.exported" ∧ payload = .arr [.str moduleHash, .str toScope.name]
  | .mount _ _ => fun kind _ => kind = "arch.mounted"
  | .unmount archId _ => fun kind payload => kind = "arch.unmounted" ∧ payload = .str archId
  | .boot _ => fun kind _ => kind = "boot"
  | .enrollDevicePersisted deviceId _ _ => fun kind payload =>
      kind = "device.enrolled" ∧ payload = .str deviceId
  | .enrollNodeKey _ _ => fun kind _ => kind = "device.enrolled"
  | _ => fun _ _ => False

section Calls

variable {admitted : String → Json → Prop} {ctx : Ctx}

/-- Submitting a task records one entry, that the task was submitted. -/
theorem submitTask_records {goal : String} {label : Label}
    (submitted : ∀ payload, admitted "task.submitted" payload)
    : Records admitted (submitTask ctx goal label) := by
  unfold submitTask
  refine (Records.quiet nextId_emits (by decide)).bind fun reg => ?_
  refine (Records.quiet nextId_emits (by decide)).bind fun taskId => ?_
  refine (Records.save (.putRegister _) nofun fun _ => trivial).bind fun _ => ?_
  exact (Records.log (submitted _)).bind fun _ => .pure _

/-- Writing a register records that it was written. -/
theorem writeRegister_records {reg : Register}
    (written : ∀ payload, admitted "register.written" payload)
    : Records admitted (writeRegister ctx reg) :=
  (Records.save (.putRegister _) nofun fun _ => trivial).bind fun _ => .log (written _)

theorem attachArtefact_records {regId : RegisterId} {kind : String} {bytes : List UInt8}
    (written : ∀ payload, admitted "register.written" payload)
    : Records admitted (attachArtefact ctx regId kind bytes) := by
  unfold attachArtefact
  refine (Records.lift _).bind fun _ => ?_
  refine (Records.reads readRegister_emits).bind fun reg => ?_
  refine (Records.quiet putBlob_emits (by decide)).bind fun envelope => ?_
  exact (writeRegister_records written).bind fun _ => .pure _

/-- An inference records its projection, the request and the written register. -/
theorem infer_records {archId : String} {capability : Capability} {regId : RegisterId}
    (inside : ∀ kind ∈ ["infer.projected", "infer", "register.written"],
      ∀ payload, admitted kind payload)
    : Records admitted (infer ctx archId capability regId) := by
  have fitted {adapter : ArchAdapter} {budget : UInt32} {prompt : List Char}
      : Records admitted (fit ctx archId adapter budget regId prompt) := by
    unfold fit
    dsimp only
    split
    · split
      · exact .fail _
      · exact (Records.log (inside _ (by simp) _)).bind fun _ => .pure _
    · exact .pure _
  unfold infer
  refine (Records.reads kernel_emits).bind fun adapter => ?_
  cases adapter with
  | none => exact .fail _
  | some adapter =>
      refine (Records.reads readRegister_emits).bind fun reg => ?_
      refine (Records.lift _).bind fun _ => ?_
      refine (Records.reads kernel_emits).bind fun budget => ?_
      refine fitted.bind fun fitted => ?_
      refine (Records.quiet complete_emits (by decide)).bind fun output => ?_
      refine (Records.log (inside _ (by simp) _)).bind fun _ => ?_
      refine (Records.perform (.pushInferLog _ _) nofun fun _ => trivial).bind fun _ => ?_
      refine (Records.quiet bumpStats_emits (by decide)).bind fun _ => ?_
      exact (writeRegister_records fun _ => inside _ (by simp) _).bind fun _ => .pure _

/-- A lease records that it was granted, and nothing where it is refused. -/
theorem lease_records {resource : String} {ttlMs : UInt64}
    (granted : ∀ payload, admitted "lease.granted" payload)
    : Records admitted (lease ctx resource ttlMs) := by
  unfold lease
  refine (Records.reads load_emits).bind fun rows => ?_
  refine (Records.reads kernel_emits).bind fun node => ?_
  split
  · exact .fail _
  · refine (Records.perform (.setLocks _ _) nofun fun _ => trivial).bind fun _ => ?_
    refine (Records.save (.putLease _) nofun fun _ => trivial).bind fun _ => ?_
    refine (Records.quiet deleteLeases_emits (by decide)).bind fun _ => ?_
    refine (Records.save (.setFence _ _) nofun fun _ => trivial).bind fun _ => ?_
    exact (Records.log (granted _)).bind fun _ => .pure _

/-- A STOP records its own id. -/
theorem stop_records {scope : String} (stopped : ∀ id, admitted "stop" (.str id))
    : Records admitted (stop ctx scope) := by
  unfold stop
  refine (Records.lift _).bind fun _ => ?_
  refine (Records.quiet nextId_emits (by decide)).bind fun id => ?_
  refine (Records.save (.putStop _) nofun fun _ => trivial).bind fun _ => ?_
  refine (Records.reads kernel_emits).bind fun stops => ?_
  split
  · exact .fail _
  · refine (Records.perform (.setStops _) nofun fun _ => trivial).bind fun _ => ?_
    exact (Records.log (stopped _)).bind fun _ => .pure _

/-- A RESUME records the id of the STOP that it lifts. -/
theorem resume_records {stopId : String} (resumed : admitted "resume" (.str stopId))
    : Records admitted (resume ctx stopId) := by
  unfold resume
  refine (Records.lift _).bind fun _ => ?_
  refine (Records.reads kernel_emits).bind fun stops => ?_
  split
  · exact .fail _
  · refine (Records.quiet nextId_emits (by decide)).bind fun id => ?_
    refine (Records.log resumed).bind fun _ => ?_
    refine (Records.save (.putResume _) nofun fun _ => trivial).bind fun _ => ?_
    refine (Records.reads kernel_emits).bind fun stops => ?_
    split
    · exact .fail _
    · exact .perform (.setStops _) nofun fun _ => trivial

/-- An approval is recorded whole. -/
theorem approve_records {approval : Approval}
    (approved : admitted "approval.recorded" approval.toJson)
    : Records admitted (approve ctx approval) := by
  unfold approve
  refine (Records.reads kernel_emits).bind fun devices => ?_
  refine (Records.lift _).bind fun _ => ?_
  exact (Records.log approved).bind fun _ => .save (.putApproval _ _) nofun fun _ => trivial

theorem runAutomation_records {business module : String}
    (ran : admitted "automation.ran" (.arr [.str business, .str module]))
    : Records admitted (runAutomation ctx business module) := by
  unfold runAutomation
  split
  · exact .pure _
  · refine (Records.reads load_emits).bind fun lease => ?_
    refine (Records.reads kernel_emits).bind fun stops => ?_
    exact (Records.lift _).bind fun _ => .log ran

/-- A promotion records the content hash of the module. -/
theorem promote_records {module : ModuleManifest} {verdicts : List GateVerdict}
    (promoted : admitted "module.promoted" (.str module.provenance.contentHash))
    : Records admitted (promote ctx module verdicts) := by
  unfold promote
  refine (Records.lift _).bind fun _ => ?_
  dsimp only
  split
  · exact .fail _
  · refine (Records.reads approvalsFor_emits).bind fun approvals => ?_
    split
    · exact .fail _
    · exact (Records.log promoted).bind fun _ => .save (.putHot _ _) nofun fun _ => trivial

/-- An export records the module's hash and the scope it goes to. -/
theorem exportModule_records {moduleHash : String} {toScope : Scope} {verdicts : List GateVerdict}
    (exported : admitted "module.exported" (.arr [.str moduleHash, .str toScope.name]))
    : Records admitted (exportModule ctx moduleHash toScope verdicts) := by
  unfold exportModule
  split
  · exact .fail _
  · exact .log exported

theorem mount_records {adapter : ArchAdapter} {nowMs : UInt64}
    (recorded : ∀ payload, admitted "arch.mounted" payload)
    : Records admitted (mount adapter nowMs) := by
  unfold mount
  split
  · exact .fail _
  · refine (Records.reads kernel_emits).bind fun mounted => ?_
    split
    · split
      · exact .fail _
      · refine (Records.perform (.setBudget _ _) nofun fun _ => trivial).bind fun _ => ?_
        exact (Records.perform (.mountAdapter _ _) nofun fun _ => trivial).bind fun _ => .pure _
    · refine (Records.save (.putArch _ _) nofun fun _ => trivial).bind fun _ => ?_
      refine (Records.perform (.setBudget _ _) nofun fun _ => trivial).bind fun _ => ?_
      refine (Records.perform (.mountAdapter _ _) nofun fun _ => trivial).bind fun _ => ?_
      exact (Records.log (recorded _)).bind fun _ => .pure _

theorem unmount_records {archId : String} {nowMs : UInt64}
    (unmounted : admitted "arch.unmounted" (.str archId))
    : Records admitted (unmount archId nowMs) := by
  unfold unmount
  refine (Records.perform (.unmountAdapter _) nofun fun _ => trivial).bind fun _ => ?_
  exact (Records.save (.deleteArch _) nofun fun _ => trivial).bind fun _ => .log unmounted

theorem boot_records {nowMs : UInt64} (booted : ∀ payload, admitted "boot" payload)
    : Records admitted (boot nowMs) := by
  have policies : Records admitted loadPoliciesVersion := by
    unfold loadPoliciesVersion
    refine (Records.reads load_emits).bind fun version => ?_
    split
    · exact .pure _
    · exact (Records.save (.setPoliciesVersion _) nofun fun _ => trivial).bind fun _ => .pure _
  unfold boot
  refine (Records.reads kernel_emits).bind fun node => ?_
  refine policies.bind fun version => ?_
  exact (Records.log (booted _)).bind fun _ => .pure _

/-- An enrolment records the id of the device. -/
theorem enrollDevicePersisted_records {deviceId : String} {key : VerifyingKey} {nowMs : UInt64}
    (enrolled : admitted "device.enrolled" (.str deviceId))
    : Records admitted (enrollDevicePersisted deviceId key nowMs) := by
  unfold enrollDevicePersisted
  refine (Records.save (.putDevice _ _) nofun fun _ => trivial).bind fun _ => ?_
  exact (Records.perform (.registerDevice _ _) nofun fun _ => trivial).bind fun _ => .log enrolled

theorem enrollNodeKey_records {key : VerifyingKey} {nowMs : UInt64}
    (enrolled : ∀ payload, admitted "device.enrolled" payload)
    : Records admitted (enrollNodeKey key nowMs) := by
  unfold enrollNodeKey
  refine (Records.reads kernel_emits).bind fun node => ?_
  refine (Records.reads load_emits).bind fun row => ?_
  split
  · split
    · exact .pure _
    · exact .fail _
  · exact enrollDevicePersisted_records (enrolled _)

-----------------------------------------------------------------------------------------
-- The scheduler
-----------------------------------------------------------------------------------------

theorem createTask_records {goal artefactType : String} {label : Label} {steps : List StepKind}
    (submitted : ∀ payload, admitted "task.submitted" payload)
    : Records admitted (createTask ctx goal artefactType label steps) := by
  unfold createTask
  refine (submitTask_records submitted).bind fun register => ?_
  refine (Records.reads readRegister_emits).bind fun reg => ?_
  exact (Records.quiet saveTask_emits (by decide)).bind fun _ => .pure _

/-- A step records what an inference does, or that an artefact was released. -/
theorem runStep_records {taskId artefactType : String} {kind : StepKind} {register : RegisterId}
    (inside : ∀ kind ∈ ["infer.projected", "infer", "register.written", "artefact.released"],
      ∀ payload, admitted kind payload)
    : Records admitted (runStep ctx taskId kind register artefactType) := by
  have inferred {archId : String} {capability : Capability}
      : Records admitted (infer ctx archId capability register) :=
    infer_records fun kind member => inside kind (List.mem_append_left ["artefact.released"] member)
  cases kind with
  | plan archId | judge archId => exact inferred.bind fun _ => .pure _
  | draft archId =>
      refine Records.bind ?_ fun _ => .pure _
      unfold draft
      refine inferred.bind fun outcome => ?_
      refine (Records.reads readRegister_emits).bind fun reg => ?_
      split
      · exact .fail _
      · exact (attachArtefact_records fun _ => inside _ (by simp) _).bind fun _ => .pure _
  | harness name => exact .pure _
  | approve =>
      refine (Records.reads approvalSubject_emits).bind fun subject => ?_
      exact (Records.reads approvalsFor_emits).bind fun _ => .pure _
  | release toDir =>
      refine Records.bind ?_ fun _ => .pure _
      unfold release
      refine (Records.reads readRegister_emits).bind fun reg => ?_
      refine (Records.reads kernel_emits).bind fun node => ?_
      refine (Records.lift _).bind fun dest => ?_
      refine (Records.lift _).bind fun files => ?_
      refine (Records.log (inside _ (by simp) _)).bind fun _ => ?_
      refine (Records.quiet privateDir_emits (by decide)).bind fun _ => ?_
      refine (Records.quiet privateDir_emits (by decide)).bind fun _ => ?_
      exact .quiet writeFiles_emits (by decide)

/-- One step of a task records what the step does and how the step ended. -/
theorem runTaskStep_records {taskId : String}
    (inside : ∀ kind ∈
        ["infer.projected", "infer", "register.written", "artefact.released", "task.step"],
      ∀ payload, admitted kind payload)
    : Records admitted (runTaskStep ctx taskId) := by
  have ran {artefactType : String} {kind : StepKind} {register : RegisterId}
      : Records admitted (runStep ctx taskId kind register artefactType) :=
    runStep_records fun kind member => inside kind (List.mem_append_left ["task.step"] member)
  have saved {row : Task} : Records admitted (saveTask row) := .quiet saveTask_emits (by decide)
  have recorded {i : Nat} {row : Task} : Records admitted (recordStep ctx taskId i row) :=
    (Records.log (inside _ (by simp) _)).bind fun _ => saved.bind fun _ => .pure _
  have settled {i : Nat} {row : Task} {wasWaiting : Bool}
      {result : Except KernelError (StepStatus × UInt32)}
      : Records admitted (settleStep ctx taskId i wasWaiting row result) := by
    unfold settleStep
    split
    · split
      · exact .pure _
      · exact recorded
    · exact recorded
    · exact saved.bind fun _ => .fail _
  have advanced {i : Nat} {row : Task} {step : Step}
      : Records admitted (advance ctx taskId row i step) := by
    unfold advance
    cases decide (step.status = .waitingHuman) with
    | true => exact ran.attempt.bind fun _ => settled
    | false => exact saved.bind fun _ => ran.attempt.bind fun _ => settled
  unfold runTaskStep
  refine (Records.reads task_emits).bind fun row => ?_
  cases row with
  | none => exact .fail _
  | some row =>
      dsimp only
      split
      · exact .pure _
      · refine (Records.reads kernel_emits).bind fun stops => ?_
        split
        · exact saved.bind fun _ => .fail _
        · split
          · exact saved.bind fun _ => .pure _
          · exact advanced

end Calls

/-- A call puts its own kinds of events on the record, by cases on the call. -/
theorem invoke_records (call : Call) : Records call.records (invoke call) := by
  cases call with
  | submitTask ctx goal label => exact (submitTask_records fun _ => rfl).map _
  | writeRegister ctx reg => exact (writeRegister_records fun _ => rfl).map _
  | infer ctx archId capability regId =>
      exact (infer_records fun _ member _ => member).map _
  | lease ctx resource ttlMs => exact (lease_records fun _ => rfl).map _
  | approve ctx approval => exact (approve_records ⟨rfl, rfl⟩).map _
  | stop ctx scope => exact (stop_records fun id => ⟨rfl, id, rfl⟩).map _
  | resume ctx stopId => exact (resume_records ⟨rfl, rfl⟩).map _
  | runAutomation ctx business module => exact (runAutomation_records ⟨rfl, rfl⟩).map _
  | promote ctx module verdicts => exact (promote_records ⟨rfl, rfl⟩).map _
  | exportModule ctx moduleHash toScope verdicts =>
      exact (exportModule_records ⟨rfl, rfl⟩).map _
  | attachArtefact ctx regId kind bytes => exact (attachArtefact_records fun _ => rfl).map _
  | createTask ctx goal artefactType label steps =>
      exact (createTask_records fun _ => rfl).map _
  | runTaskStep ctx taskId => exact (runTaskStep_records fun _ member _ => member).map _
  | mount adapter nowMs => exact (mount_records fun _ => rfl).map _
  | unmount archId nowMs => exact (unmount_records ⟨rfl, rfl⟩).map _
  | boot nowMs => exact (boot_records fun _ => rfl).map _
  | enrollDevicePersisted deviceId key nowMs =>
      exact (enrollDevicePersisted_records ⟨rfl, rfl⟩).map _
  | enrollNodeKey key nowMs => exact (enrollNodeKey_records fun _ => rfl).map _
  | _ => exact .quiet (invoke_emits _) (by simp [Call.footprint])

-----------------------------------------------------------------------------------------
-- Runs
-----------------------------------------------------------------------------------------

end VerticalAI.Kernel
