import VerticalAI.Kernel.Footprint

/-! When calls log: everything a call puts on the record is stamped at the wall time of the call. -/

namespace VerticalAI.Kernel
open VerticalAI.Foundation VerticalAI.Contracts VerticalAI.Store

variable [Libraries]

/-- What calls are made of: parts that leave the record alone, and logging at one wall time. -/
inductive LogPart (wallMs : UInt64) : ∀ α : Type, Syscall α → Prop where
  | quiet {α : Type} {program : Syscall α} {areas : List Area} (emits : program.Emits (Within areas))
    (elsewhere : Area.record ∉ areas)
    : LogPart wallMs α program
  | log (kind : String) (payload : Json) : LogPart wallMs Unit (log kind wallMs payload)

/-- All logging in the program is done at this wall time. -/
def LogsAt (wallMs : UInt64) {α : Type} (program : Syscall α) : Prop :=
  Program.Composed (LogPart wallMs) α program

namespace LogsAt

variable {α β : Type} {wallMs : UInt64}

/-- A program that leaves the record alone logs at every time. -/
theorem quiet {program : Syscall α} {areas : List Area} (emits : program.Emits (Within areas))
    (elsewhere : Area.record ∉ areas)
    : LogsAt wallMs program :=
  .single (.quiet emits elsewhere)

/-- A part that writes nothing. -/
theorem reads {program : Syscall α} (emits : program.Emits (Within [])) : LogsAt wallMs program :=
  .quiet emits List.not_mem_nil

theorem pure (value : α) : LogsAt wallMs (Pure.pure value) := .reads Program.emits_pure

theorem fail (error : KernelError) : LogsAt wallMs (Program.fail error : Syscall α) :=
  .reads Program.emits_fail

theorem lift (result : Except KernelError α) : LogsAt wallMs (Program.lift result : Syscall α) :=
  .reads Program.emits_lift

/-- One entry is logged at the time that it is given. -/
theorem log (kind : String) (payload : Json) : LogsAt wallMs (Kernel.log kind wallMs payload) :=
  .single (.log kind payload)

theorem save (update : Update) (elsewhere : update.area ≠ .record)
    (genuine : ∀ world, update.Genuine world)
    : LogsAt wallMs (Kernel.save update) :=
  .quiet (save_area update.area rfl (List.mem_singleton_self _) genuine)
    fun member => elsewhere (List.mem_singleton.mp member).symm

theorem perform (update : Update) (elsewhere : update.area ≠ .record)
    (genuine : ∀ world, update.Genuine world)
    : LogsAt wallMs (Program.perform update : Syscall Unit) :=
  .quiet (perform_area update.area rfl (List.mem_singleton_self _) genuine)
    fun member => elsewhere (List.mem_singleton.mp member).symm

/-- Two programs that log at one time do so one after the other. -/
theorem bind {first : Syscall α} {next : α → Syscall β} (head : LogsAt wallMs first)
    (tail : ∀ value, LogsAt wallMs (next value))
    : LogsAt wallMs (first >>= next) :=
  Program.Composed.bind head tail

/-- Catching an error changes no entry that was logged before it. -/
theorem attempt {program : Syscall α} (inner : LogsAt wallMs program)
    : LogsAt wallMs (Program.attempt program : Syscall (Except KernelError α)) :=
  Program.Composed.attempt inner

theorem map {program : Syscall α} (logs : LogsAt wallMs program) (change : α → β)
    : LogsAt wallMs (change <$> program) :=
  Program.Composed.map logs (fun _ => .quiet Program.emits_pure List.not_mem_nil) change

end LogsAt

section Calls

variable {ctx : Ctx}

/-- Submitting a task logs at the time in its context. -/
theorem submitTask_logs {goal : String} {label : Label}
    : LogsAt ctx.nowMs (submitTask ctx goal label) := by
  unfold submitTask
  refine (LogsAt.quiet nextId_emits (by decide)).bind fun reg => ?_
  refine (LogsAt.quiet nextId_emits (by decide)).bind fun taskId => ?_
  refine (LogsAt.save (.putRegister _) nofun fun _ => trivial).bind fun _ => ?_
  exact (LogsAt.log _ _).bind fun _ => .pure _

theorem writeRegister_logs {reg : Register} : LogsAt ctx.nowMs (writeRegister ctx reg) :=
  (LogsAt.save (.putRegister _) nofun fun _ => trivial).bind fun _ => .log _ _

/-- A projection is logged at the time of the inference it is for. -/
theorem fit_logs {archId : String} {adapter : ArchAdapter} {budget : UInt32} {regId : RegisterId}
    {prompt : List Char}
    : LogsAt ctx.nowMs (fit ctx archId adapter budget regId prompt) := by
  unfold fit
  dsimp only
  split
  · split
    · exact .fail _
    · exact (LogsAt.log _ _).bind fun _ => .pure _
  · exact .pure _

/-- An inference logs its projection, the request and the written register at one time. -/
theorem infer_logs {archId : String} {capability : Capability} {regId : RegisterId}
    : LogsAt ctx.nowMs (infer ctx archId capability regId) := by
  unfold infer
  refine (LogsAt.reads kernel_emits).bind fun adapter => ?_
  cases adapter with
  | none => exact .fail _
  | some adapter =>
      refine (LogsAt.reads readRegister_emits).bind fun reg => ?_
      refine (LogsAt.lift _).bind fun _ => ?_
      refine (LogsAt.reads kernel_emits).bind fun budget => ?_
      refine fit_logs.bind fun fitted => ?_
      refine (LogsAt.quiet complete_emits (by decide)).bind fun output => ?_
      refine (LogsAt.log _ _).bind fun _ => ?_
      refine (LogsAt.perform (.pushInferLog _ _) nofun fun _ => trivial).bind fun _ => ?_
      refine (LogsAt.quiet bumpStats_emits (by decide)).bind fun _ => ?_
      exact writeRegister_logs.bind fun _ => .pure _

/-- A lease logs at the time in its context, whether it is granted or refused. -/
theorem lease_logs {resource : String} {ttlMs : UInt64}
    : LogsAt ctx.nowMs (lease ctx resource ttlMs) := by
  unfold lease
  refine (LogsAt.reads load_emits).bind fun rows => ?_
  refine (LogsAt.reads kernel_emits).bind fun node => ?_
  split
  · exact .fail _
  · refine (LogsAt.perform (.setLocks _ _) nofun fun _ => trivial).bind fun _ => ?_
    refine (LogsAt.save (.putLease _) nofun fun _ => trivial).bind fun _ => ?_
    refine (LogsAt.quiet deleteLeases_emits (by decide)).bind fun _ => ?_
    refine (LogsAt.save (.setFence _ _) nofun fun _ => trivial).bind fun _ => ?_
    exact (LogsAt.log _ _).bind fun _ => .pure _

theorem approve_logs {approval : Approval} : LogsAt ctx.nowMs (approve ctx approval) := by
  unfold approve
  refine (LogsAt.reads kernel_emits).bind fun devices => ?_
  refine (LogsAt.lift _).bind fun _ => ?_
  exact (LogsAt.log _ _).bind fun _ => .save (.putApproval _ _) nofun fun _ => trivial

/-- A STOP is logged at the time in its context. -/
theorem stop_logs {scope : String} : LogsAt ctx.nowMs (stop ctx scope) := by
  unfold stop
  refine (LogsAt.lift _).bind fun _ => ?_
  refine (LogsAt.quiet nextId_emits (by decide)).bind fun id => ?_
  refine (LogsAt.save (.putStop _) nofun fun _ => trivial).bind fun _ => ?_
  refine (LogsAt.reads kernel_emits).bind fun stops => ?_
  split
  · exact .fail _
  · refine (LogsAt.perform (.setStops _) nofun fun _ => trivial).bind fun _ => ?_
    exact (LogsAt.log _ _).bind fun _ => .pure _

/-- A RESUME is logged at the time in its context. -/
theorem resume_logs {stopId : String} : LogsAt ctx.nowMs (resume ctx stopId) := by
  unfold resume
  refine (LogsAt.lift _).bind fun _ => ?_
  refine (LogsAt.reads kernel_emits).bind fun stops => ?_
  split
  · exact .fail _
  · refine (LogsAt.quiet nextId_emits (by decide)).bind fun id => ?_
    refine (LogsAt.log _ _).bind fun _ => ?_
    refine (LogsAt.save (.putResume _) nofun fun _ => trivial).bind fun _ => ?_
    refine (LogsAt.reads kernel_emits).bind fun stops => ?_
    split
    · exact .fail _
    · exact .perform (.setStops _) nofun fun _ => trivial

theorem runAutomation_logs {business module : String}
    : LogsAt ctx.nowMs (runAutomation ctx business module) := by
  unfold runAutomation
  split
  · exact .pure _
  · refine (LogsAt.reads load_emits).bind fun lease => ?_
    refine (LogsAt.reads kernel_emits).bind fun stops => ?_
    exact (LogsAt.lift _).bind fun _ => .log _ _

/-- A promotion is logged at the time in its context, after every gate has passed. -/
theorem promote_logs {module : ModuleManifest} {verdicts : List GateVerdict}
    : LogsAt ctx.nowMs (promote ctx module verdicts) := by
  unfold promote
  refine (LogsAt.lift _).bind fun _ => ?_
  dsimp only
  split
  · exact .fail _
  · refine (LogsAt.reads approvalsFor_emits).bind fun approvals => ?_
    split
    · exact .fail _
    · exact (LogsAt.log _ _).bind fun _ => .save (.putHot _ _) nofun fun _ => trivial

theorem exportModule_logs {moduleHash : String} {toScope : Scope} {verdicts : List GateVerdict}
    : LogsAt ctx.nowMs (exportModule ctx moduleHash toScope verdicts) := by
  unfold exportModule
  split
  · exact .fail _
  · exact .log _ _

theorem attachArtefact_logs {regId : RegisterId} {kind : String} {bytes : List UInt8}
    : LogsAt ctx.nowMs (attachArtefact ctx regId kind bytes) := by
  unfold attachArtefact
  refine (LogsAt.lift _).bind fun _ => ?_
  refine (LogsAt.reads readRegister_emits).bind fun reg => ?_
  refine (LogsAt.quiet putBlob_emits (by decide)).bind fun envelope => ?_
  exact writeRegister_logs.bind fun _ => .pure _

/-- A mount logs at the time that its caller gives it. -/
theorem mount_logs {adapter : ArchAdapter} {nowMs : UInt64}
    : LogsAt nowMs (mount adapter nowMs) := by
  unfold mount
  split
  · exact .fail _
  · refine (LogsAt.reads kernel_emits).bind fun mounted => ?_
    split
    · split
      · exact .fail _
      · refine (LogsAt.perform (.setBudget _ _) nofun fun _ => trivial).bind fun _ => ?_
        exact (LogsAt.perform (.mountAdapter _ _) nofun fun _ => trivial).bind fun _ => .pure _
    · refine (LogsAt.save (.putArch _ _) nofun fun _ => trivial).bind fun _ => ?_
      refine (LogsAt.perform (.setBudget _ _) nofun fun _ => trivial).bind fun _ => ?_
      refine (LogsAt.perform (.mountAdapter _ _) nofun fun _ => trivial).bind fun _ => ?_
      exact (LogsAt.log _ _).bind fun _ => .pure _

theorem unmount_logs {archId : String} {nowMs : UInt64} : LogsAt nowMs (unmount archId nowMs) := by
  unfold unmount
  refine (LogsAt.perform (.unmountAdapter _) nofun fun _ => trivial).bind fun _ => ?_
  exact (LogsAt.save (.deleteArch _) nofun fun _ => trivial).bind fun _ => .log _ _

/-- A boot logs at the time that its caller gives it. -/
theorem boot_logs {nowMs : UInt64} : LogsAt nowMs (boot nowMs) := by
  have policies : LogsAt nowMs loadPoliciesVersion := by
    unfold loadPoliciesVersion
    refine (LogsAt.reads load_emits).bind fun version => ?_
    split
    · exact .pure _
    · exact (LogsAt.save (.setPoliciesVersion _) nofun fun _ => trivial).bind fun _ => .pure _
  unfold boot
  refine (LogsAt.reads kernel_emits).bind fun node => ?_
  refine policies.bind fun version => ?_
  exact (LogsAt.log _ _).bind fun _ => .pure _

theorem enrollDevicePersisted_logs {deviceId : String} {key : VerifyingKey} {nowMs : UInt64}
    : LogsAt nowMs (enrollDevicePersisted deviceId key nowMs) := by
  unfold enrollDevicePersisted
  refine (LogsAt.save (.putDevice _ _) nofun fun _ => trivial).bind fun _ => ?_
  exact (LogsAt.perform (.registerDevice _ _) nofun fun _ => trivial).bind fun _ => .log _ _

theorem enrollNodeKey_logs {key : VerifyingKey} {nowMs : UInt64}
    : LogsAt nowMs (enrollNodeKey key nowMs) := by
  unfold enrollNodeKey
  refine (LogsAt.reads kernel_emits).bind fun node => ?_
  refine (LogsAt.reads load_emits).bind fun row => ?_
  split
  · split
    · exact .pure _
    · exact .fail _
  · exact enrollDevicePersisted_logs

theorem createTask_logs {goal artefactType : String} {label : Label} {steps : List StepKind}
    : LogsAt ctx.nowMs (createTask ctx goal artefactType label steps) := by
  unfold createTask
  refine submitTask_logs.bind fun register => ?_
  refine (LogsAt.reads readRegister_emits).bind fun reg => ?_
  exact (LogsAt.quiet saveTask_emits (by decide)).bind fun _ => .pure _

theorem draft_logs {archId artefactType : String} {register : RegisterId}
    : LogsAt ctx.nowMs (draft ctx archId register artefactType) := by
  unfold draft
  refine infer_logs.bind fun outcome => ?_
  refine (LogsAt.reads readRegister_emits).bind fun reg => ?_
  split
  · exact .fail _
  · exact attachArtefact_logs.bind fun _ => .pure _

/-- A release logs at the time in its context, once for the whole set of files. -/
theorem release_logs {taskId toDir : String} {register : RegisterId}
    : LogsAt ctx.nowMs (release ctx taskId register toDir) := by
  unfold release
  refine (LogsAt.reads readRegister_emits).bind fun reg => ?_
  refine (LogsAt.reads kernel_emits).bind fun node => ?_
  refine (LogsAt.lift _).bind fun dest => ?_
  refine (LogsAt.lift _).bind fun files => ?_
  refine (LogsAt.log _ _).bind fun _ => ?_
  refine (LogsAt.quiet privateDir_emits (by decide)).bind fun _ => ?_
  refine (LogsAt.quiet privateDir_emits (by decide)).bind fun _ => ?_
  exact .quiet writeFiles_emits (by decide)

/-- A step of any kind logs at the time in its context. -/
theorem runStep_logs {taskId artefactType : String} {kind : StepKind} {register : RegisterId}
    : LogsAt ctx.nowMs (runStep ctx taskId kind register artefactType) := by
  cases kind with
  | plan archId | judge archId => exact infer_logs.bind fun _ => .pure _
  | draft archId => exact draft_logs.bind fun _ => .pure _
  | harness name => exact .pure _
  | approve =>
      refine (LogsAt.reads approvalSubject_emits).bind fun subject => ?_
      exact (LogsAt.reads approvalsFor_emits).bind fun _ => .pure _
  | release toDir => exact release_logs.bind fun _ => .pure _

/-- One step of a task logs at the time in its context, on every path through it. -/
theorem runTaskStep_logs {taskId : String} : LogsAt ctx.nowMs (runTaskStep ctx taskId) := by
  have saved {row : Task} : LogsAt ctx.nowMs (saveTask row) := .quiet saveTask_emits (by decide)
  have recorded {i : Nat} {row : Task} : LogsAt ctx.nowMs (recordStep ctx taskId i row) :=
    (LogsAt.log _ _).bind fun _ => saved.bind fun _ => .pure _
  have settled {i : Nat} {row : Task} {wasWaiting : Bool}
      {result : Except KernelError (StepStatus × UInt32)}
      : LogsAt ctx.nowMs (settleStep ctx taskId i wasWaiting row result) := by
    unfold settleStep
    split
    · split
      · exact .pure _
      · exact recorded
    · exact recorded
    · exact saved.bind fun _ => .fail _
  have advanced {i : Nat} {row : Task} {step : Step}
      : LogsAt ctx.nowMs (advance ctx taskId row i step) := by
    unfold advance
    cases decide (step.status = .waitingHuman) with
    | true => exact runStep_logs.attempt.bind fun _ => settled
    | false => exact saved.bind fun _ => runStep_logs.attempt.bind fun _ => settled
  unfold runTaskStep
  refine (LogsAt.reads task_emits).bind fun row => ?_
  cases row with
  | none => exact .fail _
  | some row =>
      dsimp only
      split
      · exact .pure _
      · refine (LogsAt.reads kernel_emits).bind fun stops => ?_
        split
        · exact saved.bind fun _ => .fail _
        · split
          · exact saved.bind fun _ => .pure _
          · exact advanced

end Calls

/-- The wall time a call is made at. The last two read no wall clock, and log nothing. -/
def Call.wallMs : Call → UInt64
  | .submitTask ctx _ _ | .readRegister ctx _ | .writeRegister ctx _ | .infer ctx _ _ _ | .lease ctx _ _
  | .approve ctx _ | .stop ctx _ | .resume ctx _ | .runAutomation ctx _ _ | .promote ctx _ _
  | .exportModule ctx _ _ _ | .attachArtefact ctx _ _ _ | .readArtefact ctx _ | .createTask ctx _ _ _ _
  | .runTaskStep ctx _ | .approvalSubject ctx _ | .task ctx _ | .tasks ctx | .top ctx | .resolve ctx _ =>
      ctx.nowMs
  | .mount _ nowMs | .unmount _ nowMs | .boot nowMs | .enrollDevicePersisted _ _ nowMs
  | .enrollNodeKey _ nowMs =>
      nowMs
  | .setContextBudget _ _ | .renewLivenessPersisted _ _ _ => 0

/-- A call logs at the wall time it is made at, by cases on the call. -/
theorem invoke_logs (call : Call) : LogsAt call.wallMs (invoke call) := by
  cases call with
  | submitTask ctx goal label => exact submitTask_logs.map _
  | writeRegister ctx reg => exact writeRegister_logs.map _
  | infer ctx archId capability regId => exact infer_logs.map _
  | lease ctx resource ttlMs => exact lease_logs.map _
  | approve ctx approval => exact approve_logs.map _
  | stop ctx scope => exact stop_logs.map _
  | resume ctx stopId => exact resume_logs.map _
  | runAutomation ctx business module => exact runAutomation_logs.map _
  | promote ctx module verdicts => exact promote_logs.map _
  | exportModule ctx moduleHash toScope verdicts => exact exportModule_logs.map _
  | attachArtefact ctx regId kind bytes => exact attachArtefact_logs.map _
  | createTask ctx goal artefactType label steps => exact createTask_logs.map _
  | runTaskStep ctx taskId => exact runTaskStep_logs.map _
  | mount adapter nowMs => exact mount_logs.map _
  | unmount archId nowMs => exact unmount_logs.map _
  | boot nowMs => exact boot_logs.map _
  | enrollDevicePersisted deviceId key nowMs => exact enrollDevicePersisted_logs.map _
  | enrollNodeKey key nowMs => exact enrollNodeKey_logs.map _
  | _ => exact .quiet (invoke_emits _) (by simp [Call.footprint])

end VerticalAI.Kernel
