import VerticalAI.Kernel.TaskSteps

/-! What every call writes where authority is at stake: approvals, RESUMEs, promoted modules,
tasks and released files.
-/

namespace VerticalAI.Kernel
open VerticalAI.Foundation VerticalAI.Contracts VerticalAI.Store

section Disk

variable [Libraries]

/-- Every task is filed under its id. -/
def TasksKeyed (disk : StateDir) : Prop :=
  ∀ (id : String) (row : Task), disk.tasks[id]? = some row → row.id = id

omit [Libraries] in
/-- An update keeps every task's row under the task's own id. -/
theorem TasksKeyed.apply {world : World} (keyed : TasksKeyed world.disk) (update : Update)
    : TasksKeyed (Updates.apply update world : World).disk := by
  cases update with
  | putTask written =>
      intro id row held
      rcases Table.getElem?_insert_inv held with ⟨rfl, rfl⟩ | earlier
      · rfl
      · exact keyed id row earlier
  | _ => exact keyed

omit [Libraries] in
theorem TasksKeyed.trail {allowed : World → Update → Prop} {first last : World}
    (trail : Trail allowed first last) (keyed : TasksKeyed first.disk)
    : TasksKeyed last.disk := by
  let Keyed (world : World) : Prop := TasksKeyed world.disk
  have kept : Keyed last :=
    trail.preserves (fun _ update holds _ => TasksKeyed.apply holds update) keyed
  exact kept

omit [Libraries] in
theorem tasksKeyed_empty : TasksKeyed {} := by
  intro id row held
  change (∅ : Table Task)[id]? = some row at held
  rw [Std.ExtTreeMap.getElem?_empty] at held
  cases held

/-- Every reachable state directory has each task under its own id. -/
theorem Reachable.tasksKeyed {machine : Machine} (reachable : Reachable machine)
    : TasksKeyed machine.world.disk :=
  reachable.disk_invariant tasksKeyed_empty
    (fun call world faults keyed => keyed.trail ((invoke_emits call).trail world faults))
    fun _ _ trail keyed => keyed.trail trail

end Disk

-----------------------------------------------------------------------------------------
-- Approvals
-----------------------------------------------------------------------------------------

variable [Libraries]

/-- The call returned, its check passed, and its approval was filed after its record. -/
structure Filed (ctx : Ctx) (approval : Approval) (world : World)
    (outcome : Outcome KernelError Unit) (after : World) : Prop where
  returned : outcome = .done ()
  checked : i1Approval ctx.principal approval world.kernel.devices ctx.nowMs = .ok ()
  table : after.disk.approvals = world.disk.approvals.insert (approvalKey approval) approval
  recorded : Logged after.disk "approval.recorded" approval.toJson

/-- An approval is filed, or the table stays as it is. -/
theorem approve_effect (ctx : Ctx) (approval : Approval) (world : World) (faults : List Fault)
    : (approve ctx approval world faults).2.1.disk.approvals = world.disk.approvals
      ∨ Filed ctx approval world (approve ctx approval world faults).1
          (approve ctx approval world faults).2.1 := by
  unfold approve
  rw [kernel, Program.observe_bind_run]
  cases checked : i1Approval ctx.principal approval world.kernel.devices ctx.nowMs with
  | error error => exact Or.inl rfl
  | ok _ =>
      rw [Program.lift_ok, pure_bind]
      have logging (faults : List Fault)
          : world.Same (log "approval.recorded" ctx.nowMs approval.toJson world faults).2.1
              .approvals :=
        same_of_trail (log_emits.trail world faults) .approvals (by decide)
      have kept := logging faults
      rcases ran : log "approval.recorded" ctx.nowMs approval.toJson world faults with
        ⟨_ | error | _, middle, left⟩
      all_goals rw [ran] at kept
      · rw [Program.bind_done ran]
        have recorded : Logged middle.disk "approval.recorded" approval.toJson :=
          log_done ran ▸ logged_logged _ _ _ _
        rcases save_cases (.putApproval (approvalKey approval) approval) middle left with
          ⟨rest, saved⟩ | ⟨reason, rest, saved⟩ | ⟨rest, saved⟩
        · rw [saved]
          refine Or.inr ⟨rfl, checked, ?_, recorded.apply _⟩
          exact congrArg (fun table => table.insert (approvalKey approval) approval) kept
        · rw [saved]
          exact Or.inl kept
        · rw [saved]
          exact Or.inl kept
      · rw [Program.bind_failed ran]
        exact Or.inl kept
      · rw [Program.bind_crashed ran]
        exact Or.inl kept

-----------------------------------------------------------------------------------------
-- The guard
-----------------------------------------------------------------------------------------

/-- The manifest lets the module be promoted without a human. -/
def autoApprovable (module : ModuleManifest) : Bool :=
  module.autonomyProfile.any (·.autoApproveAllowed)

/-- The module is one that a human has to approve. -/
def NeedsHuman (module : ModuleManifest) : Prop :=
  autoApprovable module = false ∨ "decision_about_person" ∈ module.tags

/-- A human approval on file names the module's content. -/
def PromotionApproved (disk : StateDir) (module : ModuleManifest) : Prop :=
  ∃ (key : String) (approval : Approval), disk.approvals[key]? = some approval
    ∧ approval.kind = .human ∧ approval.subjectHash = module.provenance.contentHash

/-- What has to be the case where a call makes an update that carries authority. -/
def Authorised (start : StateDir) (call : Call) (world : World) : Update → Prop
  | .putApproval _ approval => Logged world.disk "approval.recorded" approval.toJson
  | .putResume event => Logged world.disk "resume" (.str event.cites)
  | .putHot subject module =>
      (∃ ctx verdicts, call = .promote ctx module verdicts)
        ∧ subject = module.provenance.contentHash
        ∧ Logged world.disk "module.promoted" (.str subject)
        ∧ (NeedsHuman module → PromotionApproved start module)
  | .putTask row =>
      (∀ i, ¬row.DoneAt i)
        ∨ ∃ ctx old, call = .runTaskStep ctx old.id ∧ start.tasks[old.id]? = some old
            ∧ Progress start world.disk ctx old row
  | .writeExport path _ =>
      ∃ ctx old, call = .runTaskStep ctx old.id ∧ start.tasks[old.id]? = some old
        ∧ Released start world.disk old path
  | _ => True

section Calls

variable {start : StateDir} {call : Call} {ctx : Ctx}

/-- Elsewhere there is nothing to ask. -/
theorem authorised_of_within {areas : List Area} {world : World} {update : Update}
    (within : Within areas world update)
    (elsewhere : ∀ area ∈ areas,
      area ∉ [.approvals, .stops, .modules, .tasks, .exports])
    : Authorised start call world update := by
  have quiet := elsewhere update.area within.1
  cases update with
  | putApproval key approval => exact absurd (.head _) quiet
  | putResume event => exact absurd (.tail _ (.head _)) quiet
  | putHot subject module => exact absurd (.tail _ (.tail _ (.head _))) quiet
  | putTask row => exact absurd (.tail _ (.tail _ (.tail _ (.head _)))) quiet
  | writeExport path bytes =>
      exact absurd (.tail _ (.tail _ (.tail _ (.tail _ (.head _))))) quiet
  | _ => trivial

/-- What is logged is on the record for the update that follows. -/
theorem log_then {kind : String} {wallMs : UInt64} {payload : Json} {update : Update}
    (admitted : ∀ world : World, Logged world.disk kind payload
      → Authorised start call world update)
    : (log kind wallMs payload >>= fun _ => save update).Emits (Authorised start call) := by
  have logged : (log kind wallMs payload).Satisfies (fun _ => True) (Authorised start call)
      (fun _ world => Logged world.disk kind payload) (fun _ _ => True) :=
    (log_records (fun _ _ _ _ => trivial) fun _ _ within =>
      authorised_of_within within (by decide)).consequence
      (fun _ holds => holds) (fun _ _ admitted => admitted)
      (fun _ _ recorded => recorded.2) (fun _ _ _ => trivial)
  refine logged.bind fun _ => ?_
  exact Program.satisfies_persist admitted (fun _ _ => trivial) (fun _ _ _ => trivial)

/-- An approval is stored only once it is on the record. -/
theorem approve_guard {approval : Approval}
    : (approve ctx approval).Emits (Authorised start call) := by
  unfold approve
  refine kernel_emits.bind fun devices => ?_
  refine Program.emits_lift.bind fun _ => ?_
  exact log_then fun _ logged => logged

/-- A STOP makes no update that carries authority. -/
theorem stop_guard {scope : String} : (stop ctx scope).Emits (Authorised start call) := by
  have recorded {kind : String} {payload : Json}
      : (log kind ctx.nowMs payload).Emits (Authorised start call) :=
    log_emits.mono fun _ _ within => authorised_of_within within (by decide)
  have minted : (nextId "stop").Emits (Authorised start call) :=
    nextId_emits.mono fun _ _ within => authorised_of_within within (by decide)
  unfold stop
  refine Program.emits_lift.bind fun _ => ?_
  refine minted.bind fun id => ?_
  refine Program.Emits.bind (save_emits fun _ => trivial) fun _ => ?_
  refine kernel_emits.bind fun stops => ?_
  split
  · exact Program.emits_fail
  · refine Program.Emits.bind (Program.emits_perform fun _ => trivial) fun _ => ?_
    exact recorded.bind fun _ => Program.emits_pure

/-- A RESUME is stored only once the STOP it lifts is on the record as lifted. -/
theorem resume_guard {stopId : String} : (resume ctx stopId).Emits (Authorised start call) := by
  have minted : (nextId "resume").Emits (Authorised start call) :=
    nextId_emits.mono fun _ _ within => authorised_of_within within (by decide)
  unfold resume
  refine Program.emits_lift.bind fun _ => ?_
  refine kernel_emits.bind fun stops => ?_
  split
  · exact Program.emits_fail
  · refine minted.bind fun id => ?_
    dsimp only
    rw [← bind_assoc]
    refine Program.Emits.bind (log_then fun _ logged => logged) fun _ => ?_
    refine kernel_emits.bind fun stops => ?_
    split
    · exact Program.emits_fail
    · exact Program.emits_perform fun _ => trivial

omit [Libraries] in
/-- A module about a person that is valid is not approved automatically. -/
theorem not_autoApprovable {module : ModuleManifest} (valid : module.validate = .ok ())
    (tagged : "decision_about_person" ∈ module.tags)
    : autoApprovable module = false := by
  by_contra automatic
  rw [Bool.not_eq_false] at automatic
  have refused : ("decision_about_person" ∈ module.tags
      ∧ module.autonomyProfile.any (·.autoApproveAllowed) = true) := ⟨tagged, automatic⟩
  unfold ModuleManifest.validate at valid
  simp only [refused] at valid
  split at valid
  · cases files : ModuleManifest.validateFiles module.files with
    | error error =>
        rw [files] at valid
        cases valid
    | ok _ =>
        rw [files] at valid
        cases valid
  · cases valid

omit [Libraries] in
theorem needsHuman_eq (module : ModuleManifest)
    : (module.autonomyProfile.map fun profile => !profile.autoApproveAllowed).getD true
      = !autoApprovable module := by
  unfold autoApprovable
  cases module.autonomyProfile <;> rfl

/-- A promotion that needs a human found an approval on file. -/
theorem promote_guard {module : ModuleManifest} {verdicts : List GateVerdict}
    : (promote ctx module verdicts).Satisfies (fun world => world.disk = start)
        (Authorised start (.promote ctx module verdicts))
        (fun _ _ => NeedsHuman module → PromotionApproved start module) (fun _ _ => True) := by
  unfold promote
  cases valid : module.validate with
  | error error => exact Program.satisfies_fail fun _ _ => trivial
  | ok _ =>
      have lifted : (Program.lift (Except.mapError KernelError.module (.ok ())) : Syscall Unit)
          = Pure.pure () := rfl
      rw [lifted, pure_bind]
      dsimp only
      split
      · exact Program.satisfies_fail fun _ _ => trivial
      · refine Program.Emits.reads_bind approvalsFor_emits
          (fun _ _ _ _ _ ran => approvalsFor_done ran) fun approvals => ?_
        split
        · exact Program.satisfies_fail fun _ _ => trivial
        · next allowed =>
            have approved : ∀ world : World, world.disk = start
                ∧ (∀ approval ∈ approvals,
                    approval.subjectHash = module.provenance.contentHash
                      ∧ ∃ key : String, world.disk.approvals[key]? = some approval)
                → NeedsHuman module → PromotionApproved start module := by
              rintro world ⟨rfl, found⟩ needed
              have manual : autoApprovable module = false :=
                needed.elim id (not_autoApprovable valid)
              rw [needsHuman_eq, manual, Bool.not_false, Bool.true_and, Bool.not_eq_true',
                Bool.not_eq_false] at allowed
              obtain ⟨approval, member, human⟩ := List.any_eq_true.mp allowed
              obtain ⟨names, key, filed⟩ := found approval member
              exact ⟨key, approval, filed, of_decide_eq_true human, names⟩
            refine Program.satisfies_of_fact approved fun approved => ?_
            have promoted : (log "module.promoted" ctx.nowMs (.str module.provenance.contentHash)
                >>= fun _ => save (.putHot module.provenance.contentHash module)).Emits
                  (Authorised start (.promote ctx module verdicts)) :=
              log_then fun _ logged => ⟨⟨ctx, verdicts, rfl⟩, rfl, logged, approved⟩
            exact promoted.consequence (fun _ _ => trivial) (fun _ _ admitted => admitted)
              (fun _ _ _ => approved) (fun _ _ _ => trivial)

/-- A new task has done nothing. -/
theorem createTask_guard {goal artefactType : String} {label : Label} {steps : List StepKind}
    : (createTask ctx goal artefactType label steps).Emits (Authorised start call) := by
  have submitted : (submitTask ctx goal label).Emits (Authorised start call) :=
    submitTask_emits.mono fun _ _ within => authorised_of_within within (by decide)
  unfold createTask
  refine submitted.bind fun register => ?_
  refine readRegister_emits.bind fun reg => ?_
  refine Program.Emits.bind (save_emits fun _ => Or.inl ?_) fun _ => Program.emits_pure
  rintro i ⟨step, placed, done⟩
  simp only [List.getElem?_map, Option.map_eq_some_iff] at placed
  obtain ⟨kind, -, rfl⟩ := placed
  cases done

end Calls

/-- Every call stays within the guard, by cases on the call. -/
theorem invoke_guard {world : World} (keyed : TasksKeyed world.disk) (call : Call)
    (faults : List Fault)
    : Trail (Authorised world.disk call) world (invoke call world faults).2.1 := by
  by_cases elsewhere : ∀ area ∈ call.footprint,
      area ∉ [.approvals, .stops, .modules, .tasks, .exports]
  · exact ((invoke_emits call).trail world faults).mono fun _ _ within =>
      authorised_of_within within elsewhere
  · cases call with
    | approve ctx approval => exact (map_emits approve_guard).trail world faults
    | stop ctx scope => exact (map_emits stop_guard).trail world faults
    | resume ctx stopId => exact (map_emits resume_guard).trail world faults
    | createTask ctx goal artefactType label steps =>
        exact (map_emits createTask_guard).trail world faults
    | promote ctx module verdicts =>
        change Trail _ world
          (((fun _ => Reply.unit) <$> promote ctx module verdicts) world faults).2.1
        rw [Program.map_run]
        exact promote_guard.trail rfl faults
    | runTaskStep ctx taskId =>
        change Trail _ world ((Reply.task <$> runTaskStep ctx taskId) world faults).2.1
        rw [Program.map_run]
        cases stored : world.disk.tasks[taskId]? with
        | none =>
            rw [runTaskStep_absent stored]
            exact Trail.refl world
        | some old =>
            obtain rfl := keyed taskId old stored
            refine (runTaskStep_guard stored faults).mono fun later update guarded => ?_
            cases update with
            | putTask row => exact Or.inr ⟨ctx, old, rfl, stored, guarded⟩
            | writeExport path bytes => exact ⟨ctx, old, rfl, stored, guarded⟩
            | putApproval key approval => exact absurd guarded.1 (by simp [Update.area, stepAreas])
            | putResume event => exact absurd guarded.1 (by simp [Update.area, stepAreas])
            | putHot subject module => exact absurd guarded.1 (by simp [Update.area, stepAreas])
            | _ => trivial
    | _ => exact absurd (by simp [Call.footprint]) elsewhere

-----------------------------------------------------------------------------------------
-- Where rows come from
-----------------------------------------------------------------------------------------

section Rows

omit [Libraries]

variable {world : World} {update : Update}

/-- An approval on file was there before, or this update put it there. -/
theorem approvals_apply {key : String} {approval : Approval}
    (held : (Updates.apply update world : World).disk.approvals[key]? = some approval)
    : update = .putApproval key approval ∨ world.disk.approvals[key]? = some approval := by
  cases update with
  | putApproval written row =>
      rcases Table.getElem?_insert_inv held with ⟨rfl, rfl⟩ | earlier
      · exact Or.inl rfl
      · exact Or.inr earlier
  | _ => exact Or.inr held

/-- A RESUME on file was there before, or this update put it there. -/
theorem resumes_apply {key : String} {event : ResumeEvent}
    (held : (Updates.apply update world : World).disk.resumes[key]? = some event)
    : update = .putResume event ∨ world.disk.resumes[key]? = some event := by
  cases update with
  | putResume row =>
      rcases Table.getElem?_insert_inv held with ⟨-, rfl⟩ | earlier
      · exact Or.inl rfl
      · exact Or.inr earlier
  | _ => exact Or.inr held

/-- A module in force was there before, or this update put it there. -/
theorem hot_apply {subject : String} {module : ModuleManifest}
    (held : (Updates.apply update world : World).disk.hot[subject]? = some module)
    : update = .putHot subject module ∨ world.disk.hot[subject]? = some module := by
  cases update with
  | putHot written row =>
      rcases Table.getElem?_insert_inv held with ⟨rfl, rfl⟩ | earlier
      · exact Or.inl rfl
      · exact Or.inr earlier
  | _ => exact Or.inr held

/-- A task's row was there before, or this update stored it under the row's own id. -/
theorem tasks_apply {id : String} {row : Task}
    (held : (Updates.apply update world : World).disk.tasks[id]? = some row)
    : (update = .putTask row ∧ id = row.id) ∨ world.disk.tasks[id]? = some row := by
  cases update with
  | putTask written =>
      rcases Table.getElem?_insert_inv held with ⟨rfl, rfl⟩ | earlier
      · exact Or.inl ⟨rfl, rfl⟩
      · exact Or.inr earlier
  | _ => exact Or.inr held

/-- An exported file was there before, or this update wrote it. -/
theorem exports_apply {path : String} {bytes : List UInt8}
    (held : (Updates.apply update world : World).disk.exports[path]? = some bytes)
    : update = .writeExport path bytes ∨ world.disk.exports[path]? = some bytes := by
  cases update with
  | writeExport written content =>
      rcases Table.getElem?_insert_inv held with ⟨rfl, rfl⟩ | earlier
      · exact Or.inl rfl
      · exact Or.inr earlier
  | _ => exact Or.inr held

end Rows

/-- What is on the record of the first state is on that of the second. -/
def RecordGrown (first last : StateDir) : Prop :=
  ∀ kind payload, Logged first kind payload → Logged last kind payload

/-- What every authorised update keeps holds of every reachable state directory. -/
theorem Reachable.authorised_invariant {invariant : StateDir → Prop} (initial : invariant {})
    (each : ∀ (start : StateDir) (call : Call) (world : World) (update : Update),
      invariant start → RecordGrown start world.disk → invariant world.disk
      → Authorised start call world update
      → invariant (Updates.apply update world : World).disk)
    {machine : Machine} (reachable : Reachable machine)
    : invariant machine.world.disk := by
  let Kept (disk : StateDir) : Prop := TasksKeyed disk ∧ invariant disk
  have along {call : Call} {first last : World}
      (trail : Trail (Authorised first.disk call) first last) (holds : Kept first.disk)
      : Kept last.disk := by
    let Holds (world : World) : Prop :=
      RecordGrown first.disk world.disk ∧ invariant world.disk
    have step : ∀ world update, Holds world → Authorised first.disk call world update
        → Holds (Updates.apply update world) := by
      rintro world update ⟨grown, held⟩ authorised
      exact ⟨fun kind payload logged => (grown kind payload logged).apply update,
        each first.disk call world update holds.2 grown held authorised⟩
    have kept : Holds last := trail.preserves step ⟨fun _ _ logged => logged, holds.2⟩
    exact ⟨holds.1.trail trail, kept.2⟩
  have kept : Kept machine.world.disk := by
    refine reachable.disk_invariant ⟨tasksKeyed_empty, initial⟩ ?_ ?_
    · intro call world faults holds
      exact along (invoke_guard holds.1 call faults) holds
    · intro first last trail holds
      have authorised : Trail (Authorised first.disk (.boot 0)) first last :=
        trail.mono fun _ _ within => authorised_of_within within (by decide)
      exact along authorised holds
  exact kept.2

end VerticalAI.Kernel
