import VerticalAI.Kernel.TaskReads

/-! What one call of the scheduler writes: which steps a row may show as done, and which files a
release leaves.
-/

namespace VerticalAI.Kernel
open VerticalAI.Foundation VerticalAI.Contracts VerticalAI.Store

namespace Task

/-- The same task, whatever became of its steps. -/
structure Alike (old row : Task) : Prop where
  id : row.id = old.id
  register : row.register = old.register
  kinds : row.steps.map (·.kind) = old.steps.map (·.kind)

theorem Alike.refl (row : Task) : Alike row row := ⟨rfl, rfl, rfl⟩

theorem Alike.trans {first middle last : Task} (head : Alike first middle)
    (tail : Alike middle last)
    : Alike first last :=
  ⟨tail.id.trans head.id, tail.register.trans head.register, tail.kinds.trans head.kinds⟩

/-- The steps in one place of both rows have one kind. -/
theorem Alike.kind {old row : Task} (alike : Alike old row) {i : Nat} {step : Step}
    (placed : row.steps[i]? = some step)
    : ∃ before, old.steps[i]? = some before ∧ before.kind = step.kind := by
  have same := congrArg (·[i]?) alike.kinds
  simp only [List.getElem?_map, placed, Option.map_some] at same
  exact Option.map_eq_some_iff.mp same.symm

/-- Changing a step otherwise leaves the kinds of a task's steps as they were. -/
theorem map_kind_modify {steps : List Step} {i : Nat} {change : Step → Step}
    (kept : ∀ step, (change step).kind = step.kind)
    : (steps.modify i change).map (·.kind) = steps.map (·.kind) := by
  refine List.ext_getElem? fun j => ?_
  rw [List.getElem?_map, List.getElem?_modify, List.getElem?_map]
  cases steps[j]? with
  | none => rfl
  | some step =>
      simp only [Option.map_eq_map, Option.map_some]
      split
      · rw [kept]
      · rfl

/-- Changing the step in one place leaves the others done or not, as they were. -/
theorem doneAt_modify {row changed : Task} {i j : Nat} {change : Step → Step}
    (built : changed.steps = row.steps.modify i change) (done : changed.DoneAt j)
    : row.DoneAt j ∨ (j = i ∧ ∃ step, row.steps[i]? = some step ∧ (change step).status = .done) := by
  obtain ⟨step, placed, finished⟩ := done
  rw [built] at placed
  by_cases same : j = i
  · subst same
    rw [List.getElem?_modify_eq, Option.map_eq_map, Option.map_eq_some_iff] at placed
    obtain ⟨before, found, rfl⟩ := placed
    exact Or.inr ⟨rfl, before, found, finished⟩
  · rw [List.getElem?_modify_ne _ _ (Ne.symm same)] at placed
    exact Or.inl ⟨step, placed, finished⟩

theorem alike_started (row : Task) (i : Nat) (nowMs : UInt64) : Alike row (row.started i nowMs) :=
  ⟨rfl, rfl, map_kind_modify fun _ => rfl⟩

theorem alike_waiting (row : Task) (i : Nat) : Alike row (row.waiting i) :=
  ⟨rfl, rfl, map_kind_modify fun _ => rfl⟩

theorem alike_ended (row : Task) (i : Nat) (status : StepStatus) (tokens : UInt32)
    (nowMs : UInt64)
    : Alike row (row.ended i status tokens nowMs) :=
  ⟨rfl, rfl, map_kind_modify fun _ => rfl⟩

/-- A failed step leaves the task's name, register and steps alike. -/
theorem alike_broken (row : Task) (i : Nat) (error : KernelError) (nowMs : UInt64)
    : Alike row (row.broken i error nowMs) :=
  ⟨rfl, rfl, map_kind_modify fun _ => rfl⟩

end Task

variable [Libraries]

-----------------------------------------------------------------------------------------
-- The guard
-----------------------------------------------------------------------------------------

/-- A human approval on file names what this register offers the caller for approval. -/
def Approved (disk : StateDir) (ctx : Ctx) (register : RegisterId) : Prop :=
  ∃ reg, disk.registers[register.text]? = some reg ∧ reg.label.flowsTo ctx.clearance = true
    ∧ ∃ (key : String) (approval : Approval), disk.approvals[key]? = some approval
      ∧ approval.kind = .human ∧ approval.subjectHash = Register.subject reg

/-- The record of a step. -/
def stepRecord (taskId : String) (i : Nat) : Json := .arr [.str taskId, .num i]

/-- A row may show the next step as done once that is on the record, and a step that asks for an
approval only if there was one.
-/
structure Progress (start disk : StateDir) (ctx : Ctx) (old row : Task) : Prop where
  alike : Task.Alike old row
  done : ∀ i, row.DoneAt i
    → old.DoneAt i
      ∨ ∃ step, old.next = some (i, step) ∧ Logged disk "task.step" (stepRecord old.id i)
        ∧ (step.kind = .approve → Approved start ctx old.register)

/-- The file of an artefact that the register lists, in the destination on the record. -/
def Released (start disk : StateDir) (old : Task) (path : String) : Prop :=
  ∃ reg destination,
    start.registers[old.register.text]? = some reg
    ∧ Logged disk "artefact.released"
        (ReleaseRecord.toJson ⟨old.id, reg.artefacts.map (·.hash), destination⟩)
    ∧ ∃ artefact ∈ reg.artefacts, ∃ name,
        releaseFileName artefact.hash artefact.kind = .ok name
        ∧ path = joinPath destination name

/-- What a call of the scheduler on a stored task may write, from the state it was made in. -/
def StepGuard (start : StateDir) (ctx : Ctx) (old : Task) (world : World) (update : Update)
    : Prop :=
  match update with
  | .putTask row => Progress start world.disk ctx old row
  | .writeExport path _ => Released start world.disk old path
  | update => Within stepAreas world update

/-- A row that differs in no step that is done has made progress. -/
theorem Progress.of_alike {start disk : StateDir} {ctx : Ctx} {old row : Task}
    (alike : Task.Alike old row)
    (done : ∀ i, row.DoneAt i → old.DoneAt i)
    : Progress start disk ctx old row :=
  ⟨alike, fun i finished => Or.inl (done i finished)⟩

/-- Outside the rows and the files the guard asks for the areas of a step. -/
theorem stepGuard_of_within {start : StateDir} {ctx : Ctx} {old : Task} {areas : List Area}
    {world : World}
    {update : Update} (within : Within areas world update) (inclusion : areas ⊆ stepAreas)
    (noExports : .exports ∉ areas)
    : StepGuard start ctx old world update := by
  have widened : Within stepAreas world update := within.widen inclusion
  cases update with
  | putTask row => exact absurd widened.1 (by simp [Update.area, stepAreas])
  | writeExport path bytes => exact absurd within.1 noExports
  | _ => exact widened

-----------------------------------------------------------------------------------------
-- The work of a step
-----------------------------------------------------------------------------------------

/-- What the work of a step reads is as the call found it. -/
structure Poised (start : StateDir) (old : Task) (world : World) : Prop where
  registers : world.disk.registers = start.registers
  approvals : world.disk.approvals = start.approvals
  rows : ∀ row, world.disk.tasks[old.id]? = some row → row.register = old.register

omit [Libraries] in
/-- The files of a release are those of the artefacts, by induction on them. -/
theorem releaseFiles_mem [Text.CharTables] {artefacts : List ArtefactRef}
    {files : List (String × String)}
    (named : releaseFiles artefacts = .ok files)
    : ∀ file ∈ files, ∃ artefact ∈ artefacts,
        artefact.hash = file.1 ∧ releaseFileName artefact.hash artefact.kind = .ok file.2 := by
  induction artefacts generalizing files with
  | nil =>
      cases named
      nofun
  | cons artefact rest ih =>
      unfold releaseFiles at named
      cases first : releaseFileName artefact.hash artefact.kind with
      | error error =>
          rw [first] at named
          cases named
      | ok name =>
          rw [first] at named
          cases others : releaseFiles rest with
          | error error =>
              rw [others] at named
              cases named
          | ok later =>
              rw [others] at named
              cases named
              intro file member
              rcases List.mem_cons.mp member with rfl | member
              · exact ⟨artefact, List.mem_cons_self, rfl, first⟩
              · obtain ⟨found, listed, named⟩ := ih others file member
                exact ⟨found, List.mem_cons_of_mem _ listed, named⟩

section Guarded

variable {start : StateDir} {old : Task} {ctx : Ctx}

/-- Every file of the list is written under its own name, by induction on the list. -/
theorem writeFiles_guard {dest : String} {kind : String} {payload : Json}
    {files : List (String × String)}
    (released : ∀ world : World, Logged world.disk kind payload → ∀ file ∈ files,
      Released start world.disk old (joinPath dest file.2))
    : (writeFiles ctx dest files).Satisfies (fun world => Logged world.disk kind payload)
        (StepGuard start ctx old) (fun _ _ => True) (fun _ _ => True) := by
  induction files with
  | nil => exact Program.satisfies_pure fun _ _ => trivial
  | cons file rest ih =>
      obtain ⟨hash, name⟩ := file
      have written (bytes : List UInt8)
          : (save (.writeExport (joinPath dest name) bytes)).Satisfies
              (fun world => Logged world.disk kind payload) (StepGuard start ctx old)
              (fun _ world => Logged world.disk kind payload) (fun _ _ => True) :=
        Program.satisfies_persist
          (fun world logged => released world logged (hash, name) List.mem_cons_self)
          (fun _ logged => logged.apply _) (fun _ _ _ => trivial)
      have file : (writeFile ctx dest hash name).Satisfies
          (fun world => Logged world.disk kind payload) (StepGuard start ctx old)
          (fun _ world => Logged world.disk kind payload) (fun _ _ => True) := by
        unfold writeFile
        refine (Logged.kept readArtefact_emits).bind fun bytes => ?_
        refine (written []).bind fun _ => ?_
        exact (written bytes).bind fun _ => Logged.kept load_emits
      exact file.bind fun _ =>
        ih fun world logged other member =>
          released world logged other (List.mem_cons_of_mem _ member)

/-- A release is on the record before its first file, and writes the files of the artefacts. -/
theorem release_guard {toDir : String}
    : (release ctx old.id old.register toDir).Satisfies (Poised start old) (StepGuard start ctx old)
        (fun _ _ => True) (fun _ _ => True) := by
  unfold release
  refine Program.Emits.reads_bind readRegister_emits
    (fun _ _ _ _ _ ran => (readRegister_done ran).1) fun reg => ?_
  have known : ∀ world, Poised start old world
      ∧ world.disk.registers[old.register.text]? = some reg
      → start.registers[old.register.text]? = some reg :=
    fun world ⟨poised, found⟩ => poised.registers ▸ found
  refine Program.satisfies_of_fact known fun stored => Program.Emits.from_any ?_
  refine kernel_emits.bind fun node => ?_
  cases releaseDest node toDir with
  | error error => exact Program.emits_fail
  | ok dest =>
      cases named : releaseFiles reg.artefacts with
      | error error => exact Program.emits_fail
      | ok files =>
          let record : ReleaseRecord := ⟨old.id, reg.artefacts.map (·.hash), dest⟩
          let OnRecord (world : World) : Prop :=
            Logged world.disk "artefact.released" record.toJson
          have logged : (log "artefact.released" ctx.nowMs record.toJson).Satisfies
              (fun _ => True) (StepGuard start ctx old) (fun _ => OnRecord) (fun _ _ => True) :=
            (log_records (fun _ _ _ _ => trivial) fun _ _ within =>
              stepGuard_of_within within (by decide) (by decide)).consequence
              (fun _ holds => holds) (fun _ _ admitted => admitted)
              (fun _ _ recorded => recorded.2) (fun _ _ _ => trivial)
          have created (path : String)
              : (privateDir path).Satisfies OnRecord (StepGuard start ctx old) (fun _ => OnRecord)
                  (fun _ _ => True) := by
            have admitted (world : World) : StepGuard start ctx old world (.createDir path) :=
              ⟨by simp [Update.area, stepAreas], trivial⟩
            exact Logged.kept ((save_emits admitted).bind fun _ => load_emits)
          have released : ∀ world : World, OnRecord world → ∀ file ∈ files,
              Released start world.disk old (joinPath dest file.2) := by
            intro world recorded file member
            obtain ⟨artefact, listed, -, named⟩ := releaseFiles_mem named file member
            exact ⟨reg, dest, stored, recorded, artefact, listed, file.2, named, rfl⟩
          exact logged.bind fun _ => (created _).bind fun _ => (created _).bind fun _ =>
            writeFiles_guard released

/-- The work of a step stays within the guard, and an approval step is done only if a human
approval on file names what the register offers.
-/
theorem runStep_guard {kind : StepKind} {artefactType : String}
    : (runStep ctx old.id kind old.register artefactType).Satisfies (Poised start old)
        (StepGuard start ctx old)
        (fun result _ => result.1 = .done → kind = .approve → Approved start ctx old.register)
        (fun _ _ => True) := by
  have elsewhere {program : Syscall (StepStatus × UInt32)} (other : kind ≠ .approve)
      (emits : program.Emits (StepGuard start ctx old))
      : program.Satisfies (Poised start old) (StepGuard start ctx old)
          (fun result _ => result.1 = .done → kind = .approve → Approved start ctx old.register)
          (fun _ _ => True) :=
    emits.from_any.consequence (fun _ holds => holds) (fun _ _ admitted => admitted)
      (fun _ _ _ _ approval => absurd approval other) (fun _ _ _ => trivial)
  have inferred {capability : Capability} {archId : String}
      : (infer ctx archId capability old.register).Emits (StepGuard start ctx old) :=
    infer_emits.mono fun _ _ within => stepGuard_of_within within (by decide) (by decide)
  cases kind with
  | plan archId => exact elsewhere nofun (inferred.bind fun _ => Program.emits_pure)
  | draft archId =>
      have drafted : (draft ctx archId old.register artefactType).Emits (StepGuard start ctx old) :=
        draft_emits.mono fun _ _ within => stepGuard_of_within within (by decide) (by decide)
      exact elsewhere nofun (drafted.bind fun _ => Program.emits_pure)
  | judge archId => exact elsewhere nofun (inferred.bind fun _ => Program.emits_pure)
  | harness name => exact elsewhere nofun Program.emits_pure
  | release toDir =>
      refine release_guard.bind fun _ => ?_
      exact Program.satisfies_pure fun _ _ _ approval => by cases approval
  | approve =>
      refine Program.Emits.reads_bind approvalSubject_emits
        (fun _ _ _ _ _ ran => approvalSubject_done ran) fun subject => ?_
      refine Program.Emits.reads_bind approvalsFor_emits
        (fun _ _ _ _ _ ran => approvalsFor_done ran) fun approvals => ?_
      refine Program.satisfies_pure
        fun world ⟨⟨poised, row, reg, held, stored, flows, _, named⟩, found⟩ => ?_
      intro done _
      split at done
      · next human =>
          obtain ⟨approval, member, kind⟩ := List.any_eq_true.mp human
          obtain ⟨names, key, filed⟩ := found approval member
          rw [poised.registers, poised.rows row held] at stored
          rw [poised.approvals] at filed
          exact ⟨reg, stored, flows, key, approval, filed, of_decide_eq_true kind, names.trans named⟩
      · cases done

-----------------------------------------------------------------------------------------
-- The scheduler
-----------------------------------------------------------------------------------------

/-- What the step came to goes on the record, then into the row. -/
theorem settleStep_guard {row : Task} (alike : Task.Alike old row)
    (kept : ∀ j, row.DoneAt j → old.DoneAt j) {i : Nat} {step : Step}
    (next : old.next = some (i, step)) {wasWaiting : Bool}
    {result : Except KernelError (StepStatus × UInt32)}
    (approved : ∀ tokens, result = .ok (.done, tokens) → step.kind = .approve
      → Approved start ctx old.register)
    : (settleStep ctx old.id i wasWaiting row result).Emits (StepGuard start ctx old) := by
  have recorded {changed : Task}
      (progress : ∀ disk, Logged disk "task.step" (stepRecord old.id i)
        → Progress start disk ctx old changed)
      : (recordStep ctx old.id i changed).Emits (StepGuard start ctx old) := by
    have logged : (log "task.step" ctx.nowMs (stepRecord old.id i)).Satisfies (fun _ => True)
        (StepGuard start ctx old)
        (fun _ world => Logged world.disk "task.step" (stepRecord old.id i))
        (fun _ _ => True) :=
      (log_records (fun _ _ _ _ => trivial) fun _ _ within =>
        stepGuard_of_within within (by decide) (by decide)).consequence
        (fun _ holds => holds) (fun _ _ admitted => admitted)
        (fun _ _ recorded => recorded.2) (fun _ _ _ => trivial)
    have stored : (saveTask changed).Satisfies
        (fun world => Logged world.disk "task.step" (stepRecord old.id i))
        (StepGuard start ctx old) (fun _ _ => True) (fun _ _ => True) :=
      Program.satisfies_persist (fun world => progress world.disk) (fun _ _ => trivial)
        (fun _ _ _ => trivial)
    exact logged.bind fun _ => stored.bind fun _ => Program.emits_pure
  unfold settleStep
  split
  · split
    · exact Program.emits_pure
    · refine recorded fun disk _ => .of_alike (alike.trans (Task.alike_waiting row i)) fun j done => ?_
      rcases Task.doneAt_modify rfl done with earlier | ⟨-, _, _, finished⟩
      · exact kept j earlier
      · cases finished
  · next status tokens _ =>
      refine recorded fun disk logged =>
        ⟨alike.trans (Task.alike_ended row i status tokens ctx.nowMs), fun j done => ?_⟩
      rcases Task.doneAt_modify rfl done with earlier | ⟨rfl, _, _, finished⟩
      · exact Or.inl (kept j earlier)
      · obtain rfl : status = .done := finished
        exact Or.inr ⟨step, next, logged, approved tokens rfl⟩
  · next error =>
      have broken (world : World)
          : StepGuard start ctx old world (.putTask (row.broken i error ctx.nowMs)) := by
        refine .of_alike (alike.trans (Task.alike_broken row i error ctx.nowMs)) fun j done => ?_
        rcases Task.doneAt_modify rfl done with earlier | ⟨-, _, _, finished⟩
        · exact kept j earlier
        · cases finished
      exact Program.Emits.bind (save_emits broken) fun _ => Program.emits_fail

/-- Running a step that is next. -/
theorem advance_guard {i : Nat} {step : Step} (next : old.next = some (i, step))
    : (advance ctx old.id old i step).Satisfies (Poised start old) (StepGuard start ctx old)
        (fun _ _ => True) (fun _ _ => True) := by
  have ran {row : Task} {wasWaiting : Bool} (alike : Task.Alike old row)
      (kept : ∀ j, row.DoneAt j → old.DoneAt j)
      : (Program.attempt (runStep ctx old.id step.kind old.register old.artefactType)
          >>= fun result => settleStep ctx old.id i wasWaiting row result).Satisfies
          (Poised start old) (StepGuard start ctx old) (fun _ _ => True) (fun _ _ => True) := by
    let Sound (result : Except KernelError (StepStatus × UInt32)) : Prop :=
      ∀ tokens, result = .ok (.done, tokens) → step.kind = .approve
        → Approved start ctx old.register
    have worked : (Program.attempt
        (runStep ctx old.id step.kind old.register old.artefactType)
          : Syscall (Except KernelError (StepStatus × UInt32))).Satisfies
          (Poised start old) (StepGuard start ctx old) (fun result _ => Sound result)
          (fun _ _ => True) :=
      Program.Satisfies.attempt (runStep_guard.consequence (fun _ holds => holds)
        (fun _ _ admitted => admitted)
        (fun result _ approved tokens same => approved (by cases same; rfl))
        (fun _ _ _ _ same => by cases same))
    exact worked.bind fun result =>
      Program.satisfies_of_fact (fun _ sound => sound) fun sound =>
        (settleStep_guard alike kept next sound).from_any
  have undone {j : Nat} (done : (old.started i ctx.nowMs).DoneAt j) : old.DoneAt j := by
    rcases Task.doneAt_modify rfl done with earlier | ⟨-, _, _, finished⟩
    · exact earlier
    · cases finished
  have started : (saveTask (old.started i ctx.nowMs)).Satisfies (Poised start old)
      (StepGuard start ctx old) (fun _ => Poised start old) (fun _ _ => True) := by
    refine Program.satisfies_persist (fun _ _ => ?_) (fun world poised => ?_)
      fun _ _ _ => trivial
    · exact .of_alike (Task.alike_started old i ctx.nowMs) fun _ done => undone done
    · refine ⟨poised.registers, poised.approvals, fun row held => ?_⟩
      change (world.disk.tasks.insert old.id (old.started i ctx.nowMs))[old.id]? = some row at held
      rw [Std.ExtTreeMap.getElem?_insert_self] at held
      obtain rfl := Option.some.inj held
      rfl
  unfold advance
  cases decide (step.status = .waitingHuman) with
  | true => exact ran (Task.Alike.refl old) fun _ done => done
  | false =>
      exact started.bind fun _ => ran (Task.alike_started old i ctx.nowMs) fun _ => undone

/-- One call of the scheduler on a stored task stays within its guard. -/
theorem runTaskStep_guard {world : World} (stored : world.disk.tasks[old.id]? = some old)
    (faults : List Fault)
    : Trail (StepGuard world.disk ctx old) world (runTaskStep ctx old.id world faults).2.1 := by
  have restated {status : TaskStatus} {α : Type} {last : Syscall α}
      (after : last.Emits (StepGuard world.disk ctx old))
      : (saveTask { old with status } >>= fun _ => last).Emits (StepGuard world.disk ctx old) := by
    have alike (later : World) : StepGuard world.disk ctx old later (.putTask { old with status }) :=
      .of_alike ⟨rfl, rfl, rfl⟩ fun _ done => done
    exact Program.Emits.bind (save_emits alike) fun _ => after
  have triple : (runTaskStep ctx old.id).Satisfies (fun later => later = world)
      (StepGuard world.disk ctx old) (fun _ _ => True) (fun _ _ => True) := by
    refine Program.Emits.reads_bind task_emits
      (fun later _ shown _ _ ran =>
        show ∀ row, shown = some row → later.disk.tasks[old.id]? = some row from
          fun row same => (task_done (same ▸ ran)).1) fun shown => ?_
    cases shown with
    | none => exact Program.satisfies_fail fun _ _ => trivial
    | some row =>
        have same : ∀ later, later = world
            ∧ (∀ shown, some row = some shown → later.disk.tasks[old.id]? = some shown)
            → old = row := by
          rintro later ⟨rfl, found⟩
          exact Option.some.inj (stored.symm.trans (found row rfl))
        refine Program.satisfies_of_fact same fun same => ?_
        subst same
        dsimp only
        split
        · exact Program.satisfies_pure fun _ _ => trivial
        · have observed : (kernel (·.stops)).Satisfies
              (fun later => later = world
                ∧ ∀ shown, some old = some shown → later.disk.tasks[old.id]? = some shown)
              (StepGuard world.disk ctx old) (fun _ => Poised world.disk old)
              (fun _ _ => True) := by
            refine Program.satisfies_observe ?_
            rintro later ⟨rfl, -⟩
            refine ⟨rfl, rfl, fun row held => ?_⟩
            exact congrArg Task.register (Option.some.inj (held.symm.trans stored))
          refine observed.bind fun stops => ?_
          split
          · exact (restated Program.emits_fail).from_any
          · split
            · exact (restated Program.emits_pure).from_any
            · next next => exact advance_guard next
  exact triple.trail rfl faults

end Guarded

/-- A call of the scheduler leaves other tasks alone. -/
theorem runTaskStep_elsewhere {world : World} {ctx : Ctx} {row : Task}
    (stored : world.disk.tasks[row.id]? = some row) (faults : List Fault) {other : String}
    (different : other ≠ row.id)
    : (runTaskStep ctx row.id world faults).2.1.disk.tasks[other]? = world.disk.tasks[other]? := by
  let Kept (later : World) : Prop := later.disk.tasks[other]? = world.disk.tasks[other]?
  have step : ∀ later update, Kept later → StepGuard world.disk ctx row later update
      → Kept (Updates.apply update later) := by
    intro later update kept guarded
    cases update with
    | putTask changed =>
        have same : changed.id = row.id := guarded.alike.id
        exact (Table.getElem?_insert_ne (same ▸ different)).trans kept
    | _ => exact kept
  have kept : Kept (runTaskStep ctx row.id world faults).2.1 :=
    (runTaskStep_guard stored faults).preserves step rfl
  exact kept

/-- A call of the scheduler on a task that its caller may not see changes nothing. -/
theorem runTaskStep_hidden {ctx : Ctx} {taskId : String} {world : World}
    (hidden : ∀ row, world.disk.tasks[taskId]? = some row → ¬Visible ctx world.disk row)
    (faults : List Fault)
    : (runTaskStep ctx taskId world faults).2.1 = world := by
  have still : (task ctx taskId world faults).2.1 = world := task_emits.still world faults
  unfold runTaskStep
  rcases ran : task ctx taskId world faults with ⟨shown | error | _, same, rest⟩
  all_goals
    rw [ran] at still
    obtain rfl : same = world := still
  · rw [Program.bind_done ran]
    cases shown with
    | none => rfl
    | some row =>
        obtain ⟨stored, visible⟩ := task_done ran
        exact absurd visible (hidden row stored)
  · rw [Program.bind_failed ran]
  · rw [Program.bind_crashed ran]

/-- A step of a task that is not stored changes nothing. -/
theorem runTaskStep_absent {ctx : Ctx} {taskId : String} {world : World} {faults : List Fault}
    (absent : world.disk.tasks[taskId]? = none)
    : (runTaskStep ctx taskId world faults).2.1 = world := by
  refine runTaskStep_hidden (fun row stored => ?_) faults
  rw [absent] at stored
  cases stored

/-- A call of the scheduler answers for a stored task only. -/
theorem runTaskStep_stored {ctx : Ctx} {taskId : String} {world after : World}
    {faults rest : List Fault} {answer : Task}
    (ran : runTaskStep ctx taskId world faults = (.done answer, after, rest))
    : ∃ row, world.disk.tasks[taskId]? = some row := by
  obtain ⟨shown, middle, left, read, answered⟩ := Program.bind_done_inv ran
  cases shown with
  | none => cases answered
  | some row => exact ⟨row, (task_done read).1⟩

end VerticalAI.Kernel
