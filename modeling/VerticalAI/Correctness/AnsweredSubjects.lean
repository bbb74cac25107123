import VerticalAI.Kernel.ApprovalHistory
import VerticalAI.Kernel.TaskHistory

/-! The subject that is answered for a task can be approved: once a human did, the task's approval
step is done, unless the task had failed at it already.
-/

namespace VerticalAI.Correctness
open VerticalAI.Foundation VerticalAI.Contracts VerticalAI.Kernel

section Subjects

variable [Libraries]

/-- A task that is done has no next step, by induction on the run. -/
theorem nodeAfter_done (events : List Event) (few : drawn events < 2 ^ 64) {id : String}
    {row : Task}
    (stored : (nodeAfter events).world.disk.tasks[id]? = some row) (done : row.status = .done)
    : row.next = none := by
  induction events using List.reverseRecOn generalizing row with
  | nil => exact nomatch stored
  | append_singleton events event ih =>
      have moves := nodeAfter_tasksMove few
      cases before : (nodeAfter events).world.disk.tasks[id]? with
      | none =>
          rw [(moves.added id row stored before).queued] at done
          cases done
      | some old =>
          obtain ⟨later, held, moved⟩ := moves.kept id old before
          obtain rfl := Option.some.inj (stored.symm.trans held)
          rcases moved with rfl | ⟨-, -, moved⟩
          · exact ih (drawn_lt_of_append few) before done
          · exact moved.next_none done

/-- A task stays as it is until the scheduler is called for it, by induction on what happens until
then.
-/
theorem nodeAfter_quiet (events later : List Event) (few : drawn (events ++ later) < 2 ^ 64)
    {id : String} {row : Task} (quiet : ∀ event ∈ later, ¬event.Schedules id)
    (stored : (nodeAfter events).world.disk.tasks[id]? = some row)
    : (nodeAfter (events ++ later)).world.disk.tasks[id]? = some row := by
  induction later using List.reverseRecOn with
  | nil => rwa [List.append_nil]
  | append_singleton later event ih =>
      rw [← List.append_assoc] at few ⊢
      exact nodeAfter_unscheduled few (quiet event (by simp))
        (ih (drawn_lt_of_append few) fun other member => quiet other (List.mem_append_left _ member))

variable {ctx : Ctx} {world : World} {row base : Task} {i : Nat} {step : Step} {reg : Register}

/-- With a human approval of its subject on file an approval step is done, and recorded so. -/
theorem settle_approved {wasWaiting : Bool} (stored : world.disk.tasks[row.id]? = some base)
    (held : world.disk.registers[base.register.text]? = some reg)
    (flows : reg.label.flowsTo ctx.clearance = true) (next : base.next = some (i, step))
    (approve : step.kind = .approve) (filed : HumanApprovalFiled world.disk (Register.subject reg))
    : (Program.attempt (runStep ctx row.id .approve base.register base.artefactType)
        >>= settleStep ctx row.id i wasWaiting base) world []
      = (.done (base.ended i .done 0 ctx.nowMs),
          Updates.apply (.putTask (base.ended i .done 0 ctx.nowMs))
            (world.logged "task.step" ctx.nowMs (stepRecord row.id i)), []) := by
  have current : base.next.map (·.2.kind) = some .approve := by rw [next, Option.map_some, approve]
  have worked := runStep_approve base.artefactType base.register
    (approvalSubject_working stored held flows current)
  rw [if_pos (any_human_iff.mpr filed)] at worked
  rw [Program.bind_done (Program.attempt_working_done worked)]
  exact recordStep_working _

/-- Running an approval step that was approved ends it, whether it waited before or is started
now.
-/
theorem advance_approved (stored : world.disk.tasks[row.id]? = some row)
    (held : world.disk.registers[row.register.text]? = some reg)
    (flows : reg.label.flowsTo ctx.clearance = true) (next : row.next = some (i, step))
    (approve : step.kind = .approve) (filed : HumanApprovalFiled world.disk (Register.subject reg))
    : ∃ base after, row.Begun i base
      ∧ advance ctx row.id row i step world []
        = (.done (base.ended i .done 0 ctx.nowMs), after, [])
      ∧ after.disk.tasks[row.id]? = some (base.ended i .done 0 ctx.nowMs) := by
  unfold advance
  rw [approve]
  by_cases waited : step.status = .waitingHuman
  · simp only [waited, decide_true, if_true, Bool.not_true, Bool.false_eq_true, if_false]
    refine ⟨row, _, Or.inl rfl, settle_approved stored held flows next approve filed, ?_⟩
    exact stored_putTask rfl _
  · simp only [waited, decide_false, Bool.false_eq_true, if_false, Bool.not_false, if_true]
    have saved : saveTask (row.started i ctx.nowMs) world []
        = (.done (), Updates.apply (.putTask (row.started i ctx.nowMs)) world, []) := rfl
    rw [Program.bind_done saved]
    have built : (row.started i ctx.nowMs).steps = row.steps.modify i fun step =>
        { step with status := .running, startedMs := some ctx.nowMs } := rfl
    have begun := next_of_undone next built nofun
    refine ⟨row.started i ctx.nowMs, _, Or.inr ⟨ctx.nowMs, rfl⟩,
      settle_approved (stored_putTask rfl world) held flows begun approve filed, ?_⟩
    have named : ((row.started i ctx.nowMs).ended i .done 0 ctx.nowMs).id = row.id := rfl
    exact stored_putTask named _

/-- So does a call of the scheduler, for a task that has not ended on a node with no STOP. -/
theorem runTaskStep_approved (ctx : Ctx) (stored : world.disk.tasks[row.id]? = some row)
    (goesOn : ¬row.Terminal)
    (unstopped : world.kernel.stops.stopped "node" = false)
    (held : world.disk.registers[row.register.text]? = some reg)
    (flows : reg.label.flowsTo ctx.clearance = true) (next : row.next = some (i, step))
    (approve : step.kind = .approve) (filed : HumanApprovalFiled world.disk (Register.subject reg))
    : ∃ base after, row.Begun i base
      ∧ runTaskStep ctx row.id world [] = (.done (base.ended i .done 0 ctx.nowMs), after, [])
      ∧ after.disk.tasks[row.id]? = some (base.ended i .done 0 ctx.nowMs) := by
  unfold runTaskStep
  rw [Program.bind_done (task_visible stored ⟨reg, held, flows⟩)]
  dsimp only
  rw [Task.Terminal] at goesOn
  rw [if_neg goesOn, kernel, Program.observe_bind_run, if_neg (Bool.not_eq_true _ ▸ unstopped), next]
  exact advance_approved stored held flows next approve filed

/-- A task that has ended is answered as it is. -/
theorem runTaskStep_terminal (ctx : Ctx) {id : String} (stored : world.disk.tasks[id]? = some row)
    (terminal : row.Terminal)
    (visible : Visible ctx world.disk row)
    : runTaskStep ctx id world [] = (.done row, world, []) := by
  unfold runTaskStep
  rw [Program.bind_done (task_visible stored visible)]
  dsimp only
  rw [Task.Terminal] at terminal
  rw [if_pos terminal]
  rfl

/-- A subject that was answered is that of the register of a task at its approval step. -/
theorem answered_subject {machine : Machine} {id subject : String} {faults : List Fault}
    (answered : machine.answer (.approvalSubject ctx id) faults = some (.done (.text subject)))
    : ∃ row reg, machine.world.disk.tasks[id]? = some row
      ∧ machine.world.disk.registers[row.register.text]? = some reg
      ∧ reg.label.flowsTo ctx.clearance = true ∧ row.next.map (·.2.kind) = some .approve
      ∧ subject = Register.subject reg := by
  obtain ⟨up, -⟩ := Machine.step_call_up answered nofun
  rw [Machine.answer_up up] at answered
  have outcome := Option.some.inj answered
  change ((Reply.text <$> approvalSubject ctx id) machine.world faults).1 = _ at outcome
  rw [Program.map_run] at outcome
  rcases ran : approvalSubject ctx id machine.world faults with ⟨shown | error | _, last, rest⟩
  all_goals
    rw [ran] at outcome
    cases outcome
  exact approvalSubject_done ran

/-- The call of the scheduler answers the task with this step done, and stores it so. -/
def MarksDone (machine : Machine) (ctx : Ctx) (id : String) (i : Nat) : Prop :=
  ∃ answer, machine.answer (.runTaskStep ctx id) [] = some (.done (.task answer))
    ∧ (machine.step (.call (.runTaskStep ctx id) [])).world.disk.tasks[id]? = some answer
    ∧ answer.DoneAt i

/-- A running node with no STOP on it, the task's register as it was, and a human approval of the
subject on file.
-/
structure ReadyToApprove (before machine : Machine) (row : Task) (subject : String) : Prop where
  up : machine.up = true
  unstopped : machine.world.kernel.stops.stopped "node" = false
  register : machine.world.disk.registers[row.register.text]?
    = before.world.disk.registers[row.register.text]?
  filed : HumanApprovalFiled machine.world.disk subject

theorem marksDone_iff {machine : Machine} (id : String) (up : machine.up = true)
    {outcome : Outcome KernelError Task} {after : World}
    (ran : runTaskStep ctx id machine.world [] = (outcome, after, []))
    : MarksDone machine ctx id i
      ↔ ∃ answer, outcome = .done answer ∧ after.disk.tasks[id]? = some answer ∧ answer.DoneAt i := by
  have invoked : invoke (.runTaskStep ctx id) machine.world [] = (outcome.map .task, after, []) := by
    change (Reply.task <$> runTaskStep ctx id) machine.world [] = _
    rw [Program.map_run, ran]
  rw [MarksDone, Machine.answer_up up, Machine.step_call_world up, invoked]
  refine exists_congr fun answer => and_congr_left fun _ => ?_
  cases outcome <;> simp [Outcome.map]

/-- In every run that draws fewer numbers for ids than a `u64` counts, with whatever faults: when a
subject was answered for a task, a human approval of it is on file, the task's register is as it was
and no STOP is on the node, then the next call of the scheduler for the same caller marks the task's
approval step done exactly when the task had not failed.
-/
theorem answered_subject_marks_done_iff (events later : List Event)
    (few : drawn (events ++ later) < 2 ^ 64) (ctx : Ctx) (nowMs : UInt64) (id subject : String)
    (faults : List Fault) (row : Task)
    (answered : (nodeAfter events).answer (.approvalSubject ctx id) faults
      = some (.done (.text subject)))
    (stored : (nodeAfter events).world.disk.tasks[id]? = some row)
    (quiet : ∀ event ∈ later, ¬event.Schedules id)
    (ready : ReadyToApprove (nodeAfter events) (nodeAfter (events ++ later)) row subject)
    : ∃ i step, row.next = some (i, step) ∧ step.kind = .approve
      ∧ (MarksDone (nodeAfter (events ++ later)) { ctx with nowMs } id i ↔ row.status ≠ .failed) := by
  have fewer := drawn_lt_of_append few
  obtain ⟨rfl, -⟩ := nodeAfter_tasksMinted events fewer id row stored
  obtain ⟨found, reg, there, held, flows, current, rfl⟩ := answered_subject answered
  obtain rfl := Option.some.inj (stored.symm.trans there)
  obtain ⟨⟨i, step⟩, next, approve⟩ := Option.map_eq_some_iff.mp current
  refine ⟨i, step, next, approve, ?_⟩
  have kept := nodeAfter_quiet events later few quiet stored
  obtain ⟨up, unstopped, register, filed⟩ := ready
  rw [held] at register
  by_cases failed : row.status = .failed
  · have ran := runTaskStep_terminal { ctx with nowMs } kept (Or.inr failed) ⟨reg, register, flows⟩
    rw [marksDone_iff row.id up ran]
    refine iff_of_false ?_ fun goesOn => goesOn failed
    rintro ⟨answer, same, -, done⟩
    cases same
    obtain ⟨placed, undone, -⟩ := Task.next_some next
    obtain ⟨other, there, ended⟩ := done
    obtain rfl := Option.some.inj (placed.symm.trans there)
    exact undone ended
  · have goesOn : ¬row.Terminal := by
      rintro (done | ended)
      · rw [nodeAfter_done events fewer stored done] at next
        cases next
      · exact failed ended
    obtain ⟨base, after, begun, ran, saved⟩ :=
      runTaskStep_approved { ctx with nowMs } kept goesOn unstopped register flows next approve filed
    rw [marksDone_iff row.id up ran]
    exact iff_of_true ⟨_, rfl, saved, begun.ended_doneAt (Task.next_some next).1⟩ failed

end Subjects

attribute [local instance] shortLibraries

section Run

private def askerCtx : Ctx where
  principal := .machine "n1" "cli"
  clearance := ⟨.personal, true⟩
  partition := "local"
  nowMs := 5

private def askerKey : VerifyingKey := .repeated 7

/-- A task with an approval step, run once with these faults. -/
private def askedEvents (faults : List Fault) : List Event :=
  [.open "state" "n1" false 0 [], .call (.enrollDevicePersisted "phone" askerKey 1) [],
    .call (.createTask askerCtx "write" "text" Label.bottom [.approve]) [],
    .call (.runTaskStep askerCtx "task-n1-2") faults]

/-- The task's register. -/
private def askedRegister : Register where
  id := ⟨"reg-n1-1"⟩
  taskId := "task-n1-2"
  label := Label.bottom
  goal := "write"
  constraints := []
  evidence := []
  decisions := []
  openQuestions := []
  artefacts := []

private def askedSubject : String := Register.subject askedRegister

/-- The human approval of the subject, signed with the phone. -/
private def askedApproval : Approval :=
  let challenge : Challenge := ⟨"task:task-n1-2", askedSubject, "0123456789abcdef", 100⟩
  { subjectHash := askedSubject
    kind := .human
    approver := .human "phone"
    challenge := some challenge
    signatureHex := some (Hex.encode (askerKey.val ++ challenge.digest.take 32)) }

private def approvedLater : List Event :=
  [.call (.approve { askerCtx with principal := .human "phone" } askedApproval) []]

/-- The task with its approval step as given. -/
private def askedTask (status : TaskStatus) (step : StepStatus) (endedMs : Option UInt64)
    : Task where
  id := "task-n1-2"
  register := ⟨"reg-n1-1"⟩
  goal := "write"
  artefactType := "text"
  steps := [⟨.approve, step, some 5, endedMs, 0⟩]
  status
  createdMs := 5

private def waitingAsked : Task := askedTask .waitingHuman .waitingHuman none

/-- The register could not be read when the approval step ran. -/
private def unreadable : List Fault := [.none, .none, .none, .none, .none, .fail "disk"]

private def failedAsked : Task :=
  askedTask .failed (.failed (KernelError.store "disk").text) (some 5)

private theorem asked_answered
    : (nodeAfter (askedEvents [])).answer (.approvalSubject askerCtx "task-n1-2") []
      = some (.done (.text askedSubject)) := rfl

private theorem unreadable_answered
    : (nodeAfter (askedEvents unreadable)).answer (.approvalSubject askerCtx "task-n1-2") []
      = some (.done (.text askedSubject)) := rfl

/-- The parts of being ready that are evaluated. -/
private theorem ready_of_evaluated {before machine : Machine} (row : Task) (up : machine.up = true)
    (unstopped : machine.world.kernel.stops.stopped "node" = false)
    (register : machine.world.disk.registers[row.register.text]?
      = before.world.disk.registers[row.register.text]?)
    (listed : machine.world.disk.approvals.list.map (·.2) = [askedApproval])
    : ReadyToApprove before machine row askedSubject := by
  refine ⟨up, unstopped, register, ?_⟩
  obtain ⟨⟨key, approval⟩, member, same⟩ :=
    List.mem_map.mp (listed ▸ List.mem_singleton_self askedApproval)
  obtain rfl : approval = askedApproval := same
  exact ⟨key, _, Table.mem_list.mp member, rfl, rfl⟩

private theorem asked_facts
    : (nodeAfter (askedEvents [])).world.disk.tasks["task-n1-2"]? = some waitingAsked
      ∧ (nodeAfter (askedEvents [] ++ approvedLater)).up = true
      ∧ (nodeAfter (askedEvents [] ++ approvedLater)).world.kernel.stops.stopped "node" = false
      ∧ (nodeAfter (askedEvents [] ++ approvedLater)).world.disk.registers["reg-n1-1"]?
        = (nodeAfter (askedEvents [])).world.disk.registers["reg-n1-1"]?
      ∧ (nodeAfter (askedEvents [] ++ approvedLater)).world.disk.approvals.list.map (·.2)
        = [askedApproval] := by
  decide +kernel

private theorem unreadable_facts
    : (nodeAfter (askedEvents unreadable)).world.disk.tasks["task-n1-2"]? = some failedAsked
      ∧ (nodeAfter (askedEvents unreadable ++ approvedLater)).up = true
      ∧ (nodeAfter (askedEvents unreadable ++ approvedLater)).world.kernel.stops.stopped "node" = false
      ∧ (nodeAfter (askedEvents unreadable ++ approvedLater)).world.disk.registers["reg-n1-1"]?
        = (nodeAfter (askedEvents unreadable)).world.disk.registers["reg-n1-1"]?
      ∧ (nodeAfter (askedEvents unreadable ++ approvedLater)).world.disk.approvals.list.map (·.2)
        = [askedApproval] := by
  decide +kernel

private theorem approvedLater_quiet : ∀ event ∈ approvedLater, ¬event.Schedules "task-n1-2" := by
  intro event member
  obtain rfl := List.mem_singleton.mp member
  rintro ⟨ctx, faults, same⟩
  cases same

/-- The approval of a task that waits marks its step done. -/
theorem asked_subject_marks_done
    : MarksDone (nodeAfter (askedEvents [] ++ approvedLater)) askerCtx "task-n1-2" 0 := by
  obtain ⟨stored, up, unstopped, register, listed⟩ := asked_facts
  have ready := ready_of_evaluated waitingAsked up unstopped register listed
  obtain ⟨i, step, next, -, marks⟩ := answered_subject_marks_done_iff (askedEvents []) approvedLater
    (by decide) askerCtx 5 "task-n1-2" askedSubject
    [] waitingAsked asked_answered stored approvedLater_quiet ready
  cases next
  exact marks.mpr nofun

/-- A task failed at its approval step for a read that failed: the subject is answered all the
same, a human approves it, and the step is not marked done.
-/
theorem failed_subject_is_never_done
    : ∃ events later ctx id subject row i step,
        (nodeAfter events).answer (.approvalSubject ctx id) [] = some (.done (.text subject))
        ∧ (nodeAfter events).world.disk.tasks[id]? = some row
        ∧ row.next = some (i, step) ∧ step.kind = .approve
        ∧ (∀ event ∈ later, ¬Event.Schedules event id)
        ∧ ReadyToApprove (nodeAfter events) (nodeAfter (events ++ later)) row subject
        ∧ ¬MarksDone (nodeAfter (events ++ later)) ctx id i := by
  obtain ⟨stored, up, unstopped, register, listed⟩ := unreadable_facts
  have ready := ready_of_evaluated failedAsked up unstopped register listed
  refine ⟨askedEvents unreadable, approvedLater, askerCtx, "task-n1-2", askedSubject, failedAsked, 0, _,
    unreadable_answered, stored, rfl, rfl, approvedLater_quiet, ready, ?_⟩
  obtain ⟨row, reg, there, held, flows, -⟩ := answered_subject unreadable_answered
  obtain rfl : failedAsked = row := Option.some.inj (stored.symm.trans there)
  have kept := nodeAfter_quiet (askedEvents unreadable) approvedLater (by decide) approvedLater_quiet
    stored
  have ran := runTaskStep_terminal askerCtx kept (Or.inr rfl) ⟨reg, register.trans held, flows⟩
  intro marks
  obtain ⟨answer, same, -, step, placed, done⟩ := (marksDone_iff _ up ran).mp marks
  cases same
  cases placed
  cases done

end Run

end VerticalAI.Correctness
