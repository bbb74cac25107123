import VerticalAI.Kernel.ApprovalHistory
import VerticalAI.Kernel.TaskStatus

/-! The status of a task and its steps, over whole runs on working storage: what the scheduler
answers is what is stored, and is coherent but for one kind of poll.
-/

namespace VerticalAI.Correctness
open VerticalAI.Foundation VerticalAI.Contracts VerticalAI.Kernel

/-- Nothing fails in this event. -/
def Working : Event → Prop
  | .call _ faults | .open _ _ _ _ faults => faults = []
  | .close => True

section Runs

variable [Libraries]

/-- Every stored task is settled. -/
def AllSettled (disk : StateDir) : Prop :=
  ∀ (id : String) (row : Task), disk.tasks[id]? = some row → Settled row

/-- A task is settled when it is created. -/
theorem createTask_settled {ctx : Ctx} {goal artefactType : String} {label : Label}
    {steps : List StepKind}
    : (createTask ctx goal artefactType label steps).Emits
        (fun _ update => ∀ row, update = .putTask row → Settled row) := by
  have submitted : (submitTask ctx goal label).Emits
      (fun _ update => ∀ row, update = .putTask row → Settled row) := by
    refine submitTask_emits.mono fun _ update within row same => ?_
    subst same
    exact absurd within.1 (by simp [Update.area])
  unfold createTask
  refine submitted.bind fun register => ?_
  refine readRegister_emits.bind fun reg => ?_
  refine Program.Emits.bind (save_emits fun _ row same => ?_) fun _ => Program.emits_pure
  cases same
  have pending : ∀ (i : Nat) (step : Step),
      (steps.map fun kind => Step.mk kind .pending none none 0)[i]? = some step
      → step.status = .pending := by
    intro i step placed
    rw [List.getElem?_map, Option.map_eq_some_iff] at placed
    obtain ⟨kind, -, rfl⟩ := placed
    rfl
  refine ⟨fun i step _ j _ behind placed => pending j behind placed, ?_⟩
  cases next : Task.next _ with
  | none => trivial
  | some current =>
      obtain ⟨placed, -, -⟩ := Task.next_some next
      change Fits .queued (some current.2.status)
      rw [pending current.1 current.2 placed]
      trivial

/-- A working event keeps all tasks settled, by cases on the call. -/
theorem AllSettled.step {machine : Machine} (keyed : TasksKeyed machine.world.disk)
    (settled : AllSettled machine.world.disk) {event : Event} (working : Working event)
    : AllSettled (machine.step event).world.disk := by
  rcases machine.step_cases event with ⟨call, faults, rfl, -, stepped⟩ | ⟨last, trail, stepped⟩
  · rw [stepped]
    obtain rfl : faults = [] := working
    by_cases elsewhere : .tasks ∉ call.footprint
    · have kept := same_of_trail ((invoke_emits call).trail machine.world []) .tasks elsewhere
      rw [World.Same] at kept
      unfold AllSettled
      rw [kept]
      exact settled
    · cases call with
      | createTask ctx goal artefactType label steps =>
          let Holds (world : World) : Prop := AllSettled world.disk
          have kept : Holds (invoke (.createTask ctx goal artefactType label steps)
              machine.world []).2.1 := by
            refine ((map_emits createTask_settled).trail machine.world []).preserves ?_ settled
            intro world update holds fresh id row held
            rcases tasks_apply held with ⟨written, -⟩ | earlier
            · exact fresh row written
            · exact holds id row earlier
          exact kept
      | runTaskStep ctx taskId =>
          have ran : (invoke (.runTaskStep ctx taskId) machine.world []).2.1
              = (runTaskStep ctx taskId machine.world []).2.1 := by
            change ((Reply.task <$> runTaskStep ctx taskId) machine.world []).2.1 = _
            rw [Program.map_run]
          rw [ran]
          cases stored : machine.world.disk.tasks[taskId]? with
          | none =>
              rw [runTaskStep_absent stored]
              exact settled
          | some row =>
              obtain rfl := keyed taskId row stored
              intro id found held
              by_cases same : id = row.id
              · subst same
                obtain ⟨outcome, after, result, stepped, placed, advanced⟩ :=
                  runTaskStep_working ctx stored
                rw [stepped] at held
                obtain rfl := Option.some.inj (held.symm.trans placed)
                exact advanced.settled (settled row.id row stored)
              · rw [runTaskStep_elsewhere stored [] same] at held
                exact settled id found held
      | _ => exact absurd (by simp [Call.footprint]) elsewhere
  · have kept := same_of_trail trail .tasks (by decide)
    rw [World.Same] at kept
    unfold AllSettled
    rw [stepped, kept]
    exact settled

/-- All tasks are settled in every run on working storage, by induction on the run. -/
theorem allSettled (events : List Event) (working : ∀ event ∈ events, Working event)
    : AllSettled (nodeAfter events).world.disk := by
  induction events using List.reverseRecOn with
  | nil =>
      intro id row held
      change (∅ : Table Task)[id]? = some row at held
      rw [Std.ExtTreeMap.getElem?_empty] at held
      cases held
  | append_singleton events event ih =>
      rw [nodeAfter_concat]
      have keyed : TasksKeyed (nodeAfter events).world.disk := Reachable.tasksKeyed ⟨events, rfl⟩
      have earlier := ih fun other member => working other (List.mem_append_left _ member)
      exact earlier.step keyed (working event (List.mem_append_right _ (List.mem_singleton_self _)))

/-- In every run on working storage: a task that the scheduler answers is the one stored, and its
status is determined by its steps exactly when it was not resumed while its step goes on waiting.
-/
theorem answered_task_is_coherent_iff (events : List Event)
    (working : ∀ event ∈ events, Working event) (ctx : Ctx) (id : String) (answer : Task)
    (answered : (nodeAfter events).answer (.runTaskStep ctx id) [] = some (.done (.task answer)))
    : ∃ row, (nodeAfter events).world.disk.tasks[id]? = some row
        ∧ ((nodeAfter events).step (.call (.runTaskStep ctx id) [])).world.disk.tasks[id]?
          = some answer
        ∧ (Coherent answer ↔ ¬ResumedWhileWaiting ctx (nodeAfter events).world row) := by
  have settled := allSettled events working
  have keyed : TasksKeyed (nodeAfter events).world.disk := Reachable.tasksKeyed ⟨events, rfl⟩
  generalize nodeAfter events = machine at answered settled keyed ⊢
  have up : machine.up = true := by
    by_contra down
    rw [Machine.answer, if_neg down] at answered
    cases answered
  have mapped : invoke (.runTaskStep ctx id) machine.world []
      = ((runTaskStep ctx id machine.world []).1.map .task, (runTaskStep ctx id machine.world []).2)
      := Program.map_run Reply.task (runTaskStep ctx id) machine.world []
  rw [Machine.answer_up up, mapped] at answered
  rw [Machine.step_call_world up, mapped]
  rcases ran : runTaskStep ctx id machine.world [] with ⟨value | error | _, after, rest⟩
  all_goals
    rw [ran] at answered
    cases answered
  obtain ⟨row, stored⟩ := runTaskStep_stored ran
  obtain rfl := keyed id row stored
  obtain ⟨outcome, last, result, again, held, stepped⟩ := runTaskStep_working ctx stored
  rw [ran] at again
  cases again
  obtain ⟨rfl, coherent⟩ := stepped.coherent_iff (settled row.id row stored)
  exact ⟨row, stored, held, coherent⟩

end Runs

attribute [local instance] plainLibraries

section Run

private def runnerCtx : Ctx where
  principal := .machine "n1" "cli"
  clearance := ⟨.personal, true⟩
  partition := "local"
  nowMs := 5

private def releaserCtx : Ctx := { runnerCtx with principal := .human "node:n1" }

private def poll : Call := .runTaskStep runnerCtx "task-n1-2"

/-- A task whose harness waits. -/
private def waitingEvents : List Event :=
  [.open "state" "n1" false 0 [],
    .call (.createTask runnerCtx "write" "text" Label.bottom [.harness "tests"]) [], .call poll []]

/-- It was polled under a STOP, which was then resumed. -/
private def resumedEvents : List Event :=
  waitingEvents ++ [.call (.stop releaserCtx "node") [], .call poll [],
    .call (.resume releaserCtx "stop-n1-3") []]

/-- The task with its harness waiting. -/
private def waitingTask (status : TaskStatus) : Task where
  id := "task-n1-2"
  register := ⟨"reg-n1-1"⟩
  goal := "write"
  artefactType := "text"
  steps := [⟨.harness "tests", .waitingHuman, some 5, none, 0⟩]
  status
  createdMs := 5

/-- Polling a task that waits answers one that is coherent. -/
theorem answered_task_is_coherent : Coherent (waitingTask .waitingHuman) := by
  have working : ∀ event ∈ waitingEvents, Working event := by
    intro event member
    simp only [waitingEvents, List.mem_cons, List.not_mem_nil, or_false] at member
    rcases member with rfl | rfl | rfl <;> rfl
  have answered : (nodeAfter waitingEvents).answer poll []
      = some (.done (.task (waitingTask .waitingHuman))) := rfl
  obtain ⟨row, stored, -, coherent⟩ :=
    answered_task_is_coherent_iff waitingEvents working runnerCtx "task-n1-2" _ answered
  refine coherent.mpr ?_
  rintro ⟨stopped, -⟩
  cases stored
  cases stopped

/-- After the STOP was resumed the task is still answered as stopped. -/
theorem resumed_task_stays_stopped
    : ∃ events, (∀ event ∈ events, Working event)
        ∧ (nodeAfter events).world.kernel.stops.stopped "node" = false
        ∧ ∃ ctx id answer, (nodeAfter events).answer (.runTaskStep ctx id) []
            = some (.done (.task answer)) ∧ answer.status = .stopped ∧ ¬Coherent answer := by
  refine ⟨resumedEvents, ?_, rfl, runnerCtx, "task-n1-2", waitingTask .stopped, rfl, rfl, ?_⟩
  · intro event member
    simp only [resumedEvents, waitingEvents, List.mem_append, List.mem_cons, List.not_mem_nil,
      or_false] at member
    rcases member with (rfl | rfl | rfl) | (rfl | rfl | rfl) <;> rfl
  · exact fun coherent => coherent.notStopped rfl

end Run

end VerticalAI.Correctness
