import VerticalAI.Kernel.ApprovalHistory
import VerticalAI.Kernel.TaskStatus

/-! Asking after a task that has ended or waits for a human is free: it answers the stored row and
leaves the node as it was, however often it is done.
-/

namespace VerticalAI.Correctness
open VerticalAI.Foundation VerticalAI.Contracts VerticalAI.Kernel

section Polls

variable [Libraries]

/-- The step waits for a human, and would go on waiting: it is a harness, or an approval of a
subject that no human approved.
-/
def WaitsOn (disk : StateDir) (row : Task) (step : Step) : Prop :=
  step.status = .waitingHuman
    ∧ ((∃ name, step.kind = .harness name)
      ∨ step.kind = .approve
        ∧ ∀ reg, disk.registers[row.register.text]? = some reg
          → ¬HumanApprovalFiled disk (Register.subject reg))

/-- The task is done or failed, or its first step that is not done waits. -/
def AtRest (disk : StateDir) (row : Task) : Prop :=
  (row.status = .done ∨ row.status = .failed)
    ∨ ∃ i step, row.next = some (i, step) ∧ WaitsOn disk row step

variable {ctx : Ctx} {world : World} {id : String} {row : Task}

/-- Working on a step that goes on waiting does nothing, by cases on its kind. -/
theorem runStep_waiting {i : Nat} {step : Step} (stored : world.disk.tasks[id]? = some row)
    (visible : Visible ctx world.disk row) (next : row.next = some (i, step))
    (waits : WaitsOn world.disk row step)
    : runStep ctx id step.kind row.register row.artefactType world []
      = (.done (.waitingHuman, 0), world, []) := by
  obtain ⟨-, ⟨name, harness⟩ | ⟨approve, unapproved⟩⟩ := waits
  · rw [harness]
    rfl
  · obtain ⟨reg, held, flows⟩ := visible
    have current : row.next.map (·.2.kind) = some .approve := by rw [next, Option.map_some, approve]
    rw [approve, runStep_approve _ _ (approvalSubject_working stored held flows current),
      if_neg fun human => unapproved reg held (any_human_iff.mp human)]

/-- A call of the scheduler for a task at rest answers the row and writes nothing. -/
theorem runTaskStep_at_rest (stored : world.disk.tasks[id]? = some row)
    (visible : Visible ctx world.disk row) (rests : AtRest world.disk row)
    (unstopped : world.kernel.stops.stopped "node" = false)
    : runTaskStep ctx id world [] = (.done row, world, []) := by
  unfold runTaskStep
  rw [Program.bind_done (task_visible stored visible)]
  dsimp only
  split
  · rfl
  · next goesOn =>
      obtain ⟨i, step, next, waits⟩ := rests.resolve_left goesOn
      rw [kernel, Program.observe_bind_run, if_neg (Bool.not_eq_true _ ▸ unstopped), next]
      dsimp only
      have worked := runStep_waiting stored visible next waits
      unfold advance
      simp only [waits.1, decide_true, if_true, Bool.not_true, Bool.false_eq_true, if_false]
      rw [Program.bind_done (Program.attempt_working_done worked)]
      rfl

/-- A poll of the task by each of these callers, with working storage. -/
def polls (id : String) (callers : List Ctx) : List Event :=
  callers.map fun ctx => .call (.runTaskStep ctx id) []

/-- In every reachable state of a running node with no STOP on it: polling a task at rest, by any
callers that may see it, leaves the node as it is, and each poll answers the stored row.
-/
theorem polling_is_free (events : List Event) (id : String) (row : Task) (callers : List Ctx)
    (up : (nodeAfter events).up = true)
    (unstopped : (nodeAfter events).world.kernel.stops.stopped "node" = false)
    (stored : (nodeAfter events).world.disk.tasks[id]? = some row)
    (rests : AtRest (nodeAfter events).world.disk row)
    (visible : ∀ ctx ∈ callers, Visible ctx (nodeAfter events).world.disk row)
    : nodeAfter (events ++ polls id callers) = nodeAfter events
      ∧ ∀ before ctx after, callers = before ++ ctx :: after
        → (nodeAfter (events ++ polls id before)).answer (.runTaskStep ctx id) []
          = some (.done (.task row)) := by
  have polled (ctx : Ctx) (sees : Visible ctx (nodeAfter events).world.disk row)
      : invoke (.runTaskStep ctx id) (nodeAfter events).world []
        = (.done (.task row), (nodeAfter events).world, []) := by
    change (Reply.task <$> runTaskStep ctx id) (nodeAfter events).world [] = _
    rw [Program.map_run, runTaskStep_at_rest stored sees rests unstopped]
    rfl
  have kept (earlier : List Ctx)
      (visible : ∀ ctx ∈ earlier, Visible ctx (nodeAfter events).world.disk row)
      : nodeAfter (events ++ polls id earlier) = nodeAfter events := by
    induction earlier using List.reverseRecOn with
    | nil => rw [polls, List.map_nil, List.append_nil]
    | append_singleton earlier ctx ih =>
        have same := ih fun other member => visible other (List.mem_append_left _ member)
        rw [polls, List.map_append, ← List.append_assoc, ← polls, List.map_singleton,
          nodeAfter_concat, same]
        simp only [Machine.step, up, Bool.not_true, Bool.false_eq_true, if_false,
          polled ctx (visible ctx (List.mem_append_right _ (List.mem_singleton_self ctx)))]
        rw [← up]
  refine ⟨kept callers visible, ?_⟩
  rintro before ctx after rfl
  rw [kept before fun other member => visible other (List.mem_append_left _ member),
    Machine.answer_up up, polled ctx (visible ctx (by simp))]

end Polls

attribute [local instance] plainLibraries

section Run

private def pollerCtx : Ctx where
  principal := .machine "n1" "cli"
  clearance := ⟨.personal, true⟩
  partition := "local"
  nowMs := 5

/-- A task whose harness waits, over a STOP of the node and its RESUME. -/
private def pausedEvents : List Event :=
  [.open "state" "n1" false 0 [],
    .call (.createTask pollerCtx "write" "text" Label.bottom [.harness "tests"]) [],
    .call (.runTaskStep pollerCtx "task-n1-2") [],
    .call (.stop { pollerCtx with principal := .human "node:n1" } "node") [],
    .call (.runTaskStep pollerCtx "task-n1-2") [],
    .call (.resume { pollerCtx with principal := .human "node:n1" } "stop-n1-3") []]

private def pausedTask : Task where
  id := "task-n1-2"
  register := ⟨"reg-n1-1"⟩
  goal := "write"
  artefactType := "text"
  steps := [⟨.harness "tests", .waitingHuman, some 5, none, 0⟩]
  status := .stopped
  createdMs := 5

private theorem paused_facts
    : (nodeAfter pausedEvents).up = true
      ∧ (nodeAfter pausedEvents).world.kernel.stops.stopped "node" = false
      ∧ (nodeAfter pausedEvents).world.disk.tasks["task-n1-2"]? = some pausedTask
      ∧ ((nodeAfter pausedEvents).world.disk.registers["reg-n1-1"]?).any
          (·.label.flowsTo pollerCtx.clearance) = true := by
  decide +kernel

/-- Its polls change nothing and answer the row the STOP left. -/
theorem paused_polling_is_free
    : nodeAfter (pausedEvents ++ polls "task-n1-2" [pollerCtx, pollerCtx]) = nodeAfter pausedEvents
      ∧ (nodeAfter (pausedEvents ++ polls "task-n1-2" [pollerCtx])).answer
          (.runTaskStep pollerCtx "task-n1-2") [] = some (.done (.task pausedTask)) := by
  obtain ⟨up, unstopped, stored, cleared⟩ := paused_facts
  have rests : AtRest (nodeAfter pausedEvents).world.disk pausedTask :=
    Or.inr ⟨0, ⟨.harness "tests", .waitingHuman, some 5, none, 0⟩, rfl, rfl, Or.inl ⟨"tests", rfl⟩⟩
  have visible : ∀ ctx ∈ [pollerCtx, pollerCtx],
      Visible ctx (nodeAfter pausedEvents).world.disk pausedTask := by
    intro ctx member
    obtain rfl : ctx = pollerCtx := by simpa using member
    exact Option.any_eq_true _ _ |>.mp cleared
  obtain ⟨kept, answers⟩ := polling_is_free pausedEvents "task-n1-2" pausedTask
    [pollerCtx, pollerCtx] up unstopped stored rests visible
  exact ⟨kept, answers [pollerCtx] pollerCtx [] rfl⟩

end Run

end VerticalAI.Correctness
