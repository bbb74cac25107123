import VerticalAI.Kernel.TaskViews

/-! Task views do not interfere: what a caller sees of tasks is determined by the tasks the caller
is cleared for.
-/

namespace VerticalAI.Correctness
open VerticalAI.Foundation VerticalAI.Contracts VerticalAI.Kernel

/-- The state without its tasks and registers. -/
def withoutTasks (world : World) : World :=
  world.onDisk fun disk => { disk with tasks := ∅, registers := ∅ }

/-- No register is stored under this id that the clearance reaches. -/
def RegisterHidden (disk : StateDir) (clearance : Clearance) (id : String) : Prop :=
  ∀ reg, disk.registers[id]? = some reg → ¬reg.label.flowsTo clearance = true

/-- No task is stored under this id whose register the clearance reaches. -/
def TaskHidden (disk : StateDir) (clearance : Clearance) (id : String) : Prop :=
  ∀ row, disk.tasks[id]? = some row → RegisterHidden disk clearance row.register.text

/-- The states agree on everything except tasks whose register the clearance does not reach, and
those registers.
-/
structure AgreeBelow (clearance : Clearance) (first second : World) : Prop where
  others : withoutTasks first = withoutTasks second
  registers : ∀ id, first.disk.registers[id]? = second.disk.registers[id]?
    ∨ RegisterHidden first.disk clearance id ∧ RegisterHidden second.disk clearance id
  tasks : ∀ id, first.disk.tasks[id]? = second.disk.tasks[id]?
    ∨ TaskHidden first.disk clearance id ∧ TaskHidden second.disk clearance id

variable {clearance : Clearance} {first second : World}

theorem shows_eq_false {disk : StateDir} {row : Task}
    (hidden : RegisterHidden disk clearance row.register.text)
    : disk.shows clearance row = false := by
  rw [StateDir.shows, Option.any_eq_false]
  exact fun reg stored => eq_false_of_ne_true (hidden reg stored)

theorem shown_eq_none {disk : StateDir} {id : String} (hidden : TaskHidden disk clearance id)
    : disk.shown clearance id = none := by
  rw [StateDir.shown, Option.filter_eq_none_iff]
  intro row stored shows
  rw [shows_eq_false (hidden row stored)] at shows
  cases shows

namespace AgreeBelow

/-- A row is shown in both states or in neither, by cases on its register. -/
theorem shows (agree : AgreeBelow clearance first second) (row : Task)
    : first.disk.shows clearance row = second.disk.shows clearance row := by
  rcases agree.registers row.register.text with same | ⟨left, right⟩
  · unfold StateDir.shows
    rw [same]
  · rw [shows_eq_false left, shows_eq_false right]

/-- The same row is shown under an id, by cases on whether the task is hidden. -/
theorem shown (agree : AgreeBelow clearance first second) (id : String)
    : first.disk.shown clearance id = second.disk.shown clearance id := by
  rcases agree.tasks id with same | ⟨left, right⟩
  · have filters : first.disk.shows clearance = second.disk.shows clearance := funext agree.shows
    unfold StateDir.shown
    rw [same, filters]
  · rw [shown_eq_none left, shown_eq_none right]

theorem shownTasks (agree : AgreeBelow clearance first second)
    : first.disk.shownTasks clearance = second.disk.shownTasks clearance :=
  StateDir.shownTasks_congr agree.shown

theorem topView (agree : AgreeBelow clearance first second)
    : first.topView clearance = second.topView clearance := by
  have kernel := congrArg World.kernel agree.others
  have stats := congrArg (·.disk.stats) agree.others
  have liveness := congrArg (·.disk.liveness) agree.others
  change first.kernel = second.kernel at kernel
  change first.disk.stats = second.disk.stats at stats
  change first.disk.liveness = second.disk.liveness at liveness
  unfold World.topView
  rw [kernel, stats, liveness, agree.shownTasks]

theorem taskEntry (agree : AgreeBelow clearance first second) (path : String)
    (rest : List String)
    : first.disk.taskEntry clearance path rest = second.disk.taskEntry clearance path rest := by
  unfold StateDir.taskEntry
  rw [agree.shownTasks]
  simp only [agree.shown]

end AgreeBelow

-----------------------------------------------------------------------------------------
-- The views
-----------------------------------------------------------------------------------------

section Views

variable [Libraries]

/-- Two states that agree below a clearance have the same views of tasks for it; and a task that is
hidden is answered like one that is not stored, with the state as it was.
-/
theorem task_views_do_not_interfere (ctx : Ctx) (agree : AgreeBelow ctx.clearance first second)
    : (tasks ctx first []).1 = (tasks ctx second []).1
        ∧ (∀ id, (task ctx id first []).1 = (task ctx id second []).1)
        ∧ (top ctx first []).1 = (top ctx second []).1
        ∧ (∀ path rest, partsOf path = "tasks" :: rest
          → (resolve ctx path first []).1 = (resolve ctx path second []).1)
        ∧ ∀ id, TaskHidden first.disk ctx.clearance id
          → ((approvalSubject ctx id first []).1 = .failed (.notFound id)
              ∧ (runTaskStep ctx id first []).1 = .failed (.notFound id))
            ∧ (∀ other : World, other.disk.tasks[id]? = none
              → (approvalSubject ctx id first []).1 = (approvalSubject ctx id other []).1
                ∧ (runTaskStep ctx id first []).1 = (runTaskStep ctx id other []).1)
            ∧ ∀ faults, (approvalSubject ctx id first faults).2.1 = first
              ∧ (runTaskStep ctx id first faults).2.1 = first := by
  refine ⟨?_, fun id => ?_, ?_, fun path rest under => ?_, fun id hidden => ?_⟩
  · rw [tasks_working, tasks_working, agree.shownTasks]
  · rw [task_working, task_working, agree.shown]
  · rw [top_working, top_working, agree.topView]
  · rw [resolve_working under, resolve_working under, agree.taskEntry]
  · have absent : first.disk.shown ctx.clearance id = none := shown_eq_none hidden
    refine ⟨⟨?_, ?_⟩, fun other missing => ?_, fun faults => ⟨?_, ?_⟩⟩
    · rw [approvalSubject_unshown absent]
    · rw [runTaskStep_unshown absent]
    · have unknown : other.disk.shown ctx.clearance id = none := by
        rw [StateDir.shown, missing]
        rfl
      rw [approvalSubject_unshown absent, approvalSubject_unshown unknown,
        runTaskStep_unshown absent, runTaskStep_unshown unknown]
      exact ⟨rfl, rfl⟩
    · exact approvalSubject_emits.still first faults
    · exact runTaskStep_hidden (hidden_of_shown_none absent) faults

end Views

attribute [local instance] plainLibraries

section Run

private def visitorCtx : Ctx where
  principal := .machine "n1" "cli"
  clearance := ⟨.public, false⟩
  partition := "local"
  nowMs := 5

/-- A task about something personal. -/
private def personalTask : Task :=
  { id := "task-1", register := ⟨"reg-1"⟩, goal := "write", artefactType := "text", steps := []
    status := .queued, createdMs := 5 }

private def personalRegister : Register :=
  { id := ⟨"reg-1"⟩, taskId := "task-1", label := ⟨.personal, .own, ∅⟩, goal := "write"
    constraints := [], evidence := [], decisions := [], openQuestions := [], artefacts := [] }

private def emptyWorld : World where
  disk := {}
  kernel := { nodeId := "n1", stateDir := "state", clock := HlcClock.new "n1" }

private def personalWorld : World :=
  emptyWorld.onDisk fun disk =>
    { disk with
      tasks := disk.tasks.insert "task-1" personalTask
      registers := disk.registers.insert "reg-1" personalRegister }

private theorem personal_register {id : String} {reg : Register}
    (stored : personalWorld.disk.registers[id]? = some reg)
    : id = "reg-1" ∧ reg = personalRegister := by
  rcases Table.getElem?_insert_inv stored with found | found
  · exact found
  · change (∅ : Table Register)[id]? = some reg at found
    rw [Std.ExtTreeMap.getElem?_empty] at found
    cases found

/-- A caller without clearance sees the state with a personal task like the one without. -/
theorem personal_task_does_not_interfere
    : (tasks visitorCtx personalWorld []).1 = (tasks visitorCtx emptyWorld []).1
        ∧ (runTaskStep visitorCtx "task-1" personalWorld []).1 = .failed (.notFound "task-1") := by
  have registers : ∀ id, RegisterHidden personalWorld.disk visitorCtx.clearance id := by
    intro id reg stored
    obtain ⟨-, rfl⟩ := personal_register stored
    decide
  have hidden : ∀ id, TaskHidden personalWorld.disk visitorCtx.clearance id :=
    fun _ row _ => registers row.register.text
  have nothing {α : Type} {id : String} {row : α} {goal : Prop}
      (stored : (∅ : Table α)[id]? = some row) : goal := by
    rw [Std.ExtTreeMap.getElem?_empty] at stored
    cases stored
  have agree : AgreeBelow visitorCtx.clearance personalWorld emptyWorld :=
    { others := rfl
      registers := fun id => Or.inr ⟨registers id, fun _ stored => nothing stored⟩
      tasks := fun id => Or.inr ⟨hidden id, fun _ stored => nothing stored⟩ }
  obtain ⟨tasks, -, -, -, answers⟩ := task_views_do_not_interfere visitorCtx agree
  exact ⟨tasks, (answers "task-1" (hidden "task-1")).1.2⟩

end Run

end VerticalAI.Correctness
