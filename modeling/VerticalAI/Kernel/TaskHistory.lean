import VerticalAI.Kernel.ApprovalHistory
import VerticalAI.Kernel.MintEffects
import VerticalAI.Kernel.TaskMoves

/-! The tasks of a node over its runs: every row was created untouched, under a new id, and only the
scheduler moves it.
-/

namespace VerticalAI.Kernel
open VerticalAI.Foundation VerticalAI.Contracts VerticalAI.Store

/-- What one event does to the rows: none goes, one that changes is a scheduled one that is moved,
and new ones are untouched.
-/
structure TasksMove (scheduled : String → Prop) (disk after : StateDir) : Prop where
  kept : ∀ (id : String) (row : Task), disk.tasks[id]? = some row
    → ∃ later, after.tasks[id]? = some later
      ∧ (later = row ∨ scheduled id ∧ ¬row.Terminal ∧ row.Moved later)
  added : ∀ (id : String) (row : Task), after.tasks[id]? = some row → disk.tasks[id]? = none
    → row.Untouched

theorem TasksMove.same {scheduled : String → Prop} {disk after : StateDir}
    (tasks : after.tasks = disk.tasks)
    : TasksMove scheduled disk after := by
  refine ⟨fun id row held => ⟨row, tasks ▸ held, Or.inl rfl⟩, fun id row held absent => ?_⟩
  rw [tasks, absent] at held
  cases held

/-- Every row is filed under its own minted id. -/
def TasksMinted (disk : StateDir) : Prop :=
  ∀ (id : String) (row : Task), disk.tasks[id]? = some row → row.id = id ∧ disk.Minted id

theorem TasksMinted.mono {disk after : StateDir} (minted : TasksMinted disk)
    (tasks : after.tasks = disk.tasks) (grown : disk.numbered ≤ after.numbered)
    : TasksMinted after := by
  intro id row held
  obtain ⟨named, mint⟩ := minted id row (tasks ▸ held)
  exact ⟨named, mint.mono grown⟩

variable [Libraries]

/-- Creating a task files at most one new row, under a new id. -/
theorem createTask_moves (ctx : Ctx) (goal artefactType : String) (label : Label)
    (steps : List StepKind) {world after : World} (minted : TasksMinted world.disk)
    (supply : Supply 2 world) (faults : List Fault)
    (ran : after = (createTask ctx goal artefactType label steps world faults).2.1)
    {scheduled : String → Prop}
    : TasksMove scheduled world.disk after.disk ∧ TasksMinted after.disk := by
  have grown : world.disk.numbered ≤ after.disk.numbered :=
    ran ▸ (createTask_draws world faults supply).grown
  rcases createTask_effect ctx goal artefactType label steps world faults with
    quiet | ⟨reg, middle, submitted, filed⟩
  · rw [← ran] at quiet
    have tasks := same_of_trail quiet .tasks (by decide)
    exact ⟨.same tasks, minted.mono tasks grown⟩
  · have tasks : middle.disk.tasks = world.disk.tasks :=
      same_of_trail submitted.logged .tasks (by decide)
    obtain ⟨-, newTask, -⟩ := submitted.newIds supply
    rw [← ran] at filed
    rcases filed with rfl | ⟨row, untouched, named, -, rfl⟩
    · exact ⟨.same tasks, minted.mono tasks grown⟩
    · have new (id : String) (held : ∃ row, world.disk.tasks[id]? = some row) : id ≠ row.id := by
        obtain ⟨old, stored⟩ := held
        rw [named]
        exact newTask.ne (minted id old stored).2
      have placed (id : String) (other : Task)
          (held : (middle.disk.tasks.insert row.id row)[id]? = some other)
          : (id = row.id ∧ other = row) ∨ world.disk.tasks[id]? = some other :=
        tasks ▸ Table.getElem?_insert_inv held
      refine ⟨⟨fun id old held => ⟨old, ?_, Or.inl rfl⟩, fun id other held absent => ?_⟩,
        fun id other held => ?_⟩
      · change (middle.disk.tasks.insert row.id row)[id]? = some old
        rw [Table.getElem?_insert_ne (new id ⟨old, held⟩), tasks, held]
      · rcases placed id other held with ⟨-, rfl⟩ | there
        · exact untouched
        · rw [absent] at there
          cases there
      · rcases placed id other held with ⟨rfl, rfl⟩ | there
        · exact ⟨rfl, named ▸ newTask.minted⟩
        · exact ⟨(minted id other there).1, (minted id other there).2.mono grown⟩

/-- A call of the scheduler moves one row at most. -/
theorem runTaskStep_tasksMove (ctx : Ctx) (taskId : String) {world after : World}
    (minted : TasksMinted world.disk) (faults : List Fault)
    (ran : after = (runTaskStep ctx taskId world faults).2.1)
    : TasksMove (· = taskId) world.disk after.disk ∧ TasksMinted after.disk := by
  cases stored : world.disk.tasks[taskId]? with
  | none =>
      rw [runTaskStep_absent stored] at ran
      subst ran
      exact ⟨.same rfl, minted⟩
  | some old =>
      obtain ⟨rfl, mint⟩ := minted taskId old stored
      have trail : Trail (Within (.tasks :: stepAreas)) world after :=
        ran ▸ runTaskStep_emits.trail world faults
      have counters : after.counters = world.counters := counters_frame trail (by decide)
      have numbered : after.disk.numbered = world.disk.numbered := congrArg Prod.fst counters
      obtain ⟨row, held, moved⟩ := runTaskStep_row ctx stored faults
      have elsewhere {id : String} (other : id ≠ old.id)
          : after.disk.tasks[id]? = world.disk.tasks[id]? :=
        ran ▸ runTaskStep_elsewhere stored faults other
      rw [← ran] at held
      refine ⟨⟨fun id before there => ?_, fun id other there absent => ?_⟩, fun id other there => ?_⟩
      · by_cases same : id = old.id
        · subst same
          obtain rfl := Option.some.inj (there.symm.trans stored)
          exact ⟨row, held, moved.imp_right fun moved => ⟨rfl, moved⟩⟩
        · exact ⟨before, (elsewhere same).trans there, Or.inl rfl⟩
      · by_cases same : id = old.id
        · rw [same, stored] at absent
          cases absent
        · rw [elsewhere same, absent] at there
          cases there
      · by_cases same : id = old.id
        · subst same
          obtain rfl := Option.some.inj (there.symm.trans held)
          refine ⟨?_, mint.mono numbered.ge⟩
          rcases moved with rfl | ⟨-, moved⟩
          · rfl
          · exact moved.built.1.id
        · rw [elsewhere same] at there
          exact ⟨(minted id other there).1, (minted id other there).2.mono numbered.ge⟩

/-- A call of the scheduler for this task. -/
def Event.Schedules (event : Event) (id : String) : Prop :=
  ∃ ctx faults, event = .call (.runTaskStep ctx id) faults

/-- One event of a run moves the rows, by cases on the calls that write any. -/
theorem step_tasksMove {machine : Machine} {count : Nat} (numbering : Numbering machine count)
    (minted : TasksMinted machine.world.disk) (event : Event) (few : count + event.draws < 2 ^ 64)
    : TasksMove event.Schedules machine.world.disk (machine.step event).world.disk
      ∧ TasksMinted (machine.step event).world.disk := by
  have grown := (numbering.step event few).2
  rcases machine.step_cases event with ⟨call, faults, rfl, up, stepped⟩ | ⟨last, trail, stepped⟩
  · have supply := numbering.supply up few
    rw [stepped] at grown ⊢
    by_cases elsewhere : .tasks ∉ call.footprint
    · have trail := (invoke_emits call).trail machine.world faults
      have tasks := same_of_trail trail .tasks elsewhere
      exact ⟨.same tasks, minted.mono tasks grown⟩
    · cases call with
      | createTask ctx goal artefactType label steps =>
          refine createTask_moves ctx goal artefactType label steps minted supply faults ?_
          change ((Reply.task <$> createTask ctx goal artefactType label steps) machine.world
            faults).2.1 = _
          rw [Program.map_run]
      | runTaskStep ctx taskId =>
          obtain ⟨moves, kept⟩ := runTaskStep_tasksMove ctx taskId minted faults rfl
          have after : (invoke (.runTaskStep ctx taskId) machine.world faults).2.1
              = (runTaskStep ctx taskId machine.world faults).2.1 := by
            change ((Reply.task <$> runTaskStep ctx taskId) machine.world faults).2.1 = _
            rw [Program.map_run]
          rw [after]
          refine ⟨⟨fun id row held => ?_, moves.added⟩, kept⟩
          obtain ⟨later, there, moved⟩ := moves.kept id row held
          refine ⟨later, there, moved.imp_right ?_⟩
          rintro ⟨same, changed⟩
          exact ⟨⟨ctx, faults, same ▸ rfl⟩, changed⟩
      | _ => exact absurd (by simp [Call.footprint]) elsewhere
  · rw [stepped] at grown ⊢
    have tasks := same_of_trail trail .tasks (by decide)
    exact ⟨.same tasks, minted.mono tasks grown⟩

/-- By induction on a run that draws no number twice. -/
theorem nodeAfter_tasksMinted (events : List Event) (few : drawn events < 2 ^ 64)
    : TasksMinted (nodeAfter events).world.disk := by
  induction events using List.reverseRecOn with
  | nil => exact fun id row held => nomatch held
  | append_singleton events event ih =>
      have fewer := drawn_lt_of_append few
      rw [drawn_append, drawn_cons, drawn_nil, Nat.add_zero] at few
      rw [nodeAfter_concat]
      exact (step_tasksMove (numbering_run events fewer) (ih fewer) event few).2

/-- The last event of such a run moves the rows. -/
theorem nodeAfter_tasksMove {events : List Event} {event : Event}
    (few : drawn (events ++ [event]) < 2 ^ 64)
    : TasksMove event.Schedules (nodeAfter events).world.disk
        (nodeAfter (events ++ [event])).world.disk := by
  have fewer := drawn_lt_of_append few
  have minted := nodeAfter_tasksMinted events fewer
  rw [drawn_append, drawn_cons, drawn_nil, Nat.add_zero] at few
  rw [nodeAfter_concat]
  exact (step_tasksMove (numbering_run events fewer) minted event few).1

/-- No event but a call of the scheduler for a task changes its row. -/
theorem nodeAfter_unscheduled {events : List Event} {event : Event} {id : String}
    (few : drawn (events ++ [event]) < 2 ^ 64) (other : ¬event.Schedules id) {row : Task}
    (stored : (nodeAfter events).world.disk.tasks[id]? = some row)
    : (nodeAfter (events ++ [event])).world.disk.tasks[id]? = some row := by
  obtain ⟨later, there, same | ⟨scheduled, -⟩⟩ := (nodeAfter_tasksMove few).kept id row stored
  · rw [there, same]
  · exact absurd scheduled other

end VerticalAI.Kernel
