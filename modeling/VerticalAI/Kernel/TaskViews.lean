import VerticalAI.Kernel.Namespace
import VerticalAI.Kernel.CallGuard

/-! What the views of tasks answer on working storage: the stored tasks whose register the caller
is cleared for, and nothing of the others.
-/

namespace VerticalAI.Kernel
open VerticalAI.Foundation VerticalAI.Contracts VerticalAI.Store

/-- The caller is cleared for the row's register, which is stored. -/
def StateDir.shows (disk : StateDir) (clearance : Clearance) (row : Task) : Bool :=
  disk.registers[row.register.text]?.any (·.label.flowsTo clearance)

/-- The task under this id, if the caller is cleared for it. -/
def StateDir.shown (disk : StateDir) (clearance : Clearance) (id : String) : Option Task :=
  disk.tasks[id]?.filter (disk.shows clearance)

/-- The tasks the caller is cleared for, in the order of their ids. -/
def StateDir.shownTasks (disk : StateDir) (clearance : Clearance) : List Task :=
  (disk.tasks.list.filter fun row => disk.shows clearance row.2).map (·.2)

/-- The tasks shown under each id determine the list of them. -/
theorem StateDir.shownTasks_congr {first second : StateDir} {clearance : Clearance}
    (same : ∀ id, first.shown clearance id = second.shown clearance id)
    : first.shownTasks clearance = second.shownTasks clearance := by
  have tables : first.tasks.filter (fun _ row => first.shows clearance row)
      = second.tasks.filter (fun _ row => second.shows clearance row) := by
    refine Std.ExtTreeMap.ext_getElem? fun id => ?_
    rw [Std.ExtTreeMap.getElem?_filter', Std.ExtTreeMap.getElem?_filter']
    exact same id
  have lists := congrArg Table.list tables
  rw [Table.list, Table.list, Std.ExtTreeMap.toList_filter, Std.ExtTreeMap.toList_filter] at lists
  exact congrArg (List.map (·.2)) lists

variable {ctx : Ctx} {world : World}

theorem visibleTo_working (row : Task)
    : visibleTo ctx row world [] = (.done (world.disk.shows ctx.clearance row), world, []) := rfl

theorem task_working (id : String)
    : task ctx id world [] = (.done (world.disk.shown ctx.clearance id), world, []) := by
  have read : taskRow id world [] = (.done world.disk.tasks[id]?, world, []) := rfl
  unfold task StateDir.shown
  rw [Program.bind_done read]
  cases world.disk.tasks[id]? with
  | none => rfl
  | some row =>
      dsimp only
      rw [Program.bind_done (visibleTo_working row), Option.filter_some]
      split <;> rfl

/-- By induction on the rows. -/
theorem keepVisible_working (rows : List Task)
    : keepVisible ctx rows world []
      = (.done (rows.filter (world.disk.shows ctx.clearance)), world, []) := by
  induction rows with
  | nil => rfl
  | cons row rest ih =>
      unfold keepVisible
      rw [Program.bind_done (visibleTo_working row), Program.bind_done ih, List.filter_cons]
      rfl

theorem tasks_working
    : tasks ctx world [] = (.done (world.disk.shownTasks ctx.clearance), world, []) := by
  have read : loadOr [] (·.tasks.list) world [] = (.done world.disk.tasks.list, world, []) := rfl
  unfold tasks
  rw [Program.bind_done read, keepVisible_working, StateDir.shownTasks, List.filter_map]
  rfl

/-- What the operator's screen shows. -/
def World.topView (world : World) (clearance : Clearance) : TopView where
  arches := world.disk.stats
  tasks := .ofList ((world.disk.shownTasks clearance).map fun row => (row.id, row.status)) compare
  stoppedScopes := world.kernel.stops.stoppedScopes
  liveness := world.disk.liveness.map fun _ lease => lease.expiresAtMs

theorem top_working : top ctx world [] = (.done (world.topView ctx.clearance), world, []) := by
  have read : loadOr ∅ (·.stats) world [] = (.done world.disk.stats, world, []) := rfl
  unfold top
  rw [Program.bind_done read, Program.bind_done tasks_working]
  rfl

/-- What the namespace answers for a path under `/tasks`. -/
def StateDir.taskEntry (disk : StateDir) (clearance : Clearance) (path : String)
    : List String → Outcome KernelError Entry
  | [] => .done (.dir ((disk.shownTasks clearance).map (·.id)))
  | [id] =>
      match disk.shown clearance id with
      | some row => .done (.task row)
      | none => .failed (.notFound path)
  | _ => .failed (.notFound path)

theorem resolve_working {path : String} {rest : List String}
    (under : partsOf path = "tasks" :: rest)
    : resolve ctx path world [] = (world.disk.taskEntry ctx.clearance path rest, world, []) := by
  unfold resolve StateDir.taskEntry
  rw [under]
  rcases rest with _ | ⟨id, _ | ⟨other, more⟩⟩
  · change (tasks ctx >>= fun rows => pure (Entry.dir (rows.map (·.id)))) world [] = _
    rw [Program.bind_done tasks_working]
    rfl
  · change (task ctx id >>= fun row => foundAt path (row.map .task)) world [] = _
    rw [Program.bind_done (task_working id)]
    dsimp only
    cases world.disk.shown ctx.clearance id with
    | none => rfl
    | some row => rfl
  · rfl

theorem visible_iff_shows {row : Task}
    : Visible ctx world.disk row ↔ world.disk.shows ctx.clearance row = true := by
  unfold Visible StateDir.shows
  rw [Option.any_eq_true]

/-- A task that is not shown may be stored, but not where the caller is cleared for it. -/
theorem hidden_of_shown_none {id : String} (absent : world.disk.shown ctx.clearance id = none)
    (row : Task) (stored : world.disk.tasks[id]? = some row)
    : ¬Visible ctx world.disk row := by
  intro visible
  rw [StateDir.shown, stored, Option.filter_some, if_pos (visible_iff_shows.mp visible)] at absent
  cases absent

variable [Libraries]

/-- Asking for the subject of a task that is not shown answers that it was not found. -/
theorem approvalSubject_unshown {id : String}
    (absent : world.disk.shown ctx.clearance id = none)
    : approvalSubject ctx id world [] = (.failed (.notFound id), world, []) := by
  unfold approvalSubject
  rw [Program.bind_done (task_working id), absent]
  rfl

/-- And so does running its next step. -/
theorem runTaskStep_unshown {id : String} (absent : world.disk.shown ctx.clearance id = none)
    : runTaskStep ctx id world [] = (.failed (.notFound id), world, []) := by
  unfold runTaskStep
  rw [Program.bind_done (task_working id), absent]
  rfl

omit [Libraries] in
/-- The rows that are kept are among the given ones, and visible; by induction on the rows. -/
theorem keepVisible_done {rows kept : List Task} {after : World} {faults rest : List Fault}
    (ran : keepVisible ctx rows world faults = (.done kept, after, rest))
    : ∀ row ∈ kept, row ∈ rows ∧ Visible ctx world.disk row := by
  induction rows generalizing kept faults rest after with
  | nil =>
      cases ran
      exact fun _ member => absurd member List.not_mem_nil
  | cons first others ih =>
      obtain ⟨shown, middle, left, checked, more⟩ := Program.bind_done_inv ran
      obtain ⟨later, last, right, read, result⟩ := Program.bind_done_inv more
      have still : (visibleTo ctx first world faults).2.1 = world :=
        visibleTo_emits.still world faults
      rw [checked] at still
      obtain rfl : middle = world := still
      have among := ih read
      intro row member
      cases shown with
      | false =>
          cases result
          exact ⟨.tail _ (among row member).1, (among row member).2⟩
      | true =>
          cases result
          cases member with
          | head => exact ⟨.head _, visibleTo_done checked⟩
          | tail _ member => exact ⟨.tail _ (among row member).1, (among row member).2⟩

omit [Libraries] in
/-- A task that is listed is stored, and visible. -/
theorem tasks_done {rows : List Task} {after : World} {faults rest : List Fault}
    (ran : tasks ctx world faults = (.done rows, after, rest))
    : ∀ row ∈ rows, (∃ id : String, world.disk.tasks[id]? = some row)
        ∧ Visible ctx world.disk row := by
  obtain ⟨stored, middle, left, read, kept⟩ := Program.bind_done_inv ran
  obtain ⟨found, rfl⟩ := loadOr_done read
  intro row member
  obtain ⟨listed, visible⟩ := keepVisible_done kept row member
  refine ⟨?_, visible⟩
  obtain ⟨entry, place, rfl⟩ := List.mem_map.mp listed
  rcases found with rfl | rfl
  · exact ⟨entry.1, Table.mem_list.mp place⟩
  · cases place

/-- The answer of a view of tasks shows this caller the task with this id. -/
inductive Appears (ctx : Ctx) (id : String) : Call → Reply → Prop
  | task (row : Task) : Appears ctx id (.task ctx id) (.found (some row))
  | tasks {rows : List Task} {row : Task} (member : row ∈ rows) (named : row.id = id)
      : Appears ctx id (.tasks ctx) (.tasks rows)
  | top {view : TopView} {status : TaskStatus} (listed : view.tasks[id]? = some status)
      : Appears ctx id (.top ctx) (.top view)
  | listing {path : String} {names : List String} (under : partsOf path = ["tasks"])
      (member : id ∈ names)
      : Appears ctx id (.resolve ctx path) (.entry (.dir names))
  | entry {path : String} {entry : Entry} (under : partsOf path = ["tasks", id])
      : Appears ctx id (.resolve ctx path) (.entry entry)
  | subject (subject : String) : Appears ctx id (.approvalSubject ctx id) (.text subject)
  | step (row : Task) : Appears ctx id (.runTaskStep ctx id) (.task row)

omit [Libraries] in
theorem listed_visible {id : String} {rows : List Task} {after : World}
    {faults rest : List Fault} (keyed : TasksKeyed world.disk)
    (ran : tasks ctx world faults = (.done rows, after, rest)) {row : Task}
    (member : row ∈ rows) (named : row.id = id)
    : ∃ row, world.disk.tasks[id]? = some row ∧ Visible ctx world.disk row := by
  obtain ⟨⟨key, stored⟩, visible⟩ := tasks_done ran row member
  have filed := keyed key row stored
  rw [← filed, named] at stored
  exact ⟨row, stored, visible⟩

omit [Libraries] in
/-- The tasks on the operator's screen are those that are listed. -/
theorem top_done {view : TopView} {after : World} {faults rest : List Fault}
    (ran : top ctx world faults = (.done view, after, rest)) {id : String} {status : TaskStatus}
    (listed : view.tasks[id]? = some status)
    : ∃ rows middle before left,
        tasks ctx world before = (.done rows, middle, left) ∧ ∃ row ∈ rows, row.id = id := by
  obtain ⟨stats, middle, left, read, screen⟩ := Program.bind_done_inv ran
  obtain ⟨-, rfl⟩ := loadOr_done read
  obtain ⟨rows, last, right, shown, built⟩ := Program.bind_done_inv screen
  refine ⟨rows, last, left, right, shown, ?_⟩
  obtain ⟨stops, late, more, observed, filled⟩ := Program.bind_done_inv built
  obtain ⟨leases, final, end', fetched, result⟩ := Program.bind_done_inv filled
  cases result
  by_contra absent
  have missing : (Std.ExtTreeMap.ofList (rows.map fun row => (row.id, row.status)) compare)[id]?
      = none := by
    apply Std.ExtTreeMap.getElem?_ofList_of_contains_eq_false
    rw [Bool.eq_false_iff, ne_eq, List.contains_iff_mem, List.mem_map]
    rintro ⟨entry, member, named⟩
    obtain ⟨row, among, rfl⟩ := List.mem_map.mp member
    exact absent ⟨row, among, named⟩
  rw [missing] at listed
  cases listed

omit [Libraries] in
/-- A call that read a task and was not told that there is none was shown the task. -/
theorem shown_visible {id : String} {β : Type} {next : Option Task → Syscall β} {value : β}
    {faults rest : List Fault} {after : World}
    (ran : (task ctx id >>= next) world faults = (.done value, after, rest))
    (missing : ∀ middle left, next none middle left ≠ (.done value, after, rest))
    : ∃ row, world.disk.tasks[id]? = some row ∧ Visible ctx world.disk row := by
  obtain ⟨row, middle, left, read, result⟩ := Program.bind_done_inv ran
  cases row with
  | none => exact absurd result (missing middle left)
  | some row => exact ⟨row, task_done read⟩

/-- A task that appears in a view is stored and visible to the caller, by cases on the view. -/
theorem appears_visible {id : String} {call : Call} {reply : Reply} {faults : List Fault}
    {after : World} {rest : List Fault} (keyed : TasksKeyed world.disk)
    (ran : invoke call world faults = (.done reply, after, rest))
    (appears : Appears ctx id call reply)
    : ∃ row, world.disk.tasks[id]? = some row ∧ Visible ctx world.disk row := by
  cases appears with
  | task row =>
      obtain ⟨shown, answered, same⟩ := Program.map_done_inv ran
      obtain rfl := Reply.found.inj same
      exact ⟨row, task_done answered⟩
  | tasks member named =>
      obtain ⟨shown, answered, same⟩ := Program.map_done_inv ran
      obtain rfl := Reply.tasks.inj same
      exact listed_visible keyed answered member named
  | top listed =>
      obtain ⟨shown, answered, same⟩ := Program.map_done_inv ran
      obtain rfl := Reply.top.inj same
      obtain ⟨rows, middle, before, left, read, row, member, named⟩ := top_done answered listed
      exact listed_visible keyed read member named
  | listing under member =>
      obtain ⟨shown, answered, same⟩ := Program.map_done_inv ran
      obtain rfl := Reply.entry.inj same
      unfold resolve at answered
      rw [under] at answered
      obtain ⟨rows, middle, left, read, result⟩ := Program.bind_done_inv answered
      cases result
      obtain ⟨row, among, named⟩ := List.mem_map.mp member
      exact listed_visible keyed read among named
  | entry under =>
      obtain ⟨shown, answered, same⟩ := Program.map_done_inv ran
      unfold resolve at answered
      rw [under] at answered
      exact shown_visible answered fun _ _ refused => by cases refused
  | subject subject =>
      obtain ⟨shown, answered, same⟩ := Program.map_done_inv ran
      exact shown_visible answered fun _ _ refused => by cases refused
  | step row =>
      obtain ⟨shown, answered, same⟩ := Program.map_done_inv ran
      exact shown_visible answered fun _ _ refused => by cases refused

end VerticalAI.Kernel
