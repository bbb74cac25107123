import VerticalAI.Kernel.RecordEffects

/-! What the reads of the task surface return: when they return something, it is what is stored
and what the caller is cleared for.
-/

namespace VerticalAI.Kernel
open VerticalAI.Foundation VerticalAI.Contracts VerticalAI.Store

section Rows

variable {ctx : Ctx} {world after : World} {faults rest : List Fault}

theorem loadOr_done {α : Type} {absent value : α} {look : StateDir → α}
    (ran : loadOr absent look world faults = (.done value, after, rest))
    : (value = look world.disk ∨ value = absent) ∧ after = world := by
  rcases faults with _ | ⟨_ | reason | _, left⟩
  · cases ran
    exact ⟨Or.inl rfl, rfl⟩
  · cases ran
    exact ⟨Or.inl rfl, rfl⟩
  · cases ran
    exact ⟨Or.inr rfl, rfl⟩
  · cases ran

/-- The row's register is stored, and its label flows to the caller's clearance. -/
def Visible (ctx : Ctx) (disk : StateDir) (row : Task) : Prop :=
  ∃ reg, disk.registers[row.register.text]? = some reg ∧ reg.label.flowsTo ctx.clearance = true

theorem visibleTo_done {row : Task}
    (ran : visibleTo ctx row world faults = (.done true, after, rest))
    : Visible ctx world.disk row := by
  obtain ⟨reg, middle, left, read, result⟩ := Program.bind_done_inv ran
  obtain ⟨found, rfl⟩ := loadOr_done read
  simp only [Program.pure_run, Prod.mk.injEq, Outcome.done.injEq] at result
  obtain ⟨flows, -, -⟩ := result
  rcases found with rfl | rfl
  · rw [Option.any_eq_true] at flows
    exact flows
  · cases flows

/-- A task that is shown is stored, and visible. -/
theorem task_done {id : String} {row : Task}
    (ran : task ctx id world faults = (.done (some row), after, rest))
    : world.disk.tasks[id]? = some row ∧ Visible ctx world.disk row := by
  obtain ⟨stored, middle, left, read, shown⟩ := Program.bind_done_inv ran
  obtain ⟨found, rfl⟩ := loadOr_done read
  cases stored with
  | none => cases shown
  | some stored =>
      obtain ⟨visible, last, left, checked, result⟩ := Program.bind_done_inv shown
      cases visible with
      | false => cases result
      | true =>
          cases result
          rcases found with found | found
          · exact ⟨found.symm, visibleTo_done checked⟩
          · cases found

theorem readRegister_done {id : RegisterId} {reg : Register}
    (ran : readRegister ctx id world faults = (.done reg, after, rest))
    : world.disk.registers[id.text]? = some reg ∧ reg.label.flowsTo ctx.clearance = true := by
  obtain ⟨stored, middle, left, read, checked⟩ := Program.bind_done_inv ran
  obtain ⟨found, rfl⟩ := Program.fetch_done_inv read
  cases stored with
  | none => cases checked
  | some stored =>
      dsimp only at checked
      split at checked
      · next flows =>
          cases checked
          exact ⟨found.symm, flows⟩
      · cases checked

/-- The approvals found for a subject are stored and name it. -/
theorem approvalsFor_done {subject : String} {approvals : List Approval}
    (ran : approvalsFor subject world faults = (.done approvals, after, rest))
    : ∀ approval ∈ approvals,
        approval.subjectHash = subject
          ∧ ∃ key : String, world.disk.approvals[key]? = some approval := by
  obtain ⟨rows, middle, left, read, result⟩ := Program.bind_done_inv ran
  obtain ⟨found, rfl⟩ := loadOr_done read
  cases result
  intro approval member
  obtain ⟨listed, named⟩ := List.mem_filter.mp member
  refine ⟨of_decide_eq_true named, ?_⟩
  rcases found with rfl | rfl
  · obtain ⟨row, stored, rfl⟩ := List.mem_map.mp listed
    exact ⟨row.1, Table.mem_list.mp stored⟩
  · cases listed

/-- With working storage a stored task is shown to callers that may see it. -/
theorem task_visible {id : String} {row : Task} (stored : world.disk.tasks[id]? = some row)
    (visible : Visible ctx world.disk row)
    : task ctx id world [] = (.done (some row), world, []) := by
  obtain ⟨reg, held, flows⟩ := visible
  have read : taskRow id world [] = (.done (some row), world, []) := by
    rw [← stored]
    rfl
  have shown : visibleTo ctx row world [] = (.done true, world, []) := by
    have answered : visibleTo ctx row world []
        = (.done (world.disk.registers[row.register.text]?.any (·.label.flowsTo ctx.clearance)),
            world, []) := rfl
    rw [answered, held, Option.any_some, flows]
  unfold task
  rw [Program.bind_done read]
  dsimp only
  rw [Program.bind_done shown]
  rfl

/-- With working storage a stored register is read by callers that are cleared for it. -/
theorem readRegister_working {id : RegisterId} {reg : Register}
    (held : world.disk.registers[id.text]? = some reg)
    (flows : reg.label.flowsTo ctx.clearance = true)
    : readRegister ctx id world [] = (.done reg, world, []) := by
  have found : load (·.registers[id.text]?) world [] = (.done (some reg), world, []) := by
    rw [← held]
    rfl
  unfold readRegister
  rw [Program.bind_done found]
  dsimp only
  rw [if_pos flows]
  rfl

variable [Libraries]

/-- A subject is answered for a task at an approval step, from its register as stored. -/
theorem approvalSubject_done {taskId subject : String}
    (ran : approvalSubject ctx taskId world faults = (.done subject, after, rest))
    : ∃ row reg,
        world.disk.tasks[taskId]? = some row
          ∧ world.disk.registers[row.register.text]? = some reg
          ∧ reg.label.flowsTo ctx.clearance = true
          ∧ row.next.map (·.2.kind) = some .approve
          ∧ subject = Register.subject reg := by
  obtain ⟨shown, middle, left, read, answered⟩ := Program.bind_done_inv ran
  have same : middle = world := by
    have still : (task ctx taskId world faults).2.1 = world := task_emits.still world faults
    rwa [read] at still
  cases shown with
  | none => cases answered
  | some row =>
      obtain ⟨stored, -⟩ := task_done read
      dsimp only at answered
      split at answered
      · next current =>
          obtain ⟨reg, last, left, read, result⟩ := Program.bind_done_inv answered
          obtain ⟨found, flows⟩ := readRegister_done read
          cases result
          exact ⟨row, reg, stored, same ▸ found, flows, current, rfl⟩
      · cases answered

/-- With working storage the subject of a visible task at an approval step is answered. -/
theorem approvalSubject_working {taskId : String} {row : Task} {reg : Register}
    (stored : world.disk.tasks[taskId]? = some row)
    (held : world.disk.registers[row.register.text]? = some reg)
    (flows : reg.label.flowsTo ctx.clearance = true)
    (current : row.next.map (·.2.kind) = some .approve)
    : approvalSubject ctx taskId world [] = (.done (Register.subject reg), world, []) := by
  unfold approvalSubject
  rw [Program.bind_done (task_visible stored ⟨reg, held, flows⟩)]
  dsimp only
  rw [if_pos current, Program.bind_done (readRegister_working held flows)]
  rfl

end Rows

/-- The step in this place is done. -/
def Task.DoneAt (row : Task) (i : Nat) : Prop :=
  ∃ step, row.steps[i]? = some step ∧ step.status = .done

/-- The next step is not done, and all before it are. -/
theorem Task.next_some {row : Task} {i : Nat} {step : Step} (next : row.next = some (i, step))
    : row.steps[i]? = some step ∧ step.status ≠ .done ∧ ∀ j < i, row.DoneAt j := by
  rw [Task.next, Option.bind_eq_some_iff] at next
  obtain ⟨place, found, shown⟩ := next
  rw [Option.map_eq_some_iff] at shown
  obtain ⟨held, stored, same⟩ := shown
  obtain ⟨rfl, rfl⟩ := Prod.mk.inj same
  rw [List.findIdx?_eq_some_iff_getElem] at found
  obtain ⟨inside, undone, before⟩ := found
  rw [List.getElem?_eq_getElem inside] at stored
  obtain rfl := Option.some.inj stored
  refine ⟨List.getElem?_eq_getElem inside, of_decide_eq_true undone, fun j below => ?_⟩
  have done := before j below
  rw [Bool.not_eq_true, decide_eq_false_iff_not, not_not] at done
  exact ⟨_, List.getElem?_eq_getElem (below.trans inside), done⟩

/-- The first step that is not done is the next one. -/
theorem Task.next_eq_some {row : Task} {i : Nat} {step : Step} (placed : row.steps[i]? = some step)
    (undone : step.status ≠ .done) (before : ∀ j < i, row.DoneAt j)
    : row.next = some (i, step) := by
  obtain ⟨inside, held⟩ := List.getElem?_eq_some_iff.mp placed
  have found : row.steps.findIdx? (·.status ≠ .done) = some i := by
    rw [List.findIdx?_eq_some_iff_getElem]
    refine ⟨inside, ?_, fun j below => ?_⟩
    · rw [held]
      exact decide_eq_true undone
    · obtain ⟨earlier, there, done⟩ := before j below
      obtain ⟨_, same⟩ := List.getElem?_eq_some_iff.mp there
      rw [same, done]
      decide
  rw [Task.next, found]
  change row.steps[i]?.map (i, ·) = some (i, step)
  rw [placed, Option.map_some]

/-- With no next step all are done. -/
theorem Task.next_none {row : Task} (next : row.next = none)
    : ∀ step ∈ row.steps, step.status = .done := by
  rw [Task.next, Option.bind_eq_none_iff] at next
  intro step member
  by_contra undone
  obtain ⟨place, found⟩ : ∃ place, row.steps.findIdx? (·.status ≠ .done) = some place := by
    rw [← Option.isSome_iff_exists, List.findIdx?_isSome, List.any_eq_true]
    exact ⟨step, member, decide_eq_true undone⟩
  have absent := next place found
  rw [Option.map_eq_none_iff, List.getElem?_eq_none_iff] at absent
  rw [List.findIdx?_eq_some_iff_getElem] at found
  obtain ⟨inside, -⟩ := found
  omega

end VerticalAI.Kernel
