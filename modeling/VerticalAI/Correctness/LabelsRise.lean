import VerticalAI.Kernel.ApprovalHistory
import VerticalAI.Kernel.RegisterLabels
import VerticalAI.Kernel.TaskViews

/-! Labels never go down, in runs where no call asks for it; and a call can ask for it. -/

namespace VerticalAI.Correctness
open VerticalAI.Foundation VerticalAI.Contracts VerticalAI.Kernel

section Runs

variable [Libraries]

/-- The event asks for no label that is below the stored one. -/
def KeepsLabelsAt (before : List Event) (event : Event) : Prop :=
  ∀ call faults, event = .call call faults
    → KeepsStoredLabels (nodeAfter before).world call

/-- A call submitted this register with this label and returned. -/
def SubmittedBy (label : Label) (id : RegisterId) (before : List Event) (event : Event) : Prop :=
  ∃ ctx goal faults,
    (event = .call (.submitTask ctx goal label) faults
      ∧ (nodeAfter before).answer (.submitTask ctx goal label) faults
        = some (.done (.registerId id)))
    ∨ ∃ artefactType steps row,
        event = .call (.createTask ctx goal artefactType label steps) faults
          ∧ (nodeAfter before).answer (.createTask ctx goal artefactType label steps) faults
            = some (.done (.task row))
          ∧ row.register = id

/-- A submitted register is stored with its label. -/
theorem submitted_stored {before : List Event} {event : Event} {label : Label} {id : RegisterId}
    (keeps : KeepsLabelsAt before event) (submitted : SubmittedBy label id before event)
    : ∃ reg, (nodeAfter (before ++ [event])).world.disk.registers[id.text]? = some reg
        ∧ reg.label = label := by
  rw [nodeAfter_concat]
  obtain ⟨ctx, goal, faults, ⟨rfl, answered⟩ | ⟨artefactType, steps, row, rfl, answered, rfl⟩⟩ :=
    submitted
  · have up := (Machine.step_call_up answered nofun).1
    have free := keeps _ _ rfl
    rw [Machine.answer_up up] at answered
    rw [Machine.step_call_world up]
    rcases ran : invoke (.submitTask ctx goal label) (nodeAfter before).world faults with
      ⟨outcome, after, rest⟩
    rw [ran] at answered
    obtain rfl := Option.some.inj answered
    obtain ⟨given, returned, same⟩ := Program.map_done_inv ran
    obtain rfl := Reply.registerId.inj same
    exact submitTask_raises.done free returned
  · have up := (Machine.step_call_up answered nofun).1
    have free := keeps _ _ rfl
    rw [Machine.answer_up up] at answered
    rw [Machine.step_call_world up]
    rcases ran : invoke (.createTask ctx goal artefactType label steps) (nodeAfter before).world
      faults with ⟨outcome, after, rest⟩
    rw [ran] at answered
    obtain rfl := Option.some.inj answered
    obtain ⟨given, returned, same⟩ := Program.map_done_inv ran
    obtain rfl := Reply.task.inj same
    exact createTask_raises.done free returned

/-- Labels do not go down over a whole run, by induction on what comes after. -/
theorem labels_rise {events : List Event}
    (keeps : ∀ before event after, events = before ++ event :: after → KeepsLabelsAt before event)
    (before after : List Event) (split : events = before ++ after)
    : LabelsRise (nodeAfter before).world.disk.registers
        (nodeAfter events).world.disk.registers := by
  subst split
  induction after using List.reverseRecOn with
  | nil =>
      rw [List.append_nil]
      exact LabelsRise.refl _
  | append_singleton after event ih =>
      have earlier := ih fun start now rest same =>
        keeps start now (rest ++ [event]) (by rw [← List.append_assoc, same, List.append_assoc,
          List.cons_append])
      have asked := keeps (before ++ after) event [] (List.append_assoc _ _ _).symm
      rw [← List.append_assoc, nodeAfter_concat]
      exact earlier.trans (Machine.step_labels ⟨_, rfl⟩ event asked)

/-- In every run in which no call asks for a lower label: labels do not go down, and a task whose
register was submitted with a label that a clearance does not reach appears in no view for it.
-/
theorem labels_never_go_down (events : List Event)
    (keeps : ∀ before event after, events = before ++ event :: after → KeepsLabelsAt before event)
    : (∀ before after, events = before ++ after
        → LabelsRise (nodeAfter before).world.disk.registers
            (nodeAfter events).world.disk.registers)
      ∧ ∀ label id, Happened events (SubmittedBy label id)
        → ∀ clearance, label.flowsTo clearance = false
        → ∀ (task : String) (row : Task),
            (nodeAfter events).world.disk.tasks[task]? = some row → row.register = id
        → ∀ ctx : Ctx, ctx.clearance = clearance
        → ∀ call faults reply, (nodeAfter events).answer call faults = some (.done reply)
          → ¬Appears ctx task call reply := by
  refine ⟨labels_rise keeps, ?_⟩
  rintro label id ⟨before, event, after, rfl, submitted⟩ clearance hidden task row stored rfl ctx
    rfl call faults reply answered appears
  obtain ⟨reg, held, rfl⟩ := submitted_stored (keeps before event after rfl) submitted
  have up := (Machine.step_call_up answered nofun).1
  rw [Machine.answer_up up] at answered
  rcases ran : invoke call (nodeAfter (before ++ event :: after)).world faults with
    ⟨outcome, last, rest⟩
  rw [ran] at answered
  obtain rfl := Option.some.inj answered
  have keyed : TasksKeyed (nodeAfter (before ++ event :: after)).world.disk :=
    Reachable.tasksKeyed ⟨_, rfl⟩
  obtain ⟨shown, present, visible⟩ := appears_visible keyed ran appears
  obtain rfl := Option.some.inj (stored.symm.trans present)
  obtain ⟨current, now, flows⟩ := visible
  obtain ⟨final, kept, below⟩ := labels_rise keeps (before ++ [event]) after
    (by rw [List.append_assoc, List.singleton_append]) row.register.text reg held
  obtain rfl := Option.some.inj (now.symm.trans kept)
  rw [Label.flowsTo_anti below flows] at hidden
  cases hidden

end Runs

attribute [local instance] plainLibraries

section Run

private def publicCtx : Ctx where
  principal := .machine "n1" "cli"
  clearance := ⟨.public, false⟩
  partition := "local"
  nowMs := 5

private def personal : Label := ⟨.personal, .own, ∅⟩

private def opening : Event := .open "state" "n1" false 0 []

/-- The register under the id it was given, as a caller may write it. -/
private def relabelled : Register where
  id := ⟨"reg-n1-1"⟩
  taskId := "task-n1-2"
  label := Label.bottom
  goal := "write"
  constraints := []
  evidence := []
  decisions := []
  openQuestions := []
  artefacts := []

private def ownerCtx : Ctx where
  principal := .machine "n1" "desk"
  clearance := ⟨.personal, false⟩
  partition := "local"
  nowMs := 4

private def business : Label := ⟨.business, .own, ∅⟩

/-- A task is created, its register taken to a higher label, and it stays out of sight below the
label it was submitted with.
-/
private def kept : List Event :=
  [opening, .call (.createTask ownerCtx "write" "letter" business []) [],
    .call (.writeRegister ownerCtx { relabelled with label := personal }) []]

private theorem kept_stored
    : (nodeAfter (kept.take 2)).world.disk.registers["reg-n1-1"]?
      = some { relabelled with label := business } := rfl

private theorem kept_keeps (before : List Event) (event : Event) (after : List Event)
    (split : kept = before ++ event :: after)
    : KeepsLabelsAt before event := by
  intro call faults called
  rcases before with _ | ⟨first, _ | ⟨second, _ | ⟨third, before⟩⟩⟩
  · cases split
    cases called
  · cases split
    cases called
    intro old held
    cases held
  · cases split
    cases called
    intro old held
    obtain rfl := Option.some.inj (held.symm.trans kept_stored)
    exact ⟨by decide, le_rfl, le_rfl⟩
  · simp [kept] at split

/-- A stored register whose label is raised keeps its task out of the views below. -/
theorem labels_never_go_down_of_rewriting
    : LabelsRise (nodeAfter (kept.take 2)).world.disk.registers
        (nodeAfter kept).world.disk.registers
      ∧ (∃ reg, (nodeAfter kept).world.disk.registers["reg-n1-1"]? = some reg
        ∧ reg.label = personal)
      ∧ ∃ rows, (nodeAfter kept).answer (.tasks publicCtx) [] = some (.done (.tasks rows))
        ∧ ¬Appears publicCtx "task-n1-2" (.tasks publicCtx) (.tasks rows) := by
  obtain ⟨rise, hidden⟩ := labels_never_go_down kept kept_keeps
  have created : Happened kept (SubmittedBy business ⟨"reg-n1-1"⟩) :=
    ⟨[opening], .call (.createTask ownerCtx "write" "letter" business []) [],
      [.call (.writeRegister ownerCtx { relabelled with label := personal }) []], rfl, ownerCtx,
      "write", [], Or.inr ⟨"letter", [], _, rfl, rfl, rfl⟩⟩
  have stored : ∃ row, (nodeAfter kept).world.disk.tasks["task-n1-2"]? = some row
      ∧ row.register = ⟨"reg-n1-1"⟩ := ⟨_, rfl, rfl⟩
  obtain ⟨row, held, named⟩ := stored
  refine ⟨rise (kept.take 2) (kept.drop 2) rfl, ⟨_, rfl, rfl⟩, _, rfl, ?_⟩
  exact hidden business _ created publicCtx.clearance rfl "task-n1-2" row held named publicCtx rfl
    (.tasks publicCtx) [] _ rfl

/-- A caller who may not read a register lowers its label by writing it. -/
theorem writing_lowers_a_label
    : ∃ ctx goal label reg,
        label.flowsTo ctx.clearance = false
        ∧ ¬LabelsRise
            (nodeAfter [opening, .call (.submitTask ctx goal label) []]).world.disk.registers
            (nodeAfter [opening, .call (.submitTask ctx goal label) [],
              .call (.writeRegister ctx reg) []]).world.disk.registers := by
  refine ⟨publicCtx, "write", personal, relabelled, rfl, fun rises => ?_⟩
  obtain ⟨reg, stored, below⟩ := rises "reg-n1-1" { relabelled with label := personal } rfl
  obtain rfl : reg = relabelled := Option.some.inj (stored.symm.trans rfl)
  exact absurd below.1 (by decide)

end Run

end VerticalAI.Correctness
