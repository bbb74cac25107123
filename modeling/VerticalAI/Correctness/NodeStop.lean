import VerticalAI.Kernel.StopInvariant

/-! What a STOP on the node halts: every step of every task, but of the automations only those
whose business is stopped or whose lease has run out.
-/

namespace VerticalAI.Correctness
open VerticalAI.Foundation VerticalAI.Contracts VerticalAI.Kernel

section Halting

variable [Libraries]

/-- No arch was called, no register changed and nothing went on the record. -/
structure NothingRan (world after : World) : Prop where
  sent : after.sent = world.sent
  registers : after.disk.registers = world.disk.registers
  ledger : after.disk.ledger = world.disk.ledger

theorem nothingRan_of_trail {areas : List Area} {world after : World}
    (trail : Trail (Within areas) world after) (quiet : areas ⊆ [.tasks])
    : NothingRan world after := by
  have widened : Trail (Within [.tasks]) world after :=
    trail.mono fun _ _ => Within.widen quiet
  exact ⟨same_of_trail widened .sent (by decide), same_of_trail widened .registers (by decide),
    (same_of_trail widened .record (by decide)).2.1⟩

/-- Under a STOP on the node a task's row may be restated, and nothing else happens. -/
theorem runTaskStep_halted {world : World}
    (stopped : world.kernel.stops.stopped "node" = true) (ctx : Ctx) (taskId : String)
    (faults : List Fault)
    : NothingRan world (runTaskStep ctx taskId world faults).2.1 := by
  have saved (row : Task) (faults : List Fault)
      : NothingRan world ((saveTask { row with status := .stopped } >>= fun _ =>
          (Program.fail (.stopped "node") : Syscall Task)) world faults).2.1 := by
    have emits : (saveTask { row with status := .stopped } >>= fun _ =>
        (Program.fail (.stopped "node") : Syscall Task)).Emits (Within [.tasks]) :=
      saveTask_emits.bind fun _ => Program.emits_fail
    exact nothingRan_of_trail (emits.trail world faults) (List.Subset.refl _)
  have still : (task ctx taskId world faults).2.1 = world := task_emits.still world faults
  unfold runTaskStep
  rcases ran : task ctx taskId world faults with ⟨row | error | _, same, rest⟩
  all_goals
    rw [ran] at still
    obtain rfl : same = world := still
  · rw [Program.bind_done ran]
    cases row with
    | none => exact ⟨rfl, rfl, rfl⟩
    | some row =>
        dsimp only
        split
        · exact ⟨rfl, rfl, rfl⟩
        · simp only [kernel, Program.observe_bind_run, stopped, if_true]
          exact saved row rest
  · rw [Program.bind_failed ran]
    exact ⟨rfl, rfl, rfl⟩
  · rw [Program.bind_crashed ran]
    exact ⟨rfl, rfl, rfl⟩

/-- The automations on the record. -/
def automations (world : World) : List LedgerEvent :=
  world.disk.ledger.filter (·.kind = "automation.ran")

/-- The run did not return and no automation went on the record. -/
def Halted (world : World) (run : Outcome KernelError Unit × World × List Fault) : Prop :=
  run.1 ≠ .done () ∧ automations run.2.1 = automations world

/-- The business is stopped, or no live lease lets it act unattended. -/
def Withheld (world : World) (business : String) (nowMs : UInt64) : Prop :=
  world.kernel.stops.stopped (businessScope business) = true
    ∨ ¬∃ lease, world.disk.liveness[business]? = some lease ∧ lease.alive nowMs = true

omit [Libraries] in
/-- The check of an automation fails exactly when it is withheld. -/
theorem i4Liveness_ok_iff {world : World} {business : String} {nowMs : UInt64}
    : i4Liveness business world.disk.liveness[business]? world.kernel.stops nowMs = .ok ()
      ↔ ¬Withheld world business nowMs := by
  have lives : (world.disk.liveness[business]?.any (·.alive nowMs) = true)
      ↔ ∃ lease, world.disk.liveness[business]? = some lease ∧ lease.alive nowMs = true := by
    cases world.disk.liveness[business]? with
    | none => simp
    | some lease => simp
  unfold i4Liveness Withheld
  rw [← lives]
  cases world.kernel.stops.stopped (businessScope business) with
  | true => simp
  | false => cases Option.any (·.alive nowMs) world.disk.liveness[business]? <;> simp

/-- A withheld automation is halted, whatever fails. -/
theorem runAutomation_halted {ctx : Ctx} (machine : ctx.principal.isHuman = false)
    {world : World} {business : String} (withheld : Withheld world business ctx.nowMs)
    (module : String) (faults : List Fault)
    : Halted world (runAutomation ctx business module world faults) := by
  have refused : ∃ error,
      i4Liveness business world.disk.liveness[business]? world.kernel.stops ctx.nowMs
        = .error error := by
    cases checked : i4Liveness business world.disk.liveness[business]? world.kernel.stops
        ctx.nowMs with
    | error error => exact ⟨error, rfl⟩
    | ok _ => exact absurd withheld (i4Liveness_ok_iff.mp checked)
  obtain ⟨error, refused⟩ := refused
  have ran (faults : List Fault)
      : (do
          Program.lift (i4Liveness business world.disk.liveness[business]?
            (← kernel (·.stops)) ctx.nowMs)
          log "automation.ran" ctx.nowMs (.arr [.str business, .str module])) world faults
        = (.failed error, world, faults) := by
    simp only [kernel, Program.observe_bind_run, refused, Program.lift_error,
      Program.fail_bind_run]
  have halted (faults : List Fault)
      : Halted world ((do
          Program.lift (i4Liveness business world.disk.liveness[business]?
            (← kernel (·.stops)) ctx.nowMs)
          log "automation.ran" ctx.nowMs (.arr [.str business, .str module])) world faults) := by
    rw [ran faults]
    exact ⟨fun same => (by cases same), rfl⟩
  unfold runAutomation
  simp only [machine, Bool.false_eq_true, if_false]
  rcases faults with _ | ⟨_ | reason | _, rest⟩
  · exact halted []
  · exact halted rest
  · exact ⟨fun same => (by cases same), rfl⟩
  · exact ⟨fun same => (by cases same), rfl⟩

/-- An automation that is not withheld runs, if nothing fails. -/
theorem runAutomation_runs {ctx : Ctx} (machine : ctx.principal.isHuman = false)
    {world : World} {business : String} (free : ¬Withheld world business ctx.nowMs)
    (module : String)
    : (runAutomation ctx business module world []).1 = .done () := by
  have checked := i4Liveness_ok_iff.mpr free
  have ran : runAutomation ctx business module world []
      = (do
          Program.lift (i4Liveness business world.disk.liveness[business]?
            (← kernel (·.stops)) ctx.nowMs)
          log "automation.ran" ctx.nowMs (.arr [.str business, .str module])) world [] := by
    unfold runAutomation
    simp only [machine, Bool.false_eq_true, if_false]
    rfl
  rw [ran]
  simp only [kernel, Program.observe_bind_run, checked, Program.lift_ok, Program.pure_bind_run,
    log_working]

/-- Under a STOP on the node no step of a task runs, whatever fails; an automation of a machine
is halted, whatever fails, if it is withheld, and without failures only then.
-/
theorem node_stop_halts (world : World) (stopped : world.kernel.stops.stopped "node" = true)
    : (∀ ctx taskId faults, NothingRan world (runTaskStep ctx taskId world faults).2.1)
      ∧ ∀ ctx, ctx.principal.isHuman = false → ∀ business module,
          (Withheld world business ctx.nowMs
            → ∀ faults, Halted world (runAutomation ctx business module world faults))
          ∧ (Halted world (runAutomation ctx business module world [])
            ↔ Withheld world business ctx.nowMs) := by
  refine ⟨runTaskStep_halted stopped, fun ctx machine business module => ⟨?_, ?_, ?_⟩⟩
  · intro withheld faults
    exact runAutomation_halted machine withheld module faults
  · intro halted
    by_contra free
    exact halted.1 (runAutomation_runs machine free module)
  · intro withheld
    exact runAutomation_halted machine withheld module []

end Halting

attribute [local instance] plainLibraries

section Run

private def stopperCtx : Ctx where
  principal := .human "node:n1"
  clearance := ⟨.personal, true⟩
  partition := "local"
  nowMs := 5

private def workerCtx : Ctx := { stopperCtx with principal := .machine "n1" "cli" }

/-- A node that was opened, whose businesses had a lease renewed, and that was then stopped. -/
private def stoppedNode : Machine :=
  Machine.fresh.run [.open "state" "n1" false 0 [],
    .call (.renewLivenessPersisted "acme" "phone" 100) [],
    .call (.stop stopperCtx "node") []]

/-- Without a lease the business is halted, and so is every step. -/
theorem node_stop_halts_unleased
    : NothingRan stoppedNode.world (runTaskStep workerCtx "t" stoppedNode.world []).2.1
      ∧ Halted stoppedNode.world
          (runAutomation workerCtx "other" "module" stoppedNode.world []) := by
  obtain ⟨steps, automations⟩ := node_stop_halts stoppedNode.world rfl
  refine ⟨steps workerCtx "t" [], (automations workerCtx rfl "other" "module").2.mpr ?_⟩
  right
  rintro ⟨lease, found, -⟩
  have absent : stoppedNode.world.disk.liveness["other"]? = none := rfl
  rw [absent] at found
  cases found

/-- Under a STOP on the node, a business with a live lease goes on acting unattended. -/
theorem automation_runs_under_node_stop
    : ∃ machine, Reachable machine ∧ machine.up = true
        ∧ machine.world.kernel.stops.stopped "node" = true
        ∧ ∃ ctx business module, ctx.principal.isHuman = false
          ∧ ¬Halted machine.world (runAutomation ctx business module machine.world []) :=
  ⟨stoppedNode, ⟨_, rfl⟩, rfl, rfl, workerCtx, "acme", "module", rfl, fun halted => halted.1 rfl⟩

end Run

end VerticalAI.Correctness
