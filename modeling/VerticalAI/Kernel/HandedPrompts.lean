import VerticalAI.Kernel.Inference

/-! Prompts leave the kernel in one place: whichever call hands one to an arch, it was made of a
register that its caller and that arch are cleared for.
-/

namespace VerticalAI.Kernel
open VerticalAI.Foundation VerticalAI.Contracts VerticalAI.Store

/-- The caller and this arch may see what went out: it says, in whole or projected into the budget
in force, what one stored register says.
-/
structure Cleared (ctx : Ctx) (world : World) (sent : Sent) (adapter : ArchAdapter) (key : String)
    (reg : Register) (role : String) : Prop where
  mounted : world.kernel.adapters[sent.archId]? = some adapter
  stored : world.disk.registers[key]? = some reg
  caller : reg.label.flowsTo ctx.clearance = true
  arch : reg.label.flowsTo adapter.manifest.clearance = true
  fitted : sent.prompt = lower reg role.toList
      ∧ adapter.countTokens sent.prompt ≤ world.kernel.budgetFor sent.archId adapter
    ∨ project (lower reg role.toList) (world.kernel.budgetFor sent.archId adapter)
        adapter.countTokens = some sent.prompt
  bounded : sent.maxTokens = min (world.kernel.budgetFor sent.archId adapter) 1024

/-- A whole or a projected prompt fits the budget. -/
theorem Cleared.fits {ctx : Ctx} {world : World} {sent : Sent} {adapter : ArchAdapter}
    {key : String} {reg : Register} {role : String}
    (cleared : Cleared ctx world sent adapter key reg role)
    (bytes : CountsBytes adapter.countTokens)
    : adapter.countTokens sent.prompt ≤ world.kernel.budgetFor sent.archId adapter :=
  cleared.fitted.elim And.right (project_fits bytes)

/-- Any prompt that an update hands over is the first, and is cleared. -/
def Clears (ctx : Ctx) (start world : World) (update : Update) : Prop :=
  ∀ sent, update = .send sent → world.sent = start.sent
    ∧ ∃ adapter key reg role, Cleared ctx start sent adapter key reg role

/-- What prompts are made of is as it was, and none went out. -/
structure Supplied (start later : World) : Prop where
  sent : later.sent = start.sent
  registers : later.disk.registers = start.disk.registers
  adapters : later.kernel.adapters = start.kernel.adapters
  budgets : later.kernel.budgets = start.kernel.budgets

theorem Supplied.refl (world : World) : Supplied world world := ⟨rfl, rfl, rfl, rfl⟩

/-- Updates elsewhere leave it so. -/
theorem Supplied.apply {start later : World} (supplied : Supplied start later) {update : Update}
    (sent : update.area ≠ .sent) (registers : update.area ≠ .registers)
    (adapters : update.area ≠ .adapters)
    : Supplied start (Updates.apply update later) := by
  have handed : (Updates.apply update later).sent = later.sent :=
    World.Same.apply later update sent
  have rows : (Updates.apply update later).disk.registers = later.disk.registers :=
    World.Same.apply later update registers
  have arches : (Updates.apply update later).kernel.adapters = later.kernel.adapters
      ∧ (Updates.apply update later).kernel.budgets = later.kernel.budgets :=
    World.Same.apply later update adapters
  exact ⟨handed.trans supplied.sent, rows.trans supplied.registers,
    arches.1.trans supplied.adapters, arches.2.trans supplied.budgets⟩

variable [Libraries] {α β : Type} {ctx : Ctx} {start : World} {program : Syscall α}
  {areas : List Area}

/-- Run where prompts are still made of what there was at the start, the program hands over cleared
ones only.
-/
def Guarded (ctx : Ctx) (start : World) (program : Syscall α) : Prop :=
  program.Satisfies (Supplied start) (Clears ctx start) (fun _ _ => True) (fun _ _ => True)

theorem clears_elsewhere (elsewhere : Area.sent ∉ areas) {world : World} {update : Update}
    (within : Within areas world update)
    : Clears ctx start world update := by
  rintro sent rfl
  exact absurd within.1 elsewhere

/-- A program that hands nothing over. -/
theorem Guarded.silent (areas : List Area) (emits : program.Emits (Within areas))
    (elsewhere : Area.sent ∉ areas)
    : Guarded ctx start program :=
  emits.consequence (fun _ _ => trivial) (fun _ _ within => clears_elsewhere elsewhere within)
    (fun _ _ _ => trivial) fun _ _ _ => trivial

/-- A first part that leaves the supplies alone is followed by one that is guarded whatever the first
may have returned.
-/
theorem Guarded.after {next : α → Syscall β} (known : α → Prop)
    (emits : program.Emits (Within areas)) (elsewhere : Area.sent ∉ areas)
    (registers : Area.registers ∉ areas) (adapters : Area.adapters ∉ areas)
    (done : ∀ world faults value after rest, Supplied start world
      → program world faults = (.done value, after, rest) → known value)
    (tail : ∀ value, known value → Guarded ctx start (next value))
    : Guarded ctx start (program >>= next) := by
  have kept : program.Satisfies (Supplied start) (Within areas) (fun _ => Supplied start)
      (fun _ => Supplied start) := by
    refine emits.keeps fun later update supplied within => ?_
    exact supplied.apply (fun same => elsewhere (same ▸ within.1))
      (fun same => registers (same ▸ within.1)) (fun same => adapters (same ▸ within.1))
  have head : program.Satisfies (Supplied start) (Clears ctx start)
      (fun value later => known value ∧ Supplied start later) (fun _ _ => True) := by
    intro world faults supplied
    obtain ⟨trail, meets, met⟩ := kept world faults supplied
    refine ⟨trail.mono fun _ _ within => clears_elsewhere elsewhere within, ?_, met⟩
    rcases ran : program world faults with ⟨value | error | _, later, rest⟩
    all_goals rw [ran] at meets
    · exact ⟨done world faults value later rest supplied ran, meets⟩
    · trivial
    · trivial
  refine head.bind fun value => Program.satisfies_of_fact (fun _ holds => holds.1) fun is => ?_
  exact (tail value is).consequence (fun _ holds => holds.2) (fun _ _ admitted => admitted)
    (fun _ _ holds => holds) fun _ _ holds => holds

/-- So it is after a part that only reads. -/
theorem Guarded.of_read {next : α → Syscall β} (known : α → Prop)
    (reads : program.Emits (Within []))
    (done : ∀ world faults value after rest, Supplied start world
      → program world faults = (.done value, after, rest) → known value)
    (tail : ∀ value, known value → Guarded ctx start (next value))
    : Guarded ctx start (program >>= next) :=
  .after known reads List.not_mem_nil List.not_mem_nil List.not_mem_nil done tail

/-- A guarded part is followed by one that hands nothing over. -/
theorem Guarded.before {next : α → Syscall β} (areas : List Area) (head : Guarded ctx start program)
    (emits : ∀ value, (next value).Emits (Within areas)) (elsewhere : Area.sent ∉ areas)
    : Guarded ctx start (program >>= next) := by
  refine Program.Satisfies.bind head fun value => ?_
  exact (emits value).consequence (fun _ _ => trivial)
    (fun _ _ within => clears_elsewhere elsewhere within) (fun _ _ _ => trivial)
    fun _ _ _ => trivial

omit [Libraries] in
theorem Guarded.attempt (guarded : Guarded ctx start program)
    : Guarded ctx start (Program.attempt program : Syscall (Except KernelError α)) :=
  Program.Satisfies.attempt guarded

omit [Libraries] in
theorem complete_guarded {archId : String} {adapter : ArchAdapter} {prompt : List Char}
    {maxTokens : UInt32}
    (clear : ∃ adapter key reg role,
      Cleared ctx start ⟨archId, prompt, maxTokens⟩ adapter key reg role)
    : Guarded ctx start (complete archId adapter prompt maxTokens) := by
  have counted : (Program.observe (·.sent.length) : Syscall Nat).Satisfies (Supplied start)
      (Clears ctx start) (fun _ => Supplied start) (fun _ _ => True) :=
    Program.satisfies_observe fun _ supplied => supplied
  have handed : (Program.perform (.send ⟨archId, prompt, maxTokens⟩) : Syscall Unit).Satisfies
      (Supplied start) (Clears ctx start) (fun _ _ => True) (fun _ _ => True) := by
    refine Program.satisfies_perform (fun _ supplied sent same => ?_) fun _ _ => trivial
    obtain rfl := Update.send.inj same
    exact ⟨supplied.sent, clear⟩
  unfold complete
  refine counted.bind fun calls => handed.bind fun _ => ?_
  cases adapter.complete calls prompt maxTokens with
  | ok output => exact Program.satisfies_pure fun _ _ => trivial
  | error reason => exact Program.satisfies_fail fun _ _ => trivial

omit [Libraries] in
theorem kernel_done {look : RealKernel → α} {world after : World} {faults rest : List Fault}
    {value : α} (ran : kernel look world faults = (.done value, after, rest))
    : look world.kernel = value := by
  cases ran
  rfl

omit [Libraries] in
theorem silent_fail {error : KernelError} : Guarded ctx start (Program.fail error : Syscall α) :=
  Program.satisfies_fail fun _ _ => trivial

omit [Libraries] in
theorem i2Flow_ok {label : Label} {manifest : ArchManifest}
    (flows : i2Flow label manifest = .ok ())
    : label.flowsTo manifest.clearance = true := by
  unfold i2Flow at flows
  split at flows
  · assumption
  · cases flows

/-- An inference hands over a cleared prompt or none. -/
theorem infer_guarded {archId : String} {capability : Capability} {regId : RegisterId}
    : Guarded ctx start (infer ctx archId capability regId) := by
  unfold infer
  refine .of_read (start.kernel.adapters[archId]? = ·) kernel_emits ?_ fun mounted present => ?_
  · intro world faults value after rest supplied ran
    rw [← kernel_done ran, supplied.adapters]
  cases mounted with
  | none => exact silent_fail
  | some adapter =>
      refine .of_read (fun reg => start.disk.registers[regId.text]? = some reg
        ∧ reg.label.flowsTo ctx.clearance = true) readRegister_emits ?_ fun reg register => ?_
      · intro world faults value after rest supplied ran
        obtain ⟨stored, caller⟩ := readRegister_done ran
        exact ⟨supplied.registers ▸ stored, caller⟩
      refine .of_read (fun _ => reg.label.flowsTo adapter.manifest.clearance = true)
        Program.emits_lift ?_ fun _ arch => ?_
      · intro world faults value after rest supplied ran
        cases flows : i2Flow reg.label adapter.manifest with
        | ok _ => exact i2Flow_ok flows
        | error error =>
            rw [flows] at ran
            cases ran
      refine .of_read (start.kernel.budgets[archId]? = ·) kernel_emits ?_ fun given budget => ?_
      · intro world faults value after rest supplied ran
        rw [← kernel_done ran, supplied.budgets]
      refine .after (fun fitted : List Char × Bool =>
          fitted.1 = lower reg (roleOf capability).toList
              ∧ adapter.countTokens fitted.1 ≤ given.getD adapter.contextBudget
            ∨ project (lower reg (roleOf capability).toList)
                (given.getD adapter.contextBudget) adapter.countTokens = some fitted.1)
        fit_emits (by decide) (by decide) (by decide) ?_ fun fitted is => ?_
      · rintro world faults ⟨text, projected⟩ after rest supplied ran
        rcases fit_done ran with ⟨-, rfl, fits, -⟩ | ⟨-, projects, -⟩
        · exact .inl ⟨rfl, fits⟩
        · exact .inr projects
      have same : given.getD adapter.contextBudget = start.kernel.budgetFor archId adapter := by
        rw [← budget]
        rfl
      obtain ⟨prompt, projected⟩ := fitted
      rw [same] at is
      have cleared : Cleared ctx start
          ⟨archId, prompt, min (given.getD adapter.contextBudget) 1024⟩ adapter regId.text reg
          (roleOf capability) :=
        ⟨present, register.1, register.2, arch, is, congrArg (min · 1024) same⟩
      have noted : (Program.perform (.pushInferLog archId reg.label) : Syscall Unit).Emits
          (Within [.record, .inferLog, .stats, .registers]) :=
        perform_area .inferLog rfl (by decide) fun _ => trivial
      refine .before [.record, .inferLog, .stats, .registers]
        (complete_guarded ⟨adapter, regId.text, reg, roleOf capability, cleared⟩)
        (fun output => ?_) (by decide)
      refine (emits_widen log_emits (by decide)).bind fun _ => noted.bind fun _ => ?_
      refine (emits_widen bumpStats_emits (by decide)).bind fun _ => ?_
      exact (emits_widen writeRegister_emits (by decide)).bind fun _ => Program.emits_pure

/-- A draft is an inference first. -/
theorem draft_guarded {archId : String} {register : RegisterId} {artefactType : String}
    : Guarded ctx start (draft ctx archId register artefactType) := by
  refine .before [.draws, .payload, .registers, .record] infer_guarded (fun outcome => ?_) (by decide)
  refine readRegister_emits.bind fun reg => ?_
  split
  · exact Program.emits_fail
  · exact attachArtefact_emits.bind fun _ => Program.emits_pure

/-- The work of a step, by cases on its kind. -/
theorem runStep_guarded {taskId : String} {kind : StepKind} {register : RegisterId}
    {artefactType : String}
    : Guarded ctx start (runStep ctx taskId kind register artefactType) := by
  cases kind with
  | plan archId => exact .before [] infer_guarded (fun _ => Program.emits_pure) List.not_mem_nil
  | draft archId => exact .before [] draft_guarded (fun _ => Program.emits_pure) List.not_mem_nil
  | judge archId => exact .before [] infer_guarded (fun _ => Program.emits_pure) List.not_mem_nil
  | harness name => exact .silent [] Program.emits_pure List.not_mem_nil
  | approve =>
      refine .silent [] (approvalSubject_emits.bind fun subject => ?_) List.not_mem_nil
      exact approvalsFor_emits.bind fun approvals => Program.emits_pure
  | release toDir =>
      exact .silent [.record, .exports] (release_emits.bind fun _ => Program.emits_pure) (by decide)

theorem advance_guarded {taskId : String} {row : Task} {i : Nat} {step : Step}
    : Guarded ctx start (advance ctx taskId row i step) := by
  have settled {wasWaiting : Bool} {row : Task}
      : Guarded ctx start
          (Program.attempt (runStep ctx taskId step.kind row.register row.artefactType) >>= fun result =>
            settleStep ctx taskId i wasWaiting row result) :=
    .before [.record, .tasks] runStep_guarded.attempt (fun _ => settleStep_emits) (by decide)
  unfold advance
  dsimp only
  split
  · exact .after (fun _ => True) saveTask_emits (by decide) (by decide) (by decide)
      (fun _ _ _ _ _ _ _ => trivial) fun _ _ => settled
  · exact settled

/-- One step of a task hands over a cleared prompt or none. -/
theorem runTaskStep_guarded {taskId : String} : Guarded ctx start (runTaskStep ctx taskId) := by
  unfold runTaskStep
  refine .of_read (fun _ => True) task_emits (fun _ _ _ _ _ _ _ => trivial) fun row _ => ?_
  cases row with
  | none => exact silent_fail
  | some row =>
      dsimp only
      split
      · exact .silent [] Program.emits_pure List.not_mem_nil
      · refine .of_read (fun _ => True) kernel_emits (fun _ _ _ _ _ _ _ => trivial) fun stops _ => ?_
        split
        · exact .silent [.tasks] (saveTask_emits.bind fun _ => Program.emits_fail) (by decide)
        · split
          · exact .silent [.tasks] (saveTask_emits.bind fun _ => Program.emits_pure) (by decide)
          · exact advance_guarded

/-- Whose clearance a call is subject to when it hands over a prompt. -/
def Call.prompter : Call → Option Ctx
  | .infer ctx _ _ _ | .runTaskStep ctx _ => some ctx
  | _ => none

/-- A call hands over one cleared prompt or none, by cases on the call. -/
theorem invoke_hands (call : Call) (world : World) (faults : List Fault)
    : (invoke call world faults).2.1.sent = world.sent
      ∨ ∃ ctx sent adapter key reg role,
          call.prompter = some ctx
          ∧ (invoke call world faults).2.1.sent = world.sent ++ [sent]
          ∧ Cleared ctx world sent adapter key reg role := by
  have handed {α : Type} {ctx : Ctx} {program : Syscall α} {change : α → Reply}
      (asks : call.prompter = some ctx) (guarded : Guarded ctx world program)
      (is : invoke call = change <$> program)
      : (invoke call world faults).2.1.sent = world.sent
        ∨ ∃ ctx sent adapter key reg role,
            call.prompter = some ctx
            ∧ (invoke call world faults).2.1.sent = world.sent ++ [sent]
            ∧ Cleared ctx world sent adapter key reg role := by
    let OneAtMost (later : World) : Prop :=
      later.sent = world.sent ∨ ∃ sent adapter key reg role,
        later.sent = world.sent ++ [sent] ∧ Cleared ctx world sent adapter key reg role
    have step : ∀ later update, OneAtMost later → Clears ctx world later update
        → OneAtMost (Updates.apply update later) := by
      intro later update one clears
      by_cases sends : update.area = .sent
      · cases update with
        | send sent =>
            obtain ⟨none, adapter, key, reg, role, cleared⟩ := clears sent rfl
            exact .inr ⟨sent, adapter, key, reg, role, congrArg (· ++ [sent]) none, cleared⟩
        | _ => cases sends
      · have same : (Updates.apply update later).sent = later.sent :=
          World.Same.apply later update sends
        change (Updates.apply update later).sent = world.sent ∨ _
        simp only [same]
        exact one
    have one : OneAtMost (program world faults).2.1 :=
      (guarded.trail (.refl world) faults).preserves step (.inl rfl)
    rw [is, Program.map_run]
    rcases one with none | ⟨sent, adapter, key, reg, role, more, cleared⟩
    · exact .inl none
    · exact .inr ⟨ctx, sent, adapter, key, reg, role, asks, more, cleared⟩
  cases call with
  | infer ctx archId capability regId => exact handed rfl infer_guarded rfl
  | runTaskStep ctx taskId => exact handed rfl runTaskStep_guarded rfl
  | _ =>
      exact .inl (same_of_trail ((invoke_emits _).trail world faults) .sent
        (by simp [Call.footprint]))

end VerticalAI.Kernel
