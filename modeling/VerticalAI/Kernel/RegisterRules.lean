import VerticalAI.Kernel.TaskReads

/-! Rules for the calls that store registers: what an inference and a step of a task may write, from
what may be written beside registers and what may become of the register that was read.
-/

namespace VerticalAI.Kernel
open VerticalAI.Foundation VerticalAI.Contracts VerticalAI.Store

/-- Every register is filed under its id. -/
def RegistersKeyed (registers : Table Register) : Prop :=
  ∀ (id : String) (reg : Register), registers[id]? = some reg → reg.id.text = id

/-- An update keeps every register's row under the register's own id. -/
theorem RegistersKeyed.apply {world : World} (keyed : RegistersKeyed world.disk.registers)
    (update : Update)
    : RegistersKeyed (Updates.apply update world : World).disk.registers := by
  cases update with
  | putRegister written =>
      intro id reg held
      rcases Table.getElem?_insert_inv held with ⟨rfl, rfl⟩ | earlier
      · rfl
      · exact keyed id reg earlier
  | _ => exact keyed

theorem RegistersKeyed.trail {allowed : World → Update → Prop} {first last : World}
    (trail : Trail allowed first last) (keyed : RegistersKeyed first.disk.registers)
    : RegistersKeyed last.disk.registers := by
  let Keyed (world : World) : Prop := RegistersKeyed world.disk.registers
  have kept : Keyed last :=
    trail.preserves (fun _ update holds _ => RegistersKeyed.apply holds update) keyed
  exact kept

variable {α β : Type} {allowed : World → Update → Prop} {areas : List Area} {ctx : Ctx}

/-- Where every register is filed under its id, the program makes admitted updates only. -/
def KeepsKeyed (allowed : World → Update → Prop) (program : Syscall α) : Prop :=
  program.Satisfies (fun world => RegistersKeyed world.disk.registers) allowed
    (fun _ world => RegistersKeyed world.disk.registers)
    (fun _ world => RegistersKeyed world.disk.registers)

theorem keepsKeyed_of {program : Syscall α} {pre : World → Prop}
    (known : ∀ world, RegistersKeyed world.disk.registers → pre world)
    (triple : program.Satisfies pre allowed (fun _ _ => True) (fun _ _ => True))
    : KeepsKeyed allowed program := by
  let Keyed (world : World) : Prop := RegistersKeyed world.disk.registers
  have carried : program.Satisfies (fun world => pre world ∧ Keyed world) allowed
      (fun _ world => True ∧ Keyed world) (fun _ world => True ∧ Keyed world) :=
    triple.carries fun _ update holds _ => RegistersKeyed.apply holds update
  exact carried.consequence (fun world holds => ⟨known world holds, holds⟩)
    (fun _ _ admitted => admitted) (fun _ _ kept => kept.2) (fun _ _ kept => kept.2)

/-- What every update of a program is allowed to be holds where rows are keyed. -/
theorem keepsKeyed_emits {program : Syscall α} (emits : program.Emits allowed)
    : KeepsKeyed allowed program :=
  keepsKeyed_of (fun _ keyed => keyed) emits.from_any

theorem keepsKeyed_pure {value : α} : KeepsKeyed allowed (pure value : Syscall α) :=
  keepsKeyed_emits Program.emits_pure

theorem keepsKeyed_fail {error : KernelError}
    : KeepsKeyed allowed (Program.fail error : Syscall α) :=
  keepsKeyed_emits Program.emits_fail

/-- Two programs that keep the rows keyed do so one after the other. -/
theorem KeepsKeyed.bind {program : Syscall α} {next : α → Syscall β}
    (head : KeepsKeyed allowed program) (tail : ∀ value, KeepsKeyed allowed (next value))
    : KeepsKeyed allowed (program >>= next) :=
  Program.Satisfies.bind head tail

variable [Libraries]

/-- A program that stores no register keeps what is known of them. -/
theorem known_elsewhere {program : Syscall α} {known : Table Register → Prop}
    (quiet : ∀ world update, Within areas world update → allowed world update)
    (emits : program.Emits (Within areas)) (elsewhere : Area.registers ∉ areas)
    : program.Satisfies (fun world => known world.disk.registers) allowed
        (fun _ world => known world.disk.registers) (fun _ _ => True) := by
  let Known (world : World) : Prop := known world.disk.registers
  have kept : program.Satisfies Known (Within areas) (fun _ => Known) (fun _ => Known) := by
    refine emits.keeps fun world update holds within => ?_
    have other : update.area ≠ .registers := fun same => elsewhere (same ▸ within.1)
    have same : (Updates.apply update world : World).disk.registers = world.disk.registers :=
      World.Same.apply world update other
    change known (Updates.apply update world : World).disk.registers
    rw [same]
    exact holds
  exact kept.consequence (fun _ holds => holds) quiet (fun _ _ holds => holds)
    (fun _ _ _ => trivial)

/-- What a step of a task may change beside registers and the payload tier. -/
def besideRegisters : List Area := [.record, .sent, .inferLog, .stats, .tasks, .exports]

section Rules

variable (quiet : ∀ world update, Within besideRegisters world update → allowed world update)
include quiet

theorem quiet_of_subset (inclusion : areas ⊆ besideRegisters) (world : World) (update : Update)
    (within : Within areas world update)
    : allowed world update :=
  quiet world update (within.widen inclusion)

/-- The register is stored where that is admitted; its record is beside the registers. -/
theorem writeRegister_rule {reg : Register} {pre : World → Prop}
    (admitted : ∀ world, pre world → allowed world (.putRegister reg))
    : (writeRegister ctx reg).Satisfies pre allowed (fun _ _ => True) (fun _ _ => True) := by
  have stored : (save (.putRegister reg)).Satisfies pre allowed (fun _ _ => True)
      (fun _ _ => True) :=
    Program.satisfies_persist admitted (fun _ _ => trivial) fun _ _ _ => trivial
  unfold writeRegister
  exact stored.bind fun _ => log_emits.mono (quiet_of_subset quiet (by decide))

/-- What the arch raised is added to the register as it was read. -/
theorem infer_rule
    (raises : ∀ world reg role output, world.disk.registers[reg.id.text]? = some reg
      → allowed world (.putRegister (raise reg role output)))
    {archId : String} {capability : Capability} {regId : RegisterId}
    : KeepsKeyed allowed (infer ctx archId capability regId) := by
  unfold infer
  refine KeepsKeyed.bind (keepsKeyed_emits kernel_emits) fun mounted => ?_
  cases mounted with
  | none => exact keepsKeyed_fail
  | some adapter =>
      refine keepsKeyed_of (fun _ keyed => keyed) ?_
      refine Program.Emits.reads_bind readRegister_emits
        (fun _ _ _ _ _ ran => (readRegister_done ran).1) fun reg => ?_
      let known (registers : Table Register) : Prop :=
        RegistersKeyed registers ∧ registers[regId.text]? = some reg
      have elsewhere {β γ : Type} {areas : List Area} {program : Syscall β} {next : β → Syscall γ}
          (emits : program.Emits (Within areas)) (inclusion : areas ⊆ besideRegisters)
          (tail : ∀ value, (next value).Satisfies (fun world => known world.disk.registers)
            allowed (fun _ _ => True) (fun _ _ => True))
          : (program >>= next).Satisfies (fun world => known world.disk.registers) allowed
              (fun _ _ => True) (fun _ _ => True) := by
        have absent : Area.registers ∉ areas :=
          fun member => absurd (inclusion member) (by decide)
        exact Program.Satisfies.bind
          (known_elsewhere (quiet_of_subset quiet inclusion) emits absent) tail
      have lifted {result : Except KernelError Unit}
          : (Program.lift result : Syscall Unit).Emits (Within []) := Program.emits_lift
      have looked {γ : Type} {look : RealKernel → γ} : (kernel look).Emits (Within []) :=
        kernel_emits
      have pushed {label : Label}
          : (Program.perform (.pushInferLog archId label) : Syscall Unit).Emits
              (Within [.inferLog]) :=
        perform_area .inferLog rfl (.head _) fun _ => trivial
      refine elsewhere lifted (by decide) fun _ => ?_
      refine elsewhere looked (by decide) fun budget => ?_
      refine elsewhere fit_emits (by decide) fun fitted => ?_
      refine elsewhere complete_emits (by decide) fun output => ?_
      refine elsewhere log_emits (by decide) fun _ => ?_
      refine elsewhere pushed (by decide) fun _ => ?_
      refine elsewhere bumpStats_emits (by decide) fun _ => ?_
      have written : (writeRegister ctx (raise reg (roleOf capability) output)).Satisfies
          (fun world => known world.disk.registers) allowed (fun _ _ => True)
          (fun _ _ => True) := by
        refine writeRegister_rule quiet fun world ⟨keyed, held⟩ => raises world reg _ _ ?_
        rwa [keyed regId.text reg held]
      exact written.bind fun _ => Program.satisfies_pure fun _ _ => trivial

/-- The work of a step stores registers by inference, and by attaching what an arch drafted. -/
theorem runStep_rule
    (raises : ∀ world reg role output, world.disk.registers[reg.id.text]? = some reg
      → allowed world (.putRegister (raise reg role output)))
    (drafts : ∀ register artefactType reg drafted, reg.decisions.getLast? = some drafted
      → (attachArtefact ctx register artefactType (Challenge.utf8 drafted)).Satisfies
          (fun world => RegistersKeyed world.disk.registers
            ∧ world.disk.registers[register.text]? = some reg)
          allowed (fun _ _ => True) (fun _ _ => True))
    {taskId : String} {kind : StepKind} {register : RegisterId} {artefactType : String}
    : KeepsKeyed allowed (runStep ctx taskId kind register artefactType) := by
  have inferred {capability : Capability} {archId : String}
      : KeepsKeyed allowed (infer ctx archId capability register) := infer_rule quiet raises
  cases kind with
  | plan archId => exact inferred.bind fun _ => keepsKeyed_pure
  | judge archId => exact inferred.bind fun _ => keepsKeyed_pure
  | draft archId =>
      refine KeepsKeyed.bind ?_ fun _ => keepsKeyed_pure
      unfold draft
      refine inferred.bind fun outcome => ?_
      refine keepsKeyed_of (fun _ keyed => keyed) ?_
      refine Program.Emits.reads_bind readRegister_emits
        (fun _ _ _ _ _ ran => (readRegister_done ran).1) fun reg => ?_
      split
      · exact Program.satisfies_fail fun _ _ => trivial
      · next drafted last =>
          exact (drafts register artefactType reg drafted last).bind fun _ =>
            Program.satisfies_pure fun _ _ => trivial
  | harness name => exact keepsKeyed_pure
  | approve =>
      refine KeepsKeyed.bind (keepsKeyed_emits approvalSubject_emits) fun _ => ?_
      exact KeepsKeyed.bind (keepsKeyed_emits approvalsFor_emits) fun _ => keepsKeyed_pure
  | release toDir =>
      have released : (release ctx taskId register toDir).Emits allowed :=
        release_emits.mono (quiet_of_subset quiet (by decide))
      exact KeepsKeyed.bind (keepsKeyed_emits released) fun _ => keepsKeyed_pure

end Rules

/-- A call of the scheduler does the work of one step of the row it read, from what it knew of
that row; all else it writes is in the record and the rows.
-/
theorem runTaskStep_rule {pre : World → Prop} {before : Task → World → Prop} {taskId : String}
    (found : ∀ world row, pre world → world.disk.tasks[taskId]? = some row → before row world)
    (admitted : ∀ world update, Within [.record, .tasks] world update → allowed world update)
    (framed : ∀ row world update, before row world → update.area = .tasks
      → before row (Updates.apply update world))
    (steps : ∀ row kind, (runStep ctx taskId kind row.register row.artefactType).Satisfies
      (before row) allowed (fun _ _ => True) (fun _ _ => True))
    : (runTaskStep ctx taskId).Satisfies pre allowed (fun _ _ => True) (fun _ _ => True) := by
  have saved {row : Task} : (saveTask row).Emits allowed :=
    (emits_widen saveTask_emits (by decide)).mono admitted
  unfold runTaskStep
  refine Program.Emits.reads_bind task_emits
    (fun world _ shown _ _ ran =>
      show ∀ row, shown = some row → world.disk.tasks[taskId]? = some row from
        fun row same => (task_done (same ▸ ran)).1) fun shown => ?_
  cases shown with
  | none => exact Program.satisfies_fail fun _ _ => trivial
  | some row =>
      dsimp only
      split
      · exact Program.satisfies_pure fun _ _ => trivial
      · have looked : (kernel (·.stops)).Satisfies
            (fun world => pre world
              ∧ ∀ shown, some row = some shown → world.disk.tasks[taskId]? = some shown)
            allowed (fun _ => before row) (fun _ _ => True) :=
          Program.satisfies_observe fun world holds => found world row holds.1 (holds.2 row rfl)
        refine looked.bind fun stops => ?_
        split
        · exact (saved.bind fun _ => Program.emits_fail).from_any
        · split
          · exact (saved.bind fun _ => Program.emits_pure).from_any
          · next i step _ =>
              have worked {wasWaiting : Bool} (current : Task)
                  : (Program.attempt (runStep ctx taskId step.kind row.register row.artefactType)
                      >>= settleStep ctx taskId i wasWaiting current).Satisfies (before row)
                      allowed (fun _ _ => True) (fun _ _ => True) := by
                have ran : (Program.attempt
                    (runStep ctx taskId step.kind row.register row.artefactType)
                      : Syscall (Except KernelError (StepStatus × UInt32))).Satisfies (before row)
                      allowed (fun _ _ => True) (fun _ _ => True) :=
                  Program.Satisfies.attempt (steps row step.kind)
                exact ran.bind fun _ => settleStep_emits.mono admitted
              have started {current : Task} : (saveTask current).Satisfies (before row) allowed
                  (fun _ => before row) (fun _ _ => True) :=
                Program.satisfies_persist
                  (fun world _ => admitted world _ ⟨List.mem_cons_of_mem _ List.mem_cons_self, trivial⟩)
                  (fun world holds => framed row world _ holds rfl) fun _ _ _ => trivial
              cases waiting : decide (step.status = .waitingHuman) with
              | true =>
                  simp only [advance, waiting, if_true, Bool.not_true, Bool.false_eq_true, if_false]
                  exact worked row
              | false =>
                  simp only [advance, waiting, Bool.false_eq_true, if_false, Bool.not_false, if_true]
                  exact started.bind fun _ => worked _

end VerticalAI.Kernel
