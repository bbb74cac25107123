import VerticalAI.Kernel.HandedPrompts
import VerticalAI.Kernel.RecordKinds

/-! What the record owes: prompts that were handed to an arch and are not on it. A call that returns
owes nothing for what it handed over.
-/

namespace VerticalAI.Kernel
open VerticalAI.Foundation VerticalAI.Contracts VerticalAI.Store

/-- How many inferences are on the record. -/
def World.infers (world : World) : Nat := (world.disk.ledger.map (·.kind)).count "infer"

/-- So many of the prompts handed over are not on the record. -/
def World.Owes (world : World) (debt : Nat) : Prop := world.sent.length = world.infers + debt

variable [Libraries] {α β : Type} {world after : World} {debt : Nat}

/-- What is owed after a program: as much as before if it returned, and one more at most if not. -/
def Squared (debt : Nat) (outcome : Outcome KernelError α) (after : World) : Prop :=
  after.Owes debt ∨ (∀ value, outcome ≠ .done value) ∧ after.Owes (debt + 1)

/-- Whatever was owed before, such a program settles what it hands over. -/
def Balanced (program : Syscall α) : Prop :=
  ∀ debt world faults, world.Owes debt
    → Squared debt (program world faults).1 (program world faults).2.1

omit [Libraries] in
/-- A call that is done leaves nothing open but what it owed before. -/
theorem Squared.of_done {value : α}
    (settled : Squared debt (.done value : Outcome KernelError α) after)
    : after.Owes debt :=
  settled.resolve_right fun failed => failed.1 value rfl

omit [Libraries] in
/-- What ended otherwise can be read as the end of a longer program. -/
theorem Squared.cut {outcome : Outcome KernelError α} {longer : Outcome KernelError β}
    (settled : Squared debt outcome after) (cut : ∀ value, longer ≠ .done value)
    : Squared debt longer after :=
  settled.imp_right fun failed => ⟨cut, failed.2⟩

namespace Balanced

omit [Libraries]

/-- Two balanced programs are balanced one after the other. -/
theorem bind {program : Syscall α} {next : α → Syscall β} (head : Balanced program)
    (tail : ∀ value, Balanced (next value))
    : Balanced (program >>= next) := by
  intro debt world faults owes
  have settled := head debt world faults owes
  rw [Program.bind_run]
  rcases ran : program world faults with ⟨value | error | _, middle, rest⟩
  all_goals rw [ran] at settled
  · exact tail value debt middle rest settled.of_done
  · exact settled.cut fun value same => by cases same
  · exact settled.cut fun value same => by cases same

theorem map {program : Syscall α} (balanced : Balanced program) (change : α → β)
    : Balanced (change <$> program) := by
  intro debt world faults owes
  have settled := balanced debt world faults owes
  rw [Program.map_run]
  rcases ran : program world faults with ⟨value | error | _, middle, rest⟩
  all_goals rw [ran] at settled
  · exact .inl settled.of_done
  · exact settled.cut fun value same => by cases same
  · exact settled.cut fun value same => by cases same

/-- A program whose error is handed on: it is settled where it returned, and reported where not. -/
theorem attempt_bind {program : Syscall α} {next : Except KernelError α → Syscall β}
    (head : Balanced program) (tail : ∀ value, Balanced (next (.ok value)))
    (refuses : ∀ error debt world faults, world.Owes debt →
      (∀ value, (next (.error error) world faults).1 ≠ .done value)
        ∧ (next (.error error) world faults).2.1.Owes debt)
    : Balanced (Program.attempt program >>= next) := by
  intro debt world faults owes
  have settled := head debt world faults owes
  rcases ran : program world faults with ⟨value | error | _, middle, rest⟩
  all_goals rw [ran] at settled
  · rw [Program.bind_done (Program.attempt_working_done ran)]
    exact tail value debt middle rest settled.of_done
  · have handed : (Program.attempt program : Syscall (Except KernelError α)) world faults
        = (.done (.error error), middle, rest) := by simp only [Program.attempt, ran]
    rw [Program.bind_done handed]
    rcases settled with even | ⟨-, odd⟩
    · exact .inl (refuses error debt middle rest even).2
    · have refused := refuses error (debt + 1) middle rest odd
      exact .inr refused
  · have lost : (Program.attempt program : Syscall (Except KernelError α)) world faults
        = (.crashed, middle, rest) := by simp only [Program.attempt, ran]
    rw [Program.bind_crashed lost]
    exact settled.cut fun value same => by cases same

end Balanced

/-- Where no prompt is handed over and no inference recorded, nothing changes. -/
theorem owes_kept {admitted : String → Json → Prop} {areas : List Area} {program : Syscall α}
    (records : Records admitted program) (others : ∀ payload, ¬admitted "infer" payload)
    (emits : program.Emits (Within areas)) (elsewhere : Area.sent ∉ areas) (faults : List Fault)
    (owes : world.Owes debt)
    : (program world faults).2.1.Owes debt := by
  have sent : (program world faults).2.1.sent = world.sent :=
    same_of_trail (emits.trail world faults) .sent elsewhere
  obtain ⟨more, grown, all⟩ := records.gained world faults
  have none : (more.map (·.kind)).count "infer" = 0 := by
    refine List.count_eq_zero.mpr fun listed => ?_
    obtain ⟨event, member, kind⟩ := List.mem_map.mp listed
    obtain ⟨payload, admits, -⟩ := all event member
    exact others payload (kind ▸ admits)
  rw [World.Owes, sent, World.infers, grown, List.map_append, List.count_append, none]
  exact owes

/-- A program that sends nothing and logs no inference is balanced. -/
theorem Balanced.quiet {admitted : String → Json → Prop} {areas : List Area} {program : Syscall α}
    (records : Records admitted program) (others : ∀ payload, ¬admitted "infer" payload)
    (emits : program.Emits (Within areas)) (elsewhere : Area.sent ∉ areas)
    : Balanced program :=
  fun _ _ faults owes => .inl (owes_kept records others emits elsewhere faults owes)

/-- A part that writes neither. -/
theorem Balanced.within {areas : List Area} {program : Syscall α}
    (emits : program.Emits (Within areas)) (elsewhere : Area.sent ∉ areas)
    (unrecorded : Area.record ∉ areas)
    : Balanced program := by
  have records : Records (fun _ _ => False) program := .quiet emits unrecorded
  exact .quiet records (fun _ => id) emits elsewhere

theorem Balanced.fail (error : KernelError) : Balanced (Program.fail error : Syscall α) :=
  .within Program.emits_fail List.not_mem_nil List.not_mem_nil

theorem Balanced.pure (value : α) : Balanced (Pure.pure value : Syscall α) :=
  .within Program.emits_pure List.not_mem_nil List.not_mem_nil

theorem Balanced.reads {program : Syscall α} (emits : program.Emits (Within []))
    : Balanced program :=
  .within emits List.not_mem_nil List.not_mem_nil

/-- Logging anything else. -/
theorem Balanced.log {kind : String} {wallMs : UInt64} {payload : Json} (other : kind ≠ "infer")
    : Balanced (Kernel.log kind wallMs payload) := by
  have records : Records (fun logged _ => logged = kind) (Kernel.log kind wallMs payload) :=
    .log rfl
  exact .quiet records (fun _ same => other same.symm) log_emits (by decide)

/-- With one inference more on the record one prompt less is owed. -/
theorem World.Owes.recorded (owes : world.Owes (debt + 1)) {wallMs : UInt64} {payload : Json}
    (sent : after.sent = world.sent)
    (ledger : after.disk.ledger = world.disk.ledger ++ [world.logEvent "infer" wallMs payload])
    : after.Owes debt := by
  have kind : (world.logEvent "infer" wallMs payload).kind = "infer" := rfl
  rw [World.Owes, World.infers] at owes ⊢
  rw [sent, ledger, List.map_append, List.count_append, List.map_singleton, kind,
    List.count_singleton_self]
  omega

/-- An inference on the record settles the prompt it was made of. -/
theorem log_infer_settles {wallMs : UInt64} {payload : Json} (owes : world.Owes (debt + 1))
    (faults : List Fault)
    : Squared debt (log "infer" wallMs payload world faults).1
        (log "infer" wallMs payload world faults).2.1 := by
  rcases log_cases "infer" wallMs payload world faults with
    ⟨rest, whole⟩ | ⟨outcome, rest, cut, failed⟩ | ⟨outcome, rest, cut, failed⟩
  · rw [whole]
    exact .inl (owes.recorded (logged_sent "infer" wallMs payload world)
      (logged_ledger "infer" wallMs payload world))
  · rw [cut]
    exact .inr ⟨fun _ => failed, owes⟩
  · rw [cut]
    exact .inl (owes.recorded rfl rfl)

omit [Libraries] in
/-- Whatever an arch answers, a prompt more is owed once it was called. -/
theorem complete_owes (archId : String) (adapter : ArchAdapter) (prompt : List Char)
    (maxTokens : UInt32) (owes : world.Owes debt) (faults : List Fault)
    : (complete archId adapter prompt maxTokens world faults).2.1.Owes (debt + 1)
      ∧ (complete archId adapter prompt maxTokens world faults).1 ≠ .crashed := by
  have handed : (Updates.apply (Update.send ⟨archId, prompt, maxTokens⟩) world).Owes (debt + 1) := by
    change (world.sent ++ [_]).length = world.infers + (debt + 1)
    rw [List.length_append, List.length_singleton, owes, Nat.add_assoc]
  unfold complete
  rw [Program.observe_bind_run, Program.perform_bind_run]
  cases adapter.complete world.sent.length prompt maxTokens with
  | ok output => exact ⟨handed, nofun⟩
  | error reason => exact ⟨handed, nofun⟩

variable {ctx : Ctx}

/-- A prompt that is handed over and then recorded. -/
theorem handed_balanced {archId : String} {adapter : ArchAdapter} {prompt : List Char}
    {maxTokens : UInt32} {wallMs : UInt64} {payload : Json} {next : List Char → Syscall β}
    (tail : ∀ output, Balanced (next output))
    : Balanced (complete archId adapter prompt maxTokens >>= fun output =>
        log "infer" wallMs payload >>= fun _ => next output) := by
  intro debt world faults owes
  obtain ⟨handed, alive⟩ := complete_owes archId adapter prompt maxTokens owes faults
  rcases ran : complete archId adapter prompt maxTokens world faults with
    ⟨output | error | _, middle, left⟩
  all_goals rw [ran] at handed alive
  · rw [Program.bind_done ran]
    have settled : Squared debt (log "infer" wallMs payload middle left).1
        (log "infer" wallMs payload middle left).2.1 := log_infer_settles handed left
    rcases logged : log "infer" wallMs payload middle left with ⟨_ | error | _, last, rest⟩
    all_goals rw [logged] at settled
    · rw [Program.bind_done logged]
      exact tail output debt last rest settled.of_done
    · rw [Program.bind_failed logged]
      exact settled.cut fun value same => by cases same
    · rw [Program.bind_crashed logged]
      exact settled.cut fun value same => by cases same
  · rw [Program.bind_failed ran]
    exact .inr ⟨nofun, handed⟩
  · exact absurd rfl alive

theorem fit_balanced {archId : String} {adapter : ArchAdapter} {budget : UInt32}
    {regId : RegisterId} {prompt : List Char}
    : Balanced (fit ctx archId adapter budget regId prompt) := by
  unfold fit
  dsimp only
  split
  · split
    · exact .fail _
    · exact (Balanced.log (by decide)).bind fun _ => .pure _
  · exact .pure _

theorem writeRegister_balanced {reg : Register} : Balanced (writeRegister ctx reg) := by
  have saved : (save (.putRegister reg)).Emits (Within [.registers]) :=
    save_area .registers rfl (by decide) fun _ => trivial
  exact (Balanced.within saved (by decide) (by decide)).bind fun _ => .log (by decide)

/-- An inference logs the prompt that it sent before it answers. -/
theorem infer_balanced {archId : String} {capability : Capability} {regId : RegisterId}
    : Balanced (infer ctx archId capability regId) := by
  unfold infer
  refine (Balanced.reads kernel_emits).bind fun adapter => ?_
  cases adapter with
  | none => exact .fail _
  | some adapter =>
      refine (Balanced.reads readRegister_emits).bind fun reg => ?_
      refine (Balanced.reads Program.emits_lift).bind fun _ => ?_
      refine (Balanced.reads kernel_emits).bind fun budget => ?_
      refine fit_balanced.bind fun fitted => handed_balanced fun output => ?_
      have noted : (Program.perform (.pushInferLog archId reg.label) : Syscall Unit).Emits
          (Within [.inferLog]) :=
        perform_area .inferLog rfl (by decide) fun _ => trivial
      refine (Balanced.within noted (by decide) (by decide)).bind fun _ => ?_
      refine (Balanced.within bumpStats_emits (by decide) (by decide)).bind fun _ => ?_
      exact writeRegister_balanced.bind fun _ => .pure _

theorem attachArtefact_balanced {regId : RegisterId} {kind : String} {bytes : List UInt8}
    : Balanced (attachArtefact ctx regId kind bytes) := by
  have records : Records (fun kind _ => kind = "register.written")
      (attachArtefact ctx regId kind bytes) := attachArtefact_records fun _ => rfl
  exact .quiet records (fun _ => by decide) attachArtefact_emits (by decide)

/-- A step of any kind leaves no prompt unlogged, since only an inference sends one. -/
theorem runStep_balanced {taskId artefactType : String} {kind : StepKind} {register : RegisterId}
    : Balanced (runStep ctx taskId kind register artefactType) := by
  cases kind with
  | plan archId | judge archId => exact infer_balanced.bind fun _ => .pure _
  | draft archId =>
      refine Balanced.bind ?_ fun _ => .pure _
      unfold draft
      refine infer_balanced.bind fun outcome => ?_
      refine (Balanced.reads readRegister_emits).bind fun reg => ?_
      split
      · exact .fail _
      · exact attachArtefact_balanced.bind fun _ => .pure _
  | harness name => exact .pure _
  | approve =>
      refine (Balanced.reads approvalSubject_emits).bind fun subject => ?_
      exact (Balanced.reads approvalsFor_emits).bind fun _ => .pure _
  | release toDir =>
      refine Balanced.bind ?_ fun _ => .pure _
      unfold release
      refine (Balanced.reads readRegister_emits).bind fun reg => ?_
      refine (Balanced.reads kernel_emits).bind fun node => ?_
      refine (Balanced.reads Program.emits_lift).bind fun dest => ?_
      refine (Balanced.reads Program.emits_lift).bind fun files => ?_
      refine (Balanced.log (by decide)).bind fun _ => ?_
      refine (Balanced.within privateDir_emits (by decide) (by decide)).bind fun _ => ?_
      refine (Balanced.within privateDir_emits (by decide) (by decide)).bind fun _ => ?_
      exact .within writeFiles_emits (by decide) (by decide)

theorem saveTask_balanced {row : Task} : Balanced (saveTask row) :=
  .within saveTask_emits (by decide) (by decide)

/-- A failed step is stored and reported. -/
theorem refuse_owes {row : Task} (error : KernelError) (faults : List Fault)
    (owes : world.Owes debt)
    : let refuse : Syscall Task := saveTask row >>= fun _ => Program.fail error
      (∀ value, (refuse world faults).1 ≠ .done value) ∧ (refuse world faults).2.1.Owes debt := by
  intro refuse
  have emits : refuse.Emits (Within [.tasks]) := saveTask_emits.bind fun _ => Program.emits_fail
  have records : Records (fun _ _ => False) refuse := .quiet emits (by decide)
  refine ⟨?_, owes_kept records (fun _ => id) emits (by decide) faults owes⟩
  intro value
  change ((saveTask row >>= fun _ => Program.fail error) world faults).1 ≠ .done value
  rw [Program.bind_run]
  rcases saveTask row world faults with ⟨_ | _ | _, _, _⟩ <;> nofun

/-- The row stored before a step and the settlement after it send nothing. -/
theorem advance_balanced {taskId : String} {row : Task} {i : Nat} {step : Step}
    : Balanced (advance ctx taskId row i step) := by
  have recorded {row : Task} : Balanced (recordStep ctx taskId i row) :=
    (Balanced.log (by decide)).bind fun _ => saveTask_balanced.bind fun _ => .pure _
  have settled {wasWaiting : Bool} {row : Task} {status : StepStatus} {tokens : UInt32}
      : Balanced (settleStep ctx taskId i wasWaiting row (.ok (status, tokens))) := by
    unfold settleStep
    split
    · split
      · exact .pure _
      · exact recorded
    · exact recorded
    · exact saveTask_balanced.bind fun _ => .fail _
  have ran {wasWaiting : Bool} {row : Task}
      : Balanced
          (Program.attempt (runStep ctx taskId step.kind row.register row.artefactType) >>= fun result =>
            settleStep ctx taskId i wasWaiting row result) :=
    Balanced.attempt_bind runStep_balanced (fun _ => settled) fun error debt world faults owes =>
      refuse_owes error faults owes
  unfold advance
  dsimp only
  split
  · exact saveTask_balanced.bind fun _ => ran
  · exact ran

/-- One step of a task leaves no prompt unlogged, on every path through it. -/
theorem runTaskStep_balanced {taskId : String} : Balanced (runTaskStep ctx taskId) := by
  unfold runTaskStep
  refine (Balanced.reads task_emits).bind fun row => ?_
  cases row with
  | none => exact .fail _
  | some row =>
      dsimp only
      split
      · exact .pure _
      · refine (Balanced.reads kernel_emits).bind fun stops => ?_
        split
        · exact saveTask_balanced.bind fun _ => .fail _
        · split
          · exact saveTask_balanced.bind fun _ => .pure _
          · exact advance_balanced

/-- Every call is balanced, by cases on the call. -/
theorem invoke_balanced (call : Call) : Balanced (invoke call) := by
  cases call with
  | infer ctx archId capability regId => exact infer_balanced.map _
  | runTaskStep ctx taskId => exact runTaskStep_balanced.map _
  | _ =>
      refine .quiet (invoke_records _) ?_ (invoke_emits _) (by simp [Call.footprint])
      simp [Call.records]

end VerticalAI.Kernel
