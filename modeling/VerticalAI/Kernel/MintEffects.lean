import VerticalAI.Kernel.Numbering
import VerticalAI.Kernel.TaskReads

/-! What submitting and creating a task file under the ids they mint, however they end. -/

namespace VerticalAI.Kernel
open VerticalAI.Foundation VerticalAI.Contracts VerticalAI.Store

variable [Libraries] {ctx : Ctx} {goal artefactType : String} {label : Label}

/-- A register was filed, under the next two numbers, whether or not the record of it was written.
-/
structure Submitted (world after : World) (reg : Register) : Prop where
  minted : reg.id.text = mintedId "reg" world.kernel.nodeId (world.kernel.counter + 1)
  mintedTask : reg.taskId = mintedId "task" world.kernel.nodeId (world.kernel.counter + 2)
  empty : reg.artefacts = []
  logged : Trail (Within [.record])
    (Updates.apply (Update.putRegister reg) world.counted.counted) after

theorem Submitted.stored {world after : World} {reg : Register}
    (submitted : Submitted world after reg)
    : after.disk.registers = world.disk.registers.insert reg.id.text reg :=
  same_of_trail submitted.logged .registers (by decide)

/-- Both ids are new ones, and two. -/
theorem Submitted.newIds {world after : World} {reg : Register}
    (submitted : Submitted world after reg) (supply : Supply 2 world)
    : NewId world.disk after.disk reg.id.text ∧ NewId world.disk after.disk reg.taskId
      ∧ reg.id.text ≠ reg.taskId := by
  have behind := supply.behind
  have room := supply.room
  have first : (world.kernel.counter + 1).toNat = world.kernel.counter.toNat + 1 :=
    Counter.toNat_succ (Nat.lt_of_succ_lt room)
  have second : (world.kernel.counter + 2).toNat = world.kernel.counter.toNat + 2 :=
    Counter.toNat_add room
  have kept : after.counters = world.counted.counted.counters :=
    (counters_frame submitted.logged (by decide)).trans rfl
  have numbered : after.disk.numbered = (world.kernel.counter + 2).toNat :=
    congrArg Prod.fst (kept.trans (counters_counted_twice world))
  refine ⟨⟨_, _, _, submitted.minted, ?_, ?_⟩, ⟨_, _, _, submitted.mintedTask, ?_, ?_⟩, ?_⟩
  · omega
  · omega
  · omega
  · omega
  · rw [submitted.minted, submitted.mintedTask]
    intro same
    have := congrArg UInt64.toNat (mintedId_number same)
    omega

/-- Submitting a task ends before the register is written, or has filed it. -/
theorem submitTask_effect (ctx : Ctx) (goal : String) (label : Label) (world : World)
    (faults : List Fault)
    : Refused world (submitTask ctx goal label world faults).1
        (submitTask ctx goal label world faults).2.1
      ∨ ∃ reg,
          Submitted world (submitTask ctx goal label world faults).2.1 reg
          ∧ ∀ id, (submitTask ctx goal label world faults).1 = .done id → id = reg.id := by
  unfold submitTask
  have once : Trail (Within [.counter, .record]) world world.counted := trail_counted (.head _) world
  rcases nextId_cases "reg" world faults with
    ⟨rest, minted⟩ | ⟨error, rest, minted⟩ | ⟨rest, minted⟩
  · rw [Program.bind_done minted]
    rcases nextId_cases "task" world.counted rest with
      ⟨rest, second⟩ | ⟨error, rest, second⟩ | ⟨rest, second⟩
    · rw [Program.bind_done second]
      have twice : Trail (Within [.counter, .record]) world world.counted.counted :=
        once.trans (trail_counted (.head _) world.counted)
      generalize built : Register.mk
        ⟨mintedId "reg" world.kernel.nodeId (world.kernel.counter + 1)⟩
        (mintedId "task" world.counted.kernel.nodeId (world.counted.kernel.counter + 1))
        label goal [] [] [] [] [] = reg
      rcases save_cases (.putRegister reg) world.counted.counted rest with
        ⟨rest, saved⟩ | ⟨reason, rest, saved⟩ | ⟨rest, saved⟩
      · rw [Program.bind_done saved]
        have named : reg.id
            = ⟨mintedId "reg" world.kernel.nodeId (world.kernel.counter + 1)⟩ := built ▸ rfl
        have task : reg.taskId = mintedId "task" world.kernel.nodeId (world.kernel.counter + 2) := by
          rw [← built, ← mintedId_counted]
        have empty : reg.artefacts = [] := built ▸ rfl
        generalize filed : Updates.apply (Update.putRegister reg) world.counted.counted = stored
        have logged : Trail (Within [.record]) stored
            (log "task.submitted" ctx.nowMs
              (.str (mintedId "reg" world.kernel.nodeId (world.kernel.counter + 1)))
              stored rest).2.1 := log_emits.trail _ _
        refine Or.inr ⟨reg, ?_⟩
        rcases ran : log "task.submitted" ctx.nowMs
          (.str (mintedId "reg" world.kernel.nodeId (world.kernel.counter + 1))) stored rest with
          ⟨_ | error | _, after, left⟩
        all_goals
          rw [ran] at logged
          subst filed
          have submitted : Submitted world after reg :=
            ⟨congrArg RegisterId.text named, task, empty, logged⟩
        · rw [Program.bind_done ran]
          exact ⟨submitted, fun id returned => by cases returned; exact named.symm⟩
        · rw [Program.bind_failed ran]
          exact ⟨submitted, nofun⟩
        · rw [Program.bind_crashed ran]
          exact ⟨submitted, nofun⟩
      · rw [Program.bind_failed saved]
        exact Or.inl ⟨twice, nofun⟩
      · rw [Program.bind_crashed saved]
        exact Or.inl ⟨twice, nofun⟩
    · rw [Program.bind_failed second]
      exact Or.inl ⟨once.trans (trail_countUp (.head _) world.counted), nofun⟩
    · rw [Program.bind_crashed second]
      exact Or.inl ⟨once.trans (trail_countUp (.head _) world.counted), nofun⟩
  · rw [Program.bind_failed minted]
    exact Or.inl ⟨trail_countUp (.head _) world, nofun⟩
  · rw [Program.bind_crashed minted]
    exact Or.inl ⟨trail_countUp (.head _) world, nofun⟩

/-- No step of the task was begun. -/
structure Task.Untouched (row : Task) : Prop where
  queued : row.status = .queued
  pending : ∀ step ∈ row.steps, step.status = .pending

/-- Creating a task ends before the register is written, or has filed it, and possibly a task under
the ids of the register.
-/
theorem createTask_effect (ctx : Ctx) (goal artefactType : String) (label : Label)
    (steps : List StepKind) (world : World) (faults : List Fault)
    : Trail (Within [.counter, .record]) world
        (createTask ctx goal artefactType label steps world faults).2.1
      ∨ ∃ reg middle, Submitted world middle reg
        ∧ ((createTask ctx goal artefactType label steps world faults).2.1 = middle
          ∨ ∃ row : Task, row.Untouched ∧ row.id = reg.taskId ∧ row.register = reg.id
            ∧ (createTask ctx goal artefactType label steps world faults).2.1
              = Updates.apply (Update.putTask row) middle) := by
  unfold createTask
  have effect := submitTask_effect ctx goal label world faults
  rcases ran : submitTask ctx goal label world faults with ⟨id | error | _, middle, rest⟩
  all_goals rw [ran] at effect
  · rw [Program.bind_done ran]
    obtain refused | ⟨reg, submitted, same⟩ := effect
    · exact absurd rfl (refused.noValue id)
    · obtain rfl := same id rfl
      refine Or.inr ⟨reg, middle, submitted, ?_⟩
      rcases read : readRegister ctx reg.id middle rest with ⟨found | error | _, after, left⟩
      all_goals obtain rfl : after = middle := readRegister_emits.still_inv read
      · rw [Program.bind_done read]
        have held := (readRegister_done read).1
        rw [submitted.stored, Std.ExtTreeMap.getElem?_insert_self] at held
        obtain rfl := Option.some.inj held
        generalize built : Task.mk reg.taskId reg.id goal artefactType _ _ _ = row
        have untouched : row.Untouched := by
          refine built ▸ ⟨rfl, fun step member => ?_⟩
          obtain ⟨kind, -, rfl⟩ := List.mem_map.mp member
          rfl
        have named : row.id = reg.taskId ∧ row.register = reg.id := built ▸ ⟨rfl, rfl⟩
        let answer (_ : Unit) : Syscall Task := pure row
        change (saveTask row >>= answer) after left |>.2.1 = _ ∨ _
        rcases save_cases (.putTask row) after left with
          ⟨rest, saved⟩ | ⟨reason, rest, saved⟩ | ⟨rest, saved⟩
        · have ended : (saveTask row >>= answer) after left = _ := Program.bind_done saved
          exact Or.inr ⟨row, untouched, named.1, named.2, congrArg (·.2.1) ended⟩
        · have ended : (saveTask row >>= answer) after left = _ := Program.bind_failed saved
          exact Or.inl (congrArg (·.2.1) ended)
        · have ended : (saveTask row >>= answer) after left = _ := Program.bind_crashed saved
          exact Or.inl (congrArg (·.2.1) ended)
      · rw [Program.bind_failed read]
        exact Or.inl rfl
      · rw [Program.bind_crashed read]
        exact Or.inl rfl
  · rw [Program.bind_failed ran]
    obtain refused | ⟨reg, submitted, -⟩ := effect
    · exact Or.inl refused.quiet
    · exact Or.inr ⟨reg, middle, submitted, Or.inl rfl⟩
  · rw [Program.bind_crashed ran]
    obtain refused | ⟨reg, submitted, -⟩ := effect
    · exact Or.inl refused.quiet
    · exact Or.inr ⟨reg, middle, submitted, Or.inl rfl⟩

end VerticalAI.Kernel
