import VerticalAI.Kernel.TaskStatus

/-! How a call of the scheduler may rewrite a row, whatever faults it meets, and what every
rewriting keeps.
-/

namespace VerticalAI.Kernel
open VerticalAI.Foundation VerticalAI.Contracts VerticalAI.Store

namespace Task

/-- The task is done or failed. -/
def Terminal (row : Task) : Prop := row.status = .done ∨ row.status = .failed

/-- What a step is worked from: the row as found, or with the step started. -/
def Begun (old : Task) (i : Nat) (base : Task)
    : Prop := base = old ∨ ∃ nowMs, base = old.started i nowMs

/-- What becomes of a row: its status alone, or its next step. -/
inductive Moved (old : Task) : Task → Prop where
  | stopped : Moved old { old with status := .stopped }
  | finished (next : old.next = none) : Moved old { old with status := .done }
  | started {i : Nat} {step : Step} {nowMs : UInt64} (next : old.next = some (i, step))
    : Moved old (old.started i nowMs)
  | waiting {i : Nat} {step : Step} {base : Task} (next : old.next = some (i, step))
    (begun : old.Begun i base)
    : Moved old (base.waiting i)
  | ended {i : Nat} {step : Step} {base : Task} {tokens : UInt32} {nowMs : UInt64}
    (next : old.next = some (i, step)) (begun : old.Begun i base)
    : Moved old (base.ended i .done tokens nowMs)
  | broken {i : Nat} {step : Step} {base : Task} {error : KernelError} {nowMs : UInt64}
    (next : old.next = some (i, step)) (begun : old.Begun i base)
    : Moved old (base.broken i error nowMs)

/-- What a task that was answered looks like, by what the call did. -/
inductive Answered (old : Task) : Task → Prop where
  | terminal (ended : old.Terminal) : Answered old old
  | finished (next : old.next = none) : Answered old { old with status := .done }
  | polled {i : Nat} {step : Step} (next : old.next = some (i, step))
    (waited : step.status = .waitingHuman)
    : Answered old old
  | waits {i : Nat} {step : Step} {base : Task} (next : old.next = some (i, step))
    (begun : old.Begun i base)
    : Answered old (base.waiting i)
  | ended {i : Nat} {step : Step} {base : Task} {tokens : UInt32} {nowMs : UInt64}
    (next : old.next = some (i, step)) (begun : old.Begun i base)
    : Answered old (base.ended i .done tokens nowMs)

variable {old row base : Task} {i : Nat}

/-- The step a row was begun at is the only one that differs. -/
theorem Begun.built (begun : old.Begun i base) (change : Step → Step)
    : Alike old base ∧ ∃ before : Step → Step,
        base.steps.modify i change = old.steps.modify i fun step => change (before step) := by
  rcases begun with rfl | ⟨nowMs, rfl⟩
  · exact ⟨Alike.refl base, fun step => step, rfl⟩
  · exact ⟨alike_started old i nowMs, _, List.modify_modify_eq _ _ i old.steps⟩

/-- The step a row was begun at is done once it ended so. -/
theorem Begun.ended_doneAt (begun : old.Begun i base) {step : Step}
    (placed : old.steps[i]? = some step)
    {tokens : UInt32} {nowMs : UInt64}
    : (base.ended i .done tokens nowMs).DoneAt i := by
  obtain ⟨-, before, built⟩ := begun.built fun step =>
    { step with status := .done, tokens, endedMs := some nowMs }
  have held : (base.ended i .done tokens nowMs).steps[i]?
      = some { before step with status := .done, tokens, endedMs := some nowMs } := by
    change (base.steps.modify i _)[i]? = _
    rw [built, List.getElem?_modify_eq, placed]
    rfl
  exact ⟨_, held, rfl⟩

/-- A row is moved in no step, or in the one that is next. -/
theorem Moved.built (moved : old.Moved row)
    : Alike old row ∧ (row.steps = old.steps
      ∨ ∃ i step change, old.next = some (i, step) ∧ row.steps = old.steps.modify i change) := by
  cases moved with
  | stopped => exact ⟨⟨rfl, rfl, rfl⟩, Or.inl rfl⟩
  | finished => exact ⟨⟨rfl, rfl, rfl⟩, Or.inl rfl⟩
  | started next => exact ⟨alike_started old _ _, Or.inr ⟨_, _, _, next, rfl⟩⟩
  | waiting next begun =>
      obtain ⟨alike, before, built⟩ := begun.built fun step => { step with status := .waitingHuman }
      exact ⟨alike.trans (alike_waiting _ _), Or.inr ⟨_, _, _, next, built⟩⟩
  | ended next begun =>
      obtain ⟨alike, before, built⟩ := begun.built _
      exact ⟨alike.trans (alike_ended _ _ .done _ _), Or.inr ⟨_, _, _, next, built⟩⟩
  | broken next begun =>
      obtain ⟨alike, before, built⟩ := begun.built _
      exact ⟨alike.trans (alike_broken _ _ _ _), Or.inr ⟨_, _, _, next, built⟩⟩

/-- A step that is done is not moved. -/
theorem Moved.keeps_done (moved : old.Moved row) {j : Nat} {step : Step}
    (placed : old.steps[j]? = some step) (done : step.status = .done)
    : row.steps[j]? = some step := by
  obtain ⟨-, same | ⟨i, ahead, change, next, built⟩⟩ := moved.built
  · rw [same, placed]
  · obtain ⟨there, undone, -⟩ := next_some next
    have different : i ≠ j := by
      rintro rfl
      obtain rfl := Option.some.inj (there.symm.trans placed)
      exact undone done
    rw [built, List.getElem?_modify_ne _ _ different, placed]

/-- No step but the next one differs between the rows. -/
theorem Moved.elsewhere (moved : old.Moved row) {j : Nat}
    (other : ∀ step, old.next ≠ some (j, step))
    : row.steps[j]? = old.steps[j]? := by
  obtain ⟨-, same | ⟨i, ahead, change, next, built⟩⟩ := moved.built
  · rw [same]
  · have different : i ≠ j := by
      rintro rfl
      exact other ahead next
    rw [built, List.getElem?_modify_ne _ _ different]

/-- Rows that are moved stay in order. -/
theorem Moved.inOrder (moved : old.Moved row) (order : old.InOrder) : row.InOrder := by
  obtain ⟨-, same | ⟨i, ahead, change, next, built⟩⟩ := moved.built
  · have next : row.next = old.next := by rw [Task.next, Task.next, same]
    intro i step following j behind later placed
    exact order i step (next ▸ following) j behind later (same ▸ placed)
  · exact order.modify next built

/-- A row is moved to done only when it has no next step. -/
theorem Moved.next_none (moved : old.Moved row) (done : row.status = .done) : row.next = none := by
  cases moved with
  | finished next => exact next
  | ended next begun =>
      refine all_done_iff.mp ?_
      by_contra undone
      exact absurd ((if_neg undone).symm.trans done) nofun
  | _ => cases done

/-- An answered call keeps the list of steps. -/
theorem Answered.steps_length (answered : old.Answered row)
    : row.steps.length = old.steps.length := by
  have moved : row = old ∨ old.Moved row := by
    cases answered with
    | terminal => exact Or.inl rfl
    | finished next => exact Or.inr (.finished next)
    | polled => exact Or.inl rfl
    | waits next begun => exact Or.inr (.waiting next begun)
    | ended next begun => exact Or.inr (.ended next begun)
  rcases moved with rfl | moved
  · rfl
  · simpa using congrArg List.length moved.built.1.kinds

end Task

section Calls

variable [Libraries] {ctx : Ctx} {old : Task}

/-- Rows are written only to move the one found, unless it is terminal. -/
def MovesRow (old : Task) (_ : World) (update : Update) : Prop :=
  update.area = .tasks → ∃ row, update = .putTask row ∧ ¬old.Terminal ∧ old.Moved row

theorem movesRow_elsewhere {areas : List Area} (absent : Area.tasks ∉ areas) {world : World}
    {update : Update} (within : Within areas world update)
    : MovesRow old world update :=
  fun area => absurd (area ▸ within.1) absent

/-- What the scheduler writes around the work of a step: the record, and rows that move the one
found.
-/
def Bookkeeping (old : Task) (world : World) (update : Update) : Prop :=
  update.area ∈ [Area.record, .tasks] ∧ MovesRow old world update

omit [Libraries] in
theorem saveTask_moves {row : Task} (goesOn : ¬old.Terminal) (moved : old.Moved row)
    : (saveTask row).Emits (Bookkeeping old) :=
  save_emits fun _ => ⟨by simp [Update.area], fun _ => ⟨row, rfl, goesOn, moved⟩⟩

/-- A step is done or waits, whatever faults it meets. -/
theorem runStep_status {taskId artefactType : String} {kind : StepKind} {register : RegisterId}
    {world after : World} {faults rest : List Fault} {status : StepStatus} {tokens : UInt32}
    (ran : runStep ctx taskId kind register artefactType world faults
      = (.done (status, tokens), after, rest))
    : status = .done ∨ status = .waitingHuman := by
  cases kind with
  | harness name =>
      cases ran
      exact Or.inr rfl
  | approve =>
      obtain ⟨subject, _, _, -, listed⟩ := Program.bind_done_inv ran
      obtain ⟨approvals, _, _, -, ended⟩ := Program.bind_done_inv listed
      cases ended
      split
      · exact Or.inl rfl
      · exact Or.inr rfl
  | plan archId | draft archId | judge archId | release toDir =>
      obtain ⟨_, _, _, -, ended⟩ := Program.bind_done_inv ran
      cases ended
      exact Or.inl rfl

/-- What the step came to moves the next step only. -/
theorem settleStep_moves (goesOn : ¬old.Terminal) {i : Nat} {step : Step} {base : Task}
    (next : old.next = some (i, step)) (begun : old.Begun i base) {wasWaiting : Bool}
    {result : Except KernelError (StepStatus × UInt32)}
    (settled : ∀ status tokens, result = .ok (status, tokens) → status = .done ∨ status = .waitingHuman)
    : (settleStep ctx old.id i wasWaiting base result).Emits (Bookkeeping old) := by
  have logged {kind : String} {payload : Json}
      : (log kind ctx.nowMs payload).Emits (Bookkeeping old) :=
    log_emits.mono fun _ _ within =>
      ⟨List.mem_of_mem_head? (List.mem_singleton.mp within.1 ▸ rfl),
        movesRow_elsewhere (by decide) within⟩
  have recorded {row : Task} (moved : old.Moved row)
      : (recordStep ctx old.id i row).Emits (Bookkeeping old) :=
    logged.bind fun _ => (saveTask_moves goesOn moved).bind fun _ => Program.emits_pure
  unfold settleStep
  split
  · split
    · exact Program.emits_pure
    · exact recorded (.waiting next begun)
  · next status tokens fresh =>
      rcases settled status tokens rfl with rfl | rfl
      · exact recorded (.ended next begun)
      · exact absurd rfl fresh
  · exact (saveTask_moves goesOn (.broken next begun)).bind fun _ => Program.emits_fail

/-- Running the next step moves it only. -/
theorem advance_moves (goesOn : ¬old.Terminal) {i : Nat} {step : Step}
    (next : old.next = some (i, step))
    : (advance ctx old.id old i step).Emits (MovesRow old) := by
  have worked {base : Task} (begun : old.Begun i base) {wasWaiting : Bool}
      : (Program.attempt (runStep ctx old.id step.kind old.register old.artefactType)
          >>= fun result => settleStep ctx old.id i wasWaiting base result).Emits (MovesRow old) := by
    have ran : (Program.attempt (runStep ctx old.id step.kind old.register old.artefactType)
        : Syscall (Except KernelError (StepStatus × UInt32))).Satisfies (fun _ => True) (MovesRow old)
          (fun result _ => ∀ status tokens, result = .ok (status, tokens)
            → status = .done ∨ status = .waitingHuman)
          (fun _ _ => True) := by
      refine Program.Satisfies.attempt (Program.Satisfies.consequence
        (Program.Emits.returns runStep_emits fun _ _ _ _ _ ran => runStep_status ran)
        (fun _ holds => holds) (fun _ _ => movesRow_elsewhere (by decide)) ?_ fun _ _ _ _ _ => nofun)
      rintro ⟨status, tokens⟩ world settled _ _ same
      cases same
      exact settled
    exact ran.bind fun result => Program.satisfies_of_fact (fun _ settled => settled) fun settled =>
      ((settleStep_moves goesOn next begun settled).mono fun _ _ => And.right).from_any
  unfold advance
  cases decide (step.status = .waitingHuman) with
  | true => exact worked (Or.inl rfl)
  | false =>
      exact ((saveTask_moves goesOn (.started next)).mono fun _ _ => And.right).bind fun _ =>
        worked (Or.inr ⟨ctx.nowMs, rfl⟩)

/-- A call of the scheduler moves the row it found, and no other. -/
theorem runTaskStep_moves {world : World} (stored : world.disk.tasks[old.id]? = some old)
    (faults : List Fault)
    : Trail (MovesRow old) world (runTaskStep ctx old.id world faults).2.1 := by
  have triple : (runTaskStep ctx old.id).Satisfies (fun later => later = world) (MovesRow old)
      (fun _ _ => True) (fun _ _ => True) := by
    refine Program.Emits.reads_bind task_emits
      (fun later _ shown _ _ ran =>
        show ∀ row, shown = some row → later.disk.tasks[old.id]? = some row from
          fun row same => (task_done (same ▸ ran)).1) fun shown => ?_
    cases shown with
    | none => exact Program.satisfies_fail fun _ _ => trivial
    | some row =>
        have same : ∀ later, later = world
            ∧ (∀ shown, some row = some shown → later.disk.tasks[old.id]? = some shown)
            → old = row := by
          rintro later ⟨rfl, found⟩
          exact Option.some.inj (stored.symm.trans (found row rfl))
        refine Program.satisfies_of_fact same fun same => ?_
        subst same
        refine Program.Emits.from_any ?_
        dsimp only
        split
        · exact Program.emits_pure
        · next goesOn =>
            refine kernel_emits.bind fun stops => ?_
            split
            · exact ((saveTask_moves goesOn .stopped).mono fun _ _ => And.right).bind fun _ =>
                Program.emits_fail
            · split
              · next next =>
                  exact ((saveTask_moves goesOn (.finished next)).mono fun _ _ => And.right).bind fun _ =>
                    Program.emits_pure
              · next next => exact advance_moves goesOn next
  exact triple.trail rfl faults

/-- What was at a row's place before a call is there after it, moved at most. -/
theorem runTaskStep_row (ctx : Ctx) {world : World} (stored : world.disk.tasks[old.id]? = some old)
    (faults : List Fault)
    : ∃ row, (runTaskStep ctx old.id world faults).2.1.disk.tasks[old.id]? = some row
      ∧ (row = old ∨ ¬old.Terminal ∧ old.Moved row) := by
  let Kept (later : World) : Prop :=
    ∃ row, later.disk.tasks[old.id]? = some row ∧ (row = old ∨ ¬old.Terminal ∧ old.Moved row)
  have kept : Kept (runTaskStep ctx old.id world faults).2.1 := by
    refine (runTaskStep_moves stored faults).preserves ?_ ⟨old, stored, Or.inl rfl⟩
    rintro later update ⟨row, held, moved⟩ guarded
    by_cases area : update.area = .tasks
    · obtain ⟨written, rfl, goesOn, moves⟩ := guarded area
      refine ⟨written, ?_, Or.inr ⟨goesOn, moves⟩⟩
      change (later.disk.tasks.insert written.id written)[old.id]? = some written
      rw [moves.built.1.id, Std.ExtTreeMap.getElem?_insert_self]
    · refine ⟨row, ?_, moved⟩
      have same : (Updates.apply update later : World).disk.tasks = later.disk.tasks :=
        World.Same.apply later update area
      rw [same, held]
  exact kept

/-- Between bookkeeping, the work of one step at most, and of the next one. -/
def OneStep (ctx : Ctx) (old : Task) (world last : World) : Prop :=
  ∃ before after, Trail (Bookkeeping old) world before
    ∧ (after = before ∨ ∃ i step left, old.next = some (i, step)
      ∧ after = (runStep ctx old.id step.kind old.register old.artefactType before left).2.1)
    ∧ Trail (Bookkeeping old) after last

theorem OneStep.idle {world last : World} (trail : Trail (Bookkeeping old) world last)
    : OneStep ctx old world last :=
  ⟨world, world, .refl world, Or.inl rfl, trail⟩

theorem OneStep.after {world middle last : World} (trail : Trail (Bookkeeping old) world middle)
    (worked : OneStep ctx old middle last)
    : OneStep ctx old world last := by
  obtain ⟨before, after, head, work, tail⟩ := worked
  exact ⟨before, after, trail.trans head, work, tail⟩

/-- Running the next step is the work of one step. -/
theorem advance_work (goesOn : ¬old.Terminal) {i : Nat} {step : Step}
    (next : old.next = some (i, step)) (world : World) (faults : List Fault)
    : OneStep ctx old world (advance ctx old.id old i step world faults).2.1 := by
  have worked {base : Task} (begun : old.Begun i base) (wasWaiting : Bool) (world : World)
      (faults : List Fault)
      : OneStep ctx old world ((Program.attempt (runStep ctx old.id step.kind old.register
          old.artefactType) >>= settleStep ctx old.id i wasWaiting base) world faults).2.1 := by
    refine ⟨world, _, .refl world, Or.inr ⟨i, step, faults, next, rfl⟩, ?_⟩
    rw [Program.bind_run, Program.attempt]
    rcases work : runStep ctx old.id step.kind old.register old.artefactType world faults with
      ⟨⟨status, tokens⟩ | error | _, last, unmet⟩
    · refine (settleStep_moves goesOn next begun fun status tokens same => ?_).trail last unmet
      cases same
      exact runStep_status work
    · exact (settleStep_moves goesOn next begun (fun _ _ same => by cases same)).trail last unmet
    · exact .refl last
  unfold advance
  cases decide (step.status = .waitingHuman) with
  | true => exact worked (Or.inl rfl) true world faults
  | false =>
      change OneStep ctx old world ((saveTask (old.started i ctx.nowMs) >>= fun _ =>
        Program.attempt (runStep ctx old.id step.kind old.register old.artefactType)
          >>= settleStep ctx old.id i false (old.started i ctx.nowMs)) world faults).2.1
      rcases (saveTask_moves goesOn (.started next)).bind_run world faults with
        saved | ⟨_, middle, rest, saved, goes⟩
      · exact .idle saved
      · rw [goes]
        exact .after saved (worked (Or.inr ⟨ctx.nowMs, rfl⟩) false middle rest)

/-- A call of the scheduler does the work of one step at most, the one that is next. -/
theorem runTaskStep_work (ctx : Ctx) {world : World} (stored : world.disk.tasks[old.id]? = some old)
    (faults : List Fault)
    : OneStep ctx old world (runTaskStep ctx old.id world faults).2.1 := by
  unfold runTaskStep
  rw [Program.bind_run]
  rcases read : task ctx old.id world faults with ⟨shown | error | _, middle, rest⟩
  all_goals
    obtain rfl := task_emits.still_inv read
  · cases shown with
    | none => exact .idle (.refl _)
    | some row =>
        obtain rfl := Option.some.inj (stored.symm.trans (task_done read).1)
        dsimp only
        split
        · exact .idle (.refl _)
        · next goesOn =>
            rw [kernel, Program.observe_bind_run]
            split
            · exact .idle (((saveTask_moves goesOn .stopped).bind fun _ =>
                Program.emits_fail).trail _ rest)
            · cases next : old.next with
              | none =>
                  exact .idle (((saveTask_moves goesOn (.finished next)).bind fun _ =>
                    Program.emits_pure).trail _ rest)
              | some current => exact advance_work goesOn next _ rest
  · exact .idle (.refl _)
  · exact .idle (.refl _)

/-- A step that was recorded is in the stored row. -/
theorem recordStep_done {i : Nat} {row answer : Task} {world after : World}
    {faults rest : List Fault}
    (ran : recordStep ctx old.id i row world faults = (.done answer, after, rest))
    : answer = row ∧ after.disk.tasks[row.id]? = some row := by
  obtain ⟨_, _, _, -, saved⟩ := Program.bind_done_inv ran
  obtain ⟨_, _, _, stored, ended⟩ := Program.bind_done_inv saved
  cases ended
  obtain rfl := save_done stored
  exact ⟨rfl, Std.ExtTreeMap.getElem?_insert_self⟩

/-- A step that was worked and answered is in the stored row, as what it came to. -/
theorem settleStep_answered {i : Nat} {step : Step} {base answer : Task} {wasWaiting : Bool}
    {world after : World} {faults rest : List Fault} (next : old.next = some (i, step))
    (begun : old.Begun i base) (held : world.disk.tasks[old.id]? = some base)
    (waited : wasWaiting = true → base = old ∧ step.status = .waitingHuman)
    (ran : (Program.attempt (runStep ctx old.id step.kind old.register old.artefactType)
      >>= settleStep ctx old.id i wasWaiting base) world faults = (.done answer, after, rest))
    : after.disk.tasks[old.id]? = some answer ∧ old.Answered answer := by
  have named : base.id = old.id := (begun.built fun step => step).1.id
  obtain ⟨result, middle, left, worked, settled⟩ := Program.bind_done_inv ran
  rcases work : runStep ctx old.id step.kind old.register old.artefactType world faults with
    ⟨⟨status, tokens⟩ | error | _, last, unmet⟩
  all_goals
    rw [Program.attempt, work] at worked
    cases worked
  · have kept := same_of_trail (runStep_emits.trail_inv work) .tasks (by decide)
    rw [World.Same] at kept
    rcases runStep_status work with rfl | rfl
    · obtain ⟨rfl, stored⟩ := recordStep_done settled
      exact ⟨named ▸ stored, .ended next begun⟩
    · rw [settleStep] at settled
      split at settled
      · next was =>
          obtain ⟨rfl, still⟩ := waited was
          cases settled
          exact ⟨kept ▸ held, .polled next still⟩
      · obtain ⟨rfl, stored⟩ := recordStep_done settled
        exact ⟨named ▸ stored, .waits next begun⟩
  · obtain ⟨_, _, _, -, failed⟩ := Program.bind_done_inv settled
    cases failed

/-- A call of the scheduler that answered gives the stored row, with at most its next step run. -/
theorem runTaskStep_answered {answer : Task} {world after : World} {faults rest : List Fault}
    (stored : world.disk.tasks[old.id]? = some old)
    (ran : runTaskStep ctx old.id world faults = (.done answer, after, rest))
    : after.disk.tasks[old.id]? = some answer ∧ old.Answered answer := by
  obtain ⟨shown, _, left, read, answered⟩ := Program.bind_done_inv ran
  obtain rfl := task_emits.still_inv read
  cases shown with
  | none => cases answered
  | some row =>
      obtain rfl := Option.some.inj (stored.symm.trans (task_done read).1)
      dsimp only at answered
      split at answered
      · next ended =>
          cases answered
          exact ⟨stored, .terminal ended⟩
      · rw [kernel, Program.observe_bind_run] at answered
        split at answered
        · obtain ⟨_, _, _, -, failed⟩ := Program.bind_done_inv answered
          cases failed
        · cases next : old.next with
          | none =>
              rw [next] at answered
              obtain ⟨_, _, _, saved, ended⟩ := Program.bind_done_inv answered
              cases ended
              obtain rfl := save_done saved
              exact ⟨Std.ExtTreeMap.getElem?_insert_self, .finished next⟩
          | some current =>
              obtain ⟨i, step⟩ := current
              rw [next] at answered
              dsimp only at answered
              unfold advance at answered
              by_cases waited : step.status = .waitingHuman
              · simp only [waited, decide_true, if_true, Bool.not_true, Bool.false_eq_true, if_false]
                  at answered
                exact settleStep_answered next (Or.inl rfl) stored (fun _ => ⟨rfl, waited⟩) answered
              · simp only [waited, decide_false, Bool.false_eq_true, if_false, Bool.not_false, if_true]
                  at answered
                obtain ⟨_, _, _, saved, settled⟩ := Program.bind_done_inv answered
                obtain rfl := save_done saved
                exact settleStep_answered next (Or.inr ⟨ctx.nowMs, rfl⟩)
                  Std.ExtTreeMap.getElem?_insert_self (fun waits => by cases waits) settled

end Calls

end VerticalAI.Kernel
