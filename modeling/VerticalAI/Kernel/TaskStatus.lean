import VerticalAI.Kernel.TaskSteps

/-! The status of a task and the statuses of its steps: what a call of the scheduler makes of them
when storage works.
-/

namespace VerticalAI.Kernel
open VerticalAI.Foundation VerticalAI.Contracts VerticalAI.Store

-----------------------------------------------------------------------------------------
-- Statuses
-----------------------------------------------------------------------------------------

/-- The steps behind the next one were not touched. -/
def Task.InOrder (row : Task) : Prop :=
  ∀ i step, row.next = some (i, step) → ∀ j, i < j → ∀ behind, row.steps[j]? = some behind
    → behind.status = .pending

/-- The statuses a stored task may have while its next step has this one. -/
def Fits : TaskStatus → Option StepStatus → Prop
  | .queued, none | .stopped, none | .done, none => True
  | .queued, some .pending | .running, some .pending | .stopped, some .pending => True
  | .waitingHuman, some .waitingHuman | .stopped, some .waitingHuman => True
  | .failed, some (.failed _) => True
  | _, _ => False

/-- Between calls, the steps behind the next one were not touched, and the status fits it. -/
structure Settled (row : Task) : Prop where
  later : ∀ i step, row.next = some (i, step) → ∀ j, i < j → ∀ behind, row.steps[j]? = some behind
    → behind.status = .pending
  fits : Fits row.status (row.next.map (·.2.status))

/-- The status of a task says what its steps are. -/
structure Coherent (row : Task) : Prop where
  done : row.status = .done ↔ ∀ step ∈ row.steps, step.status = .done
  waiting : row.status = .waitingHuman ↔ row.next.map (·.2.status) = some .waitingHuman
  failed : row.status = .failed ↔ ∃ reason, row.next.map (·.2.status) = some (.failed reason)
  running : row.status = .running ↔ row.next.map (·.2.status) = some .pending
  notStopped : row.status ≠ .stopped

theorem Task.next_eq_none_iff {row : Task}
    : row.next = none ↔ ∀ step ∈ row.steps, step.status = .done := by
  refine ⟨Task.next_none, fun done => ?_⟩
  by_contra some
  obtain ⟨⟨i, step⟩, next⟩ := Option.ne_none_iff_exists'.mp some
  obtain ⟨placed, undone, -⟩ := Task.next_some next
  exact undone (done step (List.mem_of_getElem? placed))

theorem Task.all_done_iff {row : Task}
    : row.steps.all (·.status = .done) = true ↔ row.next = none := by
  rw [Task.next_eq_none_iff, List.all_eq_true]
  exact forall₂_congr fun _ _ => decide_eq_true_iff

/-- But for tasks that are queued or stopped, the fitting status is the only one, by cases on
both.
-/
theorem fits_iff {status : TaskStatus} {ahead : Option StepStatus} (fits : Fits status ahead)
    (notStopped : status ≠ .stopped) (notQueued : status ≠ .queued)
    : (status = .done ↔ ahead = none) ∧ (status = .waitingHuman ↔ ahead = some .waitingHuman)
      ∧ (status = .failed ↔ ∃ reason, ahead = some (.failed reason))
      ∧ (status = .running ↔ ahead = some .pending) := by
  cases status <;> rcases ahead with _ | (_ | _ | _ | _ | _) <;> simp_all [Fits]

/-- A settled task that is neither queued nor stopped is coherent. -/
theorem Settled.coherent {row : Task} (settled : Settled row) (notStopped : row.status ≠ .stopped)
    (notQueued : row.status ≠ .queued)
    : Coherent row := by
  obtain ⟨done, waiting, failed, running⟩ := fits_iff settled.fits notStopped notQueued
  refine ⟨?_, waiting, failed, running, notStopped⟩
  rw [done, Option.map_eq_none_iff, Task.next_eq_none_iff]

-----------------------------------------------------------------------------------------
-- What becomes of the next step
-----------------------------------------------------------------------------------------

section Next

variable {row changed : Task} {i : Nat} {step : Step} {change : Step → Step}

/-- Other steps stay done. -/
theorem doneAt_elsewhere (built : changed.steps = row.steps.modify i change) {j : Nat}
    (other : j ≠ i)
    : changed.DoneAt j ↔ row.DoneAt j := by
  unfold Task.DoneAt
  rw [built, List.getElem?_modify_ne _ _ (Ne.symm other)]

/-- The next step is still next while it is not done. -/
theorem next_of_undone (next : row.next = some (i, step))
    (built : changed.steps = row.steps.modify i change) (undone : (change step).status ≠ .done)
    : changed.next = some (i, change step) := by
  obtain ⟨placed, -, before⟩ := Task.next_some next
  refine Task.next_eq_some ?_ undone fun j below => ?_
  · rw [built, List.getElem?_modify_eq, placed]
    rfl
  · exact (doneAt_elsewhere built below.ne).mpr (before j below)

/-- The steps behind a place are not touched. -/
theorem later_of_modify (order : row.InOrder) (next : row.next = some (i, step))
    (built : changed.steps = row.steps.modify i change) {j : Nat} (behind : i < j) {later : Step}
    (placed : changed.steps[j]? = some later)
    : later.status = .pending := by
  rw [built, List.getElem?_modify_ne _ _ behind.ne] at placed
  exact order i step next j behind later placed

/-- Once a step is done the next one is behind it, and was not touched. -/
theorem next_of_done (order : row.InOrder) (next : row.next = some (i, step))
    (built : changed.steps = row.steps.modify i change) (done : (change step).status = .done)
    {k : Nat} {ahead : Step} (following : changed.next = some (k, ahead))
    : i < k ∧ ahead.status = .pending := by
  obtain ⟨placed, undone, before⟩ := Task.next_some following
  obtain ⟨there, -, earlier⟩ := Task.next_some next
  have finished : changed.DoneAt i := by
    refine ⟨change step, ?_, done⟩
    rw [built, List.getElem?_modify_eq, there]
    rfl
  have behind : i < k := by
    by_contra notBehind
    have held : changed.DoneAt k := by
      rcases Nat.lt_or_eq_of_le (Nat.le_of_not_lt notBehind) with below | rfl
      · exact (doneAt_elsewhere built below.ne).mpr (earlier k below)
      · exact finished
    obtain ⟨other, same, ended⟩ := held
    rw [placed] at same
    obtain rfl := Option.some.inj same
    exact undone ended
  exact ⟨behind, later_of_modify order next built behind placed⟩

/-- Only the next step changed, so what is behind the step that is next now was not touched. -/
theorem Task.InOrder.modify (order : row.InOrder) (next : row.next = some (i, step))
    (built : changed.steps = row.steps.modify i change)
    : changed.InOrder := by
  intro k other following j behind later placed
  by_cases done : (change step).status = .done
  · obtain ⟨after, -⟩ := next_of_done order next built done following
    exact later_of_modify order next built (after.trans behind) placed
  · rw [next_of_undone next built done] at following
    obtain ⟨rfl, -⟩ := Prod.mk.inj (Option.some.inj following)
    exact later_of_modify order next built behind placed

/-- A task whose next step came to something other than done is settled if its status fits. -/
theorem settled_of_undone (settled : Settled row) (next : row.next = some (i, step))
    (built : changed.steps = row.steps.modify i change) (undone : (change step).status ≠ .done)
    (fits : Fits changed.status (some (change step).status))
    : Settled changed := by
  refine ⟨Task.InOrder.modify settled.later next built, ?_⟩
  rw [next_of_undone next built undone]
  exact fits

/-- A task whose next step is done is settled if it is done as a whole or goes on running. -/
theorem settled_of_done (settled : Settled row) (next : row.next = some (i, step))
    (built : changed.steps = row.steps.modify i change) (done : (change step).status = .done)
    (status : changed.status
      = if changed.steps.all (·.status = .done) then .done else .running)
    : Settled changed := by
  refine ⟨Task.InOrder.modify settled.later next built, ?_⟩
  rw [status]
  cases following : changed.next with
  | none =>
      rw [if_pos (Task.all_done_iff.mpr following)]
      trivial
  | some ahead =>
      obtain ⟨-, pending⟩ := next_of_done settled.later next built done following
      rw [if_neg fun all => Option.some_ne_none ahead (following.symm.trans (Task.all_done_iff.mp all)),
        Option.map_some, pending]
      trivial

end Next

-----------------------------------------------------------------------------------------
-- One call on working storage
-----------------------------------------------------------------------------------------

section Working

variable [Libraries]

/-- A human approval of this subject is on file. -/
def HumanApprovalFiled (disk : StateDir) (subject : String) : Prop :=
  ∃ (key : String) (approval : Approval), disk.approvals[key]? = some approval
    ∧ approval.kind = .human ∧ approval.subjectHash = subject

omit [Libraries] in
/-- Looking through the approvals of a subject for a human one finds it. -/
theorem any_human_iff {disk : StateDir} {subject : String}
    : ((disk.approvals.list.map (·.2)).filter (·.subjectHash = subject)).any (·.kind = .human) = true
      ↔ HumanApprovalFiled disk subject := by
  simp only [HumanApprovalFiled, List.any_eq_true, List.mem_filter, List.mem_map, decide_eq_true_eq,
    Prod.exists, Table.mem_list]
  constructor
  · rintro ⟨_, ⟨⟨key, approval, filed, rfl⟩, named⟩, human⟩
    exact ⟨key, approval, filed, human, named⟩
  · rintro ⟨key, approval, filed, human, named⟩
    exact ⟨approval, ⟨⟨key, approval, filed, rfl⟩, named⟩, human⟩

/-- A step of this kind has nothing to go on with yet: a harness never has, and an approval not
until a human approval of the subject is on file.
-/
def StillWaits (ctx : Ctx) (id : String) (world : World) : StepKind → Prop
  | .harness _ => True
  | .approve =>
      ∃ subject, (approvalSubject ctx id world []).1 = .done subject
        ∧ ¬∃ (key : String) (approval : Approval), world.disk.approvals[key]? = some approval
            ∧ approval.kind = .human ∧ approval.subjectHash = subject
  | _ => False

omit [Libraries] in
/-- With working storage all approvals of a subject are found. -/
theorem approvalsFor_working (subject : String) (world : World)
    : approvalsFor subject world []
      = (.done ((world.disk.approvals.list.map (·.2)).filter (·.subjectHash = subject)), world, [])
    := rfl

/-- A step is done or waits, and waits just when it has nothing to go on with. -/
theorem runStep_waits {ctx : Ctx} {id : String} {kind : StepKind} {register : RegisterId}
    {artefactType : String} {world after : World} {rest : List Fault} {status : StepStatus}
    {tokens : UInt32}
    (ran : runStep ctx id kind register artefactType world [] = (.done (status, tokens), after, rest))
    : (status = .done ∧ ¬StillWaits ctx id world kind)
      ∨ (status = .waitingHuman ∧ StillWaits ctx id world kind) := by
  cases kind with
  | harness name =>
      cases ran
      exact Or.inr ⟨rfl, trivial⟩
  | approve =>
      obtain ⟨subject, middle, left, read, answered⟩ := Program.bind_done_inv ran
      have emits : (approvalSubject ctx id).Emits (fun _ _ => False) := approvalSubject_emits
      have same := emits.still world []
      have met := emits.met world []
      rw [read] at same met
      obtain rfl : middle = world := same
      obtain rfl : left = [] := List.suffix_nil.mp met.left
      rw [Program.bind_done (approvalsFor_working subject middle)] at answered
      simp only [Program.pure_run, Prod.mk.injEq, Outcome.done.injEq] at answered
      obtain ⟨⟨settled, -⟩, -⟩ := answered
      split at settled
      · next human =>
          refine Or.inl ⟨settled.symm, ?_⟩
          rintro ⟨other, again, absent⟩
          rw [read] at again
          cases again
          exact absent (any_human_iff.mp human)
      · next noHuman =>
          refine Or.inr ⟨settled.symm, subject, congrArg Prod.fst read, ?_⟩
          exact fun present => noHuman (any_human_iff.mpr present)
  | plan archId | draft archId | judge archId | release toDir =>
      obtain ⟨_, _, _, _, result⟩ := Program.bind_done_inv ran
      cases result
      exact Or.inl ⟨rfl, fun waits => waits⟩

/-- With working storage an approval step asks for the approvals of the subject that is answered. -/
theorem runStep_approve {ctx : Ctx} {id subject : String} (artefactType : String)
    (register : RegisterId) {world : World}
    (answered : approvalSubject ctx id world [] = (.done subject, world, []))
    : runStep ctx id .approve register artefactType world []
      = (.done (if ((world.disk.approvals.list.map (·.2)).filter (·.subjectHash = subject)).any
          (·.kind = .human) then .done else .waitingHuman, 0), world, []) := by
  unfold runStep
  dsimp only
  rw [Program.bind_done answered, Program.bind_done (approvalsFor_working subject world)]
  rfl

/-- What running the next step makes of a task, with the answer of the call. -/
inductive Advanced (ctx : Ctx) (world : World) (row : Task) (i : Nat) (step : Step)
    : Outcome KernelError Task → Task → Prop where
  | polled (waited : step.status = .waitingHuman)
    (still : StillWaits ctx row.id world step.kind)
    : Advanced ctx world row i step (.done row) row
  | waits (fresh : step.status ≠ .waitingHuman)
    : Advanced ctx world row i step (.done ((row.started i ctx.nowMs).waiting i))
        ((row.started i ctx.nowMs).waiting i)
  | ended {base : Task} {tokens : UInt32} (begun : base = row ∨ base = row.started i ctx.nowMs)
    (moved : step.status = .waitingHuman → ¬StillWaits ctx row.id world step.kind)
    : Advanced ctx world row i step (.done (base.ended i .done tokens ctx.nowMs))
        (base.ended i .done tokens ctx.nowMs)
  | broken {base : Task} {error : KernelError}
    (begun : base = row ∨ base = row.started i ctx.nowMs)
    : Advanced ctx world row i step (.failed error) (base.broken i error ctx.nowMs)

variable {ctx : Ctx} {world : World} {row : Task} {i : Nat} {step : Step}

/-- With working storage a step's outcome goes on the record and into the row. -/
theorem recordStep_working (changed : Task)
    : recordStep ctx row.id i changed world []
      = (.done changed,
          Updates.apply (.putTask changed)
            (world.logged "task.step" ctx.nowMs (stepRecord row.id i)), []) := by
  have logged := log_working "task.step" ctx.nowMs (stepRecord row.id i) world
  unfold recordStep
  rw [stepRecord] at logged ⊢
  rw [Program.bind_done logged]
  rfl

omit [Libraries] in
/-- The row that was written last is the one stored. -/
theorem stored_putTask {changed : Task} (same : changed.id = row.id) (world : World)
    : (Updates.apply (.putTask changed) world : World).disk.tasks[row.id]? = some changed := by
  change (world.disk.tasks.insert changed.id changed)[row.id]? = some changed
  rw [same, Std.ExtTreeMap.getElem?_insert_self]

/-- Running a step that was begun settles it. -/
theorem settle_working {base : Task} {begun : World} {wasWaiting : Bool}
    (same : Task.Alike row base) (held : begun.disk.tasks[row.id]? = some base)
    (start : (base = row ∧ wasWaiting = true ∧ step.status = .waitingHuman ∧ begun = world)
      ∨ (base = row.started i ctx.nowMs ∧ wasWaiting = false ∧ step.status ≠ .waitingHuman))
    : ∃ outcome after result,
        (Program.attempt (runStep ctx row.id step.kind base.register base.artefactType)
          >>= settleStep ctx row.id i wasWaiting base) begun [] = (outcome, after, [])
        ∧ after.disk.tasks[row.id]? = some result
        ∧ Advanced ctx world row i step outcome result := by
  have origin : base = row ∨ base = row.started i ctx.nowMs := start.imp And.left And.left
  have emits : (runStep ctx row.id step.kind base.register base.artefactType).Emits
      (Within stepAreas) := runStep_emits
  have kept := same_of_trail (emits.trail begun []) .tasks (by decide)
  rw [World.Same] at kept
  rcases emits.working begun with ⟨⟨status, tokens⟩, after, ran⟩ | ⟨error, after, ran⟩
  · rw [ran] at kept
    have attempted : (Program.attempt (runStep ctx row.id step.kind base.register base.artefactType)
        : Syscall (Except KernelError (StepStatus × UInt32))) begun []
        = (.done (.ok (status, tokens)), after, []) :=
      Program.attempt_working_done ran
    rw [Program.bind_done attempted]
    rcases runStep_waits ran with ⟨rfl, moved⟩ | ⟨rfl, still⟩
    · have named : (base.ended i .done tokens ctx.nowMs).id = row.id := same.id
      refine ⟨_, _, _, recordStep_working _, stored_putTask named _, .ended origin ?_⟩
      intro waited
      rcases start with ⟨-, -, -, rfl⟩ | ⟨-, -, fresh⟩
      · exact moved
      · exact absurd waited fresh
    · rcases start with ⟨rfl, rfl, waited, rfl⟩ | ⟨rfl, rfl, fresh⟩
      · exact ⟨.done base, after, base, rfl, kept ▸ held, .polled waited still⟩
      · have named : ((row.started i ctx.nowMs).waiting i).id = row.id := rfl
        exact ⟨_, _, _, recordStep_working _, stored_putTask named _, .waits fresh⟩
  · have attempted : (Program.attempt (runStep ctx row.id step.kind base.register base.artefactType)
        : Syscall (Except KernelError (StepStatus × UInt32))) begun []
        = (.done (.error error), after, []) := by
      simp only [Program.attempt, ran]
    rw [Program.bind_done attempted]
    have named : (base.broken i error ctx.nowMs).id = row.id := same.id
    exact ⟨_, _, _, rfl, stored_putTask named after, .broken origin⟩

/-- With working storage a call advances the next step. -/
theorem advance_working (i : Nat) (step : Step) (stored : world.disk.tasks[row.id]? = some row)
    : ∃ outcome after result,
        advance ctx row.id row i step world [] = (outcome, after, [])
          ∧ after.disk.tasks[row.id]? = some result
          ∧ Advanced ctx world row i step outcome result := by
  unfold advance
  by_cases waited : step.status = .waitingHuman
  · simp only [waited, decide_true, if_true, Bool.not_true, Bool.false_eq_true, if_false]
    exact settle_working (Task.Alike.refl row) stored (Or.inl ⟨rfl, rfl, waited, rfl⟩)
  · simp only [waited, decide_false, Bool.false_eq_true, if_false, Bool.not_false, if_true]
    have named : (row.started i ctx.nowMs).id = row.id := rfl
    exact settle_working (Task.alike_started row i ctx.nowMs) (stored_putTask named world)
      (Or.inr ⟨rfl, rfl, waited⟩)

/-- What a call of the scheduler on a stored task answers, and the row it leaves. -/
inductive Stepped (ctx : Ctx) (world : World) (row : Task)
    : Outcome KernelError Task → Task → Prop where
  | kept {outcome : Outcome KernelError Task}
    (terminal : ∀ answer, outcome = .done answer
      → answer = row ∧ (row.status = .done ∨ row.status = .failed))
    : Stepped ctx world row outcome row
  | halted {error : KernelError} (goesOn : ¬(row.status = .done ∨ row.status = .failed))
    : Stepped ctx world row (.failed error) { row with status := .stopped }
  | finished (next : row.next = none)
    : Stepped ctx world row (.done { row with status := .done }) { row with status := .done }
  | advanced {i : Nat} {step : Step} {outcome : Outcome KernelError Task} {result : Task}
    (next : row.next = some (i, step)) (advanced : Advanced ctx world row i step outcome result)
    : Stepped ctx world row outcome result

/-- With working storage a call answers and leaves one of these. -/
theorem runTaskStep_working (ctx : Ctx) (stored : world.disk.tasks[row.id]? = some row)
    : ∃ outcome after result,
        runTaskStep ctx row.id world [] = (outcome, after, [])
          ∧ after.disk.tasks[row.id]? = some result ∧ Stepped ctx world row outcome result := by
  have emits : (task ctx row.id).Emits (fun _ _ => False) := task_emits
  have same := emits.still world []
  unfold runTaskStep
  rcases emits.working world with ⟨shown, middle, ran⟩ | ⟨error, middle, ran⟩
  · rw [ran] at same
    obtain rfl : middle = world := same
    rw [Program.bind_done ran]
    cases shown with
    | none => exact ⟨_, middle, row, rfl, stored, .kept nofun⟩
    | some shown =>
        obtain rfl : shown = row := Option.some.inj ((task_done ran).1.symm.trans stored)
        dsimp only
        split
        · next terminal =>
            refine ⟨_, middle, shown, rfl, stored, .kept fun answer given => ?_⟩
            cases given
            exact ⟨rfl, terminal⟩
        · next goesOn =>
            rw [kernel, Program.observe_bind_run]
            split
            · exact ⟨_, _, _, rfl, stored_putTask rfl middle, .halted goesOn⟩
            · cases next : shown.next with
              | none => exact ⟨_, _, _, rfl, stored_putTask rfl middle, .finished next⟩
              | some current =>
                  obtain ⟨outcome, after, result, advances, held, advanced⟩ :=
                    advance_working current.1 current.2 stored
                  exact ⟨outcome, after, result, advances, held, .advanced next advanced⟩
  · rw [ran] at same
    obtain rfl : middle = world := same
    rw [Program.bind_failed ran]
    exact ⟨_, middle, row, rfl, stored, .kept nofun⟩

end Working

-----------------------------------------------------------------------------------------
-- What a call keeps
-----------------------------------------------------------------------------------------

section Kept

variable [Libraries] {ctx : Ctx} {world : World} {row result : Task} {i : Nat} {step : Step}
  {outcome : Outcome KernelError Task}

omit [Libraries] in
/-- A row that was begun differs from the one found in the next step only. -/
theorem steps_of_begun {base : Task} {nowMs : UInt64}
    (begun : base = row ∨ base = row.started i nowMs) (change : Step → Step)
    : ∃ before : Step → Step,
        base.steps.modify i change = row.steps.modify i fun step => change (before step) := by
  rcases begun with rfl | rfl
  · exact ⟨id, rfl⟩
  · exact ⟨_, List.modify_modify_eq _ _ i row.steps⟩

theorem Advanced.settled (advanced : Advanced ctx world row i step outcome result)
    (settled : Settled row) (next : row.next = some (i, step))
    : Settled result := by
  cases advanced with
  | polled => exact settled
  | waits =>
      refine settled_of_undone settled next (List.modify_modify_eq _ _ i row.steps) nofun ?_
      exact trivial
  | @ended base tokens begun _ =>
      obtain ⟨before, built⟩ := steps_of_begun begun
        fun step => { step with status := .done, tokens, endedMs := some ctx.nowMs }
      exact settled_of_done settled next built rfl rfl
  | @broken base error begun =>
      obtain ⟨before, built⟩ := steps_of_begun begun
        fun step => { step with status := .failed error.text, endedMs := some ctx.nowMs }
      exact settled_of_undone settled next built nofun trivial

/-- A call leaves a settled row, by cases on what it did. -/
theorem Stepped.settled (stepped : Stepped ctx world row outcome result) (settled : Settled row)
    : Settled result := by
  cases stepped with
  | kept => exact settled
  | halted goesOn =>
      refine ⟨settled.later, ?_⟩
      have fits := settled.fits
      rw [not_or] at goesOn
      change Fits .stopped (row.next.map (·.2.status))
      generalize row.next.map (·.2.status) = ahead at fits
      generalize row.status = status at fits goesOn
      cases status <;> rcases ahead with _ | (_ | _ | _ | _ | _) <;> simp_all [Fits]
  | finished next =>
      refine ⟨settled.later, ?_⟩
      change Fits .done (row.next.map (·.2.status))
      rw [next]
      trivial
  | advanced next advanced => exact advanced.settled settled next

/-- The task was stopped while its next step waited, and that step still has nothing to go on
with.
-/
def ResumedWhileWaiting (ctx : Ctx) (world : World) (row : Task) : Prop :=
  row.status = .stopped
    ∧ ∃ i step, row.next = some (i, step) ∧ step.status = .waitingHuman
      ∧ StillWaits ctx row.id world step.kind

theorem Advanced.coherent_iff {answer : Task}
    (advanced : Advanced ctx world row i step (.done answer) result) (settled : Settled row)
    (next : row.next = some (i, step))
    : result = answer ∧ (Coherent answer ↔ ¬ResumedWhileWaiting ctx world row) := by
  have kept := advanced.settled settled next
  cases advanced with
  | polled waited still =>
      refine ⟨rfl, ?_⟩
      have fits := settled.fits
      rw [next, Option.map_some, waited] at fits
      constructor
      · rintro coherent ⟨stopped, -⟩
        exact coherent.notStopped stopped
      · intro notResumed
        refine settled.coherent ?_ ?_
        · exact fun stopped => notResumed ⟨stopped, i, step, next, waited, still⟩
        · intro queued
          rw [queued] at fits
          exact fits
  | waits fresh =>
      refine ⟨rfl, iff_of_true (kept.coherent nofun nofun) ?_⟩
      rintro ⟨-, _, _, again, waited, -⟩
      rw [next] at again
      cases again
      exact fresh waited
  | ended begun moved =>
      refine ⟨rfl, iff_of_true (kept.coherent ?_ ?_) ?_⟩
      · unfold Task.ended
        dsimp only
        split <;> exact nofun
      · unfold Task.ended
        dsimp only
        split <;> exact nofun
      · rintro ⟨-, _, _, again, waited, still⟩
        rw [next] at again
        cases again
        exact moved waited still

/-- An answered task is the one stored, and coherent unless it was resumed while waiting. -/
theorem Stepped.coherent_iff {answer : Task} (stepped : Stepped ctx world row (.done answer) result)
    (settled : Settled row)
    : result = answer ∧ (Coherent answer ↔ ¬ResumedWhileWaiting ctx world row) := by
  have kept := stepped.settled settled
  cases stepped with
  | kept terminal =>
      obtain ⟨rfl, ended⟩ := terminal answer rfl
      refine ⟨rfl, iff_of_true (settled.coherent ?_ ?_) ?_⟩
      · rcases ended with ended | ended <;> rw [ended] <;> exact nofun
      · rcases ended with ended | ended <;> rw [ended] <;> exact nofun
      · rintro ⟨stopped, -⟩
        rcases ended with ended | ended <;> rw [ended] at stopped <;> cases stopped
  | finished next =>
      refine ⟨rfl, iff_of_true (kept.coherent nofun nofun) ?_⟩
      rintro ⟨-, _, _, again, -⟩
      rw [next] at again
      cases again
  | advanced next advanced => exact advanced.coherent_iff settled next

end Kept

end VerticalAI.Kernel
