import VerticalAI.Kernel.ApprovalHistory
import VerticalAI.Kernel.TaskHistory

/-! Steps run strictly in order and finished work stays finished, over every run of a node, with
step failures, faults, crashes and reopenings.
-/

namespace VerticalAI.Correctness
open VerticalAI.Foundation VerticalAI.Contracts VerticalAI.Kernel

/-- Some steps are done, then comes one of any status at most, and the others were not begun. -/
def RunInOrder (row : Task) : Prop :=
  ∃ done current pending, row.steps = done ++ current ++ pending
    ∧ (∀ step ∈ done, step.status = .done) ∧ current.length ≤ 1
    ∧ ∀ step ∈ pending, step.status = .pending

theorem runInOrder_of_inOrder {row : Task} (order : row.InOrder) : RunInOrder row := by
  cases next : row.next with
  | none =>
      refine ⟨row.steps, [], [], by simp, Task.next_none next, by simp, ?_⟩
      exact fun _ none => absurd none List.not_mem_nil
  | some current =>
      obtain ⟨i, step⟩ := current
      obtain ⟨placed, -, before⟩ := Task.next_some next
      refine ⟨row.steps.take i, [step], row.steps.drop (i + 1), ?_, fun other member => ?_, le_rfl,
        fun other member => ?_⟩
      · obtain ⟨inside, rfl⟩ := List.getElem?_eq_some_iff.mp placed
        simp
      · obtain ⟨j, below, rfl⟩ := List.mem_take_iff_getElem.mp member
        obtain ⟨earlier, there, ended⟩ := before j (below.trans_le (Nat.min_le_left _ _))
        obtain ⟨_, rfl⟩ := List.getElem?_eq_some_iff.mp there
        exact ended
      · obtain ⟨j, inside, rfl⟩ := List.mem_drop_iff_getElem.mp member
        exact order i step next (i + 1 + j) (by omega) _ (List.getElem?_eq_getElem _)

theorem inOrder_of_untouched {row : Task} (untouched : row.Untouched) : row.InOrder :=
  fun _ _ _ _ _ behind placed => untouched.pending behind (List.mem_of_getElem? placed)

/-- The later row has every step that was done in the earlier one, and is the same if that had
ended.
-/
structure Finished (row last : Task) : Prop where
  steps : ∀ (i : Nat) (step : Step), row.steps[i]? = some step → step.status = .done
    → last.steps[i]? = some step
  terminal : row.Terminal → last = row

theorem Finished.refl (row : Task) : Finished row row := ⟨fun _ _ placed _ => placed, fun _ => rfl⟩

theorem Finished.trans {first middle last : Task} (head : Finished first middle)
    (tail : Finished middle last)
    : Finished first last := by
  refine ⟨fun i step placed done => ?_, fun terminal => ?_⟩
  · exact tail.steps i step (head.steps i step placed done) done
  · obtain rfl := head.terminal terminal
    exact tail.terminal terminal

section Runs

variable [Libraries]

/-- Every stored task is in order, by induction on the run. -/
theorem nodeAfter_inOrder (events : List Event) (few : drawn events < 2 ^ 64) {id : String}
    {row : Task} (stored : (nodeAfter events).world.disk.tasks[id]? = some row)
    : row.InOrder := by
  induction events using List.reverseRecOn generalizing row with
  | nil => exact nomatch stored
  | append_singleton events event ih =>
      have moves := nodeAfter_tasksMove few
      have fewer := drawn_lt_of_append few
      cases before : (nodeAfter events).world.disk.tasks[id]? with
      | none => exact inOrder_of_untouched (moves.added id row stored before)
      | some old =>
          obtain ⟨later, held, moved⟩ := moves.kept id old before
          obtain rfl := Option.some.inj (stored.symm.trans held)
          rcases moved with rfl | ⟨-, -, moved⟩
          · exact ih fewer before
          · exact moved.inOrder (ih fewer before)

/-- A task of an earlier state is in every later one with all that was finished, by induction on
what is between.
-/
theorem nodeAfter_finished (earlier later : List Event) (few : drawn (earlier ++ later) < 2 ^ 64)
    {id : String} {row : Task} (stored : (nodeAfter earlier).world.disk.tasks[id]? = some row)
    : ∃ last, (nodeAfter (earlier ++ later)).world.disk.tasks[id]? = some last
      ∧ Finished row last := by
  induction later using List.reverseRecOn with
  | nil => exact ⟨row, by rwa [List.append_nil], Finished.refl row⟩
  | append_singleton later event ih =>
      rw [← List.append_assoc] at few ⊢
      obtain ⟨middle, held, kept⟩ := ih (drawn_lt_of_append few)
      obtain ⟨last, there, moved⟩ := (nodeAfter_tasksMove few).kept id middle held
      refine ⟨last, there, kept.trans ?_⟩
      rcases moved with rfl | ⟨-, goesOn, moved⟩
      · exact Finished.refl last
      · exact ⟨fun _ _ placed done => moved.keeps_done placed done,
          fun terminal => absurd terminal goesOn⟩

omit [Libraries] in
/-- How many calls of the scheduler there were for a task. -/
def schedulerCalls (id : String) (events : List Event) : Nat :=
  events.countP fun
    | .call (.runTaskStep _ taskId) _ => taskId = id
    | _ => false

/-- Every call of the scheduler for the task returned it. -/
def AllAnswered (id : String) (events : List Event) : Prop :=
  ∀ before ctx faults after, events = before ++ .call (.runTaskStep ctx id) faults :: after
    → ∃ row, (nodeAfter before).answer (.runTaskStep ctx id) faults = some (.done (.task row))

/-- The task was done or waited for a human when the scheduler had been called so often, or
before.
-/
def CameToRest (id : String) (events : List Event) (limit : Nat) : Prop :=
  ∃ before row, before <+: events ∧ schedulerCalls id before ≤ limit
    ∧ (nodeAfter before).world.disk.tasks[id]? = some row
    ∧ (row.status = .done ∨ row.status = .waitingHuman)

/-- Every call has done a step, and no other was begun. -/
structure Underway (calls : Nat) (row : Task) : Prop where
  goesOn : ¬row.Terminal
  ahead : ∀ i step, row.next = some (i, step) → calls ≤ i ∧ step.status = .pending
  new : row.next = none → calls = 0

omit [Libraries] in
theorem Underway.of_untouched {row : Task} (untouched : row.Untouched) : Underway 0 row := by
  refine ⟨?_, fun i step next => ⟨Nat.zero_le i, ?_⟩, fun _ => rfl⟩
  · rw [Task.Terminal, untouched.queued]
    nofun
  · exact untouched.pending step (List.mem_of_getElem? (Task.next_some next).1)

omit [Libraries] in
/-- One more answered call ends the task, has it wait, or has done one more step, by cases on what
the call did.
-/
theorem Underway.answered {calls : Nat} {row last : Task} (underway : Underway calls row)
    (order : row.InOrder) (answered : row.Answered last)
    : (calls < max row.steps.length 1 ∧ (last.status = .done ∨ last.status = .waitingHuman))
      ∨ Underway (calls + 1) last := by
  have within {i : Nat} {step : Step} (next : row.next = some (i, step))
      : calls < max row.steps.length 1 := by
    obtain ⟨inside, -⟩ := List.getElem?_eq_some_iff.mp (Task.next_some next).1
    have behind := (underway.ahead i step next).1
    omega
  cases answered with
  | terminal ended => exact absurd ended underway.goesOn
  | finished next =>
      have none := underway.new next
      exact Or.inl ⟨by omega, Or.inl rfl⟩
  | polled next waited =>
      rw [(underway.ahead _ _ next).2] at waited
      cases waited
  | waits next begun => exact Or.inl ⟨within next, Or.inr rfl⟩
  | ended next begun =>
      rename_i i step base tokens nowMs
      obtain ⟨-, before, built⟩ := begun.built fun step =>
        { step with status := .done, tokens, endedMs := some nowMs }
      have behind := (underway.ahead i step next).1
      cases following : (base.ended i .done tokens nowMs).next with
      | none =>
          refine Or.inl ⟨within next, Or.inl ?_⟩
          exact if_pos (Task.all_done_iff.mpr following)
      | some ahead =>
          obtain ⟨k, later⟩ := ahead
          obtain ⟨after, pending⟩ := next_of_done order next built rfl following
          refine Or.inr ⟨?_, fun j other there => ?_, fun none => ?_⟩
          · have running : (base.ended i .done tokens nowMs).status = .running :=
              if_neg fun all => by
                rw [Task.all_done_iff.mp all] at following
                cases following
            rw [Task.Terminal, running]
            nofun
          · rw [following] at there
            obtain ⟨rfl, rfl⟩ := Prod.mk.inj (Option.some.inj there)
            exact ⟨by omega, pending⟩
          · rw [none] at following
            cases following

omit [Libraries] in
theorem schedulerCalls_scheduled {id : String} {event : Event} (scheduled : event.Schedules id)
    (events : List Event)
    : schedulerCalls id (events ++ [event]) = schedulerCalls id events + 1 := by
  obtain ⟨ctx, faults, rfl⟩ := scheduled
  simp [schedulerCalls, List.countP_append]

omit [Libraries] in
theorem schedulerCalls_unscheduled {id : String} {event : Event} (other : ¬event.Schedules id)
    (events : List Event)
    : schedulerCalls id (events ++ [event]) = schedulerCalls id events := by
  rw [schedulerCalls, List.countP_append]
  refine Nat.add_eq_left.mpr (List.countP_eq_zero.mpr fun last member => ?_)
  obtain rfl := List.mem_singleton.mp member
  split
  · next ctx taskId faults =>
      rw [decide_eq_true_iff]
      rintro rfl
      exact other ⟨ctx, faults, rfl⟩
  · nofun

theorem AllAnswered.init {id : String} {events : List Event} {event : Event}
    (answered : AllAnswered id (events ++ [event]))
    : AllAnswered id events := by
  rintro before ctx faults after rfl
  exact answered before ctx faults (after ++ [event]) (by simp)

theorem CameToRest.later {id : String} {events : List Event} {limit : Nat}
    (rested : CameToRest id events limit) (event : Event)
    : CameToRest id (events ++ [event]) limit := by
  obtain ⟨before, row, first, within, stored, rests⟩ := rested
  exact ⟨before, row, first.trans (List.prefix_append events [event]), within, stored, rests⟩

/-- A call that was answered ran to its end in the state it found. -/
theorem answered_run {events : List Event} {ctx : Ctx} {id : String} {faults : List Fault}
    {row : Task}
    (answered : (nodeAfter events).answer (.runTaskStep ctx id) faults = some (.done (.task row)))
    : ∃ rest, runTaskStep ctx id (nodeAfter events).world faults
      = (.done row, (nodeAfter (events ++ [.call (.runTaskStep ctx id) faults])).world, rest) := by
  obtain ⟨up, -⟩ := Machine.step_call_up answered nofun
  rw [Machine.answer_up up] at answered
  have outcome := Option.some.inj answered
  rw [nodeAfter_concat, Machine.step_call_world up]
  change ((Reply.task <$> runTaskStep ctx id) (nodeAfter events).world faults).1 = _ at outcome
  change ∃ rest, _ = (_, ((Reply.task <$> runTaskStep ctx id) (nodeAfter events).world faults).2.1, _)
  rw [Program.map_run] at outcome ⊢
  rcases ran : runTaskStep ctx id (nodeAfter events).world faults with ⟨shown | error | _, last, rest⟩
  all_goals rw [ran] at outcome
  · cases outcome
    exact ⟨rest, rfl⟩
  · cases outcome
  · cases outcome

/-- How far the calls so far have brought a task. -/
structure BroughtOn (id : String) (events : List Event) : Prop where
  absent : (nodeAfter events).world.disk.tasks[id]? = none → schedulerCalls id events = 0
  stored : ∀ row, (nodeAfter events).world.disk.tasks[id]? = some row
    → CameToRest id events (max row.steps.length 1) ∨ Underway (schedulerCalls id events) row

/-- A call of the scheduler that is answered makes progress. -/
theorem BroughtOn.scheduled {id : String} {events : List Event} (few : drawn events < 2 ^ 64)
    (progress : BroughtOn id events)
    {ctx : Ctx} {faults : List Fault} {last : Task}
    (answered : (nodeAfter events).answer (.runTaskStep ctx id) faults = some (.done (.task last)))
    : BroughtOn id (events ++ [.call (.runTaskStep ctx id) faults]) := by
  have scheduled : Event.Schedules (.call (.runTaskStep ctx id) faults) id := ⟨ctx, faults, rfl⟩
  have counted := schedulerCalls_scheduled scheduled events
  obtain ⟨rest, ran⟩ := answered_run answered
  cases stored : (nodeAfter events).world.disk.tasks[id]? with
  | none =>
      obtain ⟨shown, _, left, read, ended⟩ := Program.bind_done_inv ran
      obtain rfl := task_emits.still_inv read
      cases shown with
      | none => cases ended
      | some row =>
          rw [(task_done read).1] at stored
          cases stored
  | some row =>
      obtain ⟨rfl, -⟩ := nodeAfter_tasksMinted events few id row stored
      obtain ⟨held, did⟩ := runTaskStep_answered stored ran
      refine ⟨fun absent => ?_, fun other there => ?_⟩
      · rw [held] at absent
        cases absent
      obtain rfl := Option.some.inj (there.symm.trans held)
      rw [did.steps_length, counted]
      rcases progress.stored row stored with rested | underway
      · exact Or.inl (rested.later _)
      · rcases underway.answered (nodeAfter_inOrder events few stored) did with ⟨within, rests⟩ | underway
        · exact Or.inl ⟨_, other, List.prefix_rfl, by omega, held, rests⟩
        · exact Or.inr underway

/-- While every call is answered there is progress, by induction on the run. -/
theorem nodeAfter_progress (id : String) (events : List Event) (few : drawn events < 2 ^ 64)
    (answered : AllAnswered id events)
    : BroughtOn id events := by
  induction events using List.reverseRecOn with
  | nil => exact ⟨fun _ => rfl, fun _ stored => nomatch stored⟩
  | append_singleton events event ih =>
      have fewer := drawn_lt_of_append few
      have progress := ih fewer answered.init
      by_cases scheduled : event.Schedules id
      · obtain ⟨ctx, faults, rfl⟩ := scheduled
        obtain ⟨row, done⟩ := answered events ctx faults [] rfl
        exact progress.scheduled fewer done
      · have counted := schedulerCalls_unscheduled scheduled events
        have kept {row : Task} (stored : (nodeAfter events).world.disk.tasks[id]? = some row)
            : (nodeAfter (events ++ [event])).world.disk.tasks[id]? = some row :=
          nodeAfter_unscheduled few scheduled stored
        cases before : (nodeAfter events).world.disk.tasks[id]? with
        | none =>
            refine ⟨fun _ => counted.trans (progress.absent before), fun row stored => Or.inr ?_⟩
            rw [counted, progress.absent before]
            exact .of_untouched ((nodeAfter_tasksMove few).added id row stored before)
        | some row =>
            refine ⟨fun absent => ?_, fun last stored => ?_⟩
            · rw [kept before] at absent
              cases absent
            · obtain rfl := Option.some.inj ((kept before).symm.trans stored)
              rw [counted]
              exact (progress.stored row before).imp_left fun rested => rested.later event

/-- What every run keeps of its tasks: their shape, what is finished, one step a call, and
progress while every call is answered.
-/
structure StepsInOrder (events : List Event) : Prop where
  shape : ∀ (id : String) (row : Task), (nodeAfter events).world.disk.tasks[id]? = some row
    → RunInOrder row
  finished : ∀ (earlier later : List Event) (id : String) (row : Task), events = earlier ++ later
    → (nodeAfter earlier).world.disk.tasks[id]? = some row
    → ∃ last, (nodeAfter events).world.disk.tasks[id]? = some last ∧ Finished row last
  single : ∀ (ctx : Ctx) (id : String) (faults : List Fault) (row : Task),
    (nodeAfter events).world.disk.tasks[id]? = some row
    → OneStep ctx row (nodeAfter events).world
        (runTaskStep ctx id (nodeAfter events).world faults).2.1
  progress : ∀ (id : String) (row : Task), (nodeAfter events).world.disk.tasks[id]? = some row
    → AllAnswered id events
    → max row.steps.length 1 ≤ schedulerCalls id events
    → CameToRest id events (max row.steps.length 1)

/-- In every run that draws fewer numbers for ids than a `u64` counts, steps are run in order, one a
call, and what is finished stays.
-/
theorem steps_in_order (events : List Event) (few : drawn events < 2 ^ 64)
    : StepsInOrder events := by
  refine ⟨fun id row stored => ?_, ?_, fun ctx id faults row stored => ?_,
    fun id row stored answered enough => ?_⟩
  · exact runInOrder_of_inOrder (nodeAfter_inOrder events few stored)
  · rintro earlier later id row rfl stored
    exact nodeAfter_finished earlier later few stored
  · obtain ⟨rfl, -⟩ := nodeAfter_tasksMinted events few id row stored
    exact runTaskStep_work ctx stored faults
  · rcases (nodeAfter_progress id events few answered).stored row stored with rested | underway
    · exact rested
    · cases next : row.next with
      | none =>
          have none := underway.new next
          omega
      | some ahead =>
          obtain ⟨i, step⟩ := ahead
          obtain ⟨inside, -⟩ := List.getElem?_eq_some_iff.mp (Task.next_some next).1
          have behind := (underway.ahead i step next).1
          omega

end Runs

attribute [local instance] shortLibraries

section Run

private def schedulerCtx : Ctx where
  principal := .machine "n1" "cli"
  clearance := ⟨.personal, true⟩
  partition := "local"
  nowMs := 5

/-- A task of two steps, and as many calls of the scheduler; the first step needs no one, the second
waits for a human.
-/
private def restingEvents : List Event :=
  [.open "state" "n1" false 0 [],
    .call (.createTask schedulerCtx "g" "note" .bottom [.harness "lint", .approve]) [],
    .call (.runTaskStep schedulerCtx "task-n1-2") [],
    .call (.runTaskStep schedulerCtx "task-n1-2") []]

private theorem resting_answered : AllAnswered "task-n1-2" restingEvents := by
  intro before ctx faults after same
  rcases before with _ | ⟨_, _ | ⟨_, _ | ⟨_, _ | ⟨_, _ | _⟩⟩⟩⟩
  · cases same
  · cases same
  · cases same
    exact ⟨_, rfl⟩
  · cases same
    exact ⟨_, rfl⟩
  · cases same
  · cases same

/-- After the two calls the task has come to rest, in order. -/
theorem steps_in_order_to_rest
    : ∃ row, (nodeAfter restingEvents).world.disk.tasks["task-n1-2"]? = some row
        ∧ row.status = .waitingHuman ∧ RunInOrder row ∧ CameToRest "task-n1-2" restingEvents 2 := by
  have rests : (nodeAfter restingEvents).world.disk.tasks["task-n1-2"]?.map
      (fun row => (row.status, row.steps.length)) = some (.waitingHuman, 2) := rfl
  obtain ⟨row, stored, facts⟩ := Option.map_eq_some_iff.mp rests
  obtain ⟨waits, length⟩ := Prod.mk.inj facts
  have order := steps_in_order restingEvents (by decide)
  have rested := order.progress "task-n1-2" row stored resting_answered (by rw [length]; decide)
  rw [length] at rested
  exact ⟨row, stored, waits, order.shape "task-n1-2" row stored, rested⟩

end Run

end VerticalAI.Correctness
