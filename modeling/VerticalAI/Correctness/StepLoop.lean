import VerticalAI.Cli.TaskCommand
import VerticalAI.Correctness.StepOrder

/-! `vk task step --all` comes to an end: every request that leaves the task unsettled has done one
more of its steps, whatever others do to the node in between.
-/

namespace VerticalAI.Correctness
open VerticalAI.Foundation VerticalAI.Contracts VerticalAI.Kernel VerticalAI.Cli

-----------------------------------------------------------------------------------------
-- Rows
-----------------------------------------------------------------------------------------

/-- While the next step waits for a human, so does the task, unless it is stopped. -/
def WaitsAsAWhole (row : Task) : Prop :=
  ∀ i step, row.next = some (i, step) → step.status = .waitingHuman
    → row.status = .waitingHuman ∨ row.status = .stopped

theorem waitsAsAWhole_of_untouched {row : Task} (untouched : row.Untouched)
    : WaitsAsAWhole row := by
  intro i step next waits
  have pending := untouched.pending step (List.mem_of_getElem? (Task.next_some next).1)
  rw [pending] at waits
  cases waits

/-- Whatever a row was moved to, by cases on the move. -/
theorem waitsAsAWhole_of_moved {old row : Task} (order : old.InOrder) (moved : old.Moved row)
    : WaitsAsAWhole row := by
  cases moved with
  | stopped => exact fun _ _ _ _ => .inr rfl
  | finished none =>
      intro i step next _
      rw [show ({ old with status := .done } : Task).next = old.next from rfl, none] at next
      cases next
  | started next =>
      intro i step following waiting
      rw [next_of_undone next rfl (by nofun)] at following
      obtain ⟨-, rfl⟩ := Prod.mk.inj (Option.some.inj following)
      cases waiting
  | waiting next begun => exact fun _ _ _ _ => .inl rfl
  | ended next begun =>
      intro i step following waiting
      obtain ⟨-, before, built⟩ := begun.built _
      obtain ⟨-, pending⟩ := next_of_done order next built rfl following
      rw [pending] at waiting
      cases waiting
  | broken next begun =>
      intro i step following waiting
      obtain ⟨-, before, built⟩ := begun.built _
      rw [next_of_undone next built (by nofun)] at following
      obtain ⟨-, rfl⟩ := Prod.mk.inj (Option.some.inj following)
      cases waiting

/-- The first so many steps are done, and there are more. -/
structure Worked (count : Nat) (row : Task) : Prop where
  done : ∀ j < count, row.DoneAt j
  more : count < row.steps.length

theorem settled_of_status {row : Task}
    (status : row.status = .waitingHuman ∨ row.status = .done ∨ row.status = .failed
      ∨ row.status = .stopped)
    : settled row = true := by
  rcases status with same | same | same | same <;> simp [settled, same, TaskStatus.name]

/-- A request that is answered leaves the task settled, or has done one more step. -/
theorem settled_or_worked {count : Nat} {old row : Task} (order : old.InOrder)
    (waits : WaitsAsAWhole old) (done : ∀ j < count, old.DoneAt j) (answered : old.Answered row)
    : settled row = true ∨ Worked (count + 1) row := by
  cases answered with
  | terminal ended => exact .inl (settled_of_status (.inr (ended.imp_right .inl)))
  | finished none => exact .inl (settled_of_status (.inr (.inl rfl)))
  | polled next waited =>
      refine .inl (settled_of_status ?_)
      exact (waits _ _ next waited).imp_right fun stopped => .inr (.inr stopped)
  | waits next begun => exact .inl (settled_of_status (.inl rfl))
  | ended next begun =>
      rename_i i step base tokens nowMs
      obtain ⟨-, before, built⟩ := begun.built fun step =>
        { step with status := .done, tokens, endedMs := some nowMs }
      cases following : (base.ended i .done tokens nowMs).next with
      | none =>
          exact .inl (settled_of_status (.inr (.inl (if_pos (Task.all_done_iff.mpr following)))))
      | some ahead =>
          obtain ⟨k, later⟩ := ahead
          obtain ⟨placed, undone, earlier⟩ := Task.next_some next
          obtain ⟨after, -⟩ := next_of_done order next built rfl following
          obtain ⟨inside, -⟩ := List.getElem?_eq_some_iff.mp (Task.next_some following).1
          have reached : count ≤ i := by
            by_contra below
            obtain ⟨other, same, ended⟩ := done i (not_le.mp below)
            rw [placed] at same
            obtain rfl := Option.some.inj same
            exact undone ended
          refine .inr ⟨fun j below => ?_, by omega⟩
          rcases Nat.lt_or_eq_of_le (Nat.le_of_lt_succ (below.trans_le (Nat.succ_le_succ reached))) with
            before | rfl
          · exact (doneAt_elsewhere built before.ne).mpr (earlier j before)
          · exact begun.ended_doneAt placed

section Runs

variable [Libraries]

/-- A stored task waits as a whole, by induction on the run. -/
theorem nodeAfter_waits (events : List Event) (few : drawn events < 2 ^ 64) {id : String}
    {row : Task}
    (stored : (nodeAfter events).world.disk.tasks[id]? = some row)
    : WaitsAsAWhole row := by
  induction events using List.reverseRecOn generalizing row with
  | nil => exact nomatch stored
  | append_singleton events event ih =>
      have moves := nodeAfter_tasksMove few
      have fewer := drawn_lt_of_append few
      cases before : (nodeAfter events).world.disk.tasks[id]? with
      | none => exact waitsAsAWhole_of_untouched (moves.added id row stored before)
      | some old =>
          obtain ⟨later, held, moved⟩ := moves.kept id old before
          obtain rfl := Option.some.inj (stored.symm.trans held)
          rcases moved with rfl | ⟨-, -, moved⟩
          · exact ih fewer before
          · exact waitsAsAWhole_of_moved (nodeAfter_inOrder events fewer before) moved

/-- A task keeps its steps, whatever becomes of them, by induction on what is between. -/
theorem nodeAfter_alike (earlier later : List Event) (few : drawn (earlier ++ later) < 2 ^ 64)
    {id : String} {row last : Task} (stored : (nodeAfter earlier).world.disk.tasks[id]? = some row)
    (held : (nodeAfter (earlier ++ later)).world.disk.tasks[id]? = some last)
    : row.Alike last := by
  induction later using List.reverseRecOn generalizing last with
  | nil =>
      rw [List.append_nil, stored] at held
      obtain rfl := Option.some.inj held
      exact .refl row
  | append_singleton later event ih =>
      rw [← List.append_assoc] at few held
      have fewer := drawn_lt_of_append few
      obtain ⟨middle, before, -⟩ := nodeAfter_finished earlier later fewer stored
      obtain ⟨after, there, moved⟩ := (nodeAfter_tasksMove few).kept id middle before
      rw [there] at held
      obtain rfl := Option.some.inj held
      rcases moved with rfl | ⟨-, -, moved⟩
      · exact ih fewer before
      · exact (ih fewer before).trans moved.built.1

-----------------------------------------------------------------------------------------
-- The loop
-----------------------------------------------------------------------------------------

/-- How many numbers for ids others draw at most before so many requests. -/
def drawnBetween (rounds : Nat → Round) : Nat → Nat
  | 0 => 0
  | requests + 1 => drawnBetween rounds requests + drawn (rounds requests).others

omit [Libraries] in
theorem drawnBetween_mono (rounds : Nat → Round) : Monotone (drawnBetween rounds) :=
  monotone_nat_of_le_succ fun _ => Nat.le_add_right _ _

/-- Where the command stands after so many requests: the last answer is stored, with everything that
was finished when it began, and is settled or has had that many steps done.
-/
structure Followed (taskId : String) (rounds : Nat → Round) (events : List Event) (start : Task)
    (requests : Nat) (row : Task) (machine : Machine) : Prop where
  reached : ∃ later, machine = nodeAfter (events ++ later)
    ∧ drawn later ≤ drawnBetween rounds requests
  stored : machine.world.disk.tasks[taskId]? = some row
  finished : Finished start row
  alike : start.Alike row
  worked : settled row = true ∨ Worked requests row

theorem Followed.steps_length {taskId : String} {rounds : Nat → Round} {events : List Event}
    {start row : Task} {requests : Nat} {machine : Machine}
    (followed : Followed taskId rounds events start requests row machine)
    : row.steps.length = start.steps.length := by
  simpa using congrArg List.length followed.alike.kinds

/-- One more request that is answered. -/
theorem requestStep_follows {taskId : String} {rounds : Nat → Round} {events later : List Event}
    {start row : Task} {requests : Nat} {machine : Machine}
    (few : drawn events + drawnBetween rounds (requests + 1) < 2 ^ 64)
    (stored : (nodeAfter events).world.disk.tasks[taskId]? = some start)
    (reached : machine = nodeAfter (events ++ later))
    (spent : drawn later ≤ drawnBetween rounds requests)
    (done : ∀ last, machine.world.disk.tasks[taskId]? = some last → ∀ j < requests, last.DoneAt j)
    (answered : (requestStep taskId machine (rounds requests)).1 = .ok row)
    : Followed taskId rounds events start (requests + 1) row
        (requestStep taskId machine (rounds requests)).2 := by
  generalize drew : drawnBetween rounds (requests + 1) = limit at few
  rw [drawnBetween] at drew
  generalize named : rounds requests = round at drew answered ⊢
  let before := events ++ later ++ round.others
  let ctx := cliCtx (nodeAfter before).world.kernel round.nowMs
  let event : Event := .call (.runTaskStep ctx taskId) round.faults
  have whole : before ++ [event] = events ++ (later ++ (round.others ++ [event])) := by
    simp only [before, List.append_assoc]
  -- a request for a step draws no number
  have counted : drawn (later ++ (round.others ++ [event])) = drawn later + drawn round.others := by
    rw [drawn_append, drawn_append]
    rfl
  have fewest : drawn (events ++ (later ++ (round.others ++ [event]))) < 2 ^ 64 := by
    rw [drawn_append, counted]
    omega
  have fewer : drawn before < 2 ^ 64 := drawn_lt_of_append (whole ▸ fewest)
  have node : machine.run round.others = nodeAfter before := by
    rw [reached]
    exact (Machine.run_append _ (events ++ later) round.others).symm
  obtain ⟨left, returned⟩ := askStep_run taskId (nodeAfter before) round.nowMs round.faults
  rw [requestStep, node] at answered ⊢
  have after : (askStep taskId (nodeAfter before) round.nowMs round.faults).2
      = nodeAfter (events ++ (later ++ (round.others ++ [event]))) := by
    rw [left, ← whole, nodeAfter_concat]
  obtain ⟨middle, held, kept⟩ := nodeAfter_finished events later (drawn_lt_of_append fewer) stored
  obtain ⟨old, found, since⟩ := nodeAfter_finished (events ++ later) round.others fewer held
  obtain ⟨rest, ran⟩ := answered_run (returned row answered)
  obtain ⟨rfl, -⟩ := nodeAfter_tasksMinted before fewer taskId old found
  obtain ⟨shown, did⟩ := runTaskStep_answered found ran
  have worked : settled row = true ∨ Worked (requests + 1) row := by
    refine settled_or_worked (nodeAfter_inOrder before fewer found) (nodeAfter_waits before fewer found)
      (fun j below => ?_) did
    obtain ⟨step, placed, ended⟩ := done middle (reached ▸ held) j below
    exact ⟨step, since.steps j step placed ended, ended⟩
  change (nodeAfter (before ++ [event])).world.disk.tasks[old.id]? = some row at shown
  rw [whole] at shown
  obtain ⟨final, there, finished⟩ := nodeAfter_finished events _ fewest stored
  obtain rfl := Option.some.inj (there.symm.trans shown)
  rw [after]
  refine ⟨⟨_, rfl, ?_⟩, shown, finished, nodeAfter_alike events _ fewest stored shown, worked⟩
  rw [counted, drawnBetween, named]
  omega

/-- What the command says when it is done with a task of so many steps. -/
structure Ends (taskId : String) (start : Task) (finish : Finish) : Prop where
  bounded : finish.requests ≤ max start.steps.length 1
  shown : ∀ row, finish.verdict = .shown row → settled row = true
    ∧ finish.machine.world.disk.tasks[taskId]? = some row ∧ Finished start row
  unsettled : finish.verdict = .unsettled → maxSteps < start.steps.length

omit [Libraries] in
theorem ends_failed {taskId : String} {start : Task} {failure : Failure} {requests : Nat}
    {machine : Machine} (bounded : requests ≤ max start.steps.length 1)
    : Ends taskId start ⟨.failed failure, requests, machine⟩ := by
  refine ⟨bounded, fun row same => ?_, fun gaveUp => ?_⟩
  · cases same
  · cases gaveUp

theorem ends_settled {taskId : String} {rounds : Nat → Round} {events : List Event}
    {start row : Task} {requests : Nat} {machine : Machine}
    (followed : Followed taskId rounds events start requests row machine)
    (bounded : requests ≤ max start.steps.length 1) (done : settled row = true)
    : Ends taskId start ⟨.shown row, requests, machine⟩ := by
  refine ⟨bounded, fun last same => ?_, fun gaveUp => ?_⟩
  · cases same
    exact ⟨done, followed.stored, followed.finished⟩
  · cases gaveUp

/-- The loop ends within the requests it may make, by induction on them. -/
theorem untilSettled_ends {taskId : String} {events : List Event} {start row : Task}
    {requests left : Nat} {machine : Machine} {rounds : Nat → Round}
    (few : drawn events + drawnBetween rounds maxSteps < 2 ^ 64)
    (stored : (nodeAfter events).world.disk.tasks[taskId]? = some start)
    (followed : Followed taskId rounds events start requests row machine)
    (bounded : requests ≤ max start.steps.length 1) (limit : requests + left = maxSteps)
    : Ends taskId start (untilSettled taskId rounds row requests machine left) := by
  induction left generalizing requests row machine with
  | zero =>
      rw [untilSettled]
      split
      · next done => exact ends_settled followed bounded done
      · next unsettled =>
          have more := (followed.worked.resolve_left unsettled).more
          refine ⟨bounded, fun last same => ?_, fun _ => ?_⟩
          · cases same
          · rw [followed.steps_length] at more
            omega
  | succ left ih =>
      rw [untilSettled]
      split
      · next done => exact ends_settled followed bounded done
      · next unsettled =>
          have worked := followed.worked.resolve_left unsettled
          have more := worked.more
          rw [followed.steps_length] at more
          obtain ⟨later, reached, spent⟩ := followed.reached
          have done : ∀ last, machine.world.disk.tasks[taskId]? = some last
              → ∀ j < requests, last.DoneAt j := by
            intro last held
            obtain rfl := Option.some.inj (held.symm.trans followed.stored)
            exact worked.done
          rcases ran : requestStep taskId machine (rounds requests) with ⟨failure | next, after⟩
          · exact ends_failed (by omega)
          · have within := drawnBetween_mono rounds (show requests + 1 ≤ maxSteps by omega)
            have follows := requestStep_follows (by omega) stored reached spent done
              (congrArg Prod.fst ran)
            rw [ran] at follows
            exact ih follows (by omega) (by omega)

/-- Wherever a run has taken the node, and whatever others do between the requests of the command,
as long as fewer numbers for ids are drawn than a `u64` counts: `--all` shows the task settled, as it
is stored, with all that was finished before, or reports a request that failed. It makes one request
a step at most, and gives up only on a task of more steps than it may make requests.
-/
theorem step_all_ends {events : List Event} {taskId : String} {row : Task}
    (stored : (nodeAfter events).world.disk.tasks[taskId]? = some row) (rounds : Nat → Round)
    (few : drawn events + drawnBetween rounds maxSteps < 2 ^ 64)
    : Ends taskId row (taskStep taskId true rounds (nodeAfter events)) := by
  rw [taskStep]
  rcases ran : requestStep taskId (nodeAfter events) (rounds 0) with ⟨failure | next, after⟩
  · exact ends_failed (le_max_right _ 1)
  · have follows : Followed taskId rounds events row 1 next after := by
      have reached : nodeAfter events = nodeAfter (events ++ []) := by rw [List.append_nil]
      have done : ∀ last, (nodeAfter events).world.disk.tasks[taskId]? = some last
          → ∀ j < 0, last.DoneAt j :=
        fun _ _ j below => absurd below (Nat.not_lt_zero j)
      have within := drawnBetween_mono rounds (show 0 + 1 ≤ maxSteps by decide)
      have first := requestStep_follows (by omega) stored reached (Nat.zero_le _) done
        (congrArg Prod.fst ran)
      rw [ran] at first
      exact first
    exact untilSettled_ends few stored follows (le_max_right _ 1) rfl

end Runs

attribute [local instance] shortLibraries

section Run

private def submitterCtx : Ctx where
  principal := .machine "n1" "cli"
  clearance := ⟨.personal, true⟩
  partition := "local"
  nowMs := 5

/-- A task of two steps that wait for a human is submitted. -/
private def submittedTask : List Event :=
  [.open "state" "n1" false 0 [],
    .call (.createTask submitterCtx "g" "note" .bottom [.harness "lint", .approve]) []]

/-- Its command ends. -/
theorem step_all_ends_harness
    : ∃ row, (nodeAfter submittedTask).world.disk.tasks["task-n1-2"]? = some row
        ∧ row.steps.length = 2
        ∧ Ends "task-n1-2" row
          (taskStep "task-n1-2" true (fun _ => ⟨[], 6, []⟩) (nodeAfter submittedTask)) := by
  have stored : (nodeAfter submittedTask).world.disk.tasks["task-n1-2"]?.map (·.steps.length) = some 2 :=
    rfl
  obtain ⟨row, held, length⟩ := Option.map_eq_some_iff.mp stored
  have alone (requests : Nat) : drawnBetween (fun _ => ⟨[], 6, []⟩) requests = 0 := by
    induction requests with
    | zero => rfl
    | succ requests ih => rw [drawnBetween, ih, drawn_nil]
  have few : drawn submittedTask + drawnBetween (fun _ => ⟨[], 6, []⟩) maxSteps < 2 ^ 64 := by
    rw [alone]
    decide
  exact ⟨row, held, length, step_all_ends held (fun _ => ⟨[], 6, []⟩) few⟩

end Run

end VerticalAI.Correctness
