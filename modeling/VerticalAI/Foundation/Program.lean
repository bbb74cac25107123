import Mathlib.Logic.Relation

/-! Programs over a machine whose durable operations may fail or lose power.
A program changes its state by named updates only. A trail records which updates were made
and in which states, so that one invariant argument covers every intermediate state,
including the ones a crash exposes.
-/

namespace VerticalAI.Foundation

/-- What the environment does to one durable operation: nothing, refuse it, or take the
power away before it happens.
-/
inductive Fault where
  | none
  | fail (reason : String)
  | crash
  deriving DecidableEq, Repr

/-- How a program ends: with a value, with an error it reports, or not at all. -/
inductive Outcome (ε α : Type) where
  | done (value : α)
  | failed (error : ε)
  | crashed
  deriving DecidableEq, Repr

/-- Change what was returned. -/
def Outcome.map {ε α β : Type} (change : α → β) : Outcome ε α → Outcome ε β
  | .done value => .done (change value)
  | .failed error => .failed error
  | .crashed => .crashed

theorem Outcome.map_eq_failed {ε α β : Type} {change : α → β} {outcome : Outcome ε α} {error : ε}
    (failed : outcome.map change = .failed error)
    : outcome = .failed error := by
  cases outcome <;> cases failed
  rfl

/-- A program reads a state and the faults still to come. Once the listed faults are used
up every further operation works, so the empty list is working storage.
-/
def Program (σ ε α : Type) : Type :=
  σ → List Fault → Outcome ε α × σ × List Fault

/-- A state type together with the updates a program may make to it. -/
class Updates (σ : Type) (υ : outParam Type) where
  apply : υ → σ → σ

namespace Program

variable {σ υ ε ε' α β : Type}

def pure (value : α) : Program σ ε α :=
  fun state faults => (.done value, state, faults)

def fail (error : ε) : Program σ ε α :=
  fun state faults => (.failed error, state, faults)

def bind (program : Program σ ε α) (next : α → Program σ ε β) : Program σ ε β :=
  fun state faults =>
    match program state faults with
    | (.done value, state', rest) => next value state' rest
    | (.failed error, state', rest) => (.failed error, state', rest)
    | (.crashed, state', rest) => (.crashed, state', rest)

instance : Monad (Program σ ε) where
  pure := Program.pure
  bind := Program.bind

/-- Run a program and hand its error, if it reports one, to the caller as a value. -/
def attempt (program : Program σ ε α) : Program σ ε' (Except ε α) :=
  fun state faults =>
    match program state faults with
    | (.done value, state', rest) => (.done (.ok value), state', rest)
    | (.failed error, state', rest) => (.done (.error error), state', rest)
    | (.crashed, state', rest) => (.crashed, state', rest)

/-- Rename the error a program reports. -/
def mapError (rename : ε → ε') (program : Program σ ε α) : Program σ ε' α :=
  fun state faults =>
    match program state faults with
    | (.done value, state', rest) => (.done value, state', rest)
    | (.failed error, state', rest) => (.failed (rename error), state', rest)
    | (.crashed, state', rest) => (.crashed, state', rest)

/-- A computation that needs no state. -/
def lift (result : Except ε α) : Program σ ε α :=
  match result with
  | .ok value => pure value
  | .error error => fail error

/-- Look at volatile state; this cannot fail. -/
def observe (look : σ → α) : Program σ ε α :=
  fun state faults => (.done (look state), state, faults)

/-- Spend one fault on a durable operation that has effect `change` and answer `value`. -/
def durably (wrap : String → ε) (change : σ → σ) (value : σ → α) : Program σ ε α :=
  fun state faults =>
    match faults with
    | [] => (.done (value state), change state, [])
    | .none :: rest => (.done (value state), change state, rest)
    | .fail reason :: rest => (.failed (wrap reason), state, rest)
    | .crash :: rest => (.crashed, state, rest)

/-- Read durable state; the read itself may fail. -/
def fetch (wrap : String → ε) (look : σ → α) : Program σ ε α :=
  durably wrap id look

section Updating

variable [Updates σ υ]

/-- Change volatile state. -/
def perform (update : υ) : Program σ ε Unit :=
  fun state faults => (.done (), Updates.apply update state, faults)

/-- Change durable state: the update happens whole or not at all. -/
def persist (wrap : String → ε) (update : υ) : Program σ ε Unit :=
  durably wrap (Updates.apply update) (fun _ => ())

end Updating

-----------------------------------------------------------------------------------------
-- Running a program
-----------------------------------------------------------------------------------------

@[simp] theorem pure_run (value : α) (state : σ) (faults : List Fault)
    : (Pure.pure value : Program σ ε α) state faults = (.done value, state, faults) := rfl

@[simp] theorem fail_run (error : ε) (state : σ) (faults : List Fault)
    : (fail error : Program σ ε α) state faults = (.failed error, state, faults) := rfl

/-- One program after the other: the second runs on what the first leaves, unless it
failed.
-/
theorem bind_run (program : Program σ ε α) (next : α → Program σ ε β) (state : σ)
    (faults : List Fault)
    : (program >>= next) state faults
      = match program state faults with
        | (.done value, state', rest) => next value state' rest
        | (.failed error, state', rest) => (.failed error, state', rest)
        | (.crashed, state', rest) => (.crashed, state', rest) := rfl

/-- A step that returns hands its value, state and remaining faults to what follows. -/
theorem bind_done {program : Program σ ε α} {next : α → Program σ ε β} {state state' : σ}
    {faults rest : List Fault} {value : α}
    (ran : program state faults = (.done value, state', rest))
    : (program >>= next) state faults = next value state' rest := by
  simp only [bind_run, ran]

/-- A failure in the first program is the failure of both. -/
theorem bind_failed {program : Program σ ε α} {next : α → Program σ ε β} {state state' : σ}
    {faults rest : List Fault} {error : ε}
    (ran : program state faults = (.failed error, state', rest))
    : (program >>= next) state faults = (.failed error, state', rest) := by
  simp only [bind_run, ran]

/-- A crash in the first program is the crash of both. -/
theorem bind_crashed {program : Program σ ε α} {next : α → Program σ ε β} {state state' : σ}
    {faults rest : List Fault}
    (ran : program state faults = (.crashed, state', rest))
    : (program >>= next) state faults = (.crashed, state', rest) := by
  simp only [bind_run, ran]

/-- A sequence that returned went through both of its steps. -/
theorem bind_done_inv {program : Program σ ε α} {next : α → Program σ ε β} {state last : σ}
    {faults rest : List Fault} {value : β}
    (ran : (program >>= next) state faults = (.done value, last, rest))
    : ∃ given middle left,
        program state faults = (.done given, middle, left)
          ∧ next given middle left = (.done value, last, rest) := by
  rw [bind_run] at ran
  rcases first : program state faults with ⟨given | error | _, middle, left⟩
  · rw [first] at ran
    exact ⟨given, middle, left, rfl, ran⟩
  · rw [first] at ran
    cases ran
  · rw [first] at ran
    cases ran

@[simp] theorem pure_bind_run (value : α) (next : α → Program σ ε β) (state : σ)
    (faults : List Fault)
    : ((Pure.pure value : Program σ ε α) >>= next) state faults
      = next value state faults := rfl

@[simp] theorem fail_bind_run (error : ε) (next : α → Program σ ε β) (state : σ)
    (faults : List Fault)
    : ((fail error : Program σ ε α) >>= next) state faults
      = (.failed error, state, faults) := rfl

@[simp] theorem observe_bind_run (look : σ → α) (next : α → Program σ ε β) (state : σ)
    (faults : List Fault)
    : ((observe look : Program σ ε α) >>= next) state faults
      = next (look state) state faults := rfl

@[simp] theorem observe_run (look : σ → α) (state : σ) (faults : List Fault)
    : (observe look : Program σ ε α) state faults = (.done (look state), state, faults) :=
  rfl

@[simp] theorem durably_working (wrap : String → ε) (change : σ → σ) (value : σ → α)
    (state : σ)
    : durably wrap change value state [] = (.done (value state), change state, []) := rfl

@[simp] theorem fetch_working (wrap : String → ε) (look : σ → α) (state : σ)
    : fetch wrap look state [] = (.done (look state), state, []) := rfl

@[simp] theorem lift_ok (value : α) : (lift (.ok value) : Program σ ε α) = Pure.pure value := rfl

@[simp] theorem lift_error (error : ε) : (lift (.error error) : Program σ ε α) = fail error :=
  rfl

@[simp] theorem perform_bind_run [Updates σ υ] (update : υ) (next : Unit → Program σ ε β)
    (state : σ) (faults : List Fault)
    : ((perform update : Program σ ε Unit) >>= next) state faults
      = next () (Updates.apply update state) faults := rfl

/-- A durable update happens, is refused or meets a crash. -/
theorem persist_cases [Updates σ υ] (wrap : String → ε) (update : υ) (state : σ)
    (faults : List Fault)
    : (∃ rest,
        (persist wrap update : Program σ ε Unit) state faults
          = (.done (), Updates.apply update state, rest))
      ∨ (∃ reason rest,
          (persist wrap update : Program σ ε Unit) state faults
            = (.failed (wrap reason), state, rest))
      ∨ ∃ rest,
          (persist wrap update : Program σ ε Unit) state faults = (.crashed, state, rest) := by
  rcases faults with _ | ⟨_ | reason | _, rest⟩
  · exact Or.inl ⟨[], rfl⟩
  · exact Or.inl ⟨rest, rfl⟩
  · exact Or.inr (Or.inl ⟨reason, rest, rfl⟩)
  · exact Or.inr (Or.inr ⟨rest, rfl⟩)

/-- A read that returned gave what is there and changed nothing. -/
theorem fetch_done_inv {wrap : String → ε} {look : σ → α} {state last : σ}
    {faults rest : List Fault} {value : α}
    (ran : fetch wrap look state faults = (.done value, last, rest))
    : value = look state ∧ last = state := by
  rcases faults with _ | ⟨_ | reason | _, left⟩ <;> cases ran <;> exact ⟨rfl, rfl⟩

/-- Binding is associative, by cases on how the first step ends. -/
theorem bind_assoc_run {γ : Type} (program : Program σ ε α) (next : α → Program σ ε β)
    (last : β → Program σ ε γ)
    : (program >>= next) >>= last = program >>= fun value => next value >>= last := by
  funext state faults
  simp only [bind_run]
  rcases program state faults with ⟨_ | _ | _, _, _⟩ <;> rfl

/-- Monad laws, so that `do` blocks may be regrouped. -/
instance : LawfulMonad (Program σ ε) := LawfulMonad.mk' (Program σ ε)
  (by
    intro α program
    funext state faults
    change (program >>= fun value => Pure.pure (id value)) state faults = _
    simp only [bind_run]
    rcases program state faults with ⟨_ | _ | _, _, _⟩ <;> rfl)
  (fun _ _ => rfl)
  (fun program next last => bind_assoc_run program next last)

/-- Changing what was returned changes nothing else, by cases on how the program ends. -/
theorem map_run (change : α → β) (program : Program σ ε α) (state : σ) (faults : List Fault)
    : (change <$> program) state faults
      = ((program state faults).1.map change, (program state faults).2) := by
  rw [map_eq_pure_bind, bind_run]
  rcases program state faults with ⟨_ | _ | _, _, _⟩ <;> rfl

/-- A changed answer comes from a run of the program that answered. -/
theorem map_done_inv {change : α → β} {program : Program σ ε α} {state last : σ}
    {faults rest : List Fault} {value : β}
    (ran : (change <$> program) state faults = (.done value, last, rest))
    : ∃ given, program state faults = (.done given, last, rest) ∧ change given = value := by
  rw [map_run] at ran
  rcases first : program state faults with ⟨given | error | _, middle, left⟩
  all_goals
    rw [first] at ran
    cases ran
  exact ⟨given, rfl, rfl⟩

/-- A program that answered did so whatever its errors are called. -/
theorem map_done {change : α → β} {program : Program σ ε α} {state last : σ}
    {faults rest : List Fault} {value : α} (ran : program state faults = (.done value, last, rest))
    : (change <$> program) state faults = (.done (change value), last, rest) := by
  rw [map_run, ran]
  rfl

theorem mapError_done_inv {rename : ε → ε'} {program : Program σ ε α} {state last : σ}
    {faults rest : List Fault} {value : α}
    (ran : mapError rename program state faults = (.done value, last, rest))
    : program state faults = (.done value, last, rest) := by
  unfold mapError at ran
  rcases first : program state faults with ⟨given | error | _, middle, left⟩
  all_goals
    rw [first] at ran
    cases ran
  rfl

theorem mapError_done {rename : ε → ε'} {program : Program σ ε α} {state last : σ}
    {faults rest : List Fault} {value : α} (ran : program state faults = (.done value, last, rest))
    : mapError rename program state faults = (.done value, last, rest) := by
  simp only [mapError, ran]

@[simp] theorem attempt_working_done {program : Program σ ε α} {state state' : σ}
    {faults rest : List Fault} {value : α}
    (ran : program state faults = (.done value, state', rest))
    : (attempt program : Program σ ε' (Except ε α)) state faults
      = (.done (.ok value), state', rest) := by
  simp only [attempt, ran]

end Program

end VerticalAI.Foundation
