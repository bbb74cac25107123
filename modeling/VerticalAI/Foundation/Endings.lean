import VerticalAI.Foundation.Program

/-! How programs end where every operation works: what they answer, and what they leave of the part
of the state that is looked at.
-/

namespace VerticalAI.Foundation

namespace Program

variable {σ υ ε α β ρ : Type}

/-- Where every operation works the program answers this and leaves the state looking like that. -/
structure Ends (look : σ → ρ) (program : Program σ ε α) (state : σ) (outcome : Outcome ε α)
    (left : ρ)
    : Prop where
  answer : (program state []).1 = outcome
  leaves : look (program state []).2.1 = left

variable {look : σ → ρ} {program : Program σ ε α} {state after : σ} {outcome : Outcome ε α} {left : ρ}

/-- What a run without faults comes to is how the program ends. -/
theorem Ends.of_run {rest : List Fault} (ran : program state [] = (outcome, after, rest))
    : program.Ends look state outcome (look after) := by
  constructor <;> rw [ran]

/-- Changing a value changes how the program ends and leaves the state alone. -/
theorem Ends.map (ends : program.Ends look state outcome left) (change : α → β)
    : (change <$> program).Ends look state (outcome.map change) left := by
  constructor <;> rw [map_run]
  · rw [ends.answer]
  · exact ends.leaves

theorem ends_fail (error : ε)
    : (fail error : Program σ ε α).Ends look state (.failed error) (look state) := .of_run rfl

theorem ends_pure (value : α)
    : (Pure.pure value : Program σ ε α).Ends look state (.done value) (look state) := .of_run rfl

section Sequence

variable {next : α → Program σ ε β} {last : Outcome ε β}

/-- What follows a step that returned goes on from where it was left. -/
theorem ends_bind {value : α} (ran : program state [] = (.done value, after, []))
    (ends : (next value).Ends look after last left)
    : (program >>= next).Ends look state last left := by
  constructor <;> rw [bind_done ran]
  · exact ends.answer
  · exact ends.leaves

/-- A step that reports an error ends what it is part of. -/
theorem Ends.bind_failed {error : ε} (ends : program.Ends look state (.failed error) left)
    : (program >>= next).Ends look state (.failed error) left := by
  have answer := ends.answer
  have leaves := ends.leaves
  rcases ran : program state [] with ⟨outcome, after, rest⟩
  rw [ran] at answer leaves
  obtain rfl : outcome = .failed error := answer
  constructor <;> rw [Program.bind_failed ran]
  exact leaves

/-- A value that is returned after a step. -/
theorem Ends.then_pure {given : α} (ends : program.Ends look state (.done given) left) (value : β)
    : (program >>= fun _ => Pure.pure value).Ends look state (.done value) left := by
  have answer := ends.answer
  have leaves := ends.leaves
  rcases ran : program state [] with ⟨outcome, after, rest⟩
  rw [ran] at answer leaves
  obtain rfl : outcome = .done given := answer
  constructor <;> rw [bind_done ran]
  · rfl
  · exact leaves

theorem ends_observe {read : σ → α} (ends : (next (read state)).Ends look state last left)
    : (observe read >>= next).Ends look state last left :=
  ends_bind rfl ends

theorem ends_perform [Updates σ υ] {update : υ} {next : Unit → Program σ ε β}
    (ends : (next ()).Ends look (Updates.apply update state) last left)
    : (perform update >>= next).Ends look state last left :=
  ends_bind rfl ends

/-- A check that is refused ends the program, with the state as it was. -/
theorem ends_refused {checked : Except ε α} {error : ε} (refused : checked = .error error)
    : (lift checked >>= next).Ends look state (.failed error) (look state) := by
  subst refused
  exact ends_fail error

/-- A check that passes hands on its value. -/
theorem ends_passed {checked : Except ε α} {value : α} (passed : checked = .ok value)
    (ends : (next value).Ends look state last left)
    : (lift checked >>= next).Ends look state last left := by
  subst passed
  exact ends

end Sequence

end Program

end VerticalAI.Foundation
