import VerticalAI.Foundation.Program

/-! Programs that are indifferent to part of their state: from states that are alike they end
alike, meet the same faults and leave states that are alike.
-/

namespace VerticalAI.Foundation.Program

variable {σ υ ε ε' α β : Type} {alike : σ → σ → Prop}

/-- The program cannot tell states apart that are alike. -/
def Indifferent (alike : σ → σ → Prop) (program : Program σ ε α) : Prop :=
  ∀ first second faults,
    alike first second
    → (program first faults).1 = (program second faults).1
      ∧ alike (program first faults).2.1 (program second faults).2.1
      ∧ (program first faults).2.2 = (program second faults).2.2

theorem indifferent_pure (value : α)
    : Indifferent alike (Pure.pure value : Program σ ε α) :=
  fun _ _ _ same => ⟨rfl, same, rfl⟩

theorem indifferent_fail (error : ε) : Indifferent alike (fail error : Program σ ε α) :=
  fun _ _ _ same => ⟨rfl, same, rfl⟩

/-- A check that looks at no state is indifferent to it. -/
theorem indifferent_lift (result : Except ε α)
    : Indifferent alike (lift result : Program σ ε α) := by
  cases result with
  | ok value => exact indifferent_pure value
  | error error => exact indifferent_fail error

/-- A sequence goes on alike, by cases on how its first step ends. -/
theorem Indifferent.bind {program : Program σ ε α} {next : α → Program σ ε β}
    (head : Indifferent alike program) (tail : ∀ value, Indifferent alike (next value))
    : Indifferent alike (program >>= next) := by
  intro first second faults same
  obtain ⟨outcomes, states, rests⟩ := head first second faults same
  simp only [bind_run]
  rcases ran : program first faults with ⟨outcome, left, rest⟩
  rcases also : program second faults with ⟨other, right, remaining⟩
  rw [ran, also] at outcomes states rests
  obtain rfl : outcome = other := outcomes
  obtain rfl : rest = remaining := rests
  cases outcome with
  | done value => exact tail value left right rest states
  | failed error => exact ⟨rfl, states, rfl⟩
  | crashed => exact ⟨rfl, states, rfl⟩

theorem indifferent_durably {wrap : String → ε} {change : σ → σ} {value : σ → α}
    (changes : ∀ first second, alike first second → alike (change first) (change second))
    (sees : ∀ first second, alike first second → value first = value second)
    : Indifferent alike (durably wrap change value) := by
  intro first second faults same
  have looked := congrArg (Outcome.done (ε := ε)) (sees first second same)
  rcases faults with _ | ⟨_ | _ | _, rest⟩
  · exact ⟨looked, changes first second same, rfl⟩
  · exact ⟨looked, changes first second same, rfl⟩
  · exact ⟨rfl, same, rfl⟩
  · exact ⟨rfl, same, rfl⟩

/-- A read is indifferent to what it does not look at. -/
theorem indifferent_fetch {wrap : String → ε} {look : σ → α}
    (sees : ∀ first second, alike first second → look first = look second)
    : Indifferent alike (fetch wrap look : Program σ ε α) :=
  indifferent_durably (fun _ _ same => same) sees

/-- A write is indifferent to what it neither reads nor changes. -/
theorem indifferent_persist [Updates σ υ] {wrap : String → ε} {update : υ}
    (changes : ∀ first second, alike first second
      → alike (Updates.apply update first) (Updates.apply update second))
    : Indifferent alike (persist wrap update : Program σ ε Unit) :=
  indifferent_durably changes fun _ _ _ => rfl

end VerticalAI.Foundation.Program
