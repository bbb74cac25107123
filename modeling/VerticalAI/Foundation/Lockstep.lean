import Mathlib.Data.List.Induction
import VerticalAI.Foundation.History

/-! Two services given the same script. Every item is served with what was answered before it, so
that a script may name what an earlier item returned.
-/

namespace VerticalAI.Foundation

/-- How an item is answered, given the answers so far, and the state it leaves. -/
abbrev Service (σ α β : Type) := List β → σ → α → β × σ

/-- What a service has answered and the state it is in. -/
structure Served (σ β : Type) where
  answers : List β
  state : σ

namespace Served

variable {σ α β : Type}

def next (serve : Service σ α β) (served : Served σ β) (item : α) : Served σ β :=
  let given := serve served.answers served.state item
  ⟨served.answers ++ [given.1], given.2⟩

def script (serve : Service σ α β) (state : σ) (items : List α) : Served σ β :=
  items.foldl (next serve) ⟨[], state⟩

theorem script_concat (serve : Service σ α β) (state : σ) (items : List α) (item : α)
    : script serve state (items ++ [item]) = (script serve state items).next serve item := by
  simp only [script, List.foldl_append, List.foldl_cons, List.foldl_nil]

/-- Every item is answered once, by induction from the end of the script. -/
theorem script_answers_length (serve : Service σ α β) (state : σ) (items : List α)
    : (script serve state items).answers.length = items.length := by
  induction items using List.reverseRecOn with
  | nil => rfl
  | append_singleton items item ih =>
      rw [script_concat, List.length_append, List.length_singleton, ← ih]
      exact List.length_append

@[simp] theorem next_answers (serve : Service σ α β) (served : Served σ β) (item : α)
    : (served.next serve item).answers
      = served.answers ++ [(serve served.answers served.state item).1] := rfl

end Served

variable {σ τ α β γ ω : Type} {serve : Service σ α β} {other : Service τ α γ} {read : β → ω}
  {readOther : γ → ω} {related : Served σ β → Served τ γ → Prop}
  {admitted good : Served τ γ → α → Prop}

/-- Between related states an admitted item is answered alike exactly when it is good, and a good
one leaves them related.
-/
def Lockstep (serve : Service σ α β) (other : Service τ α γ) (read : β → ω) (readOther : γ → ω)
    (related : Served σ β → Served τ γ → Prop) (admitted good : Served τ γ → α → Prop)
    : Prop :=
  ∀ first second item, related first second → admitted second item →
    (read (serve first.answers first.state item).1
        = readOther (other second.answers second.state item).1 ↔ good second item)
    ∧ (good second item → related (first.next serve item) (second.next other item))

/-- The whole script is of such items, each in the state the second service is in by then. -/
def Along (other : Service τ α γ) (state : τ) (script : List α)
    (fact : Served τ γ → α → Prop)
    : Prop :=
  Throughout script fun before => fact (Served.script other state before)

namespace Lockstep

variable {first : σ} {second : τ} {script : List α}

/-- Good items keep the services related, by induction from the end of the script. -/
theorem related_script (lockstep : Lockstep serve other read readOther related admitted good)
    (start : related ⟨[], first⟩ ⟨[], second⟩) (admits : Along other second script admitted)
    (goods : Along other second script good)
    : related (Served.script serve first script) (Served.script other second script) := by
  induction script using List.reverseRecOn with
  | nil => exact start
  | append_singleton script item ih =>
      have ⟨admittedBefore, admittedLast⟩ := Throughout.concat_iff.mp admits
      have ⟨goodBefore, goodLast⟩ := Throughout.concat_iff.mp goods
      have before := ih admittedBefore goodBefore
      rw [Served.script_concat, Served.script_concat]
      exact (lockstep _ _ item before admittedLast).2 goodLast

/-- All answers are alike exactly when all items are good: the first item that is not is answered
differently.
-/
theorem answers_iff (lockstep : Lockstep serve other read readOther related admitted good)
    (start : related ⟨[], first⟩ ⟨[], second⟩) (admits : Along other second script admitted)
    : (Served.script serve first script).answers.map read
        = (Served.script other second script).answers.map readOther
      ↔ Along other second script good := by
  induction script using List.reverseRecOn with
  | nil => exact iff_of_true rfl Throughout.nil
  | append_singleton script item ih =>
      have ⟨admittedBefore, admittedLast⟩ := Throughout.concat_iff.mp admits
      have step (goodBefore : Along other second script good) :=
        (lockstep _ _ item (lockstep.related_script start admittedBefore goodBefore)
          admittedLast).1
      rw [Served.script_concat, Served.script_concat, Served.next_answers, Served.next_answers,
        List.map_append, List.map_append, Along, Throughout.concat_iff]
      constructor
      · intro same
        have ⟨earlier, last⟩ := List.append_inj' same rfl
        have goodBefore := (ih admittedBefore).mp earlier
        exact ⟨goodBefore, (step goodBefore).mp (List.singleton_inj.mp last)⟩
      · intro ⟨goodBefore, goodLast⟩
        have last := (step goodBefore).mpr goodLast
        rw [(ih admittedBefore).mpr goodBefore, List.map_singleton, List.map_singleton, last]

end Lockstep

end VerticalAI.Foundation
