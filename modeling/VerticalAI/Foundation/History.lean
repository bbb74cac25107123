import Mathlib.Data.List.Basic

/-! Histories: what occurred in one, and what held throughout it, each moment judged by what came
before it.
-/

namespace VerticalAI.Foundation

variable {α : Type} {history : List α} {occasion : List α → α → Prop}

/-- Some element of the history was such an occasion. -/
def Occurred (history : List α) (occasion : List α → α → Prop) : Prop :=
  ∃ before element after, history = before ++ element :: after ∧ occasion before element

/-- Every element of the history was such an occasion. -/
def Throughout (history : List α) (occasion : List α → α → Prop) : Prop :=
  ∀ before element after, history = before ++ element :: after → occasion before element

/-- A place in a longer history is its last one or one of the history before. -/
theorem concat_eq_append_cons {before after : List α} {element last : α}
    (same : history ++ [last] = before ++ element :: after)
    : (before = history ∧ element = last) ∨ ∃ rest, history = before ++ element :: rest := by
  rcases List.eq_nil_or_concat' after with rfl | ⟨rest, other, rfl⟩
  · obtain ⟨rfl, equal⟩ := List.append_inj' same rfl
    exact .inl ⟨rfl, (List.head_eq_of_cons_eq equal).symm⟩
  · rw [← List.cons_append, ← List.append_assoc] at same
    exact .inr ⟨rest, (List.append_inj' same rfl).1⟩

/-- Two places in a history are the same, or one is before the other. -/
theorem append_cons_trichotomy {before after earlier later : List α} {element other : α}
    (same : before ++ element :: after = earlier ++ other :: later)
    : before = earlier ∨ (∃ between, earlier = before ++ element :: between)
      ∨ ∃ between, before = earlier ++ other :: between := by
  rcases List.append_eq_append_iff.mp same with ⟨between, longer, rest⟩ | ⟨between, longer, rest⟩
  · cases between with
    | nil => exact .inl (by rw [longer, List.append_nil])
    | cons first between =>
        obtain ⟨rfl, -⟩ := List.cons.inj rest
        exact .inr (.inl ⟨between, longer⟩)
  · cases between with
    | nil => exact .inl (by rw [longer, List.append_nil])
    | cons first between =>
        obtain ⟨rfl, -⟩ := List.cons.inj rest
        exact .inr (.inr ⟨between, longer⟩)

/-- What follows the last occurrence of an element is determined. -/
theorem eq_after_last {before earlier after later : List α} {element : α}
    (same : before ++ element :: after = earlier ++ element :: later) (last : element ∉ after)
    (alsoLast : element ∉ later)
    : after = later := by
  rcases append_cons_trichotomy same with rfl | ⟨between, rfl⟩ | ⟨between, rfl⟩
  · exact (List.cons.inj (List.append_cancel_left same)).2
  · rw [List.append_assoc, List.cons_append] at same
    have rest := (List.cons.inj (List.append_cancel_left same)).2
    exact absurd (rest ▸ List.mem_append_right _ List.mem_cons_self) last
  · rw [List.append_assoc, List.cons_append] at same
    have rest := (List.cons.inj (List.append_cancel_left same)).2
    exact absurd (rest ▸ List.mem_append_right _ List.mem_cons_self) alsoLast

namespace Occurred

theorem not_nil : ¬Occurred [] occasion := by
  rintro ⟨before, element, after, empty, -⟩
  exact List.cons_ne_nil _ _ (List.append_eq_nil_iff.mp empty.symm).2

theorem last {element : α} (now : occasion history element)
    : Occurred (history ++ [element]) occasion :=
  ⟨history, element, [], rfl, now⟩

/-- What occurred stays so. -/
theorem append (occurred : Occurred history occasion) (more : List α)
    : Occurred (history ++ more) occasion := by
  obtain ⟨before, element, after, rfl, now⟩ := occurred
  exact ⟨before, element, after ++ more, by simp only [List.append_assoc, List.cons_append], now⟩

/-- What occurred in a longer history occurred before its last element, or occurs there. -/
theorem concat_iff {element : α}
    : Occurred (history ++ [element]) occasion
      ↔ Occurred history occasion ∨ occasion history element := by
  constructor
  · rintro ⟨before, found, after, same, now⟩
    rcases concat_eq_append_cons same with ⟨rfl, rfl⟩ | ⟨rest, rfl⟩
    · exact .inr now
    · exact .inl ⟨before, found, rest, rfl, now⟩
  · rintro (earlier | now)
    · exact earlier.append [element]
    · exact last now

theorem single_iff {element : α} : Occurred [element] occasion ↔ occasion [] element := by
  rw [← List.nil_append [element], concat_iff]
  exact or_iff_right not_nil

end Occurred

namespace Throughout

theorem nil : Throughout [] occasion := by
  intro before element after empty
  exact absurd (List.append_eq_nil_iff.mp empty.symm).2 (List.cons_ne_nil _ _)

theorem concat_iff {element : α}
    : Throughout (history ++ [element]) occasion
      ↔ Throughout history occasion ∧ occasion history element := by
  constructor
  · intro throughout
    refine ⟨fun before found after same => ?_, throughout history element [] rfl⟩
    exact throughout before found (after ++ [element]) (by rw [same, List.append_assoc]; rfl)
  · rintro ⟨earlier, now⟩ before found after same
    rcases concat_eq_append_cons same with ⟨rfl, rfl⟩ | ⟨rest, rfl⟩
    · exact now
    · exact earlier before found rest rfl

theorem single_iff {element : α} : Throughout [element] occasion ↔ occasion [] element := by
  rw [← List.nil_append [element], concat_iff]
  exact and_iff_right nil

/-- What held throughout held up to any moment. -/
theorem take {more : List α} (throughout : Throughout (history ++ more) occasion)
    : Throughout history occasion := by
  intro before element after same
  exact throughout before element (after ++ more) (by rw [same, List.append_assoc]; rfl)

/-- And at each moment. -/
theorem here {element : α} {after : List α}
    (throughout : Throughout (history ++ element :: after) occasion)
    : occasion history element :=
  throughout history element after rfl

end Throughout

end VerticalAI.Foundation
