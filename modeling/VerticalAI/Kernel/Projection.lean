import Mathlib.Algebra.Order.BigOperators.Group.List
import Mathlib.Algebra.Order.Group.Nat
import VerticalAI.Kernel.Arch

/-! Projecting a prompt: what is kept, and that it fits the budget. -/

namespace VerticalAI.Kernel
open VerticalAI.Foundation VerticalAI.Contracts

section Keeping

variable {units : List PromptUnit} {reserved : List Char} {budget : UInt32}
  {count : List Char → UInt32}

/-- A choice of units that is never without the essential ones and fits with the marker. -/
structure Fitting (units : List PromptUnit) (reserved : List Char) (budget : UInt32)
    (count : List Char → UInt32) (kept : Finset Nat) : Prop where
  essential : essential units ⊆ kept
  fits : count (render units kept (some reserved)) ≤ budget

theorem Fitting.keepIfFits {kept : Finset Nat} (fitting : Fitting units reserved budget count kept)
    (place : Nat)
    : Fitting units reserved budget count (keepIfFits units reserved budget count kept place) := by
  unfold Kernel.keepIfFits
  split
  · exact fitting
  · next fits =>
      exact ⟨fitting.essential.trans (Finset.subset_insert _ _), UInt32.not_lt.mp fits⟩

/-- Admitting units one after another, by induction on their places. -/
theorem Fitting.foldl {kept : Finset Nat} (fitting : Fitting units reserved budget count kept)
    (order : List Nat)
    : Fitting units reserved budget count
        (order.foldl (Kernel.keepIfFits units reserved budget count) kept) := by
  induction order generalizing kept with
  | nil => exact fitting
  | cons place rest ih => exact ih (fitting.keepIfFits place)

/-- The marker of what a choice leaves out. -/
def markerOf (units : List PromptUnit) (kept : Finset Nat) : Option (List Char) :=
  if droppedLines units kept = 0 then none else some (marker (droppedLines units kept))

/-- The units a projection keeps. -/
def chosenUnits (units : List PromptUnit) (budget : UInt32) (count : List Char → UInt32)
    : Finset Nat :=
  (admissionOrder units).foldl
    (keepIfFits units (marker (droppedLines units (essential units))) budget count)
    (essential units)

/-- Where the prompt does not fit, what is printed are the chosen units. -/
theorem project_chosen {prompt text : List Char} (exceeds : budget < count prompt)
    (projected : project prompt budget count = some text)
    : text = render (unitsOf prompt) (chosenUnits (unitsOf prompt) budget count)
        (markerOf (unitsOf prompt) (chosenUnits (unitsOf prompt) budget count)) := by
  rw [project, if_neg (UInt32.not_le.mpr exceeds)] at projected
  dsimp only at projected
  split at projected
  · cases projected
  · obtain rfl := Option.some.inj projected
    unfold markerOf chosenUnits
    split <;> rfl

theorem project_eq_none {prompt : List Char} (exceeds : budget < count prompt)
    (tooLong : budget < count (render (unitsOf prompt) (essential (unitsOf prompt))
      (some (marker (droppedLines (unitsOf prompt) (essential (unitsOf prompt)))))))
    : project prompt budget count = none := by
  rw [project, if_neg (UInt32.not_le.mpr exceeds)]
  exact if_pos tooLong

/-- There is no projection only if the essential units do not fit. -/
theorem project_none {prompt : List Char} (refused : project prompt budget count = none)
    : budget < count prompt
      ∧ budget < count (render (unitsOf prompt) (essential (unitsOf prompt))
          (some (marker (droppedLines (unitsOf prompt) (essential (unitsOf prompt)))))) := by
  unfold project at refused
  split at refused
  · cases refused
  · next exceeds =>
      dsimp only at refused
      split at refused
      · next tooLong => exact ⟨UInt32.not_le.mp exceeds, tooLong⟩
      · cases refused

/-- A projection is the whole prompt or a choice of units that fits. -/
theorem project_some {prompt text : List Char} (projected : project prompt budget count = some text)
    : count prompt ≤ budget ∧ text = prompt
      ∨ budget < count prompt ∧ ∃ kept,
          Fitting (unitsOf prompt) (marker (droppedLines (unitsOf prompt)
            (essential (unitsOf prompt)))) budget count kept
          ∧ text = render (unitsOf prompt) kept (markerOf (unitsOf prompt) kept) := by
  by_cases fits : count prompt ≤ budget
  · rw [project, if_pos fits] at projected
    exact Or.inl ⟨fits, (Option.some.inj projected).symm⟩
  · have exceeds := UInt32.not_le.mp fits
    have start : Fitting (unitsOf prompt) (marker (droppedLines (unitsOf prompt)
        (essential (unitsOf prompt)))) budget count (essential (unitsOf prompt)) := by
      refine ⟨Finset.Subset.refl _, UInt32.not_lt.mp fun tooLong => ?_⟩
      rw [project_eq_none exceeds tooLong] at projected
      cases projected
    exact Or.inr ⟨exceeds, chosenUnits (unitsOf prompt) budget count, start.foldl _,
      project_chosen exceeds projected⟩

end Keeping

/-- The length of a text in bytes. -/
def byteLength (text : List Char) : Nat := (Utf8.encode text).length

/-- The count does not go down when a text gets longer in bytes. -/
def CountsBytes (count : List Char → UInt32) : Prop :=
  ∀ first second, byteLength first ≤ byteLength second → count first ≤ count second

theorem byteLength_append (first second : List Char)
    : byteLength (first ++ second) = byteLength first + byteLength second := by
  rw [byteLength, Utf8.encode_append, List.length_append]
  rfl

/-- Digits are one byte each, by induction on them. -/
theorem byteLength_digits {digits : List Char} (all : ∀ char ∈ digits, char.isDigit = true)
    : byteLength digits = digits.length := by
  induction digits with
  | nil => rfl
  | cons digit rest ih =>
      have small : digit.utf8Size = 1 := by
        have bounds := all digit List.mem_cons_self
        rw [Char.isDigit, Bool.and_eq_true, decide_eq_true_eq, decide_eq_true_eq] at bounds
        rw [Char.utf8Size_eq_one_iff]
        exact UInt32.le_trans bounds.2 (by decide)
      rw [byteLength, Utf8.encode_cons, List.length_append, String.length_utf8EncodeChar, small,
        ← byteLength, ih fun char member => all char (.tail _ member), List.length_cons,
        Nat.add_comm]

/-- More dropped lines take no shorter marker. -/
theorem byteLength_marker_mono {fewer more : Nat} (le : fewer ≤ more)
    : byteLength (marker fewer) ≤ byteLength (marker more) := by
  have digits (number : Nat)
      : byteLength (Nat.toDigits 10 number) = (Nat.toDigits 10 number).length :=
    byteLength_digits fun _ member =>
      Nat.isDigit_of_mem_toDigits (by decide) (by decide) member
  have width : (Nat.toDigits 10 fewer).length ≤ (Nat.toDigits 10 more).length := by
    have positive : 0 < (Nat.toDigits 10 more).length := Nat.length_toDigits_pos
    have below : more < 10 ^ (Nat.toDigits 10 more).length :=
      (Nat.length_toDigits_le_iff (by decide) positive).mp (Nat.le_refl _)
    exact (Nat.length_toDigits_le_iff (by decide) positive).mpr (Nat.lt_of_le_of_lt le below)
  have spelled (number : Nat)
      : byteLength (marker number) = byteLength "[PROJECTED: ".toList
        + (Nat.toDigits 10 number).length + byteLength " lines dropped]".toList := by
    unfold marker
    rw [byteLength_append, byteLength_append, digits]
  rw [spelled, spelled]
  exact Nat.add_le_add_right (Nat.add_le_add_left width _) _

/-- Keeping more leaves out no more lines. -/
theorem droppedLines_anti (units : List PromptUnit) {fewer more : Finset Nat}
    (subset : fewer ⊆ more)
    : droppedLines units more ≤ droppedLines units fewer := by
  have left : (units.zipIdx.filter fun entry => entry.2 ∉ more).Sublist
      (units.zipIdx.filter fun entry => entry.2 ∉ fewer) :=
    List.monotone_filter_right _ fun entry absent => by
      rw [decide_eq_true_eq] at absent ⊢
      exact fun kept => absent (subset kept)
  exact (left.map _).sum_le_sum fun _ _ => Nat.zero_le _

/-- What is printed is no longer than with the marker that was reserved. -/
theorem byteLength_render_le (units : List PromptUnit) {kept : Finset Nat}
    (subset : essential units ⊆ kept)
    : byteLength (render units kept (markerOf units kept))
      ≤ byteLength (render units kept (some (marker (droppedLines units (essential units))))) := by
  unfold markerOf render
  rw [byteLength_append, byteLength_append]
  refine Nat.add_le_add_left ?_ _
  split
  · exact Nat.zero_le _
  · have shorter := byteLength_marker_mono (droppedLines_anti units subset)
    simp only [Option.toList_some, List.flatMap_cons, List.flatMap_nil, List.append_nil,
      byteLength_append]
    omega

/-- A projection fits the budget. -/
theorem project_fits {prompt text : List Char} {budget : UInt32} {count : List Char → UInt32}
    (bytes : CountsBytes count) (projected : project prompt budget count = some text)
    : count text ≤ budget := by
  rcases project_some projected with ⟨fits, rfl⟩ | ⟨-, kept, fitting, rfl⟩
  · exact fits
  · have shorter := bytes _ _ (byteLength_render_le (unitsOf prompt) fitting.essential)
    exact UInt32.le_trans shorter fitting.fits

end VerticalAI.Kernel
