import Mathlib.Algebra.GroupWithZero.Nat
import Mathlib.Data.List.Lex
import VerticalAI.Store.LedgerFs

/-! Segment names sort as their numbers do, as long as six digits hold the number. -/

namespace VerticalAI.Store
open VerticalAI.Foundation

/-- Two texts agree up to a position where the first has the smaller character. -/
private def DiffersBelow (first second : List Char) : Prop :=
  ∃ common low high lowRest highRest,
    first = common ++ low :: lowRest ∧ second = common ++ high :: highRest ∧ low < high

private theorem DiffersBelow.lt {first second : List Char}
    (below : DiffersBelow first second)
    : first < second := by
  obtain ⟨common, low, high, lowRest, highRest, rfl, rfl, smaller⟩ := below
  exact List.append_left_lt (List.Lex.rel smaller)

private theorem DiffersBelow.append_left {first second : List Char}
    (below : DiffersBelow first second) (front : List Char)
    : DiffersBelow (front ++ first) (front ++ second) := by
  obtain ⟨common, low, high, lowRest, highRest, rfl, rfl, smaller⟩ := below
  exact ⟨front ++ common, low, high, lowRest, highRest, by rw [List.append_assoc],
    by rw [List.append_assoc], smaller⟩

private theorem DiffersBelow.append_right {first second : List Char}
    (below : DiffersBelow first second) (lowEnd highEnd : List Char)
    : DiffersBelow (first ++ lowEnd) (second ++ highEnd) := by
  obtain ⟨common, low, high, lowRest, highRest, rfl, rfl, smaller⟩ := below
  exact ⟨common, low, high, lowRest ++ lowEnd, highRest ++ highEnd,
    by rw [List.append_assoc, List.cons_append],
    by rw [List.append_assoc, List.cons_append], smaller⟩

private theorem digitChar_lt {low high : Nat} (smaller : low < high) (digit : high < 10)
    : Nat.digitChar low < Nat.digitChar high := by
  have table : ∀ high < 10, ∀ low < high, Nat.digitChar low < Nat.digitChar high := by decide
  exact table high digit low smaller

/-- Padded decimals of one width compare as the numbers do, by induction on the width: either
the leading digits differ, or they agree and the last digit decides.
-/
private theorem padded_below {width : Nat} {low high : Nat} (smaller : low < high)
    (fits : high < 10 ^ width)
    : DiffersBelow (padded width low) (padded width high) := by
  induction width generalizing low high with
  | zero => omega
  | succ width ih =>
      simp only [padded]
      rcases Nat.lt_or_ge (low / 10) (high / 10) with leading | trailing
      · exact (ih leading (by omega)).append_right _ _
      · have same : low / 10 = high / 10 := by omega
        rw [same]
        exact ⟨padded width (high / 10), _, _, [], [], rfl, rfl,
          digitChar_lt (by omega) (by omega)⟩

/-- How many segments six digits can number. -/
def maxSegments : Nat := 10 ^ 6

private theorem compare_lt {first second : String} (smaller : first < second)
    : compare first second = .lt := compareOfLessAndEq_eq_lt.mpr smaller

theorem segmentFile_lt {low high : Nat} (smaller : low < high) (fits : high < maxSegments)
    : compare (segmentFile low) (segmentFile high) = .lt := by
  have digits : DiffersBelow (padded 6 low) (padded 6 high) := padded_below smaller fits
  have below := (digits.append_left ['s', 'e', 'g', '-']).append_right
    segmentExtension segmentExtension
  have texts : segmentFile low < segmentFile high := by
    rw [String.lt_iff]
    simpa only [segmentFile, String.toList_ofList] using below.lt
  exact compare_lt texts

theorem segmentFile_injective {first second : Nat} (fitsFirst : first < maxSegments)
    (fitsSecond : second < maxSegments) (same : segmentFile first = segmentFile second)
    : first = second := by
  rcases Nat.lt_trichotomy first second with smaller | equal | larger
  · have ordered := segmentFile_lt smaller fitsSecond
    rw [same, Std.ReflOrd.compare_self] at ordered
    exact absurd ordered (by decide)
  · exact equal
  · have ordered := segmentFile_lt larger fitsFirst
    rw [same, Std.ReflOrd.compare_self] at ordered
    exact absurd ordered (by decide)

/-- Padding keeps at least the digits asked for, by induction on the width. -/
theorem width_le_length_padded (width number : Nat)
    : width ≤ (padded width number).length := by
  induction width generalizing number with
  | zero => exact Nat.zero_le _
  | succ width ih =>
      have shorter := ih (number / 10)
      simp only [padded, List.length_append, List.length_singleton]
      omega

/-- Every segment name has the extension the replay looks for. -/
theorem isSegment_segmentFile (segment : Nat) : isSegment (segmentFile segment) = true := by
  have text : (segmentFile segment).toList
      = ['s', 'e', 'g', '-'] ++ padded 6 segment ++ segmentExtension := by
    rw [segmentFile, String.toList_ofList]
  have suffix : segmentExtension.isSuffixOf (segmentFile segment).toList = true := by
    rw [text]
    exact List.isSuffixOf_iff_suffix.mpr (List.suffix_append _ _)
  have longer : segmentExtension.length < (segmentFile segment).toList.length := by
    have width := width_le_length_padded 6 segment
    simp only [text, List.length_append, List.length_cons, List.length_nil]
    omega
  rw [isSegment, suffix, Bool.true_and]
  exact decide_eq_true longer

end VerticalAI.Store
