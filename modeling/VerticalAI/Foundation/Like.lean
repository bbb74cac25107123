import Mathlib.Data.List.Infix
import Mathlib.Data.List.Basic

/-! Patterns of the `LIKE` operator, which reads pattern and text as C strings, and the pattern that an
escaped prefix makes.
-/

namespace VerticalAI.Foundation.Like

/-- What a C string has of a text: all up to the first zero character. -/
def cString (text : List Char) : List Char := text.takeWhile (· ≠ '\x00')

/-- Letters of the ASCII alphabet count as the same in either case, and two characters that stand for
none as the replacement character; others do not.
-/
def fold (char : Char) : Char :=
  if char = '\uFFFE' ∨ char = '\uFFFF' then '\uFFFD' else char.toLower

/-- A pattern matches a text, after the escape or not: `%` stands for any characters, `_` for
any one, and a character after the escape stands for itself.
-/
def matchFrom (escape : Char) (literal : Bool) : (pattern : List Char) → List Char → Bool
  | [] => fun text => !literal && text.isEmpty
  | char :: rest =>
      if !literal && char = '%' then fun text => text.tails.any (matchFrom escape false rest)
      else if !literal && char = escape then matchFrom escape true rest
      else fun text =>
        match text with
        | [] => false
        | head :: tail =>
            (!literal && char = '_' || fold head = fold char) && matchFrom escape false rest tail

def like (escape : Char) (pattern text : List Char) : Bool :=
  matchFrom escape false (cString pattern) (cString text)

/-- Every occurrence of a character replaced by a text. -/
def replace (char : Char) (text : List Char) : List Char → List Char :=
  List.flatMap fun other => if other = char then text else [other]

/-- The wildcards and the escape itself, escaped one after the other. -/
def escaped (front : List Char) : List Char :=
  replace '_' ['\\', '_'] (replace '%' ['\\', '%'] (replace '\\' ['\\', '\\'] front))

/-- A text begins with another, up to the case of letters. -/
def Begins (front text : List Char) : Prop := front.map fold <+: text.map fold

instance : DecidableRel Begins := fun front text =>
  inferInstanceAs (Decidable (front.map fold <+: text.map fold))

theorem replace_append (char : Char) (text first second : List Char)
    : replace char text (first ++ second) = replace char text first ++ replace char text second :=
  List.flatMap_append

/-- What one character is escaped to. -/
theorem escaped_cons (char : Char) (front : List Char)
    : escaped (char :: front)
      = (if char = '\\' ∨ char = '%' ∨ char = '_' then ['\\', char] else [char])
        ++ escaped front := by
  have split : char :: front = [char] ++ front := rfl
  have single : escaped [char]
      = if char = '\\' ∨ char = '%' ∨ char = '_' then ['\\', char] else [char] := by
    by_cases back : char = '\\'
    · subst back
      rfl
    · by_cases percent : char = '%'
      · subst percent
        rfl
      · by_cases low : char = '_'
        · subst low
          rfl
        · simp [escaped, replace, back, percent, low]
  rw [split, ← single]
  simp only [escaped, replace_append]

/-- An escaped character matches itself, in either case. -/
theorem matchFrom_escaped_cons (char head : Char) (front rest tail : List Char)
    : matchFrom '\\' false (escaped (char :: front) ++ rest) [] = false
      ∧ matchFrom '\\' false (escaped (char :: front) ++ rest) (head :: tail)
        = (decide (fold head = fold char) && matchFrom '\\' false (escaped front ++ rest) tail) := by
  rw [escaped_cons]
  by_cases special : char = '\\' ∨ char = '%' ∨ char = '_'
  · rw [if_pos special]
    simp [matchFrom]
  · rw [if_neg special]
    simp only [not_or] at special
    obtain ⟨back, percent, low⟩ := special
    simp [matchFrom, back, percent, low]

/-- An escaped text matches itself in front, up to the case of letters, and what follows it matches the
rest, by induction on it.
-/
theorem matchFrom_escaped (front rest text : List Char)
    : matchFrom '\\' false (escaped front ++ rest) text = true
      ↔ ∃ head tail, text = head ++ tail ∧ head.map fold = front.map fold
        ∧ matchFrom '\\' false rest tail = true := by
  induction front generalizing text with
  | nil => simp [escaped, replace]
  | cons char front ih =>
      cases text with
      | nil => simp [(matchFrom_escaped_cons char char front rest []).1]
      | cons first text =>
          rw [(matchFrom_escaped_cons char first front rest text).2, Bool.and_eq_true,
            decide_eq_true_iff, ih]
          constructor
          · rintro ⟨same, head, tail, rfl, folded, matched⟩
            exact ⟨first :: head, tail, rfl, by simp [same, folded], matched⟩
          · rintro ⟨_ | ⟨other, head⟩, tail, built, folded, matched⟩
            · cases folded
            · obtain ⟨rfl, rfl⟩ := List.cons.inj built
              obtain ⟨same, folded⟩ := List.cons.inj folded
              exact ⟨same, head, tail, rfl, folded, matched⟩

-----------------------------------------------------------------------------------------
-- C strings
-----------------------------------------------------------------------------------------

/-- Only the zero character counts as it. -/
theorem fold_eq_zero {char : Char} : fold char = '\x00' ↔ char = '\x00' := by
  constructor
  · intro zero
    unfold fold at zero
    split at zero
    · exact absurd zero (by decide)
    · unfold Char.toLower at zero
      split at zero
      · next upper =>
          have value : (char.val + 32).toNat = 0 := congrArg (·.val.toNat) zero
          have high : char.val.toNat ≤ 90 := UInt32.le_iff_toNat_le.mp upper.2
          have offset : (32 : UInt32).toNat = 32 := rfl
          rw [UInt32.toNat_add] at value
          omega
      · exact zero
  · rintro rfl
    decide

theorem cString_append {first : List Char} (plain : '\x00' ∉ first) (rest : List Char)
    : cString (first ++ rest) = first ++ cString rest :=
  List.takeWhile_append_of_pos fun _ member => decide_eq_true fun zero => plain (zero ▸ member)

theorem cString_cons (char : Char) (text : List Char)
    : cString (char :: text) = if char = '\x00' then [] else char :: cString text := by
  by_cases zero : char = '\x00' <;> simp [cString, zero]

/-- Escaping neither adds a zero character nor moves one, by induction on the text. -/
theorem cString_escaped (front rest : List Char)
    : cString (escaped front ++ rest)
      = if '\x00' ∈ front then escaped (cString front) else escaped front ++ cString rest := by
  induction front with
  | nil => rfl
  | cons char front ih =>
      by_cases zero : char = '\x00'
      · subst zero
        rw [escaped_cons, if_pos List.mem_cons_self]
        rfl
      · have plain : '\x00'
            ∉ (if char = '\\' ∨ char = '%' ∨ char = '_' then ['\\', char] else [char]) := by
          split <;> simp [Ne.symm zero]
        have member : '\x00' ∈ char :: front ↔ '\x00' ∈ front := by simp [Ne.symm zero]
        rw [escaped_cons, List.append_assoc, cString_append plain, ih, cString_cons, if_neg zero,
          escaped_cons]
        by_cases inside : '\x00' ∈ front
        · rw [if_pos inside, if_pos (member.mpr inside)]
        · rw [if_neg inside, if_neg (mt member.mp inside), List.append_assoc]

/-- What begins with a text without the zero character does so before its own first one, by induction
on it.
-/
theorem begins_cString {front text : List Char} (plain : '\x00' ∉ front)
    : Begins front (cString text) ↔ Begins front text := by
  induction front generalizing text with
  | nil => exact iff_of_true List.nil_prefix List.nil_prefix
  | cons char front ih =>
      rw [List.mem_cons, not_or] at plain
      obtain ⟨first, others⟩ := plain
      cases text with
      | nil => rfl
      | cons head text =>
          rw [cString_cons]
          by_cases zero : head = '\x00'
          · have apart : fold char ≠ fold head := by
              rw [zero]
              exact fun same => first (fold_eq_zero.mp same).symm
            simp [Begins, zero, List.cons_prefix_cons, zero ▸ apart]
          · have tail : Begins front (cString text) ↔ Begins front text := ih others
            simp only [Begins, zero, if_false, List.map_cons, List.cons_prefix_cons] at tail ⊢
            rw [tail]

/-- The pattern of an escaped prefix matches the texts that begin with it; one with a zero character
matches the texts that are the same up to there.
-/
theorem like_escaped (front text : List Char)
    : like '\\' (escaped front ++ ['%']) text = true
      ↔ if '\x00' ∈ front then (cString text).map fold = (cString front).map fold
        else Begins front text := by
  rw [like, cString_escaped]
  split
  · have whole := matchFrom_escaped (cString front) [] (cString text)
    rw [List.append_nil] at whole
    rw [whole]
    constructor
    · rintro ⟨head, tail, built, folded, matched⟩
      obtain rfl : tail = [] := List.isEmpty_iff.mp matched
      rw [built, List.append_nil, folded]
    · exact fun folded => ⟨cString text, [], (List.append_nil _).symm, folded, rfl⟩
  · next plain =>
      have anything (tail : List Char) : matchFrom '\\' false (cString ['%']) tail = true :=
        List.any_eq_true.mpr ⟨[], (List.mem_tails [] tail).mpr List.nil_suffix, rfl⟩
      rw [matchFrom_escaped, ← begins_cString plain, Begins]
      simp only [anything, and_true]
      constructor
      · rintro ⟨head, tail, built, folded⟩
        rw [built, ← folded, List.map_append]
        exact List.prefix_append _ _
      · rintro ⟨rest, built⟩
        obtain ⟨head, tail, whole, folded, -⟩ := List.map_eq_append_iff.mp built.symm
        exact ⟨head, tail, whole, folded⟩

end VerticalAI.Foundation.Like
