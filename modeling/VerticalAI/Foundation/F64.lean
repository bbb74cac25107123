import Mathlib.Data.Nat.Basic

/-! Floats of 64 bits, as far as they are only carried, compared, written as text and read back. -/

namespace VerticalAI.Foundation

structure F64 where
  bits : UInt64
  deriving DecidableEq, Repr

namespace F64

instance : OfNat F64 0 := ⟨⟨0⟩⟩

def exponent (float : F64) : UInt64 := (float.bits >>> 52) &&& 0x7FF

def fraction (float : F64) : UInt64 := float.bits &&& 0xFFFFFFFFFFFFF

/-- Neither infinite nor NaN. -/
def isFinite (float : F64) : Bool := float.exponent ≠ 0x7FF

def isNaN (float : F64) : Bool := float.exponent = 0x7FF && float.fraction ≠ 0

/-- Zero of either sign. -/
def isZero (float : F64) : Bool := float.bits <<< 1 = 0

/-- The comparison `==`: NaN equals nothing, and the two zeros equal each other. -/
def same (first second : F64) : Bool :=
  !first.isNaN && !second.isNaN && (first.bits = second.bits || first.isZero && second.isZero)

theorem same_symm {first second : F64} (equal : first.same second = true)
    : second.same first = true := by
  simp only [same, Bool.and_eq_true, Bool.not_eq_true', Bool.or_eq_true, decide_eq_true_eq]
    at equal ⊢
  exact ⟨⟨equal.1.2, equal.1.1⟩, equal.2.imp Eq.symm And.symm⟩

theorem same_trans {first second third : F64} (left : first.same second = true)
    (right : second.same third = true)
    : first.same third = true := by
  simp only [same, Bool.and_eq_true, Bool.not_eq_true', Bool.or_eq_true, decide_eq_true_eq]
    at left right ⊢
  refine ⟨⟨left.1.1, right.1.2⟩, ?_⟩
  rcases left.2 with bits | zeros
  · have equal : first = second := by
      cases first
      cases second
      exact congrArg F64.mk bits
    exact equal ▸ right.2
  · rcases right.2 with bits | more
    · have equal : second = third := by
        cases second
        cases third
        exact congrArg F64.mk bits
      exact Or.inr (equal ▸ zeros)
    · exact Or.inr ⟨zeros.1, more.2⟩

end F64

/-- What a JSON library makes of the text it writes for a finite float. It need not be the same float,
and the text may be refused.
-/
class FloatText where
  reread : F64 → Except String F64

/-- What is read back of a float; one that is not finite is written as `null`. -/
def F64.readBack [FloatText] (float : F64) : Except String F64 :=
  if float.isFinite then FloatText.reread float
  else .error "invalid type: null, expected f64"

end VerticalAI.Foundation
