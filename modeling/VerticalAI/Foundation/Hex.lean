import Mathlib.Data.List.Basic

/-! Bytes in hexadecimal: written in lower case, read in either. -/

namespace VerticalAI.Foundation.Hex

def encodeByte (byte : UInt8) : List Char :=
  [Nat.digitChar (byte.toNat / 16), Nat.digitChar (byte.toNat % 16)]

/-- Two lower-case digits a byte. -/
def encode (bytes : List UInt8) : String := String.ofList (bytes.flatMap encodeByte)

/-- The value of one digit, of either case. -/
def digitValue? (char : Char) : Option Nat :=
  if '0' ≤ char ∧ char ≤ '9' then some (char.toNat - 48)
  else if 'a' ≤ char ∧ char ≤ 'f' then some (char.toNat - 87)
  else if 'A' ≤ char ∧ char ≤ 'F' then some (char.toNat - 55)
  else none

/-- Read digits in pairs; an odd digit or any other character is refused. -/
def decodeChars : List Char → Option (List UInt8)
  | [] => some []
  | [_] => none
  | high :: low :: rest => do
      let highValue ← digitValue? high
      let lowValue ← digitValue? low
      let bytes ← decodeChars rest
      return UInt8.ofNat (highValue * 16 + lowValue) :: bytes

def decode (text : String) : Option (List UInt8) := decodeChars text.toList

theorem digitValue_digitChar {digit : Nat} (small : digit < 16)
    : digitValue? (Nat.digitChar digit) = some digit := by
  revert digit
  decide

/-- Reading back what was written, by induction on the bytes. -/
theorem decodeChars_flatMap (bytes : List UInt8)
    : decodeChars (bytes.flatMap encodeByte) = some bytes := by
  induction bytes with
  | nil => rfl
  | cons byte rest ih =>
      have high : digitValue? (Nat.digitChar (byte.toNat / 16)) = some (byte.toNat / 16) :=
        digitValue_digitChar (by have := byte.toNat_lt; omega)
      have low : digitValue? (Nat.digitChar (byte.toNat % 16)) = some (byte.toNat % 16) :=
        digitValue_digitChar (Nat.mod_lt _ (by decide))
      have value : byte.toNat / 16 * 16 + byte.toNat % 16 = byte.toNat := by omega
      simp only [List.flatMap_cons, encodeByte, List.cons_append, List.nil_append,
        decodeChars, high, low, ih, value, Option.bind_eq_bind, Option.bind_some,
        UInt8.ofNat_toNat, pure]

@[simp] theorem decode_encode (bytes : List UInt8) : decode (encode bytes) = some bytes := by
  simp only [decode, encode, String.toList_ofList, decodeChars_flatMap]

theorem encode_injective {first second : List UInt8} (same : encode first = encode second)
    : first = second := by
  have read := congrArg decode same
  simpa only [decode_encode, Option.some.injEq] using read

/-- Only digits and lower-case letters are written. -/
theorem encode_lower {bytes : List UInt8} {char : Char} (member : char ∈ (encode bytes).toList)
    : ('0' ≤ char && char ≤ '9' || 'a' ≤ char && char ≤ 'f') = true := by
  have digit : ∀ digit < 16, ('0' ≤ Nat.digitChar digit && Nat.digitChar digit ≤ '9'
      || 'a' ≤ Nat.digitChar digit && Nat.digitChar digit ≤ 'f') = true := by
    decide
  rw [encode, String.toList_ofList, List.mem_flatMap] at member
  obtain ⟨byte, -, written⟩ := member
  have small := byte.toNat_lt
  rcases List.mem_cons.mp written with rfl | last
  · exact digit _ (by omega)
  · rw [List.mem_singleton.mp last]
    exact digit _ (Nat.mod_lt _ (by decide))

theorem length_encode (bytes : List UInt8) : (encode bytes).toList.length = 2 * bytes.length := by
  rw [encode, String.toList_ofList]
  induction bytes with
  | nil => rfl
  | cons byte rest ih =>
      rw [List.flatMap_cons, List.length_append, ih, List.length_cons]
      simp only [encodeByte, List.length_cons, List.length_nil]
      omega

end VerticalAI.Foundation.Hex
