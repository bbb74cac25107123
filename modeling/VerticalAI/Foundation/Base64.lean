import Mathlib.Data.List.Basic
import VerticalAI.Foundation.Text

/-! Bytes in base64, with padding: three bytes in four characters of a fixed alphabet. -/

namespace VerticalAI.Foundation.Base64
open Text

/-- The character that stands for six bits. -/
def digitChar (digit : Nat) : Char :=
  if digit < 26 then Char.ofNat (digit + 65)
  else if digit < 52 then Char.ofNat (digit + 71)
  else if digit < 62 then Char.ofNat (digit - 4)
  else if digit = 62 then '+'
  else '/'

def digitValue? (char : Char) : Option Nat :=
  if 'A' ≤ char ∧ char ≤ 'Z' then some (char.toNat - 65)
  else if 'a' ≤ char ∧ char ≤ 'z' then some (char.toNat - 71)
  else if '0' ≤ char ∧ char ≤ '9' then some (char.toNat + 4)
  else if char = '+' then some 62
  else if char = '/' then some 63
  else none

theorem digitValue_digitChar {digit : Nat} (small : digit < 64)
    : digitValue? (digitChar digit) = some digit := by
  revert digit
  decide

theorem digitChar_ne_pad {digit : Nat} (small : digit < 64) : digitChar digit ≠ '=' := by
  revert digit
  decide

/-- What is written: one byte long in UTF-8, and not white. -/
def Plain (char : Char) : Prop := char.utf8Size = 1 ∧ isWhitespace char = false

instance : DecidablePred Plain := fun _ => inferInstanceAs (Decidable (_ ∧ _))

theorem digitChar_plain {digit : Nat} (small : digit < 64) : Plain (digitChar digit) := by
  revert digit
  decide

/-- The four characters of three bytes. -/
def quad (first second third : UInt8) : List Char :=
  [digitChar (first.toNat / 4), digitChar (first.toNat % 4 * 16 + second.toNat / 16),
    digitChar (second.toNat % 16 * 4 + third.toNat / 64), digitChar (third.toNat % 64)]

def encode : List UInt8 → List Char
  | first :: second :: third :: rest => quad first second third ++ encode rest
  | [first, second] => (quad first second 0).take 3 ++ ['=']
  | [first] => (quad first 0 0).take 2 ++ ['=', '=']
  | [] => []

/-- Read the last four characters; the bits that padding leaves over have to be zero. -/
def decodeLast (first second third fourth : Char) : Option (List UInt8) := do
  let one ← digitValue? first
  let two ← digitValue? second
  if fourth = '=' then
    if third = '=' then
      if two % 16 = 0 then some [UInt8.ofNat (one * 4 + two / 16)] else none
    else
      let three ← digitValue? third
      if three % 4 = 0 then
        some [UInt8.ofNat (one * 4 + two / 16), UInt8.ofNat (two % 16 * 16 + three / 4)]
      else none
  else
    let three ← digitValue? third
    let four ← digitValue? fourth
    some [UInt8.ofNat (one * 4 + two / 16), UInt8.ofNat (two % 16 * 16 + three / 4),
      UInt8.ofNat (three % 4 * 64 + four)]

/-- Read groups of four characters; padding stands at the very end, and nothing may be missing. -/
def decode : List Char → Option (List UInt8)
  | [] => some []
  | [first, second, third, fourth] => decodeLast first second third fourth
  | first :: second :: third :: fourth :: rest => do
      let one ← digitValue? first
      let two ← digitValue? second
      let three ← digitValue? third
      let four ← digitValue? fourth
      let bytes ← decode rest
      return UInt8.ofNat (one * 4 + two / 16) :: UInt8.ofNat (two % 16 * 16 + three / 4)
        :: UInt8.ofNat (three % 4 * 64 + four) :: bytes
  | _ => none

/-- What the digits of three bytes stand for. -/
structure Digits (first second third : UInt8) : Prop where
  one : digitValue? (digitChar (first.toNat / 4)) = some (first.toNat / 4)
  two : digitValue? (digitChar (first.toNat % 4 * 16 + second.toNat / 16))
    = some (first.toNat % 4 * 16 + second.toNat / 16)
  three : digitValue? (digitChar (second.toNat % 16 * 4 + third.toNat / 64))
    = some (second.toNat % 16 * 4 + third.toNat / 64)
  four : digitValue? (digitChar (third.toNat % 64)) = some (third.toNat % 64)
  high : first.toNat / 4 * 4 + (first.toNat % 4 * 16 + second.toNat / 16) / 16 = first.toNat
  middle : (first.toNat % 4 * 16 + second.toNat / 16) % 16 * 16
    + (second.toNat % 16 * 4 + third.toNat / 64) / 4 = second.toNat
  low : (second.toNat % 16 * 4 + third.toNat / 64) % 4 * 64 + third.toNat % 64 = third.toNat

/-- The digits of any three octets are read back. -/
theorem digits (first second third : UInt8) : Digits first second third := by
  have := first.toNat_lt
  have := second.toNat_lt
  have := third.toNat_lt
  constructor <;> first | omega | exact digitValue_digitChar (by omega)

/-- A whole group decodes to its three octets, in front of what the rest decodes to. -/
theorem decode_quad (first second third : UInt8) (rest : List UInt8)
    : decode (quad first second third ++ encode rest)
      = (decode (encode rest)).map ([first, second, third] ++ ·) := by
  obtain ⟨one, two, three, four, head, middle, last⟩ := digits first second third
  have padless : digitChar (third.toNat % 64) ≠ '=' := digitChar_ne_pad (by omega)
  cases encode rest with
  | nil =>
      simp only [quad, List.append_nil, decode, decodeLast, one, two, three, four, padless, head,
        middle, last, Option.bind_eq_bind, Option.bind_some, if_false, UInt8.ofNat_toNat,
        Option.map_some]
  | cons char text =>
      simp only [quad, List.cons_append, List.nil_append, decode, one, two, three, four, head,
        middle, last, Option.bind_eq_bind, Option.bind_some, UInt8.ofNat_toNat, pure]
      cases decode (char :: text) <;> rfl

/-- What was written is read back, by induction on groups of three bytes. -/
@[simp] theorem decode_encode (bytes : List UInt8) : decode (encode bytes) = some bytes := by
  induction bytes using encode.induct with
  | case1 first second third rest ih =>
      rw [encode, decode_quad, ih]
      rfl
  | case2 first second =>
      obtain ⟨one, two, three, -, head, middle, -⟩ := digits first second 0
      have padless : digitChar (second.toNat % 16 * 4 + (0 : UInt8).toNat / 64) ≠ '=' :=
        digitChar_ne_pad (by have : (0 : UInt8).toNat = 0 := rfl; omega)
      have even : (second.toNat % 16 * 4 + (0 : UInt8).toNat / 64) % 4 = 0 := by
        have : (0 : UInt8).toNat = 0 := rfl
        omega
      simp only [encode, quad, List.take, List.cons_append, List.nil_append, decode, decodeLast, one,
        two, three, head, middle, padless, even, Option.bind_eq_bind, Option.bind_some, if_true,
        if_false, UInt8.ofNat_toNat]
  | case3 first =>
      obtain ⟨one, two, -, -, head, -, -⟩ := digits first 0 0
      have even : (first.toNat % 4 * 16 + (0 : UInt8).toNat / 16) % 16 = 0 := by
        have : (0 : UInt8).toNat = 0 := rfl
        omega
      simp only [encode, quad, List.take, List.cons_append, List.nil_append, decode, decodeLast, one,
        two, head, even, Option.bind_eq_bind, Option.bind_some, if_true, UInt8.ofNat_toNat]
  | case4 => rfl

theorem quad_plain {first second third : UInt8} {char : Char}
    (member : char ∈ quad first second third)
    : Plain char := by
  have := first.toNat_lt
  have := second.toNat_lt
  have := third.toNat_lt
  simp only [quad, List.mem_cons, List.not_mem_nil, or_false] at member
  rcases member with rfl | rfl | rfl | rfl <;> exact digitChar_plain (by omega)

/-- Nothing but plain characters is written, by induction on groups of three bytes. -/
theorem encode_plain {bytes : List UInt8} {char : Char} (member : char ∈ encode bytes)
    : Plain char := by
  have pad : Plain '=' := by decide
  induction bytes using encode.induct with
  | case1 first second third rest ih =>
      rw [encode, List.mem_append] at member
      exact member.elim quad_plain ih
  | case2 first second =>
      rw [encode, List.mem_append, List.mem_singleton] at member
      rcases member with digit | rfl
      · exact quad_plain (List.mem_of_mem_take digit)
      · exact pad
  | case3 first =>
      rw [encode, List.mem_append] at member
      rcases member with digit | padding
      · exact quad_plain (List.mem_of_mem_take digit)
      · simp only [List.mem_cons, List.not_mem_nil, or_false, or_self] at padding
        exact padding ▸ pad
  | case4 => simp [encode] at member

/-- Every three octets, or what is left of them, take four characters. -/
theorem length_encode (bytes : List UInt8)
    : (encode bytes).length = (bytes.length + 2) / 3 * 4 := by
  induction bytes using encode.induct with
  | case1 first second third rest ih => simp [encode, quad, ih]; omega
  | case2 first second => simp [encode, quad]
  | case3 first => simp [encode, quad]
  | case4 => simp [encode]

/-- Four characters hold three bytes at most, and none may be missing. -/
theorem length_of_decode {text : List Char} {bytes : List UInt8} (read : decode text = some bytes)
    : ∃ groups, text.length = groups * 4 ∧ bytes.length ≤ groups * 3 := by
  induction text using decode.induct generalizing bytes with
  | case1 =>
      cases read
      exact ⟨0, rfl, Nat.le_refl 0⟩
  | case2 first second third fourth =>
      refine ⟨1, rfl, ?_⟩
      simp only [decode, decodeLast, Option.bind_eq_bind, Option.bind_eq_some_iff] at read
      obtain ⟨one, -, two, -, read⟩ := read
      split at read
      · split at read
        · split at read
          · cases read
            simp
          · cases read
        · simp only [Option.bind_eq_some_iff] at read
          obtain ⟨three, -, read⟩ := read
          split at read
          · cases read
            simp
          · cases read
      · simp only [Option.bind_eq_some_iff] at read
        obtain ⟨three, -, four, -, read⟩ := read
        cases read
        simp
  | case3 first second third fourth rest more ih =>
      simp only [decode, Option.bind_eq_bind, Option.bind_eq_some_iff] at read
      obtain ⟨one, -, two, -, three, -, four, -, tail, ran, read⟩ := read
      obtain ⟨groups, length, bounded⟩ := ih ran
      cases read
      refine ⟨groups + 1, ?_, ?_⟩
      · simp only [List.length_cons]
        omega
      · simp only [List.length_cons]
        omega
  | case4 text => simp [decode] at read

end VerticalAI.Foundation.Base64
