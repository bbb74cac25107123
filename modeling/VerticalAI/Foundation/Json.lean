import Mathlib.Tactic.SplitIfs

/-! JSON documents and their compact text: no blanks, members in the order given, strings
escaped as the standard serialiser escapes them.
-/

namespace VerticalAI.Foundation

/-- A character that a number may be written with. -/
def isNumeral (char : Char) : Bool :=
  char.isDigit || char = '-' || char = '+' || char = '.' || char = 'e' || char = 'E'

/-- A number with a fraction or an exponent, by its text. -/
structure Decimal where
  text : List Char
  numerals : text.all isNumeral = true
  leads : (text.head?.any fun first => first.isDigit || first = '-') = true
  broken : (text.any fun char => char = '.' || char = 'e') = true
  deriving DecidableEq

/-- A JSON document. A number is natural, or one less than a natural number below zero, or neither. -/
inductive Json where
  | null
  | bool (value : Bool)
  | num (value : Nat)
  | neg (value : Nat)
  | float (value : Decimal)
  | str (value : String)
  | arr (items : List Json)
  | obj (members : List (String × Json))

namespace Json

/-- `"` -/
def quoteMark : Char := Char.ofNat 34

/-- `\` -/
def backslash : Char := Char.ofNat 92

def hexDigit (digit : Nat) : Char := Nat.digitChar digit

/-- One character of a string: quotes, backslashes and control characters are escaped. -/
def escape (char : Char) : List Char :=
  if char = quoteMark then [backslash, quoteMark]
  else if char = backslash then [backslash, backslash]
  else if char.toNat = 8 then [backslash, 'b']
  else if char.toNat = 9 then [backslash, 't']
  else if char.toNat = 10 then [backslash, 'n']
  else if char.toNat = 12 then [backslash, 'f']
  else if char.toNat = 13 then [backslash, 'r']
  else if char.toNat < 32 then
    [backslash, 'u', '0', '0', hexDigit (char.toNat / 16), hexDigit (char.toNat % 16)]
  else [char]

def quote (value : String) : List Char :=
  quoteMark :: value.toList.flatMap escape ++ [quoteMark]

def isNumber : Json → Bool
  | .num _ | .neg _ | .float _ => true
  | _ => false

mutual

/-- The text of a document. -/
def render : Json → List Char
  | .null => ['n', 'u', 'l', 'l']
  | .bool true => ['t', 'r', 'u', 'e']
  | .bool false => ['f', 'a', 'l', 's', 'e']
  | .num value => Nat.toDigits 10 value
  | .neg value => '-' :: Nat.toDigits 10 (value + 1)
  | .float value => value.text
  | .str value => quote value
  | .arr items => '[' :: renderItems items ++ [']']
  | .obj members => '{' :: renderMembers members ++ ['}']

/-- The items of an array, separated by commas. -/
def renderItems : List Json → List Char
  | [] => []
  | [item] => render item
  | item :: next :: rest => render item ++ ',' :: renderItems (next :: rest)

/-- The members of an object, separated by commas. -/
def renderMembers : List (String × Json) → List Char
  | [] => []
  | [(name, value)] => quote name ++ ':' :: render value
  | (name, value) :: next :: rest =>
      quote name ++ ':' :: render value ++ ',' :: renderMembers (next :: rest)

end

/-- The document of a whole number. -/
def ofInt : Int → Json
  | .ofNat value => .num value
  | .negSucc value => .neg value

/-- The document of an optional value. -/
def ofOption {α : Type} (encode : α → Json) : Option α → Json
  | none => .null
  | some value => encode value

-----------------------------------------------------------------------------------------
-- A document is one line
-----------------------------------------------------------------------------------------

theorem newline_ne_hexDigit {digit : Nat} (small : digit < 16) : '\n' ≠ hexDigit digit := by
  revert digit
  decide

/-- No escape sequence holds a line break: a line break is itself a control character. -/
theorem newline_not_mem_escape (char : Char) : '\n' ∉ escape char := by
  by_cases control : char.toNat < 32
  · have high : '\n' ≠ hexDigit (char.toNat / 16) := newline_ne_hexDigit (by omega)
    have low : '\n' ≠ hexDigit (char.toNat % 16) :=
      newline_ne_hexDigit (Nat.mod_lt _ (by decide))
    simp only [escape, if_pos control]
    repeat' split
    all_goals simp only [List.mem_cons, List.not_mem_nil, or_false, not_or]
    all_goals first | decide | exact ⟨by decide, by decide, by decide, by decide, high, low⟩
  · simp only [escape, if_neg control]
    repeat' split
    all_goals first | decide | skip
    intro member
    have same : '\n' = char := List.mem_singleton.mp member
    exact control (by rw [← same]; decide)

theorem newline_not_mem_quote (value : String) : '\n' ∉ quote value := by
  simp only [quote, List.cons_append, List.mem_cons, List.mem_append, List.mem_flatMap,
    List.not_mem_nil, or_false, not_or, not_exists, not_and]
  exact ⟨by decide, fun char _ => newline_not_mem_escape char, by decide⟩

theorem newline_not_mem_toDigits (value : Nat) : '\n' ∉ Nat.toDigits 10 value := by
  intro member
  have digit := Nat.isDigit_of_mem_toDigits (by decide) (by decide) member
  exact absurd digit (by decide)

theorem newline_not_mem_decimal (value : Decimal) : '\n' ∉ value.text := by
  intro member
  exact absurd (List.all_eq_true.mp value.numerals '\n' member) (by decide)

mutual

/-- The text of a document holds no line break, by recursion on the document. -/
theorem newline_not_mem_render : (document : Json) → '\n' ∉ render document
  | .null => by decide
  | .bool true => by decide
  | .bool false => by decide
  | .num value => newline_not_mem_toDigits value
  | .neg value => by simp [render, newline_not_mem_toDigits]
  | .float value => newline_not_mem_decimal value
  | .str value => newline_not_mem_quote value
  | .arr items => by
      have inside := newline_not_mem_renderItems items
      simp only [render, List.cons_append, List.mem_cons, List.mem_append, List.not_mem_nil,
        or_false, not_or]
      exact ⟨by decide, inside, by decide⟩
  | .obj members => by
      have inside := newline_not_mem_renderMembers members
      simp only [render, List.cons_append, List.mem_cons, List.mem_append, List.not_mem_nil,
        or_false, not_or]
      exact ⟨by decide, inside, by decide⟩

theorem newline_not_mem_renderItems : (items : List Json) → '\n' ∉ renderItems items
  | [] => List.not_mem_nil
  | [item] => newline_not_mem_render item
  | item :: next :: rest => by
      have first := newline_not_mem_render item
      have others := newline_not_mem_renderItems (next :: rest)
      simp only [renderItems, List.mem_append, List.mem_cons, not_or]
      exact ⟨first, by decide, others⟩

theorem newline_not_mem_renderMembers
    : (members : List (String × Json)) → '\n' ∉ renderMembers members
  | [] => List.not_mem_nil
  | [(name, value)] => by
      have first := newline_not_mem_render value
      simp only [renderMembers, List.mem_append, List.mem_cons, not_or]
      exact ⟨newline_not_mem_quote name, by decide, first⟩
  | (name, value) :: next :: rest => by
      have first := newline_not_mem_render value
      have others := newline_not_mem_renderMembers (next :: rest)
      simp only [renderMembers, List.mem_append, List.mem_cons, not_or]
      exact ⟨⟨newline_not_mem_quote name, by decide, first⟩, by decide, others⟩

end

end Json

end VerticalAI.Foundation
