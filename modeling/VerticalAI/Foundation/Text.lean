import Mathlib.Data.List.DropRight

/-! Lines of a text, as the standard string operations cut and trim them. -/

namespace VerticalAI.Foundation.Text

variable {α : Type}

-----------------------------------------------------------------------------------------
-- Cutting at a separator that stays on its piece
-----------------------------------------------------------------------------------------

/-- Cut after every separator; a last piece without one is kept, an empty one is not. -/
def splitInclusive [DecidableEq α] (separator : α) : List α → List (List α)
  | [] => []
  | head :: rest =>
      if head = separator then
        [head] :: splitInclusive separator rest
      else
        match splitInclusive separator rest with
        | [] => [[head]]
        | piece :: pieces => (head :: piece) :: pieces

section SplitInclusive

variable [DecidableEq α] {separator : α}

@[simp] theorem splitInclusive_nil : splitInclusive separator ([] : List α) = [] := rfl

/-- Nothing is lost by cutting, by induction on the text. -/
theorem flatten_splitInclusive (text : List α)
    : (splitInclusive separator text).flatten = text := by
  induction text with
  | nil => rfl
  | cons head rest ih =>
      simp only [splitInclusive]
      split
      · simp only [List.flatten_cons, ih, List.cons_append, List.nil_append]
      · cases pieces : splitInclusive separator rest with
        | nil =>
            rw [pieces] at ih
            simp only [List.flatten_nil] at ih
            simp only [← ih, List.flatten_cons, List.flatten_nil, List.append_nil]
        | cons piece others =>
            rw [pieces] at ih
            simp only [← ih, List.flatten_cons, List.cons_append]

/-- A text without separator is one piece, by induction on the text. -/
theorem splitInclusive_unterminated {text : List α} (absent : separator ∉ text)
    (nonempty : text ≠ [])
    : splitInclusive separator text = [text] := by
  induction text with
  | nil => exact absurd rfl nonempty
  | cons head rest ih =>
      simp only [List.mem_cons, not_or] at absent
      obtain ⟨differs, absentRest⟩ := absent
      simp only [splitInclusive, if_neg (Ne.symm differs)]
      cases rest with
      | nil => rfl
      | cons next others => rw [ih absentRest (List.cons_ne_nil _ _)]

/-- A terminated piece in front is cut off whole, by induction on that piece. -/
theorem splitInclusive_terminated {body : List α} (absent : separator ∉ body)
    (rest : List α)
    : splitInclusive separator (body ++ separator :: rest)
      = (body ++ [separator]) :: splitInclusive separator rest := by
  induction body with
  | nil => simp only [List.nil_append, splitInclusive, if_true]
  | cons head others ih =>
      simp only [List.mem_cons, not_or] at absent
      obtain ⟨differs, absentRest⟩ := absent
      simp only [List.cons_append, splitInclusive, if_neg (Ne.symm differs), ih absentRest]

/-- A piece that ends in its only separator. -/
def Terminated (separator : α) (line : List α) : Prop :=
  ∃ body, separator ∉ body ∧ line = body ++ [separator]

omit [DecidableEq α] in
/-- Such a piece ends in the separator. -/
theorem Terminated.getLast?_eq {line : List α} (terminated : Terminated separator line)
    : line.getLast? = some separator := by
  obtain ⟨body, -, rfl⟩ := terminated
  exact List.getLast?_concat

/-- Terminated lines are cut where they end, by induction on the lines. -/
theorem splitInclusive_lines {lines : List (List α)}
    (terminated : ∀ line ∈ lines, Terminated separator line) (rest : List α)
    : splitInclusive separator (lines.flatten ++ rest)
      = lines ++ splitInclusive separator rest := by
  induction lines with
  | nil => simp only [List.flatten_nil, List.nil_append]
  | cons line others ih =>
      obtain ⟨body, absent, rfl⟩ := terminated line List.mem_cons_self
      have later := ih (fun other member => terminated other (List.mem_cons_of_mem _ member))
      simp only [List.flatten_cons, List.append_assoc, List.cons_append, List.nil_append,
        splitInclusive_terminated absent, later]

/-- Every text is some terminated lines and a rest without separator, by induction on the
text.
-/
theorem exists_lines (separator : α) (text : List α)
    : ∃ (lines : List (List α)) (rest : List α),
        text = lines.flatten ++ rest
        ∧ (∀ line ∈ lines, Terminated separator line)
        ∧ separator ∉ rest := by
  induction text with
  | nil =>
      refine ⟨[], [], rfl, ?_, List.not_mem_nil⟩
      intro line member
      cases member
  | cons head others ih =>
      obtain ⟨lines, rest, rfl, terminated, absent⟩ := ih
      by_cases same : head = separator
      · refine ⟨[head] :: lines, rest, rfl, ?_, absent⟩
        intro line member
        cases member with
        | head => exact ⟨[], List.not_mem_nil, by rw [same, List.nil_append]⟩
        | tail _ later => exact terminated line later
      · have kept {body : List α} (free : separator ∉ body) : separator ∉ head :: body := by
          rw [List.mem_cons, not_or]
          exact ⟨Ne.symm same, free⟩
        cases lines with
        | nil => exact ⟨[], head :: rest, rfl, terminated, kept absent⟩
        | cons first lines =>
            refine ⟨(head :: first) :: lines, rest, rfl, ?_, absent⟩
            intro line member
            cases member with
            | head =>
                obtain ⟨body, free, rfl⟩ := terminated first List.mem_cons_self
                exact ⟨head :: body, kept free, rfl⟩
            | tail _ later => exact terminated line (List.mem_cons_of_mem _ later)

/-- The pieces of terminated lines and a rest are those lines and, if there is one, the rest. -/
theorem splitInclusive_exists_lines {lines : List (List α)} {rest : List α}
    (terminated : ∀ line ∈ lines, Terminated separator line) (absent : separator ∉ rest)
    : splitInclusive separator (lines.flatten ++ rest)
      = if rest = [] then lines else lines ++ [rest] := by
  rw [splitInclusive_lines terminated]
  split
  · next empty => rw [empty, splitInclusive_nil, List.append_nil]
  · next nonempty => rw [splitInclusive_unterminated absent nonempty]

/-- A terminated line put after a rest continues it to one line. -/
theorem splitInclusive_continued {lines : List (List α)} {rest line : List α}
    (terminated : ∀ line ∈ lines, Terminated separator line) (absent : separator ∉ rest)
    (ends : Terminated separator line)
    : splitInclusive separator (lines.flatten ++ rest ++ line) = lines ++ [rest ++ line] := by
  obtain ⟨body, free, rfl⟩ := ends
  have joined : separator ∉ rest ++ body := by
    rw [List.mem_append, not_or]
    exact ⟨absent, free⟩
  rw [List.append_assoc, splitInclusive_lines terminated, ← List.append_assoc rest,
    splitInclusive_terminated joined, splitInclusive_nil]

end SplitInclusive

-----------------------------------------------------------------------------------------
-- Characters and trimming
-----------------------------------------------------------------------------------------

/-- The Unicode `White_Space` property. -/
def isWhitespace (char : Char) : Bool :=
  let code := char.toNat
  (9 ≤ code && code ≤ 13) || code = 0x20 || code = 0x85 || code = 0xA0 || code = 0x1680
    || (0x2000 ≤ code && code ≤ 0x200A) || code = 0x2028 || code = 0x2029
    || code = 0x202F || code = 0x205F || code = 0x3000

/-- Drop whitespace at both ends. -/
def trim (text : List Char) : List Char :=
  (text.dropWhile isWhitespace).rdropWhile isWhitespace

/-- A text is trimmed away exactly when it is whitespace. -/
theorem trim_eq_nil_iff {text : List Char}
    : trim text = [] ↔ ∀ char ∈ text, isWhitespace char = true := by
  rw [trim, List.rdropWhile_eq_nil_iff]
  constructor
  · intro whitespace
    have dropped := List.dropWhile_eq_nil_iff.mpr whitespace
    rw [List.dropWhile_idempotent] at dropped
    exact List.dropWhile_eq_nil_iff.mp dropped
  · intro whitespace char member
    rw [List.dropWhile_eq_nil_iff.mpr whitespace] at member
    cases member

/-- A text that starts with a character to keep is not trimmed away. -/
theorem trim_ne_nil {char : Char} (keep : isWhitespace char = false) (text : List Char)
    : trim (char :: text) ≠ [] := by
  intro empty
  have whitespace := trim_eq_nil_iff.mp empty char List.mem_cons_self
  exact Bool.false_ne_true (keep.symm.trans whitespace)

-----------------------------------------------------------------------------------------
-- Numbers
-----------------------------------------------------------------------------------------

/-- The number these decimal digits spell; there has to be one, and nothing else. -/
def decimal (digits : List Char) : Option Nat :=
  if digits ≠ [] ∧ digits.all Char.isDigit then
    some (digits.foldl (fun value digit => value * 10 + (digit.toNat - 48)) 0)
  else none

/-- The number that decimal digits spell is read back. -/
theorem decimal_toDigits (value : Nat) : decimal (Nat.toDigits 10 value) = some value := by
  have all : (Nat.toDigits 10 value).all Char.isDigit = true :=
    List.all_eq_true.mpr fun _ member => Nat.isDigit_of_mem_toDigits (by decide) (by decide) member
  have folded : (Nat.toDigits 10 value).foldl
      (fun value digit => value * 10 + (digit.toNat - 48)) 0 = value := by
    have read := Nat.ofDigitChars_ten_toDigits (n := value)
    rw [Nat.ofDigitChars_eq_foldl] at read
    simp only [Nat.mul_comm 10] at read
    exact read
  rw [decimal, if_pos ⟨Nat.toDigits_ne_nil, all⟩, folded]

/-- An unsigned number as the standard library parses it: an optional plus sign, digits. -/
def parseUnsigned (text : List Char) : Option Nat :=
  let digits := match text with
    | '+' :: rest => rest
    | _ => text
  decimal digits

/-- Reading a number's digits gives the number. -/
theorem parseUnsigned_toDigits (value : Nat)
    : parseUnsigned (Nat.toDigits 10 value) = some value := by
  unfold parseUnsigned
  split
  · next rest same =>
      have digit : '+'.isDigit = true :=
        Nat.isDigit_of_mem_toDigits (by decide) (by decide) (same ▸ List.mem_cons_self)
      exact absurd digit (by decide)
  · exact decimal_toDigits value

/-- An unsigned number of 64 bits as the standard library parses it. -/
def parseU64 (text : List Char) : Option UInt64 :=
  (parseUnsigned text).bind fun value =>
    if value < UInt64.size then some (UInt64.ofNat value) else none

@[simp] theorem parseU64_toDigits (value : UInt64)
    : parseU64 (Nat.toDigits 10 value.toNat) = some value := by
  rw [parseU64, parseUnsigned_toDigits, Option.bind_some, if_pos value.toNat_lt,
    UInt64.ofNat_toNat]

/-- What follows a piece of text at the front. -/
def stripPrefix (front text : List Char) : Option (List Char) :=
  if front.isPrefixOf text then some (text.drop front.length) else none

/-- Taking off a prefix that is there leaves the rest. -/
theorem stripPrefix_append (front text : List Char)
    : stripPrefix front (front ++ text) = some text := by
  rw [stripPrefix, if_pos (List.isPrefixOf_iff_prefix.mpr (List.prefix_append front text)),
    List.drop_left]

/-- At most this many copies of a piece taken off the front. -/
def dropCopies (front : List Char) : Nat → List Char → List Char
  | 0, text => text
  | copies + 1, text =>
      match stripPrefix front text with
      | some rest => dropCopies front copies rest
      | none => text

/-- Every copy of a piece taken off the front. -/
def trimStartMatches (front text : List Char) : List Char := dropCopies front text.length text

/-- The one copy in front of a text that starts with none is taken off. -/
theorem trimStartMatches_append {front text : List Char} (named : front ≠ [])
    (apart : stripPrefix front text = none)
    : trimStartMatches front (front ++ text) = text := by
  obtain ⟨first, rest, rfl⟩ := List.exists_cons_of_ne_nil named
  rw [trimStartMatches, List.length_append, List.length_cons, Nat.add_right_comm, dropCopies,
    stripPrefix_append]
  dsimp only
  cases rest.length + text.length with
  | zero => rfl
  | succ copies => rw [dropCopies, apart]

/-- The characters that make up the first so many bytes, if the cut is between two. -/
def takeBytes : Nat → List Char → Option (List Char)
  | 0, _ => some []
  | _ + 1, [] => none
  | count + 1, char :: rest =>
      if char.utf8Size ≤ count + 1 then
        (takeBytes (count + 1 - char.utf8Size) rest).map (char :: ·)
      else none

/-- Characters of one byte are cut anywhere, by induction on the text. -/
theorem takeBytes_of_single {text : List Char} (single : ∀ char ∈ text, char.utf8Size = 1)
    {count : Nat}
    (long : count ≤ text.length)
    : takeBytes count text = some (text.take count) := by
  induction text generalizing count with
  | nil =>
      obtain rfl := Nat.le_zero.mp long
      rfl
  | cons char rest ih =>
      obtain ⟨first, others⟩ := List.forall_mem_cons.mp single
      cases count with
      | zero => rfl
      | succ count =>
          rw [takeBytes, first, if_pos (Nat.le_add_left 1 count), Nat.add_sub_cancel,
            ih others (Nat.le_of_succ_le_succ long)]
          rfl

/-- The Unicode tables of the standard library: which characters beyond ASCII are printable and
extend no grapheme.
-/
class CharTables where
  shown : Char → Bool

/-- A character as a quoted text shows it. -/
def escapeDebug [CharTables] (char : Char) : List Char :=
  let code := char.toNat
  if code = 34 ∨ code = 92 then [Char.ofNat 92, char]
  else if code = 0 then [Char.ofNat 92, '0']
  else if code = 9 then [Char.ofNat 92, 't']
  else if code = 10 then [Char.ofNat 92, 'n']
  else if code = 13 then [Char.ofNat 92, 'r']
  else if code < 32 ∨ code = 127 ∨ 127 < code ∧ CharTables.shown char = false then
    Char.ofNat 92 :: 'u' :: Char.ofNat 123 :: Nat.toDigits 16 code ++ [Char.ofNat 125]
  else [char]

/-- A text in quotes. -/
def debug [CharTables] (text : String) : String :=
  String.ofList (Char.ofNat 34 :: text.toList.flatMap escapeDebug ++ [Char.ofNat 34])

-----------------------------------------------------------------------------------------
-- Lines
-----------------------------------------------------------------------------------------

/-- Take a line feed, or a carriage return and a line feed, off the end of a piece. -/
def stripLineEnd (piece : List Char) : List Char :=
  if piece.getLast? = some '\n' then
    if piece.dropLast.getLast? = some '\r' then piece.dropLast.dropLast
    else piece.dropLast
  else piece

/-- The lines of a text, without their endings. -/
def lines (text : List Char) : List (List Char) :=
  (splitInclusive '\n' text).map stripLineEnd

end VerticalAI.Foundation.Text
