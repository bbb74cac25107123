import VerticalAI.Foundation.Hex
import VerticalAI.Foundation.Json

/-! The text of a document determines the document: no text is the start of another one, as
long as a number is not followed by a further digit.
-/

namespace VerticalAI.Foundation.Json

-----------------------------------------------------------------------------------------
-- Numbers
-----------------------------------------------------------------------------------------

/-- What follows does not go on with characters of this kind. -/
def Delimits (accepts : Char → Bool) (rest : List Char) : Prop :=
  ∀ char ∈ rest.head?, accepts char = false

theorem isDigit_of_toDigits (value : Nat)
    : ∀ char ∈ Nat.toDigits 10 value, char.isDigit = true :=
  fun _ member => Nat.isDigit_of_mem_toDigits (by decide) (by decide) member

theorem takeWhile_accepted {accepts : Char → Bool} {front rest : List Char}
    (all : ∀ char ∈ front, accepts char = true) (delimits : Delimits accepts rest)
    : (front ++ rest).takeWhile accepts = front := by
  rw [List.takeWhile_append_of_pos all]
  cases rest with
  | nil => simp only [List.takeWhile_nil, List.append_nil]
  | cons char others =>
      have stops := delimits char rfl
      simp only [List.takeWhile_cons, stops, Bool.false_eq_true, if_false, List.append_nil]

/-- Two numbers with the same digits are one number. -/
theorem toDigits_injective {first second : Nat}
    (same : Nat.toDigits 10 first = Nat.toDigits 10 second)
    : first = second := by
  have values := congrArg (fun digits => Nat.ofDigitChars 10 digits 0) same
  simpa only [Nat.ofDigitChars_ten_toDigits] using values

/-- Texts of numerals that are continued alike are the same. -/
theorem numerals_append_inj {first second rest other : List Char}
    (all : ∀ char ∈ first, isNumeral char = true)
    (allOther : ∀ char ∈ second, isNumeral char = true)
    (delimits : Delimits isNumeral rest) (delimitsOther : Delimits isNumeral other)
    (same : first ++ rest = second ++ other)
    : first = second ∧ rest = other := by
  have numerals := congrArg (List.takeWhile isNumeral) same
  rw [takeWhile_accepted all delimits, takeWhile_accepted allOther delimitsOther] at numerals
  rw [numerals] at same
  exact ⟨numerals, List.append_cancel_left same⟩

theorem isNumeral_of_isDigit {char : Char}
    (digit : char.isDigit = true) : isNumeral char = true := by
  simp [isNumeral, digit]

/-- The numbers among the documents, by their texts. -/
theorem number_numerals {document : Json} (number : document.isNumber = true)
    : ∀ char ∈ document.render, isNumeral char = true := by
  cases document with
  | num value => exact fun char member => isNumeral_of_isDigit (isDigit_of_toDigits value char member)
  | neg value =>
      exact List.forall_mem_cons.mpr ⟨rfl, fun char member =>
        isNumeral_of_isDigit (isDigit_of_toDigits (value + 1) char member)⟩
  | float value => exact List.all_eq_true.mp value.numerals
  | _ => cases number

/-- A whole number is written in digits alone, after its sign. -/
theorem broken_ne_digits {value : Decimal} {number : Nat} (sign : List Char)
    (plain : ∀ char ∈ sign, char = '-')
    : value.text ≠ sign ++ Nat.toDigits 10 number := by
  intro same
  obtain ⟨char, member, broken⟩ := List.any_eq_true.mp value.broken
  rw [same] at member
  rcases List.mem_append.mp member with signed | digit
  · rw [plain char signed] at broken
    exact absurd broken (by decide)
  · have digit := isDigit_of_toDigits number char digit
    rcases Bool.or_eq_true_iff.mp broken with dot | exponent
    · rw [of_decide_eq_true dot] at digit
      exact absurd digit (by decide)
    · rw [of_decide_eq_true exponent] at digit
      exact absurd digit (by decide)

theorem minus_not_digit {number : Nat}
    {rest : List Char} : Nat.toDigits 10 number ≠ '-' :: rest := by
  intro same
  have digit := isDigit_of_toDigits number '-' (same ▸ List.mem_cons_self)
  exact absurd digit (by decide)

/-- A number is determined by its text. -/
theorem number_injective {first second : Json} (number : first.isNumber = true)
    (numberOther : second.isNumber = true) (same : first.render = second.render)
    : first = second := by
  cases first <;> cases second <;> first
    | cases number; done
    | cases numberOther; done
    | skip
  case num.num => exact congrArg _ (toDigits_injective same)
  case num.neg => exact absurd same minus_not_digit
  case num.float => exact absurd same.symm (broken_ne_digits [] nofun)
  case neg.num => exact absurd same.symm minus_not_digit
  case neg.neg =>
    have equal := toDigits_injective (List.cons.inj same).2
    exact congrArg _ (Nat.succ.inj equal)
  case neg.float => exact absurd same.symm (broken_ne_digits ['-'] (by simp))
  case float.num => exact absurd same (broken_ne_digits [] nofun)
  case float.neg => exact absurd same (broken_ne_digits ['-'] (by simp))
  case float.float one other =>
    cases one
    cases other
    cases same
    rfl

-----------------------------------------------------------------------------------------
-- Strings
-----------------------------------------------------------------------------------------

/-- Read one escaped character off the front, or nothing at a closing quote. -/
def unescape : List Char → Option (Char × List Char)
  | [] => none
  | first :: rest =>
      if first = quoteMark then none
      else if first = backslash then
        match rest with
        | 'b' :: rest => some (Char.ofNat 8, rest)
        | 't' :: rest => some (Char.ofNat 9, rest)
        | 'n' :: rest => some (Char.ofNat 10, rest)
        | 'f' :: rest => some (Char.ofNat 12, rest)
        | 'r' :: rest => some (Char.ofNat 13, rest)
        | 'u' :: _ :: _ :: high :: low :: rest =>
            match Hex.digitValue? high, Hex.digitValue? low with
            | some highValue, some lowValue =>
                some (Char.ofNat (highValue * 16 + lowValue), rest)
            | _, _ => none
        | char :: rest => some (char, rest)
        | [] => none
      else some (first, rest)

/-- An escape sequence reads back as its character, by cases on how it was escaped. -/
theorem unescape_escape (char : Char) (rest : List Char)
    : unescape (escape char ++ rest) = some (char, rest) := by
  have named (code : Nat) (same : char.toNat = code) : Char.ofNat code = char := by
    rw [← same, Char.ofNat_toNat]
  unfold escape
  split_ifs with quote slash backspace tab newline feed return_ control
  · rw [quote]
    rfl
  · rw [slash]
    rfl
  · exact congrArg (fun read => some (read, rest)) (named 8 backspace)
  · exact congrArg (fun read => some (read, rest)) (named 9 tab)
  · exact congrArg (fun read => some (read, rest)) (named 10 newline)
  · exact congrArg (fun read => some (read, rest)) (named 12 feed)
  · exact congrArg (fun read => some (read, rest)) (named 13 return_)
  · have high : Hex.digitValue? (hexDigit (char.toNat / 16)) = some (char.toNat / 16) :=
      Hex.digitValue_digitChar (by omega)
    have low : Hex.digitValue? (hexDigit (char.toNat % 16)) = some (char.toNat % 16) :=
      Hex.digitValue_digitChar (by omega)
    have value : char.toNat / 16 * 16 + char.toNat % 16 = char.toNat := by omega
    have notQuote : backslash ≠ quoteMark := by decide
    simp only [List.cons_append, List.nil_append, unescape, if_neg notQuote, if_true, high,
      low, value, Char.ofNat_toNat]
  · simp only [List.singleton_append, unescape, if_neg quote, if_neg slash]

/-- The inside of a string is determined by the text up to its closing quote, by induction
on the first string.
-/
theorem escapes_append_inj {first second rest other : List Char}
    (same
      : first.flatMap escape ++ quoteMark :: rest
        = second.flatMap escape ++ quoteMark :: other)
    : first = second ∧ rest = other := by
  have closing (after : List Char) : unescape (quoteMark :: after) = none := rfl
  induction first generalizing second with
  | nil =>
      cases second with
      | nil => exact ⟨rfl, (List.cons.inj same).2⟩
      | cons char others =>
          have read := congrArg unescape same
          rw [List.flatMap_nil, List.nil_append, closing, List.flatMap_cons,
            List.append_assoc, unescape_escape] at read
          exact absurd read (by simp only [reduceCtorEq, not_false_eq_true])
  | cons char others ih =>
      have read := congrArg unescape same
      rw [List.flatMap_cons, List.append_assoc, unescape_escape] at read
      cases second with
      | nil =>
          rw [List.flatMap_nil, List.nil_append, closing] at read
          exact absurd read (by simp only [reduceCtorEq, not_false_eq_true])
      | cons charOther othersOther =>
          rw [List.flatMap_cons, List.append_assoc, unescape_escape, Option.some.injEq,
            Prod.mk.injEq] at read
          obtain ⟨rfl, later⟩ := read
          obtain ⟨rfl, rests⟩ := ih later
          exact ⟨rfl, rests⟩

/-- A quoted text shows where it ends. -/
theorem quote_append_inj {first second : String} {rest other : List Char}
    (same : quote first ++ rest = quote second ++ other)
    : first = second ∧ rest = other := by
  simp only [quote, List.cons_append, List.append_assoc, List.cons.injEq, true_and] at same
  obtain ⟨chars, rests⟩ := escapes_append_inj same
  exact ⟨String.toList_inj.mp chars, rests⟩

-----------------------------------------------------------------------------------------
-- Documents
-----------------------------------------------------------------------------------------

/-- The kind of document a first character announces. -/
def kindOf (char : Char) : Nat :=
  if char.isDigit || char = '-' then 0
  else if char = 'n' then 1
  else if char = 't' then 2
  else if char = 'f' then 3
  else if char = quoteMark then 4
  else if char = '[' then 5
  else if char = '{' then 6
  else 7

def kind : Json → Nat
  | .num _ | .neg _ | .float _ => 0
  | .null => 1
  | .bool true => 2
  | .bool false => 3
  | .str _ => 4
  | .arr _ => 5
  | .obj _ => 6

/-- The first character of a document announces its kind. -/
theorem render_leads (document : Json)
    : ∃ first rest, document.render = first :: rest ∧ kindOf first = document.kind := by
  cases document with
  | null => exact ⟨_, _, rfl, by decide⟩
  | bool value => cases value <;> exact ⟨_, _, rfl, by decide⟩
  | num value =>
      cases digits : Nat.toDigits 10 value with
      | nil => exact absurd digits Nat.toDigits_ne_nil
      | cons first rest =>
          have digit := isDigit_of_toDigits value first (digits ▸ List.mem_cons_self)
          exact ⟨first, rest, digits, by rw [kindOf, digit]; rfl⟩
  | neg value => exact ⟨_, _, rfl, (by decide : kindOf '-' = 0)⟩
  | float value =>
      have leads := value.leads
      cases text : value.text with
      | nil =>
          rw [text] at leads
          cases leads
      | cons first rest =>
          rw [text, List.head?_cons, Option.any_some] at leads
          exact ⟨first, rest, text, by rw [kindOf, if_pos leads]; rfl⟩
  | str value => exact ⟨_, _, rfl, (by decide : kindOf quoteMark = 4)⟩
  | arr items => exact ⟨_, _, rfl, (by decide : kindOf '[' = 5)⟩
  | obj members => exact ⟨_, _, rfl, (by decide : kindOf '{' = 6)⟩

/-- The first character of a document tells its kind. -/
theorem kind_eq {first second : Json} {rest other : List Char}
    (same : first.render ++ rest = second.render ++ other)
    : first.kind = second.kind := by
  obtain ⟨char, _, leads, announced⟩ := render_leads first
  obtain ⟨charOther, _, leadsOther, announcedOther⟩ := render_leads second
  rw [leads, leadsOther, List.cons_append, List.cons_append, List.cons.injEq] at same
  rw [← announced, ← announcedOther, same.1]

/-- No document starts with a closing bracket. -/
theorem render_ne_close {document : Json} {rest other : List Char}
    : document.render ++ rest ≠ ']' :: other := by
  intro same
  obtain ⟨char, _, leads, announced⟩ := render_leads document
  rw [leads, List.cons_append, List.cons.injEq] at same
  rw [same.1] at announced
  cases document with
  | bool value => cases value <;> exact absurd announced (by decide)
  | _ => exact absurd announced (by simp only [kind]; decide)

theorem delimits_cons {char : Char} (plain : isNumeral char = false) (rest : List Char)
    : Delimits isNumeral (char :: rest) := by
  intro first member
  obtain rfl : char = first := Option.some.inj member
  exact plain

theorem delimits_comma (rest : List Char) : Delimits isNumeral (',' :: rest) :=
  delimits_cons (by decide) rest

theorem renderItems_cons_append (item next : Json) (others : List Json) (rest : List Char)
    : renderItems (item :: next :: others) ++ rest
      = item.render ++ ',' :: (renderItems (next :: others) ++ rest) := by
  rw [renderItems, List.append_assoc, List.cons_append]

mutual

/-- Texts that continue two documents alike come from one document, by recursion on the
first.
-/
theorem render_append_inj
    : (first second : Json) → {rest other : List Char} → Delimits isNumeral rest
      → Delimits isNumeral other
      → first.render ++ rest = second.render ++ other
      → first = second ∧ rest = other
  | first, second, rest, other, delimits, delimitsOther, same => by
      have kinds := kind_eq same
      match first, second with
      | .null, .null => exact ⟨rfl, List.append_cancel_left same⟩
      | .bool true, .bool true => exact ⟨rfl, List.append_cancel_left same⟩
      | .bool false, .bool false => exact ⟨rfl, List.append_cancel_left same⟩
      | .num _, .num _ | .num _, .neg _ | .num _, .float _ | .neg _, .num _ | .neg _, .neg _
      | .neg _, .float _ | .float _, .num _ | .float _, .neg _ | .float _, .float _ =>
          obtain ⟨texts, rests⟩ := numerals_append_inj (number_numerals rfl) (number_numerals rfl)
            delimits delimitsOther same
          exact ⟨number_injective rfl rfl texts, rests⟩
      | .str value, .str valueOther =>
          obtain ⟨rfl, rests⟩ := quote_append_inj same
          exact ⟨rfl, rests⟩
      | .arr items, .arr itemsOther =>
          simp only [render, List.cons_append, List.append_assoc, List.nil_append,
            List.cons.injEq, true_and] at same
          obtain ⟨rfl, rests⟩ := renderItems_append_inj items itemsOther same
          exact ⟨rfl, rests⟩
      | .obj members, .obj membersOther =>
          simp only [render, List.cons_append, List.append_assoc, List.nil_append,
            List.cons.injEq, true_and] at same
          obtain ⟨rfl, rests⟩ := renderMembers_append_inj members membersOther same
          exact ⟨rfl, rests⟩

/-- The items of an array are read off its text up to the closing bracket. -/
theorem renderItems_append_inj
    : (first second : List Json) → {rest other : List Char}
      → renderItems first ++ ']' :: rest = renderItems second ++ ']' :: other
      → first = second ∧ rest = other
  | [], [], _, _, same => ⟨rfl, (List.cons.inj same).2⟩
  | [], [_], _, _, same => absurd same.symm render_ne_close
  | [], _ :: _ :: _, _, _, same => by
      rw [renderItems_cons_append] at same
      exact absurd same.symm render_ne_close
  | [_], [], _, _, same => absurd same render_ne_close
  | _ :: _ :: _, [], _, _, same => by
      rw [renderItems_cons_append] at same
      exact absurd same render_ne_close
  | [item], [itemOther], _, _, same => by
      obtain ⟨rfl, rests⟩ := render_append_inj item itemOther
        (delimits_cons (by decide) _) (delimits_cons (by decide) _) same
      exact ⟨rfl, (List.cons.inj rests).2⟩
  | [item], itemOther :: next :: others, _, _, same => by
      rw [renderItems_cons_append] at same
      obtain ⟨-, rests⟩ := render_append_inj item itemOther
        (delimits_cons (by decide) _) (delimits_comma _) same
      exact absurd (List.cons.inj rests).1 (by decide)
  | item :: next :: others, [itemOther], _, _, same => by
      rw [renderItems_cons_append] at same
      obtain ⟨-, rests⟩ := render_append_inj item itemOther
        (delimits_comma _) (delimits_cons (by decide) _) same
      exact absurd (List.cons.inj rests).1 (by decide)
  | item :: next :: others, itemOther :: nextOther :: othersOther, _, _, same => by
      rw [renderItems_cons_append, renderItems_cons_append] at same
      obtain ⟨rfl, rests⟩ := render_append_inj item itemOther
        (delimits_comma _) (delimits_comma _) same
      obtain ⟨equal, ends⟩ := renderItems_append_inj (next :: others)
        (nextOther :: othersOther) (List.cons.inj rests).2
      exact ⟨by rw [equal], ends⟩

theorem renderMembers_append_inj
    : (first second : List (String × Json)) → {rest other : List Char}
      → renderMembers first ++ '}' :: rest = renderMembers second ++ '}' :: other
      → first = second ∧ rest = other
  | [], [], _, _, same => ⟨rfl, (List.cons.inj same).2⟩
  | [], [(_, _)], _, _, same => absurd (List.cons.inj same).1 (by decide)
  | [], (_, _) :: _ :: _, _, _, same => absurd (List.cons.inj same).1 (by decide)
  | [(_, _)], [], _, _, same => absurd (List.cons.inj same).1 (by decide)
  | (_, _) :: _ :: _, [], _, _, same => absurd (List.cons.inj same).1 (by decide)
  | [(name, value)], [(nameOther, valueOther)], _, _, same => by
      simp only [renderMembers, List.append_assoc, List.cons_append] at same
      obtain ⟨rfl, values⟩ := quote_append_inj same
      obtain ⟨rfl, rests⟩ := render_append_inj value valueOther
        (delimits_cons (by decide) _) (delimits_cons (by decide) _) (List.cons.inj values).2
      exact ⟨rfl, (List.cons.inj rests).2⟩
  | [(name, value)], (nameOther, valueOther) :: next :: others, _, _, same => by
      simp only [renderMembers, List.append_assoc, List.cons_append] at same
      obtain ⟨rfl, values⟩ := quote_append_inj same
      obtain ⟨-, rests⟩ := render_append_inj value valueOther
        (delimits_cons (by decide) _) (delimits_comma _) (List.cons.inj values).2
      exact absurd (List.cons.inj rests).1 (by decide)
  | (name, value) :: next :: others, [(nameOther, valueOther)], _, _, same => by
      simp only [renderMembers, List.append_assoc, List.cons_append] at same
      obtain ⟨rfl, values⟩ := quote_append_inj same
      obtain ⟨-, rests⟩ := render_append_inj value valueOther
        (delimits_comma _) (delimits_cons (by decide) _) (List.cons.inj values).2
      exact absurd (List.cons.inj rests).1 (by decide)
  | (name, value) :: next :: others, (nameOther, valueOther) :: nextOther :: othersOther,
      _, _, same => by
      simp only [renderMembers, List.append_assoc, List.cons_append] at same
      obtain ⟨rfl, values⟩ := quote_append_inj same
      obtain ⟨rfl, rests⟩ := render_append_inj value valueOther
        (delimits_comma _) (delimits_comma _) (List.cons.inj values).2
      obtain ⟨equal, ends⟩ := renderMembers_append_inj (next :: others)
        (nextOther :: othersOther) (List.cons.inj rests).2
      exact ⟨by rw [equal], ends⟩

end

/-- A document is determined by its text. -/
theorem render_injective {first second : Json} (same : first.render = second.render)
    : first = second := by
  have nothing : Delimits isNumeral [] := fun _ member => absurd member (Option.not_mem_none _)
  exact (render_append_inj first second nothing nothing
    (by rw [List.append_nil, List.append_nil, same])).1

/-- The text of an object is not the start of another document's text. -/
theorem obj_prefix {members : List (String × Json)} {document : Json} {rest : List Char}
    (same : document.render = (obj members).render ++ rest)
    : rest = [] := by
  have kinds : document.kind = (obj members).kind :=
    kind_eq (by rw [List.append_nil]; exact same)
  match document, kinds with
  | .obj membersOther, _ =>
      simp only [render, List.cons_append, List.append_assoc, List.nil_append,
        List.cons.injEq, true_and] at same
      exact (renderMembers_append_inj membersOther members same).2.symm

end VerticalAI.Foundation.Json
