import VerticalAI.Foundation.Text

/-! Lines taken from a stream that comes in pieces: however it is cut, what is taken up to a
separator is what stands there in the whole.
-/

namespace VerticalAI.Foundation.Text

variable {α : Type}

section UpTo

variable [DecidableEq α] (separator : α)

/-- A list up to and with its first separator; all of it when there is none. -/
def upTo : List α → List α
  | [] => []
  | head :: rest => if head = separator then [head] else head :: upTo rest

variable {separator}

theorem upTo_part (list : List α) : upTo separator list <+: list := by
  induction list with
  | nil => exact List.nil_prefix
  | cons head rest ih =>
      rw [upTo]
      split
      · exact List.cons_prefix_cons.mpr ⟨rfl, List.nil_prefix⟩
      · exact List.cons_prefix_cons.mpr ⟨rfl, ih⟩

theorem upTo_of_not_mem {list : List α}
    (absent : separator ∉ list) : upTo separator list = list := by
  induction list with
  | nil => rfl
  | cons head rest ih =>
      simp only [List.mem_cons, not_or] at absent
      rw [upTo, if_neg (Ne.symm absent.1), ih absent.2]

/-- What stands up to the first separator has it exactly if the list does. -/
theorem mem_upTo {list : List α} : separator ∈ upTo separator list ↔ separator ∈ list := by
  induction list with
  | nil => rfl
  | cons head rest ih =>
      rw [upTo]
      split
      · next same => simp [same]
      · next differs => simp [ih]

/-- Nothing after a separator matters. -/
theorem upTo_append {first : List α} (second : List α)
    : upTo separator (first ++ second)
      = if separator ∈ first then upTo separator first else first ++ upTo separator second := by
  induction first with
  | nil => simp
  | cons head rest ih =>
      rw [List.cons_append, upTo, upTo]
      by_cases same : head = separator
      · simp [same]
      · simp only [if_neg same, ih, List.mem_cons, Ne.symm same, false_or]
        split <;> rfl

/-- Up to a separator within a limit is a part of what is up to it, by induction on the list. -/
theorem upTo_take (list : List α) (limit : Nat)
    : upTo separator (list.take limit) = (upTo separator list).take limit := by
  induction list generalizing limit with
  | nil => simp [upTo]
  | cons head rest ih =>
      cases limit with
      | zero => simp [upTo]
      | succ limit =>
          rw [List.take_succ_cons, upTo, upTo]
          split
          · simp
          · rw [ih, List.take_succ_cons]

/-- Nothing before the end of a piece is a separator, by induction on the list. -/
theorem not_mem_take_upTo {list : List α} {limit : Nat}
    (short : limit < (upTo separator list).length)
    : separator ∉ (upTo separator list).take limit := by
  induction list generalizing limit with
  | nil => simp [upTo] at short
  | cons head rest ih =>
      cases limit with
      | zero => simp
      | succ limit =>
          rw [upTo] at short ⊢
          by_cases same : head = separator
          · simp [same] at short
          · rw [if_neg same, List.length_cons, Nat.add_lt_add_iff_right] at short
            rw [if_neg same, List.take_succ_cons, List.mem_cons, not_or]
            exact ⟨Ne.symm same, ih short⟩

/-- A text is cut off its first piece after the other. -/
theorem splitInclusive_upTo {text : List α} (some_text : text ≠ [])
    : splitInclusive separator text
      = upTo separator text
        :: splitInclusive separator (text.drop (upTo separator text).length) := by
  induction text with
  | nil => exact absurd rfl some_text
  | cons head rest ih =>
      by_cases same : head = separator
      · simp [splitInclusive, upTo, same]
      · cases rest with
        | nil => simp [splitInclusive, upTo, same]
        | cons next others =>
            have cut := ih (List.cons_ne_nil next others)
            rw [splitInclusive, if_neg same, cut]
            simp [upTo, same]

end UpTo

/-- A stream: what was received and not taken yet, the pieces that are to come, and the failure that
ends them if they do not just end.
-/
structure Source (α : Type) where
  buffered : List α
  pieces : List { piece : List α // piece ≠ [] }
  failure : Option String

/-- All that is still to be taken. -/
def Source.rest (source : Source α) : List α :=
  source.buffered ++ source.pieces.flatMap (·.val)

variable [DecidableEq α]

/-- What was taken needs nothing more. -/
def Whole (separator : α) (limit : Nat) (taken : List α) : Prop :=
  separator ∈ taken ∨ taken.length = limit

instance (separator : α) (limit : Nat) (taken : List α) : Decidable (Whole separator limit taken) :=
  inferInstanceAs (Decidable (separator ∈ taken ∨ taken.length = limit))

/-- What taking comes to at the end of the stream. -/
def atEnd (separator : α) (limit : Nat) (taken : List α) : Option String → Except String (List α)
  | none => .ok taken
  | some reason => if Whole separator limit taken then .ok taken else .error reason

/-- Take up to a separator, but no more than a limit, and receive pieces while they are needed. -/
def readFrom (separator : α) (failure : Option String)
    : (limit : Nat) → (buffered : List α) → List { piece : List α // piece ≠ [] }
      → Except String (List α) × Source α
  | limit, buffered, [] =>
      let taken := upTo separator (buffered.take limit)
      (atEnd separator limit taken failure, ⟨buffered.drop taken.length, [], failure⟩)
  | limit, buffered, piece :: pieces =>
      let taken := upTo separator (buffered.take limit)
      if Whole separator limit taken then
        (.ok taken, ⟨buffered.drop taken.length, piece :: pieces, failure⟩)
      else
        let (more, source) := readFrom separator failure (limit - taken.length) piece.val pieces
        (more.map (taken ++ ·), source)

def readUntil (separator : α) (limit : Nat) (source : Source α)
    : Except String (List α) × Source α :=
  readFrom separator source.failure limit source.buffered source.pieces

theorem atEnd_ok {separator : α} {limit : Nat} {taken given : List α} {failure : Option String}
    (ok : atEnd separator limit taken failure = .ok given)
    : taken = given := by
  cases failure with
  | none => exact Except.ok.inj ok
  | some reason =>
      rw [atEnd] at ok
      split at ok
      · exact Except.ok.inj ok
      · cases ok

/-- Something taken before matters for the limit alone. -/
theorem atEnd_append {separator : α} {limit : Nat} {first : List α} (second : List α)
    (failure : Option String) (absent : separator ∉ first) (fits : first.length ≤ limit)
    : (atEnd separator (limit - first.length) second failure).map (first ++ ·)
      = atEnd separator limit (first ++ second) failure := by
  have same : Whole separator limit (first ++ second)
      ↔ Whole separator (limit - first.length) second := by
    simp only [Whole, List.mem_append, absent, false_or, List.length_append]
    have : first.length + second.length = limit ↔ second.length = limit - first.length := by omega
    rw [this]
  cases failure with
  | none => rfl
  | some reason =>
      simp only [atEnd, same]
      split <;> rfl

/-- However the pieces are cut, by induction on them. -/
theorem readFrom_eq (separator : α) (failure : Option String) (limit : Nat) (buffered : List α)
    (pieces : List { piece : List α // piece ≠ [] })
    : let whole := buffered ++ pieces.flatMap (·.val)
      let taken := upTo separator (whole.take limit)
      (readFrom separator failure limit buffered pieces).1 = atEnd separator limit taken failure
        ∧ (readFrom separator failure limit buffered pieces).2.rest = whole.drop taken.length
        ∧ (readFrom separator failure limit buffered pieces).2.failure = failure := by
  induction pieces generalizing limit buffered with
  | nil => simp [readFrom, Source.rest]
  | cons piece pieces ih =>
      simp only [readFrom, List.flatMap_cons]
      have part : (upTo separator (buffered.take limit)).length ≤ buffered.length :=
        (upTo_part _).length_le.trans (List.length_take_le' limit buffered)
      split
      · next stops =>
          have same : upTo separator ((buffered ++ (piece.val ++ pieces.flatMap (·.val))).take limit)
              = upTo separator (buffered.take limit) := by
            rw [List.take_append, upTo_append]
            split
            · rfl
            · next absent =>
                rw [upTo_of_not_mem absent] at stops ⊢
                have full : limit - buffered.length = 0 := by
                  have := stops.resolve_left absent
                  rw [List.length_take] at this
                  omega
                rw [full, List.take_zero]
                exact List.append_nil _
          rw [same]
          refine ⟨?_, (List.drop_append_of_le_length part).symm, rfl⟩
          cases failure with
          | none => rfl
          | some reason => exact (if_pos stops).symm
      · next goesOn =>
          rw [Whole, not_or, mem_upTo] at goesOn
          obtain ⟨absent, short⟩ := goesOn
          have fits : buffered.length ≤ limit := by
            rw [upTo_of_not_mem absent, List.length_take] at short
            omega
          have all : upTo separator (buffered.take limit) = buffered := by
            rw [upTo_of_not_mem absent, List.take_of_length_le fits]
          rw [List.take_of_length_le fits] at absent
          have same : upTo separator ((buffered ++ (piece.val ++ pieces.flatMap (·.val))).take limit)
              = buffered ++ upTo separator
                  ((piece.val ++ pieces.flatMap (·.val)).take (limit - buffered.length)) := by
            rw [List.take_append, List.take_of_length_le fits, upTo_append, if_neg absent]
          obtain ⟨taken, left, kept⟩ := ih (limit - buffered.length) piece.val
          rw [all, same, ← atEnd_append _ failure absent fits, taken, left, List.length_append,
            ← List.drop_drop, List.drop_left]
          exact ⟨rfl, rfl, kept⟩

/-- Reading to a separator does not depend on how the bytes were cut into pieces. -/
theorem readUntil_eq (separator : α) (limit : Nat) (source : Source α)
    : let taken := upTo separator (source.rest.take limit)
      (readUntil separator limit source).1 = atEnd separator limit taken source.failure
        ∧ (readUntil separator limit source).2.rest = source.rest.drop taken.length
        ∧ (readUntil separator limit source).2.failure = source.failure :=
  readFrom_eq separator source.failure limit source.buffered source.pieces

end VerticalAI.Foundation.Text
