import VerticalAI.Foundation.Text

/-! Texts as rows: cutting at every line break, writing rows out again, and what reading lines
makes of them.
-/

namespace VerticalAI.Foundation.Text

-----------------------------------------------------------------------------------------
-- Cutting and writing out
-----------------------------------------------------------------------------------------

/-- The pieces of a text between its line breaks. -/
def rows (text : List Char) : List (List Char) := text.splitOn '\n'

/-- Rows written out, each ended by a line break. -/
def unrows (pieces : List (List Char)) : List Char := pieces.flatMap (· ++ ['\n'])

/-- These are rows: no line break is in any of them. -/
def AreRows (pieces : List (List Char)) : Prop := ∀ row ∈ pieces, '\n' ∉ row

/-- A line break cuts a text into the rows before it and the rows after. -/
theorem rows_append (first second : List Char)
    : rows (first ++ '\n' :: second) = rows first ++ rows second :=
  List.splitOn_append_cons_self first second

theorem rows_single {row : List Char} (absent : '\n' ∉ row) : rows row = [row] :=
  List.splitOn_eq_singleton absent

theorem rows_ne_nil (text : List Char) : rows text ≠ [] := List.splitOn_ne_nil '\n' text

theorem rows_break (text : List Char) : rows ('\n' :: text) = [] :: rows text :=
  rows_append [] text

/-- A piece without line break goes on the first row, by induction on it. -/
theorem rows_append_left {front : List Char} (absent : '\n' ∉ front) (text : List Char)
    : ∃ first others, rows text = first :: others
      ∧ rows (front ++ text) = (front ++ first) :: others := by
  induction front with
  | nil =>
      obtain ⟨first, others, cut⟩ := List.exists_cons_of_ne_nil (rows_ne_nil text)
      exact ⟨first, others, cut, cut⟩
  | cons char rest ih =>
      simp only [List.mem_cons, not_or] at absent
      obtain ⟨first, others, cut, joined⟩ := ih absent.2
      refine ⟨first, others, cut, ?_⟩
      have differs : (char == '\n') = false := beq_eq_false_iff_ne.mpr (Ne.symm absent.1)
      rw [rows] at joined
      rw [rows, List.cons_append, List.splitOn_cons_eq_if_modifyHead, differs, joined]
      rfl

/-- No row has a line break, by induction on the text. -/
theorem rows_areRows (text : List Char) : AreRows (rows text) := by
  induction text with
  | nil =>
      intro row member
      obtain rfl := List.mem_singleton.mp member
      exact List.not_mem_nil
  | cons char rest ih =>
      intro row member
      by_cases same : char = '\n'
      · rw [same, rows_break] at member
        rcases List.mem_cons.mp member with rfl | later
        · exact List.not_mem_nil
        · exact ih row later
      · have absent : '\n' ∉ [char] := by simpa using Ne.symm same
        obtain ⟨first, others, cut, joined⟩ := rows_append_left absent rest
        rw [← List.singleton_append, joined] at member
        rcases List.mem_cons.mp member with rfl | later
        · rw [List.mem_append, not_or]
          exact ⟨absent, ih first (cut ▸ List.mem_cons_self)⟩
        · exact ih row (cut ▸ List.mem_cons_of_mem _ later)

theorem unrows_cons (row : List Char) (others : List (List Char))
    : unrows (row :: others) = row ++ '\n' :: unrows others := by
  rw [unrows, List.flatMap_cons, List.append_assoc, List.singleton_append, ← unrows]

theorem unrows_append (first second : List (List Char))
    : unrows (first ++ second) = unrows first ++ unrows second := List.flatMap_append

/-- The rows of a text written out are the text and a line break, by induction on the text. -/
theorem unrows_rows (text : List Char) : unrows (rows text) = text ++ ['\n'] := by
  induction text with
  | nil => rfl
  | cons char rest ih =>
      by_cases same : char = '\n'
      · rw [same, rows_break, unrows_cons, ih]
        rfl
      · have absent : '\n' ∉ [char] := by simpa using Ne.symm same
        obtain ⟨first, others, cut, joined⟩ := rows_append_left absent rest
        rw [cut, unrows_cons] at ih
        rw [← List.singleton_append, joined, unrows_cons, List.append_assoc, ih, List.append_assoc]

/-- Texts written out one after another are their rows written out, by induction on the texts. -/
theorem unrows_flatMap_rows (texts : List (List Char))
    : unrows (texts.flatMap rows) = unrows texts := by
  induction texts with
  | nil => rfl
  | cons text others ih =>
      rw [List.flatMap_cons, unrows_append, unrows_rows, ih, unrows_cons, List.append_assoc]
      rfl

/-- Rows written out are cut into them again, by induction on the rows. -/
theorem rows_unrows {pieces : List (List Char)} (areRows : AreRows pieces)
    : rows (unrows pieces) = pieces ++ [[]] := by
  induction pieces with
  | nil => rfl
  | cons row others ih =>
      have ⟨absent, later⟩ := List.forall_mem_cons.mp areRows
      rw [unrows_cons, rows_append, rows_single absent, ih later]
      rfl

/-- Rows are read off the text that they make up. -/
theorem unrows_injective {first second : List (List Char)} (areRows : AreRows first)
    (also : AreRows second) (same : unrows first = unrows second)
    : first = second := by
  have cut := congrArg rows same
  rw [rows_unrows areRows, rows_unrows also] at cut
  exact List.append_cancel_right cut

/-- The rows of joined texts are the rows of each, by induction on the texts. -/
theorem rows_intercalate {texts : List (List Char)} (nonempty : texts ≠ [])
    : rows (['\n'].intercalate texts) = texts.flatMap rows := by
  induction texts with
  | nil => exact absurd rfl nonempty
  | cons text others ih =>
      cases others with
      | nil => simp
      | cons next rest =>
          rw [List.intercalate_cons_cons, List.append_assoc, List.singleton_append, rows_append,
            ih (List.cons_ne_nil _ _)]
          exact List.flatMap_cons.symm

theorem AreRows.append {first second : List (List Char)} (areRows : AreRows first)
    (also : AreRows second)
    : AreRows (first ++ second) :=
  fun row member => (List.mem_append.mp member).elim (areRows row) (also row)

/-- The rows of texts are rows. -/
theorem areRows_flatMap (texts : List (List Char)) : AreRows (texts.flatMap rows) := by
  intro row member
  obtain ⟨text, -, cut⟩ := List.mem_flatMap.mp member
  exact rows_areRows text row cut

/-- Rows are cut into themselves. -/
theorem AreRows.flatMap_rows {pieces : List (List Char)} (areRows : AreRows pieces)
    : pieces.flatMap rows = pieces := by
  induction pieces with
  | nil => rfl
  | cons row others ih =>
      have ⟨absent, later⟩ := List.forall_mem_cons.mp areRows
      rw [List.flatMap_cons, rows_single absent, ih later]
      rfl

/-- Texts written out are cut into their rows. -/
theorem rows_unrows_texts (texts : List (List Char))
    : rows (unrows texts) = texts.flatMap rows ++ [[]] := by
  rw [← unrows_flatMap_rows, rows_unrows (areRows_flatMap texts)]

/-- A text is determined by its rows. -/
theorem rows_injective {first second : List Char} (same : rows first = rows second)
    : first = second := by
  have written := congrArg unrows same
  rw [unrows_rows, unrows_rows] at written
  exact List.append_cancel_right written

-----------------------------------------------------------------------------------------
-- Carriage returns
-----------------------------------------------------------------------------------------

/-- A row without the carriage return that reading it as a line takes off. -/
def chomp (row : List Char) : List Char :=
  if row.getLast? = some '\r' then row.dropLast else row

/-- A row without any carriage return at its end. -/
def bare (row : List Char) : List Char := row.rdropWhile (· = '\r')

theorem chomp_eq_self_iff {row : List Char} : chomp row = row ↔ row.getLast? ≠ some '\r' := by
  unfold chomp
  split
  · next ends =>
      refine ⟨fun same => ?_, fun plain => absurd ends plain⟩
      have shorter := congrArg List.length same
      have nonempty : row ≠ [] := by
        rintro rfl
        cases ends
      have positive := List.length_pos_iff.mpr nonempty
      rw [List.length_dropLast] at shorter
      omega
  · next plain => exact ⟨fun _ => plain, fun _ => rfl⟩

theorem map_chomp_eq_self_iff {pieces : List (List Char)}
    : pieces.map chomp = pieces ↔ ∀ row ∈ pieces, row.getLast? ≠ some '\r' := by
  have same : pieces.map chomp = pieces ↔ pieces.map chomp = pieces.map id := by rw [List.map_id]
  rw [same, List.map_inj_left]
  exact forall₂_congr fun _ _ => chomp_eq_self_iff

/-- A row is its chomped form, or that and a carriage return. -/
theorem chomp_cases (row : List Char) : row = chomp row ∨ row = chomp row ++ ['\r'] := by
  unfold chomp
  split
  · next ends =>
      obtain ⟨front, rfl⟩ := List.getLast?_eq_some_iff.mp ends
      exact Or.inr (by rw [List.dropLast_concat])
  · exact Or.inl rfl

theorem bare_chomp (row : List Char) : bare (chomp row) = bare row := by
  rcases chomp_cases row with same | same
  · rw [← same]
  · have taken : bare (chomp row ++ ['\r']) = bare (chomp row) :=
      List.rdropWhile_concat_pos _ _ _ (by decide)
    rw [← taken, ← same]

theorem bare_eq_self {row : List Char} (plain : row.getLast? ≠ some '\r') : bare row = row := by
  rw [bare, List.rdropWhile_eq_self_iff]
  intro nonempty ends
  rw [List.getLast?_eq_some_getLast nonempty, of_decide_eq_true ends] at plain
  exact plain rfl

theorem not_mem_chomp {row : List Char} (absent : '\n' ∉ row) : '\n' ∉ chomp row := by
  rcases chomp_cases row with same | same
  · rwa [← same]
  · rw [same, List.mem_append, not_or] at absent
    exact absent.1

theorem AreRows.chomped {pieces : List (List Char)} (areRows : AreRows pieces)
    : AreRows (pieces.map chomp) := by
  intro row member
  obtain ⟨original, listed, rfl⟩ := List.mem_map.mp member
  exact not_mem_chomp (areRows original listed)

/-- A tag without carriage return starts a row exactly when it starts the chomped row. -/
theorem isPrefixOf_chomp {tag : List Char} (absent : '\r' ∉ tag) (row : List Char)
    : tag.isPrefixOf (chomp row) = tag.isPrefixOf row := by
  rcases chomp_cases row with same | same
  · rw [← same]
  · rw [Bool.eq_iff_iff, List.isPrefixOf_iff_prefix, List.isPrefixOf_iff_prefix]
    constructor
    · intro starts
      rw [same]
      exact starts.trans (List.prefix_append _ _)
    · intro starts
      rw [same, List.prefix_concat_iff] at starts
      rcases starts with whole | starts
      · exact absurd (whole ▸ List.mem_append_right _ (List.mem_singleton_self _)) absent
      · exact starts

-----------------------------------------------------------------------------------------
-- Reading lines
-----------------------------------------------------------------------------------------

theorem stripLineEnd_concat (row : List Char) : stripLineEnd (row ++ ['\n']) = chomp row := by
  simp only [stripLineEnd, List.getLast?_concat, if_true, List.dropLast_concat, chomp]

/-- The lines of rows written out are the rows, chomped, by induction on the rows. -/
theorem lines_unrows {pieces : List (List Char)} (areRows : AreRows pieces)
    : lines (unrows pieces) = pieces.map chomp := by
  induction pieces with
  | nil => rfl
  | cons row others ih =>
      have ⟨absent, later⟩ := List.forall_mem_cons.mp areRows
      rw [unrows_cons, lines, splitInclusive_terminated absent, List.map_cons, stripLineEnd_concat,
        ← lines, ih later, List.map_cons]

/-- The lines of texts written out. -/
theorem lines_unrows_texts (texts : List (List Char))
    : lines (unrows texts) = (texts.flatMap rows).map chomp := by
  rw [← unrows_flatMap_rows, lines_unrows (areRows_flatMap texts)]

end VerticalAI.Foundation.Text
