import VerticalAI.Kernel.PromptUnits

/-! The items of a register as they stand in the prompt it is lowered to. -/

namespace VerticalAI.Kernel
open VerticalAI.Foundation VerticalAI.Foundation.Text VerticalAI.Contracts

/-- The constraint block, if there is one. -/
def constraintBlock (reg : Register) : List (List Char) :=
  if reg.constraints = [] then [] else [['\n'].intercalate (constraintLines reg)]

/-- The pieces that are meant to be one line each. -/
def lineItems (reg : Register) : List (List Char) :=
  reg.evidence.map evidenceLine ++ reg.decisions.map decisionLine ++ reg.openQuestions.map openLine

/-- The items of a register: the constraint block, the evidence, the decisions, the open
questions.
-/
def promptItems (reg : Register) : List (List Char) := constraintBlock reg ++ lineItems reg

def frontRows (reg : Register) (role : List Char) : List (List Char) :=
  rows (roleLine role) ++ rows (goalLine reg)

def itemRows (reg : Register) : List (List Char) := (promptItems reg).flatMap rows

theorem constraintBlock_rows (reg : Register)
    : (constraintBlock reg).flatMap rows = (constraintLines reg).flatMap rows := by
  unfold constraintBlock constraintLines
  split
  · rfl
  · next some => simp [rows_intercalate]

/-- The rows of a prompt. -/
theorem lower_eq (reg : Register) (role : List Char)
    : lower reg role = unrows (frontRows reg role ++ itemRows reg) := by
  have cut : (promptLines reg role).flatMap rows = frontRows reg role ++ itemRows reg := by
    simp [promptLines, frontRows, itemRows, promptItems, lineItems, constraintBlock_rows]
  rw [← cut, unrows_flatMap_rows]
  rfl

theorem areRows_front (reg : Register) (role : List Char) : AreRows (frontRows reg role) :=
  (rows_areRows _).append (rows_areRows _)

/-- The items of a prompt are rows, whatever the register says. -/
theorem areRows_items (reg : Register) : AreRows (itemRows reg) := areRows_flatMap _

/-- Every item stands in the prompt. -/
theorem item_infix_lower {reg : Register} {item : List Char} (member : item ∈ promptItems reg)
    (role : List Char)
    : rows item <:+: rows (lower reg role) := by
  obtain ⟨before, after, cut⟩ := List.append_of_mem member
  rw [lower_eq, rows_unrows ((areRows_front reg role).append (areRows_items reg)), itemRows, cut]
  exact ⟨frontRows reg role ++ before.flatMap rows, after.flatMap rows ++ [[]], by simp⟩

/-- No carriage return ends the row. -/
abbrev Plain (row : List Char) : Prop := row.getLast? ≠ some '\r'

theorem Plain.append_iff {tag row : List Char} (tagged : Plain tag)
    : Plain (tag ++ row) ↔ Plain row := by
  cases row with
  | nil => simpa [Plain] using tagged
  | cons char rest => simp [Plain, List.getLast?_append, List.getLast?_cons]

/-- What holds of the rows of a tagged text, where the tag is enough for the first one. -/
theorem rows_tagged (tag : List Char) (Fits : List Char → Prop) (absent : '\n' ∉ tag)
    (tagged : Plain tag) (starts : ∀ rest, Fits (tag ++ rest)) (text : List Char)
    : (∀ row ∈ rows (tag ++ text), Fits row ∧ Plain row)
      ↔ (∀ row ∈ (rows text).tail, Fits row) ∧ ∀ row ∈ rows text, Plain row := by
  obtain ⟨first, others, cut, joined⟩ := rows_append_left absent text
  rw [cut, joined, List.tail_cons, List.forall_mem_cons, List.forall_mem_cons, tagged.append_iff]
  exact ⟨fun ⟨⟨_, plain⟩, later⟩ =>
      ⟨fun row member => (later row member).1, plain, fun row member => (later row member).2⟩,
    fun ⟨fits, plain, later⟩ =>
      ⟨⟨starts first, plain⟩, fun row member => ⟨fits row member, later row member⟩⟩⟩

/-- The tag and the text of a piece of one line. -/
structure TagLine where
  tag : List Char
  text : List Char
  absent : '\n' ∉ tag
  plain : Plain tag
  ranks : ∀ rest, rankOf (tag ++ rest) ∈ [1, 3, 4]

def TagLine.line (piece : TagLine) : List Char := piece.tag ++ piece.text

/-- The texts that are meant to be one line each. -/
def lineTexts (reg : Register) : List (List Char) :=
  reg.evidence.map (·.content.toList) ++ reg.decisions.map (·.toList)
    ++ reg.openQuestions.map (·.toList)

def tagEvidence (evidence : Evidence) : TagLine where
  tag := evidenceTag ++ ' ' :: '(' :: evidence.origin.debug.toList ++ [')', ':', ' ']
  text := evidence.content.toList
  absent := by cases evidence.origin <;> decide
  plain := by cases evidence.origin <;> decide
  ranks rest := by
    rw [List.append_assoc, List.append_assoc, rankOf_evidence]
    decide

def tagDecision (decision : String) : TagLine where
  tag := decisionTag ++ [' ']
  text := decision.toList
  absent := by decide
  plain := by decide
  ranks rest := by
    rw [List.append_assoc, rankOf_decision]
    decide

def tagOpen (question : String) : TagLine where
  tag := openTag ++ [' ']
  text := question.toList
  absent := by decide
  plain := by decide
  ranks rest := by
    rw [List.append_assoc, rankOf_open]
    decide

def tagLines (reg : Register) : List TagLine :=
  reg.evidence.map tagEvidence ++ reg.decisions.map tagDecision ++ reg.openQuestions.map tagOpen

theorem tagEvidence_line (evidence : Evidence)
    : (tagEvidence evidence).line = evidenceLine evidence := by
  simp [TagLine.line, tagEvidence, evidenceLine]

theorem tagDecision_line (decision : String)
    : (tagDecision decision).line = decisionLine decision := by
  simp [TagLine.line, tagDecision, decisionLine]

theorem tagOpen_line (question : String) : (tagOpen question).line = openLine question := by
  simp [TagLine.line, tagOpen, openLine]

theorem lineItems_eq (reg : Register) : lineItems reg = (tagLines reg).map (·.line) := by
  simp [lineItems, tagLines, tagEvidence_line, tagDecision_line, tagOpen_line, Function.comp_def]

theorem lineTexts_eq (reg : Register) : lineTexts reg = (tagLines reg).map (·.text) := by
  simp [lineTexts, tagLines, tagEvidence, tagDecision, tagOpen, Function.comp_def]

/-- A tagged line has the rank of its tag. -/
theorem lineItems_rank (reg : Register) : ∀ item ∈ lineItems reg, rankOf item ∈ [1, 3, 4] := by
  intro item member
  rw [lineItems_eq] at member
  obtain ⟨piece, -, rfl⟩ := List.mem_map.mp member
  exact piece.ranks piece.text

/-- The first row of a tagged text has the rank of its tag. -/
theorem TagLine.rows_line (piece : TagLine)
    : ∃ first others, rows piece.line = first :: others ∧ rankOf first ∈ [1, 3, 4] := by
  obtain ⟨first, others, -, joined⟩ := rows_append_left piece.absent piece.text
  exact ⟨piece.tag ++ first, others, joined, piece.ranks first⟩

/-- The rows of the constraints, each with its dash. -/
def bulletRows (reg : Register) : List (List Char) :=
  reg.constraints.flatMap fun constraint => rows (bullet ++ constraint.toList)

/-- The rows of a constraint block. -/
theorem rows_constraintBlock {reg : Register} (some : reg.constraints ≠ [])
    : rows (['\n'].intercalate (constraintLines reg))
      = constraintsTag :: bulletRows reg := by
  have heading : rows constraintsTag = [constraintsTag] := rows_single (by decide)
  rw [constraintLines, if_neg some, rows_intercalate (List.cons_ne_nil _ _), List.flatMap_cons, heading,
    List.flatMap_map]
  rfl

/-- The first row of an item is no essential row and no row without rank. -/
theorem item_first {reg : Register} {item : List Char} (member : item ∈ promptItems reg)
    : ∃ first others, rows item = first :: others ∧ rankOf first ∈ [1, 2, 3, 4] := by
  rcases List.mem_append.mp member with block | line
  · unfold constraintBlock at block
    split at block
    · cases block
    · next some =>
        obtain rfl := List.mem_singleton.mp block
        exact ⟨_, _, rows_constraintBlock some, by rw [rankOf_constraints]; decide⟩
  · rw [lineItems_eq] at line
    obtain ⟨piece, -, rfl⟩ := List.mem_map.mp line
    obtain ⟨first, others, cut, rank⟩ := piece.rows_line
    have wider : [1, 3, 4] ⊆ [1, 2, 3, 4] := by decide
    exact ⟨first, others, cut, wider rank⟩

/-- What follows an item starts with no bullet. -/
theorem noBullet_items {reg : Register} {items : List (List Char)} (among : items ⊆ promptItems reg)
    : NoBullet ((items.flatMap rows).map chomp) := by
  cases items with
  | nil => exact fun _ none => by cases none
  | cons item later =>
      obtain ⟨first, others, cut, rank⟩ := item_first (among List.mem_cons_self)
      intro row starts
      simp only [List.flatMap_cons, cut, List.cons_append, List.map_cons, List.head?_cons,
        Option.some.injEq] at starts
      subst starts
      rw [isBullet_chomp]
      refine not_bullet_of_rank fun five => ?_
      rw [five] at rank
      exact absurd rank (by decide)

/-- The rows of the role and the goal are plain and of rank 0 exactly if the texts' own
rows are plain and each after the first has rank 0.
-/
theorem front_tagged (reg : Register) (role : List Char)
    : (∀ row ∈ frontRows reg role, rankOf row = 0 ∧ Plain row)
      ↔ (∀ text ∈ [role, reg.goal.toList], ∀ row ∈ (rows text).tail, rankOf row = 0)
        ∧ ∀ text ∈ [role, reg.goal.toList], ∀ row ∈ rows text, Plain row := by
  have roles := rows_tagged (roleTag ++ [' ']) (rankOf · = 0) (by decide) (by decide) (fun _ => rfl) role
  have goals := rows_tagged (goalTag ++ [' ']) (rankOf · = 0) (by decide) (by decide) (fun _ => rfl)
    reg.goal.toList
  have parted : (∀ row ∈ frontRows reg role, rankOf row = 0 ∧ Plain row)
      ↔ (∀ row ∈ rows (roleLine role), rankOf row = 0 ∧ Plain row)
        ∧ ∀ row ∈ rows (goalLine reg), rankOf row = 0 ∧ Plain row := List.forall_mem_append
  rw [parted]
  refine (and_congr roles goals).trans ?_
  simp only [List.forall_mem_cons, List.not_mem_nil, false_implies, implies_true, and_true]
  exact and_and_and_comm

/-- The rows of the constraints are plain bullets exactly if the texts' own rows are plain
and each after the first is a bullet.
-/
theorem bullets_tagged (reg : Register)
    : (∀ row ∈ bulletRows reg, IsBullet row ∧ Plain row)
      ↔ (∀ constraint ∈ reg.constraints, ∀ row ∈ (rows constraint.toList).tail, IsBullet row)
        ∧ ∀ constraint ∈ reg.constraints, ∀ row ∈ rows constraint.toList, Plain row := by
  have dashed (constraint : String) := rows_tagged bullet IsBullet (by decide) (by decide)
    (fun _ => rfl) constraint.toList
  simp only [bulletRows, List.forall_mem_flatMap, dashed]
  simp only [forall_and]

/-- Every tagged item is one plain line exactly if its text is one. -/
theorem lines_tagged (reg : Register)
    : (∀ piece ∈ tagLines reg, '\n' ∉ piece.line ∧ Plain piece.line)
      ↔ (∀ text ∈ lineTexts reg, '\n' ∉ text) ∧ ∀ text ∈ lineTexts reg, ∀ row ∈ rows text, Plain row := by
  have single (piece : TagLine) : '\n' ∉ piece.line ∧ Plain piece.line
      ↔ '\n' ∉ piece.text ∧ ∀ row ∈ rows piece.text, Plain row := by
    rw [TagLine.line, piece.plain.append_iff, List.mem_append, not_or, and_assoc,
      and_iff_right piece.absent]
    refine and_congr_right fun absent => ?_
    rw [rows_single absent, List.forall_mem_singleton]
  simp only [lineTexts_eq, List.forall_mem_map, single, forall_and]

end VerticalAI.Kernel
