import VerticalAI.Kernel.PromptItems

/-! Projecting a lowered register keeps each of its items whole or leaves it out, and keeps the
goal: of which registers and roles this holds, for every counter and every budget.
-/

namespace VerticalAI.Correctness
open VerticalAI.Foundation VerticalAI.Foundation.Text VerticalAI.Contracts VerticalAI.Kernel

-----------------------------------------------------------------------------------------
-- Whole items
-----------------------------------------------------------------------------------------

/-- The rows of the item stand in the prompt, one after another. -/
def Whole (item prompt : List Char) : Prop := rows item <:+: rows prompt

/-- No row of the item is a line of the prompt, whatever carriage returns end them. -/
def Absent (item prompt : List Char) : Prop :=
  ∀ row ∈ rows item, ∀ line ∈ lines prompt, bare row ≠ bare line

/-- What a projection of a lowered register owes to the goal and to each item, and when alone
there may be none.
-/
structure ItemsWhole (reg : Register) (role : List Char) (count : List Char → UInt32)
    (budget : UInt32) : Prop where
  goal : ∀ prompt, project (lower reg role) budget count = some prompt → reg.goal.toList <:+: prompt
  items : ∀ prompt, project (lower reg role) budget count = some prompt
    → ∀ item ∈ promptItems reg, Whole item prompt ∨ Absent item prompt
  refused : project (lower reg role) budget count = none
    → budget < count (unrows [roleLine role, goalLine reg, marker (itemRows reg).length])

/-- The lines of the texts of a register and a role are read as what they are: every further line
of the role and the goal is essential, every further line of a constraint is a bullet, all else is
one line, and no line ends with a carriage return.
-/
structure LinesHold (reg : Register) (role : List Char) : Prop where
  front : ∀ text ∈ [role, reg.goal.toList], ∀ row ∈ (rows text).tail, rankOf row = 0
  bullets : ∀ constraint ∈ reg.constraints, ∀ row ∈ (rows constraint.toList).tail, IsBullet row
  single : ∀ text ∈ lineTexts reg, '\n' ∉ text
  plain : ∀ text ∈ role :: reg.goal.toList :: reg.constraints.map (·.toList) ++ lineTexts reg,
    ∀ row ∈ rows text, Plain row

variable {reg : Register} {role : List Char}

-----------------------------------------------------------------------------------------
-- The rows of a prompt
-----------------------------------------------------------------------------------------

theorem lines_lower (reg : Register) (role : List Char)
    : lines (lower reg role) = (frontRows reg role ++ itemRows reg).map chomp := by
  rw [lower_eq, lines_unrows ((areRows_front reg role).append (areRows_items reg))]

/-- The rows of the role and the goal, and what a choice of items prints. -/
theorem rows_printed (reg : Register) (role : List Char) (texts : List (List Char))
    (marks : List Nat)
    : rows (unrows (frontRows reg role ++ texts ++ marks.map marker))
      = frontRows reg role ++ texts.flatMap rows ++ marks.map marker ++ [[]] := by
  rw [rows_unrows_texts, List.flatMap_append, List.flatMap_append,
    (areRows_front reg role).flatMap_rows, (areRows_markers marks).flatMap_rows]

theorem lines_printed (reg : Register) (role : List Char) (texts : List (List Char))
    (marks : List Nat)
    : lines (unrows (frontRows reg role ++ texts ++ marks.map marker))
      = (frontRows reg role ++ texts.flatMap rows ++ marks.map marker).map chomp := by
  rw [lines_unrows_texts, List.flatMap_append, List.flatMap_append,
    (areRows_front reg role).flatMap_rows, (areRows_markers marks).flatMap_rows]

theorem refusal_eq (reg : Register) (role : List Char)
    : unrows [roleLine role, goalLine reg, marker (itemRows reg).length]
      = unrows (frontRows reg role ++ [marker (itemRows reg).length]) := by
  have marked : rows (marker (itemRows reg).length) = [marker (itemRows reg).length] :=
    rows_single (not_mem_marker _)
  rw [← unrows_flatMap_rows]
  simp [frontRows, marked]

/-- The goal stands in whatever starts with the role and the goal. -/
theorem goal_infix (reg : Register) (role : List Char) (rest : List (List Char))
    : reg.goal.toList <:+: unrows (frontRows reg role ++ rest) := by
  rw [frontRows, unrows_append, unrows_append, unrows_rows, unrows_rows]
  refine ⟨roleLine role ++ ['\n'] ++ goalTag ++ [' '], ['\n'] ++ unrows rest, ?_⟩
  simp [goalLine]

/-- A prompt is never the role, the goal and a marker. -/
theorem lower_ne_refusal (reg : Register) (role : List Char) (dropped : Nat)
    : lower reg role ≠ unrows (frontRows reg role ++ [marker dropped]) := by
  intro same
  rw [lower_eq] at same
  have marked : AreRows [marker dropped] := areRows_markers [dropped]
  have rest : itemRows reg = [marker dropped] :=
    List.append_cancel_left (unrows_injective ((areRows_front reg role).append (areRows_items reg))
      ((areRows_front reg role).append marked) same)
  cases none : promptItems reg with
  | nil =>
      rw [itemRows, none] at rest
      cases rest
  | cons item others =>
      obtain ⟨first, later, cut, rank⟩ := item_first (none ▸ List.mem_cons_self : item ∈ promptItems reg)
      rw [itemRows, none, List.flatMap_cons, cut] at rest
      obtain rfl := (List.cons.inj rest).1
      rw [rankOf_marker] at rank
      exact absurd rank (by decide)

/-- The role and the goal are read back as they are, and no row of an item is essential. -/
structure FrontKept (reg : Register) (role : List Char) : Prop where
  front : ∀ row ∈ frontRows reg role, rankOf row = 0
  plain : (frontRows reg role).map chomp = frontRows reg role
  items : ∀ row ∈ itemRows reg, rankOf row ≠ 0

/-- The units of the items. -/
def itemUnits (reg : Register) : List PromptUnit := gather none ((itemRows reg).map chomp)

theorem FrontKept.unitsOf_lower (kept : FrontKept reg role)
    : unitsOf (lower reg role) = (frontRows reg role).map .ofLine ++ itemUnits reg := by
  have noHeading : ∀ row ∈ frontRows reg role, rankOf row ≠ 2 := by
    intro row member heading
    rw [kept.front row member] at heading
    cases heading
  rw [unitsOf, lines_lower, List.map_append, kept.plain, gather_lines noHeading, itemUnits]

theorem FrontKept.front_essential (kept : FrontKept reg role)
    : ((frontRows reg role).map PromptUnit.ofLine).filter (fun unit => unit.rank = 0)
      = (frontRows reg role).map .ofLine := by
  refine List.filter_eq_self.mpr fun unit member => decide_eq_true ?_
  obtain ⟨row, inFront, rfl⟩ := List.mem_map.mp member
  exact kept.front row inFront

theorem FrontKept.items_quiet (kept : FrontKept reg role)
    : ∀ unit ∈ itemUnits reg, unit.rank ≠ 0 := by
  have absent : ((itemRows reg).map chomp).filter (fun row => rankOf row = 0) = [] := by
    refine List.filter_eq_nil_iff.mpr fun row member => ?_
    obtain ⟨original, inItem, rfl⟩ := List.mem_map.mp member
    rw [rankOf_chomp, decide_eq_true_eq]
    exact kept.items original inItem
  have quiet := gather_essential ((itemRows reg).map chomp) none nofun
  rw [absent, List.map_nil, List.filter_eq_nil_iff] at quiet
  exact fun unit member rank => quiet unit member (decide_eq_true rank)

theorem FrontKept.essential_texts (kept : FrontKept reg role)
    : ((unitsOf (lower reg role)).filter fun unit => unit.rank = 0).map (·.text)
      = frontRows reg role := by
  have noItem : (itemUnits reg).filter (fun unit => unit.rank = 0) = [] :=
    List.filter_eq_nil_iff.mpr fun unit member rank =>
      kept.items_quiet unit member (of_decide_eq_true rank)
  rw [kept.unitsOf_lower, List.filter_append, kept.front_essential, noItem, List.append_nil, List.map_map]
  exact List.map_id _

-----------------------------------------------------------------------------------------
-- What whole items need
-----------------------------------------------------------------------------------------

/-- If there is no projection only where the role, the goal and the marker alone exceed the
budget, the role and the goal are read back as they are: a counter that only these are free under
shows it.
-/
theorem frontKept_of_whole (whole : ∀ count budget, ItemsWhole reg role count budget)
    : FrontKept reg role := by
  let refusal := unrows (frontRows reg role ++ [marker (itemRows reg).length])
  have some : project (lower reg role) 0 (onlyFree refusal refusal) ≠ none := by
    intro refused
    have exceeds := (whole (onlyFree refusal refusal) 0).refused refused
    rw [refusal_eq] at exceeds
    exact UInt32.not_lt.mpr (onlyFree_fits.mpr (Or.inl rfl)) exceeds
  have tooLong : 0 < onlyFree refusal refusal (lower reg role) := by
    refine UInt32.not_le.mp fun fits => ?_
    exact lower_ne_refusal reg role _ ((onlyFree_fits.mp fits).elim id id)
  have free := fun exceeds => some (project_eq_none tooLong exceeds)
  have same := (onlyFree_fits.mp (UInt32.not_lt.mp free)).elim id id
  rw [render_eq, keptFrom_essential, unitsOf, essential_texts, lines_lower] at same
  let chomped := (frontRows reg role ++ itemRows reg).map chomp
  have areChomped : AreRows chomped := ((areRows_front reg role).append (areRows_items reg)).chomped
  have marked (dropped : Nat) : AreRows [marker dropped] := areRows_markers [dropped]
  have kept : chomped.filter (fun row => rankOf row = 0) = frontRows reg role := by
    have areKept : AreRows (chomped.filter fun row => rankOf row = 0) :=
      fun row member => areChomped row (List.mem_of_mem_filter member)
    exact List.append_inj_left' (unrows_injective (areKept.append (marked _))
      ((areRows_front reg role).append (marked _)) same) rfl
  have front : ∀ row ∈ frontRows reg role, rankOf row = 0 := by
    intro row member
    rw [← kept] at member
    exact of_decide_eq_true (List.mem_filter.mp member).2
  have frontAll : ((frontRows reg role).map chomp).filter (fun row => rankOf row = 0)
      = (frontRows reg role).map chomp := by
    refine List.filter_eq_self.mpr fun row member => decide_eq_true ?_
    obtain ⟨original, inFront, rfl⟩ := List.mem_map.mp member
    rw [rankOf_chomp, front original inFront]
  rw [show chomped = (frontRows reg role).map chomp ++ (itemRows reg).map chomp from List.map_append,
    List.filter_append, frontAll] at kept
  have noItem : ((itemRows reg).map chomp).filter (fun row => rankOf row = 0) = [] := by
    have lengths := congrArg List.length kept
    rw [List.length_append, List.length_map] at lengths
    exact List.length_eq_zero_iff.mp (by omega)
  rw [noItem, List.append_nil] at kept
  refine ⟨front, kept, fun row member rank => ?_⟩
  refine List.filter_eq_nil_iff.mp noItem (chomp row) (List.mem_map_of_mem member) ?_
  rw [rankOf_chomp, rank]
  rfl

/-- The rows behind the head of a unit have no rank. -/
theorem rankOf_behind {tail rest : List (List Char)} {marks : List Nat}
    (bullets : ∀ row ∈ tail, rankOf row = 5) (starts : rest <+: tail ++ (marks.map marker ++ [[]]))
    : ∀ row ∈ rest, rankOf row = 5 := by
  intro row member
  rcases List.mem_append.mp (starts.subset member) with bullet | other
  · exact bullets row bullet
  · rcases List.mem_append.mp other with marked | empty
    · obtain ⟨dropped, -, rfl⟩ := List.mem_map.mp marked
      exact rankOf_marker dropped
    · rw [List.mem_singleton.mp empty]
      rfl

/-- Where only the head of a unit can be the first row of an item, the item starts there. -/
theorem head_of_infix {front tail rest : List (List Char)} {head first : List Char}
    {marks : List Nat}
    (essential : ∀ row ∈ front, rankOf row = 0) (bullets : ∀ row ∈ tail, rankOf row = 5)
    (rank : rankOf first ∈ [1, 2, 3, 4])
    (stands : first :: rest <:+: front ++ (head :: tail) ++ marks.map marker ++ [[]])
    : first = head ∧ rest <+: tail ++ (marks.map marker ++ [[]]) := by
  have notFront : first ∉ front := by
    intro member
    rw [essential first member] at rank
    exact absurd rank (by decide)
  have notBehind : first ∉ tail ++ (marks.map marker ++ [[]]) := by
    intro member
    have five := rankOf_behind bullets (List.prefix_refl _) first member
    rw [five] at rank
    exact absurd rank (by decide)
  obtain ⟨before, after, placed⟩ := stands
  have cut : front ++ head :: (tail ++ (marks.map marker ++ [[]])) = before ++ first :: (rest ++ after) := by
    simpa using placed.symm
  obtain ⟨-, same, others⟩ := (List.append_cons_inj_of_notMem notFront notBehind).mp cut
  exact ⟨same.symm, after, others.symm⟩

section Needed

variable (whole : ∀ count budget, ItemsWhole reg role count budget)
include whole

/-- A unit that holds a row of an item can be printed alone, so it holds the item. -/
theorem admits_item {item : List Char} (member : item ∈ promptItems reg)
    {before after : List PromptUnit} {unit : PromptUnit}
    (cut : itemUnits reg = before ++ unit :: after)
    {row line : List Char} (inItem : row ∈ rows item) (inUnit : line ∈ rows unit.text)
    (same : bare row = bare line)
    : ∃ marks : List Nat,
        rows item <:+: frontRows reg role ++ rows unit.text ++ marks.map marker ++ [[]] := by
  have kept := frontKept_of_whole whole
  have quiet := kept.items_quiet
  rw [cut] at quiet
  have beforeNone : before.filter (fun unit => unit.rank = 0) = [] :=
    List.filter_eq_nil_iff.mpr fun unit member rank =>
      quiet unit (List.mem_append_left _ member) (of_decide_eq_true rank)
  have afterNone : after.filter (fun unit => unit.rank = 0) = [] :=
    List.filter_eq_nil_iff.mpr fun unit member rank =>
      quiet unit (List.mem_append_right _ (.tail _ member)) (of_decide_eq_true rank)
  have units : unitsOf (lower reg role)
      = ((frontRows reg role).map .ofLine ++ before) ++ unit :: after := by
    rw [kept.unitsOf_lower, cut, List.append_assoc]
  have texts : ((frontRows reg role).map PromptUnit.ofLine).map (·.text) = frontRows reg role := by
    rw [List.map_map]
    exact List.map_id _
  have core : ((((frontRows reg role).map PromptUnit.ofLine ++ before).filter fun unit =>
        unit.rank = 0) ++ unit :: after.filter fun unit => unit.rank = 0).map (·.text)
      = frontRows reg role ++ [unit.text] := by
    rw [List.filter_append, kept.front_essential, beforeNone, afterNone, List.append_nil,
      List.map_append, texts]
    rfl
  by_cases alone : ∃ dropped, lower reg role
      = unrows (frontRows reg role ++ [unit.text] ++ [dropped].map marker)
  · obtain ⟨dropped, same⟩ := alone
    have stands := item_infix_lower member role
    rw [same, rows_printed, List.flatMap_singleton] at stands
    exact ⟨[dropped], stands⟩
  · obtain ⟨count, marks, projected⟩ := project_admits units
      (quiet unit (List.mem_append_right _ List.mem_cons_self))
      (fun dropped => by rw [kept.essential_texts]; exact lower_ne_refusal reg role dropped)
      (fun dropped same => alone ⟨dropped, by rw [core] at same; exact same⟩)
    rw [core] at projected
    have printed := lines_printed reg role [unit.text] marks
    rw [List.flatMap_singleton] at printed
    refine ⟨marks, ?_⟩
    rcases (whole count 0).items _ projected item member with stands | absent
    · rwa [Whole, rows_printed, List.flatMap_singleton] at stands
    · have listed : chomp line ∈ lines (unrows (frontRows reg role ++ [unit.text] ++ marks.map marker)) := by
        rw [printed]
        exact List.mem_map_of_mem (by simp [inUnit])
      exact absurd (same.trans (bare_chomp line).symm) (absent row inItem _ listed)

/-- A row of an item where a unit starts is its first row, as read, and the others have no rank. -/
theorem item_at {item : List Char} (member : item ∈ promptItems reg) {first : List Char}
    {others : List (List Char)} (cut : rows item = first :: others)
    (rank : rankOf first ∈ [1, 2, 3, 4])
    {before : List PromptUnit} {row : List Char} {after : List (List Char)}
    (areRows : AreRows after)
    (starts : itemUnits reg = before ++ gather none (chomp row :: after)) (inItem : row ∈ rows item)
    : first = chomp row ∧ ∀ other ∈ others, rankOf other = 5 := by
  obtain ⟨bullets, later, parted, all, -, -, gathered⟩ := gather_cons (chomp row) after
  rw [gathered] at starts
  have headed : rows ((PromptUnit.ofLine (chomp row)).headed bullets).text = chomp row :: bullets := by
    have areBullets : AreRows bullets :=
      fun other listed => areRows other (parted ▸ List.mem_append_left _ listed)
    have single : rows (chomp row) = [chomp row] :=
      rows_single (not_mem_chomp (rows_areRows item row inItem))
    rw [PromptUnit.headed_rows _ areBullets, PromptUnit.ofLine, single]
    rfl
  have five : ∀ bullet ∈ bullets, rankOf bullet = 5 :=
    fun bullet listed => rankOf_bullet (all bullet listed)
  have shared : chomp row ∈ rows ((PromptUnit.ofLine (chomp row)).headed bullets).text :=
    headed ▸ List.mem_cons_self
  obtain ⟨marks, stands⟩ := admits_item whole member starts inItem shared (bare_chomp row).symm
  rw [cut, headed] at stands
  obtain ⟨same, behind⟩ := head_of_infix (frontKept_of_whole whole).front five rank stands
  exact ⟨same, rankOf_behind five behind⟩

/-- A piece that is meant to be one line is one, by cases on a second row: its unit would hold the
piece.
-/
theorem line_holds {piece : TagLine} (listed : piece ∈ tagLines reg)
    : '\n' ∉ piece.line ∧ Plain piece.line := by
  have member : piece.line ∈ promptItems reg :=
    List.mem_append_right _ (lineItems_eq reg ▸ List.mem_map_of_mem listed)
  obtain ⟨first, others, cut, rank⟩ := piece.rows_line
  have wide : rankOf first ∈ [1, 2, 3, 4] := by
    have wider : [1, 3, 4] ⊆ [1, 2, 3, 4] := by decide
    exact wider rank
  obtain ⟨before, after, items⟩ := List.append_of_mem member
  have placed : (itemRows reg).map chomp = (before.flatMap rows).map chomp
      ++ chomp first :: (others ++ after.flatMap rows).map chomp := by
    simp [itemRows, items, cut]
  have areRows : AreRows ((others ++ after.flatMap rows).map chomp) := by
    have areOthers : AreRows others := fun row other =>
      rows_areRows piece.line row (cut ▸ List.mem_cons_of_mem _ other)
    exact (areOthers.append (areRows_flatMap after)).chomped
  have plainRank : rankOf (chomp first) ≠ 2 ∧ ¬IsBullet (chomp first) := by
    rw [isBullet_chomp, rankOf_chomp]
    refine ⟨fun two => ?_, not_bullet_of_rank fun five => ?_⟩
    · rw [two] at rank
      exact absurd rank (by decide)
    · rw [five] at rank
      exact absurd rank (by decide)
  have starts : itemUnits reg = gather none ((before.flatMap rows).map chomp)
      ++ gather none (chomp first :: (others ++ after.flatMap rows).map chomp) := by
    rw [itemUnits, placed, gather_split _ _ plainRank.2]
  obtain ⟨same, five⟩ := item_at whole member cut wide areRows starts (cut ▸ List.mem_cons_self)
  cases others with
  | nil =>
      have absent : '\n' ∉ first := rows_areRows piece.line first (cut ▸ List.mem_cons_self)
      obtain rfl : piece.line = first := rows_injective (cut.trans (rows_single absent).symm)
      exact ⟨absent, chomp_eq_self_iff.mp same.symm⟩
  | cons second more =>
      have next : itemUnits reg = (gather none ((before.flatMap rows).map chomp) ++ [.ofLine (chomp first)])
          ++ gather none (chomp second :: (more ++ after.flatMap rows).map chomp) := by
        rw [starts, gather_line plainRank.1, List.append_assoc]
        rfl
      obtain ⟨other, -⟩ :=
        item_at whole member cut wide (fun row member => areRows row (.tail _ member)) next
        (cut ▸ List.mem_cons_of_mem _ List.mem_cons_self)
      have noRank := five second List.mem_cons_self
      rw [← rankOf_chomp, ← other] at noRank
      rw [noRank] at rank
      exact absurd rank (by decide)

/-- Every row of the constraint block but the heading is a bullet, and none ends with a carriage
return: another row would start a unit, and the heading's unit would be read otherwise.
-/
theorem block_holds (some : reg.constraints ≠ [])
    : ∀ row ∈ bulletRows reg, IsBullet row ∧ Plain row := by
  let block := ['\n'].intercalate (constraintLines reg)
  let bullets := bulletRows reg
  have cut : rows block = constraintsTag :: bullets := rows_constraintBlock some
  have items : promptItems reg = block :: lineItems reg := by
    rw [promptItems, constraintBlock, if_neg some]
    rfl
  have member : block ∈ promptItems reg := items ▸ List.mem_cons_self
  have placed : (itemRows reg).map chomp
      = constraintsTag :: (bullets ++ (lineItems reg).flatMap rows).map chomp := by
    rw [itemRows, items, List.flatMap_cons, cut, List.cons_append, List.map_cons]
    rfl
  have rank : rankOf constraintsTag ∈ [1, 2, 3, 4] := by decide
  have areRows : AreRows bullets :=
    fun row listed => rows_areRows block row (cut ▸ List.mem_cons_of_mem _ listed)
  have all : ∀ row ∈ bullets, IsBullet row := by
    intro row listed
    by_contra plain
    obtain ⟨before, after, parted⟩ := List.append_of_mem listed
    have starts : itemUnits reg = gather none (constraintsTag :: before.map chomp)
        ++ gather none (chomp row :: (after ++ (lineItems reg).flatMap rows).map chomp) := by
      rw [itemUnits, placed, parted, ← gather_split _ _ (isBullet_chomp.not.mpr plain)]
      simp
    have areAfter : AreRows after :=
      fun other later => areRows other (parted ▸ List.mem_append_right _ (.tail _ later))
    obtain ⟨same, five⟩ :=
      item_at whole member cut rank (areAfter.append (areRows_flatMap _)).chomped starts
      (cut ▸ List.mem_cons_of_mem _ listed)
    have noRank := five row listed
    rw [← rankOf_chomp, ← same] at noRank
    cases noRank
  have closed : NoBullet (((lineItems reg).flatMap rows).map chomp) :=
    noBullet_items fun item listed => List.mem_append_right _ listed
  have allChomped : ∀ row ∈ bullets.map chomp, IsBullet row := by
    intro row listed
    obtain ⟨original, inBlock, rfl⟩ := List.mem_map.mp listed
    exact isBullet_chomp.mpr (all original inBlock)
  have unit : itemUnits reg = [] ++ (PromptUnit.ofLine constraintsTag).headed (bullets.map chomp)
      :: gather none (((lineItems reg).flatMap rows).map chomp) := by
    rw [itemUnits, placed, gather, if_pos rankOf_constraints, List.map_append,
      gather_bullets _ allChomped, gather_closed _ closed]
    rfl
  have headed : rows ((PromptUnit.ofLine constraintsTag).headed (bullets.map chomp)).text
      = constraintsTag :: bullets.map chomp := by
    have heading : rows constraintsTag = [constraintsTag] := rows_single (by decide)
    rw [PromptUnit.headed_rows _ areRows.chomped, PromptUnit.ofLine, heading]
    rfl
  obtain ⟨marks, stands⟩ := admits_item whole member unit (cut ▸ List.mem_cons_self)
    (headed ▸ List.mem_cons_self) rfl
  rw [cut, headed] at stands
  have five : ∀ row ∈ bullets.map chomp, rankOf row = 5 :=
    fun row listed => rankOf_bullet (allChomped row listed)
  obtain ⟨-, after, behind⟩ := head_of_infix (frontKept_of_whole whole).front five rank stands
  have same : bullets = bullets.map chomp := (List.append_inj behind (List.length_map _).symm).1
  intro row listed
  exact ⟨all row listed, map_chomp_eq_self_iff.mp same.symm row listed⟩

end Needed

-----------------------------------------------------------------------------------------
-- What lines that hold are enough for
-----------------------------------------------------------------------------------------

theorem linesHold_iff
    : LinesHold reg role ↔ (∀ row ∈ frontRows reg role, rankOf row = 0 ∧ Plain row)
      ∧ (∀ row ∈ bulletRows reg, IsBullet row ∧ Plain row)
      ∧ ∀ piece ∈ tagLines reg, '\n' ∉ piece.line ∧ Plain piece.line := by
  rw [front_tagged, bullets_tagged, lines_tagged]
  constructor
  · intro holds
    have plain := holds.plain
    simp only [List.cons_append, List.forall_mem_cons, List.forall_mem_append, List.forall_mem_map]
      at plain
    obtain ⟨rolePlain, goalPlain, bulletPlain, linePlain⟩ := plain
    refine ⟨⟨holds.front, ?_⟩, ⟨holds.bullets, bulletPlain⟩, holds.single, linePlain⟩
    simp only [List.forall_mem_cons]
    exact ⟨rolePlain, goalPlain, fun _ none => absurd none List.not_mem_nil⟩
  · rintro ⟨⟨front, frontPlain⟩, ⟨bullets, bulletPlain⟩, single, linePlain⟩
    refine ⟨front, bullets, single, ?_⟩
    simp only [List.cons_append, List.forall_mem_cons, List.forall_mem_append, List.forall_mem_map]
    exact ⟨frontPlain role (by simp), frontPlain _ (by simp), bulletPlain, linePlain⟩

/-- Where items are always whole or absent, the lines of the texts hold. -/
theorem linesHold_of_whole (whole : ∀ count budget, ItemsWhole reg role count budget)
    : LinesHold reg role := by
  have kept := frontKept_of_whole whole
  have plain := map_chomp_eq_self_iff.mp kept.plain
  refine linesHold_iff.mpr ⟨fun row member => ⟨kept.front row member, plain row member⟩, ?_,
    fun _ => line_holds whole⟩
  by_cases none : reg.constraints = []
  · intro row member
    rw [bulletRows, none] at member
    cases member
  · exact block_holds whole none

section Enough

variable (holds : LinesHold reg role)
include holds

theorem rows_line {piece : TagLine} (listed : piece ∈ tagLines reg)
    : rows piece.line = [piece.line] :=
  rows_single ((linesHold_iff.mp holds).2.2 piece listed).1

/-- A row of an item is a row of the constraint block, or the item. -/
theorem item_row {item : List Char} (member : item ∈ promptItems reg) {row : List Char}
    (inItem : row ∈ rows item)
    : constraintBlock reg = [item] ∧ (row = constraintsTag ∨ row ∈ bulletRows reg)
      ∨ ∃ piece ∈ tagLines reg, piece.line = item ∧ row = item := by
  rcases List.mem_append.mp member with block | line
  · left
    unfold constraintBlock at block ⊢
    split at block
    · cases block
    · next some =>
        obtain rfl := List.mem_singleton.mp block
        rw [rows_constraintBlock some] at inItem
        exact ⟨if_neg some, List.mem_cons.mp inItem⟩
  · rw [lineItems_eq] at line
    obtain ⟨piece, listed, rfl⟩ := List.mem_map.mp line
    rw [rows_line holds listed] at inItem
    exact Or.inr ⟨piece, listed, rfl, List.mem_singleton.mp inItem⟩

theorem item_plain {item : List Char} (member : item ∈ promptItems reg) {row : List Char}
    (inItem : row ∈ rows item)
    : Plain row := by
  obtain ⟨-, bullets, lines⟩ := linesHold_iff.mp holds
  rcases item_row holds member inItem with ⟨-, rfl | listed⟩ | ⟨piece, listed, same, rfl⟩
  · decide
  · exact (bullets row listed).2
  · exact same ▸ (lines piece listed).2

/-- A row of an item is a bullet or has the rank of an item. -/
theorem item_rank {item : List Char} (member : item ∈ promptItems reg) {row : List Char}
    (inItem : row ∈ rows item)
    : IsBullet row ∨ rankOf row ∈ [1, 2, 3, 4] := by
  obtain ⟨-, bullets, -⟩ := linesHold_iff.mp holds
  rcases item_row holds member inItem with ⟨-, rfl | listed⟩ | ⟨piece, -, same, rfl⟩
  · exact Or.inr (by decide)
  · exact Or.inl (bullets row listed).1
  · have wider : [1, 3, 4] ⊆ [1, 2, 3, 4] := by decide
    exact Or.inr (same ▸ wider (piece.ranks piece.text))

/-- Two items with a row in common are the same. -/
theorem item_shared {item other : List Char} (member : item ∈ promptItems reg)
    (also : other ∈ promptItems reg) {row : List Char} (inItem : row ∈ rows item)
    (inOther : row ∈ rows other)
    : item = other := by
  have bullets := (linesHold_iff.mp holds).2.1
  have apart (piece : TagLine) (line : piece.line = row)
      : ¬(row = constraintsTag ∨ row ∈ bulletRows reg) := by
    have rank := piece.ranks piece.text
    rw [show piece.tag ++ piece.text = row from line] at rank
    rintro (rfl | listed)
    · exact absurd rank (by decide)
    · rw [rankOf_bullet (bullets row listed).1] at rank
      exact absurd rank (by decide)
  rcases item_row holds member inItem with ⟨first, inBlock⟩ | ⟨piece, -, line, rfl⟩
  · rcases item_row holds also inOther with ⟨second, -⟩ | ⟨piece, -, line, rfl⟩
    · exact (List.cons.inj (first.symm.trans second)).1
    · exact absurd inBlock (apart piece line)
  · rcases item_row holds also inOther with ⟨-, inBlock⟩ | ⟨-, -, -, same⟩
    · exact absurd inBlock (apart piece line)
    · exact same

theorem LinesHold.frontKept : FrontKept reg role where
  front row member := ((linesHold_iff.mp holds).1 row member).1
  plain := map_chomp_eq_self_iff.mpr fun row member => ((linesHold_iff.mp holds).1 row member).2
  items row member rank := by
    obtain ⟨item, listed, inItem⟩ := List.mem_flatMap.mp member
    rcases item_rank holds listed inItem with bullet | ranked
    · rw [rankOf_bullet bullet] at rank
      cases rank
    · rw [rank] at ranked
      exact absurd ranked (by decide)

theorem map_chomp_items : (itemRows reg).map chomp = itemRows reg := by
  refine map_chomp_eq_self_iff.mpr fun row member => ?_
  obtain ⟨item, listed, inItem⟩ := List.mem_flatMap.mp member
  exact item_plain holds listed inItem

theorem lineItems_rows : (lineItems reg).flatMap rows = lineItems reg := by
  refine AreRows.flatMap_rows fun item member => ?_
  rw [lineItems_eq] at member
  obtain ⟨piece, listed, rfl⟩ := List.mem_map.mp member
  exact ((linesHold_iff.mp holds).2.2 piece listed).1

/-- The units of the items are the items. -/
theorem itemUnits_texts : (itemUnits reg).map (·.text) = promptItems reg := by
  have noHeading : ∀ item ∈ lineItems reg, rankOf item ≠ 2 := by
    intro item member two
    have rank := lineItems_rank reg item member
    rw [two] at rank
    exact absurd rank (by decide)
  have lineUnits : (gather none (lineItems reg)).map (·.text) = lineItems reg := by
    have cut := gather_lines noHeading []
    rw [List.append_nil] at cut
    rw [cut, List.map_append, List.map_map]
    exact (List.append_nil _).trans (List.map_id _)
  rw [itemUnits, map_chomp_items holds]
  by_cases none : reg.constraints = []
  · rw [itemRows, promptItems, constraintBlock, if_pos none, List.nil_append, lineItems_rows holds,
      lineUnits]
  · have bullets := (linesHold_iff.mp holds).2.1
    have areBullets : AreRows (bulletRows reg) := by
      intro row member
      obtain ⟨constraint, -, inBullet⟩ := List.mem_flatMap.mp member
      exact rows_areRows _ row inBullet
    have closed : NoBullet (lineItems reg) := by
      refine fun item first => not_bullet_of_rank fun five => ?_
      have rank := lineItems_rank reg item (List.mem_of_mem_head? first)
      rw [five] at rank
      exact absurd rank (by decide)
    have text : ((PromptUnit.ofLine constraintsTag).headed (bulletRows reg)).text
        = ['\n'].intercalate (constraintLines reg) := by
      have heading : rows constraintsTag = [constraintsTag] := rows_single (by decide)
      refine rows_injective ?_
      rw [PromptUnit.headed_rows _ areBullets, rows_constraintBlock none, PromptUnit.ofLine, heading]
      rfl
    rw [itemRows, promptItems, constraintBlock, if_neg none, List.flatMap_append, List.flatMap_singleton,
      rows_constraintBlock none, lineItems_rows holds, List.cons_append, gather,
      if_pos rankOf_constraints, gather_bullets _ fun row member => (bullets row member).1,
      gather_closed _ closed, List.map_cons, lineUnits, text]
    rfl

/-- What is left out, at the most, are the rows of the items. -/
theorem dropped_items
    : droppedLines (unitsOf (lower reg role)) (essential (unitsOf (lower reg role)))
      = (itemRows reg).length := by
  have kept := holds.frontKept
  have noFront : ((frontRows reg role).map PromptUnit.ofLine).filter (fun unit => unit.rank ≠ 0) = [] := by
    refine List.filter_eq_nil_iff.mpr fun unit member ranked => ?_
    obtain ⟨row, inFront, rfl⟩ := List.mem_map.mp member
    exact of_decide_eq_true ranked (kept.front row inFront)
  have all : (itemUnits reg).filter (fun unit => unit.rank ≠ 0) = itemUnits reg :=
    List.filter_eq_self.mpr fun unit member => decide_eq_true (kept.items_quiet unit member)
  rw [droppedLines_essential, kept.unitsOf_lower, List.filter_append, noFront, all, itemUnits,
    List.nil_append, gather_count, List.length_map]
  exact Nat.zero_add _

/-- A projection is the prompt, or the role, the goal, some of the items in their order and a
marker.
-/
theorem project_choice {prompt : List Char} {count : List Char → UInt32} {budget : UInt32}
    (projected : project (lower reg role) budget count = some prompt)
    : prompt = lower reg role
      ∨ ∃ chosen marks, chosen.Sublist (promptItems reg)
          ∧ prompt = unrows (frontRows reg role ++ chosen ++ (marks : List Nat).map marker) := by
  have front := holds.frontKept
  rcases project_some projected with ⟨-, same⟩ | ⟨-, kept, fitting, rfl⟩
  · exact Or.inl same
  · right
    let units := (frontRows reg role).map PromptUnit.ofLine
    have every : ∀ i, i < units.length → 0 + i ∈ kept := by
      intro i inside
      have stands : (unitsOf (lower reg role))[i]? = some units[i] := by
        rw [front.unitsOf_lower, List.getElem?_append_left inside, List.getElem?_eq_getElem]
      have rank : units[i].rank = 0 := by
        rw [List.getElem_map]
        exact front.front _ (List.getElem_mem _)
      rw [Nat.zero_add]
      exact fitting.essential ((mem_essential stands).mpr rank)
    have texts : units.map (·.text) = frontRows reg role := by
      rw [List.map_map]
      exact List.map_id _
    have sublist := (keptFrom_sublist units.length (itemUnits reg) kept).map (·.text)
    rw [itemUnits_texts holds] at sublist
    have marked : ∃ marks : List Nat,
        (markerOf (unitsOf (lower reg role)) kept).toList = marks.map marker := by
      unfold markerOf
      split
      · exact ⟨[], rfl⟩
      · exact ⟨[_], rfl⟩
    obtain ⟨marks, named⟩ := marked
    refine ⟨_, marks, sublist, ?_⟩
    rw [render_eq, front.unitsOf_lower, keptFrom_append, keptFrom_all every, List.map_append, texts,
      ← front.unitsOf_lower, named, Nat.zero_add]

/-- Where the lines hold, each item is whole or absent, by cases on whether it was chosen. -/
theorem LinesHold.itemsWhole (count : List Char → UInt32) (budget : UInt32)
    : ItemsWhole reg role count budget where
  goal prompt projected := by
    rcases project_choice holds projected with rfl | ⟨chosen, marks, -, rfl⟩
    · rw [lower_eq]
      exact goal_infix reg role _
    · rw [List.append_assoc]
      exact goal_infix reg role _
  items prompt projected item member := by
    rcases project_choice holds projected with rfl | ⟨chosen, marks, sublist, rfl⟩
    · exact Or.inl (item_infix_lower member role)
    · by_cases inside : item ∈ chosen
      · left
        obtain ⟨before, after, rfl⟩ := List.append_of_mem inside
        rw [Whole, rows_printed]
        exact ⟨frontRows reg role ++ before.flatMap rows, after.flatMap rows ++ marks.map marker ++ [[]],
          by simp⟩
      · right
        intro row inItem line listed same
        rw [lines_printed] at listed
        obtain ⟨original, printed, rfl⟩ := List.mem_map.mp listed
        rw [bare_chomp, bare_eq_self (item_plain holds member inItem)] at same
        have rank := item_rank holds member inItem
        rcases List.mem_append.mp printed with printed | marked
        · rcases List.mem_append.mp printed with essential | others
          · obtain ⟨zero, plain⟩ := (linesHold_iff.mp holds).1 original essential
            rw [same, bare_eq_self plain] at rank
            rcases rank with bullet | ranked
            · rw [rankOf_bullet bullet] at zero
              cases zero
            · rw [zero] at ranked
              exact absurd ranked (by decide)
          · obtain ⟨other, picked, inOther⟩ := List.mem_flatMap.mp others
            have also := sublist.subset picked
            rw [bare_eq_self (item_plain holds also inOther)] at same
            exact inside (item_shared holds member also inItem (same ▸ inOther) ▸ picked)
        · obtain ⟨dropped, -, rfl⟩ := List.mem_map.mp marked
          have plain : Plain (marker dropped) := by
            rw [Plain, getLast?_marker]
            decide
          rw [same, bare_eq_self plain] at rank
          rcases rank with bullet | ranked
          · exact not_bullet_marker dropped bullet
          · rw [rankOf_marker] at ranked
            exact absurd ranked (by decide)
  refused refused := by
    have exceeds := (project_none refused).2
    rw [render_eq, keptFrom_essential, dropped_items holds, holds.frontKept.essential_texts] at exceeds
    rw [refusal_eq]
    exact exceeds

end Enough

-----------------------------------------------------------------------------------------
-- Exactly when items stay whole
-----------------------------------------------------------------------------------------

/-- Every projection of a register for a role, whatever the counter and the budget, has the goal
and each item whole or not at all, and there is none only where the role, the goal and the marker
exceed the budget, exactly if the lines of the texts hold.
-/
theorem items_stay_whole (reg : Register) (role : List Char)
    : (∀ count budget, ItemsWhole reg role count budget) ↔ LinesHold reg role :=
  ⟨linesHold_of_whole, fun holds count budget => holds.itemsWhole count budget⟩

/-- A task whose goal has two lines. -/
def twoLineGoal : Register where
  id := ⟨"r"⟩
  taskId := "t"
  label := Label.bottom
  goal := "Reply to Ana\nMention invoice 2041 and the date"
  constraints := []
  evidence := []
  decisions := []
  openQuestions := []
  artefacts := []

/-- A token for each byte. -/
def byteTokens (text : List Char) : UInt32 := UInt32.ofNat (byteLength text)

private theorem twoLineGoal_projected
    : project (lower twoLineGoal "plan".toList) 60 byteTokens
      = some "ROLE: plan\nGOAL: Reply to Ana\n[PROJECTED: 1 lines dropped]\n".toList := by
  decide +kernel

/-- The second line of a goal is left out. -/
theorem goal_cut : ¬ItemsWhole twoLineGoal "plan".toList byteTokens 60 := by
  intro whole
  exact absurd (whole.goal _ twoLineGoal_projected) (by decide)

end VerticalAI.Correctness
