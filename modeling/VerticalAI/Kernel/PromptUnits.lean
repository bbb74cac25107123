import Mathlib.Data.Finset.Insert
import VerticalAI.Foundation.Rows
import VerticalAI.Kernel.Projection

/-! The units that a prompt is cut into, row by row, and what a projection that keeps some of them
prints.
-/

namespace VerticalAI.Kernel
open VerticalAI.Foundation VerticalAI.Foundation.Text VerticalAI.Contracts

-----------------------------------------------------------------------------------------
-- Ranks
-----------------------------------------------------------------------------------------

/-- The row continues a constraints heading. -/
abbrev IsBullet (row : List Char) : Prop := bullet.isPrefixOf row = true

/-- A line ending does not change the rank of a row. -/
theorem rankOf_chomp (row : List Char) : rankOf (chomp row) = rankOf row := by
  have same (tag : List Char) (absent : '\r' ∉ tag)
      : tag.isPrefixOf (chomp row) = tag.isPrefixOf row := isPrefixOf_chomp absent row
  simp only [rankOf, same roleTag (by decide), same goalTag (by decide),
    same decisionTag (by decide), same constraintsTag (by decide), same openTag (by decide),
    same evidenceTag (by decide)]

theorem isBullet_chomp {row : List Char} : IsBullet (chomp row) ↔ IsBullet row := by
  rw [IsBullet, IsBullet, isPrefixOf_chomp (by decide)]

/-- A bullet has the rank of lines without a tag. -/
theorem rankOf_bullet {row : List Char} (bullets : IsBullet row) : rankOf row = 5 := by
  obtain ⟨rest, rfl⟩ := List.isPrefixOf_iff_prefix.mp bullets
  rfl

theorem rankOf_marker (dropped : Nat) : rankOf (marker dropped) = 5 := rfl

/-- A marker is one line. -/
theorem not_mem_marker (dropped : Nat) : '\n' ∉ marker dropped := by
  have digits : '\n' ∉ Nat.toDigits 10 dropped := by
    intro member
    have digit : '\n'.isDigit = true :=
      Nat.isDigit_of_mem_toDigits (b := 10) (by decide) (by decide) member
    exact absurd digit (by decide)
  unfold marker
  rw [List.mem_append, List.mem_append, not_or, not_or]
  exact ⟨⟨by decide, digits⟩, by decide⟩

theorem getLast?_marker (dropped : Nat) : (marker dropped).getLast? = some ']' := by
  have ends : " lines dropped]".toList.getLast? = some ']' := by decide
  unfold marker
  rw [List.getLast?_append, ends]
  rfl

/-- Markers are rows, since each ends in its closing bracket. -/
theorem areRows_markers (marks : List Nat) : AreRows (marks.map marker) := by
  intro row member
  obtain ⟨dropped, -, rfl⟩ := List.mem_map.mp member
  exact not_mem_marker dropped

theorem rankOf_decision (rest : List Char) : rankOf (decisionTag ++ rest) = 1 := rfl

theorem rankOf_constraints : rankOf constraintsTag = 2 := rfl

theorem rankOf_open (rest : List Char) : rankOf (openTag ++ rest) = 3 := rfl

theorem rankOf_evidence (rest : List Char) : rankOf (evidenceTag ++ rest) = 4 := rfl

theorem not_bullet_of_rank {row : List Char} (rank : rankOf row ≠ 5) : ¬IsBullet row :=
  fun bullets => rank (rankOf_bullet bullets)

theorem not_bullet_marker (dropped : Nat) : ¬IsBullet (marker dropped) := nofun

-----------------------------------------------------------------------------------------
-- Gathering
-----------------------------------------------------------------------------------------

/-- A heading with the bullets that follow it. -/
def PromptUnit.headed (heading : PromptUnit) (bullets : List (List Char)) : PromptUnit :=
  bullets.foldl .extend heading

/-- The rows of a heading and its bullets, by induction on the bullets. -/
theorem PromptUnit.headed_rows (heading : PromptUnit) {bullets : List (List Char)}
    (areRows : AreRows bullets)
    : rows (heading.headed bullets).text = rows heading.text ++ bullets := by
  induction bullets generalizing heading with
  | nil => exact (List.append_nil _).symm
  | cons row rest ih =>
      have ⟨absent, later⟩ := List.forall_mem_cons.mp areRows
      have extended : rows (heading.extend row).text = rows heading.text ++ [row] := by
        rw [PromptUnit.extend, rows_append, rows_single absent]
      rw [PromptUnit.headed, List.foldl_cons, ← PromptUnit.headed, ih (heading.extend row) later,
        extended, List.append_assoc]
      rfl

/-- The bullets after an open heading go to it, by induction on them. -/
theorem gather_bullets (heading : PromptUnit) {bullets : List (List Char)}
    (all : ∀ row ∈ bullets, IsBullet row) (rest : List (List Char))
    : gather (some heading) (bullets ++ rest) = gather (some (heading.headed bullets)) rest := by
  induction bullets generalizing heading with
  | nil => rfl
  | cons row others ih =>
      have ⟨starts, later⟩ := List.forall_mem_cons.mp all
      rw [List.cons_append, gather, if_pos starts, ih (heading.extend row) later]
      rfl

/-- The next row is no bullet. -/
def NoBullet (rest : List (List Char)) : Prop := ∀ row, rest.head? = some row → ¬IsBullet row

/-- A heading is closed where no bullet follows. -/
theorem gather_closed (heading : PromptUnit) {rest : List (List Char)} (closed : NoBullet rest)
    : gather (some heading) rest = heading :: gather none rest := by
  cases rest with
  | nil => rfl
  | cons row others =>
      have plain : ¬IsBullet row := closed row rfl
      rw [gather, if_neg plain, gather]
      split <;> rfl

/-- Before a row that is no bullet the units are cut, by induction on the rows before it. -/
theorem gather_split (heading : Option PromptUnit) (before : List (List Char)) {row : List Char}
    (plain : ¬IsBullet row) (rest : List (List Char))
    : gather heading (before ++ row :: rest) = gather heading before ++ gather none (row :: rest) := by
  induction before generalizing heading with
  | nil =>
      cases heading with
      | none => rfl
      | some heading =>
          exact gather_closed heading fun other same => Option.some.inj same ▸ plain
  | cons first others ih =>
      cases heading with
      | none =>
          rw [List.cons_append, gather, gather]
          split
          · exact ih _
          · rw [ih, List.cons_append]
      | some heading =>
          rw [List.cons_append, gather, gather]
          split
          · exact ih _
          · split
            · rw [ih, List.cons_append]
            · rw [ih, List.cons_append, List.cons_append]

/-- Outside the constraints, a row that does not open them is a unit of its own. -/
theorem gather_line {row : List Char} (rank : rankOf row ≠ 2) (rest : List (List Char))
    : gather none (row :: rest) = .ofLine row :: gather none rest := by
  rw [gather, if_neg rank]

/-- Rows that are no headings are units of their own, by induction on them. -/
theorem gather_lines {front : List (List Char)} (ranks : ∀ row ∈ front, rankOf row ≠ 2)
    (rest : List (List Char))
    : gather none (front ++ rest) = front.map .ofLine ++ gather none rest := by
  induction front with
  | nil => rfl
  | cons row others ih =>
      have ⟨rank, later⟩ := List.forall_mem_cons.mp ranks
      rw [List.cons_append, gather_line rank, ih later]
      rfl

/-- The first unit is the first row and, if that is a heading, the bullets after it. -/
theorem gather_cons (row : List Char) (rest : List (List Char))
    : ∃ bullets others,
        rest = bullets ++ others ∧ (∀ other ∈ bullets, IsBullet other)
          ∧ (rankOf row ≠ 2 → bullets = []) ∧ (rankOf row = 2 → NoBullet others)
          ∧ gather none (row :: rest) = (PromptUnit.ofLine row).headed bullets :: gather none others := by
  by_cases heading : rankOf row = 2
  · have closed : NoBullet (rest.dropWhile (bullet.isPrefixOf ·)) := by
      intro other first bullets
      have plain := List.head?_dropWhile_not (bullet.isPrefixOf ·) rest
      rw [first] at plain
      exact Bool.false_ne_true (plain.symm.trans bullets)
    have all : ∀ other ∈ rest.takeWhile (bullet.isPrefixOf ·), IsBullet other :=
      fun other member => List.mem_takeWhile_imp member
    refine ⟨_, _, List.takeWhile_append_dropWhile.symm, all, fun other => absurd heading other,
      fun _ => closed, ?_⟩
    rw [gather, if_pos heading]
    calc gather (some (.ofLine row)) rest
        = gather (some (.ofLine row))
            (rest.takeWhile (bullet.isPrefixOf ·) ++ rest.dropWhile (bullet.isPrefixOf ·)) := by
          rw [List.takeWhile_append_dropWhile]
      _ = gather (some ((PromptUnit.ofLine row).headed (rest.takeWhile (bullet.isPrefixOf ·))))
            (rest.dropWhile (bullet.isPrefixOf ·)) := gather_bullets _ all _
      _ = _ := gather_closed _ closed
  · exact ⟨[], rest, rfl, fun _ none => absurd none List.not_mem_nil, fun _ => rfl,
      fun same => absurd same heading, gather_line heading rest⟩

/-- The essential units are the rows of rank 0, by induction on the rows. -/
theorem gather_essential (pieces : List (List Char)) (heading : Option PromptUnit)
    (ranked : ∀ unit, heading = some unit → unit.rank ≠ 0)
    : (gather heading pieces).filter (fun unit => unit.rank = 0)
      = (pieces.filter fun row => rankOf row = 0).map .ofLine := by
  induction pieces generalizing heading with
  | nil =>
      cases heading with
      | none => rfl
      | some unit =>
          have rank := ranked unit rfl
          simp [gather, rank]
  | cons row rest ih =>
      have opened : ∀ unit, some (PromptUnit.ofLine row) = some unit → rankOf row = 2
          → unit.rank ≠ 0 := by
        rintro unit same rank
        obtain rfl := Option.some.inj same
        rw [PromptUnit.ofLine, rank]
        exact two_ne_zero
      have none : ∀ unit, (none : Option PromptUnit) = some unit → unit.rank ≠ 0 := nofun
      cases heading with
      | none =>
          rw [gather]
          split
          · next rank =>
              rw [ih _ fun unit same => opened unit same rank]
              simp [rank]
          · by_cases zero : rankOf row = 0
            · simp [ih _ none, PromptUnit.ofLine, zero]
            · simp [ih _ none, PromptUnit.ofLine, zero]
      | some unit =>
          have rank := ranked unit rfl
          rw [gather]
          split
          · next bullets =>
              have extended : ∀ other, some (unit.extend row) = some other → other.rank ≠ 0 := by
                intro other same
                obtain rfl := Option.some.inj same
                exact rank
              have five := rankOf_bullet bullets
              rw [ih _ extended]
              simp [five]
          · split
            · next heads =>
                simp [rank, heads, ih _ fun unit same => opened unit same heads]
            · by_cases zero : rankOf row = 0
              · simp [ih _ none, PromptUnit.ofLine, zero, rank]
              · simp [ih _ none, PromptUnit.ofLine, zero, rank]

/-- The texts of the essential units are the rows of rank 0, in their order. -/
theorem essential_texts (pieces : List (List Char))
    : ((gather none pieces).filter fun unit => unit.rank = 0).map (·.text)
      = pieces.filter fun row => rankOf row = 0 := by
  rw [gather_essential pieces none nofun, List.map_map]
  exact List.map_id _

/-- Every row is a line of one unit, by induction on the rows. -/
theorem gather_count (pieces : List (List Char)) (heading : Option PromptUnit)
    : ((gather heading pieces).map (·.lines)).sum
      = (heading.toList.map (·.lines)).sum + pieces.length := by
  induction pieces generalizing heading with
  | nil =>
      cases heading with
      | none => rfl
      | some unit => rfl
  | cons row rest ih =>
      cases heading with
      | none =>
          rw [gather]
          split
          · simp [ih, PromptUnit.ofLine, Nat.add_comm]
          · simp [ih, PromptUnit.ofLine, Nat.add_comm]
      | some unit =>
          rw [gather]
          split
          · simp only [ih, PromptUnit.extend, Option.toList_some, List.map_cons, List.map_nil,
              List.sum_cons, List.sum_nil, List.length_cons]
            omega
          · split
            · simp [ih, PromptUnit.ofLine, Nat.add_comm]
            · simp [ih, PromptUnit.ofLine, Nat.add_comm]

-----------------------------------------------------------------------------------------
-- Kept units
-----------------------------------------------------------------------------------------

/-- The units that are kept of those from a place on. -/
def keptFrom (start : Nat) (units : List PromptUnit) (kept : Finset Nat) : List PromptUnit :=
  ((units.zipIdx start).filter (fun entry => entry.2 ∈ kept)).map (·.1)

section Kept

variable {units before after : List PromptUnit} {unit : PromptUnit} {kept : Finset Nat}
  {start place : Nat}

/-- What is kept of two lists is what is kept of each, the second counted on from the
first.
-/
theorem keptFrom_append
    : keptFrom start (before ++ after) kept
      = keptFrom start before kept ++ keptFrom (start + before.length) after kept := by
  rw [keptFrom, List.zipIdx_append, List.filter_append, List.map_append]
  rfl

theorem keptFrom_cons_of_mem (member : start ∈ kept)
    : keptFrom start (unit :: after) kept = unit :: keptFrom (start + 1) after kept := by
  simp [keptFrom, List.zipIdx_cons, member]

theorem keptFrom_cons_of_not_mem (absent : start ∉ kept)
    : keptFrom start (unit :: after) kept = keptFrom (start + 1) after kept := by
  simp [keptFrom, List.zipIdx_cons, absent]

/-- Keeping a unit that stands elsewhere changes nothing here. -/
theorem keptFrom_insert (elsewhere : place < start ∨ start + units.length ≤ place)
    : keptFrom start units (insert place kept) = keptFrom start units kept := by
  have same : (units.zipIdx start).filter (fun entry => entry.2 ∈ insert place kept)
      = (units.zipIdx start).filter (fun entry => entry.2 ∈ kept) := by
    refine List.filter_congr fun entry member => ?_
    have above := List.le_snd_of_mem_zipIdx member
    have below := List.snd_lt_add_of_mem_zipIdx member
    have different : entry.2 ≠ place := by omega
    exact decide_eq_decide.mpr (by rw [Finset.mem_insert, or_iff_right different])
  rw [keptFrom, same, keptFrom]

/-- Units are kept in the order in which they stood. -/
theorem keptFrom_sublist (start : Nat) (units : List PromptUnit) (kept : Finset Nat)
    : (keptFrom start units kept).Sublist units := by
  have chosen := (List.filter_sublist (p := fun entry => decide (entry.2 ∈ kept))
    (l := units.zipIdx start)).map (·.1)
  rwa [List.zipIdx_map_fst] at chosen

/-- Where every unit is kept, all are printed. -/
theorem keptFrom_all (every : ∀ i, i < units.length → start + i ∈ kept)
    : keptFrom start units kept = units := by
  have chosen : (units.zipIdx start).filter (fun entry => entry.2 ∈ kept) = units.zipIdx start := by
    refine List.filter_eq_self.mpr fun entry member => decide_eq_true ?_
    obtain ⟨above, stands⟩ := List.mem_zipIdx_iff_le_and_getElem?_sub.mp member
    rw [← Nat.add_sub_cancel' above]
    exact every _ (List.getElem?_eq_some_iff.mp stands).1
  rw [keptFrom, chosen, List.zipIdx_map_fst]

/-- A unit that is not kept is not printed. -/
theorem keptFrom_without (absent : before.length ∉ kept)
    : keptFrom 0 (before ++ unit :: after) kept
      = keptFrom 0 before kept ++ keptFrom (before.length + 1) after kept := by
  rw [keptFrom_append, Nat.zero_add, keptFrom_cons_of_not_mem absent]

/-- One more unit is printed in its place. -/
theorem keptFrom_insert_self
    : keptFrom 0 (before ++ unit :: after) (insert before.length kept)
      = keptFrom 0 before kept ++ unit :: keptFrom (before.length + 1) after kept := by
  rw [keptFrom_append, Nat.zero_add, keptFrom_insert (Or.inr (by omega)),
    keptFrom_cons_of_mem (Finset.mem_insert_self _ _), keptFrom_insert (Or.inl (by omega))]

/-- Where the units of rank 0 are the kept ones, they are printed. -/
theorem keptFrom_filter
    (same : ∀ i unit, units[i]? = some unit → (start + i ∈ kept ↔ unit.rank = 0))
    : keptFrom start units kept = units.filter fun unit => unit.rank = 0 := by
  have chosen : (units.zipIdx start).filter (fun entry => entry.2 ∈ kept)
      = (units.zipIdx start).filter ((fun unit => decide (unit.rank = 0)) ∘ Prod.fst) := by
    refine List.filter_congr fun entry member => decide_eq_decide.mpr ?_
    obtain ⟨above, stands⟩ := List.mem_zipIdx_iff_le_and_getElem?_sub.mp member
    rw [← same _ entry.1 stands, Nat.add_sub_cancel' above]
  rw [keptFrom, chosen, ← List.filter_map, List.zipIdx_map_fst]

/-- What is printed are the texts of the kept units and the marker. -/
theorem render_eq (units : List PromptUnit) (kept : Finset Nat) (markerLine : Option (List Char))
    : render units kept markerLine
      = unrows ((keptFrom 0 units kept).map (·.text) ++ markerLine.toList) := by
  rw [unrows_append, render, keptFrom, List.map_map, unrows, unrows, List.flatMap_map]
  rfl

/-- One more unit makes what is printed longer. -/
theorem length_render_insert (inside : place < units.length) (absent : place ∉ kept)
    (markerLine : Option (List Char))
    : (render units kept markerLine).length < (render units (insert place kept) markerLine).length := by
  have cut : units = units.take place ++ units[place] :: units.drop (place + 1) := by
    rw [List.getElem_cons_drop, List.take_append_drop]
  have stands : (units.take place).length = place := List.length_take_of_le inside.le
  generalize units.take place = before, units[place] = unit, units.drop (place + 1) = after
    at cut stands
  subst cut stands
  rw [render_eq, render_eq, keptFrom_without absent, keptFrom_insert_self]
  simp only [unrows, List.map_append, List.map_cons, List.append_assoc, List.cons_append,
    List.flatMap_append, List.flatMap_cons, List.length_append, List.length_cons, List.nil_append]
  omega

-----------------------------------------------------------------------------------------
-- The essential units
-----------------------------------------------------------------------------------------

/-- The essential units are those of rank 0. -/
theorem mem_essential (stands : units[place]? = some unit)
    : place ∈ essential units ↔ unit.rank = 0 := by
  rw [essential, List.mem_toFinset, List.mem_map]
  constructor
  · rintro ⟨⟨other, at_place⟩, member, rfl⟩
    obtain ⟨there, rank⟩ := List.mem_filter.mp member
    obtain rfl := Option.some.inj (stands.symm.trans (List.mk_mem_zipIdx_iff_getElem?.mp there))
    exact of_decide_eq_true rank
  · intro rank
    exact ⟨(unit, place), List.mem_filter.mpr
      ⟨List.mk_mem_zipIdx_iff_getElem?.mpr stands, decide_eq_true rank⟩, rfl⟩

/-- Keeping the essential units is filtering by rank. -/
theorem keptFrom_essential (units : List PromptUnit)
    : keptFrom 0 units (essential units) = units.filter fun unit => unit.rank = 0 :=
  keptFrom_filter fun i unit stands => by rw [Nat.zero_add, mem_essential stands]

/-- The essential units and one more, in their order. -/
theorem keptFrom_insert_essential
    : keptFrom 0 (before ++ unit :: after) (insert before.length (essential (before ++ unit :: after)))
      = (before.filter fun unit => unit.rank = 0) ++ unit
        :: after.filter fun unit => unit.rank = 0 := by
  have first : keptFrom 0 before (essential (before ++ unit :: after))
      = before.filter fun unit => unit.rank = 0 := by
    refine keptFrom_filter fun i unit stands => ?_
    obtain ⟨inside, -⟩ := List.getElem?_eq_some_iff.mp stands
    rw [Nat.zero_add, mem_essential ((List.getElem?_append_left inside).trans stands)]
  have last : keptFrom (before.length + 1) after (essential (before ++ unit :: after))
      = after.filter fun unit => unit.rank = 0 := by
    refine keptFrom_filter fun i unit stands => mem_essential ?_
    rw [List.getElem?_append_right (by omega), Nat.add_assoc, Nat.add_sub_cancel_left, Nat.add_comm,
      List.getElem?_cons_succ]
    exact stands
  rw [keptFrom_insert_self, first, last]

/-- What is left out beside the essential units are the lines of the others. -/
theorem droppedLines_essential (units : List PromptUnit)
    : droppedLines units (essential units)
      = ((units.filter fun unit => unit.rank ≠ 0).map (·.lines)).sum := by
  have same : units.zipIdx.filter (fun entry => entry.2 ∉ essential units)
      = units.zipIdx.filter ((fun unit => decide (unit.rank ≠ 0)) ∘ Prod.fst) := by
    refine List.filter_congr fun entry member => ?_
    have stands : units[entry.2]? = some entry.1 := List.mem_zipIdx_iff_getElem?.mp member
    exact decide_eq_decide.mpr (not_congr (mem_essential stands))
  have texts : units.zipIdx.map (·.1) = units := List.zipIdx_map_fst 0 units
  calc droppedLines units (essential units)
      = (((units.zipIdx.filter ((fun unit => decide (unit.rank ≠ 0)) ∘ Prod.fst)).map
          Prod.fst).map (·.lines)).sum := by rw [droppedLines, same, List.map_map]; rfl
    _ = _ := by rw [← List.filter_map, texts]

/-- The places that are admitted one after another are those of the other units. -/
theorem mem_admissionOrder
    : place ∈ admissionOrder units ↔ ∃ unit, units[place]? = some unit ∧ unit.rank ≠ 0 := by
  rw [admissionOrder, List.mem_map]
  constructor
  · rintro ⟨⟨unit, at_place⟩, member, rfl⟩
    obtain ⟨there, rank⟩ := List.mem_filter.mp (List.mem_mergeSort.mp member)
    exact ⟨unit, List.mk_mem_zipIdx_iff_getElem?.mp there, of_decide_eq_true rank⟩
  · rintro ⟨unit, stands, rank⟩
    exact ⟨(unit, place), List.mem_mergeSort.mpr (List.mem_filter.mpr
      ⟨List.mk_mem_zipIdx_iff_getElem?.mpr stands, decide_eq_true rank⟩), rfl⟩

-----------------------------------------------------------------------------------------
-- Admitting one unit
-----------------------------------------------------------------------------------------

/-- A counter that only these two texts are free under. -/
def onlyFree (first second : List Char) (text : List Char) : UInt32 :=
  if text = first ∨ text = second then 0 else 1

theorem onlyFree_fits {first second text : List Char}
    : onlyFree first second text ≤ 0 ↔ text = first ∨ text = second := by
  unfold onlyFree
  split
  · next free => exact ⟨fun _ => free, fun _ => UInt32.le_refl 0⟩
  · next none => exact ⟨fun fits => absurd fits (by decide), fun free => absurd free none⟩

/-- One place was admitted, and what is printed with it is this text. -/
def AdmitsOne (units : List PromptUnit) (reserved withUnit : List Char) (kept : Finset Nat)
    : Prop :=
  ∃ place, place ∉ essential units ∧ place < units.length
    ∧ kept = insert place (essential units) ∧ render units kept (some reserved) = withUnit

variable {reserved withUnit : List Char}

/-- Where one unit fits beside the essential ones, no second one does, by cases on the place. -/
theorem AdmitsOne.keepIfFits (admits : AdmitsOne units reserved withUnit kept)
    (inside : place < units.length)
    : AdmitsOne units reserved withUnit
        (Kernel.keepIfFits units reserved 0
          (onlyFree (render units (essential units) (some reserved)) withUnit) kept place) := by
  unfold Kernel.keepIfFits
  split
  · exact admits
  · next fits =>
      by_cases there : place ∈ kept
      · rwa [Finset.insert_eq_of_mem there]
      · obtain ⟨chosen, other, within, rfl, printed⟩ := admits
        have longer := length_render_insert inside there (some reserved)
        have shorter := length_render_insert within other (some reserved)
        rcases onlyFree_fits.mp (UInt32.not_lt.mp fits) with same | same
        · rw [same] at longer
          omega
        · rw [same, ← printed] at longer
          omega

/-- Admitting units one after another admits the one that fits, by induction on their places. -/
theorem admitsOne_foldl (order : List Nat)
    (others : ∀ place ∈ order, place < units.length ∧ place ∉ essential units)
    (start : kept = essential units ∨ AdmitsOne units reserved withUnit kept)
    (fits : AdmitsOne units reserved withUnit kept
      ∨ ∃ place ∈ order, render units (insert place (essential units)) (some reserved) = withUnit)
    : AdmitsOne units reserved withUnit
        (order.foldl (Kernel.keepIfFits units reserved 0
          (onlyFree (render units (essential units) (some reserved)) withUnit)) kept) := by
  induction order generalizing kept with
  | nil =>
      rcases fits with admits | ⟨_, none, -⟩
      · exact admits
      · cases none
  | cons place rest ih =>
      have ⟨⟨inside, absent⟩, later⟩ := List.forall_mem_cons.mp others
      rcases start with rfl | admits
      · by_cases free : render units (insert place (essential units)) (some reserved) = withUnit
        · have admits : AdmitsOne units reserved withUnit
              (Kernel.keepIfFits units reserved 0
                (onlyFree (render units (essential units) (some reserved)) withUnit)
                (essential units) place) := by
            have fit : ¬0 < onlyFree (render units (essential units) (some reserved)) withUnit
                (render units (insert place (essential units)) (some reserved)) :=
              UInt32.not_lt.mpr (onlyFree_fits.mpr (Or.inr free))
            rw [Kernel.keepIfFits, if_neg fit]
            exact ⟨place, absent, inside, rfl, free⟩
          exact ih later (Or.inr admits) (Or.inl admits)
        · have refused : Kernel.keepIfFits units reserved 0
              (onlyFree (render units (essential units) (some reserved)) withUnit)
              (essential units) place = essential units := by
            have longer := length_render_insert inside absent (some reserved)
            unfold Kernel.keepIfFits
            split
            · rfl
            · next fit =>
                rcases onlyFree_fits.mp (UInt32.not_lt.mp fit) with same | same
                · rw [same] at longer
                  exact absurd longer (lt_irrefl _)
                · exact absurd same free
          rw [List.foldl_cons, refused]
          refine ih later (Or.inl rfl) ?_
          rcases fits with admits | ⟨other, listed, free⟩
          · exact Or.inl admits
          · rcases List.mem_cons.mp listed with rfl | listed
            · contradiction
            · exact Or.inr ⟨other, listed, free⟩
      · have further := admits.keepIfFits inside
        exact ih later (Or.inr further) (Or.inl further)

end Kept

/-- Some counter makes a projection keep exactly one unit beside the essential ones: any unit, where
the prompt itself is not what is printed.
-/
theorem project_admits {prompt : List Char} {before after : List PromptUnit} {unit : PromptUnit}
    (cut : unitsOf prompt = before ++ unit :: after) (rank : unit.rank ≠ 0)
    (apart : ∀ dropped, prompt ≠ unrows
      (((unitsOf prompt).filter fun unit => unit.rank = 0).map (·.text) ++ [marker dropped]))
    (differs : ∀ dropped, prompt ≠ unrows
      (((before.filter fun unit => unit.rank = 0) ++ unit
        :: after.filter fun unit => unit.rank = 0).map (·.text) ++ [marker dropped]))
    : ∃ count marks, project prompt 0 count = some (unrows
        (((before.filter fun unit => unit.rank = 0) ++ unit
          :: after.filter fun unit => unit.rank = 0).map (·.text) ++ (marks : List Nat).map marker)) := by
  let units := unitsOf prompt
  let dropped := droppedLines units (essential units)
  let withUnit := render units (insert before.length (essential units)) (some (marker dropped))
  let count := onlyFree (render units (essential units) (some (marker dropped))) withUnit
  have printed (kept : Finset Nat) (marks : List Nat) (markerLine : Option (List Char))
      (named : markerLine.toList = marks.map marker)
      : render units kept markerLine
        = unrows ((keptFrom 0 units kept).map (·.text) ++ marks.map marker) := by
    rw [render_eq, named]
  have chosen : keptFrom 0 units (insert before.length (essential units))
      = (before.filter fun unit => unit.rank = 0) ++ unit
        :: after.filter fun unit => unit.rank = 0 := by
    change keptFrom 0 (unitsOf prompt) (insert before.length (essential (unitsOf prompt))) = _
    rw [cut]
    exact keptFrom_insert_essential
  have stands : units[before.length]? = some unit := by
    change (unitsOf prompt)[before.length]? = _
    rw [cut, List.getElem?_append_right (le_refl _), Nat.sub_self, List.getElem?_cons_zero]
  have tooLong : 0 < count prompt := by
    refine UInt32.not_le.mp fun fits => ?_
    rcases onlyFree_fits.mp fits with same | same
    · rw [printed _ [dropped] _ rfl, keptFrom_essential] at same
      exact apart dropped same
    · rw [show withUnit = _ from printed _ [dropped] _ rfl, chosen] at same
      exact differs dropped same
  have free : ¬0 < count (render units (essential units) (some (marker dropped))) :=
    UInt32.not_lt.mpr (onlyFree_fits.mpr (Or.inl rfl))
  have inside : before.length < units.length := (List.getElem?_eq_some_iff.mp stands).1
  have admits : AdmitsOne units (marker dropped) withUnit
      ((admissionOrder units).foldl (keepIfFits units (marker dropped) 0 count) (essential units)) := by
    refine admitsOne_foldl _ (fun place listed => ?_) (Or.inl rfl)
      (Or.inr ⟨before.length, mem_admissionOrder.mpr ⟨unit, stands, rank⟩, rfl⟩)
    obtain ⟨other, there, ranked⟩ := mem_admissionOrder.mp listed
    exact ⟨(List.getElem?_eq_some_iff.mp there).1, fun member => ranked ((mem_essential there).mp member)⟩
  refine ⟨count, ?_⟩
  generalize result : (admissionOrder units).foldl (keepIfFits units (marker dropped) 0 count)
    (essential units) = kept at admits
  obtain ⟨place, -, -, -, same⟩ := admits
  have texts : unrows ((keptFrom 0 units kept).map (·.text))
      = unrows ((keptFrom 0 units (insert before.length (essential units))).map (·.text)) := by
    rw [show withUnit = _ from printed _ [dropped] _ rfl, printed _ [dropped] _ rfl, unrows_append,
      unrows_append] at same
    exact List.append_cancel_right same
  have projected : project prompt 0 count
      = some (if droppedLines units kept = 0 then render units kept none
        else render units kept (some (marker (droppedLines units kept)))) := by
    rw [project, if_neg (UInt32.not_le.mpr tooLong)]
    dsimp only
    rw [if_neg free, result]
  rw [projected]
  split
  · refine ⟨[], congrArg some ?_⟩
    rw [printed _ [] _ rfl, unrows_append, texts, chosen, unrows_append]
  · refine ⟨[droppedLines units kept], congrArg some ?_⟩
    rw [printed _ [droppedLines units kept] _ rfl, unrows_append, texts, chosen, unrows_append]

end VerticalAI.Kernel
