import Mathlib.Data.List.Flatten
import VerticalAI.Foundation.Greedy
import VerticalAI.Kernel.PromptUnits

/-! A projection line by line: the units are the lines of the prompt, and what is printed of them
and counted as left out.
-/

namespace VerticalAI.Kernel
open VerticalAI.Foundation VerticalAI.Foundation.Text VerticalAI.Contracts

/-- A text that ends in a line break and has no carriage return is its lines, written out. -/
theorem unrows_lines {text : List Char} (plain : '\r' ∉ text) (ended : text.getLast? = some '\n')
    : unrows (lines text) = text ∧ AreRows (lines text) := by
  obtain ⟨front, rfl⟩ := List.getLast?_eq_some_iff.mp ended
  have kept : (rows front).map chomp = rows front := by
    refine map_chomp_eq_self_iff.mpr fun row member ends => plain ?_
    rw [← unrows_rows]
    exact List.mem_flatMap.mpr
      ⟨row, member, List.mem_append_left _ (List.mem_of_getLast? ends)⟩
  rw [← unrows_rows, lines_unrows (rows_areRows front), kept]
  exact ⟨rfl, rows_areRows front⟩

/-- The lines of some units. -/
def unitLines (units : List PromptUnit)
    : List (List Char) := units.flatMap fun unit => rows unit.text

theorem unitLines_cons (unit : PromptUnit) (others : List PromptUnit)
    : unitLines (unit :: others) = rows unit.text ++ unitLines others := List.flatMap_cons

theorem rows_extend (unit : PromptUnit) {row : List Char} (absent : '\n' ∉ row)
    : rows (unit.extend row).text = rows unit.text ++ [row] := by
  rw [PromptUnit.extend, rows_append, rows_single absent]

/-- Gathering lines into units loses none and keeps their order, by induction on them. -/
theorem unitLines_gather {pieces : List (List Char)} (areRows : AreRows pieces)
    (heading : Option PromptUnit)
    : unitLines (gather heading pieces) = unitLines heading.toList ++ pieces := by
  induction pieces generalizing heading with
  | nil => exact (List.append_nil _).symm
  | cons row rest ih =>
      have ⟨absent, later⟩ := List.forall_mem_cons.mp areRows
      have single : unitLines [PromptUnit.ofLine row] = [row] := by
        rw [unitLines_cons, PromptUnit.ofLine, rows_single absent]
        rfl
      have alone : unitLines (PromptUnit.ofLine row :: gather none rest) = row :: rest := by
        rw [unitLines_cons, PromptUnit.ofLine, rows_single absent, ih later]
        rfl
      cases heading with
      | none =>
          rw [gather]
          split
          · rw [ih later, Option.toList_some, single]
            rfl
          · exact alone
      | some unit =>
          rw [gather]
          split
          · rw [ih later, Option.toList_some, Option.toList_some, unitLines_cons, unitLines_cons,
              rows_extend unit absent, List.append_assoc, List.append_assoc, List.append_assoc]
            rfl
          · split
            · rw [unitLines_cons, ih later, Option.toList_some, single, Option.toList_some,
                unitLines_cons, List.append_assoc]
              rfl
            · rw [unitLines_cons, alone, Option.toList_some, unitLines_cons, List.append_assoc]
              rfl

/-- The unit knows how many lines it has. -/
def PromptUnit.Measured (unit : PromptUnit) : Prop := unit.lines = (rows unit.text).length

theorem PromptUnit.measured_ofLine {row : List Char} (absent : '\n' ∉ row)
    : (PromptUnit.ofLine row).Measured := by
  rw [Measured, ofLine, rows_single absent]
  rfl

/-- Gathered units know it, by induction on the lines. -/
theorem measured_gather {pieces : List (List Char)} (areRows : AreRows pieces)
    {heading : Option PromptUnit} (known : ∀ unit ∈ heading.toList, unit.Measured)
    : ∀ unit ∈ gather heading pieces, unit.Measured := by
  induction pieces generalizing heading with
  | nil => exact known
  | cons row rest ih =>
      have ⟨absent, later⟩ := List.forall_mem_cons.mp areRows
      have line := PromptUnit.measured_ofLine absent
      have opened : ∀ unit ∈ gather (some (.ofLine row)) rest, unit.Measured :=
        ih later (List.forall_mem_singleton.mpr line)
      have alone : ∀ unit ∈ PromptUnit.ofLine row :: gather none rest, unit.Measured :=
        List.forall_mem_cons.mpr ⟨line, ih later fun _ none => absurd none List.not_mem_nil⟩
      cases heading with
      | none =>
          rw [gather]
          split
          · exact opened
          · exact alone
      | some unit =>
          have measured := known unit (List.mem_singleton_self unit)
          rw [gather]
          split
          · refine ih later (List.forall_mem_singleton.mpr ?_)
            rw [PromptUnit.Measured, rows_extend unit absent, List.length_append, ← measured]
            rfl
          · split
            · exact List.forall_mem_cons.mpr ⟨measured, opened⟩
            · exact List.forall_mem_cons.mpr ⟨measured, alone⟩

/-- The lines of the kept units. -/
def keptLines (units : List PromptUnit) (kept : Finset Nat) : List (List Char) :=
  unitLines (keptFrom 0 units kept)

theorem unitLines_sublist {fewer more : List PromptUnit} (sublist : fewer.Sublist more)
    : (unitLines fewer).Sublist (unitLines more) :=
  sublist.flatMap _

theorem keptFrom_subset {units : List PromptUnit} {fewer more : Finset Nat} (subset : fewer ⊆ more)
    : (keptFrom 0 units fewer).Sublist (keptFrom 0 units more) := by
  refine List.Sublist.map _ (List.monotone_filter_right _ fun entry chosen => ?_)
  rw [decide_eq_true_eq] at chosen ⊢
  exact subset chosen

/-- What is printed are the lines of the kept units and the marker. -/
theorem render_lines (units : List PromptUnit) (kept : Finset Nat) {markerLine : Option (List Char)}
    (single : ∀ line ∈ markerLine.toList, '\n' ∉ line)
    : render units kept markerLine = unrows (keptLines units kept ++ markerLine.toList) := by
  have marked : markerLine.toList.flatMap rows = markerLine.toList := AreRows.flatMap_rows single
  rw [render_eq, ← unrows_flatMap_rows, List.flatMap_append, marked, List.flatMap_map]
  rfl

/-- Every line is kept or counted as left out. -/
theorem droppedLines_add {units : List PromptUnit} (measured : ∀ unit ∈ units, unit.Measured)
    (kept : Finset Nat)
    : droppedLines units kept + (keptLines units kept).length = (unitLines units).length := by
  have entries : ∀ entry ∈ units.zipIdx, entry.1.lines = (rows entry.1.text).length :=
    fun entry member => measured entry.1 (List.fst_mem_of_mem_zipIdx member)
  have counted (chosen : PromptUnit × Nat → Bool)
      : ((units.zipIdx.filter chosen).map (·.1.lines)).sum
        = ((units.zipIdx.filter chosen).map fun entry => (rows entry.1.text).length).sum := by
    refine congrArg List.sum (List.map_congr_left fun entry member => ?_)
    exact entries entry (List.mem_of_mem_filter member)
  have all : (unitLines units).length
      = ((units.zipIdx).map fun entry => (rows entry.1.text).length).sum := by
    have texts : units = units.zipIdx.map (·.1) := (List.zipIdx_map_fst 0 units).symm
    conv_lhs => rw [texts]
    rw [unitLines, List.length_flatMap, List.map_map]
    rfl
  have here : (keptLines units kept).length
      = ((units.zipIdx.filter fun entry => entry.2 ∈ kept).map
          fun entry => (rows entry.1.text).length).sum := by
    rw [keptLines, unitLines, keptFrom, List.length_flatMap, List.map_map]
    rfl
  have parted := ((List.filter_append_perm (fun entry => decide (entry.2 ∉ kept)) units.zipIdx).map
    fun entry => (rows entry.1.text).length).sum_eq
  rw [List.map_append, List.sum_append] at parted
  rw [droppedLines, counted, here, all, ← parted]
  simp only [decide_not, Bool.not_not]

section Admission

variable {units : List PromptUnit} {reserved : List Char} {budget : UInt32}
  {count : List Char → UInt32}

/-- A unit is kept if what is printed with it and the widest marker fits. -/
theorem keepIfFits_eq
    : keepIfFits units reserved budget count
      = Greedy.accept fun kept => count (render units kept (some reserved)) ≤ budget := by
  funext kept place
  unfold keepIfFits Greedy.accept
  split
  · next exceeds => rw [if_neg (UInt32.not_le.mpr exceeds)]
  · next fits => rw [if_pos (UInt32.not_lt.mp fits)]

theorem byteLength_sublist {first second : List Char} (sublist : first.Sublist second)
    : byteLength first ≤ byteLength second :=
  (sublist.flatMap String.utf8EncodeChar).length_le

/-- Keeping more prints no less. -/
theorem byteLength_render_mono (units : List PromptUnit) {fewer more : Finset Nat}
    (subset : fewer ⊆ more) (markerLine : Option (List Char))
    : byteLength (render units fewer markerLine) ≤ byteLength (render units more markerLine) := by
  rw [render_eq, render_eq]
  refine byteLength_sublist (List.Sublist.flatMap ?_ _)
  exact ((keptFrom_subset subset).map _).append (List.Sublist.refl _)

theorem essential_subset_chosenUnits
    : essential units ⊆ chosenUnits units budget count := by
  rw [chosenUnits, keepIfFits_eq]
  exact Greedy.subset_foldl _

/-- A unit that was left out does not fit beside the chosen ones and the widest marker. -/
theorem chosenUnits_maximal (bytes : CountsBytes count) {place : Nat}
    (inside : place < units.length)
    (left : place ∉ chosenUnits units budget count)
    : budget < count (render units (insert place (chosenUnits units budget count))
        (some (marker (droppedLines units (essential units))))) := by
  have listed : place ∈ admissionOrder units := by
    refine mem_admissionOrder.mpr ⟨units[place], List.getElem?_eq_getElem inside, fun zero => left ?_⟩
    exact essential_subset_chosenUnits
      ((mem_essential (List.getElem?_eq_getElem inside)).mpr zero)
  rw [chosenUnits, keepIfFits_eq] at left ⊢
  refine UInt32.not_le.mp (Greedy.not_fits_insert ?_ listed left)
  intro fewer more subset fits
  exact UInt32.le_trans (bytes _ _ (byteLength_render_mono units subset _)) fits

end Admission

end VerticalAI.Kernel
