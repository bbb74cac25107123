import VerticalAI.Kernel.PromptLines

/-! Projecting a prompt: some of its lines in their order, the role and the goal always among
them, with the number of the lines left out, and no unit less than there is room for.
-/

namespace VerticalAI.Correctness
open VerticalAI.Foundation VerticalAI.Foundation.Text VerticalAI.Contracts VerticalAI.Kernel

/-- The line says what the call is. -/
def IsFront (line : List Char) : Prop := roleTag <+: line ∨ goalTag <+: line

instance : DecidablePred IsFront := fun _ => inferInstanceAs (Decidable (_ ∨ _))

/-- The lines of the role and the goal. -/
def frontLines (prompt : List Char) : List (List Char) := (lines prompt).filter IsFront

/-- The widest marker that there can be: all other lines are left out. -/
def reservedMarker (prompt : List Char) : List Char :=
  marker ((lines prompt).countP fun line => ¬IsFront line)

/-- The text has the lines of some units of the prompt, in order and unchanged, and a marker with
the number of the others. All lines of the front are there, and no further unit would fit.
-/
structure Projects (prompt : List Char) (budget : UInt32) (count : List Char → UInt32)
    (kept : Finset Nat) (text : List Char) : Prop where
  ordered : (keptLines (unitsOf prompt) kept).Sublist (lines prompt)
  fewer : (keptLines (unitsOf prompt) kept).length < (lines prompt).length
  printed : text = unrows (keptLines (unitsOf prompt) kept
    ++ [marker ((lines prompt).length - (keptLines (unitsOf prompt) kept).length)])
  front : (frontLines prompt).Sublist (keptLines (unitsOf prompt) kept)
  maximal : ∀ place < (unitsOf prompt).length, place ∉ kept
    → budget < count (unrows (keptLines (unitsOf prompt) (insert place kept) ++ [reservedMarker prompt]))

/-- What a projection owes to the prompt, which is its lines and the lines of its units. -/
structure Honest (prompt : List Char) (budget : UInt32) (count : List Char → UInt32) : Prop where
  written : unrows (lines prompt) = prompt
  parted : unitLines (unitsOf prompt) = lines prompt
  fits : ∀ text, project prompt budget count = some text → count text ≤ budget
  projects : ∀ text, project prompt budget count = some text
    → text = prompt ∨ ∃ kept, Projects prompt budget count kept text
  refused : project prompt budget count = none
    ↔ budget < count prompt ∧ budget < count (unrows (frontLines prompt ++ [reservedMarker prompt]))

theorem rankOf_eq_zero_iff {line : List Char} : rankOf line = 0 ↔ IsFront line := by
  unfold rankOf IsFront
  rw [← List.isPrefixOf_iff_prefix, ← List.isPrefixOf_iff_prefix, ← Bool.or_eq_true]
  split_ifs with front <;> simp [front]

section Units

variable {prompt : List Char}

/-- The lines of the essential units are those of the role and the goal. -/
theorem keptLines_essential (areRows : AreRows (lines prompt))
    : keptLines (unitsOf prompt) (essential (unitsOf prompt)) = frontLines prompt := by
  have front : (lines prompt).filter (fun line => rankOf line = 0) = frontLines prompt :=
    List.filter_congr fun line _ => decide_eq_decide.mpr rankOf_eq_zero_iff
  have rowsFront : AreRows (frontLines prompt) :=
    fun row member => areRows row (List.mem_of_mem_filter member)
  calc keptLines (unitsOf prompt) (essential (unitsOf prompt))
      = (((unitsOf prompt).filter fun unit => unit.rank = 0).map (·.text)).flatMap rows := by
        rw [keptLines, keptFrom_essential, unitLines, List.flatMap_map]
    _ = (frontLines prompt).flatMap rows := by rw [unitsOf, essential_texts, front]
    _ = frontLines prompt := rowsFront.flatMap_rows

variable (areRows : AreRows (lines prompt))
include areRows

theorem unitLines_unitsOf
    : unitLines (unitsOf prompt) = lines prompt := unitLines_gather areRows none

/-- The lines that are left out are the ones that are not kept. -/
theorem droppedLines_unitsOf (kept : Finset Nat)
    : droppedLines (unitsOf prompt) kept
      = (lines prompt).length - (keptLines (unitsOf prompt) kept).length := by
  have measured : ∀ unit ∈ unitsOf prompt, unit.Measured :=
    measured_gather areRows fun _ none => absurd none List.not_mem_nil
  have counted := droppedLines_add measured kept
  rw [unitLines_unitsOf areRows] at counted
  omega

theorem keptLines_sublist (kept : Finset Nat)
    : (keptLines (unitsOf prompt) kept).Sublist (lines prompt) := by
  have sublist := unitLines_sublist (keptFrom_sublist 0 (unitsOf prompt) kept)
  rwa [unitLines_unitsOf areRows] at sublist

/-- The marker that is reserved is that of all lines but those of the role and the goal. -/
theorem marker_reserved
    : marker (droppedLines (unitsOf prompt) (essential (unitsOf prompt))) = reservedMarker prompt := by
  have parts : (lines prompt).length = (lines prompt).countP (fun line => decide (IsFront line))
      + (lines prompt).countP fun line => decide ¬IsFront line := by
    have counted :=
      List.length_eq_countP_add_countP (fun line => decide (IsFront line)) (l := lines prompt)
    simpa only [decide_eq_true_eq] using counted
  rw [droppedLines_unitsOf areRows, keptLines_essential areRows, frontLines,
    ← List.countP_eq_length_filter, parts, Nat.add_sub_cancel_left, reservedMarker]

theorem render_reserved (kept : Finset Nat)
    : render (unitsOf prompt) kept
        (some (marker (droppedLines (unitsOf prompt) (essential (unitsOf prompt)))))
      = unrows (keptLines (unitsOf prompt) kept ++ [reservedMarker prompt]) := by
  have single : ∀ line ∈ (some (marker (droppedLines (unitsOf prompt)
      (essential (unitsOf prompt))))).toList, '\n' ∉ line :=
    List.forall_mem_singleton.mpr (not_mem_marker _)
  rw [render_lines _ _ single, Option.toList_some, marker_reserved areRows]

end Units

section Projections

variable {prompt text : List Char} {budget : UInt32} {count : List Char → UInt32}

/-- The role and the goal are among the lines of whatever keeps the essential units. -/
theorem frontLines_sublist (areRows : AreRows (lines prompt)) {kept : Finset Nat}
    (subset : essential (unitsOf prompt) ⊆ kept)
    : (frontLines prompt).Sublist (keptLines (unitsOf prompt) kept) := by
  rw [← keptLines_essential areRows]
  exact unitLines_sublist (keptFrom_subset subset)

/-- Where the prompt is too long, what is printed is the prompt, if nothing is left out, or a
projection of the chosen units.
-/
theorem projects_chosen (bytes : CountsBytes count) (areRows : AreRows (lines prompt))
    (written : unrows (lines prompt) = prompt) (exceeds : budget < count prompt)
    (projected : project prompt budget count = some text)
    : text = prompt
      ∨ Projects prompt budget count (chosenUnits (unitsOf prompt) budget count) text := by
  have printed := project_chosen exceeds projected
  have chosen : essential (unitsOf prompt) ⊆ chosenUnits (unitsOf prompt) budget count :=
    essential_subset_chosenUnits
  have front := frontLines_sublist areRows chosen
  have ordered := keptLines_sublist areRows (chosenUnits (unitsOf prompt) budget count)
  have dropped := droppedLines_unitsOf areRows (chosenUnits (unitsOf prompt) budget count)
  rw [markerOf] at printed
  split at printed
  · next all =>
      left
      have every : (lines prompt).length
          ≤ (keptLines (unitsOf prompt) (chosenUnits (unitsOf prompt) budget count)).length := by
        omega
      have single : ∀ line ∈ (none : Option (List Char)).toList, '\n' ∉ line :=
        fun _ member => absurd member List.not_mem_nil
      rw [printed, render_lines _ _ single, ordered.eq_of_length_le every]
      exact (congrArg unrows (List.append_nil _)).trans written
  · next some =>
      right
      refine ⟨ordered, by omega, ?_, front, fun place inside left => ?_⟩
      · have single : ∀ line ∈ (Option.some (marker (droppedLines (unitsOf prompt)
            (chosenUnits (unitsOf prompt) budget count)))).toList, '\n' ∉ line :=
          List.forall_mem_singleton.mpr (not_mem_marker _)
        rw [printed, render_lines _ _ single, dropped]
        rfl
      · rw [← render_reserved areRows]
        exact chosenUnits_maximal bytes inside left

/-- Every projection of a prompt of whole lines is honest, whatever the budget, under every
counter that goes by the bytes.
-/
theorem project_honest (bytes : CountsBytes count) (plain : '\r' ∉ prompt)
    (ended : prompt.getLast? = some '\n')
    : Honest prompt budget count := by
  obtain ⟨written, areRows⟩ := unrows_lines plain ended
  have essentials : render (unitsOf prompt) (essential (unitsOf prompt))
      (some (marker (droppedLines (unitsOf prompt) (essential (unitsOf prompt)))))
        = unrows (frontLines prompt ++ [reservedMarker prompt]) := by
    rw [render_reserved areRows, keptLines_essential areRows]
  refine ⟨written, unitLines_unitsOf areRows, fun _ => project_fits bytes, fun text projected => ?_, ?_⟩
  · by_cases fits : count prompt ≤ budget
    · rw [project, if_pos fits] at projected
      exact .inl (Option.some.inj projected).symm
    · have exceeds := UInt32.not_le.mp fits
      exact (projects_chosen bytes areRows written exceeds projected).imp_right fun chosen => ⟨_, chosen⟩
  · rw [← essentials]
    exact ⟨project_none, fun both => project_eq_none both.1 both.2⟩

end Projections

/-- A counter that goes by the bytes: one token up to 70 of them, else two. -/
def shortOrLong (text : List Char) : UInt32 := if byteLength text ≤ 70 then 1 else 2

theorem countsBytes_shortOrLong : CountsBytes shortOrLong := by
  intro first second shorter
  unfold shortOrLong
  split
  · split <;> decide
  · next long =>
      rw [if_neg fun short => long (shorter.trans short)]
      exact UInt32.le_refl 2

def longPrompt : List Char :=
  "ROLE: plan\nGOAL: reply\nCONSTRAINTS:\n- be brief\n- no names\n- write in French\n".toList

/-- The heading goes with its bullets. -/
theorem longPrompt_honest
    : Honest longPrompt 1 shortOrLong
      ∧ project longPrompt 1 shortOrLong
        = some "ROLE: plan\nGOAL: reply\n[PROJECTED: 4 lines dropped]\n".toList :=
  ⟨project_honest countsBytes_shortOrLong (by decide) (by decide), by decide +kernel⟩

end VerticalAI.Correctness
