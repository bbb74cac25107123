import VerticalAI.Store.ForeignSegments

/-! A ledger whose files cannot be read leaves them alone. -/

namespace VerticalAI.Store
open VerticalAI.Foundation VerticalAI.Contracts

variable [EventReader]

/-- Only the last line of all is ever cut off, so that a refusal comes before. By induction on the
lines.
-/
theorem replayLines_refused {name : String} {isLast : Bool} {lines : List (List Char)}
    {lineIdx offset : Nat} {state left : Replay} {err : String}
    (refused : replayLines name isLast lines lineIdx offset state = (.error err, left))
    : left.dir = state.dir := by
  induction lines generalizing lineIdx offset state with
  | nil => cases refused
  | cons line rest ih =>
      simp only [replayLines] at refused
      split at refused
      · exact ih refused
      · split at refused
        · next event _ => exact (ih refused :)
        · split at refused
          · cases refused
          · cases refused
            rfl

/-- A segment that is not the last one leaves the directory alone. -/
theorem replayLines_dir {name : String} {lines : List (List Char)} {lineIdx offset : Nat}
    {state final : Replay}
    (replayed : replayLines name false lines lineIdx offset state = (.ok (), final))
    : final.dir = state.dir := by
  rcases replayLines_inv replayed with ⟨-, rfl⟩ | ⟨front, last, -, isLast, -⟩
  · rfl
  · cases isLast

/-- By induction on the segments. -/
theorem replaySegments_refused {files : List (String × List UInt8)} {state left : Replay}
    {err : String} (refused : replaySegments files state = (.error err, left))
    : left.dir = state.dir := by
  induction files generalizing state with
  | nil => cases refused
  | cons file rest ih =>
      obtain ⟨name, bytes⟩ := file
      simp only [replaySegments] at refused
      split at refused
      · cases refused
        rfl
      · next text _ =>
          rcases replayed : replayLines name rest.isEmpty (Text.splitInclusive '\n' text) 0 0 state
            with ⟨err | _, middle⟩
          · simp only [replayed] at refused
            cases refused
            exact replayLines_refused replayed
          · simp only [replayed] at refused
            cases rest with
            | nil => cases refused
            | cons next others => exact (ih refused).trans (replayLines_dir replayed)

/-- Opening leaves every file alone where it refuses. -/
theorem openIn_eq (dir : Dir)
    : LedgerFs.openIn dir
      = match LedgerFs.open dir with
        | .ok (ledger, left) => (.ok ledger, left)
        | .error err => (.error err, dir) := by
  unfold LedgerFs.open LedgerFs.openIn
  rcases replayed : replaySegments (segments dir) ⟨{}, false, dir⟩ with ⟨err | _, left⟩
  · dsimp only
    rw [replaySegments_refused replayed]
  · rfl

theorem openIn_of_open {dir left : Dir} {ledger : LedgerFs}
    (opened : LedgerFs.open dir = .ok (ledger, left))
    : LedgerFs.openIn dir = (.ok ledger, left) := by
  rw [openIn_eq, opened]

end VerticalAI.Store
