import VerticalAI.Correctness.LedgerRecovery
import VerticalAI.Store.OpenedFiles

/-! What opening a ledger repairs, for arbitrary bytes in its segments: one unterminated last line
that is no event, and nothing else.
-/

namespace VerticalAI.Correctness
open VerticalAI.Foundation VerticalAI.Contracts VerticalAI.Store

section Repair

variable [EventReader]

/-- Every line of every segment is blank or an event, the ledger holds these events in order, and
nothing was touched.
-/
structure Intact (dir : Dir) (ledger : LedgerFs) (left : Dir) : Prop where
  reads : Reads dir ledger.events
  unflagged : ledger.recoveredPartialLine = false
  untouched : left = dir

/-- The same but for one line that is no event: the unterminated last one of the last segment. It
was left out and its segment ends where it began.
-/
def Repaired (dir : Dir) (ledger : LedgerFs) (left : Dir) : Prop :=
  ∃ front name bytes lines last,
    CutOff (segments dir) front name bytes lines last
    ∧ ¬Readable last
    ∧ ledger.events = filesEvents front ++ lines.flatMap lineEvents
    ∧ ledger.recoveredPartialLine = true
    ∧ bytes = Utf8.encode lines.flatten ++ Utf8.encode last
    ∧ left = dir.insert name (Utf8.encode lines.flatten)

/-- A ledger that opens was intact or is repaired. -/
theorem intact_or_repaired {dir left : Dir} {ledger : LedgerFs}
    (opened : LedgerFs.open dir = .ok (ledger, left))
    : Intact dir ledger left ∨ Repaired dir ledger left := by
  obtain ⟨final, replayed, rfl, rfl⟩ := open_replayed opened
  rcases replaySegments_inv replayed with ⟨files, rfl⟩
    | ⟨front, name, bytes, lines, last, cutOff, rfl⟩
  · exact .inl ⟨⟨files, rfl⟩, rfl, rfl⟩
  · obtain ⟨-, bytes_eq⟩ := fileLines_front cutOff.pieces
    have listed : (name, bytes) ∈ segments dir := by
      rw [cutOff.files_eq]
      exact List.mem_append_right _ List.mem_cons_self
    have held : dir[name]? = some bytes := Table.mem_list.mp (List.mem_filter.mp listed).1
    refine .inr ⟨front, name, bytes, lines, last, cutOff, ?_, rfl, rfl, bytes_eq, ?_⟩
    · -- A readable last line would have been replayed with the others.
      intro readable
      have reads : ∀ file ∈ segments dir, FileReads file.2 := by
        rw [cutOff.files_eq]
        intro file member
        rcases List.mem_append.mp member with earlier | here
        · exact cutOff.front file earlier
        · obtain rfl := List.mem_singleton.mp here
          refine ⟨lines ++ [last], cutOff.pieces, fun line inside => ?_⟩
          rcases List.mem_append.mp inside with kept | ends
          · exact cutOff.readable line kept
          · exact List.mem_singleton.mp ends ▸ readable
      have whole := replayed.symm.trans (replaySegments_reads reads _)
      have flags := congrArg Replay.recovered ((Prod.mk.inj whole).2)
      cases flags
    · change dir.insert name ((dir[name]?.getD []).take _) = _
      rw [held, Option.getD_some, bytes_eq, List.take_left]

/-- Opening a ledger replays exactly the events of its lines and leaves every file as it is, but
for one unterminated last line that is no event, which it cuts off and says so; opening again
then gives the same events and repairs nothing. Where it refuses, it changes no file.
-/
theorem open_repairs_one_line (dir : Dir)
    : (∀ ledger left, LedgerFs.openIn dir = (.ok ledger, left)
        → (Intact dir ledger left ∨ Repaired dir ledger left)
          ∧ LedgerFs.openIn left = (.ok ⟨ledger.chain, false⟩, left))
      ∧ ∀ err left, LedgerFs.openIn dir = (.error err, left) → left = dir := by
  rw [openIn_eq]
  cases opened : LedgerFs.open dir with
  | error err =>
      refine ⟨nofun, fun reason left refused => ?_⟩
      exact (Prod.mk.inj refused).2.symm
  | ok result =>
      obtain ⟨found, after⟩ := result
      refine ⟨fun ledger left same => ?_, nofun⟩
      obtain ⟨read, rfl⟩ := Prod.mk.inj same
      obtain rfl := Except.ok.inj read
      refine ⟨intact_or_repaired opened, ?_⟩
      exact openIn_of_open (reads_of_open opened).opens

end Repair

attribute [local instance] plainDigest canonicalReader

/-- The brace of a second line, cut off there, is taken off again. -/
theorem open_repairs_torn_brace
    : ∃ ledger left,
        LedgerFs.openIn (torn oneEvent.2 (oneEvent.1.chain.nextEvent accentedEntry) 1)
          = (.ok ledger, left)
        ∧ Repaired (torn oneEvent.2 (oneEvent.1.chain.nextEvent accentedEntry) 1) ledger left
        ∧ ledger.events = oneEvent.1.events := by
  let event := oneEvent.1.chain.nextEvent accentedEntry
  have sound := reached_oneEvent.sound canonicalReader_lawful
  obtain ⟨full, chunks, tail, interrupted, events, -⟩ :=
    interrupted_torn sound.stores (by decide) accentedEntry 1
  have read : Utf8.decode ((nextLine oneEvent.1 accentedEntry).take 1) = some ['{'] := by
    rw [take_one_nextLine, Utf8.decode_encode]
  obtain ⟨inside, opens⟩ := render_event event
  have long := three_le_length_nextLine oneEvent.1 accentedEntry
  have short : 1 < (nextLine oneEvent.1 accentedEntry).length := Nat.lt_of_lt_of_le (by decide) long
  have part : ['{'] ≠ event.toJson.render := fun whole =>
    Nat.ne_of_lt long ((cut_whole_iff short read).mp whole)
  have opened := interrupted.open_part canonicalReader_lawful read (by decide)
    ⟨inside, opens.symm⟩ part
  obtain ⟨repairs, -⟩ := open_repairs_one_line (torn oneEvent.2 event 1)
  have inPlace := openIn_of_open opened
  refine ⟨_, _, inPlace, ?_, events.symm⟩
  exact (repairs _ _ inPlace).1.resolve_left fun intact => nomatch intact.unflagged

end VerticalAI.Correctness
