import VerticalAI.Correctness.LedgerRecovery

/-! Appends that report an error: which of them leave the chain and the disk as they were. -/

namespace VerticalAI.Correctness
open VerticalAI.Foundation VerticalAI.Contracts VerticalAI.Store

section Atomicity

variable [Digest] [EventReader]

/-- The failing operation is not the undoing of a failed write itself. -/
def UndoWorks : WriteFault → Prop
  | .write _ undone => undone = true
  | .syncData undone => undone = true
  | _ => True

omit [Digest] in
/-- The events a reopen would replay. -/
def replayed (dir : Dir) : Except String (List LedgerEvent) :=
  (LedgerFs.open dir).map (fun opened => opened.1.events)

/-- If the append reports an error, the chain and what a reopen replays are what they were
before it, and whatever is appended later replays in order and verifies.
-/
def AppendAtomic (dir : Dir) (ledger : LedgerFs) (entry : Entry) (fault : WriteFault)
    : Prop :=
  ∀ err ledger' dir',
    ledger.append dir entry (some fault) = (.error err, ledger', dir')
    → ledger'.chain = ledger.chain
      ∧ replayed dir' = replayed dir
      ∧ ∀ entries : List Entry,
          ledger'.events.length + entries.length ≤ maxEvents
          → ∃ final dir'',
              LedgerFs.open (ledger'.appendAll dir' entries).2 = .ok (final, dir'')
              ∧ final.events = (ledger'.appendAll dir' entries).1.events
              ∧ final.verify = true

theorem Sound.replayed_eq (lawful : EventReader.Lawful) {dir : Dir} {ledger : LedgerFs}
    (sound : Sound dir ledger)
    : replayed dir = .ok ledger.events := by
  rw [replayed, sound.stores.opens lawful]
  rfl

/-- A contained fault leaves the append atomic. -/
theorem Sound.appendAtomic (lawful : EventReader.Lawful) {dir : Dir} {ledger : LedgerFs}
    (sound : Sound dir ledger) (room : ledger.events.length < maxEvents) {entry : Entry}
    {fault : WriteFault} (contained : fault.Contained dir (ledger.chain.nextEvent entry))
    : AppendAtomic dir ledger entry fault := by
  intro err ledger' dir' ran
  rcases sound.stores.append_fault room entry contained with
    ⟨reported, kept, refused, stored⟩ | through
  · rw [refused] at ran
    cases ran
    have unchanged : Sound dir' ledger := ⟨stored, sound.verified, sound.bounded⟩
    refine ⟨rfl, ?_, fun entries fits => unchanged.appendAll lawful entries fits⟩
    rw [unchanged.replayed_eq lawful, sound.replayed_eq lawful]
  · obtain ⟨dir'', appended, -⟩ := sound.stores.append room entry
    rw [through, appended] at ran
    cases ran

/-- When the directory of a new segment cannot be synced, the line that the caller was told
had failed is replayed by the next open.
-/
theorem Sound.not_appendAtomic (lawful : EventReader.Lawful) {dir : Dir} {ledger : LedgerFs}
    (sound : Sound dir ledger) (room : ledger.events.length < maxEvents) {entry : Entry}
    (absent : dir.contains (segmentPath (ledger.chain.nextEvent entry).seq) = false)
    : ¬AppendAtomic dir ledger entry .syncDir := by
  intro atomic
  obtain ⟨err, dir', refused, stored⟩ := sound.stores.append_syncDir room entry absent
  obtain ⟨-, unchanged, -⟩ := atomic err ledger dir' refused
  rw [sound.replayed_eq lawful, replayed, stored.opens lawful] at unchanged
  have events : ledger.events ++ [ledger.chain.nextEvent entry] = ledger.events :=
    Except.ok.inj unchanged
  exact List.cons_ne_nil _ _ (List.append_right_eq_self.mp events)

/-- A failing append is atomic exactly when the failing operation is not the directory sync of
a segment that the append itself created.
-/
theorem appendAtomic_iff (lawful : EventReader.Lawful) {dir : Dir} {ledger : LedgerFs}
    (reached : Reached dir ledger) (room : ledger.events.length < maxEvents) (entry : Entry)
    {fault : WriteFault} (undone : UndoWorks fault)
    : AppendAtomic dir ledger entry fault
      ↔ ¬(fault = .syncDir
          ∧ dir.contains (segmentPath (UInt64.ofNat ledger.events.length)) = false) := by
  have sound := reached.sound lawful
  constructor
  · intro atomic ⟨isSync, absent⟩
    subst isSync
    exact sound.not_appendAtomic lawful room absent atomic
  · intro elsewhere
    refine sound.appendAtomic lawful room ?_
    cases fault with
    | openSegment => trivial
    | readLength => trivial
    | write landed works => exact undone
    | syncData works => exact undone
    | syncDir =>
        have present := fun absent => elsewhere ⟨rfl, absent⟩
        exact Bool.eq_true_of_not_eq_false present

end Atomicity

attribute [local instance] plainDigest canonicalReader

/-- An append whose line landed in part and was taken off again leaves everything as it was. -/
theorem appendAtomic_of_undone_write
    : AppendAtomic oneEvent.2 oneEvent.1 accentedEntry (.write 5 true) := by
  have undone : UndoWorks (.write 5 true) := rfl
  refine (appendAtomic_iff canonicalReader_lawful reached_oneEvent (by decide) accentedEntry
    undone).mpr ?_
  intro ⟨isSync, _⟩
  cases isSync

/-- The first append of a ledger creates its segment; if the directory cannot be synced, the
append is not atomic.
-/
theorem not_appendAtomic_of_unsynced : ¬AppendAtomic ∅ {} accentedEntry .syncDir := by
  have sound := Reached.created.sound canonicalReader_lawful
  exact sound.not_appendAtomic canonicalReader_lawful (by decide)
    Std.ExtTreeMap.contains_empty

end VerticalAI.Correctness
