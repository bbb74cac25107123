import VerticalAI.Store.LedgerFs

/-! The store's record of its ledger's head, and the verdict it reaches when it is opened. -/

set_option linter.dupNamespace false

namespace VerticalAI.Store
open VerticalAI.Foundation VerticalAI.Contracts

/-- `{seq, hash}` of a ledger event, as recorded under `ledger.head`. -/
structure LedgerHead where
  seq : UInt64
  hash : String
  deriving DecidableEq, Repr

def LedgerHead.of (event : LedgerEvent) : LedgerHead := ⟨event.seq, event.hash⟩

/-- What opening found when it compared the ledger with the recorded head. -/
inductive HeadVerdict where
  | unrecorded
  | intact
  | diverged (recorded : LedgerHead) (found : Option LedgerHead)
  deriving DecidableEq, Repr

def HeadVerdict.isDiverged : HeadVerdict → Bool
  | .diverged _ _ => true
  | _ => false

/-- The two tiers of the store that outlive a process: the ledger directory and the
`ledger.head` row.
-/
structure Disk where
  dir : Dir
  head : Option LedgerHead

structure Store where
  ledger : LedgerFs
  ledgerHead : HeadVerdict

/-- Look the recorded event up by position, and hold it to both its seq and its hash. -/
def headVerdict (head : Option LedgerHead) (events : List LedgerEvent) : HeadVerdict :=
  match head with
  | none => .unrecorded
  | some recorded =>
      match events[recorded.seq.toNat]? with
      | some event =>
          if event.seq = recorded.seq ∧ event.hash = recorded.hash then .intact
          else .diverged recorded (events.getLast?.map LedgerHead.of)
      | none => .diverged recorded (events.getLast?.map LedgerHead.of)

def Store.open [EventReader] (disk : Disk) : Except String (Store × Disk) :=
  match LedgerFs.open disk.dir with
  | .ok (ledger, dir) =>
      .ok (⟨ledger, headVerdict disk.head ledger.events⟩, { disk with dir })
  | .error err => .error err

/-- Append one event and record the new head, unless the chain was found to have diverged.
`headFault` is the error of a head record that could not be written.
-/
def Store.appendEvent [Digest] (store : Store) (disk : Disk) (entry : Entry)
    (fault : Option WriteFault) (headFault : Option String)
    : Except String LedgerEvent × Store × Disk :=
  match store.ledger.append disk.dir entry fault with
  | (.error err, ledger, dir) => (.error err, { store with ledger }, { disk with dir })
  | (.ok event, ledger, dir) =>
      if store.ledgerHead.isDiverged then
        (.ok event, { store with ledger }, { disk with dir })
      else
        match headFault with
        | some reason =>
            (.error s!"record the ledger head: {reason}", { store with ledger },
              { disk with dir })
        | none =>
            (.ok event, { store with ledger }, { dir, head := some (LedgerHead.of event) })

/-- Does the record hold? The chain verifies, and it still reaches the recorded head. -/
def Store.ledgerHolds [Digest] (store : Store) : Bool :=
  store.ledger.verify && !store.ledgerHead.isDiverged

def Store.events (store : Store) : List LedgerEvent := store.ledger.events

/-- A store that holds has a linked chain and found no divergence. -/
theorem Store.ledgerHolds_iff [Digest] {store : Store}
    : store.ledgerHolds = true
      ↔ ledgerChain.Linked genesisHash store.events
        ∧ store.ledgerHead.isDiverged = false := by
  rw [Store.ledgerHolds, Bool.and_eq_true, Bool.not_eq_true', LedgerFs.verify,
    Ledger.verifyChain_iff]
  rfl

/-- Opening a store replays the ledger and compares it with the row as it stands. -/
theorem Store.open_inv [EventReader] {disk disk' : Disk} {store : Store}
    (opened : Store.open disk = .ok (store, disk'))
    : LedgerFs.open disk.dir = .ok (store.ledger, disk'.dir)
      ∧ store.ledgerHead = headVerdict disk.head store.events
      ∧ disk'.head = disk.head := by
  rw [Store.open] at opened
  split at opened
  · next ledger dir replayed =>
      simp only [Except.ok.injEq, Prod.mk.injEq] at opened
      obtain ⟨rfl, rfl⟩ := opened
      exact ⟨replayed, rfl, rfl⟩
  · cases opened

-----------------------------------------------------------------------------------------
-- The verdict
-----------------------------------------------------------------------------------------

/-- The chain holds the recorded event at the recorded place. -/
def Contains (head : LedgerHead) (events : List LedgerEvent) : Prop :=
  ∃ event, events[head.seq.toNat]? = some event ∧ LedgerHead.of event = head

/-- What is recorded stays recorded when the chain grows. -/
theorem Contains.append {head : LedgerHead} {events : List LedgerEvent}
    (contains : Contains head events) (more : List LedgerEvent)
    : Contains head (events ++ more) := by
  obtain ⟨event, found, named⟩ := contains
  refine ⟨event, ?_, named⟩
  rw [List.getElem?_append_left (List.getElem?_eq_some_iff.mp found).1]
  exact found

theorem isDiverged_headVerdict {head : LedgerHead} {events : List LedgerEvent}
    : (headVerdict (some head) events).isDiverged = true ↔ ¬Contains head events := by
  have named (event : LedgerEvent)
      : LedgerHead.of event = head ↔ event.seq = head.seq ∧ event.hash = head.hash := by
    cases head
    simp only [LedgerHead.of, LedgerHead.mk.injEq]
  cases found : events[head.seq.toNat]? with
  | none =>
      have absent : ¬Contains head events := by
        intro ⟨event, held, _⟩
        rw [found] at held
        cases held
      simp only [headVerdict, found, HeadVerdict.isDiverged, absent, not_false_eq_true]
  | some event =>
      have held : Contains head events ↔ LedgerHead.of event = head := by
        simp only [Contains, found, Option.some.injEq, exists_eq_left']
      rw [held, named]
      simp only [headVerdict, found]
      split
      · next same => simp only [HeadVerdict.isDiverged, same, and_self, not_true_eq_false,
          Bool.false_eq_true]
      · next differs => simp only [HeadVerdict.isDiverged, differs, not_false_eq_true]

end VerticalAI.Store
