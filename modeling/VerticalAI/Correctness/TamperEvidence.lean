import VerticalAI.Store.CanonicalReader
import VerticalAI.Store.ForeignSegments
import VerticalAI.Store.LedgerOps
import VerticalAI.Store.RecordedHead

/-! What an alteration of the ledger segments can and cannot hide from a store whose recorded
head it leaves alone.
-/

namespace VerticalAI.Correctness
open VerticalAI.Foundation VerticalAI.Contracts VerticalAI.Store

section Evidence

variable [Digest]

/-- No two event contents have one hash. -/
def HashInjective : Prop := Function.Injective Unhashed.hash

/-- Every hash spells its digest in hexadecimal, which the genesis hash does not. -/
theorem hash_ne_genesis (content : Unhashed) : content.hash ≠ genesisHash := by
  intro same
  have spelled : genesisHash = "sha256:" ++ "genesis" := rfl
  rw [spelled, Unhashed.hash, hashCanonical, hashBytes] at same
  have texts := congrArg String.toList same
  rw [String.toList_append, String.toList_append] at texts
  have digits := String.toList_inj.mp (List.append_cancel_left texts)
  have read := congrArg Hex.decode digits
  rw [Hex.decode_encode] at read
  cases read

/-- Under that assumption a hash fixes the event that carries it. -/
theorem committing (injective : HashInjective) : ledgerChain.Committing genesisHash where
  injective := by
    intro first second carried carriedOther same
    simp only [ledgerChain_digest, ledgerChain_hash] at carried carriedOther same
    refine LedgerEvent.eq_of_unhashed (injective ?_) same
    rw [carried, carriedOther, same]
  fresh event := hash_ne_genesis event.unhashed

-----------------------------------------------------------------------------------------
-- The chain the store wrote
-----------------------------------------------------------------------------------------

/-- What an append of the store can do: leave the chain as it was, or add the next event to it
and perhaps record that event as the head.
-/
theorem appendEvent_cases (store : Store) (disk : Disk) (entry : Entry)
    (fault : Option WriteFault) (headFault : Option String)
    (fits : store.events.length < 2 ^ 64)
    : (store.appendEvent disk entry fault headFault).2.1.ledgerHead = store.ledgerHead
      ∧ (((store.appendEvent disk entry fault headFault).2.1.events = store.events
            ∧ (store.appendEvent disk entry fault headFault).2.2.head = disk.head)
        ∨ ((store.appendEvent disk entry fault headFault).2.1.events
              = store.events ++ [store.ledger.chain.nextEvent entry]
            ∧ ((store.appendEvent disk entry fault headFault).2.2.head = disk.head
              ∨ (store.ledgerHead.isDiverged = false
                ∧ (store.appendEvent disk entry fault headFault).2.2.head
                  = some (LedgerHead.of (store.ledger.chain.nextEvent entry)))))) := by
  rcases line : writeLine disk.dir (store.ledger.chain.nextEvent entry) fault with
    ⟨err | _, dir⟩
  · have ran : store.ledger.append disk.dir entry fault = (.error err, store.ledger, dir) := by
      simp only [LedgerFs.append, Ledger.append, line]
      exact congrArg (fun ledger => (_, ledger, dir)) (rollBack_append fits entry)
    simp only [Store.appendEvent, ran, Store.events, and_self, true_or]
  · have ran : store.ledger.append disk.dir entry fault
        = (.ok (store.ledger.chain.nextEvent entry),
            { store.ledger with chain := (store.ledger.chain.append entry).2 }, dir) := by
      simp only [LedgerFs.append, Ledger.append, line]
    have grown : LedgerFs.events
        { store.ledger with chain := (store.ledger.chain.append entry).2 }
        = store.ledger.events ++ [store.ledger.chain.nextEvent entry] := rfl
    cases diverged : store.ledgerHead.isDiverged with
    | true =>
        simp only [Store.appendEvent, ran, diverged, if_true, Store.events, grown, and_self,
          true_or, or_true]
    | false =>
        cases headFault with
        | some reason =>
            simp only [Store.appendEvent, ran, diverged, Bool.false_eq_true, if_false,
              Store.events, grown, and_self, true_or, or_true]
        | none =>
            simp only [Store.appendEvent, ran, diverged, Bool.false_eq_true, if_false,
              Store.events, grown, and_self, or_true]

/-- The event just appended is where its head says it is. -/
theorem contains_nextEvent {store : Store} (fits : store.events.length < 2 ^ 64)
    (entry : Entry)
    : Contains (LedgerHead.of (store.ledger.chain.nextEvent entry))
        (store.events ++ [store.ledger.chain.nextEvent entry]) := by
  have place : (store.ledger.chain.nextEvent entry).seq.toNat = store.events.length :=
    nextEvent_seq_toNat fits entry
  refine ⟨_, ?_, rfl⟩
  rw [LedgerHead.of, place, List.getElem?_append_right (Nat.le_refl _), Nat.sub_self]
  rfl

variable [EventReader]

/-- Stores whose record held when they were opened, and what appending events to them leads
to, whatever the disk does in these appends.
-/
inductive Written : Disk → Store → Prop
  | opened {disk disk' store} (opened : Store.open disk = .ok (store, disk'))
    (holds : store.ledgerHolds = true)
    : Written disk' store
  | appended {disk store} (written : Written disk store)
    (fits : store.events.length < 2 ^ 64) (entry : Entry) (fault : Option WriteFault)
    (headFault : Option String)
    : Written (store.appendEvent disk entry fault headFault).2.2
        (store.appendEvent disk entry fault headFault).2.1

/-- A chain that verifies, of a store that found no divergence, reaches the recorded head. -/
structure Recorded (disk : Disk) (store : Store) : Prop where
  linked : ledgerChain.Linked genesisHash store.events
  undiverged : store.ledgerHead.isDiverged = false
  contains : ∀ head, disk.head = some head → Contains head store.events

/-- Opening a store that holds finds the recorded head in its chain. -/
theorem recorded_of_open {disk disk' : Disk} {store : Store}
    (opened : Store.open disk = .ok (store, disk')) (holds : store.ledgerHolds = true)
    : Recorded disk' store := by
  obtain ⟨-, verdict, same⟩ := Store.open_inv opened
  obtain ⟨linked, undiverged⟩ := Store.ledgerHolds_iff.mp holds
  refine ⟨linked, undiverged, fun head row => ?_⟩
  rw [verdict, ← same, row] at undiverged
  by_contra missing
  rw [isDiverged_headVerdict.mpr missing] at undiverged
  cases undiverged

/-- Every written store reaches its recorded head, by induction on how it was written. -/
theorem Written.recorded {disk : Disk} {store : Store} (written : Written disk store)
    : Recorded disk store := by
  induction written with
  | opened opened holds => exact recorded_of_open opened holds
  | @appended disk store _ fits entry fault headFault recorded =>
      obtain ⟨linked, undiverged, contains⟩ := recorded
      obtain ⟨verdict, ⟨events, head⟩ | ⟨events, heads⟩⟩ :=
        appendEvent_cases store disk entry fault headFault fits
      · refine ⟨by rw [events]; exact linked, by rw [verdict, undiverged], ?_⟩
        rw [events, head]
        exact contains
      · refine ⟨?_, by rw [verdict, undiverged], ?_⟩
        · rw [events]
          exact Ledger.verifyChain_iff.mp
            (Ledger.verifyChain_append (Ledger.verifyChain_iff.mpr linked) entry)
        · intro named row
          rw [events]
          rcases heads with kept | ⟨-, moved⟩
          · exact (contains named (kept ▸ row)).append _
          · rw [moved] at row
            cases row
            exact contains_nextEvent fits entry

-----------------------------------------------------------------------------------------
-- After a divergence
-----------------------------------------------------------------------------------------

/-- What appending events that reach the disk, closing and reopening lead to, with the events
appended on the way.
-/
inductive Continued (disk : Disk) (store : Store) : List LedgerEvent → Disk → Store → Prop
  | refl : Continued disk store [] disk store
  | appended {events disk' store'} (continued : Continued disk store events disk' store')
    (entry : Entry) (headFault : Option String)
    : Continued disk store (events ++ [store'.ledger.chain.nextEvent entry])
        (store'.appendEvent disk' entry none headFault).2.2
        (store'.appendEvent disk' entry none headFault).2.1
  | reopened {events disk' store' disk'' store''}
    (continued : Continued disk store events disk' store')
    (opened : Store.open disk' = .ok (store'', disk''))
    : Continued disk store events disk'' store''

omit [EventReader] in
/-- An append that reaches the disk writes the next event to its segment. -/
theorem appendEvent_reaches (store : Store) (disk : Disk) (entry : Entry)
    (headFault : Option String)
    : (store.appendEvent disk entry none headFault).2.2.dir
        = written disk.dir (segmentPath (store.ledger.chain.nextEvent entry).seq)
            (store.ledger.chain.nextEvent entry)
      ∧ (store.appendEvent disk entry none headFault).2.1.ledgerHead = store.ledgerHead
      ∧ (store.appendEvent disk entry none headFault).2.1.events
        = store.events ++ [store.ledger.chain.nextEvent entry]
      ∧ (store.ledgerHead.isDiverged = true
        → (store.appendEvent disk entry none headFault).2.2.head = disk.head) := by
  have ran : store.ledger.append disk.dir entry none
      = (.ok (store.ledger.chain.nextEvent entry),
          { store.ledger with chain := (store.ledger.chain.append entry).2 },
          written disk.dir (segmentPath (store.ledger.chain.nextEvent entry).seq)
            (store.ledger.chain.nextEvent entry)) := rfl
  have grown : LedgerFs.events
      { store.ledger with chain := (store.ledger.chain.append entry).2 }
      = store.ledger.events ++ [store.ledger.chain.nextEvent entry] := rfl
  cases diverged : store.ledgerHead.isDiverged with
  | true => simp only [Store.appendEvent, ran, diverged, if_true, Store.events, grown, and_self,
      implies_true]
  | false =>
      cases headFault <;>
        simp only [Store.appendEvent, ran, diverged, Bool.false_eq_true, if_false, Store.events,
          grown, false_implies, and_self]

/-- An event names the hash of one that is replayed after it, so no chain through both
verifies.
-/
def Spoiled (events : List LedgerEvent) : Prop :=
  ∃ early late, [early, late].Sublist events ∧ early.prevHash = late.hash

omit [Digest] [EventReader] in
/-- Putting an event somewhere does not repair it. -/
theorem Spoiled.insert {before after : List LedgerEvent} (spoiled : Spoiled (before ++ after))
    (event : LedgerEvent)
    : Spoiled (before ++ event :: after) := by
  obtain ⟨early, late, ordered, named⟩ := spoiled
  have kept := List.Sublist.append_left (List.sublist_cons_self event after) before
  exact ⟨early, late, ordered.trans kept, named⟩

omit [EventReader] in
/-- A spoiled chain does not verify. -/
theorem Spoiled.not_linked (injective : HashInjective) {events : List LedgerEvent}
    (spoiled : Spoiled events)
    : ¬ledgerChain.Linked genesisHash events := by
  intro linked
  obtain ⟨early, late, ordered, named⟩ := spoiled
  exact (committing injective).prev_ne_hash linked ordered named

/-- A store that found a divergence and is still in step with its disk: the disk replays to
its chain, and the recorded head is not in it.
-/
structure Aligned (head : LedgerHead) (disk : Disk) (store : Store) : Prop where
  reads : Reads disk.dir store.events
  row : disk.head = some head
  diverged : store.ledgerHead.isDiverged = true
  missing : ¬Contains head store.events

/-- A store whose disk never again replays to a chain that verifies. -/
structure Ruined (disk : Disk) (store : Store) : Prop where
  disk : Corrupt disk.dir ∨ ∃ events, Reads disk.dir events ∧ Spoiled events
  store : store.ledgerHead.isDiverged = true ∨ ¬ledgerChain.Linked genesisHash store.events

/-- Neither kind of store holds. -/
theorem Ruined.not_holds {disk : Disk} {store : Store} (ruined : Ruined disk store)
    : store.ledgerHolds ≠ true := by
  intro holds
  obtain ⟨linked, undiverged⟩ := Store.ledgerHolds_iff.mp holds
  rcases ruined.store with diverged | unlinked
  · rw [undiverged] at diverged
    cases diverged
  · exact unlinked linked

theorem Aligned.not_holds {head : LedgerHead} {disk : Disk} {store : Store}
    (aligned : Aligned head disk store)
    : store.ledgerHolds ≠ true := by
  intro holds
  have undiverged := (Store.ledgerHolds_iff.mp holds).2
  rw [aligned.diverged] at undiverged
  cases undiverged

omit [EventReader] in
/-- An event other than the recorded one does not put the recorded head into the chain. -/
theorem not_contains_append (injective : HashInjective) {store : Store} {entry : Entry}
    {original : LedgerEvent} (carried : original.unhashed.hash = original.hash)
    (missing : ¬Contains (LedgerHead.of original) store.events)
    (other : store.ledger.chain.nextEvent entry ≠ original)
    : ¬Contains (LedgerHead.of original)
        (store.events ++ [store.ledger.chain.nextEvent entry]) := by
  intro ⟨event, found, named⟩
  rcases Nat.lt_or_ge (LedgerHead.of original).seq.toNat store.events.length with
    within | beyond
  · rw [List.getElem?_append_left within] at found
    exact missing ⟨event, found, named⟩
  · rw [List.getElem?_append_right beyond] at found
    obtain rfl := List.mem_singleton.mp (List.mem_of_getElem? found)
    have same : (store.ledger.chain.nextEvent entry).hash = original.hash :=
      congrArg LedgerHead.hash named
    have own := (Ledger.nextEvent_linked store.ledger.chain entry).2
    exact other (LedgerEvent.eq_of_unhashed
      (injective (by rw [own, carried, same])) same)

/-- Appending to a store in step with its disk keeps it so or ruins the disk: the line lands
at the end, in the middle, or in a line that was never finished.
-/
theorem Aligned.appended (lawful : EventReader.Lawful) (blanks : EventReader.SkipsBlanks)
    (injective : HashInjective) {disk : Disk} {store : Store} {original : LedgerEvent}
    (carried : original.unhashed.hash = original.hash)
    (aligned : Aligned (LedgerHead.of original) disk store) (entry : Entry)
    (headFault : Option String) (other : store.ledger.chain.nextEvent entry ≠ original)
    : Aligned (LedgerHead.of original) (store.appendEvent disk entry none headFault).2.2
          (store.appendEvent disk entry none headFault).2.1
      ∨ Ruined (store.appendEvent disk entry none headFault).2.2
          (store.appendEvent disk entry none headFault).2.1 := by
  obtain ⟨dir, verdict, events, row⟩ := appendEvent_reaches store disk entry headFault
  have diverged : (store.appendEvent disk entry none headFault).2.1.ledgerHead.isDiverged
      = true := by rw [verdict, aligned.diverged]
  rcases aligned.reads.write lawful blanks (isSegment_segmentFile _)
    (store.ledger.chain.nextEvent entry) with corrupt | ⟨before, after, split, reads⟩
  · exact Or.inr ⟨Or.inl (by rw [dir]; exact corrupt), Or.inl diverged⟩
  · rcases List.eq_nil_or_concat' after with rfl | ⟨earlier, late, rfl⟩
    · rw [List.append_nil] at split
      subst split
      refine Or.inl ⟨?_, by rw [row aligned.diverged, aligned.row], diverged, ?_⟩
      · rw [dir, events]
        exact reads
      · rw [events]
        exact not_contains_append injective carried aligned.missing other
    · refine Or.inr ⟨Or.inr ⟨_, by rw [dir]; exact reads, ?_⟩, Or.inl diverged⟩
      refine ⟨store.ledger.chain.nextEvent entry, late, ?_, ?_⟩
      · have last : [late].Sublist (earlier ++ [late]) := List.sublist_append_right _ _
        exact (last.cons_cons _).trans (List.sublist_append_right before _)
      · rw [(Ledger.nextEvent_linked store.ledger.chain entry).1]
        have chain : store.ledger.chain.events = before ++ earlier ++ [late] := by
          rw [List.append_assoc]
          exact split
        rw [chain, HashChain.headHash_concat]
        rfl

/-- Appending does not repair a ruined store. -/
theorem Ruined.appended (lawful : EventReader.Lawful) (blanks : EventReader.SkipsBlanks)
    {disk : Disk} {store : Store} (ruined : Ruined disk store) (entry : Entry)
    (headFault : Option String)
    : Ruined (store.appendEvent disk entry none headFault).2.2
        (store.appendEvent disk entry none headFault).2.1 := by
  obtain ⟨dir, verdict, events, -⟩ := appendEvent_reaches store disk entry headFault
  constructor
  · rw [dir]
    rcases ruined.disk with corrupt | ⟨held, reads, spoiled⟩
    · exact Or.inl (corrupt.write (isSegment_segmentFile _) _)
    · rcases reads.write lawful blanks (isSegment_segmentFile _)
        (store.ledger.chain.nextEvent entry) with corrupt | ⟨before, after, rfl, grown⟩
      · exact Or.inl corrupt
      · exact Or.inr ⟨_, grown, spoiled.insert _⟩
  · rw [verdict, events]
    refine ruined.store.imp_right fun unlinked linked => unlinked ?_
    exact (HashChain.linked_append.mp linked).1

omit [Digest] in
/-- Reopening a store in step with its disk finds the same divergence again. -/
theorem Aligned.reopened {head : LedgerHead} {disk disk' : Disk} {store store' : Store}
    (aligned : Aligned head disk store) (opened : Store.open disk = .ok (store', disk'))
    : Aligned head disk' store' := by
  obtain ⟨replayed, verdict, row⟩ := Store.open_inv opened
  rw [aligned.reads.opens, Except.ok.injEq, Prod.mk.injEq] at replayed
  obtain ⟨ledger, dir⟩ := replayed
  have events : store'.events = store.events := by
    rw [Store.events, ← ledger]
    rfl
  refine ⟨?_, by rw [row, aligned.row], ?_, by rw [events]; exact aligned.missing⟩
  · rw [← dir, events]
    exact aligned.reads
  · rw [verdict, aligned.row, events, isDiverged_headVerdict]
    exact aligned.missing

/-- Reopening does not repair a ruined store: the replayed chain does not verify. -/
theorem Ruined.reopened (injective : HashInjective) {disk disk' : Disk}
    {store store' : Store} (ruined : Ruined disk store)
    (opened : Store.open disk = .ok (store', disk'))
    : Ruined disk' store' := by
  obtain ⟨replayed, -, -⟩ := Store.open_inv opened
  rcases ruined.disk with corrupt | ⟨held, reads, spoiled⟩
  · exact absurd replayed corrupt.refuses
  · rw [reads.opens, Except.ok.injEq, Prod.mk.injEq] at replayed
    obtain ⟨ledger, dir⟩ := replayed
    have events : store'.events = held := by
      rw [Store.events, ← ledger]
      rfl
    refine ⟨Or.inr ⟨held, by rw [← dir]; exact reads, spoiled⟩, Or.inr ?_⟩
    rw [events]
    exact spoiled.not_linked injective

/-- However a store that found a divergence is used, it stays in step with its disk or is
ruined, as long as the recorded event is not appended. By induction on the use.
-/
theorem Continued.aligned_or_ruined (lawful : EventReader.Lawful)
    (blanks : EventReader.SkipsBlanks) (injective : HashInjective) {original : LedgerEvent}
    (carried : original.unhashed.hash = original.hash) {disk disk' : Disk}
    {store store' : Store} {events : List LedgerEvent}
    (aligned : Aligned (LedgerHead.of original) disk store)
    (continued : Continued disk store events disk' store') (absent : original ∉ events)
    : Aligned (LedgerHead.of original) disk' store' ∨ Ruined disk' store' := by
  induction continued with
  | refl => exact Or.inl aligned
  | appended _ entry headFault ih =>
      rw [List.mem_append, List.mem_singleton, not_or] at absent
      rcases ih absent.1 with aligned | ruined
      · exact aligned.appended lawful blanks injective carried entry headFault
          (Ne.symm absent.2)
      · exact Or.inr (ruined.appended lawful blanks entry headFault)
  | reopened _ opened ih =>
      rcases ih absent with aligned | ruined
      · exact Or.inl (aligned.reopened opened)
      · exact Or.inr (ruined.reopened injective opened)

-----------------------------------------------------------------------------------------
-- Tamper evidence
-----------------------------------------------------------------------------------------

/-- Alter the segments of a written store in any way and reopen it. If its record still holds,
the chain begins with everything written up to the recorded head. If the chain is found to
have diverged, appending and reopening never make the record hold again, unless the event at
the recorded head is itself appended again.
-/
theorem tamper_evident (lawful : EventReader.Lawful) (blanks : EventReader.SkipsBlanks)
    (injective : HashInjective) {disk disk' : Disk} {store altered : Store}
    (written : Written disk store) {head : LedgerHead} (recorded : disk.head = some head)
    (dir : Dir) (opened : Store.open { disk with dir } = .ok (altered, disk'))
    : (altered.ledgerHolds = true
        → altered.events.take (head.seq.toNat + 1) = store.events.take (head.seq.toNat + 1))
      ∧ (altered.ledgerHead.isDiverged = true
        → ∀ events disk'' later,
            Continued disk' altered events disk'' later
            → later.ledgerHolds = true
            → ∃ original ∈ events, store.events[head.seq.toNat]? = some original) := by
  obtain ⟨linked, -, contains⟩ := written.recorded
  obtain ⟨original, found, rfl⟩ := contains head recorded
  constructor
  · intro holds
    obtain ⟨linkedAltered, -, containsAltered⟩ := recorded_of_open opened holds
    obtain ⟨-, -, row⟩ := Store.open_inv opened
    obtain ⟨event, foundAltered, named⟩ :=
      containsAltered (LedgerHead.of original) (by rw [row]; exact recorded)
    have same : event.hash = original.hash := congrArg LedgerHead.hash named
    exact ((committing injective).take_eq linkedAltered linked foundAltered found same).2
  · intro diverged events disk'' later continued holds
    by_contra unseen
    have absent : original ∉ events := fun member => unseen ⟨original, member, found⟩
    have carried := linked.digest_eq (List.mem_of_getElem? found)
    obtain ⟨replayed, verdict, row⟩ := Store.open_inv opened
    have missing : ¬Contains (LedgerHead.of original) altered.events := by
      rw [← isDiverged_headVerdict, ← recorded, ← verdict]
      exact diverged
    have aligned : Aligned (LedgerHead.of original) disk' altered :=
      ⟨reads_of_open replayed, row.trans recorded, diverged, missing⟩
    rcases continued.aligned_or_ruined lawful blanks injective carried aligned absent with
      aligned | ruined
    · exact aligned.not_holds holds
    · exact ruined.not_holds holds

end Evidence

/-- The digest that keeps its bytes hashes no two contents alike. -/
theorem plainDigest_injective : @HashInjective plainDigest := by
  intro first second same
  have texts : ("sha256:" ++ Hex.encode (Utf8.encode first.toJson.render)).toList
      = ("sha256:" ++ Hex.encode (Utf8.encode second.toJson.render)).toList :=
    congrArg String.toList same
  rw [String.toList_append, String.toList_append] at texts
  have digits := String.toList_inj.mp (List.append_cancel_left texts)
  have bytes := Hex.encode_injective digits
  exact Unhashed.toJson_injective (Json.render_injective (Utf8.encode_injective bytes))

/-- The canonical reader skips no blank. -/
theorem canonicalReader_skipsBlanks : @EventReader.SkipsBlanks canonicalReader := by
  intro blanks event blank
  cases blanks with
  | nil => exact Or.inl (canonicalReader_of_render event)
  | cons char rest =>
      refine Or.inr ⟨_, canonicalReader_of_not_render fun other same => ?_⟩
      obtain ⟨inside, opens⟩ := render_event other
      rw [opens, List.cons_append] at same
      have whitespace := Text.trim_eq_nil_iff.mp blank char List.mem_cons_self
      rw [← (List.cons.inj same).1] at whitespace
      exact absurd whitespace (by decide)

attribute [local instance] plainDigest canonicalReader

/-- An append of an event of this kind. -/
def entryOf (kind : String) : Entry where
  kind
  retention := .operational90d
  wallMs := 1
  clockQuality := .synced
  hlc := ⟨1, 0, "n1"⟩
  causalHeads := []
  payloadHash := "sha256:p"

def emptyDisk : Disk := ⟨∅, none⟩

def emptyStore : Store := ⟨{}, .unrecorded⟩

theorem written_emptyStore : Written emptyDisk emptyStore := by
  have opened : Store.open emptyDisk = .ok (emptyStore, emptyDisk) := by
    have reads : Reads ∅ [] := ⟨fun _ member => absurd member List.not_mem_nil, rfl⟩
    rw [Store.open, emptyDisk, reads.opens]
    rfl
  exact Written.opened opened rfl

/-- The store and its disk after one append, and after a second one. -/
def firstAppend : Store × Disk := (emptyStore.appendEvent emptyDisk (entryOf "boot") none none).2

def secondAppend : Store × Disk :=
  (firstAppend.1.appendEvent firstAppend.2 (entryOf "stop") none none).2

def firstEvent : LedgerEvent := Ledger.nextEvent {} (entryOf "boot")

def secondEvent : LedgerEvent := Ledger.nextEvent ⟨[firstEvent]⟩ (entryOf "stop")

theorem written_secondAppend : Written secondAppend.2 secondAppend.1 :=
  (written_emptyStore.appended (by decide) (entryOf "boot") none none).appended (by decide)
    (entryOf "stop") none none

/-- Deleting every segment is found, and what is appended later does not hide it. -/
theorem deletion_stays_evident
    : headVerdict (some (LedgerHead.of secondEvent)) []
        = .diverged (LedgerHead.of secondEvent) none
      ∧ ∀ events disk later,
          Continued ⟨∅, some (LedgerHead.of secondEvent)⟩
            ⟨{}, .diverged (LedgerHead.of secondEvent) none⟩ events disk later
          → later.ledgerHolds = true
          → ∃ original ∈ events, secondAppend.1.events[1]? = some original := by
  have opened : Store.open { secondAppend.2 with dir := ∅ }
      = .ok (⟨{}, .diverged (LedgerHead.of secondEvent) none⟩,
          ⟨∅, some (LedgerHead.of secondEvent)⟩) := by
    have reads : Reads ∅ [] := ⟨fun _ member => absurd member List.not_mem_nil, rfl⟩
    rw [Store.open, reads.opens]
    rfl
  exact ⟨rfl, (tamper_evident canonicalReader_lawful canonicalReader_skipsBlanks
    plainDigest_injective written_secondAppend rfl ∅ opened).2 rfl⟩

/-- Two segments with these events. -/
def twoSegments (first second : List LedgerEvent) : Dir :=
  (Std.ExtTreeMap.insert ∅ (segmentFile 0) (segmentBytes first)).insert (segmentFile 1)
    (segmentBytes second)

theorem reads_twoSegments (first second : List LedgerEvent)
    : Reads (twoSegments first second) (first ++ second) := by
  have room : ∀ count, count < 2 → count < maxSegments := by
    unfold maxSegments
    omega
  have fresh : Store.Lists ∅ [] none := ⟨rfl, Or.inl (room 0 (by omega))⟩
  obtain ⟨listing, -⟩ := fresh.insert (room 0 (by omega)) (segmentBytes first)
  have one : Store.Lists (Std.ExtTreeMap.insert ∅ (segmentFile 0) (segmentBytes first))
      [segmentBytes first] none := ⟨listing, Or.inl (room 1 (by omega))⟩
  have both := (one.insert (room 1 (by omega)) (segmentBytes second)).segments_eq
  have firstReads := fileReads_segmentBytes canonicalReader_lawful first
  have secondReads := fileReads_segmentBytes canonicalReader_lawful second
  have files : segments (twoSegments first second)
      = [(segmentFile 0, segmentBytes first), (segmentFile 1, segmentBytes second)] := both
  constructor
  · intro file member
    rw [files] at member
    rcases List.mem_cons.mp member with rfl | later
    · exact firstReads.1
    · obtain rfl := List.mem_singleton.mp later
      exact secondReads.1
  · simp only [files, filesEvents, List.flatMap_cons, List.flatMap_nil, firstReads.2,
      secondReads.2, List.append_nil]

/-- Opening a disk whose segments read compares what they hold with the row. -/
theorem open_of_reads {dir : Dir} {head : Option LedgerHead} {events : List LedgerEvent}
    (reads : Reads dir events)
    : Store.open ⟨dir, head⟩ = .ok (⟨⟨⟨events⟩, false⟩, headVerdict head events⟩, ⟨dir, head⟩) := by
  rw [Store.open, reads.opens]
  rfl

/-- Writing to the first of two segments. -/
theorem written_twoSegments (second : List LedgerEvent) (event : LedgerEvent)
    : written (twoSegments [] second) (segmentFile 0) event = twoSegments [event] second := by
  have different : segmentFile 0 ≠ segmentFile 1 := by
    intro same
    have equal := segmentFile_injective (by decide) (by decide) same
    cases equal
  have held : (twoSegments [] second)[segmentFile 0]? = some (segmentBytes []) := by
    rw [twoSegments, Table.getElem?_insert_ne different, Std.ExtTreeMap.getElem?_insert_self]
  refine Std.ExtTreeMap.ext_getElem? fun name => ?_
  rw [written, held, Option.getD_some]
  by_cases first : name = segmentFile 0
  · rw [first, Std.ExtTreeMap.getElem?_insert_self, twoSegments,
      Table.getElem?_insert_ne different, Std.ExtTreeMap.getElem?_insert_self,
      segmentBytes_singleton]
    rfl
  · rw [Table.getElem?_insert_ne first, twoSegments, twoSegments]
    by_cases last : name = segmentFile 1
    · rw [last, Std.ExtTreeMap.getElem?_insert_self, Std.ExtTreeMap.getElem?_insert_self]
    · rw [Table.getElem?_insert_ne last, Table.getElem?_insert_ne last,
        Table.getElem?_insert_ne first, Table.getElem?_insert_ne first]

/-- The store that has found the second event alone, and the event it then appends. -/
def movedStore : Store :=
  ⟨⟨⟨[secondEvent]⟩, false⟩,
    .diverged (LedgerHead.of secondEvent) (some (LedgerHead.of secondEvent))⟩

def movedEvent : LedgerEvent := Ledger.nextEvent ⟨[secondEvent]⟩ (entryOf "resume")

/-- The second event, moved to a segment of its own, comes back to its place when one other
event is appended: the store finds the recorded head again, though its chain is broken.
-/
theorem divergence_hidden_by_moved_line
    : ∃ disk later disk',
        Store.open ⟨twoSegments [] [secondEvent], secondAppend.2.head⟩ = .ok (movedStore, disk)
        ∧ movedStore.ledgerHead.isDiverged = true
        ∧ Continued disk movedStore [movedEvent] disk' later
        ∧ secondAppend.1.events[1]? ≠ some movedEvent
        ∧ later.ledgerHead = .intact := by
  have row : secondAppend.2.head = some (LedgerHead.of secondEvent) := rfl
  have opened : Store.open ⟨twoSegments [] [secondEvent], some (LedgerHead.of secondEvent)⟩
      = .ok (movedStore, ⟨twoSegments [] [secondEvent], some (LedgerHead.of secondEvent)⟩) :=
    open_of_reads (reads_twoSegments [] [secondEvent])
  obtain ⟨dir, -, -, kept⟩ := appendEvent_reaches movedStore
    ⟨twoSegments [] [secondEvent], some (LedgerHead.of secondEvent)⟩ (entryOf "resume") none
  have landed : written (twoSegments [] [secondEvent]) (segmentPath movedEvent.seq) movedEvent
      = twoSegments [movedEvent] [secondEvent] := written_twoSegments _ _
  have disk_eq : (movedStore.appendEvent
      ⟨twoSegments [] [secondEvent], some (LedgerHead.of secondEvent)⟩ (entryOf "resume") none
      none).2.2 = ⟨twoSegments [movedEvent] [secondEvent], some (LedgerHead.of secondEvent)⟩ :=
    congrArg₂ Disk.mk (dir.trans landed) (kept rfl)
  have found : headVerdict (some (LedgerHead.of secondEvent)) [movedEvent, secondEvent]
      = .intact := by
    have place : [movedEvent, secondEvent][(LedgerHead.of secondEvent).seq.toNat]?
        = some secondEvent := rfl
    simp only [headVerdict, place]
    exact if_pos ⟨rfl, rfl⟩
  have reopened : Store.open
      ⟨twoSegments [movedEvent] [secondEvent], some (LedgerHead.of secondEvent)⟩
      = .ok (⟨⟨⟨[movedEvent, secondEvent]⟩, false⟩, .intact⟩,
          ⟨twoSegments [movedEvent] [secondEvent], some (LedgerHead.of secondEvent)⟩) := by
    rw [← found]
    exact open_of_reads (reads_twoSegments [movedEvent] [secondEvent])
  rw [← disk_eq] at reopened
  have continued := (Continued.refl.appended (entryOf "resume") none).reopened reopened
  rw [row]
  refine ⟨_, _, _, opened, rfl, continued, ?_, rfl⟩
  intro same
  have events : secondAppend.1.events[1]? = some secondEvent := rfl
  have kinds := congrArg LedgerEvent.kind (Option.some.inj (events.symm.trans same))
  have differ : "stop" ≠ "resume" := by decide
  exact differ kinds

end VerticalAI.Correctness
