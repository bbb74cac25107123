import VerticalAI.Store.LedgerImage

/-! What opening, appending and losing power in an append do to a directory that holds a list
of events: one lemma an operation.
-/

namespace VerticalAI.Store
open VerticalAI.Foundation VerticalAI.Contracts

variable {dir : Dir} {events : List LedgerEvent}

-----------------------------------------------------------------------------------------
-- Opening
-----------------------------------------------------------------------------------------

section Opening

variable [EventReader] (lawful : EventReader.Lawful)

include lawful

/-- Full segments are replayed whole before the newest one. -/
theorem open_lists {full : List (List UInt8)} {chunks : List (List LedgerEvent)}
    {last : Option (List UInt8)} (lists : Lists dir full last)
    (images : List.Forall₂ SegmentImage full chunks)
    : replaySegments (segments dir) ⟨{}, false, dir⟩
      = replaySegments (last.toList.map fun bytes => (segmentFile full.length, bytes))
          ⟨⟨chunks.flatten⟩, false, dir⟩ := by
  have named : List.Forall₂ (fun file chunk => SegmentImage file.2 chunk) (rowsOf full)
      chunks := by
    rw [List.forall₂_iff_get] at images ⊢
    obtain ⟨lengths, images⟩ := images
    refine ⟨by rw [rowsOf, List.length_mapIdx, lengths], fun segment bound boundChunk => ?_⟩
    simp only [rowsOf, List.get_eq_getElem, List.getElem_mapIdx]
    exact images segment (by simpa only [rowsOf, List.length_mapIdx] using bound) boundChunk
  have rows : rowsOf (full ++ last.toList)
      = rowsOf full ++ last.toList.map (fun bytes => (segmentFile full.length, bytes)) := by
    cases last with
    | none => simp only [Option.toList_none, List.append_nil, List.map_nil]
    | some bytes => simp only [Option.toList_some, rowsOf_concat, List.map_cons, List.map_nil]
  rw [lists.segments_eq, rows, replaySegments_images lawful named, List.nil_append]

/-- A directory that stores events replays to them and stays as it is. -/
theorem Stores.opens (stores : Stores dir events)
    : LedgerFs.open dir = .ok (⟨⟨events⟩, false⟩, dir) := by
  obtain ⟨full, chunks, last, tail, holds, rfl⟩ := stores
  rw [LedgerFs.open, LedgerFs.openIn, open_lists lawful holds.lists holds.images]
  rcases holds.newest with rfl | ⟨rfl, rfl⟩
  · obtain ⟨text, read, replayed⟩ :=
      replayLines_image lawful (Or.inl (Eq.refl (segmentBytes tail)))
        (segmentFile full.length) true ⟨⟨chunks.flatten⟩, false, dir⟩
    simp only [Option.toList_some, List.map_cons, List.map_nil, replaySegments, read,
      List.isEmpty_nil, replayed]
  · simp only [Option.toList_none, List.map_nil, replaySegments, List.append_nil]

end Opening

-----------------------------------------------------------------------------------------
-- Appending
-----------------------------------------------------------------------------------------

/-- What an append writes to: the newest segment, which holds the text of its events. -/
structure Target (dir : Dir) (events : List LedgerEvent) (path : String)
    (full : List (List UInt8)) (chunks : List (List LedgerEvent)) (tail : List LedgerEvent)
    : Prop where
  holds : ∃ last, Holds dir full chunks last tail
  events_eq : events = chunks.flatten ++ tail
  room : full.length < maxSegments
  path_eq : path = segmentFile full.length
  before : dir[path]?.getD [] = segmentBytes tail

namespace Target

variable {path : String} {full : List (List UInt8)} {chunks : List (List LedgerEvent)}
  {tail : List LedgerEvent}

/-- Writing back what is there, as opening the segment does, changes no event. -/
theorem opened (target : Target dir events path full chunks tail)
    : Stores (dir.insert path (dir[path]?.getD [])) events := by
  obtain ⟨⟨last, holds⟩, rfl, room, rfl, before⟩ := target
  rw [before]
  exact stores_insert holds.lists holds.images holds.sizes room (Or.inl rfl)
    (Nat.le_of_lt holds.open_end) (fun _ => rfl)

/-- Writing a whole line stores its event after the others. -/
theorem written (target : Target dir events path full chunks tail) (event : LedgerEvent)
    : Stores (dir.insert path (dir[path]?.getD [] ++ Utf8.encode (eventLine event)))
        (events ++ [event]) := by
  obtain ⟨⟨last, holds⟩, rfl, room, rfl, before⟩ := target
  have bytes : dir[segmentFile full.length]?.getD [] ++ Utf8.encode (eventLine event)
      = segmentBytes (tail ++ [event]) := by
    rw [before, segmentBytes_append, segmentBytes_singleton]
  rw [bytes, List.append_assoc]
  refine stores_insert holds.lists holds.images holds.sizes room (Or.inl rfl) ?_
    (fun _ => rfl)
  have short := holds.open_end
  rw [List.length_append, List.length_singleton]
  omega

/-- The path is free exactly when nothing was written to the newest segment yet. -/
theorem length_mod (target : Target dir events path full chunks tail)
    : events.length % segmentEvents = tail.length := by
  obtain ⟨⟨last, holds⟩, rfl, -, -, -⟩ := target
  have short := holds.open_end
  rw [holds.length_events, Nat.mul_comm, Nat.mul_add_mod, Nat.mod_eq_of_lt short]

end Target

section Appending

variable [Digest]

/-- A directory with room has a target for the next event. -/
theorem Stores.target {ledger : LedgerFs} (stores : Stores dir ledger.events)
    (fits : ledger.events.length < maxEvents) (entry : Entry)
    : ∃ full chunks tail,
        Target dir ledger.events (segmentPath (ledger.chain.nextEvent entry).seq) full chunks
          tail := by
  obtain ⟨full, chunks, last, tail, holds, same⟩ := stores
  have room := holds.room (same ▸ fits)
  have path : segmentPath (ledger.chain.nextEvent entry).seq = segmentFile full.length := by
    have located := holds.segmentPath_eq (same ▸ fits)
    rw [← same] at located
    exact located
  exact ⟨full, chunks, tail, ⟨last, holds⟩, same, room, path,
    by rw [path]; exact holds.newest_bytes room⟩

theorem nextEvent_seq_toNat {ledger : LedgerFs} (fits : ledger.events.length < 2 ^ 64)
    (entry : Entry)
    : (ledger.chain.nextEvent entry).seq.toNat = ledger.events.length := by
  rw [Ledger.nextEvent_seq]
  exact UInt64.toNat_ofNat_of_lt' fits

/-- Rolling back takes the event just appended off again and nothing else. -/
theorem rollBack_append {ledger : LedgerFs} (fits : ledger.events.length < 2 ^ 64)
    (entry : Entry)
    : LedgerFs.rollBack { ledger with chain := (ledger.chain.append entry).2 }
        (ledger.chain.nextEvent entry).seq
      = ledger := by
  have seq : (ledger.chain.nextEvent entry).seq.toNat = ledger.chain.events.length :=
    nextEvent_seq_toNat fits entry
  have kept : (ledger.chain.events ++ [ledger.chain.nextEvent entry]).take
      (ledger.chain.nextEvent entry).seq.toNat = ledger.chain.events := by
    rw [seq, List.take_left']
    rfl
  simp only [LedgerFs.rollBack, Ledger.append_snd_events, kept, Ledger.foldl_pushVerified,
    List.nil_append]

/-- An append that meets no fault reaches the disk and the chain. -/
theorem Stores.append {ledger : LedgerFs} (stores : Stores dir ledger.events)
    (fits : ledger.events.length < maxEvents) (entry : Entry)
    : ∃ dir',
        ledger.append dir entry none
          = (.ok (ledger.chain.nextEvent entry),
              { ledger with chain := (ledger.chain.append entry).2 }, dir')
        ∧ Stores dir' (ledger.events ++ [ledger.chain.nextEvent entry]) := by
  obtain ⟨full, chunks, tail, target⟩ := stores.target fits entry
  exact ⟨_, rfl, target.written _⟩

/-- Whether the fault can hit this append and leaves nothing of the line behind: a failed
write is undone, and the directory of an existing segment is not synced at all.
-/
def WriteFault.Contained (dir : Dir) (event : LedgerEvent) : WriteFault → Prop
  | .openSegment => True
  | .readLength => True
  | .write _ undone => undone = true
  | .syncData undone => undone = true
  | .syncDir => dir.contains (segmentPath event.seq) = true

/-- An append that meets a contained fault either reports it, with the chain and the stored
events unchanged, or goes through.
-/
theorem Stores.append_fault {ledger : LedgerFs} (stores : Stores dir ledger.events)
    (fits : ledger.events.length < maxEvents) (entry : Entry) {fault : WriteFault}
    (contained : fault.Contained dir (ledger.chain.nextEvent entry))
    : (∃ err dir',
          ledger.append dir entry (some fault) = (.error err, ledger, dir')
          ∧ Stores dir' ledger.events)
      ∨ ledger.append dir entry (some fault) = ledger.append dir entry none := by
  obtain ⟨full, chunks, tail, target⟩ := stores.target fits entry
  have rolled := rollBack_append (Nat.lt_trans fits maxEvents_lt) entry
  cases fault with
  | openSegment =>
      exact Or.inl ⟨_, dir, congrArg (fun ledger => (_, ledger, dir)) rolled, stores⟩
  | readLength =>
      exact Or.inl ⟨_, _, congrArg (fun ledger => (_, ledger, _)) rolled, target.opened⟩
  | write landed undone =>
      obtain rfl : undone = true := contained
      exact Or.inl ⟨_, _, congrArg (fun ledger => (_, ledger, _)) rolled, target.opened⟩
  | syncData undone =>
      obtain rfl : undone = true := contained
      exact Or.inl ⟨_, _, congrArg (fun ledger => (_, ledger, _)) rolled, target.opened⟩
  | syncDir =>
      have present : dir.contains (segmentPath (ledger.chain.nextEvent entry).seq) = true :=
        contained
      refine Or.inr ?_
      simp only [LedgerFs.append, writeLine, Ledger.append, present, Bool.not_true,
        Bool.false_eq_true, if_false]

/-- When the directory of a new segment cannot be synced, the append reports the error and
rolls its chain back, but the line stays on disk.
-/
theorem Stores.append_syncDir {ledger : LedgerFs} (stores : Stores dir ledger.events)
    (fits : ledger.events.length < maxEvents) (entry : Entry)
    (absent : dir.contains (segmentPath (ledger.chain.nextEvent entry).seq) = false)
    : ∃ err dir',
        ledger.append dir entry (some .syncDir) = (.error err, ledger, dir')
        ∧ Stores dir' (ledger.events ++ [ledger.chain.nextEvent entry]) := by
  obtain ⟨full, chunks, tail, target⟩ := stores.target fits entry
  have rolled := rollBack_append (Nat.lt_trans fits maxEvents_lt) entry
  refine ⟨"sync ledger", _, ?_, target.written (ledger.chain.nextEvent entry)⟩
  have refused : writeLine dir (ledger.chain.nextEvent entry) (some .syncDir)
      = (.error "sync ledger", dir.insert (segmentPath (ledger.chain.nextEvent entry).seq)
          (dir[segmentPath (ledger.chain.nextEvent entry).seq]?.getD []
            ++ Utf8.encode (eventLine (ledger.chain.nextEvent entry)))) := by
    simp only [writeLine, absent, Bool.not_false, if_true]
  simp only [LedgerFs.append, Ledger.append, refused]
  exact congrArg (fun ledger => (_, ledger, _)) rolled

/-- Appending several events stores them all, in order. By induction on the entries. -/
theorem Stores.appendAll {ledger : LedgerFs} (stores : Stores dir ledger.events)
    (entries : List Entry) (fits : ledger.events.length + entries.length ≤ maxEvents)
    : Stores (ledger.appendAll dir entries).2 (ledger.appendAll dir entries).1.events := by
  induction entries generalizing ledger dir with
  | nil => exact stores
  | cons entry rest ih =>
      rw [List.length_cons] at fits
      obtain ⟨dir', ran, stored⟩ := stores.append (by omega) entry
      have grown : LedgerFs.events { ledger with chain := (ledger.chain.append entry).2 }
          = ledger.events ++ [ledger.chain.nextEvent entry] := rfl
      rw [LedgerFs.appendAll, ran]
      refine ih (by rw [grown]; exact stored) ?_
      rw [grown, List.length_append, List.length_singleton]
      omega

/-- What appending adds to the chain does not depend on the directory, and keeps it verified.
By induction on the entries.
-/
theorem appendAll_events (ledger : LedgerFs) (dir : Dir) (entries : List Entry)
    : ∃ added,
        (ledger.appendAll dir entries).1.events = ledger.events ++ added
        ∧ added.length = entries.length
        ∧ (ledger.verify = true → (ledger.appendAll dir entries).1.verify = true) := by
  induction entries generalizing ledger dir with
  | nil => exact ⟨[], (List.append_nil _).symm, rfl, id⟩
  | cons entry rest ih =>
      have grown : LedgerFs.events { ledger with chain := (ledger.chain.append entry).2 }
          = ledger.events ++ [ledger.chain.nextEvent entry] := rfl
      have ran : ∃ dir', ledger.append dir entry none
          = (.ok (ledger.chain.nextEvent entry),
              { ledger with chain := (ledger.chain.append entry).2 }, dir') := ⟨_, rfl⟩
      obtain ⟨dir', ran⟩ := ran
      obtain ⟨added, appended, count, verified⟩ :=
        ih { ledger with chain := (ledger.chain.append entry).2 } dir'
      refine ⟨ledger.chain.nextEvent entry :: added, ?_, by rw [List.length_cons, count,
        List.length_cons], ?_⟩
      · rw [LedgerFs.appendAll, ran]
        rw [appended, grown, List.append_assoc, List.singleton_append]
      · intro before
        rw [LedgerFs.appendAll, ran]
        exact verified (Ledger.verifyChain_append before entry)

end Appending

end VerticalAI.Store
