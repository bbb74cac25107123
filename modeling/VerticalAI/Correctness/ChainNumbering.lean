import VerticalAI.Store.RecordedHead

/-! Whether links and hashes number a chain. They do not: whatever numbers its events were sealed
with, a chain verifies, and each event is at the place of its seq, where the recorded head is looked
up, exactly where these numbers are the places.
-/

namespace VerticalAI.Correctness
open VerticalAI.Foundation VerticalAI.Contracts VerticalAI.Store

/-- Every event is at the place of its seq, and recorded as the head it is found there. -/
structure Numbered (events : List LedgerEvent) : Prop where
  placed : ∀ (index : Nat) (event : LedgerEvent), events[index]? = some event → event.seq.toNat = index
  found : ∀ event ∈ events, headVerdict (some (LedgerHead.of event)) events = .intact

/-- In a numbered chain the lookup by position finds what the chain contains. -/
theorem Numbered.of_placed {events : List LedgerEvent}
    (placed : ∀ (index : Nat) (event : LedgerEvent),
      events[index]? = some event → event.seq.toNat = index)
    : Numbered events := by
  refine ⟨placed, ?_⟩
  intro event member
  obtain ⟨index, there⟩ := List.mem_iff_getElem?.mp member
  have here := placed index event there
  simp only [headVerdict, LedgerHead.of, here, there, and_self, if_true]

section Chains

variable [Digest]

/-- The event with this number behind a chain, linked and hashed as an append does it. -/
def sealedEvent (seq : UInt64) (events : List LedgerEvent) (entry : Entry) : LedgerEvent :=
  let content : Unhashed :=
    { seq, prevHash := ledgerChain.headHash genesisHash events, kind := entry.kind
      retention := entry.retention, wallMs := entry.wallMs, clockQuality := entry.clockQuality
      hlc := entry.hlc, causalHeads := entry.causalHeads, payloadHash := entry.payloadHash }
  { seq, prevHash := content.prevHash, hash := content.hash, kind := entry.kind
    retention := entry.retention, wallMs := entry.wallMs, clockQuality := entry.clockQuality
    hlc := entry.hlc, causalHeads := entry.causalHeads, payloadHash := entry.payloadHash }

/-- The chain of these entries, each sealed with the number beside it. -/
def sealedChain (rows : List (UInt64 × Entry)) : List LedgerEvent :=
  rows.foldl (fun events row => events ++ [sealedEvent row.1 events row.2]) []

/-- Every number is that of its place. -/
def InOrder (rows : List (UInt64 × Entry)) : Prop :=
  ∀ (index : Nat) (row : UInt64 × Entry), rows[index]? = some row → row.1.toNat = index

theorem sealedChain_concat (rows : List (UInt64 × Entry)) (row : UInt64 × Entry)
    : sealedChain (rows ++ [row])
      = sealedChain rows ++ [sealedEvent row.1 (sealedChain rows) row.2] := by
  rw [sealedChain, List.foldl_append]
  rfl

/-- The numbers that were given are the seqs of the chain, by induction from its end. -/
theorem seqs_sealedChain (rows : List (UInt64 × Entry))
    : (sealedChain rows).map (·.seq) = rows.map Prod.fst := by
  induction rows using List.reverseRecOn with
  | nil => rfl
  | append_singleton earlier row ih =>
      rw [sealedChain_concat, List.map_append, List.map_append, ih]
      rfl

/-- A chain is sealed with the numbers of its places exactly if it is numbered. -/
theorem numbered_sealedChain_iff (rows : List (UInt64 × Entry))
    : Numbered (sealedChain rows) ↔ InOrder rows := by
  have seqs := seqs_sealedChain rows
  have number (index : Nat)
      : (sealedChain rows)[index]?.map (·.seq) = rows[index]?.map Prod.fst := by
    rw [← List.getElem?_map, ← List.getElem?_map, seqs]
  constructor
  · intro numbered index row there
    have same := number index
    rw [there, Option.map_some, Option.map_eq_some_iff] at same
    obtain ⟨event, here, seq⟩ := same
    rw [← seq]
    exact numbered.placed index event here
  · intro inOrder
    refine .of_placed fun index event there => ?_
    have same := number index
    rw [there, Option.map_some, eq_comm, Option.map_eq_some_iff] at same
    obtain ⟨row, here, seq⟩ := same
    rw [← seq]
    exact inOrder index row here

omit [Digest] in
/-- What an append was given for an event. -/
def parametersOf (event : LedgerEvent) : Entry where
  kind := event.kind
  retention := event.retention
  wallMs := event.wallMs
  clockQuality := event.clockQuality
  hlc := event.hlc
  causalHeads := event.causalHeads
  payloadHash := event.payloadHash

/-- An event that links and carries its hash is the one that its own number seals there. -/
theorem eq_sealedEvent {events : List LedgerEvent} {event : LedgerEvent}
    (names : event.prevHash = ledgerChain.headHash genesisHash events)
    (carries : event.unhashed.hash = event.hash)
    : event = sealedEvent event.seq events (parametersOf event) := by
  have content : event.unhashed
      = (sealedEvent event.seq events (parametersOf event)).unhashed := by
    simp only [LedgerEvent.unhashed, sealedEvent, parametersOf, names]
  refine LedgerEvent.eq_of_unhashed content ?_
  rw [← carries, content]
  rfl

/-- The chains that verify are the sealed ones, whatever their numbers: by induction from the end.
-/
theorem linked_iff_sealed {events : List LedgerEvent}
    : ledgerChain.Linked genesisHash events ↔ ∃ rows, sealedChain rows = events := by
  constructor
  · intro linked
    induction events using List.reverseRecOn with
    | nil => exact ⟨[], rfl⟩
    | append_singleton earlier event ih =>
        obtain ⟨before, names, carries⟩ := HashChain.linked_concat.mp linked
        obtain ⟨rows, rfl⟩ := ih before
        refine ⟨rows ++ [(event.seq, parametersOf event)], ?_⟩
        rw [sealedChain_concat, ← eq_sealedEvent names carries]
  · rintro ⟨rows, rfl⟩
    induction rows using List.reverseRecOn with
    | nil => trivial
    | append_singleton earlier row ih =>
        rw [sealedChain_concat]
        exact HashChain.linked_concat.mpr ⟨ih, rfl, rfl⟩

/-- The ledger after appends to an empty one is sealed with the places, so it is numbered as long as
there are numbers.
-/
theorem numbered_of_appends (entries : List Entry) (few : entries.length ≤ UInt64.size)
    : Numbered (entries.foldl (fun ledger entry => (ledger.append entry).2) ({} : Ledger)).events := by
  have sealed : (entries.foldl (fun ledger entry => (ledger.append entry).2) ({} : Ledger)).events
      = sealedChain (entries.mapIdx fun index entry => (UInt64.ofNat index, entry)) := by
    clear few
    induction entries using List.reverseRecOn with
    | nil => rfl
    | append_singleton earlier entry ih =>
        have length := congrArg List.length
          (seqs_sealedChain (earlier.mapIdx fun index entry => (UInt64.ofNat index, entry)))
        rw [List.length_map, List.length_map, List.length_mapIdx] at length
        rw [List.foldl_append, List.mapIdx_append, List.mapIdx_singleton, sealedChain_concat, ← ih]
        rw [← ih] at length
        simp only [List.foldl_cons, List.foldl_nil, Ledger.append_snd_events, Nat.zero_add]
        rw [← length]
        rfl
  rw [sealed, numbered_sealedChain_iff]
  intro index row there
  rw [List.getElem?_mapIdx, Option.map_eq_some_iff] at there
  obtain ⟨entry, here, rfl⟩ := there
  have inside := (List.getElem?_eq_some_iff.mp here).1
  exact UInt64.toNat_ofNat_of_lt' (Nat.lt_of_lt_of_le inside few)

/-- That a chain verifies numbers it exactly if it was not sealed with other numbers than those of
its places, whatever was loaded.
-/
theorem verified_numbered_iff (events : List LedgerEvent)
    : ((events.foldl Ledger.pushVerified {}).verifyChain = true → Numbered events)
      ↔ ∀ rows, sealedChain rows = events → InOrder rows := by
  rw [Ledger.foldl_pushVerified, List.nil_append, Ledger.verifyChain_iff, linked_iff_sealed]
  constructor
  · rintro numbered rows rfl
    exact (numbered_sealedChain_iff rows).mp (numbered ⟨rows, rfl⟩)
  · rintro inOrder ⟨rows, rfl⟩
    exact (numbered_sealedChain_iff rows).mpr (inOrder rows rfl)

end Chains

-----------------------------------------------------------------------------------------
-- A chain that begins at five
-----------------------------------------------------------------------------------------

section Misnumbered

attribute [local instance] plainDigest

/-- What a single event that is numbered 5 says. -/
def misnumberedContent : Unhashed where
  seq := 5
  prevHash := genesisHash
  kind := "boot"
  retention := .operational90d
  wallMs := 1
  clockQuality := .synced
  hlc := ⟨1, 0, "n1"⟩
  causalHeads := []
  payloadHash := "sha256:p"

def misnumbered : LedgerEvent where
  seq := 5
  prevHash := genesisHash
  hash := misnumberedContent.hash
  kind := "boot"
  retention := .operational90d
  wallMs := 1
  clockQuality := .synced
  hlc := ⟨1, 0, "n1"⟩
  causalHeads := []
  payloadHash := "sha256:p"

/-- A single event with any number verifies, and recorded as the head it is not found. -/
theorem misnumbered_verifies
    : ([misnumbered].foldl Ledger.pushVerified {}).verifyChain = true
      ∧ [misnumbered][0]? = some misnumbered ∧ misnumbered.seq = 5
      ∧ headVerdict (some (LedgerHead.of misnumbered)) [misnumbered]
        = .diverged (LedgerHead.of misnumbered) (some (LedgerHead.of misnumbered))
      ∧ ¬Numbered [misnumbered] := by
  have verified : ([misnumbered].foldl Ledger.pushVerified {}).verifyChain = true := by
    rw [Ledger.foldl_pushVerified, Ledger.verifyChain_iff]
    exact ⟨rfl, rfl, trivial⟩
  refine ⟨verified, rfl, rfl, rfl, ?_⟩
  intro numbered
  exact absurd (numbered.placed 0 misnumbered rfl) (by decide)

end Misnumbered

end VerticalAI.Correctness
