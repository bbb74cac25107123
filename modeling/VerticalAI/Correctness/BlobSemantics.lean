import VerticalAI.Correctness.BlobCrashes
import VerticalAI.Store.BlobLibraries
import VerticalAI.Store.BlobOps

/-! What the payload tier means, over runs of puts, shreds and reopenings: what was put reads back
until its subject is shredded, and nothing else is ever read at an address.
-/

namespace VerticalAI.Correctness
open VerticalAI.Foundation VerticalAI.Contracts VerticalAI.Store VerticalAI.Store.BlobStore

/-- What happened in a run: the puts and the shreds that returned, and all that was sealed. -/
structure BlobHistory where
  puts : Acked := []
  shreds : List String := []
  sealed : List (SecretKey × String × List UInt8) := []

section Runs

variable [Digest] [Aead]

omit [Digest] in
/-- What a put seals: the plaintext under the subject's data key, if it gets that far. -/
def PutCall.seals (call : PutCall) (store : BlobStore)
    : List (SecretKey × String × List UInt8) :=
  match (store.dekFor call.keyId call.random call.fates.dek).1 with
  | .done dek => [(dek, call.keyId, call.plaintext)]
  | _ => []

/-- Puts, shreds and reopenings without a crash, and without a failure inside a write or after a
data key was removed. Distinct blobs have distinct addresses.
-/
inductive BlobRun (initial : BlobStore) : BlobHistory → BlobStore → Prop where
  | start : BlobRun initial {} initial
  | put {history : BlobHistory} {store after : BlobStore} {call : PutCall}
      {envelope : BlobEnvelope} (run : BlobRun initial history store)
      (apart : Apart (history.sealed.map (·.2)) call) (untorn : Untorn history.puts store call)
      (ran : call.run store = (.done envelope, after))
      : BlobRun initial
          { history with
            puts := (call.keyId, call.plaintext) :: history.puts
            sealed := call.seals store ++ history.sealed }
          after
  | putFailed {history : BlobHistory} {store after : BlobStore} {call : PutCall}
      {error : BlobError} (run : BlobRun initial history store)
      (apart : Apart (history.sealed.map (·.2)) call) (untorn : Untorn history.puts store call)
      (ran : call.run store = (.failed error, after))
      : BlobRun initial { history with sealed := call.seals store ++ history.sealed } after
  | shred {history : BlobHistory} {store after : BlobStore} {event : ShredEvent}
      {fates : ShredFates} (run : BlobRun initial history store)
      (ran : store.shred event fates = (.done (), after))
      : BlobRun initial { history with shreds := event.keyId :: history.shreds } after
  | shredFailed {history : BlobHistory} {store after : BlobStore} {event : ShredEvent}
      {fates : ShredFates} {error : BlobError} (run : BlobRun initial history store)
      (kept : fates.key ≠ .removed) (ran : store.shred event fates = (.failed error, after))
      : BlobRun initial history after
  | reopen {history : BlobHistory} {store after : BlobStore}
      (run : BlobRun initial history store)
      (reopened : BlobStore.open store.files store.master = .ok after)
      : BlobRun initial history after

end Runs

section Others

variable [Digest] [Aead] [EnvelopeReader]

/-- For every subject but one, each call answers as before. -/
structure LeavesOthers (store after : BlobStore) (keyId : String) : Prop where
  envelopes : ∀ hash, after.envelope hash = store.envelope hash
  gets : ∀ hash, (∀ envelope, store.envelope hash = .ok envelope → envelope.keyId ≠ keyId)
    → after.get hash = store.get hash
  shredded : ∀ other, other ≠ keyId → after.isShredded other = store.isShredded other
  puts : ∀ other, other ≠ keyId
    → ∀ (random : PutRandom) (label : Label) (plaintext : List UInt8) (fates : PutFates),
      (after.put random other label plaintext fates).1
        = (store.put random other label plaintext fates).1

omit [EnvelopeReader] in
/-- How a put ends depends on the subject's data key only. -/
theorem put_outcome_congr {store other : BlobStore} {keyId : String}
    (held : other.heldDek keyId = store.heldDek keyId) (random : PutRandom) (label : Label)
    (plaintext : List UInt8) (fates : PutFates)
    : (other.put random keyId label plaintext fates).1
      = (store.put random keyId label plaintext fates).1 := by
  have written (first second : BlobStore) (envelope : BlobEnvelope) (bytes : List UInt8)
      : (first.writeSealed envelope bytes fates).1 = (second.writeSealed envelope bytes fates).1 := by
    simp only [writeSealed]
    cases fates.blob.outcome (BlobError.io "write blob") <;> rfl
  simp only [put, dekFor, held]
  cases store.heldDek keyId with
  | error error => rfl
  | ok found =>
      cases found with
      | some dek => exact written _ _ _ _
      | none =>
          dsimp only
          cases fates.dek with
          | whole => exact written _ _ _ _
          | failed landed => rfl
          | crashed landed => rfl

/-- A shred, whatever becomes of it, changes no answer for another subject. -/
theorem shred_leavesOthers (store : BlobStore) (event : ShredEvent) (fates : ShredFates)
    : LeavesOthers store (store.shred event fates).2 event.keyId := by
  have after := shred_case store event fates
  generalize (store.shred event fates).2 = left at after ⊢
  have ⟨bins, envelopes, master, subjects, keys⟩ : left.files.bins = store.files.bins
      ∧ left.files.envelopes = store.files.envelopes ∧ left.master = store.master
      ∧ (∀ other, other ≠ event.keyId → (other ∈ left.shredded ↔ other ∈ store.shredded))
      ∧ ∀ other, other ≠ event.keyId
        → left.files.keys[dekFile other]? = store.files.keys[dekFile other]? := by
    have erased {other : String} (different : other ≠ event.keyId)
        : (store.files.keys.erase (dekFile event.keyId))[dekFile other]?
          = store.files.keys[dekFile other]? :=
      Table.getElem?_erase_other fun same => different (dekFile_injective same)
    cases after with
    | kept => exact ⟨rfl, rfl, rfl, fun _ _ => Iff.rfl, fun _ _ => rfl⟩
    | keyless => exact ⟨rfl, rfl, rfl, fun _ _ => Iff.rfl, fun _ => erased⟩
    | marked _ _ known =>
        refine ⟨rfl, rfl, rfl, fun other different => ?_, fun _ => erased⟩
        rcases known with rfl | rfl
        · exact Iff.rfl
        · exact Finset.mem_insert.trans (or_iff_right different)
  have held (other : String) (different : other ≠ event.keyId)
      : left.heldDek other = store.heldDek other := by
    simp only [heldDek, subjects other different, keys other different, master]
  refine ⟨fun hash => ?_, fun hash named => ?_, fun other different => ?_,
    fun other different => put_outcome_congr (held other different)⟩
  · simp only [BlobStore.envelope, envelopes]
  · refine get_congr bins envelopes fun envelope read => ?_
    simp only [readDek, held envelope.keyId (named envelope read)]
  · simp only [isShredded, subjects other different]

end Others

-----------------------------------------------------------------------------------------
-- What holds along a run
-----------------------------------------------------------------------------------------

section Semantics

variable [Digest] [Aead] [EnvelopeReader] {initial store : BlobStore} {history : BlobHistory}
  {call : PutCall}

/-- What the files say of the history of a run. -/
structure HistoryHolds (initial : BlobStore) (history : BlobHistory) (store : BlobStore)
    : Prop where
  blobs : BlobsHold history.puts store
  named : ∀ pair ∈ history.puts, Named store pair.1 pair.2
  subjects : ∀ keyId,
    keyId ∈ store.shredded ↔ keyId ∈ initial.shredded ∨ keyId ∈ history.shreds
  fresh : ∀ pair ∈ history.puts, pair.1 ∉ initial.shredded
  recorded : ∀ pair ∈ history.puts, ∃ dek, (dek, pair) ∈ history.sealed
  distinct : ∀ row ∈ history.sealed, ∀ other ∈ history.sealed,
    address row.2.1 row.2.2 = address other.2.1 other.2.2 → row.2 = other.2

omit [Digest] [EnvelopeReader] in
theorem seals_row {row : SecretKey × String × List UInt8} (member : row ∈ call.seals store)
    : row.2 = (call.keyId, call.plaintext) := by
  unfold PutCall.seals at member
  split at member
  · obtain rfl := List.mem_singleton.mp member
    rfl
  · cases member

omit [EnvelopeReader] in
/-- A put that returned sealed its plaintext, for a subject that was not shredded. -/
theorem seals_of_done {envelope : BlobEnvelope} (done : (call.run store).1 = .done envelope)
    : (∃ dek, (dek, call.keyId, call.plaintext) ∈ call.seals store)
      ∧ call.keyId ∉ store.shredded := by
  constructor
  · by_contra unsealed
    refine (put_of_no_dek _ _ fun dek held => unsealed ⟨dek, ?_⟩).1 envelope done
    simp only [PutCall.seals, held, List.mem_singleton]
  · intro shredded
    simp only [PutCall.run, put, dekFor, heldDek, if_pos shredded] at done
    cases done

namespace HistoryHolds

/-- A put leaves the envelopes of all blobs that were put before. -/
theorem named_run (holds : HistoryHolds initial history store) (correct : Aead.Correct)
    (reads : ∀ envelope : BlobEnvelope,
      EnvelopeReader.fromSlice (Utf8.encode envelope.toJson.render) = some envelope)
    (apart : Apart history.puts call) (untorn : Untorn history.puts store call)
    : ∀ pair ∈ history.puts, Named (call.run store).2 pair.1 pair.2 := by
  intro pair member
  by_cases shredded : pair.1 ∈ store.shredded
  · have ended :=
      holds.blobs.keys.put_case correct call.random call.keyId call.label call.plaintext call.fates
    change PutCase _ _ _ _ _ _ (call.run store) at ended
    generalize call.run store = result at ended ⊢
    have named := holds.named pair member
    cases ended with
    | refused => exact named
    | noKey => exact named
    | @keyed dek middle key =>
        have live := key.live
        have kept : Named middle pair.1 pair.2 := by
          rcases key.made with rfl | ⟨-, _, rfl⟩ <;> exact named
        refine kept.writeSealed_other fun same => ?_
        rw [apart pair member (address_eq_iff.mpr same)] at shredded
        exact live shredded
  · exact (holds.blobs.stored_run correct reads apart untorn pair member shredded).named

omit [EnvelopeReader] in
/-- What a call seals is apart from what was sealed before. -/
theorem distinct_seals
    (distinct : ∀ row ∈ history.sealed, ∀ other ∈ history.sealed,
      address row.2.1 row.2.2 = address other.2.1 other.2.2 → row.2 = other.2)
    (apart : Apart (history.sealed.map (·.2)) call)
    : ∀ row ∈ call.seals store ++ history.sealed, ∀ other ∈ call.seals store ++ history.sealed,
      address row.2.1 row.2.2 = address other.2.1 other.2.2 → row.2 = other.2 := by
  intro row member other otherMember same
  rcases List.mem_append.mp member with now | before
  · have own := seals_row now
    rcases List.mem_append.mp otherMember with also | earlier
    · exact own.trans (seals_row also).symm
    · rw [own] at same ⊢
      exact (apart other.2 (List.mem_map_of_mem earlier) same.symm).symm
  · rcases List.mem_append.mp otherMember with also | earlier
    · have own := seals_row also
      rw [own] at same ⊢
      exact apart row.2 (List.mem_map_of_mem before) same
    · exact distinct row before other earlier same

/-- What was put is apart from a call that is apart from what was sealed. -/
theorem apart_puts (holds : HistoryHolds initial history store)
    (apart : Apart (history.sealed.map (·.2)) call)
    : Apart history.puts call := by
  intro pair member
  obtain ⟨dek, sealed⟩ := holds.recorded pair member
  exact apart pair (List.mem_map.mpr ⟨_, sealed, rfl⟩)

theorem put (holds : HistoryHolds initial history store) (correct : Aead.Correct)
    (reads : ∀ envelope : BlobEnvelope,
      EnvelopeReader.fromSlice (Utf8.encode envelope.toJson.render) = some envelope)
    (apart : Apart (history.sealed.map (·.2)) call) (untorn : Untorn history.puts store call)
    {envelope : BlobEnvelope} {after : BlobStore} (ran : call.run store = (.done envelope, after))
    : HistoryHolds initial
        { history with
          puts := (call.keyId, call.plaintext) :: history.puts
          sealed := call.seals store ++ history.sealed }
        after := by
  have apartPuts := holds.apart_puts apart
  have named := holds.named_run correct reads apartPuts untorn
  have done : (call.run store).1 = .done envelope := by rw [ran]
  have ⟨⟨dek, sealed⟩, live⟩ := seals_of_done done
  have shredded : (call.run store).2.shredded = store.shredded :=
    (put_frame store call.random call.keyId call.label call.plaintext call.fates).2.1
  have ended :=
    holds.blobs.keys.put_case correct call.random call.keyId call.label call.plaintext call.fates
  have stored : Stored (call.run store).2 call.keyId call.plaintext :=
    ended.stored correct reads done
  rw [ran] at named shredded stored
  refine ⟨?_, List.forall_mem_cons.mpr ⟨stored.named, named⟩, fun keyId => ?_,
    List.forall_mem_cons.mpr ⟨fun known => live ((holds.subjects _).mpr (Or.inl known)), holds.fresh⟩,
    List.forall_mem_cons.mpr ⟨⟨dek, List.mem_append_left _ sealed⟩, fun pair member => ?_⟩,
    distinct_seals holds.distinct apart⟩
  · exact holds.blobs.put correct reads apartPuts untorn (ran ▸ .returned)
  · rw [shredded]
    exact holds.subjects keyId
  · obtain ⟨key, earlier⟩ := holds.recorded pair member
    exact ⟨key, List.mem_append_right _ earlier⟩

theorem putFailed (holds : HistoryHolds initial history store) (correct : Aead.Correct)
    (reads : ∀ envelope : BlobEnvelope,
      EnvelopeReader.fromSlice (Utf8.encode envelope.toJson.render) = some envelope)
    (apart : Apart (history.sealed.map (·.2)) call) (untorn : Untorn history.puts store call)
    {error : BlobError} {after : BlobStore} (ran : call.run store = (.failed error, after))
    : HistoryHolds initial { history with sealed := call.seals store ++ history.sealed } after := by
  have apartPuts := holds.apart_puts apart
  have named := holds.named_run correct reads apartPuts untorn
  have shredded : (call.run store).2.shredded = store.shredded :=
    (put_frame store call.random call.keyId call.label call.plaintext call.fates).2.1
  rw [ran] at named shredded
  refine ⟨holds.blobs.put correct reads apartPuts untorn (ran ▸ .failed), named, fun keyId => ?_,
    holds.fresh, fun pair member => ?_, distinct_seals holds.distinct apart⟩
  · rw [shredded]
    exact holds.subjects keyId
  · obtain ⟨key, earlier⟩ := holds.recorded pair member
    exact ⟨key, List.mem_append_right _ earlier⟩

theorem shred (holds : HistoryHolds initial history store) {event : ShredEvent}
    {fates : ShredFates} {after : BlobStore} (ran : store.shred event fates = (.done (), after))
    : HistoryHolds initial { history with shreds := event.keyId :: history.shreds } after := by
  have blobs := holds.blobs.shred ran
  obtain ⟨-, -, rfl⟩ := shred_done ran
  refine ⟨blobs, holds.named, fun keyId => ?_, holds.fresh, holds.recorded, holds.distinct⟩
  rw [Finset.mem_insert, holds.subjects, List.mem_cons, or_left_comm]

end HistoryHolds

/-- What the files say of the history they say after every run, by induction on it. -/
theorem BlobRun.holds (correct : Aead.Correct)
    (reads : ∀ envelope : BlobEnvelope,
      EnvelopeReader.fromSlice (Utf8.encode envelope.toJson.render) = some envelope)
    (opened : BlobStore.open initial.files initial.master = .ok initial)
    (keys : initial.KeysUnwrap) (run : BlobRun initial history store)
    : HistoryHolds initial history store := by
  induction run with
  | start =>
      exact ⟨⟨opened, keys, nofun⟩, nofun, fun keyId => by simp, nofun, nofun, nofun⟩
  | put _ apart untorn ran ih => exact ih.put correct reads apart untorn ran
  | putFailed _ apart untorn ran ih => exact ih.putFailed correct reads apart untorn ran
  | shred _ ran ih => exact ih.shred ran
  | @shredFailed _ store _ event fates _ _ kept ran ih =>
      have after := shred_case store event fates
      rw [ran] at after
      cases after with
      | kept => exact ih
      | keyless removed => exact absurd removed kept
      | marked removed => exact absurd removed kept
  | reopen _ reopened ih =>
      obtain rfl := Except.ok.inj (ih.blobs.opened.symm.trans reopened)
      exact ih

-----------------------------------------------------------------------------------------
-- Altered files
-----------------------------------------------------------------------------------------

omit [Digest] [Aead] [EnvelopeReader] in
/-- The store with other ciphertexts and envelopes in its directory. -/
def altered (store : BlobStore) (bins envelopes : Table (List UInt8)) : BlobStore :=
  { store with files := { store.files with bins, envelopes } }

/-- Nobody forged the ciphertext at an address: if it opens there under a data key of the store, a
put of the run sealed it so.
-/
def Unforged (store : BlobStore) (history : BlobHistory) (bins : Table (List UInt8))
    (hash : String) : Prop :=
  ∀ (keyId : String) dek (digits : String) bytes plaintext, store.readDek keyId = .ok dek
    → validateHash hash = .ok digits → bins[digits]? = some bytes
    → openUnder dek (Challenge.utf8 hash) bytes = some plaintext
    → ∃ other, (dek, other, plaintext) ∈ history.sealed ∧ hash = address other plaintext

/-- What a get returns derives the address, and was opened under a data key with the address. -/
theorem get_ok {hash : String} {plaintext : List UInt8} (got : store.get hash = .ok plaintext)
    : ∃ (keyId : String) (dek : SecretKey) (digits : String) (bytes : List UInt8),
      store.readDek keyId = .ok dek ∧ validateHash hash = .ok digits
      ∧ store.files.bins[digits]? = some bytes
      ∧ openUnder dek (Challenge.utf8 hash) bytes = some plaintext
      ∧ address keyId plaintext = hash := by
  cases valid : validateHash hash with
  | error error =>
      simp only [BlobStore.get, valid, bind, Except.bind, Except.mapError] at got
      cases got
  | ok digits =>
      cases named : store.envelope hash with
      | error error =>
          simp only [BlobStore.get, valid, named, bind, Except.bind, Except.mapError] at got
          cases got
      | ok envelope =>
          cases read : store.readDek envelope.keyId with
          | error error =>
              simp only [BlobStore.get, valid, named, read, bind, Except.bind,
                Except.mapError] at got
              split at got <;> cases got
          | ok dek =>
              simp only [BlobStore.get, valid, named, read, bind, Except.bind,
                Except.mapError] at got
              split at got
              · cases got
              · split at got
                · cases got
                · next bytes held =>
                    split at got
                    · cases got
                    · next opens =>
                        split at got
                        · cases got
                        · next derived =>
                            obtain rfl := Except.ok.inj got
                            exact ⟨_, dek, _, bytes, read, rfl, held, opens, not_not.mp derived⟩

/-- Without key files nothing is read. -/
theorem get_ne_ok_of_keyless (keyless : ∀ name : String, store.files.keys[name]? = none)
    (hash : String) (plaintext : List UInt8)
    : store.get hash ≠ .ok plaintext := by
  intro got
  obtain ⟨keyId, dek, -, -, read, -⟩ := get_ok got
  by_cases shredded : keyId ∈ store.shredded
  · simp only [readDek, heldDek, if_pos shredded] at read
    cases read
  · simp only [readDek, heldDek, if_neg shredded, keyless] at read
    cases read

/-- In every run without crashes, with no write or shred failing half-way: what was put reads back
while its subject is not shredded; afterwards it answers that it is, and so does every put for the
subject; a shred changes no answer for other subjects; and whatever ciphertexts and envelopes are
on disk, what a get returns has the address, and is what was put there if nothing was forged.
-/
theorem blobs_read_back_until_shredded (correct : Aead.Correct)
    (sized : ∀ bytes, (Digest.sha256 bytes).length = 32)
    (reads : ∀ envelope : BlobEnvelope,
      EnvelopeReader.fromSlice (Utf8.encode envelope.toJson.render) = some envelope)
    (opened : BlobStore.open initial.files initial.master = .ok initial)
    (keys : initial.KeysUnwrap) (run : BlobRun initial history store)
    : (∀ pair ∈ history.puts, pair.1 ∉ history.shreds
        → store.get (address pair.1 pair.2) = .ok pair.2)
      ∧ (∀ pair ∈ history.puts, pair.1 ∈ history.shreds
        → store.get (address pair.1 pair.2) = .error (.storage .shredded))
      ∧ (∀ keyId ∈ history.shreds, store.isShredded keyId = true
        ∧ ∀ (random : PutRandom) (label : Label) (plaintext : List UInt8) (fates : PutFates),
          store.put random keyId label plaintext fates = (.failed (.storage .shredded), store))
      ∧ (∀ event fates, LeavesOthers store (store.shred event fates).2 event.keyId)
      ∧ ∀ (bins envelopes : Table (List UInt8)) (hash : String) (plaintext : List UInt8),
        (altered store bins envelopes).get hash = .ok plaintext
        → (∃ keyId, address keyId plaintext = hash)
          ∧ (Unforged store history bins hash
            → ∀ pair ∈ history.puts, address pair.1 pair.2 = hash → plaintext = pair.2) := by
  have holds := run.holds correct reads opened keys
  refine ⟨fun pair member live => ?_, fun pair member shredded => ?_, fun keyId shredded => ?_,
    shred_leavesOthers store, fun bins envelopes hash plaintext got => ?_⟩
  · have unshredded : pair.1 ∉ store.shredded := fun known =>
      ((holds.subjects pair.1).mp known).elim (holds.fresh pair member) live
    exact (holds.blobs.stored pair member unshredded).get sized unshredded
  · exact (holds.named pair member).get_shredded sized ((holds.subjects _).mpr (Or.inr shredded))
  · have known := (holds.subjects keyId).mpr (Or.inr shredded)
    refine ⟨decide_eq_true known, fun random label plaintext fates => ?_⟩
    simp only [BlobStore.put, dekFor, heldDek, if_pos known]
  · obtain ⟨keyId, dek, digits, bytes, read, valid, held, opens, derived⟩ := get_ok got
    refine ⟨⟨keyId, derived⟩, fun unforged pair member same => ?_⟩
    obtain ⟨other, sealed, addressed⟩ := unforged keyId dek digits bytes plaintext read valid held opens
    obtain ⟨key, earlier⟩ := holds.recorded pair member
    exact congrArg Prod.snd (holds.distinct _ sealed _ earlier (addressed.symm.trans same.symm))

end Semantics

/-- The blob of the first put reads back, and no more once its subject is shredded. -/
theorem blobs_read_back_until_shredded_first
    : letI := paddedDigest
      letI := plainAead
      letI := canonicalEnvelopes
      (firstPut.run emptyStore).2.get (address "task:1" [1, 2, 3]) = .ok [1, 2, 3]
      ∧ ((firstPut.run emptyStore).2.shred erasure {}).2.get (address "task:1" [1, 2, 3])
        = .error (.storage .shredded) := by
  let := paddedDigest
  let := plainAead
  let := canonicalEnvelopes
  have untorn : Untorn [] emptyStore firstPut :=
    { key := fun _ _ ⟨_, _, fate⟩ => fate.elim nofun nofun
      blob := nofun
      envelope := nofun }
  have put : BlobRun emptyStore
      { puts := [("task:1", [1, 2, 3])], sealed := firstPut.seals emptyStore ++ [] }
      (firstPut.run emptyStore).2 :=
    .put .start nofun untorn rfl
  have shred : BlobRun emptyStore
      { puts := [("task:1", [1, 2, 3])], shreds := ["task:1"]
        sealed := firstPut.seals emptyStore ++ [] }
      ((firstPut.run emptyStore).2.shred erasure {}).2 := by
    have ran : (firstPut.run emptyStore).2.shred erasure {} = (.done (), _) := rfl
    exact .shred put ran
  exact ⟨(blobs_read_back_until_shredded plainAead_correct paddedDigest_length
      canonicalFromSlice_render open_emptyStore nofun put).1
      ("task:1", [1, 2, 3]) List.mem_cons_self nofun,
    (blobs_read_back_until_shredded plainAead_correct paddedDigest_length
      canonicalFromSlice_render open_emptyStore nofun shred).2.1
      ("task:1", [1, 2, 3]) List.mem_cons_self List.mem_cons_self⟩

/-- The subject without a name cannot be shredded, but the attempt costs its blobs. -/
theorem unnamed_shred_loses_blobs
    : letI := paddedDigest
      letI := plainAead
      ∃ envelope stored error left again,
        PutCall.run { firstPut with keyId := "" } emptyStore = (.done envelope, stored)
        ∧ stored.shred { erasure with keyId := "" } {} = (.failed error, left)
        ∧ left.isShredded "" = false
        ∧ (left.put zeroRandom "" .bottom [] {}).1 = .done again
        ∧ ∀ _ : EnvelopeReader, left.get (address "" [1, 2, 3]) ≠ .ok [1, 2, 3] := by
  let := paddedDigest
  let := plainAead
  refine ⟨_, _, _, _, _, rfl, rfl, rfl, rfl,
    fun _ => get_ne_ok_of_keyless (fun name => ?_) _ _⟩
  -- The only key file there was is gone.
  change ((∅ : Table (List UInt8)).insert (dekFile "") (wrap zeroKey zeroKey zeroNonce)
    |>.erase (dekFile ""))[name]? = none
  by_cases same : name = dekFile ""
  · rw [same]
    exact Std.ExtTreeMap.getElem?_erase_self
  · rw [Table.getElem?_erase_other same, Table.getElem?_insert_ne same]
    rfl

end VerticalAI.Correctness
