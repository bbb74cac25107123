import VerticalAI.Store.BlobLibraries
import VerticalAI.Store.BlobOps

/-! Crashes inside the writes of puts. What was put reads back and every subject can be put again,
in every run that tears neither a wrapped key nor a file of a blob that is stored.
-/

namespace VerticalAI.Correctness
open VerticalAI.Foundation VerticalAI.Contracts VerticalAI.Store VerticalAI.Store.BlobStore

/-- A put, what it draws and what becomes of its writes. -/
structure PutCall where
  random : PutRandom
  keyId : String
  label : Label
  plaintext : List UInt8
  fates : PutFates

/-- The key ids and plaintexts whose put returned. -/
abbrev Acked := List (String × List UInt8)

section Runs

variable [Digest] [Aead]

def PutCall.run (call : PutCall) (store : BlobStore)
    : Outcome BlobError BlobEnvelope × BlobStore :=
  store.put call.random call.keyId call.label call.plaintext call.fates

/-- The put tears neither the wrapped key it makes nor a file of a blob that was put before. -/
structure Untorn (acked : Acked) (store : BlobStore) (call : PutCall) : Prop where
  key : call.keyId ∉ store.shredded → store.files.keys[dekFile call.keyId]? = none
    → ¬call.fates.dek.Torn 72
  blob : (call.keyId, call.plaintext) ∈ acked → call.keyId ∉ store.shredded
    → ¬call.fates.blob.Torn (call.plaintext.length + 40)
  envelope : (call.keyId, call.plaintext) ∈ acked → call.keyId ∉ store.shredded
    → call.fates.blob = .whole
    → ¬call.fates.envelope.Torn
        (Utf8.encode (envelopeFor call.keyId call.label call.plaintext
          (call.plaintext.length + 40)).toJson.render).length

/-- No other blob that was put has the address of this one. -/
def Apart (acked : Acked) (call : PutCall) : Prop :=
  ∀ pair ∈ acked, address pair.1 pair.2 = address call.keyId call.plaintext
    → pair = (call.keyId, call.plaintext)

/-- What is left of a put: it returned, it failed, or the directory is opened again after a crash.
-/
inductive PutSettled (acked : Acked) (pair : String × List UInt8)
    : Outcome BlobError BlobEnvelope × BlobStore → Acked → BlobStore → Prop where
  | returned {envelope : BlobEnvelope} {after : BlobStore}
      : PutSettled acked pair (.done envelope, after) (pair :: acked) after
  | failed {error : BlobError} {after : BlobStore}
      : PutSettled acked pair (.failed error, after) acked after
  | crashed {cut after : BlobStore} (reopened : BlobStore.open cut.files cut.master = .ok after)
      : PutSettled acked pair (.crashed, cut) acked after

/-- Puts one after the other, between them shreds that return and reopenings. -/
inductive PutRun (initial : BlobStore) : Acked → BlobStore → Prop where
  | start : PutRun initial [] initial
  | put {acked next : Acked} {store after : BlobStore} {call : PutCall}
      (run : PutRun initial acked store) (apart : Apart acked call)
      (untorn : Untorn acked store call)
      (settled : PutSettled acked (call.keyId, call.plaintext) (call.run store) next after)
      : PutRun initial next after
  | shred {acked : Acked} {store after : BlobStore} {event : ShredEvent} {fates : ShredFates}
      (run : PutRun initial acked store) (ran : store.shred event fates = (.done (), after))
      : PutRun initial acked after
  | reopen {acked : Acked} {store after : BlobStore} (run : PutRun initial acked store)
      (reopened : BlobStore.open store.files store.master = .ok after)
      : PutRun initial acked after

variable [EnvelopeReader]

/-- What holds between two calls. -/
structure BlobsHold (acked : Acked) (store : BlobStore) : Prop where
  opened : BlobStore.open store.files store.master = .ok store
  keys : store.KeysUnwrap
  stored : ∀ pair ∈ acked, pair.1 ∉ store.shredded → Stored store pair.1 pair.2

section Steps

variable {acked : Acked} {store : BlobStore} {call : PutCall}

omit [Digest] [EnvelopeReader] in
/-- A key file that unwraps may be added. -/
theorem keysUnwrap_insert (keys : store.KeysUnwrap) {keyId : String} {wrapped : List UInt8}
    {dek : SecretKey} (unwraps : unwrapDek store.master wrapped = some dek)
    : KeysUnwrap { store with
        files := { store.files with keys := store.files.keys.insert (dekFile keyId) wrapped } } := by
  intro other bytes live held
  rcases Table.getElem?_insert_inv held with ⟨-, rfl⟩ | before
  · exact ⟨dek, unwraps⟩
  · exact keys other bytes live before

omit [Digest] [EnvelopeReader] in
theorem keysUnwrap_keyed (keys : store.KeysUnwrap) {middle : BlobStore} {keyId : String}
    {dek : SecretKey} (key : Keyed store middle keyId dek)
    : middle.KeysUnwrap := by
  obtain ⟨live, ⟨wrapped, held, unwraps⟩, rfl | ⟨-, bytes, rfl⟩⟩ := key
  · exact keys
  · obtain rfl : bytes = wrapped :=
      Option.some.inj (Std.ExtTreeMap.getElem?_insert_self.symm.trans held)
    exact keysUnwrap_insert keys unwraps

omit [EnvelopeReader] in
/-- After a put that tears no key, all key files unwrap. -/
theorem BlobsHold.keys_run (keys : store.KeysUnwrap) (correct : Aead.Correct)
    (untorn : Untorn acked store call)
    : (call.run store).2.KeysUnwrap := by
  have ended := keys.put_case correct call.random call.keyId call.label call.plaintext call.fates
  change PutCase _ _ _ _ _ _ (call.run store) at ended
  have whole := untorn.key
  generalize call.run store = result at ended ⊢
  cases ended with
  | refused => exact keys
  | noKey live missing =>
      have untornKey := whole live missing
      rw [← length_wrap correct store.master call.random.dek call.random.wrapNonce] at untornKey
      rcases WriteFate.leaves_untorn untornKey with same | same
      · rw [same]
        exact keys
      · rw [same]
        exact keysUnwrap_insert keys (unwrapDek_wrap correct _ _ _)
  | keyed key =>
      have made := keysUnwrap_keyed keys key
      rw [writeSealed_frame]
      exact made

/-- A put that tears no stored blob loses none. -/
theorem BlobsHold.stored_run (holds : BlobsHold acked store) (correct : Aead.Correct)
    (reads : ∀ envelope : BlobEnvelope,
      EnvelopeReader.fromSlice (Utf8.encode envelope.toJson.render) = some envelope)
    (apart : Apart acked call) (untorn : Untorn acked store call)
    : ∀ pair ∈ acked, pair.1 ∉ store.shredded → Stored (call.run store).2 pair.1 pair.2 := by
  have ended :=
    holds.keys.put_case correct call.random call.keyId call.label call.plaintext call.fates
  change PutCase _ _ _ _ _ _ (call.run store) at ended
  generalize call.run store = result at ended ⊢
  intro pair member alive
  cases ended with
  | refused => exact holds.stored pair member alive
  | noKey live missing =>
      exact (holds.stored pair member alive).mono_keys
        fun _ _ => WriteFate.leaves_missing call.fates.dek missing
  | keyed key =>
      have stored := (holds.stored pair member alive).keyed key
      by_cases same : pair = (call.keyId, call.plaintext)
      · obtain ⟨wrapped, held, unwraps⟩ := key.held
        subst same
        refine stored.writeSealed_same correct reads held unwraps rfl rfl call.random.nonce ?_ ?_
        · rw [length_sealUnder correct]
          exact untorn.blob member alive
        · rw [length_sealUnder correct]
          exact untorn.envelope member alive
      · exact stored.writeSealed_other fun equal =>
          same (apart pair member (address_eq_iff.mpr equal))

omit [EnvelopeReader] in
/-- Whatever becomes of a put, the directory opens again, with the same subjects shredded. -/
theorem open_run (call : PutCall)
    (opened : BlobStore.open store.files store.master = .ok store)
    : BlobStore.open (call.run store).2.files (call.run store).2.master
        = .ok (call.run store).2
      ∧ (call.run store).2.shredded = store.shredded := by
  have ⟨master, shredded, tombstones⟩ :=
    put_frame store call.random call.keyId call.label call.plaintext call.fates
  change (call.run store).2.master = _ at master
  change (call.run store).2.shredded = _ at shredded
  have again := open_same_tombstones opened tombstones
  rw [← master, ← shredded] at again
  exact ⟨again, shredded⟩

/-- A put keeps what holds between two calls. -/
theorem BlobsHold.put (holds : BlobsHold acked store) (correct : Aead.Correct)
    (reads : ∀ envelope : BlobEnvelope,
      EnvelopeReader.fromSlice (Utf8.encode envelope.toJson.render) = some envelope)
    (apart : Apart acked call) (untorn : Untorn acked store call) {next : Acked}
    {after : BlobStore}
    (settled : PutSettled acked (call.keyId, call.plaintext) (call.run store) next after)
    : BlobsHold next after := by
  have keys := BlobsHold.keys_run holds.keys correct untorn
  have stored := holds.stored_run correct reads apart untorn
  have ended :=
    holds.keys.put_case correct call.random call.keyId call.label call.plaintext call.fates
  change PutCase _ _ _ _ _ _ (call.run store) at ended
  have ⟨opened, shredded⟩ := open_run call holds.opened
  generalize call.run store = result at settled keys stored ended opened shredded
  cases settled with
  | returned =>
      refine ⟨opened, keys, fun pair member live => ?_⟩
      rcases List.mem_cons.mp member with rfl | before
      · exact ended.stored correct reads rfl
      · exact stored pair before (shredded ▸ live)
  | failed => exact ⟨opened, keys, fun pair member live => stored pair member (shredded ▸ live)⟩
  | crashed reopened =>
      obtain rfl := Except.ok.inj (opened.symm.trans reopened)
      exact ⟨opened, keys, fun pair member live => stored pair member (shredded ▸ live)⟩

/-- A shred that returns keeps it too: it loses the key of its own subject only. -/
theorem BlobsHold.shred (holds : BlobsHold acked store) {event : ShredEvent} {fates : ShredFates}
    {after : BlobStore} (ran : store.shred event fates = (.done (), after))
    : BlobsHold acked after := by
  obtain ⟨-, -, rfl⟩ := shred_done ran
  have other {keyId : String} (live : keyId ∉ insert event.keyId store.shredded)
      : keyId ∉ store.shredded ∧ dekFile keyId ≠ dekFile event.keyId := by
    rw [Finset.mem_insert, not_or] at live
    exact ⟨live.2, fun same => live.1 (dekFile_injective same)⟩
  refine ⟨?_, fun keyId wrapped live held => ?_, fun pair member live => ?_⟩
  · exact open_insert_tombstone holds.opened event.keyId _ rfl
  · have ⟨before, different⟩ := other live
    exact holds.keys keyId wrapped before
      ((Table.getElem?_erase_other different).symm.trans held)
  · have ⟨before, different⟩ := other live
    obtain ⟨⟨wrapped, dek, bytes, held, rest⟩, named⟩ := holds.stored pair member before
    exact ⟨⟨wrapped, dek, bytes, (Table.getElem?_erase_other different).trans held, rest⟩, named⟩

end Steps

/-- What holds between calls holds after every run, by induction on it. -/
theorem PutRun.holds (correct : Aead.Correct)
    (reads : ∀ envelope : BlobEnvelope,
      EnvelopeReader.fromSlice (Utf8.encode envelope.toJson.render) = some envelope)
    {initial store : BlobStore} {acked : Acked}
    (opened : BlobStore.open initial.files initial.master = .ok initial)
    (keys : initial.KeysUnwrap) (run : PutRun initial acked store)
    : BlobsHold acked store := by
  induction run with
  | start => exact ⟨opened, keys, nofun⟩
  | put _ apart untorn settled ih => exact ih.put correct reads apart untorn settled
  | shred _ ran ih => exact ih.shred ran
  | reopen _ reopened ih =>
      obtain rfl := Except.ok.inj (ih.opened.symm.trans reopened)
      exact ih

/-- In every run of puts with crashes inside their writes, and with shreds and reopenings, that
tears neither a key it makes nor a file of a stored blob: what was put reads back unless its
subject was shredded, every other subject can be put and read, and the directory opens after every
crash.
-/
theorem untorn_puts_survive (correct : Aead.Correct)
    (sized : ∀ bytes, (Digest.sha256 bytes).length = 32)
    (reads : ∀ envelope : BlobEnvelope,
      EnvelopeReader.fromSlice (Utf8.encode envelope.toJson.render) = some envelope)
    {initial store : BlobStore} {acked : Acked}
    (opened : BlobStore.open initial.files initial.master = .ok initial)
    (keys : initial.KeysUnwrap) (run : PutRun initial acked store)
    : (∀ pair ∈ acked, pair.1 ∉ store.shredded
        → store.get (address pair.1 pair.2) = .ok pair.2)
      ∧ (∀ (random : PutRandom) (keyId : String) (label : Label) (plaintext : List UInt8),
        keyId ∉ store.shredded
        → ∃ envelope after, store.put random keyId label plaintext {} = (.done envelope, after)
          ∧ after.get (address keyId plaintext) = .ok plaintext)
      ∧ ∀ call : PutCall, ∃ reopened,
        BlobStore.open (call.run store).2.files (call.run store).2.master = .ok reopened
        ∧ reopened.shredded = store.shredded := by
  have holds := run.holds correct reads opened keys
  refine ⟨fun pair member live => (holds.stored pair member live).get sized live,
    fun random keyId label plaintext live => ?_, fun call => ?_⟩
  · have ended := holds.keys.put_case correct random keyId label plaintext {}
    obtain ⟨-, shredded, -⟩ := put_frame store random keyId label plaintext {}
    obtain ⟨envelope, done⟩ := ended.done live
    have stored := ended.stored correct reads done
    exact ⟨envelope, _, Prod.ext done rfl, stored.get sized (shredded ▸ live)⟩
  · have ⟨again, shredded⟩ := open_run call holds.opened
    exact ⟨_, again, shredded⟩

end Runs

-----------------------------------------------------------------------------------------
-- Two puts
-----------------------------------------------------------------------------------------

/-- The first put into an empty directory. -/
def firstPut : PutCall where
  random := zeroRandom
  keyId := "task:1"
  label := .bottom
  plaintext := [1, 2, 3]
  fates := {}

/-- A put of something else for the same subject, with the power gone after a byte of it. -/
def tornPut : PutCall :=
  { firstPut with plaintext := [4, 5], fates := { blob := .crashed (some 1) } }

/-- After a torn write of a blob that is not stored yet, the blob before it reads back, and the torn
one can be put and read.
-/
theorem untorn_puts_survive_torn_put
    : letI := paddedDigest
      letI := plainAead
      letI := canonicalEnvelopes
      ∃ envelope stored cut reopened,
        firstPut.run emptyStore = (.done envelope, stored)
        ∧ tornPut.run stored = (.crashed, cut)
        ∧ BlobStore.open cut.files cut.master = .ok reopened
        ∧ reopened.get (address "task:1" [1, 2, 3]) = .ok [1, 2, 3]
        ∧ ∃ again after, reopened.put zeroRandom "task:1" .bottom [4, 5] {} = (.done again, after)
          ∧ after.get (address "task:1" [4, 5]) = .ok [4, 5] := by
  let := paddedDigest
  let := plainAead
  let := canonicalEnvelopes
  have untorn : Untorn [] emptyStore firstPut :=
    { key := fun _ _ ⟨_, _, fate⟩ => fate.elim nofun nofun
      blob := nofun
      envelope := nofun }
  have first : PutRun emptyStore [("task:1", [1, 2, 3])] (firstPut.run emptyStore).2 :=
    .put .start nofun untorn .returned
  have ⟨opened, shredded⟩ := open_run firstPut open_emptyStore
  have apart : Apart [("task:1", [1, 2, 3])] tornPut := by
    intro pair member same
    obtain rfl := List.mem_singleton.mp member
    exact absurd same (by decide +kernel)
  have unstored : (tornPut.keyId, tornPut.plaintext) ∉ [("task:1", [1, 2, 3])] := by decide
  have tornLater : Untorn [("task:1", [1, 2, 3])] (firstPut.run emptyStore).2 tornPut :=
    { key := fun _ _ ⟨_, _, fate⟩ => fate.elim nofun nofun
      blob := fun member => absurd member unstored
      envelope := fun member => absurd member unstored }
  obtain ⟨reopens, shreddedToo⟩ := open_run tornPut opened
  have run : PutRun emptyStore [("task:1", [1, 2, 3])] (tornPut.run (firstPut.run emptyStore).2).2 :=
    .put first apart tornLater (.crashed reopens)
  have live : "task:1" ∉ (tornPut.run (firstPut.run emptyStore).2).2.shredded := by
    rw [shreddedToo, shredded]
    exact Finset.notMem_empty _
  obtain ⟨reads, puts, -⟩ := untorn_puts_survive plainAead_correct paddedDigest_length
    canonicalFromSlice_render open_emptyStore nofun run
  exact ⟨_, _, _, _, rfl, rfl, reopens, reads ("task:1", [1, 2, 3]) List.mem_cons_self live,
    puts zeroRandom "task:1" .bottom [4, 5] live⟩

/-- Too short a ciphertext is no blob, whatever the envelope says. -/
theorem get_ne_ok_of_short [Digest] [Aead] [EnvelopeReader] {store : BlobStore}
    {hash digits : String}
    {bytes : List UInt8} (valid : validateHash hash = .ok digits)
    (held : store.files.bins[digits]? = some bytes) (short : bytes.length ≤ 24)
    (plaintext : List UInt8)
    : store.get hash ≠ .ok plaintext := by
  have fails (dek : SecretKey) : openUnder dek (Challenge.utf8 hash) bytes = none := by
    rw [openUnder, if_pos short]
  intro got
  simp only [BlobStore.get, valid, held, fails, bind, Except.bind, Except.mapError] at got
  split at got
  · cases got
  · split at got
    · cases got
    · split at got <;> cases got

/-- Too short a key file ends every put for its subject. -/
theorem put_not_done_of_short [Digest] [Aead] {store : BlobStore} {keyId : String}
    {bytes : List UInt8} (held : store.files.keys[dekFile keyId]? = some bytes)
    (short : bytes.length ≤ 24) (random : PutRandom) (label : Label) (plaintext : List UInt8)
    (fates : PutFates) (envelope : BlobEnvelope)
    : (store.put random keyId label plaintext fates).1 ≠ .done envelope := by
  have fails : unwrapDek store.master bytes = none := by
    rw [unwrapDek, openUnder, if_pos short, Option.bind_none]
  refine (put_of_no_dek label plaintext fun dek => ?_).1 envelope
  by_cases live : keyId ∈ store.shredded
  · simp only [dekFor, heldDek, if_pos live]
    intro same
    cases same
  · simp only [dekFor, heldDek, if_neg live, held, fails]
    intro same
    cases same

/-- A power cut inside a second put of what is stored costs the blob; a power cut inside the first
put of a subject costs every later put for it.
-/
theorem torn_writes_cost_blobs
    : letI := paddedDigest
      letI := plainAead
      (∃ envelope stored cut reopened,
        firstPut.run emptyStore = (.done envelope, stored)
        ∧ PutCall.run { firstPut with fates := { blob := .crashed (some 0) } } stored
          = (.crashed, cut)
        ∧ BlobStore.open cut.files cut.master = .ok reopened ∧ "task:1" ∉ reopened.shredded
        ∧ ∀ _ : EnvelopeReader, reopened.get (address "task:1" [1, 2, 3]) ≠ .ok [1, 2, 3])
      ∧ ∃ cut reopened,
        PutCall.run { firstPut with fates := { dek := .crashed (some 0) } } emptyStore
          = (.crashed, cut)
        ∧ BlobStore.open cut.files cut.master = .ok reopened ∧ "task:1" ∉ reopened.shredded
        ∧ ∀ (random : PutRandom) (label : Label) (plaintext : List UInt8) (fates : PutFates)
          (envelope : BlobEnvelope),
          (reopened.put random "task:1" label plaintext fates).1 ≠ .done envelope := by
  let := paddedDigest
  let := plainAead
  refine ⟨⟨_, _, _, _, rfl, rfl, rfl, Finset.notMem_empty _, fun _ => ?_⟩,
    ⟨_, _, rfl, rfl, Finset.notMem_empty _, ?_⟩⟩
  · exact get_ne_ok_of_short (validateHash_address paddedDigest_length _ _)
      Std.ExtTreeMap.getElem?_insert_self (Nat.zero_le _) _
  · exact put_not_done_of_short Std.ExtTreeMap.getElem?_insert_self (Nat.zero_le _)

end VerticalAI.Correctness
