import VerticalAI.Correctness.BlobCrashes
import VerticalAI.Foundation.History

/-! Whether an address tells whose plaintext it stands for. Exactly the key ids that another one
goes on from after a zero byte share addresses with it, and then one subject's put writes over the
other's blob.
-/

namespace VerticalAI.Correctness
open VerticalAI.Foundation VerticalAI.Contracts VerticalAI.Store VerticalAI.Store.BlobStore

/-- The other key id begins with the bytes of this one and a zero byte. -/
def Continues (keyId other : String) : Prop :=
  Challenge.utf8 keyId ++ [0] <+: Challenge.utf8 other

instance (keyId other : String) : Decidable (Continues keyId other) :=
  inferInstanceAs (Decidable (_ <+: _))

section Addresses

variable [Digest]

/-- The end of this subject's key id, after a zero byte, is at the front of the other's plaintext. -/
def Moved (keyId : String) (plaintext : List UInt8) (other : String)
    (message : List UInt8) : Prop :=
  ∃ rest, Challenge.utf8 keyId = Challenge.utf8 other ++ 0 :: rest
    ∧ message = rest ++ 0 :: plaintext

theorem Moved.address_eq {keyId other : String} {plaintext message : List UInt8}
    (moved : Moved keyId plaintext other message)
    : address keyId plaintext = address other message := by
  obtain ⟨rest, longer, rfl⟩ := moved
  rw [address, address, longer, List.append_assoc, List.cons_append]

/-- Two pairs have one address exactly if they are the same, or what follows a zero byte of one key
id is moved to the front of the other's plaintext.
-/
theorem address_eq_iff_moved (injective : Function.Injective Digest.sha256)
    (first second : String) (plaintext message : List UInt8)
    : address first plaintext = address second message
      ↔ (first = second ∧ plaintext = message) ∨ Moved first plaintext second message
        ∨ Moved second message first plaintext := by
  constructor
  · intro same
    rw [address_eq_iff, hexHash_address, hexHash_address] at same
    have bytes := injective (Hex.encode_injective same)
    rcases append_cons_trichotomy bytes with equal | ⟨rest, longer⟩ | ⟨rest, longer⟩
    · rw [equal] at bytes
      exact .inl ⟨utf8_injective equal, (List.cons.inj (List.append_cancel_left bytes)).2⟩
    · refine .inr (.inr ⟨rest, longer, ?_⟩)
      rw [longer, List.append_assoc, List.cons_append] at bytes
      exact (List.cons.inj (List.append_cancel_left bytes)).2
    · refine .inr (.inl ⟨rest, longer, ?_⟩)
      rw [longer, List.append_assoc, List.cons_append] at bytes
      exact (List.cons.inj (List.append_cancel_left bytes)).2.symm
  · rintro (⟨rfl, rfl⟩ | moved | moved)
    · rfl
    · exact moved.address_eq
    · exact moved.address_eq.symm

omit [Digest] in
/-- The key id that has more to it goes on from the other. -/
theorem Moved.continues {keyId other : String} {plaintext message : List UInt8}
    (moved : Moved keyId plaintext other message)
    : Continues other keyId := by
  obtain ⟨rest, longer, -⟩ := moved
  exact ⟨rest, by rw [longer, List.append_assoc, List.singleton_append]⟩

omit [Digest] in
/-- What a key id goes on with after a zero byte can be moved to the front of a plaintext. -/
theorem Continues.moved {first second : String} (continues : Continues first second)
    (message : List UInt8)
    : ∃ rest, Challenge.utf8 second = Challenge.utf8 first ++ 0 :: rest
      ∧ Moved second message first (rest ++ 0 :: message) := by
  obtain ⟨rest, joined⟩ := continues
  rw [List.append_assoc, List.singleton_append] at joined
  exact ⟨rest, joined.symm, rest, joined.symm, rfl⟩

variable [Aead]

/-- A put leaves blobs and envelopes at other addresses alone. -/
theorem PutCall.run_other {call : PutCall} {store : BlobStore} {keyId : String}
    {plaintext : List UInt8}
    (apart : address keyId plaintext ≠ address call.keyId call.plaintext)
    : (call.run store).2.files.bins[hexHash (address keyId plaintext)]?
        = store.files.bins[hexHash (address keyId plaintext)]?
      ∧ (call.run store).2.files.envelopes[hexHash (address keyId plaintext)]?
        = store.files.envelopes[hexHash (address keyId plaintext)]? := by
  have key : (store.dekFor call.keyId call.random call.fates.dek).2.files.bins = store.files.bins
      ∧ (store.dekFor call.keyId call.random call.fates.dek).2.files.envelopes
        = store.files.envelopes := by
    unfold dekFor
    split <;> exact ⟨rfl, rfl⟩
  have digits := mt address_eq_iff.mpr apart
  unfold PutCall.run put
  rcases ended : store.dekFor call.keyId call.random call.fates.dek with ⟨dek | error | _, middle⟩
  all_goals rw [ended] at key
  · dsimp only
    rw [writeSealed_frame, ← key.1, ← key.2]
    refine ⟨WriteFate.leaves_other _ digits, ?_⟩
    dsimp only
    split
    · exact WriteFate.leaves_other _ digits
    · rfl
  · exact ⟨by rw [key.1], by rw [key.2]⟩
  · exact ⟨by rw [key.1], by rw [key.2]⟩

/-- A put that returns gives the address of its plaintext. -/
theorem PutCall.run_hash {call : PutCall} {store : BlobStore} {envelope : BlobEnvelope}
    (done : (call.run store).1 = .done envelope)
    : envelope.hash = address call.keyId call.plaintext := by
  unfold PutCall.run put at done
  rcases ended : store.dekFor call.keyId call.random call.fates.dek with ⟨dek | error | _, middle⟩
  all_goals rw [ended] at done
  · obtain ⟨rfl, -⟩ := writeSealed_done done
    rfl
  · cases done
  · cases done

/-- The addresses that puts for two subjects return determine subject and plaintext, and no put
for the second subject touches a blob or an envelope of the first.
-/
structure Unambiguous (first second : String) : Prop where
  determined : ∀ (call other : PutCall) (store later : BlobStore) (envelope found : BlobEnvelope),
    call.keyId = first → other.keyId = second
    → (call.run store).1 = .done envelope → (other.run later).1 = .done found
    → envelope.hash = found.hash → first = second ∧ call.plaintext = other.plaintext
  untouched : ∀ (other : PutCall) (store : BlobStore) (plaintext : List UInt8),
    other.keyId = second → first ≠ second
    → (other.run store).2.files.bins[hexHash (address first plaintext)]?
        = store.files.bins[hexHash (address first plaintext)]?
      ∧ (other.run store).2.files.envelopes[hexHash (address first plaintext)]?
        = store.files.envelopes[hexHash (address first plaintext)]?

/-- A put into an empty directory where no write fails. -/
def plainPut (keyId : String) (plaintext : List UInt8) : PutCall where
  random := zeroRandom
  keyId
  label := .bottom
  plaintext
  fates := {}

/-- It returns. -/
theorem plainPut_done (keyId : String) (plaintext : List UInt8)
    : ∃ envelope, ((plainPut keyId plaintext).run emptyStore).1 = .done envelope := ⟨_, rfl⟩

/-- A subject and one that goes on from it have plaintexts for which both puts return one address.
-/
theorem Continues.ambiguous {first second : String} (continues : Continues first second)
    : ¬Unambiguous first second ∧ ¬Unambiguous second first := by
  have ⟨rest, longer, moved⟩ := continues.moved []
  obtain ⟨envelope, done⟩ := plainPut_done first (rest ++ [0])
  obtain ⟨found, doneToo⟩ := plainPut_done second []
  have differ : first ≠ second := by
    rintro rfl
    exact List.cons_ne_nil _ _ (List.self_eq_append_right.mp longer)
  have hashes : envelope.hash = found.hash := by
    rw [PutCall.run_hash done, PutCall.run_hash doneToo]
    exact moved.address_eq.symm
  constructor
  · intro unambiguous
    exact differ (unambiguous.determined _ _ _ _ envelope found rfl rfl done doneToo hashes).1
  · intro unambiguous
    exact differ
      (unambiguous.determined _ _ _ _ found envelope rfl rfl doneToo done hashes.symm).1.symm

/-- Addresses tell two subjects apart exactly if neither key id goes on from the other after a zero
byte.
-/
theorem unambiguous_iff (injective : Function.Injective Digest.sha256) (first second : String)
    : Unambiguous first second ↔ ¬Continues first second ∧ ¬Continues second first := by
  constructor
  · intro unambiguous
    exact ⟨fun continues => continues.ambiguous.1 unambiguous,
      fun continues => continues.ambiguous.2 unambiguous⟩
  · rintro ⟨apart, apartToo⟩
    have pairs {plaintext message : List UInt8}
        (same : address first plaintext = address second message)
        : first = second ∧ plaintext = message := by
      rcases (address_eq_iff_moved injective _ _ _ _).mp same with equal | moved | moved
      · exact equal
      · exact absurd moved.continues apartToo
      · exact absurd moved.continues apart
    refine ⟨?_, ?_⟩
    · rintro call other store later envelope found rfl rfl done doneToo same
      rw [PutCall.run_hash done, PutCall.run_hash doneToo] at same
      exact pairs same
    · rintro other store plaintext rfl differ
      exact PutCall.run_other fun same => differ (pairs same).1

end Addresses

-----------------------------------------------------------------------------------------
-- A zero byte in a key id
-----------------------------------------------------------------------------------------

/-- Key ids of tasks are told apart. -/
theorem unambiguous_tasks : @Unambiguous plainDigest plainAead "task:1" "task:2" :=
  (@unambiguous_iff plainDigest plainAead (fun _ _ same => same) "task:1" "task:2").mpr (by decide)

attribute [local instance] plainDigest plainAead

/-- A plaintext of the subject `a`, and then one of the subject whose key id goes on after a zero
byte: the second put gives the address of the first and leaves its own envelope there.
-/
theorem zero_byte_moves_between_key_and_text
    : Function.Injective (@Digest.sha256 plainDigest)
      ∧ ∃ envelope found : BlobEnvelope, ∃ between after : BlobStore,
          (plainPut "a" [98, 0, 99]).run emptyStore = (.done envelope, between)
          ∧ (plainPut "a\x00b" [99]).run between = (.done found, after)
          ∧ envelope.hash = found.hash ∧ envelope.keyId = "a" ∧ found.keyId = "a\x00b"
          ∧ between.files.envelopes[hexHash envelope.hash]? = some (Utf8.encode envelope.toJson.render)
          ∧ after.files.envelopes[hexHash envelope.hash]? = some (Utf8.encode found.toJson.render)
          ∧ Utf8.encode envelope.toJson.render ≠ Utf8.encode found.toJson.render
          ∧ ¬Unambiguous "a" "a\x00b" := by
  refine ⟨fun _ _ same => same, _, _, _, _, rfl, rfl, by decide +kernel, rfl, rfl,
    by decide +kernel, by decide +kernel, by decide +kernel, ?_⟩
  have continues : Continues "a" "a\x00b" := by decide
  exact continues.ambiguous.1

end VerticalAI.Correctness
