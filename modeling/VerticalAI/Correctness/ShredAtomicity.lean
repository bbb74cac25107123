import VerticalAI.Store.BlobLibraries
import VerticalAI.Store.BlobOps

/-! A shred that fails or is cut off leaves its subject untouched or shredded, except between the
removal of its data key and the tombstone.
-/

namespace VerticalAI.Correctness
open VerticalAI.Foundation VerticalAI.Contracts VerticalAI.Store VerticalAI.Store.BlobStore

section Definitions

variable [Digest] [Aead]

/-- The stores that a process can have before it, whatever became of writes and removals. -/
inductive BlobReachable : BlobStore → Prop where
  | opened {files : BlobDir} {master : SecretKey} {store : BlobStore}
      (ran : BlobStore.open files master = .ok store)
      : BlobReachable store
  | put {store : BlobStore} (random : PutRandom) (keyId : String) (label : Label)
      (plaintext : List UInt8) (fates : PutFates) (reached : BlobReachable store)
      : BlobReachable (store.put random keyId label plaintext fates).2
  | shred {store : BlobStore} (event : ShredEvent) (fates : ShredFates)
      (reached : BlobReachable store)
      : BlobReachable (store.shred event fates).2

variable [EnvelopeReader]

omit [Digest] [Aead] in
/-- The envelope at an address names it and the subject. -/
def BlobOf (store : BlobStore) (keyId hash : String) : Prop :=
  ∃ envelope, store.envelope hash = .ok envelope ∧ envelope.hash = hash ∧ envelope.keyId = keyId

/-- Every blob of the subject that could be read can be read. -/
def Untouched (store reopened : BlobStore) (keyId : String) : Prop :=
  ∀ hash, BlobOf store keyId hash
    → ∀ plaintext, store.get hash = .ok plaintext → reopened.get hash = .ok plaintext

/-- Every blob of the subject answers that it is shredded, and so does every put for it. -/
structure FullyShredded (store reopened : BlobStore) (keyId : String) : Prop where
  recorded : reopened.isShredded keyId = true
  gets : ∀ hash, BlobOf store keyId hash → reopened.get hash = .error (.storage .shredded)
  puts : ∀ (random : PutRandom) (label : Label) (plaintext : List UInt8) (fates : PutFates),
    reopened.put random keyId label plaintext fates = (.failed (.storage .shredded), reopened)

omit [EnvelopeReader] in
/-- The subject's data key is gone, and yet a put for it returns. -/
def Resurrected (store reopened : BlobStore) (keyId : String) : Prop :=
  (store.files.keys[dekFile keyId]? ≠ none ∧ reopened.files.keys[dekFile keyId]? = none)
  ∧ ∃ (random : PutRandom) (label : Label) (plaintext : List UInt8) (envelope : BlobEnvelope),
    (reopened.put random keyId label plaintext {}).1 = .done envelope

def AllOrNothing (store reopened : BlobStore) (keyId : String) : Prop :=
  (Untouched store reopened keyId ∨ FullyShredded store reopened keyId)
  ∧ ¬Resurrected store reopened keyId

end Definitions

section Reopening

variable [Digest] [Aead]

/-- The directory of a process always opens, with every subject shredded that the process knows
of.
-/
theorem BlobReachable.opens {store : BlobStore} (reached : BlobReachable store)
    : ∃ reopened, BlobStore.open store.files store.master = .ok reopened
      ∧ store.shredded ⊆ reopened.shredded := by
  induction reached with
  | @opened files master store ran =>
      obtain ⟨rfl, rfl, -⟩ := open_ok_iff.mp ran
      exact ⟨store, ran, Finset.Subset.refl _⟩
  | @put store random keyId label plaintext fates _ ih =>
      obtain ⟨before, opened, known⟩ := ih
      have ⟨master, shredded, tombstones⟩ := put_frame store random keyId label plaintext fates
      rw [master, shredded]
      exact ⟨_, open_same_tombstones opened tombstones, known⟩
  | @shred store event fates _ ih =>
      obtain ⟨before, opened, known⟩ := ih
      have after := shred_case store event fates
      generalize (store.shred event fates).2 = left at after ⊢
      cases after with
      | kept => exact ⟨before, opened, known⟩
      | keyless => exact ⟨_, open_same_tombstones opened rfl, known⟩
      | marked _ _ remembered =>
          refine ⟨_, open_insert_tombstone opened event.keyId _ rfl, ?_⟩
          rcases remembered with rfl | rfl
          · exact known.trans (Finset.subset_insert _ _)
          · exact Finset.insert_subset_insert _ known

variable [EnvelopeReader] {store reopened : BlobStore} {keyId : String}

/-- Where a reopened store has a tombstone of a subject, the subject is fully shredded. -/
theorem fullyShredded_of_mem (envelopes : reopened.files.envelopes = store.files.envelopes)
    (shredded : keyId ∈ reopened.shredded)
    : FullyShredded store reopened keyId := by
  refine ⟨decide_eq_true shredded, fun hash blob => ?_, fun random label plaintext fates => ?_⟩
  · obtain ⟨envelope, named, rfl, rfl⟩ := blob
    have same : reopened.envelope envelope.hash = .ok envelope := by
      rw [← named]
      simp only [BlobStore.envelope, envelopes]
    have dek : reopened.readDek envelope.keyId = .error .shredded := by
      simp only [readDek, heldDek, if_pos shredded]
    cases valid : validateHash envelope.hash with
    | error error =>
        simp only [BlobStore.envelope, valid, bind, Except.bind] at same
        cases same
    | ok digits =>
        simp only [BlobStore.get, valid, same, dek, bind, Except.bind, Except.mapError, ne_eq,
          not_true_eq_false, if_false]
  · simp only [put, dekFor, heldDek, if_pos shredded]

/-- No put for a fully shredded subject returns. -/
theorem FullyShredded.not_resurrected (shredded : FullyShredded store reopened keyId)
    : ¬Resurrected store reopened keyId := by
  rintro ⟨-, random, label, plaintext, envelope, done⟩
  rw [shredded.puts random label plaintext {}] at done
  cases done

/-- A subject without tombstone whose data key is as it was is untouched. -/
theorem untouched_of_key (bins : reopened.files.bins = store.files.bins)
    (envelopes : reopened.files.envelopes = store.files.envelopes)
    (master : reopened.master = store.master) (known : store.shredded ⊆ reopened.shredded)
    (live : keyId ∉ reopened.shredded)
    (key : reopened.files.keys[dekFile keyId]? = store.files.keys[dekFile keyId]?)
    : Untouched store reopened keyId := by
  rintro hash ⟨envelope, named, -, rfl⟩ plaintext got
  rw [get_congr bins envelopes fun found read => ?_]
  · exact got
  · obtain rfl := Except.ok.inj (named.symm.trans read)
    simp only [readDek, heldDek, if_neg live, if_neg fun member => live (known member), key, master]

omit [EnvelopeReader] in
/-- A subject that has no data key, and no tombstone, can be put. -/
theorem resurrected_of_no_key (live : keyId ∉ reopened.shredded)
    (missing : reopened.files.keys[dekFile keyId]? = none)
    (had : store.files.keys[dekFile keyId]? ≠ none)
    : Resurrected store reopened keyId := by
  have made : reopened.dekFor keyId zeroRandom .whole
      = (.done zeroKey, { reopened with
          files := { reopened.files with
            keys := reopened.files.keys.insert (dekFile keyId)
              (wrap reopened.master zeroKey zeroNonce) } }) := by
    simp only [dekFor, heldDek, if_neg live, missing]
    rfl
  refine ⟨⟨had, missing⟩, zeroRandom, .bottom, [], ?_⟩
  rw [put_of_dek made]
  exact ⟨_, rfl⟩

theorem allOrNothing_of_mem (envelopes : reopened.files.envelopes = store.files.envelopes)
    (shredded : keyId ∈ reopened.shredded)
    : AllOrNothing store reopened keyId :=
  have full := fullyShredded_of_mem envelopes shredded
  ⟨Or.inr full, full.not_resurrected⟩

theorem allOrNothing_of_key (bins : reopened.files.bins = store.files.bins)
    (envelopes : reopened.files.envelopes = store.files.envelopes)
    (master : reopened.master = store.master) (known : store.shredded ⊆ reopened.shredded)
    (live : keyId ∉ reopened.shredded)
    (key : reopened.files.keys[dekFile keyId]? = store.files.keys[dekFile keyId]?)
    : AllOrNothing store reopened keyId :=
  ⟨Or.inl (untouched_of_key bins envelopes master known live key),
    fun resurrected => resurrected.1.1 (key.symm.trans resurrected.1.2)⟩

end Reopening

/-- Whatever becomes of a shred, the directory opens again. The subject is then untouched or fully
shredded, unless it had no tombstone before, its data key was removed, and no tombstone got onto the
disk; so it is for the subject without a name, which has none.
-/
theorem shred_allOrNothing_iff [Digest] [Aead] [EnvelopeReader] {store : BlobStore}
    (reached : BlobReachable store) (event : ShredEvent) (fates : ShredFates)
    : ∃ reopened,
      BlobStore.open (store.shred event fates).2.files (store.shred event fates).2.master
        = .ok reopened
      ∧ (AllOrNothing store reopened event.keyId
        ↔ Tombstoned store.files event.keyId ∨ store.files.keys[dekFile event.keyId]? = none
          ∨ fates.key ≠ .removed ∨ Marks event.keyId fates.tombstone) := by
  obtain ⟨before, opened, known⟩ := reached.opens
  have ⟨files, master, _, member⟩ := open_ok_iff.mp opened
  have after := shred_case store event fates
  generalize (store.shred event fates).2 = left at after ⊢
  cases after with
  | kept key =>
      refine ⟨before, opened, iff_of_true ?_ (Or.inr (Or.inr (Or.inl key)))⟩
      by_cases dead : event.keyId ∈ before.shredded
      · exact allOrNothing_of_mem (by rw [files]) dead
      · exact allOrNothing_of_key (by rw [files]) (by rw [files]) master known dead (by rw [files])
  | keyless key unmarked =>
      refine ⟨_, open_same_tombstones opened rfl, ?_⟩
      have gone : (store.files.keys.erase (dekFile event.keyId))[dekFile event.keyId]? = none :=
        Std.ExtTreeMap.getElem?_erase_self
      by_cases dead : event.keyId ∈ before.shredded
      · exact iff_of_true (allOrNothing_of_mem rfl dead) (Or.inl ((member _).mp dead))
      · by_cases had : store.files.keys[dekFile event.keyId]? = none
        · have same := gone.trans had.symm
          exact iff_of_true (allOrNothing_of_key rfl rfl master known dead same)
            (Or.inr (Or.inl had))
        · refine iff_of_false (fun whole => whole.2 (resurrected_of_no_key dead gone had)) ?_
          rintro (marked | missing | kept | marks)
          · exact dead ((member _).mpr marked)
          · exact had missing
          · exact kept key
          · exact unmarked marks
  | marked _ marks =>
      refine ⟨_, open_insert_tombstone opened event.keyId _ rfl, ?_⟩
      exact iff_of_true (allOrNothing_of_mem rfl (Finset.mem_insert_self _ _))
        (Or.inr (Or.inr (Or.inr marks)))

-----------------------------------------------------------------------------------------
-- A subject with one blob
-----------------------------------------------------------------------------------------

/-- The store after one put into an empty directory. -/
def oneBlob [Digest] [Aead] : BlobStore :=
  (emptyStore.put zeroRandom "task:1" .bottom [1, 2, 3] {}).2

theorem oneBlob_reachable [Digest] [Aead] : BlobReachable oneBlob :=
  .put zeroRandom "task:1" .bottom [1, 2, 3] {} (.opened open_emptyStore)

/-- A power cut inside the tombstone's write, once its file exists, leaves the subject shredded. -/
theorem shred_allOrNothing_iff_torn
    : letI := paddedDigest
      letI := plainAead
      letI := canonicalEnvelopes
      ∃ reopened,
        BlobStore.open (oneBlob.shred erasure { tombstone := .crashed (some 0) }).2.files
          (oneBlob.shred erasure { tombstone := .crashed (some 0) }).2.master = .ok reopened
        ∧ AllOrNothing oneBlob reopened "task:1" := by
  let := paddedDigest
  let := plainAead
  let := canonicalEnvelopes
  have ⟨reopened, opened, whole⟩ :=
    shred_allOrNothing_iff oneBlob_reachable erasure { tombstone := .crashed (some 0) }
  exact ⟨reopened, opened, whole.mpr (Or.inr (Or.inr (Or.inr ⟨by decide, by simp, by simp⟩)))⟩

/-- A power cut between the removal of the data key and the tombstone leaves neither. -/
theorem cut_shred_resurrects
    : letI := paddedDigest
      letI := plainAead
      ∃ left reopened,
        oneBlob.shred erasure { tombstone := .crashed none } = (.crashed, left)
        ∧ BlobStore.open left.files left.master = .ok reopened
        ∧ reopened.isShredded "task:1" = false
        ∧ ∀ _ : EnvelopeReader, ¬AllOrNothing oneBlob reopened "task:1" := by
  let := paddedDigest
  let := plainAead
  refine ⟨_, _, rfl, rfl, rfl, fun _ whole => whole.2 ?_⟩
  refine resurrected_of_no_key (Finset.notMem_empty _) Std.ExtTreeMap.getElem?_erase_self ?_
  have held : oneBlob.files.keys[dekFile "task:1"]? = some (wrap zeroKey zeroKey zeroNonce) :=
    Std.ExtTreeMap.getElem?_insert_self
  rw [held]
  nofun

end VerticalAI.Correctness
