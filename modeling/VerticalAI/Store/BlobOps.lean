import VerticalAI.Store.Blobs

/-! What the operations of the payload tier do to its files, and what can be read afterwards. -/

namespace VerticalAI.Store
open VerticalAI.Foundation VerticalAI.Contracts

-----------------------------------------------------------------------------------------
-- Names
-----------------------------------------------------------------------------------------

theorem utf8_injective {first second : String} (same : Challenge.utf8 first = Challenge.utf8 second)
    : first = second :=
  String.toList_inj.mp (Utf8.encode_injective same)

theorem shredFile_injective {first second : String} (same : shredFile first = shredFile second)
    : first = second :=
  utf8_injective (Hex.encode_injective same)

theorem dekFile_injective {first second : String} (same : dekFile first = dekFile second)
    : first = second := by
  have lists := congrArg String.toList same
  simp only [dekFile, String.toList_append] at lists
  exact shredFile_injective (String.toList_inj.mp (List.append_cancel_right lists))

/-- A tombstone stands for the subject it was written for. -/
theorem keyIdOfTombstone_shredFile (keyId : String)
    : keyIdOfTombstone (shredFile keyId) = .ok keyId := by
  simp only [keyIdOfTombstone, shredFile, Hex.decode_encode, Challenge.utf8, Utf8.decode_encode,
    String.ofList_toList]

theorem shredFile_eq_empty_iff {keyId : String} : shredFile keyId = "" ↔ keyId = "" := by
  constructor
  · intro empty
    exact shredFile_injective (empty.trans rfl)
  · rintro rfl
    rfl

section Addresses

variable [Digest]

/-- The digits of an address that was computed are those of the digest. -/
theorem hexHash_address (keyId : String) (plaintext : List UInt8)
    : hexHash (address keyId plaintext)
      = Hex.encode (Digest.sha256 (Challenge.utf8 keyId ++ 0 :: plaintext)) := by
  generalize taken : Hex.encode (Digest.sha256 (Challenge.utf8 keyId ++ 0 :: plaintext)) = digits
  have front : "sha256:".toList = ['s', 'h', 'a', '2', '5', '6', ':'] := rfl
  have none : Text.stripPrefix "sha256:".toList digits.toList = none := by
    rw [Text.stripPrefix, if_neg]
    intro starts
    obtain ⟨rest, joined⟩ := List.isPrefixOf_iff_prefix.mp starts
    have member : 's' ∈ digits.toList := by
      rw [← joined, front]
      exact List.mem_cons_self
    rw [← taken] at member
    exact absurd (Hex.encode_lower member) (by decide)
  rw [hexHash, address, hashBytes, taken, String.toList_append,
    Text.trimStartMatches_append (by decide) none, String.ofList_toList]

theorem address_eq_iff {keyId other : String} {plaintext message : List UInt8}
    : address keyId plaintext = address other message
      ↔ hexHash (address keyId plaintext) = hexHash (address other message) := by
  constructor
  · exact congrArg hexHash
  · intro same
    rw [hexHash_address, hexHash_address] at same
    rw [address, address, hashBytes, hashBytes, same]

/-- An address that was computed is a valid one, given that digests have 32 bytes. -/
theorem validateHash_address (sized : ∀ bytes, (Digest.sha256 bytes).length = 32) (keyId : String)
    (plaintext : List UInt8)
    : validateHash (address keyId plaintext) = .ok (hexHash (address keyId plaintext)) := by
  rw [hexHash_address, validateHash, address, hashBytes, String.toList_append,
    Text.stripPrefix_append]
  have long : (Hex.encode (Digest.sha256 (Challenge.utf8 keyId ++ 0 :: plaintext))).toList.length
      = 64 := by
    rw [Hex.length_encode, sized]
  have lower : (Hex.encode (Digest.sha256 (Challenge.utf8 keyId ++ 0 :: plaintext))).toList.all
      (fun digit => ('0' ≤ digit && digit ≤ '9') || ('a' ≤ digit && digit ≤ 'f')) = true :=
    List.all_eq_true.mpr fun _ member => Hex.encode_lower member
  simp only [long, lower, decide_true, Bool.and_self, if_true, String.ofList_toList]

end Addresses

-----------------------------------------------------------------------------------------
-- Writes
-----------------------------------------------------------------------------------------

namespace WriteFate

variable {files : Table (List UInt8)} {name other : String} {bytes : List UInt8}

/-- The file is left with a part of the bytes that were to be written. -/
def Torn (fate : WriteFate) (length : Nat) : Prop :=
  ∃ landed < length, fate = failed (some landed) ∨ fate = crashed (some landed)

theorem leaves_other (fate : WriteFate) (different : other ≠ name)
    : (fate.leaves files name bytes)[other]? = files[other]? := by
  rcases fate with _ | (_ | landed) | (_ | landed)
  · exact Table.getElem?_insert_ne different
  · rfl
  · exact Table.getElem?_insert_ne different
  · rfl
  · exact Table.getElem?_insert_ne different

/-- Writing a file that was missing loses none. -/
theorem leaves_missing (fate : WriteFate) (missing : files[name]? = none) {held : String}
    {row : List UInt8} (there : files[held]? = some row)
    : (fate.leaves files name bytes)[held]? = some row := by
  have different : held ≠ name := fun equal => by
    rw [equal, missing] at there
    cases there
  exact (leaves_other fate different).trans there

/-- A write that does not tear leaves the file as it was or as it is to be. -/
theorem leaves_untorn {fate : WriteFate} (untorn : ¬fate.Torn bytes.length)
    : fate.leaves files name bytes = files ∨ fate.leaves files name bytes = files.insert name bytes := by
  have complete {landed : Nat} (long : ¬landed < bytes.length) : bytes.take landed = bytes :=
    List.take_of_length_le (Nat.not_lt.mp long)
  rcases fate with _ | (_ | landed) | (_ | landed)
  · exact Or.inr rfl
  · exact Or.inl rfl
  · refine Or.inr ?_
    rw [leaves, complete fun short => untorn ⟨landed, short, Or.inl rfl⟩]
  · exact Or.inl rfl
  · refine Or.inr ?_
    rw [leaves, complete fun short => untorn ⟨landed, short, Or.inr rfl⟩]

end WriteFate

namespace BlobStore

-----------------------------------------------------------------------------------------
-- Opening
-----------------------------------------------------------------------------------------

/-- What was read is what the tombstones stand for, by induction on them. -/
theorem readTombstones_ok {names : List String} {subjects : Finset String}
    (read : readTombstones names = .ok subjects)
    : (∀ name ∈ names, ∃ keyId, keyIdOfTombstone name = .ok keyId)
      ∧ ∀ keyId, keyId ∈ subjects ↔ ∃ name ∈ names, keyIdOfTombstone name = .ok keyId := by
  induction names generalizing subjects with
  | nil =>
      obtain rfl := Except.ok.inj read
      simp
  | cons name rest ih =>
      cases named : keyIdOfTombstone name with
      | error error =>
          simp only [readTombstones, named] at read
          cases read
      | ok first =>
          cases others : readTombstones rest with
          | error error =>
              simp only [readTombstones, named, others] at read
              cases read
          | ok later =>
              simp only [readTombstones, named, others] at read
              obtain rfl := Except.ok.inj read
              have ⟨decoded, member⟩ := ih others
              refine ⟨List.forall_mem_cons.mpr ⟨⟨first, named⟩, decoded⟩, fun keyId => ?_⟩
              rw [Finset.mem_insert, member, List.exists_mem_cons_iff, named, Except.ok.injEq,
                eq_comm]

/-- Tombstones that all stand for a subject are read, by induction on them. -/
theorem readTombstones_total {names : List String}
    (decoded : ∀ name ∈ names, ∃ keyId, keyIdOfTombstone name = .ok keyId)
    : ∃ subjects, readTombstones names = .ok subjects := by
  induction names with
  | nil => exact ⟨∅, rfl⟩
  | cons name rest ih =>
      obtain ⟨first, named⟩ := decoded name List.mem_cons_self
      obtain ⟨later, others⟩ := ih fun name member => decoded name (.tail _ member)
      exact ⟨insert first later, by simp only [readTombstones, named, others]; rfl⟩

/-- The subjects a directory has tombstones of. -/
def Tombstoned (files : BlobDir) (keyId : String) : Prop :=
  ∃ (name : String) (bytes : List UInt8),
    files.shredded[name]? = some bytes ∧ keyIdOfTombstone name = .ok keyId

theorem exists_name_iff {files : BlobDir} {keyId : String}
    : (∃ name ∈ files.shredded.list.map (·.1), keyIdOfTombstone name = .ok keyId)
      ↔ Tombstoned files keyId := by
  simp only [List.mem_map, Prod.exists, exists_and_right, exists_eq_right, Table.mem_list,
    Tombstoned]

/-- Opening reads the tombstones, and nothing else. -/
theorem open_ok_iff {files : BlobDir} {master : SecretKey} {store : BlobStore}
    : BlobStore.open files master = .ok store
      ↔ store.files = files ∧ store.master = master
        ∧ (∀ (name : String) bytes, files.shredded[name]? = some bytes
            → ∃ keyId, keyIdOfTombstone name = .ok keyId)
        ∧ ∀ keyId, keyId ∈ store.shredded ↔ Tombstoned files keyId := by
  have listed {name : String} (member : name ∈ files.shredded.list.map (·.1))
      : ∃ bytes, files.shredded[name]? = some bytes := by
    obtain ⟨row, there, rfl⟩ := List.mem_map.mp member
    exact ⟨row.2, Table.mem_list.mp there⟩
  constructor
  · intro opened
    cases read : readTombstones (files.shredded.list.map (·.1)) with
    | error error =>
        simp only [BlobStore.open, read] at opened
        cases opened
    | ok subjects =>
        simp only [BlobStore.open, read] at opened
        obtain rfl := Except.ok.inj opened
        have ⟨decoded, member⟩ := readTombstones_ok read
        refine ⟨rfl, rfl, fun name bytes held => ?_, fun keyId => ?_⟩
        · exact decoded name (List.mem_map.mpr ⟨(name, bytes), Table.mem_list.mpr held, rfl⟩)
        · rw [member, exists_name_iff]
  · rintro ⟨rfl, rfl, decoded, member⟩
    obtain ⟨subjects, read⟩ := readTombstones_total fun name there => by
      obtain ⟨bytes, held⟩ := listed there
      exact decoded name bytes held
    have same : subjects = store.shredded := by
      ext keyId
      rw [(readTombstones_ok read).2, exists_name_iff, member]
    rw [same] at read
    simp only [BlobStore.open, read]
    rfl

theorem Tombstoned.of_shredFile {files : BlobDir} {keyId : String} {bytes : List UInt8}
    (held : files.shredded[shredFile keyId]? = some bytes)
    : Tombstoned files keyId :=
  ⟨shredFile keyId, bytes, held, keyIdOfTombstone_shredFile keyId⟩

/-- A directory that gets another tombstone opens with one more subject shredded. -/
theorem open_insert_tombstone {files after : BlobDir} {master : SecretKey} {store : BlobStore}
    (opened : BlobStore.open files master = .ok store) (keyId : String) (bytes : List UInt8)
    (written : after.shredded = files.shredded.insert (shredFile keyId) bytes)
    : BlobStore.open after master
      = .ok { store with files := after, shredded := insert keyId store.shredded } := by
  obtain ⟨rfl, rfl, decoded, member⟩ := open_ok_iff.mp opened
  refine open_ok_iff.mpr ⟨rfl, rfl, fun name text held => ?_, fun subject => ?_⟩
  · rw [written] at held
    rcases Table.getElem?_insert_inv held with ⟨rfl, -⟩ | before
    · exact ⟨keyId, keyIdOfTombstone_shredFile keyId⟩
    · exact decoded name text before
  · rw [Finset.mem_insert, member]
    constructor
    · rintro (rfl | ⟨name, text, held, named⟩)
      · exact .of_shredFile (written ▸ Std.ExtTreeMap.getElem?_insert_self)
      · by_cases same : name = shredFile keyId
        · subst same
          exact ⟨_, bytes, written ▸ Std.ExtTreeMap.getElem?_insert_self, named⟩
        · exact ⟨name, text, written ▸ (Table.getElem?_insert_ne same).trans held, named⟩
    · rintro ⟨name, text, held, named⟩
      rw [written] at held
      rcases Table.getElem?_insert_inv held with ⟨rfl, -⟩ | before
      · exact Or.inl (Except.ok.inj (named.symm.trans (keyIdOfTombstone_shredFile keyId)))
      · exact Or.inr ⟨name, text, before, named⟩

/-- Where the tombstones are the same, so are the subjects that count as shredded. -/
theorem open_same_tombstones {files after : BlobDir} {master : SecretKey} {store : BlobStore}
    (opened : BlobStore.open files master = .ok store) (same : after.shredded = files.shredded)
    : BlobStore.open after master = .ok { store with files := after } := by
  obtain ⟨rfl, rfl, decoded, member⟩ := open_ok_iff.mp opened
  refine open_ok_iff.mpr ⟨rfl, rfl, fun name bytes held => ?_, fun keyId => ?_⟩
  · exact decoded name bytes (same ▸ held)
  · rw [member, Tombstoned, Tombstoned, same]

-----------------------------------------------------------------------------------------
-- Reading back
-----------------------------------------------------------------------------------------

section Reading

variable [Digest] [Aead] [EnvelopeReader]

/-- An envelope that names the address and the subject is on disk. -/
def Named (store : BlobStore) (keyId : String) (plaintext : List UInt8) : Prop :=
  ∃ text envelope,
    store.files.envelopes[hexHash (address keyId plaintext)]? = some text
    ∧ EnvelopeReader.fromSlice text = some envelope
    ∧ envelope.hash = address keyId plaintext ∧ envelope.keyId = keyId

/-- A blob is on disk: its subject's data key, a ciphertext that opens under it at the address, and
an envelope that names both.
-/
structure Stored (store : BlobStore) (keyId : String) (plaintext : List UInt8) : Prop where
  sealed : ∃ wrapped dek bytes,
    store.files.keys[dekFile keyId]? = some wrapped
    ∧ unwrapDek store.master wrapped = some dek
    ∧ store.files.bins[hexHash (address keyId plaintext)]? = some bytes
    ∧ openUnder dek (Challenge.utf8 (address keyId plaintext)) bytes = some plaintext
  named : Named store keyId plaintext

variable {store : BlobStore} {keyId : String} {plaintext : List UInt8}

omit [Aead] in
/-- What an envelope file says is what is read of it. -/
theorem envelope_address (sized : ∀ bytes, (Digest.sha256 bytes).length = 32) {text : List UInt8}
    {envelope : BlobEnvelope}
    (held : store.files.envelopes[hexHash (address keyId plaintext)]? = some text)
    (read : EnvelopeReader.fromSlice text = some envelope)
    : store.envelope (address keyId plaintext) = .ok envelope := by
  simp only [BlobStore.envelope, validateHash_address sized, bind, Except.bind, held, read]

/-- What a get answers depends on the two files at its address and on what the data key its envelope
names comes to.
-/
theorem get_congr {other : BlobStore} {hash : String}
    (bins : other.files.bins = store.files.bins)
    (envelopes : other.files.envelopes = store.files.envelopes)
    (deks : ∀ envelope, store.envelope hash = .ok envelope
      → other.readDek envelope.keyId = store.readDek envelope.keyId)
    : other.get hash = store.get hash := by
  have same : other.envelope hash = store.envelope hash := by
    simp only [BlobStore.envelope, envelopes]
  cases named : store.envelope hash with
  | error error => simp only [BlobStore.get, same, named, bind, Except.bind, Except.mapError]
  | ok envelope =>
      simp only [BlobStore.get, same, named, bins, deks envelope named, bind, Except.bind,
        Except.mapError]

/-- A blob of a subject that was not shredded reads back. -/
theorem Stored.get (stored : Stored store keyId plaintext)
    (sized : ∀ bytes, (Digest.sha256 bytes).length = 32) (live : keyId ∉ store.shredded)
    : store.get (address keyId plaintext) = .ok plaintext := by
  obtain ⟨wrapped, dek, bytes, keyed, unwrapped, held, opens⟩ := stored.sealed
  obtain ⟨text, envelope, named, read, hash, rfl⟩ := stored.named
  have dekRead : store.readDek envelope.keyId = .ok dek := by
    simp only [readDek, heldDek, if_neg live, keyed, unwrapped]
  simp only [BlobStore.get, envelope_address sized named read, validateHash_address sized, bind,
    Except.bind, Except.mapError, hash, ne_eq, not_true_eq_false, if_false, dekRead, held, opens]

/-- A blob of a shredded subject answers so. -/
theorem Named.get_shredded (named : Named store keyId plaintext)
    (sized : ∀ bytes, (Digest.sha256 bytes).length = 32) (shredded : keyId ∈ store.shredded)
    : store.get (address keyId plaintext) = .error (.storage .shredded) := by
  obtain ⟨text, envelope, held, read, hash, rfl⟩ := named
  have dekRead : store.readDek envelope.keyId = .error .shredded := by
    simp only [readDek, heldDek, if_pos shredded]
  simp only [BlobStore.get, envelope_address sized held read, validateHash_address sized, bind,
    Except.bind, Except.mapError, hash, ne_eq, not_true_eq_false, if_false, dekRead]

end Reading

-----------------------------------------------------------------------------------------
-- What a put writes
-----------------------------------------------------------------------------------------

section Putting

variable [Digest] [Aead]

/-- The envelope of a plaintext of this length. -/
def envelopeFor (keyId : String) (label : Label) (plaintext : List UInt8) (length : Nat)
    : BlobEnvelope where
  hash := address keyId plaintext
  keyId
  alg := "xchacha20poly1305"
  ciphertextLen := UInt64.ofNat length
  label

variable {store : BlobStore} {random : PutRandom} {keyId : String} {label : Label}
  {plaintext : List UInt8} {fates : PutFates}

/-- A put makes or reads the data key, then writes ciphertext and envelope. -/
theorem put_of_dek {middle : BlobStore} {dek : SecretKey}
    (held : store.dekFor keyId random fates.dek = (.done dek, middle))
    : store.put random keyId label plaintext fates
      = middle.writeSealed
          (envelopeFor keyId label plaintext
            (sealUnder dek (Challenge.utf8 (address keyId plaintext)) plaintext random.nonce).length)
          (sealUnder dek (Challenge.utf8 (address keyId plaintext)) plaintext random.nonce) fates := by
  simp only [put, held]
  rfl

/-- A put without a data key ends there. -/
theorem put_of_no_dek (label : Label) (plaintext : List UInt8)
    (unheld : ∀ dek, (store.dekFor keyId random fates.dek).1 ≠ .done dek)
    : (∀ envelope, (store.put random keyId label plaintext fates).1 ≠ .done envelope)
      ∧ (store.put random keyId label plaintext fates).2
        = (store.dekFor keyId random fates.dek).2 := by
  unfold put
  rcases ended : store.dekFor keyId random fates.dek with ⟨dek | error | _, middle⟩
  · exact absurd (by rw [ended]) (unheld dek)
  · exact ⟨fun _ => nofun, rfl⟩
  · exact ⟨fun _ => nofun, rfl⟩

/-- The key file of every subject that was not shredded unwraps under the master key. -/
def KeysUnwrap (store : BlobStore) : Prop :=
  ∀ (keyId : String) wrapped, keyId ∉ store.shredded
    → store.files.keys[dekFile keyId]? = some wrapped
    → ∃ dek, unwrapDek store.master wrapped = some dek

/-- The store in which a put writes ciphertext and envelope: the one it found, or that with a data
key for the subject, which had none.
-/
structure Keyed (store middle : BlobStore) (keyId : String) (dek : SecretKey) : Prop where
  live : keyId ∉ store.shredded
  held : ∃ wrapped,
    middle.files.keys[dekFile keyId]? = some wrapped ∧ unwrapDek middle.master wrapped = some dek
  made : middle = store
    ∨ store.files.keys[dekFile keyId]? = none ∧ ∃ wrapped,
        middle = { store with
          files := { store.files with keys := store.files.keys.insert (dekFile keyId) wrapped } }

/-- What a put comes to: it is refused, it ends at the data key, which is not written, or it writes
ciphertext and envelope.
-/
inductive PutCase (store : BlobStore) (random : PutRandom) (keyId : String) (label : Label)
    (plaintext : List UInt8) (fates : PutFates)
    : Outcome BlobError BlobEnvelope × BlobStore → Prop where
  | refused (shredded : keyId ∈ store.shredded)
      : PutCase store random keyId label plaintext fates (.failed (.storage .shredded), store)
  | noKey {outcome : Outcome BlobError BlobEnvelope} (live : keyId ∉ store.shredded)
      (missing : store.files.keys[dekFile keyId]? = none) (fate : fates.dek ≠ .whole)
      (ended : ∀ envelope, outcome ≠ .done envelope)
      : PutCase store random keyId label plaintext fates
          (outcome, { store with
            files := { store.files with
              keys := fates.dek.leaves store.files.keys (dekFile keyId)
                (wrap store.master random.dek random.wrapNonce) } })
  | keyed {dek : SecretKey} {middle : BlobStore} (key : Keyed store middle keyId dek)
      : PutCase store random keyId label plaintext fates
          (middle.writeSealed
            (envelopeFor keyId label plaintext
              (sealUnder dek (Challenge.utf8 (address keyId plaintext)) plaintext
                random.nonce).length)
            (sealUnder dek (Challenge.utf8 (address keyId plaintext)) plaintext random.nonce) fates)

/-- Where key files unwrap, there is no other way for a put to end. -/
theorem KeysUnwrap.put_case (keys : store.KeysUnwrap) (correct : Aead.Correct) (random : PutRandom)
    (keyId : String) (label : Label) (plaintext : List UInt8) (fates : PutFates)
    : PutCase store random keyId label plaintext fates
        (store.put random keyId label plaintext fates) := by
  by_cases live : keyId ∈ store.shredded
  · have refused : store.put random keyId label plaintext fates
        = (.failed (.storage .shredded), store) := by
      simp only [put, dekFor, heldDek, if_pos live]
    rw [refused]
    exact .refused live
  cases file : store.files.keys[dekFile keyId]? with
  | some wrapped =>
      obtain ⟨dek, unwrapped⟩ := keys keyId wrapped live file
      have held : store.dekFor keyId random fates.dek = (.done dek, store) := by
        simp only [dekFor, heldDek, if_neg live, file, unwrapped]
      rw [put_of_dek held]
      exact .keyed ⟨live, ⟨wrapped, file, unwrapped⟩, Or.inl rfl⟩
  | none =>
      have made : store.dekFor keyId random fates.dek
          = ((fates.dek.outcome .notFound).map fun _ => random.dek,
              { store with
                files := { store.files with
                  keys := fates.dek.leaves store.files.keys (dekFile keyId)
                    (wrap store.master random.dek random.wrapNonce) } }) := by
        simp only [dekFor, heldDek, if_neg live, file]
      by_cases whole : fates.dek = .whole
      · have held : store.dekFor keyId random fates.dek
            = (.done random.dek, { store with
                files := { store.files with
                  keys := store.files.keys.insert (dekFile keyId)
                    (wrap store.master random.dek random.wrapNonce) } }) := by
          rw [made, whole]
          rfl
        rw [put_of_dek held]
        exact .keyed ⟨live, ⟨_, Std.ExtTreeMap.getElem?_insert_self,
          unwrapDek_wrap correct store.master random.dek random.wrapNonce⟩, Or.inr ⟨file, _, rfl⟩⟩
      · have ended : ∀ dek, (store.dekFor keyId random fates.dek).1 ≠ .done dek := by
          intro dek
          rw [made]
          cases fate : fates.dek with
          | whole => exact absurd fate whole
          | failed landed => nofun
          | crashed landed => nofun
        have ⟨unreturned, left⟩ := put_of_no_dek label plaintext ended
        rw [← Prod.mk.eta (p := store.put random keyId label plaintext fates), left, made]
        exact .noKey live file whole unreturned

omit [Digest] [Aead] in
/-- Writing ciphertext and envelope leaves the rest alone; the envelope is written once the
ciphertext is.
-/
theorem writeSealed_frame (store : BlobStore) (envelope : BlobEnvelope) (bytes : List UInt8)
    (fates : PutFates)
    : (store.writeSealed envelope bytes fates).2
      = { store with
          files := { store.files with
            bins := fates.blob.leaves store.files.bins (hexHash envelope.hash) bytes
            envelopes :=
              if fates.blob = .whole then
                fates.envelope.leaves store.files.envelopes (hexHash envelope.hash)
                  (Utf8.encode envelope.toJson.render)
              else store.files.envelopes } } := by
  rcases fates with ⟨_, _ | landed | landed, _⟩ <;> rfl

/-- A put leaves the master key and everything about shredding alone. -/
theorem put_frame (store : BlobStore) (random : PutRandom) (keyId : String) (label : Label)
    (plaintext : List UInt8) (fates : PutFates)
    : (store.put random keyId label plaintext fates).2.master = store.master
      ∧ (store.put random keyId label plaintext fates).2.shredded = store.shredded
      ∧ (store.put random keyId label plaintext fates).2.files.shredded = store.files.shredded := by
  have key : (store.dekFor keyId random fates.dek).2.master = store.master
      ∧ (store.dekFor keyId random fates.dek).2.shredded = store.shredded
      ∧ (store.dekFor keyId random fates.dek).2.files.shredded = store.files.shredded := by
    unfold dekFor
    split <;> exact ⟨rfl, rfl, rfl⟩
  unfold put
  rcases ended : store.dekFor keyId random fates.dek with ⟨dek | error | _, middle⟩
  all_goals
    rw [ended] at key
    first
    | exact key
    | dsimp only
      rw [writeSealed_frame]
      exact key

omit [Digest] [Aead] in
/-- Both files were written by a put that returned, which returned the envelope. -/
theorem writeSealed_done {envelope found : BlobEnvelope} {bytes : List UInt8}
    (done : (store.writeSealed envelope bytes fates).1 = .done found)
    : found = envelope ∧ fates.blob = .whole ∧ fates.envelope = .whole := by
  rcases fates with ⟨_, _ | landed | landed, _ | landed | landed⟩ <;> cases done
  exact ⟨rfl, rfl, rfl⟩

/-- A put for a subject that was not shredded returns if nothing goes wrong. -/
theorem PutCase.done {ended : Outcome BlobError BlobEnvelope × BlobStore}
    (put : PutCase store random keyId label plaintext {} ended) (live : keyId ∉ store.shredded)
    : ∃ envelope, ended.1 = .done envelope := by
  cases put with
  | refused shredded => exact absurd shredded live
  | noKey _ _ fate => exact absurd rfl fate
  | keyed => exact ⟨_, rfl⟩

section Reading

variable [EnvelopeReader] {other : String} {message : List UInt8}

/-- A blob stays stored while no key file is lost and nothing else changes. -/
theorem Stored.mono_keys (stored : Stored store other message)
    {keys : Table (List UInt8)}
    (kept : ∀ (name : String) bytes,
      store.files.keys[name]? = some bytes → keys[name]? = some bytes)
    : Stored { store with files := { store.files with keys } } other message := by
  obtain ⟨wrapped, dek, bytes, keyed, rest⟩ := stored.sealed
  exact ⟨⟨wrapped, dek, bytes, kept _ _ keyed, rest⟩, stored.named⟩

/-- Looking for a data key loses no blob. -/
theorem Stored.keyed (stored : Stored store other message) {middle : BlobStore} {dek : SecretKey}
    (key : Keyed store middle keyId dek)
    : Stored middle other message := by
  rcases key.made with rfl | ⟨missing, wrapped, rfl⟩
  · exact stored
  · exact stored.mono_keys fun _ _ => WriteFate.leaves_missing .whole missing

omit [Aead] in
/-- Writing at one address leaves the envelopes at others alone. -/
theorem Named.writeSealed_other (named : Named store other message) {envelope : BlobEnvelope}
    {bytes : List UInt8} (apart : hexHash (address other message) ≠ hexHash envelope.hash)
    : Named (store.writeSealed envelope bytes fates).2 other message := by
  obtain ⟨text, found, held, rest⟩ := named
  rw [writeSealed_frame]
  refine ⟨text, found, ?_, rest⟩
  dsimp only
  split
  · exact (WriteFate.leaves_other fates.envelope apart).trans held
  · exact held

/-- Writing at one address leaves the blobs at others alone. -/
theorem Stored.writeSealed_other (stored : Stored store other message) {envelope : BlobEnvelope}
    {bytes : List UInt8} (apart : hexHash (address other message) ≠ hexHash envelope.hash)
    : Stored (store.writeSealed envelope bytes fates).2 other message := by
  obtain ⟨wrapped, dek, held, keyed, unwrapped, there, opens⟩ := stored.sealed
  refine ⟨⟨wrapped, dek, held, ?_, ?_, ?_, opens⟩, stored.named.writeSealed_other apart⟩
  · rw [writeSealed_frame]
    exact keyed
  · rw [writeSealed_frame]
    exact unwrapped
  · rw [writeSealed_frame]
    exact (WriteFate.leaves_other fates.blob apart).trans there

/-- A blob that was put is stored. -/
theorem stored_of_put (correct : Aead.Correct)
    (reads : ∀ envelope : BlobEnvelope,
      EnvelopeReader.fromSlice (Utf8.encode envelope.toJson.render) = some envelope)
    {dek : SecretKey} {wrapped : List UInt8} {envelope found : BlobEnvelope}
    (keyed : store.files.keys[dekFile keyId]? = some wrapped)
    (unwrapped : unwrapDek store.master wrapped = some dek)
    (hash : envelope.hash = address keyId plaintext) (subject : envelope.keyId = keyId)
    (nonce : Nonce)
    (done : (store.writeSealed envelope
        (sealUnder dek (Challenge.utf8 (address keyId plaintext)) plaintext nonce) fates).1
      = .done found)
    : Stored (store.writeSealed envelope
        (sealUnder dek (Challenge.utf8 (address keyId plaintext)) plaintext nonce) fates).2
        keyId plaintext := by
  obtain ⟨-, blob, text⟩ := writeSealed_done done
  rw [writeSealed_frame, if_pos blob, blob, text, hash]
  exact ⟨⟨wrapped, dek, _, keyed, unwrapped, Std.ExtTreeMap.getElem?_insert_self,
      openUnder_sealUnder correct dek _ plaintext nonce⟩,
    ⟨_, envelope, Std.ExtTreeMap.getElem?_insert_self, reads envelope, hash, subject⟩⟩

/-- A put that returned stored its blob. -/
theorem PutCase.stored {ended : Outcome BlobError BlobEnvelope × BlobStore}
    (put : PutCase store random keyId label plaintext fates ended) (correct : Aead.Correct)
    (reads : ∀ envelope : BlobEnvelope,
      EnvelopeReader.fromSlice (Utf8.encode envelope.toJson.render) = some envelope)
    {envelope : BlobEnvelope} (done : ended.1 = .done envelope)
    : Stored ended.2 keyId plaintext := by
  cases put with
  | refused => cases done
  | noKey _ _ _ unreturned => exact absurd done (unreturned envelope)
  | keyed key =>
      obtain ⟨wrapped, held, unwraps⟩ := key.held
      exact stored_of_put correct reads held unwraps rfl rfl random.nonce done

/-- Writing a stored blob once more without tearing keeps it. -/
theorem Stored.writeSealed_same (stored : Stored store keyId plaintext) (correct : Aead.Correct)
    (reads : ∀ envelope : BlobEnvelope,
      EnvelopeReader.fromSlice (Utf8.encode envelope.toJson.render) = some envelope)
    {dek : SecretKey} {wrapped : List UInt8} {envelope : BlobEnvelope}
    (keyed : store.files.keys[dekFile keyId]? = some wrapped)
    (unwrapped : unwrapDek store.master wrapped = some dek)
    (hash : envelope.hash = address keyId plaintext) (subject : envelope.keyId = keyId)
    (nonce : Nonce)
    (blobUntorn : ¬fates.blob.Torn
      (sealUnder dek (Challenge.utf8 (address keyId plaintext)) plaintext nonce).length)
    (envelopeUntorn : fates.blob = .whole
      → ¬fates.envelope.Torn (Utf8.encode envelope.toJson.render).length)
    : Stored (store.writeSealed envelope
        (sealUnder dek (Challenge.utf8 (address keyId plaintext)) plaintext nonce) fates).2
        keyId plaintext := by
  obtain ⟨held, secret, bytes, there, opened, old, opens⟩ := stored.sealed
  rw [writeSealed_frame, hash]
  constructor
  · rcases WriteFate.leaves_untorn blobUntorn with same | same
    · exact ⟨held, secret, bytes, there, opened, by rw [same]; exact old, opens⟩
    · exact ⟨wrapped, dek, _, keyed, unwrapped, by rw [same]; exact Std.ExtTreeMap.getElem?_insert_self,
        openUnder_sealUnder correct dek _ plaintext nonce⟩
  · dsimp only
    split
    · next whole =>
        rcases WriteFate.leaves_untorn (envelopeUntorn whole) with same | same
        · rw [same]
          exact stored.named
        · rw [same]
          exact ⟨_, envelope, Std.ExtTreeMap.getElem?_insert_self, reads envelope, hash, subject⟩
    · exact stored.named

end Reading

end Putting

-----------------------------------------------------------------------------------------
-- What a shred does
-----------------------------------------------------------------------------------------

/-- The tombstone of a subject gets onto the disk, if only a part of it. -/
def Marks (keyId : String) (fate : WriteFate) : Prop :=
  keyId ≠ "" ∧ fate ≠ .failed none ∧ fate ≠ .crashed none

/-- What a shred comes to: nothing, the loss of the data key alone, or also a tombstone. -/
inductive ShredCase (store : BlobStore) (event : ShredEvent) (fates : ShredFates)
    : BlobStore → Prop where
  | kept (key : fates.key ≠ .removed) : ShredCase store event fates store
  | keyless (key : fates.key = .removed) (unmarked : ¬Marks event.keyId fates.tombstone)
      : ShredCase store event fates
          { store with
            files := { store.files with keys := store.files.keys.erase (dekFile event.keyId) } }
  | marked (key : fates.key = .removed) (marks : Marks event.keyId fates.tombstone)
      {text : List UInt8} {shredded : Finset String}
      (known : shredded = store.shredded ∨ shredded = insert event.keyId store.shredded)
      : ShredCase store event fates
          { store with
            files := { store.files with
              keys := store.files.keys.erase (dekFile event.keyId)
              shredded := store.files.shredded.insert (shredFile event.keyId) text }
            shredded }

/-- Nothing went wrong in a shred that returned. -/
theorem shred_done {store after : BlobStore} {event : ShredEvent} {fates : ShredFates}
    (done : store.shred event fates = (.done (), after))
    : event.keyId ≠ "" ∧ fates = {}
      ∧ after = { store with
          files := { store.files with
            keys := store.files.keys.erase (dekFile event.keyId)
            shredded := store.files.shredded.insert (shredFile event.keyId)
              (Utf8.encode event.toJson.render) }
          shredded := insert event.keyId store.shredded } := by
  obtain ⟨_ | _ | _, tombstone⟩ := fates
  · by_cases unnamed : shredFile event.keyId = ""
    · simp only [shred, writeTombstone, if_pos unnamed] at done
      cases done
    · simp only [shred, writeTombstone, if_neg unnamed] at done
      cases tombstone with
      | whole => exact ⟨mt shredFile_eq_empty_iff.mpr unnamed, rfl, (Prod.mk.inj done).2.symm⟩
      | failed => cases done
      | crashed => cases done
  · cases done
  · cases done

theorem shred_case (store : BlobStore) (event : ShredEvent) (fates : ShredFates)
    : ShredCase store event fates (store.shred event fates).2 := by
  obtain ⟨key, tombstone⟩ := fates
  cases key with
  | failed => exact .kept nofun
  | crashed => exact .kept nofun
  | removed =>
      by_cases unnamed : event.keyId = ""
      · simp only [shred, writeTombstone, if_pos (shredFile_eq_empty_iff.mpr unnamed)]
        exact .keyless rfl fun marks => marks.1 unnamed
      have named := mt shredFile_eq_empty_iff.mp unnamed
      simp only [shred, writeTombstone, if_neg named]
      rcases tombstone with _ | (_ | landed) | (_ | landed)
      · exact .marked rfl ⟨unnamed, by simp, by simp⟩ (Or.inr rfl)
      · exact .keyless rfl fun marks => marks.2.1 rfl
      · exact .marked rfl ⟨unnamed, by simp, by simp⟩ (Or.inl rfl)
      · exact .keyless rfl fun marks => marks.2.2 rfl
      · exact .marked rfl ⟨unnamed, by simp, by simp⟩ (Or.inl rfl)

end BlobStore

end VerticalAI.Store
