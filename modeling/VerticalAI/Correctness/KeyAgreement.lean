import VerticalAI.Store.KeyFile

/-! Processes that load a key file at the same time agree on the key, although nothing locks the
file: part of a key is no key, so nobody reads one before the process that made the file is
done.
-/

namespace VerticalAI.Correctness
open VerticalAI.Foundation VerticalAI.Store

namespace KeyPlace

/-- The file is there, and this key is what it spells. -/
def Holds (place : KeyPlace) (key : SecretKey) : Prop :=
  ∃ file, place.file = some file ∧ readKey file.bytes = .ok key

/-- A process that fills the file has some of its key to write still, and is alone with that; a key
that was loaded is in the file.
-/
structure Coherent (place : KeyPlace) : Prop where
  filler : ∀ {process key left},
    place.loaders process = .filling key left
    → left ≠ [] ∧ ∃ file, place.file = some file ∧ file.bytes ++ left = keyBytes key
  sole : ∀ {process other key left key' left'},
    place.loaders process = .filling key left → place.loaders other = .filling key' left'
    → process = other
  loaded : ∀ {process key}, place.loaders process = .loaded key → Holds place key

variable {place : KeyPlace} {process : Nat} {key : SecretKey} {left : List UInt8}

/-- While a process fills the file there is no key in it. -/
theorem Coherent.unread (coherent : Coherent place)
    (filling : place.loaders process = .filling key left) (other : SecretKey)
    : ¬Holds place other := by
  rintro ⟨found, stored, read⟩
  obtain ⟨some_left, file, same, whole⟩ := coherent.filler filling
  obtain rfl := Option.some.inj (same.symm.trans stored)
  have part : file.bytes = (keyBytes key).take file.bytes.length := by
    rw [← whole, List.take_left]
  have short : file.bytes.length < (keyBytes key).length := by
    have := List.length_pos_iff.mpr some_left
    rw [← whole, List.length_append]
    omega
  rw [part] at read
  exact readKey_part key other short read

theorem start_coherent (file : Option KeyFile) : Coherent (.start file) where
  filler loading := by cases loading
  sole loading := by cases loading
  loaded loading := by cases loading

/-- A process that does not fill the file, and has loaded only a key that is in it. -/
theorem Coherent.enter (coherent : Coherent place) {loading : Loading}
    (away : ∀ key left, loading ≠ .filling key left)
    (honest : ∀ key, loading = .loaded key → Holds place key)
    : Coherent (place.enter process loading) := by
  have others {other : Nat} {key : SecretKey} {left : List UInt8}
      (filling : (place.enter process loading).loaders other = .filling key left)
      : place.loaders other = .filling key left := by
    rw [KeyPlace.enter_loaders] at filling
    split at filling
    · exact absurd filling (away _ _)
    · exact filling
  refine ⟨fun filling => coherent.filler (others filling),
    fun filling also => coherent.sole (others filling) (others also), fun {other key} loaded => ?_⟩
  rw [KeyPlace.enter_loaders] at loaded
  split at loaded
  · exact honest key loaded
  · exact coherent.loaded loaded

/-- A process that makes the file is the first to do anything. -/
theorem Coherent.create (coherent : Coherent place) (fresh : SecretKey)
    : Coherent (place.create process fresh) := by
  unfold KeyPlace.create
  cases stored : place.file with
  | some file => exact coherent.enter (by simp) (by simp)
  | none =>
      have nobody {other : Nat} {key : SecretKey} {left : List UInt8}
          : place.loaders other ≠ .filling key left := by
        intro filling
        obtain ⟨-, file, found, -⟩ := coherent.filler filling
        cases stored.symm.trans found
      have mine {other : Nat} {key : SecretKey} {left : List UInt8}
          (filling : Function.update place.loaders process
            (.filling fresh (keyBytes fresh)) other = .filling key left)
          : other = process ∧ key = fresh ∧ left = keyBytes fresh := by
        rw [Function.update_apply] at filling
        split at filling
        · cases filling
          exact ⟨‹_›, rfl, rfl⟩
        · exact absurd filling nobody
      have some_bytes : keyBytes fresh ≠ [] := by
        rw [← List.length_pos_iff, length_keyBytes]
        omega
      refine ⟨fun filling => ?_, fun filling also => ?_, fun {other key} loaded => ?_⟩
      · obtain ⟨-, rfl, rfl⟩ := mine filling
        exact ⟨some_bytes, _, rfl, rfl⟩
      · exact (mine filling).1.trans (mine also).1.symm
      · change Function.update place.loaders process _ other = _ at loaded
        rw [Function.update_apply] at loaded
        split at loaded
        · cases loaded
        · obtain ⟨file, found, -⟩ := coherent.loaded loaded
          cases stored.symm.trans found

/-- Part of a key lands, or the last of it. -/
theorem Coherent.write (coherent : Coherent place)
    (filling : place.loaders process = .filling key left) (count : Nat) (fault : Option String)
    : Coherent (place.write process key left count fault) := by
  obtain ⟨-, file, stored, whole⟩ := coherent.filler filling
  let longer : KeyFile := { file with bytes := file.bytes ++ left.take count }
  have grown : place.grow (left.take count) = { place with file := some longer } := by
    rw [KeyPlace.grow, stored]
    rfl
  have rest : longer.bytes ++ left.drop count = keyBytes key := by
    rw [← whole, List.append_assoc, List.take_append_drop]
  have alone {other : Nat} (elsewhere : other ≠ process) {key' : SecretKey} {left' : List UInt8}
      : place.loaders other ≠ .filling key' left' :=
    fun also => elsewhere (coherent.sole also filling)
  have nobody {other : Nat} {key' : SecretKey} : place.loaders other ≠ .loaded key' :=
    fun loaded => coherent.unread filling key' (coherent.loaded loaded)
  have moved {loading : Loading}
      (fills : ∀ {key' left'}, loading = .filling key' left'
        → left' ≠ [] ∧ longer.bytes ++ left' = keyBytes key')
      (honest : ∀ {key'}, loading = .loaded key' → readKey longer.bytes = .ok key')
      : Coherent ((place.grow (left.take count)).enter process loading) := by
    have mine {other : Nat} {key' : SecretKey} {left' : List UInt8}
        (also : ((place.grow (left.take count)).enter process loading).loaders other
          = .filling key' left')
        : other = process ∧ loading = .filling key' left' := by
      rw [KeyPlace.enter_loaders] at also
      split at also
      · exact ⟨‹_›, also⟩
      · exact absurd also (alone ‹_›)
    have held : ((place.grow (left.take count)).enter process loading).file = some longer := by
      rw [grown]
      rfl
    refine ⟨fun also => ?_, fun also too => (mine also).1.trans (mine too).1.symm,
      fun {other key'} loaded => ?_⟩
    · obtain ⟨some_left, all⟩ := fills (mine also).2
      exact ⟨some_left, longer, held, all⟩
    · rw [KeyPlace.enter_loaders] at loaded
      split at loaded
      · exact ⟨longer, held, honest loaded⟩
      · exact absurd loaded nobody
  unfold KeyPlace.write
  cases fault with
  | some reason => exact moved (fun fills => by cases fills) (fun loaded => by cases loaded)
  | none =>
      dsimp only
      split
      · rename_i last
        refine moved (fun fills => by cases fills) fun loaded => ?_
        cases loaded
        rw [last, List.append_nil] at rest
        exact rest ▸ readKey_keyBytes key
      · rename_i more
        refine moved (fun fills => ?_) (fun loaded => by cases loaded)
        cases fills
        exact ⟨more, rest⟩

/-- Whatever is done keeps it, by cases on the event. -/
theorem Coherent.step (coherent : Coherent place) (event : KeyEvent)
    : Coherent (place.step event) := by
  cases event with
  | create process fresh fault =>
      simp only [KeyPlace.step]
      split
      · exact coherent
      · cases fault with
        | some reason => exact coherent.enter (by simp) (by simp)
        | none => exact coherent.create fresh
  | write process count fault =>
      simp only [KeyPlace.step]
      split
      · rename_i key left filling
        exact coherent.write filling count fault
      · exact coherent
  | look process fault =>
      simp only [KeyPlace.step]
      split
      · unfold KeyPlace.look
        split <;> exact coherent.enter (by simp) (by simp)
      · exact coherent.enter (by simp) (by simp)
      · exact coherent
  | read process fault =>
      simp only [KeyPlace.step]
      split
      · rename_i file _ stored
        unfold KeyPlace.read
        cases read : readKey file.bytes with
        | ok key =>
            refine coherent.enter (by simp) fun key' loaded => ?_
            cases loaded
            exact ⟨file, stored, read⟩
        | error why => exact coherent.enter (by simp) (by simp)
      · exact coherent.enter (by simp) (by simp)
      · exact coherent
  | die process => exact coherent.enter (by simp) (by simp)
  | chmod mode =>
      have kept {key : SecretKey} (holds : Holds place key)
          : Holds (place.step (.chmod mode)) key := by
        obtain ⟨file, stored, read⟩ := holds
        exact ⟨{ file with mode }, by rw [KeyPlace.step, stored]; rfl, read⟩
      refine ⟨fun {process key left} filling => ?_, fun filling also => coherent.sole filling also,
        fun loaded => kept (coherent.loaded loaded)⟩
      obtain ⟨some_left, file, stored, whole⟩ := coherent.filler filling
      exact ⟨some_left, { file with mode }, by rw [KeyPlace.step, stored]; rfl, whole⟩

/-- Every run from a place where nobody has begun keeps it, by induction on the run. -/
theorem run_coherent (file : Option KeyFile) (events : List KeyEvent)
    : Coherent ((KeyPlace.start file).run events) := by
  induction events using List.reverseRecOn with
  | nil => exact start_coherent file
  | append_singleton events event ih =>
      rw [KeyPlace.run_append]
      exact ih.step event

-----------------------------------------------------------------------------------------
-- What stays in the file
-----------------------------------------------------------------------------------------

/-- The bytes of a file that nobody fills stay as they are. -/
theorem step_bytes {file : KeyFile} (stored : place.file = some file)
    (nobody : ∀ process key left, place.loaders process ≠ .filling key left) (event : KeyEvent)
    : ∃ after, (place.step event).file = some after ∧ after.bytes = file.bytes
        ∧ ∀ process key left, (place.step event).loaders process ≠ .filling key left := by
  have entered {process : Nat} {loading : Loading} (away : ∀ key left, loading ≠ .filling key left)
      : ∃ after, (place.enter process loading).file = some after ∧ after.bytes = file.bytes
          ∧ ∀ other key left, (place.enter process loading).loaders other ≠ .filling key left := by
    refine ⟨file, stored, rfl, fun other key left filling => ?_⟩
    rw [KeyPlace.enter_loaders] at filling
    split at filling
    · exact away key left filling
    · exact nobody other key left filling
  have same : ∃ after, place.file = some after ∧ after.bytes = file.bytes
      ∧ ∀ process key left, place.loaders process ≠ .filling key left :=
    ⟨file, stored, rfl, nobody⟩
  cases event with
  | create process fresh fault =>
      simp only [KeyPlace.step, KeyPlace.create, stored]
      split
      · exact same
      · cases fault <;> exact entered (by simp)
  | write process count fault =>
      simp only [KeyPlace.step]
      split
      · rename_i key left filling
        exact absurd filling (nobody process key left)
      · exact same
  | look process fault =>
      simp only [KeyPlace.step, KeyPlace.look]
      split
      · split <;> exact entered (by simp)
      · exact entered (by simp)
      · exact same
  | read process fault =>
      simp only [KeyPlace.step, KeyPlace.read]
      split
      · split <;> exact entered (by simp)
      · exact entered (by simp)
      · exact same
  | die process => exact entered (by simp)
  | chmod mode => exact ⟨{ file with mode }, by rw [KeyPlace.step, stored]; rfl, rfl, nobody⟩

/-- So they do over a whole run, by induction on it. -/
theorem run_bytes {file : KeyFile} (stored : place.file = some file)
    (nobody : ∀ process key left, place.loaders process ≠ .filling key left)
    (events : List KeyEvent)
    : ∃ after, (place.run events).file = some after ∧ after.bytes = file.bytes := by
  induction events generalizing place file with
  | nil => exact ⟨file, stored, rfl⟩
  | cons event events ih =>
      obtain ⟨middle, found, same, still⟩ := step_bytes stored nobody event
      obtain ⟨after, last, kept⟩ := ih found still
      exact ⟨after, last, kept.trans same⟩

/-- A key that is in the file stays there: nobody fills a file with a key in it. -/
theorem Coherent.holds_run (coherent : Coherent place) (holds : Holds place key)
    (events : List KeyEvent)
    : Holds (place.run events) key := by
  obtain ⟨file, stored, read⟩ := holds
  have nobody : ∀ process other left, place.loaders process ≠ .filling other left :=
    fun process other left filling => coherent.unread filling key ⟨file, stored, read⟩
  obtain ⟨after, found, same⟩ := run_bytes stored nobody events
  exact ⟨after, found, same ▸ read⟩

theorem Holds.eq {other : SecretKey} (first : Holds place key) (second : Holds place other)
    : other = key := by
  obtain ⟨file, stored, read⟩ := first
  obtain ⟨found, also, again⟩ := second
  obtain rfl := Option.some.inj (stored.symm.trans also)
  exact Except.ok.inj (again.symm.trans read)

end KeyPlace

-----------------------------------------------------------------------------------------
-- Every run
-----------------------------------------------------------------------------------------

/-- Whatever was in the file at first, and in whatever order processes load it, die on the way, have
faults and find its mode changed: whoever gets a key gets the one that was got before.
-/
theorem loaded_keys_agree {file : Option KeyFile} {events more : List KeyEvent}
    {first second : Nat} {key other : SecretKey}
    (loaded : ((KeyPlace.start file).run events).loaders first = .loaded key)
    (later : ((KeyPlace.start file).run (events ++ more)).loaders second = .loaded other)
    : other = key := by
  have coherent := KeyPlace.run_coherent file events
  have holds := (KeyPlace.run_coherent file (events ++ more)).loaded later
  rw [KeyPlace.run_append] at holds
  exact (coherent.holds_run (coherent.loaded loaded) more).eq holds

/-- When the process that fills the file gives up, part of its key is left, and nobody fills it. -/
theorem abandoned_part {place : KeyPlace} {process : Nat} {key : SecretKey} {left : List UInt8}
    {event : KeyEvent} (coherent : KeyPlace.Coherent place)
    (filling : place.loaders process = .filling key left)
    (ends : event = .die process
      ∨ ∃ count reason, count < left.length ∧ event = .write process count (some reason))
    : ∃ file count, (place.step event).file = some file
        ∧ count < (keyBytes key).length ∧ file.bytes = (keyBytes key).take count
        ∧ ∀ other key' left', (place.step event).loaders other ≠ .filling key' left' := by
  obtain ⟨some_left, file, stored, whole⟩ := coherent.filler filling
  have long : (keyBytes key).length = file.bytes.length + left.length := by
    rw [← whole, List.length_append]
  have given {middle : KeyPlace} {loading : Loading} (same : middle.loaders = place.loaders)
      (away : ∀ key' left', loading ≠ .filling key' left')
      : ∀ other key' left',
          (middle.enter process loading).loaders other ≠ .filling key' left' := by
    intro other key' left' also
    rw [KeyPlace.enter_loaders, same] at also
    split at also
    · exact away _ _ also
    · exact absurd (coherent.sole also filling) ‹_›
  rcases ends with rfl | ⟨count, reason, short, rfl⟩
  · refine ⟨file, file.bytes.length, stored, ?_, ?_, given rfl (by simp)⟩
    · have := List.length_pos_iff.mpr some_left
      omega
    · rw [← whole, List.take_left]
  · refine ⟨{ file with bytes := file.bytes ++ left.take count }, file.bytes.length + count,
      ?_, by omega, ?_, ?_⟩
    · simp only [KeyPlace.step, filling, KeyPlace.write, KeyPlace.enter, KeyPlace.grow, stored,
        Option.map_some]
    · rw [← whole, List.take_length_add_append]
    · simp only [KeyPlace.step, filling, KeyPlace.write]
      exact given rfl (by simp)

/-- A process that dies or fails before it has written the whole of its key leaves a file that
nobody ever gets a key from.
-/
theorem abandoned_key_file_is_refused {file : Option KeyFile} {events : List KeyEvent}
    {process : Nat} {key : SecretKey} {left : List UInt8} {event : KeyEvent}
    (filling : ((KeyPlace.start file).run events).loaders process = .filling key left)
    (ends : event = .die process
      ∨ ∃ count reason, count < left.length ∧ event = .write process count (some reason))
    (more : List KeyEvent) (loader : Nat) (other : SecretKey)
    : ((KeyPlace.start file).run (events ++ event :: more)).loaders loader ≠ .loaded other := by
  intro loaded
  obtain ⟨last, stored, read⟩ := (KeyPlace.run_coherent file (events ++ event :: more)).loaded loaded
  obtain ⟨part, count, there, short, bytes, nobody⟩ :=
    abandoned_part (KeyPlace.run_coherent file events) filling ends
  obtain ⟨after, found, same⟩ := KeyPlace.run_bytes there nobody more
  have after_more : (KeyPlace.start file).run (events ++ event :: more)
      = (((KeyPlace.start file).run events).step event).run more :=
    KeyPlace.run_append _ events (event :: more)
  rw [after_more, found] at stored
  obtain rfl := Option.some.inj stored
  rw [same, bytes] at read
  exact readKey_part key other short read

section Race

private def firstKey : SecretKey := ⟨List.replicate 32 1, rfl⟩

private def secondKey : SecretKey := ⟨List.replicate 32 2, rfl⟩

/-- One process makes the file; another finds it and reads it when it is written. -/
private def race : List KeyEvent :=
  [.create 0 firstKey none, .create 1 secondKey none, .look 1 none, .write 0 20 none,
    .write 0 24 none]

private theorem race_read
    : ((KeyPlace.start none).run (race ++ [.read 1 none])).loaders 1 = .loaded firstKey := by
  let written := (keyBytes firstKey).take 20 ++ ((keyBytes firstKey).drop 20).take 24
  have whole : written = keyBytes firstKey := by
    unfold written
    rw [← List.take_add, List.take_of_length_le (length_keyBytes firstKey).le]
  have waits : ((KeyPlace.start none).run race).loaders 1 = .reading := rfl
  have stored : ((KeyPlace.start none).run race).file = some ⟨written, 0o600⟩ := rfl
  rw [KeyPlace.run_append]
  change (((KeyPlace.start none).run race).step (.read 1 none)).loaders 1 = .loaded firstKey
  simp only [KeyPlace.step, waits, stored, KeyPlace.read, whole, readKey_keyBytes,
    KeyPlace.enter_loaders, if_true]

/-- Both get the key of the first. -/
theorem loaded_keys_agree_race
    : ∃ key other,
        ((KeyPlace.start none).run race).loaders 0 = .loaded key
        ∧ ((KeyPlace.start none).run (race ++ [.read 1 none])).loaders 1 = .loaded other
        ∧ other = key := by
  have made : ((KeyPlace.start none).run race).loaders 0 = .loaded firstKey := rfl
  exact ⟨firstKey, firstKey, made, race_read, loaded_keys_agree made race_read⟩

/-- When the first dies half-way, the other gets no key, also not the one that was lost. -/
theorem abandoned_key_file_is_refused_race
    : ((KeyPlace.start none).run (race.take 4 ++ .die 0 :: [.look 1 none, .read 1 none])).loaders 1
      ≠ .loaded firstKey :=
  abandoned_key_file_is_refused
    (show _ = Loading.filling firstKey ((keyBytes firstKey).drop 20) from rfl) (.inl rfl)
    [.look 1 none, .read 1 none] 1 firstKey

end Race

end VerticalAI.Correctness
