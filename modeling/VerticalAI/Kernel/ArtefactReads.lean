import VerticalAI.Kernel.Artefacts
import VerticalAI.Kernel.TaskSteps

/-! Reading artefacts: what is in place under a subject that was not shredded can be read, and
what a shredded subject's envelope names can neither be read nor released.
-/

namespace VerticalAI.Kernel
open VerticalAI.Foundation VerticalAI.Contracts VerticalAI.Store

variable [Libraries] {ctx : Ctx} {world after : World} {faults rest : List Fault}
  {keyId hash : String} {label : Label} {bytes : List UInt8}

/-- An address that was computed is a valid one, given that digests have 32 bytes. -/
theorem validHash_blobAddress (sized : ∀ bytes, (Digest.sha256 bytes).length = 32)
    (keyId : String) (bytes : List UInt8)
    : validHash (blobAddress keyId bytes) = true := by
  rw [validHash, blobAddress, hashBytes, String.toList_append, Text.stripPrefix_append]
  have long : (Hex.encode (Digest.sha256 (Challenge.utf8 keyId ++ 0 :: bytes))).toList.length
      = 64 := by
    rw [Hex.length_encode, sized]
  have lower : (Hex.encode (Digest.sha256 (Challenge.utf8 keyId ++ 0 :: bytes))).toList.all
      (fun digit => ('0' ≤ digit && digit ≤ '9') || ('a' ≤ digit && digit ≤ 'f')) = true :=
    List.all_eq_true.mpr fun _ member => Hex.encode_lower member
  simp only [long, lower, decide_true, Bool.and_self]

omit [Libraries] in
theorem blobEnvelope_working {envelope : BlobEnvelope} (valid : validHash hash = true)
    (held : world.disk.envelopes[hash]? = some envelope)
    : blobEnvelope hash world [] = (.done envelope, world, []) := by
  have fetched : (Program.fetch (fun _ => .notFound) (·.disk.envelopes[hash]?)
      : Program World StorageError _) world [] = (.done (some envelope), world, []) := by
    rw [← held]
    rfl
  rw [blobEnvelope, if_neg (by rw [valid]; decide), Program.bind_done fetched]
  rfl

theorem dekFor_working {dek : List UInt8} (alive : world.kernel.shredded.contains keyId = false)
    (key : HasKey world.disk keyId dek)
    : dekFor keyId false world [] = (.done dek, world, []) := by
  obtain ⟨wrapped, held, unwraps⟩ := key
  have fetched : (Program.fetch (fun _ => .notFound) (·.disk.dataKeys[keyId]?)
      : Program World StorageError _) world [] = (.done (some wrapped), world, []) := by
    rw [← held]
    rfl
  rw [dekFor, Program.observe_bind_run, if_neg (by rw [alive]; decide), Program.bind_done fetched]
  dsimp only
  rw [unwraps]
  rfl

/-- What `get` finds at an address: an envelope that names it, the key of a subject that was not
shredded, and a ciphertext that opens to a plaintext of this address.
-/
structure Found (world : World) (hash : String) (bytes : List UInt8) (envelope : BlobEnvelope)
    : Prop where
  valid : validHash hash = true
  held : world.disk.envelopes[hash]? = some envelope
  names : envelope.hash = hash
  alive : world.kernel.shredded.contains envelope.keyId = false
  opens : Opens world.disk envelope.keyId bytes hash
  address : blobAddress envelope.keyId bytes = hash

theorem getBlob_working {envelope : BlobEnvelope} (stored : Found world hash bytes envelope)
    : getBlob hash world [] = (.done bytes, world, []) := by
  obtain ⟨dek, sealed, key, kept, opens⟩ := stored.opens
  have found := blobEnvelope_working stored.valid stored.held
  have unlocked := dekFor_working stored.alive key
  have fetched {wrap : String → KernelError} : (Program.fetch wrap (·.disk.blobs[hash]?)
      : Syscall _) world [] = (.done (some sealed), world, []) := by
    rw [← kept]
    rfl
  unfold getBlob
  dsimp only
  rw [Program.bind_done (Program.mapError_done found), if_neg (not_not.mpr stored.names),
    Program.bind_done (Program.mapError_done unlocked), Program.bind_done fetched]
  dsimp only
  rw [opens]
  dsimp only
  rw [if_neg (not_not.mpr stored.address)]
  rfl

omit [Libraries] in
theorem blobEnvelope_done {envelope : BlobEnvelope}
    (ran : blobEnvelope hash world faults = (.done envelope, after, rest))
    : validHash hash = true ∧ world.disk.envelopes[hash]? = some envelope ∧ after = world := by
  unfold blobEnvelope at ran
  split at ran
  · cases ran
  · next valid =>
      rw [Bool.not_eq_true, Bool.not_eq_false'] at valid
      obtain ⟨held, middle, left, read, ran⟩ := Program.bind_done_inv ran
      obtain ⟨found, rfl⟩ := Program.fetch_done_inv read
      cases held with
      | none => cases ran
      | some envelope =>
          cases ran
          exact ⟨valid, found.symm, rfl⟩

theorem dekFor_done {dek : List UInt8}
    (ran : dekFor keyId false world faults = (.done dek, after, rest))
    : world.kernel.shredded.contains keyId = false ∧ HasKey world.disk keyId dek ∧ after = world := by
  rw [dekFor, Program.observe_bind_run] at ran
  split at ran
  · cases ran
  · next alive =>
      obtain ⟨held, middle, left, read, ran⟩ := Program.bind_done_inv ran
      obtain ⟨found, rfl⟩ := Program.fetch_done_inv read
      cases held with
      | none => cases ran
      | some wrapped =>
          dsimp only at ran
          cases unwraps : Cipher.unwrapDek wrapped with
          | none =>
              rw [unwraps] at ran
              cases ran
          | some key =>
              rw [unwraps] at ran
              cases ran
              exact ⟨Bool.eq_false_iff.mpr alive, ⟨wrapped, found.symm, unwraps⟩, rfl⟩

/-- What was read was found. -/
theorem getBlob_done (ran : getBlob hash world faults = (.done bytes, after, rest))
    : (∃ envelope, Found world hash bytes envelope) ∧ after = world := by
  obtain ⟨envelope, _, _, read, checked⟩ := Program.bind_done_inv ran
  obtain ⟨valid, held, rfl⟩ := blobEnvelope_done (Program.mapError_done_inv read)
  split at checked
  · cases checked
  · next names =>
      obtain ⟨dek, _, _, unlocked, looked⟩ := Program.bind_done_inv checked
      obtain ⟨alive, key, rfl⟩ := dekFor_done (Program.mapError_done_inv unlocked)
      obtain ⟨there, _, _, fetched, opened⟩ := Program.bind_done_inv looked
      obtain ⟨stored, rfl⟩ := Program.fetch_done_inv fetched
      cases there with
      | none => cases opened
      | some sealed =>
          dsimp only at opened
          cases opens : Cipher.openUnder dek (Challenge.utf8 hash) sealed with
          | none =>
              rw [opens] at opened
              cases opened
          | some plaintext =>
              rw [opens] at opened
              dsimp only at opened
              split at opened
              · cases opened
              · next address =>
                  cases opened
                  exact ⟨⟨envelope, valid, held, not_not.mp names, alive,
                    ⟨dek, sealed, key, stored.symm, opens⟩, not_not.mp address⟩, rfl⟩

/-- An artefact in place can be read by every caller its label flows to. -/
theorem readArtefact_kept (sized : ∀ bytes, (Digest.sha256 bytes).length = 32)
    (kept : Kept world.disk keyId label bytes hash)
    (alive : world.kernel.shredded.contains keyId = false)
    (remembered : world.disk.shredded.contains keyId = false)
    (flows : label.flowsTo ctx.clearance = true)
    : readArtefact ctx hash world [] = (.done bytes, world, []) := by
  obtain ⟨envelope, held, names, rfl, rfl⟩ := kept.named
  have valid : validHash hash = true := kept.address ▸ validHash_blobAddress sized _ bytes
  have got := getBlob_working ⟨valid, held, names, alive, kept.opens remembered, kept.address⟩
  rw [readArtefact, Program.bind_done (Program.mapError_done (blobEnvelope_working valid held)),
    if_pos flows, got]

omit [Libraries] in
/-- No call shreds. -/
theorem shredded_trail {allowed : World → Update → Prop} {first last : World}
    (trail : Trail allowed first last)
    : last.disk.shredded = first.disk.shredded ∧ last.kernel.shredded = first.kernel.shredded := by
  let Same (start later : World) : Prop :=
    later.disk.shredded = start.disk.shredded ∧ later.kernel.shredded = start.kernel.shredded
  have same : Same first last :=
    trail.relates (fun _ => ⟨rfl, rfl⟩) fun _ _ update kept _ => by cases update <;> exact kept
  exact same

/-- What is found is decided by the payload tier and what the process knows to be shredded. -/
theorem Found.congr {envelope : BlobEnvelope} (payload : world.Same after .payload)
    (shredded : after.kernel.shredded = world.kernel.shredded)
    (found : Found world hash bytes envelope)
    : Found after hash bytes envelope := by
  obtain ⟨keys, blobs, envelopes⟩ := payload
  obtain ⟨dek, sealed, ⟨wrapped, held, unwraps⟩, stored, opens⟩ := found.opens
  refine ⟨found.valid, ?_, found.names, ?_, ⟨dek, sealed, ⟨wrapped, ?_, unwraps⟩, ?_, opens⟩,
    found.address⟩
  · rw [envelopes, found.held]
  · rw [shredded, found.alive]
  · rw [keys, held]
  · rw [blobs, stored]

/-- What the envelope at the address names is shredded. -/
def Lost (world : World) (hash : String) : Prop :=
  ∀ envelope, world.disk.envelopes[hash]? = some envelope
    → world.kernel.shredded.contains envelope.keyId = true

/-- An artefact that was read was found. -/
theorem readArtefact_found (ran : readArtefact ctx hash world faults = (.done bytes, after, rest))
    : (∃ envelope, Found world hash bytes envelope) ∧ after = world := by
  obtain ⟨_, _, _, read, checked⟩ := Program.bind_done_inv ran
  obtain ⟨-, -, rfl⟩ := blobEnvelope_done (Program.mapError_done_inv read)
  split at checked
  · exact getBlob_done checked
  · cases checked

/-- Nothing that was read was lost. -/
theorem readArtefact_done
    (ran : readArtefact ctx hash world faults = (.done bytes, after, rest))
    : ¬Lost world hash := by
  intro lost
  obtain ⟨⟨envelope, found⟩, -⟩ := readArtefact_found ran
  exact absurd found.alive (by rw [lost envelope found.held]; decide)

/-- No exported file is written. -/
def Unexported (_ : World) (update : Update)
    : Prop := ∀ path bytes, update ≠ .writeExport path bytes

theorem unexported_of_within {areas : List Area} (absent : Area.exports ∉ areas) (world : World)
    (update : Update) (within : Within areas world update)
    : Unexported world update := by
  rintro path bytes rfl
  exact absent within.1

omit [Libraries] in
theorem Lost.apply (lost : Lost world hash) {update : Update} (elsewhere : update.area ≠ .payload)
    : Lost (Updates.apply update world) hash := by
  cases update <;> first | exact lost | exact absurd rfl elsewhere

/-- The first file of a release is not written if its artefact is lost, and so none is. -/
theorem writeFiles_lost {dest : String} {files : List (String × String)}
    : (writeFiles ctx dest files).Satisfies (fun world => ∀ file ∈ files, Lost world file.1)
        Unexported (fun _ _ => True) (fun _ _ => True) := by
  cases files with
  | nil => exact Program.satisfies_pure fun _ _ => trivial
  | cons file others =>
      obtain ⟨hash, name⟩ := file
      have stuck : (writeFile ctx dest hash name).Satisfies
          (fun world => ∀ file ∈ (hash, name) :: others, Lost world file.1) Unexported
          (fun _ _ => False) (fun _ _ => True) := by
        unfold writeFile
        refine Program.Emits.reads_bind readArtefact_emits
          (fun _ _ _ _ _ ran => readArtefact_done ran) fun bytes => ?_
        have refuted (world : World) (holds : (∀ file ∈ (hash, name) :: others, Lost world file.1)
            ∧ ¬Lost world hash) : False := holds.2 (holds.1 (hash, name) List.mem_cons_self)
        exact Program.satisfies_of_fact refuted False.elim
      unfold writeFiles
      exact stuck.bind fun _ => Program.satisfies_of_fact (fun _ no => no) False.elim

/-- Every artefact of the register is lost. -/
def AllLost (register : RegisterId) (world : World) : Prop :=
  ∀ reg, world.disk.registers[register.text]? = some reg
    → ∀ artefact ∈ reg.artefacts, Lost world artefact.hash

/-- A release of lost artefacts writes no file. -/
theorem release_lost {taskId toDir : String} {register : RegisterId}
    : (release ctx taskId register toDir).Satisfies (AllLost register) Unexported
        (fun _ _ => True) (fun _ _ => True) := by
  unfold release
  refine Program.Emits.reads_bind readRegister_emits
    (fun _ _ _ _ _ ran => (readRegister_done ran).1) fun reg => ?_
  let Gone (world : World) : Prop := ∀ artefact ∈ reg.artefacts, Lost world artefact.hash
  have kept {β : Type} {areas : List Area} {program : Syscall β}
      (emits : program.Emits (Within areas)) (payload : Area.payload ∉ areas)
      (exports : ∀ world update, Within areas world update → Unexported world update)
      : program.Satisfies Gone Unexported (fun _ => Gone) (fun _ _ => True) := by
    have carried : program.Satisfies Gone (Within areas) (fun _ => Gone) (fun _ => Gone) :=
      emits.keeps fun world update gone within artefact listed =>
        (gone artefact listed).apply fun same => payload (same ▸ within.1)
    exact carried.consequence (fun _ gone => gone) exports (fun _ _ gone => gone)
      (fun _ _ _ => trivial)
  have looked : (kernel id).Satisfies
      (fun world => AllLost register world ∧ world.disk.registers[register.text]? = some reg)
      Unexported (fun _ => Gone) (fun _ _ => True) :=
    Program.satisfies_observe fun _ holds => holds.1 reg holds.2
  refine looked.bind fun node => ?_
  cases releaseDest node toDir with
  | error error => exact Program.satisfies_fail fun _ _ => trivial
  | ok dest =>
      cases named : releaseFiles reg.artefacts with
      | error error => exact Program.satisfies_fail fun _ _ => trivial
      | ok files =>
          have created (path : String)
              : (privateDir path).Satisfies Gone Unexported (fun _ => Gone) (fun _ _ => True) := by
            have stored : (save (.createDir path)).Satisfies Gone Unexported (fun _ => Gone)
                (fun _ _ => True) :=
              Program.satisfies_persist (fun _ _ => nofun) (fun _ gone => gone) fun _ _ _ => trivial
            have checked : (load fun _ => ()).Satisfies Gone Unexported (fun _ => Gone)
                (fun _ _ => True) :=
              Program.satisfies_fetch (fun _ gone => gone) fun _ _ _ => trivial
            exact stored.bind fun _ => checked
          refine (kept log_emits (by decide) (unexported_of_within (by decide))).bind fun _ => ?_
          refine (created _).bind fun _ => (created _).bind fun _ => ?_
          refine writeFiles_lost.consequence (fun world gone file member => ?_)
            (fun _ _ admitted => admitted) (fun _ _ _ => trivial) (fun _ _ _ => trivial)
          obtain ⟨artefact, listed, same, -⟩ := releaseFiles_mem named file member
          exact same ▸ gone artefact listed

/-- A call of the scheduler on a task with lost artefacts exports nothing. -/
theorem runTaskStep_lost {taskId : String}
    (lost : ∀ row, world.disk.tasks[taskId]? = some row → AllLost row.register world)
    (faults : List Fault)
    : (runTaskStep ctx taskId world faults).2.1.disk.exports = world.disk.exports := by
  let Doomed (world : World) : Prop :=
    ∀ row, world.disk.tasks[taskId]? = some row → AllLost row.register world
  have triple : (runTaskStep ctx taskId).Satisfies Doomed Unexported (fun _ _ => True)
      (fun _ _ => True) := by
    refine runTaskStep_rule (fun world row doomed held => doomed row held)
      (unexported_of_within (by decide)) (fun row world update gone area => ?_) fun row kind => ?_
    · cases update with
      | putTask row => exact gone
      | _ => cases area
    · cases kind with
      | release toDir => exact release_lost.bind fun _ => Program.satisfies_pure fun _ _ => trivial
      | plan archId =>
          refine Program.Emits.from_any (Program.Emits.bind ?_ fun _ => Program.emits_pure)
          exact infer_emits.mono (unexported_of_within (by decide))
      | judge archId =>
          refine Program.Emits.from_any (Program.Emits.bind ?_ fun _ => Program.emits_pure)
          exact infer_emits.mono (unexported_of_within (by decide))
      | draft archId =>
          refine Program.Emits.from_any (Program.Emits.bind ?_ fun _ => Program.emits_pure)
          exact draft_emits.mono (unexported_of_within (by decide))
      | harness name => exact Program.satisfies_pure fun _ _ => trivial
      | approve =>
          exact Program.Emits.from_any (approvalSubject_emits.bind fun _ =>
            approvalsFor_emits.bind fun _ => Program.emits_pure)
  let Same (first last : World) : Prop := last.disk.exports = first.disk.exports
  have same : Same world (runTaskStep ctx taskId world faults).2.1 := by
    refine (triple.trail lost faults).relates (fun _ => rfl) fun first later update kept quiet => ?_
    cases update with
    | writeExport path bytes => exact absurd rfl (quiet path bytes)
    | _ => exact kept
  exact same

end VerticalAI.Kernel
