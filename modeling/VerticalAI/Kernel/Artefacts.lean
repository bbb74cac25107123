import Mathlib.Data.Set.Basic
import VerticalAI.Kernel.MintEffects
import VerticalAI.Kernel.RegisterRules

/-! The artefacts of registers: under which subject each is sealed, and what every call that touches
registers or the payload tier does to them.
-/

namespace VerticalAI.Kernel
open VerticalAI.Foundation VerticalAI.Contracts VerticalAI.Store

/-- The key id that a task's artefacts are sealed under. -/
def taskKey (taskId : String) : String := s!"task:{taskId}"

/-- Two tasks with one key id are one task. -/
theorem taskKey_injective {taskId other : String} (same : taskKey taskId = taskKey other)
    : taskId = other := by
  have texts : "task:" ++ taskId = "task:" ++ other := same
  have chars := congrArg String.toList texts
  rw [String.toList_append, String.toList_append] at chars
  exact String.toList_inj.mp (List.append_cancel_left chars)

/-- The register after the kernel worked on it: nothing that was there is gone. -/
structure Extends (old reg : Register) : Prop where
  task : reg.taskId = old.taskId
  label : reg.label = old.label
  decisions : old.decisions <+: reg.decisions
  artefacts : old.artefacts <+: reg.artefacts

theorem Extends.refl (reg : Register) : Extends reg reg :=
  ⟨rfl, rfl, List.prefix_refl _, List.prefix_refl _⟩

theorem Extends.trans {first middle last : Register} (head : Extends first middle)
    (tail : Extends middle last)
    : Extends first last :=
  ⟨tail.task.trans head.task, tail.label.trans head.label, head.decisions.trans tail.decisions,
    head.artefacts.trans tail.artefacts⟩

/-- The answer of an arch is added at the end. -/
theorem extends_raise (reg : Register) (role : String) (output : List Char)
    : Extends reg (raise reg role output) ∧ (raise reg role output).id = reg.id
      ∧ (raise reg role output).artefacts = reg.artefacts := by
  unfold raise
  dsimp only
  split
  · exact ⟨⟨rfl, rfl, List.prefix_refl _, List.prefix_refl _⟩, rfl, rfl⟩
  · exact ⟨⟨rfl, rfl, List.prefix_append _ _, List.prefix_refl _⟩, rfl, rfl⟩

/-- Every register is still there, with all it held. -/
def RegistersGrow (first last : Table Register) : Prop :=
  ∀ (key : String) (old : Register), first[key]? = some old
    → ∃ reg, last[key]? = some reg ∧ Extends old reg

namespace RegistersGrow

theorem refl (registers : Table Register) : RegistersGrow registers registers :=
  fun _ old held => ⟨old, held, Extends.refl old⟩

theorem trans {first middle last : Table Register} (head : RegistersGrow first middle)
    (tail : RegistersGrow middle last)
    : RegistersGrow first last := by
  intro key old held
  obtain ⟨reg, stored, grown⟩ := head key old held
  obtain ⟨final, present, further⟩ := tail key reg stored
  exact ⟨final, present, grown.trans further⟩

end RegistersGrow

/-- What a task may seal: bytes that a caller handed over, or a decision of its register. -/
def Attachable (given : Set (List UInt8)) (registers : Table Register) (keyId : String)
    (bytes : List UInt8)
    : Prop :=
  ∃ (key : String) (reg : Register), registers[key]? = some reg ∧ keyId = taskKey reg.taskId
    ∧ (bytes ∈ given ∨ ∃ decision ∈ reg.decisions, bytes = Challenge.utf8 decision)

/-- What could be attached can be attached later, when more was given and registers have
grown.
-/
theorem Attachable.mono {given wider : Set (List UInt8)} {first last : Table Register}
    {keyId : String} {bytes : List UInt8} (attachable : Attachable given first keyId bytes)
    (inclusion : given ⊆ wider) (grown : RegistersGrow first last)
    : Attachable wider last keyId bytes := by
  obtain ⟨key, old, held, rfl, source⟩ := attachable
  obtain ⟨reg, stored, further⟩ := grown key old held
  refine ⟨key, reg, stored, by rw [further.task], ?_⟩
  rcases source with handed | ⟨decision, listed, rfl⟩
  · exact Or.inl (inclusion handed)
  · exact Or.inr ⟨decision, further.decisions.subset listed, rfl⟩

/-- What the cipher library promises: a wrapped data key unwraps, and what is sealed under an
unwrapped data key opens.
-/
structure Cipher.Correct [Cipher] [Entropy] : Prop where
  unwraps : ∀ count nonce, Cipher.unwrapDek
    (Cipher.wrap (Entropy.drawn count) (Entropy.drawn nonce)) = some (Entropy.drawn count)
  opens : ∀ wrapped dek, Cipher.unwrapDek wrapped = some dek
    → ∀ associated plaintext nonce, Cipher.openUnder dek associated
      (Cipher.sealUnder dek associated plaintext (Entropy.drawn nonce)) = some plaintext

variable [Libraries]

/-- The subject's data key on disk. -/
def HasKey (disk : StateDir) (keyId : String) (dek : List UInt8) : Prop :=
  ∃ wrapped, disk.dataKeys[keyId]? = some wrapped ∧ Cipher.unwrapDek wrapped = some dek

/-- The ciphertext at the address opens under the subject's data key. -/
def Opens (disk : StateDir) (keyId : String) (bytes : List UInt8) (hash : String) : Prop :=
  ∃ dek sealed, HasKey disk keyId dek ∧ disk.blobs[hash]? = some sealed
    ∧ Cipher.openUnder dek (Challenge.utf8 hash) sealed = some bytes

/-- The address names its subject, and until that is shredded the plaintext can be read there. -/
structure Kept (disk : StateDir) (keyId : String) (label : Label) (bytes : List UInt8)
    (hash : String)
    : Prop where
  address : blobAddress keyId bytes = hash
  named : ∃ envelope, disk.envelopes[hash]? = some envelope ∧ envelope.hash = hash
    ∧ envelope.keyId = keyId ∧ envelope.label = label
  opens : disk.shredded.contains keyId = false → Opens disk keyId bytes hash

/-- What the calls on artefacts may do: registers grow by artefacts that are in place, a data key is
made where there is none, and what is sealed is attachable and sealed under its subject's key.
-/
def Attaching (given : Set (List UInt8)) (world : World) : Update → Prop
  | .putRegister reg =>
      ∃ old, world.disk.registers[reg.id.text]? = some old ∧ Extends old reg
        ∧ ∀ artefact ∈ reg.artefacts, artefact ∈ old.artefacts
          ∨ ∃ bytes, Attachable given world.disk.registers (taskKey old.taskId) bytes
            ∧ Kept world.disk (taskKey old.taskId) old.label bytes artefact.hash
  | .writeDataKey keyId _ => world.disk.dataKeys[keyId]? = none
  | .writeBlob hash sealed =>
      ∃ keyId bytes dek, Attachable given world.disk.registers keyId bytes
        ∧ blobAddress keyId bytes = hash ∧ HasKey world.disk keyId dek
        ∧ Cipher.openUnder dek (Challenge.utf8 hash) sealed = some bytes
  | .writeEnvelope envelope =>
      ∃ (key : String) (reg : Register) (bytes : List UInt8),
        world.disk.registers[key]? = some reg ∧ envelope.keyId = taskKey reg.taskId
        ∧ envelope.label = reg.label
        ∧ Attachable given world.disk.registers envelope.keyId bytes
        ∧ blobAddress envelope.keyId bytes = envelope.hash
  | _ => True

theorem attaching_elsewhere {given : Set (List UInt8)} {areas : List Area}
    (registers : Area.registers ∉ areas) (payload : Area.payload ∉ areas) (world : World)
    (update : Update) (within : Within areas world update)
    : Attaching given world update := by
  have area := within.1
  cases update with
  | putRegister reg => exact absurd area registers
  | writeDataKey keyId wrapped => exact absurd area payload
  | writeBlob hash sealed => exact absurd area payload
  | writeEnvelope envelope => exact absurd area payload
  | _ => trivial

section Programs

variable {given : Set (List UInt8)} {ctx : Ctx}

/-- The data key of a subject is on disk once it is handed out. -/
theorem dekFor_attaching (correct : Cipher.Correct)
    {known : Table Register → Prop} {keyId : String}
    : (dekFor keyId true).Satisfies (fun world => known world.disk.registers) (Attaching given)
        (fun dek world => known world.disk.registers ∧ HasKey world.disk keyId dek)
        (fun _ _ => True) := by
  let Knows (world : World) : Prop := known world.disk.registers
  have drawn {pre : World → Prop}
      (kept : ∀ world, pre world → pre { world with draws := world.draws + 1 })
      : (Program.perform Update.draw : Program World StorageError Unit).Satisfies pre
          (Attaching given) (fun _ => pre) (fun _ _ => True) :=
    Program.satisfies_perform (fun _ _ => trivial) kept
  have observed {α : Type} {look : World → α} (pre : World → Prop)
      : (Program.observe look : Program World StorageError α).Satisfies pre (Attaching given)
          (fun _ => pre) (fun _ _ => True) := Program.satisfies_observe fun _ holds => holds
  unfold dekFor
  refine (observed Knows).bind fun shredded => ?_
  split
  · exact Program.satisfies_fail fun _ _ => trivial
  · have fetched : (Program.fetch (fun _ => .notFound) (·.disk.dataKeys[keyId]?)
        : Program World StorageError _).Satisfies Knows (Attaching given)
          (fun held world => Knows world ∧ world.disk.dataKeys[keyId]? = held)
          (fun _ _ => True) :=
      Program.satisfies_fetch (fun _ holds => ⟨holds, rfl⟩) fun _ _ _ => trivial
    refine fetched.bind fun held => ?_
    cases held with
    | some wrapped =>
        dsimp only
        split
        · next dek unwraps =>
            exact Program.satisfies_pure fun world ⟨holds, held⟩ => ⟨holds, wrapped, held, unwraps⟩
        · exact Program.satisfies_fail fun _ _ => trivial
    | none =>
        refine (observed _).bind fun draws => ?_
        refine (drawn fun _ holds => holds).bind fun _ => (drawn fun _ holds => holds).bind fun _ => ?_
        have written : (Program.persist (fun _ => .notFound)
            (.writeDataKey keyId (Cipher.wrap (Entropy.drawn draws) (Entropy.drawn (draws + 1))))
              : Program World StorageError Unit).Satisfies
            (fun world => Knows world ∧ world.disk.dataKeys[keyId]? = none) (Attaching given)
            (fun _ world => Knows world ∧ HasKey world.disk keyId (Entropy.drawn draws))
            (fun _ _ => True) := by
          refine Program.satisfies_persist (fun _ holds => holds.2) (fun world holds => ?_)
            fun _ _ _ => trivial
          exact ⟨holds.1, _, Std.ExtTreeMap.getElem?_insert_self, correct.unwraps draws (draws + 1)⟩
        exact written.bind fun _ => Program.satisfies_pure fun _ holds => holds

/-- What was put is in place under its subject. -/
theorem putBlob_attaching (correct : Cipher.Correct) {key : String} {reg : Register}
    {bytes : List UInt8}
    : (putBlob (taskKey reg.taskId) reg.label bytes).Satisfies
        (fun world => world.disk.registers[key]? = some reg
          ∧ Attachable given world.disk.registers (taskKey reg.taskId) bytes)
        (Attaching given)
        (fun envelope world => (world.disk.registers[key]? = some reg
            ∧ Attachable given world.disk.registers (taskKey reg.taskId) bytes)
          ∧ Kept world.disk (taskKey reg.taskId) reg.label bytes envelope.hash)
        (fun _ _ => True) := by
  let known (registers : Table Register) : Prop :=
    registers[key]? = some reg ∧ Attachable given registers (taskKey reg.taskId) bytes
  have found : (Program.mapError (fun error => KernelError.store error.text)
      (dekFor (taskKey reg.taskId) true)).Satisfies (fun world => known world.disk.registers)
      (Attaching given)
      (fun dek world => known world.disk.registers ∧ HasKey world.disk (taskKey reg.taskId) dek)
      (fun _ _ => True) :=
    Program.Satisfies.mapError (dekFor_attaching correct)
  unfold putBlob
  refine found.bind fun dek => ?_
  let hash := blobAddress (taskKey reg.taskId) bytes
  let Ready (world : World) : Prop :=
    known world.disk.registers ∧ HasKey world.disk (taskKey reg.taskId) dek
  have drew : random.Satisfies Ready (Attaching given)
      (fun nonce world => Ready world ∧ ∃ count, nonce = Entropy.drawn count)
      (fun _ _ => True) := by
    have looked : (Program.observe (·.draws) : Syscall Nat).Satisfies Ready (Attaching given)
        (fun _ => Ready) (fun _ _ => True) := Program.satisfies_observe fun _ holds => holds
    have counted : (Program.perform Update.draw : Syscall Unit).Satisfies Ready (Attaching given)
        (fun _ => Ready) (fun _ _ => True) :=
      Program.satisfies_perform (fun _ _ => trivial) fun _ holds => holds
    unfold random
    exact looked.bind fun draws => counted.bind fun _ =>
      Program.satisfies_pure fun _ holds => ⟨holds, draws, rfl⟩
  refine drew.bind fun nonce => ?_
  refine Program.satisfies_of_fact (fun _ holds => holds.2) fun ⟨count, drawn⟩ => ?_
  have opened (world : World) (ready : Ready world)
      : Cipher.openUnder dek (Challenge.utf8 hash)
          (Cipher.sealUnder dek (Challenge.utf8 hash) bytes nonce) = some bytes := by
    obtain ⟨-, wrapped, -, unwraps⟩ := ready
    rw [drawn]
    exact correct.opens wrapped dek unwraps (Challenge.utf8 hash) bytes count
  let sealed := Cipher.sealUnder dek (Challenge.utf8 hash) bytes nonce
  have wrote : (Program.persist (fun _ => .store "write blob") (.writeBlob hash sealed)
      : Syscall Unit).Satisfies (fun world => Ready world ∧ ∃ count, nonce = Entropy.drawn count)
      (Attaching given)
      (fun _ world => known world.disk.registers
        ∧ Opens world.disk (taskKey reg.taskId) bytes hash)
      (fun _ _ => True) := by
    refine Program.satisfies_persist (fun world holds => ?_) (fun world holds => ?_)
      fun _ _ _ => trivial
    · exact ⟨_, bytes, dek, holds.1.1.2, rfl, holds.1.2, opened world holds.1⟩
    · exact ⟨holds.1.1, dek, sealed, holds.1.2, Std.ExtTreeMap.getElem?_insert_self,
        opened world holds.1⟩
  refine wrote.bind fun _ => ?_
  have named (envelope : BlobEnvelope) (address : envelope.hash = hash)
      (keyed : envelope.keyId = taskKey reg.taskId) (label : envelope.label = reg.label)
      : (Program.persist (fun _ => .store "write envelope") (.writeEnvelope envelope)
          : Syscall Unit).Satisfies
        (fun world => known world.disk.registers
          ∧ Opens world.disk (taskKey reg.taskId) bytes hash)
        (Attaching given)
        (fun _ world => known world.disk.registers
          ∧ Kept world.disk (taskKey reg.taskId) reg.label bytes envelope.hash)
        (fun _ _ => True) := by
    refine Program.satisfies_persist (fun world holds => ?_) (fun world holds => ?_)
      fun _ _ _ => trivial
    · exact ⟨key, reg, bytes, holds.1.1, keyed, label, keyed ▸ holds.1.2, keyed ▸ address.symm⟩
    · refine ⟨holds.1, address.symm, ?_, fun _ => address ▸ holds.2⟩
      exact ⟨envelope, Std.ExtTreeMap.getElem?_insert_self, rfl, keyed, label⟩
  exact (named _ rfl rfl rfl).bind fun _ => Program.satisfies_pure fun _ holds => holds

/-- What is attached becomes the last artefact of the register that was read. -/
theorem attachArtefact_attaching (correct : Cipher.Correct) {regId : RegisterId} {kind : String}
    {bytes : List UInt8}
    : (attachArtefact ctx regId kind bytes).Satisfies
        (fun world => RegistersKeyed world.disk.registers
          ∧ ∀ reg, world.disk.registers[regId.text]? = some reg
            → bytes ∈ given ∨ ∃ decision ∈ reg.decisions, bytes = Challenge.utf8 decision)
        (Attaching given) (fun _ _ => True) (fun _ _ => True) := by
  let Sourced (registers : Table Register) : Prop := RegistersKeyed registers
    ∧ ∀ reg, registers[regId.text]? = some reg
      → bytes ∈ given ∨ ∃ decision ∈ reg.decisions, bytes = Challenge.utf8 decision
  have lifted : (Program.lift (validateArtefactKind kind) : Syscall Unit).Emits (Within []) :=
    Program.emits_lift
  have checked : (Program.lift (validateArtefactKind kind) : Syscall Unit).Satisfies
      (fun world => Sourced world.disk.registers) (Attaching given)
      (fun _ world => Sourced world.disk.registers) (fun _ _ => True) :=
    known_elsewhere (attaching_elsewhere (by decide) (by decide)) lifted (by decide)
  unfold attachArtefact
  refine checked.bind fun _ => ?_
  refine Program.Emits.reads_bind readRegister_emits
    (fun _ _ _ _ _ ran => (readRegister_done ran).1) fun reg => ?_
  have named (world : World) (holds : Sourced world.disk.registers
      ∧ world.disk.registers[regId.text]? = some reg) : reg.id.text = regId.text :=
    holds.1.1 regId.text reg holds.2
  refine Program.satisfies_of_fact named fun named => ?_
  have put : (putBlob (taskKey reg.taskId) reg.label bytes).Satisfies
      (fun world => Sourced world.disk.registers ∧ world.disk.registers[regId.text]? = some reg)
      (Attaching given)
      (fun envelope world => (world.disk.registers[reg.id.text]? = some reg
          ∧ Attachable given world.disk.registers (taskKey reg.taskId) bytes)
        ∧ Kept world.disk (taskKey reg.taskId) reg.label bytes envelope.hash)
      (fun _ _ => True) := by
    refine (putBlob_attaching correct).consequence (fun world holds => ?_)
      (fun _ _ admitted => admitted) (fun _ _ holds => holds) (fun _ _ holds => holds)
    exact ⟨named ▸ holds.2, regId.text, reg, holds.2, rfl, holds.1.2 reg holds.2⟩
  refine put.bind fun envelope => ?_
  have listed : (writeRegister ctx
      { reg with artefacts := reg.artefacts ++ [⟨envelope.hash, kind⟩] }).Satisfies
      (fun world => (world.disk.registers[reg.id.text]? = some reg
          ∧ Attachable given world.disk.registers (taskKey reg.taskId) bytes)
        ∧ Kept world.disk (taskKey reg.taskId) reg.label bytes envelope.hash)
      (Attaching given) (fun _ _ => True) (fun _ _ => True) := by
    refine writeRegister_rule (attaching_elsewhere (by decide) (by decide)) fun world holds => ?_
    refine ⟨reg, holds.1.1, ⟨rfl, rfl, List.prefix_refl _, List.prefix_append _ _⟩, ?_⟩
    intro artefact member
    rcases List.mem_append.mp member with earlier | added
    · exact Or.inl earlier
    · obtain rfl := List.mem_singleton.mp added
      exact Or.inr ⟨bytes, holds.1.2, holds.2⟩
  exact listed.bind fun _ => Program.satisfies_pure fun _ _ => trivial

/-- The answer of an arch lists no artefact. -/
theorem raise_attaching (world : World) (reg : Register) (role : String) (output : List Char)
    (held : world.disk.registers[reg.id.text]? = some reg)
    : Attaching given world (.putRegister (raise reg role output)) := by
  obtain ⟨further, named, artefacts⟩ := extends_raise reg role output
  refine ⟨reg, named ▸ held, further, fun artefact member => Or.inl ?_⟩
  rwa [artefacts] at member

theorem runTaskStep_attaching (correct : Cipher.Correct) {taskId : String}
    : KeepsKeyed (Attaching given) (runTaskStep ctx taskId) := by
  have quiet {areas : List Area} (registers : Area.registers ∉ areas)
      (payload : Area.payload ∉ areas) (world : World) (update : Update)
      (within : Within areas world update) : Attaching given world update :=
    attaching_elsewhere registers payload world update within
  refine keepsKeyed_of (fun _ keyed => keyed) ?_
  refine runTaskStep_rule (fun _ _ keyed _ => keyed) (quiet (by decide) (by decide))
    (fun _ _ _ keyed _ => RegistersKeyed.apply keyed _) fun row kind => ?_
  have worked : KeepsKeyed (Attaching given)
      (runStep ctx taskId kind row.register row.artefactType) := by
    refine runStep_rule (quiet (by decide) (by decide)) raise_attaching
      fun register artefactType reg drafted last => ?_
    refine (attachArtefact_attaching correct).consequence (fun world holds => ?_)
      (fun _ _ admitted => admitted) (fun _ _ _ => trivial) (fun _ _ _ => trivial)
    refine ⟨holds.1, fun found held => Or.inr ⟨drafted, ?_, rfl⟩⟩
    obtain rfl := Option.some.inj (holds.2.symm.trans held)
    exact List.mem_of_getLast? last
  exact worked.consequence (fun _ keyed => keyed) (fun _ _ admitted => admitted)
    (fun _ _ _ => trivial) (fun _ _ _ => trivial)

/-- The call files registers that were not there, or as it is asked to. -/
def Call.FilesRegisters : Call → Prop
  | .submitTask _ _ _ | .createTask _ _ _ _ _ | .writeRegister _ _ => True
  | _ => False

/-- The bytes that a call hands over to be attached. -/
def Call.handed : Call → Set (List UInt8)
  | .attachArtefact _ _ _ bytes => {bytes}
  | _ => ∅

/-- Every call that files no register attaches at most, by cases on the call. -/
theorem invoke_attaching (correct : Cipher.Correct) {world : World}
    (keyed : RegistersKeyed world.disk.registers) {call : Call} (files : ¬call.FilesRegisters)
    (handed : call.handed ⊆ given) (faults : List Fault)
    : Trail (Attaching given) world (invoke call world faults).2.1 := by
  by_cases elsewhere : Area.registers ∈ call.footprint ∨ Area.payload ∈ call.footprint
  · cases call with
    | submitTask ctx goal label => exact absurd trivial files
    | createTask ctx goal artefactType label steps => exact absurd trivial files
    | writeRegister ctx reg => exact absurd trivial files
    | infer ctx archId capability regId =>
        change Trail _ world
          ((Reply.outcome <$> infer ctx archId capability regId) world faults).2.1
        rw [Program.map_run]
        have kept : KeepsKeyed (Attaching given) (infer ctx archId capability regId) :=
          infer_rule (attaching_elsewhere (by decide) (by decide)) raise_attaching
        exact kept.trail keyed faults
    | attachArtefact ctx regId kind bytes =>
        change Trail _ world
          ((Reply.envelope <$> attachArtefact ctx regId kind bytes) world faults).2.1
        rw [Program.map_run]
        exact (attachArtefact_attaching correct).trail ⟨keyed, fun _ _ => Or.inl (handed rfl)⟩ faults
    | runTaskStep ctx taskId =>
        change Trail _ world ((Reply.task <$> runTaskStep ctx taskId) world faults).2.1
        rw [Program.map_run]
        exact (runTaskStep_attaching correct).trail keyed faults
    | _ => exact absurd elsewhere (by simp [Call.footprint])
  · obtain ⟨registers, payload⟩ := not_or.mp elsewhere
    exact ((invoke_emits call).trail world faults).mono (attaching_elsewhere registers payload)

end Programs

end VerticalAI.Kernel
