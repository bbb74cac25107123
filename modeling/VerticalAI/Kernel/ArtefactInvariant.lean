import Mathlib.Data.Set.Function
import VerticalAI.Kernel.Artefacts

/-! Every artefact that a register lists is in place under its task's subject, through all that
the calls on artefacts may do.
-/

namespace VerticalAI.Kernel
open VerticalAI.Foundation VerticalAI.Contracts VerticalAI.Store

variable [Libraries] {given : Set (List UInt8)}

/-- No two of these plaintexts are sealed at one address. -/
def Apart (pairs : Set (String × List UInt8)) : Prop :=
  Set.InjOn (fun pair => blobAddress pair.1 pair.2) pairs

/-- Every artefact of a register is one of these plaintexts, in place under its task's subject. -/
def Listed (pairs : Set (String × List UInt8)) (disk : StateDir) : Prop :=
  ∀ (key : String) (reg : Register), disk.registers[key]? = some reg
    → ∀ artefact ∈ reg.artefacts, ∃ bytes, (taskKey reg.taskId, bytes) ∈ pairs
      ∧ Kept disk (taskKey reg.taskId) reg.label bytes artefact.hash

omit [Libraries] in
/-- No two registers are of one task. -/
def TaskOnce (registers : Table Register) : Prop :=
  ∀ (key other : String) (reg found : Register), registers[key]? = some reg
    → registers[other]? = some found → reg.taskId = found.taskId → key = other

/-- The payload tier is the same. -/
theorem Kept.congr {disk after : StateDir} {keyId hash : String} {label : Label}
    {bytes : List UInt8} (kept : Kept disk keyId label bytes hash)
    (keys : after.dataKeys = disk.dataKeys) (blobs : after.blobs = disk.blobs)
    (envelopes : after.envelopes = disk.envelopes) (shredded : after.shredded = disk.shredded)
    : Kept after keyId label bytes hash := by
  refine ⟨kept.address, envelopes ▸ kept.named, fun alive => ?_⟩
  obtain ⟨dek, sealed, ⟨wrapped, held, unwraps⟩, blob, opened⟩ := kept.opens (shredded ▸ alive)
  exact ⟨dek, sealed, ⟨wrapped, keys ▸ held, unwraps⟩, blobs ▸ blob, opened⟩

section Updates

variable {world : World} {update : Update} {pairs : Set (String × List UInt8)}
  {keyId hash : String} {label : Label} {bytes : List UInt8}

/-- A plaintext in place stays so, by cases on the update: a key is only made where there is none,
and what is written at its address is the same plaintext under the same subject.
-/
theorem Kept.apply (apart : Apart pairs) (admitted : Attaching given world update)
    (attachable : ∀ keyId bytes, Attachable given world.disk.registers keyId bytes
      → (keyId, bytes) ∈ pairs)
    (member : (keyId, bytes) ∈ pairs)
    (labelled : ∀ (key : String) reg, world.disk.registers[key]? = some reg
      → taskKey reg.taskId = keyId → reg.label = label)
    (kept : Kept world.disk keyId label bytes hash)
    : Kept (Updates.apply update world : World).disk keyId label bytes hash := by
  cases update with
  | writeDataKey other wrapped =>
      refine ⟨kept.address, kept.named, fun alive => ?_⟩
      obtain ⟨dek, sealed, ⟨held, present, unwraps⟩, blob, opened⟩ := kept.opens alive
      have different : keyId ≠ other := by
        rintro rfl
        rw [show world.disk.dataKeys[keyId]? = none from admitted] at present
        cases present
      exact ⟨dek, sealed, ⟨held, (Table.getElem?_insert_ne different).trans present, unwraps⟩, blob,
        opened⟩
  | writeBlob other written =>
      obtain ⟨subject, plaintext, dek, source, address, key, opened⟩ := admitted
      refine ⟨kept.address, kept.named, fun alive => ?_⟩
      by_cases same : hash = other
      · subst same
        have equal := apart member (attachable subject plaintext source)
          (kept.address.trans address.symm)
        obtain ⟨rfl, rfl⟩ := Prod.mk.inj equal
        exact ⟨dek, written, key, Std.ExtTreeMap.getElem?_insert_self, opened⟩
      · obtain ⟨old, sealed, held, blob, opens⟩ := kept.opens alive
        exact ⟨old, sealed, held, (Table.getElem?_insert_ne same).trans blob, opens⟩
  | writeEnvelope envelope =>
      obtain ⟨key, reg, plaintext, held, subject, marked, source, address⟩ := admitted
      refine ⟨kept.address, ?_, kept.opens⟩
      by_cases same : hash = envelope.hash
      · subst same
        have equal := apart member (attachable envelope.keyId plaintext source)
          (kept.address.trans address.symm)
        obtain ⟨named, -⟩ := Prod.mk.inj equal
        exact ⟨envelope, Std.ExtTreeMap.getElem?_insert_self, rfl, named.symm,
          marked.trans (labelled key reg held (subject.symm.trans named.symm))⟩
      · obtain ⟨found, there, rest⟩ := kept.named
        exact ⟨found, (Table.getElem?_insert_ne same).trans there, rest⟩
  | _ => exact ⟨kept.address, kept.named, kept.opens⟩

omit [Libraries] in
theorem TaskOnce.same_label {registers : Table Register} (once : TaskOnce registers)
    {key other : String} {reg found : Register} (held : registers[key]? = some reg)
    (there : registers[other]? = some found) (same : taskKey found.taskId = taskKey reg.taskId)
    : found.label = reg.label := by
  obtain rfl := once other key found reg there held (taskKey_injective same)
  obtain rfl := Option.some.inj (held.symm.trans there)
  rfl

/-- What registers list stays in place, and what they come to list is. -/
theorem Listed.apply (apart : Apart pairs) (admitted : Attaching given world update)
    (attachable : ∀ keyId bytes, Attachable given world.disk.registers keyId bytes
      → (keyId, bytes) ∈ pairs)
    (once : TaskOnce world.disk.registers) (listed : Listed pairs world.disk)
    : Listed pairs (Updates.apply update world : World).disk := by
  have still (unchanged : (Updates.apply update world : World).disk.registers
        = world.disk.registers)
      : Listed pairs (Updates.apply update world : World).disk := by
    intro key reg held artefact member
    rw [unchanged] at held
    obtain ⟨bytes, sealable, kept⟩ := listed key reg held artefact member
    exact ⟨bytes, sealable, kept.apply apart admitted attachable sealable fun other found there same =>
      once.same_label held there same⟩
  cases update with
  | putRegister reg =>
      obtain ⟨old, held, further, sources⟩ := admitted
      intro key found there artefact member
      rcases Table.getElem?_insert_inv there with ⟨rfl, rfl⟩ | before
      · rw [further.task, further.label]
        rcases sources artefact member with earlier | ⟨bytes, source, kept⟩
        · obtain ⟨bytes, sealable, kept⟩ := listed _ old held artefact earlier
          exact ⟨bytes, sealable, kept.address, kept.named, kept.opens⟩
        · exact ⟨bytes, attachable _ bytes source, kept.address, kept.named, kept.opens⟩
      · obtain ⟨bytes, sealable, kept⟩ := listed key found before artefact member
        exact ⟨bytes, sealable, kept.address, kept.named, kept.opens⟩
  | _ => exact still rfl

/-- Registers are the ones that were there, and each has all it had. -/
structure Regrown (first last : Table Register) : Prop where
  grown : RegistersGrow first last
  known : ∀ (key : String) (reg : Register), last[key]? = some reg
    → ∃ old, first[key]? = some old ∧ Extends old reg

omit [Libraries] in
theorem Regrown.refl (registers : Table Register) : Regrown registers registers :=
  ⟨RegistersGrow.refl registers, fun _ reg held => ⟨reg, held, Extends.refl reg⟩⟩

omit [Libraries] in
theorem Regrown.trans {first middle last : Table Register} (head : Regrown first middle)
    (tail : Regrown middle last)
    : Regrown first last := by
  refine ⟨head.grown.trans tail.grown, fun key reg held => ?_⟩
  obtain ⟨between, there, further⟩ := tail.known key reg held
  obtain ⟨old, before, grown⟩ := head.known key between there
  exact ⟨old, before, grown.trans further⟩

theorem Regrown.apply (admitted : Attaching given world update)
    : Regrown world.disk.registers (Updates.apply update world : World).disk.registers := by
  cases update with
  | putRegister reg =>
      obtain ⟨old, held, further, -⟩ := admitted
      refine ⟨fun key found there => ?_, fun key found there => ?_⟩
      · by_cases same : key = reg.id.text
        · subst same
          obtain rfl := Option.some.inj (held.symm.trans there)
          exact ⟨reg, Std.ExtTreeMap.getElem?_insert_self, further⟩
        · exact ⟨found, (Table.getElem?_insert_ne same).trans there, Extends.refl found⟩
      · rcases Table.getElem?_insert_inv there with ⟨rfl, rfl⟩ | before
        · exact ⟨old, held, further⟩
        · exact ⟨found, before, Extends.refl found⟩
  | _ => exact Regrown.refl _

omit [Libraries] in
theorem TaskOnce.regrown {first last : Table Register} (once : TaskOnce first)
    (regrown : Regrown first last)
    : TaskOnce last := by
  intro key other reg found held there same
  obtain ⟨old, before, further⟩ := regrown.known key reg held
  obtain ⟨earlier, past, grown⟩ := regrown.known other found there
  exact once key other old earlier before past (further.task ▸ grown.task ▸ same)

end Updates

/-- Along a trail of attaching the registers regrow, and what they list is in place at its end. -/
theorem attaching_trail {first last : World} (trail : Trail (Attaching given) first last)
    : Regrown first.disk.registers last.disk.registers
      ∧ ∀ pairs, Apart pairs
        → (∀ keyId bytes, Attachable given last.disk.registers keyId bytes → (keyId, bytes) ∈ pairs)
        → TaskOnce first.disk.registers → Listed pairs first.disk → Listed pairs last.disk := by
  let Regrew (start later : World) : Prop := Regrown start.disk.registers later.disk.registers
  have ⟨towards, regrown⟩ : Trail (fun world update => Attaching given world update
      ∧ Regrew world last) first last ∧ Regrew first last :=
    trail.towards (fun world => Regrown.refl world.disk.registers)
      (fun _ _ _ head tail => Regrown.trans head tail) fun _ _ admitted => Regrown.apply admitted
  refine ⟨regrown, fun pairs apart attachable once listed => ?_⟩
  let Sound (world : World) : Prop := TaskOnce world.disk.registers ∧ Listed pairs world.disk
  have step (world : World) (update : Update) (sound : Sound world)
      (admitted : Attaching given world update ∧ Regrew world last)
      : Sound (Updates.apply update world) := by
    obtain ⟨attaching, later⟩ := admitted
    have known (keyId : String) (bytes : List UInt8)
        (source : Attachable given world.disk.registers keyId bytes) : (keyId, bytes) ∈ pairs :=
      attachable keyId bytes (source.mono (fun _ member => member) later.grown)
    exact ⟨sound.1.regrown (Regrown.apply attaching), sound.2.apply apart attaching known sound.1⟩
  have sound : Sound last := towards.preserves step ⟨once, listed⟩
  exact sound.2

end VerticalAI.Kernel
