import VerticalAI.Correctness.FreshIds
import VerticalAI.Kernel.ArtefactInvariant
import VerticalAI.Kernel.ArtefactReads
import VerticalAI.Store.BlobLibraries

/-! Erasing a task's subject erases its artefacts, and those alone: over every run of a node whose
blob store shreds subjects, with faults, crashes and reopenings.
-/

namespace VerticalAI.Correctness
open VerticalAI.Foundation VerticalAI.Contracts VerticalAI.Store VerticalAI.Kernel

/-- What happens to a node and to its blob store. -/
inductive ErasureEvent where
  | node (event : Event)
  | shred (keyId : String)

/-- The blob store shredded a subject: its data key is gone, and that is remembered on disk and by
the process.
-/
def shredSubject (world : World) (keyId : String) : World :=
  { world with
    disk :=
      { world.disk with
        dataKeys := world.disk.dataKeys.erase keyId
        shredded := world.disk.shredded.insert keyId () }
    kernel := { world.kernel with shredded := world.kernel.shredded.insert keyId () } }

/-- Registers are written by the kernel's own steps only. -/
def KernelOwned : ErasureEvent → Prop
  | .node (.call (.writeRegister _ _) _) => False
  | _ => True

/-- The bytes that callers hand over in a run. -/
def handedOver (events : List ErasureEvent) : Set (List UInt8) :=
  {bytes | ∃ call faults, .node (.call call faults) ∈ events ∧ bytes ∈ call.handed}

/-- How many numbers for ids an event draws at most; shredding draws none. -/
def ErasureEvent.draws : ErasureEvent → Nat
  | .node event => event.draws
  | .shred _ => 0

/-- How many numbers for ids a run draws at most. -/
def idsDrawn (events : List ErasureEvent) : Nat := (events.map ErasureEvent.draws).sum

theorem idsDrawn_append (first second : List ErasureEvent)
    : idsDrawn (first ++ second) = idsDrawn first + idsDrawn second := by
  rw [idsDrawn, List.map_append, List.sum_append]
  rfl

section Runs

variable [Libraries]

def erasureStep (machine : Machine) : ErasureEvent → Machine
  | .node event => machine.step event
  | .shred keyId => { machine with world := shredSubject machine.world keyId }

/-- A node after a run from an empty state directory. -/
def afterErasures (events : List ErasureEvent) : Machine := events.foldl erasureStep .fresh

theorem afterErasures_concat (events : List ErasureEvent) (event : ErasureEvent)
    : afterErasures (events ++ [event]) = erasureStep (afterErasures events) event :=
  List.foldl_concat erasureStep .fresh event events

/-- All that the tasks of a run may seal, by key id. -/
def sealable (events : List ErasureEvent) : Set (String × List UInt8) :=
  {pair | Attachable (handedOver events) (afterErasures events).world.disk.registers pair.1 pair.2}

end Runs

-----------------------------------------------------------------------------------------
-- Rows
-----------------------------------------------------------------------------------------

section Erasing

variable [Libraries] {world : World}

/-- A call that files no task keeps every row's ids, whatever becomes of its steps. -/
theorem invoke_tasks (keyed : TasksKeyed world.disk) {call : Call} (files : ¬call.FilesRegisters)
    (faults : List Fault) (key : String) (row : Task)
    (held : (invoke call world faults).2.1.disk.tasks[key]? = some row)
    : ∃ old, world.disk.tasks[key]? = some old ∧ row.id = old.id ∧ row.register = old.register := by
  by_cases elsewhere : Area.tasks ∈ call.footprint
  · cases call with
    | createTask ctx goal artefactType label steps => exact absurd trivial files
    | runTaskStep ctx taskId =>
        change ((Reply.task <$> runTaskStep ctx taskId) world faults).2.1.disk.tasks[key]? = _ at held
        rw [Program.map_run] at held
        cases stored : world.disk.tasks[taskId]? with
        | none =>
            dsimp only at held
            rw [runTaskStep_absent stored] at held
            exact ⟨row, held, rfl, rfl⟩
        | some old =>
            obtain rfl := keyed taskId old stored
            let Known (later : World) : Prop := ∀ (key : String) (row : Task),
              later.disk.tasks[key]? = some row
                → ∃ old, world.disk.tasks[key]? = some old ∧ row.id = old.id
                  ∧ row.register = old.register
            have step (later : World) (update : Update) (known : Known later)
                (guarded : StepGuard world.disk ctx old later update)
                : Known (Updates.apply update later) := by
              cases update with
              | putTask written =>
                  intro key row there
                  have alike := Progress.alike guarded
                  rcases Table.getElem?_insert_inv there with ⟨rfl, rfl⟩ | before
                  · exact ⟨old, alike.id ▸ stored, alike.id, alike.register⟩
                  · exact known key row before
              | _ => exact known
            have known : Known (runTaskStep ctx old.id world faults).2.1 :=
              (runTaskStep_guard stored faults).preserves step fun key row held =>
                ⟨row, held, rfl, rfl⟩
            exact known key row held
    | _ => exact absurd elsewhere (by simp [Call.footprint])
  · have same : (invoke call world faults).2.1.disk.tasks = world.disk.tasks :=
      same_of_trail ((invoke_emits call).trail world faults) .tasks elsewhere
    exact ⟨row, same ▸ held, rfl, rfl⟩

omit [Libraries] in
/-- The tables stay so where registers regrow and rows keep their ids. -/
theorem IdTables.regrown {disk after : StateDir} (tables : IdTables disk)
    (regrown : Regrown disk.registers after.registers) (keyed : RegistersKeyed after.registers)
    (tasks : ∀ (key : String) row, after.tasks[key]? = some row
      → ∃ old, disk.tasks[key]? = some old ∧ row.id = old.id ∧ row.register = old.register)
    (stops : after.stops = disk.stops) (resumes : after.resumes = disk.resumes)
    (grown : disk.numbered ≤ after.numbered)
    : IdTables after := by
  have origin (place : IdPlace) (id : String) (held : idAt after place = some id)
      : False ∨ idAt disk place = some id := by
    refine Or.inr ?_
    cases place with
    | register key =>
        obtain ⟨reg, there, rfl⟩ := Option.map_eq_some_iff.mp held
        obtain ⟨old, before, -⟩ := regrown.known key reg there
        rw [keyed key reg there]
        exact Option.map_eq_some_iff.mpr ⟨old, before, tables.register key old before⟩
    | taskOf key =>
        obtain ⟨reg, there, rfl⟩ := Option.map_eq_some_iff.mp held
        obtain ⟨old, before, further⟩ := regrown.known key reg there
        exact Option.map_eq_some_iff.mpr ⟨old, before, further.task.symm⟩
    | stop key => rwa [idAt, stops] at held
    | resume key => rwa [idAt, resumes] at held
  obtain ⟨minted, distinct⟩ := tables.add grown (fun _ _ => False) origin
    (fun _ _ added => added.elim) (fun _ _ _ added => added.elim)
  refine ⟨minted, distinct, keyed, fun key row held => ?_, stops ▸ tables.stop,
    resumes ▸ tables.resume⟩
  obtain ⟨old, before, named, register⟩ := tasks key row held
  obtain ⟨id, reg, there, task⟩ := tables.task key old before
  obtain ⟨later, present, further⟩ := regrown.grown _ reg there
  exact ⟨named.trans id, later, register ▸ present, further.task.trans task⟩

omit [Libraries] in
theorem IdTables.taskOnce {disk : StateDir} (tables : IdTables disk) : TaskOnce disk.registers := by
  intro key other reg found held there same
  have places := tables.distinct (.taskOf key) (.taskOf other) reg.taskId
    (Option.map_eq_some_iff.mpr ⟨reg, held, rfl⟩)
    (Option.map_eq_some_iff.mpr ⟨found, there, same.symm⟩)
  exact IdPlace.taskOf.inj places

theorem step_shredded (machine : Machine) (event : Event)
    : (machine.step event).world.disk.shredded = machine.world.disk.shredded := by
  rcases machine.step_cases event with ⟨call, faults, -, -, stepped⟩ | ⟨last, trail, stepped⟩
  · rw [stepped]
    exact (shredded_trail ((invoke_emits call).trail machine.world faults)).1
  · rw [stepped]
    exact (shredded_trail trail).1

/-- A running process remembers what is shredded. -/
def Remembers (machine : Machine) : Prop :=
  machine.up = true → machine.world.kernel.shredded = machine.world.disk.shredded

theorem Remembers.step {machine : Machine} (remembers : Remembers machine) (event : Event)
    : Remembers (machine.step event) := by
  cases event with
  | call call faults =>
      cases up : machine.up with
      | false => rwa [Machine.step_call_down up]
      | true =>
          intro _
          rw [Machine.step_call_world up]
          obtain ⟨disk, memory⟩ := shredded_trail ((invoke_emits call).trail machine.world faults)
          exact memory.trans ((remembers up).trans disk.symm)
  | close => exact nofun
  | «open» stateDir nodeId recoveredPartialLine nowMs faults =>
      cases up : machine.up with
      | true =>
          simp only [Machine.step, up, if_true]
          exact remembers
      | false =>
          rcases Machine.step_open up stateDir nodeId recoveredPartialLine nowMs faults with
            ⟨-, rebuilt, -⟩ | ⟨down, -⟩
          · intro _
            rw [rebuilt]
            rfl
          · intro alive
            rw [down] at alive
            cases alive

-----------------------------------------------------------------------------------------
-- Events
-----------------------------------------------------------------------------------------

/-- The registers grow from one state to the next, and what they list is in place there where it
was.
-/
structure Carried (given : Set (List UInt8)) (disk after : StateDir) : Prop where
  tables : IdTables after
  grown : RegistersGrow disk.registers after.registers
  listed : ∀ pairs, Kernel.Apart pairs
    → (∀ keyId bytes, Attachable given after.registers keyId bytes → (keyId, bytes) ∈ pairs)
    → Listed pairs disk → Listed pairs after

/-- Filing a register, a task, a STOP or a RESUME leaves all artefacts in place. -/
theorem Files.carried {given : Set (List UInt8)} {disk after : StateDir} (tables : IdTables disk)
    (files : Files disk after) (keys : after.dataKeys = disk.dataKeys)
    (blobs : after.blobs = disk.blobs) (envelopes : after.envelopes = disk.envelopes)
    (shredded : after.shredded = disk.shredded)
    : Carried given disk after := by
  refine ⟨tables.files files, fun key old held =>
    ⟨old, (tables.kept files).registers key old held, Extends.refl old⟩, fun pairs _ _ listed => ?_⟩
  have carried (key : String) (reg : Register) (held : disk.registers[key]? = some reg)
      (artefact : ArtefactRef) (member : artefact ∈ reg.artefacts)
      : ∃ bytes, (taskKey reg.taskId, bytes) ∈ pairs
        ∧ Kept after (taskKey reg.taskId) reg.label bytes artefact.hash := by
    obtain ⟨bytes, sealable, kept⟩ := listed key reg held artefact member
    exact ⟨bytes, sealable, kept.congr keys blobs envelopes shredded⟩
  intro key reg held
  cases files with
  | nothing registers => exact carried key reg (registers ▸ held)
  | stop _ registers => exact carried key reg (registers ▸ held)
  | resume _ registers => exact carried key reg (registers ▸ held)
  | register _ _ _ empty registers =>
      rw [registers] at held
      rcases Table.getElem?_insert_inv held with ⟨rfl, rfl⟩ | before
      · intro artefact member
        rw [empty] at member
        cases member
      · exact carried key reg before

/-- Every event of such a run carries the artefacts on, by cases on what it does to registers. -/
theorem step_carried (correct : Cipher.Correct) {given : Set (List UInt8)} {machine : Machine}
    {count : Nat} (tables : IdTables machine.world.disk) (numbering : Numbering machine count)
    {event : Event} (few : count + event.draws < 2 ^ 64) (owned : KernelOwned (.node event))
    (handed : ∀ call faults, event = .call call faults → call.handed ⊆ given)
    : Carried given machine.world.disk (machine.step event).world.disk := by
  have grown := (numbering.step event few).2
  rcases machine.step_cases event with ⟨call, faults, rfl, up, stepped⟩ | ⟨last, trail, stepped⟩
  · have within := (invoke_emits call).trail machine.world faults
    by_cases minting : Minting (.call call faults)
    · have files := step_files numbering few minting
      have absent : Area.payload ∉ call.footprint := by
        cases call <;> first | exact minting.elim | simp [Call.footprint]
      obtain ⟨keys, blobs, envelopes⟩ := same_of_trail within .payload absent
      rw [← stepped] at keys blobs envelopes
      exact files.carried tables keys blobs envelopes (step_shredded machine _)
    · have files : ¬call.FilesRegisters := by
        cases call <;> first | exact id | exact absurd trivial minting | exact owned.elim
      have stops : Area.stops ∉ call.footprint := by
        cases call <;> first | exact absurd trivial minting | simp [Call.footprint, stepAreas]
      have attaching := invoke_attaching correct tables.register files (handed call faults rfl) faults
      obtain ⟨regrown, listed⟩ := attaching_trail attaching
      obtain ⟨stopped, resumed, _⟩ := same_of_trail within .stops stops
      have keyed : TasksKeyed machine.world.disk := fun key row held => (tables.task key row held).1
      rw [stepped] at grown ⊢
      exact ⟨tables.regrown regrown (RegistersKeyed.trail within tables.register)
          (invoke_tasks keyed files faults) stopped resumed grown,
        regrown.grown, fun pairs apart known => listed pairs apart known tables.taskOnce⟩
  · have registers : last.disk.registers = machine.world.disk.registers :=
      same_of_trail trail .registers (by decide)
    have tasks : last.disk.tasks = machine.world.disk.tasks :=
      same_of_trail trail .tasks (by decide)
    obtain ⟨stops, resumes, _⟩ := same_of_trail trail .stops (by decide)
    have files : Files machine.world.disk (machine.step event).world.disk := by
      rw [stepped] at grown ⊢
      exact .nothing registers tasks stops resumes grown
    obtain ⟨keys, blobs, envelopes⟩ := same_of_trail trail .payload (by decide)
    rw [← stepped] at keys blobs envelopes
    exact files.carried tables keys blobs envelopes (step_shredded machine event)

omit [Libraries] in
theorem handedOver_mono (earlier later : List ErasureEvent)
    : handedOver earlier ⊆ handedOver (earlier ++ later) := by
  rintro bytes ⟨call, faults, member, handed⟩
  exact ⟨call, faults, List.mem_append_left _ member, handed⟩

/-- Shredding leaves in place what is not shredded. -/
theorem listed_shred {pairs : Set (String × List UInt8)} (listed : Listed pairs world.disk)
    (keyId : String)
    : Listed pairs (shredSubject world keyId).disk := by
  intro key reg held artefact member
  obtain ⟨bytes, sealable, kept⟩ := listed key reg held artefact member
  refine ⟨bytes, sealable, kept.address, kept.named, fun alive => ?_⟩
  change (world.disk.shredded.insert keyId ()).contains (taskKey reg.taskId) = false at alive
  rw [Std.ExtTreeMap.contains_insert, Bool.or_eq_false_iff] at alive
  obtain ⟨dek, sealed, ⟨wrapped, present, unwraps⟩, blob, opened⟩ := kept.opens alive.2
  have different : taskKey reg.taskId ≠ keyId := by
    intro same
    rw [same] at alive
    simp at alive
  exact ⟨dek, sealed, ⟨wrapped, (Table.getElem?_erase_other different).trans present, unwraps⟩, blob,
    opened⟩

/-- What holds at the end of every such run. -/
structure ErasureInvariant (events : List ErasureEvent) : Prop where
  tables : IdTables (afterErasures events).world.disk
  numbering : Numbering (afterErasures events) (idsDrawn events)
  remembers : Remembers (afterErasures events)
  listed : ∀ pairs, Kernel.Apart pairs → sealable events ⊆ pairs
    → Listed pairs (afterErasures events).world.disk
  shredded : ∀ keyId, (afterErasures events).world.disk.shredded.contains keyId = true
    ↔ .shred keyId ∈ events

/-- One more event keeps it, and the registers grow. -/
theorem ErasureInvariant.concat (correct : Cipher.Correct) {events : List ErasureEvent}
    (invariant : ErasureInvariant events) {event : ErasureEvent} (owned : KernelOwned event)
    (few : idsDrawn (events ++ [event]) < 2 ^ 64)
    : ErasureInvariant (events ++ [event])
      ∧ RegistersGrow (afterErasures events).world.disk.registers
          (afterErasures (events ++ [event])).world.disk.registers := by
  have last : event ∈ events ++ [event] := List.mem_append_right _ (List.mem_singleton_self _)
  have inclusion {after : Table Register} {pairs : Set (String × List UInt8)}
      (grown : RegistersGrow (afterErasures events).world.disk.registers after)
      (known : ∀ keyId bytes, Attachable (handedOver (events ++ [event])) after keyId bytes
        → (keyId, bytes) ∈ pairs)
      : sealable events ⊆ pairs :=
    fun pair member => known pair.1 pair.2 (member.mono (handedOver_mono events _) grown)
  rw [idsDrawn_append] at few
  cases event with
  | node event =>
      have handed (call : Call) (faults : List Fault) (called : event = .call call faults)
          : call.handed ⊆ handedOver (events ++ [.node event]) :=
        fun bytes member => ⟨call, faults, called ▸ last, member⟩
      have room : idsDrawn events + event.draws < 2 ^ 64 := few
      have carried := step_carried correct invariant.tables invariant.numbering room owned handed
      have reached := afterErasures_concat events (.node event)
      refine ⟨⟨?_, ?_, ?_, fun pairs apart known => ?_, fun keyId => ?_⟩, ?_⟩
      · rw [reached]
        exact carried.tables
      · rw [reached, idsDrawn_append]
        exact (invariant.numbering.step event room).1
      · rw [reached]
        exact invariant.remembers.step event
      · have sources (keyId : String) (bytes : List UInt8) (source : Attachable
            (handedOver (events ++ [.node event]))
            ((afterErasures events).step event).world.disk.registers keyId bytes)
            : (keyId, bytes) ∈ pairs := by
          refine known ?_
          rw [sealable, reached]
          exact source
        rw [reached]
        exact carried.listed pairs apart sources
          (invariant.listed pairs apart (inclusion carried.grown sources))
      · rw [reached]
        change ((afterErasures events).step event).world.disk.shredded.contains keyId = true ↔ _
        rw [step_shredded, invariant.shredded, List.mem_append, List.mem_singleton]
        simp
      · rw [reached]
        exact carried.grown
  | shred subject =>
      have reached := afterErasures_concat events (.shred subject)
      refine ⟨⟨?_, ?_, ?_, fun pairs apart known => ?_, fun keyId => ?_⟩, ?_⟩
      · rw [reached]
        exact ⟨invariant.tables.minted, invariant.tables.distinct, invariant.tables.register,
          invariant.tables.task, invariant.tables.stop, invariant.tables.resume⟩
      · rw [reached, idsDrawn_append]
        exact ⟨invariant.numbering.stored, invariant.numbering.memory⟩
      · rw [reached]
        intro up
        exact congrArg (fun shredded => shredded.insert subject ()) (invariant.remembers up)
      · have sources (keyId : String) (bytes : List UInt8) (source : Attachable
            (handedOver (events ++ [.shred subject]))
            (afterErasures events).world.disk.registers keyId bytes)
            : (keyId, bytes) ∈ pairs := by
          refine known ?_
          rw [sealable, reached]
          exact source
        rw [reached]
        exact listed_shred (invariant.listed pairs apart
          (inclusion (RegistersGrow.refl _) sources)) subject
      · rw [reached]
        change ((afterErasures events).world.disk.shredded.insert subject ()).contains keyId = true ↔ _
        have named : (compare subject keyId == .eq) = true ↔ .shred keyId = ErasureEvent.shred subject := by
          rw [beq_iff_eq, Std.compare_eq_iff_eq, ErasureEvent.shred.injEq, eq_comm]
        rw [Std.ExtTreeMap.contains_insert, Bool.or_eq_true, named, invariant.shredded,
          List.mem_append, List.mem_singleton, or_comm]
      · rw [reached]
        exact RegistersGrow.refl _

/-- By induction on the run. -/
theorem erasureInvariant (correct : Cipher.Correct) (events : List ErasureEvent)
    (owned : ∀ event ∈ events, KernelOwned event) (few : idsDrawn events < 2 ^ 64)
    : ErasureInvariant events := by
  induction events using List.reverseRecOn with
  | nil =>
      have tables : IdTables Machine.fresh.world.disk :=
        nodeAfter_idTables [] (fun _ member => absurd member List.not_mem_nil) (Nat.two_pow_pos 64)
      have absent (key : String) : (∅ : Table Register)[key]? = none := Std.ExtTreeMap.getElem?_empty
      have unshredded (keyId : String) : (∅ : Table Unit).contains keyId = false :=
        Std.ExtTreeMap.contains_empty
      refine ⟨tables, numbering_fresh, fun up => absurd up Bool.false_ne_true,
        fun pairs _ _ key reg held => ?_,
        fun keyId => ?_⟩
      · exact absurd (held.symm.trans (absent key)) (Option.some_ne_none reg)
      · exact ⟨fun shredded => absurd ((unshredded keyId).symm.trans shredded) Bool.false_ne_true,
          fun member => absurd member List.not_mem_nil⟩
  | append_singleton events event ih =>
      have fewer := Nat.lt_of_le_of_lt (Nat.le_add_right _ _) (idsDrawn_append events _ ▸ few)
      have earlier := ih (fun other member => owned other (List.mem_append_left _ member)) fewer
      exact (earlier.concat correct
        (owned event (List.mem_append_right _ (List.mem_singleton_self _))) few).1

/-- Registers grow over every run, by induction on what is between. -/
theorem afterErasures_grow (correct : Cipher.Correct) (earlier later : List ErasureEvent)
    (owned : ∀ event ∈ earlier ++ later, KernelOwned event)
    (few : idsDrawn (earlier ++ later) < 2 ^ 64)
    : RegistersGrow (afterErasures earlier).world.disk.registers
        (afterErasures (earlier ++ later)).world.disk.registers := by
  induction later using List.reverseRecOn with
  | nil =>
      rw [List.append_nil]
      exact RegistersGrow.refl _
  | append_singleton later event ih =>
      rw [← List.append_assoc] at owned few ⊢
      have fewer : idsDrawn (earlier ++ later) < 2 ^ 64 :=
        Nat.lt_of_le_of_lt (Nat.le_add_right _ _) (idsDrawn_append _ [event] ▸ few)
      have before : ∀ other ∈ earlier ++ later, KernelOwned other :=
        fun other member => owned other (List.mem_append_left _ member)
      exact (ih before fewer).trans ((erasureInvariant correct _ before fewer).concat correct
        (owned event (List.mem_append_right _ (List.mem_singleton_self _))) few).2

-----------------------------------------------------------------------------------------
-- Erasure
-----------------------------------------------------------------------------------------

/-- The register of the task lists an artefact with this hash. -/
def Lists (disk : StateDir) (taskId hash : String) : Prop :=
  ∃ row reg artefact, disk.tasks[taskId]? = some row
    ∧ disk.registers[row.register.text]? = some reg ∧ artefact ∈ reg.artefacts
    ∧ artefact.hash = hash

/-- In every run of a node whose registers only the kernel writes, and that draws fewer numbers for
ids than a `u64` counts, with faults, crashes, reopenings and subjects shredded at any time: what a
register ever lists for a task whose subject was shredded, before or after, is never read again and
no step of a task that lists it exports anything; what is listed for a task whose subject was not
shredded can be read by every caller that the register's label flows to.
-/
theorem erased_subject_erases_artefacts
    (sized : ∀ bytes, (Digest.sha256 bytes).length = 32) (correct : Cipher.Correct)
    (earlier later : List ErasureEvent) (owned : ∀ event ∈ earlier ++ later, KernelOwned event)
    (few : idsDrawn (earlier ++ later) < 2 ^ 64)
    (apart : Kernel.Apart (sealable (earlier ++ later)))
    (up : (afterErasures (earlier ++ later)).up = true) {id : String} {row : Task} {reg : Register}
    (stored : (afterErasures earlier).world.disk.tasks[id]? = some row)
    (held : (afterErasures earlier).world.disk.registers[row.register.text]? = some reg)
    {artefact : ArtefactRef} (listed : artefact ∈ reg.artefacts)
    : let world := (afterErasures (earlier ++ later)).world
      (.shred (taskKey id) ∈ earlier ++ later
        → (∀ ctx faults bytes, (readArtefact ctx artefact.hash world faults).1 ≠ .done bytes)
          ∧ ∀ ctx faults other, Lists world.disk other artefact.hash
            → (runTaskStep ctx other world faults).2.1.disk.exports = world.disk.exports)
      ∧ (.shred (taskKey id) ∉ earlier ++ later
        → ∃ bytes, blobAddress (taskKey id) bytes = artefact.hash
          ∧ ∀ ctx, reg.label.flowsTo ctx.clearance = true
            → readArtefact ctx artefact.hash world [] = (.done bytes, world, [])) := by
  intro world
  have invariant := erasureInvariant correct (earlier ++ later) owned few
  have before := erasureInvariant correct earlier
    (fun event member => owned event (List.mem_append_left _ member))
    (Nat.lt_of_le_of_lt (Nat.le_add_right _ _) (idsDrawn_append earlier later ▸ few))
  have allKept := invariant.listed _ apart fun _ member => member
  have remembered := invariant.remembers up
  -- the task's register is of this task, and still lists the artefact
  obtain ⟨-, found, there, task⟩ := before.tables.task id row stored
  obtain rfl := Option.some.inj (held.symm.trans there)
  obtain ⟨final, present, further⟩ := afterErasures_grow correct earlier later owned few _ reg held
  have subject : taskKey final.taskId = taskKey id := congrArg taskKey (further.task.trans task)
  obtain ⟨bytes, sealed, kept⟩ := allKept _ final present artefact (further.artefacts.subset listed)
  rw [subject] at kept sealed
  constructor
  · intro shredded
    have gone := (invariant.shredded (taskKey id)).mpr shredded
    rw [← remembered] at gone
    refine ⟨fun ctx faults bytes => ?_, fun ctx faults other lists => ?_⟩
    · rcases ran : readArtefact ctx artefact.hash world faults with ⟨outcome, after, rest⟩
      rintro rfl
      refine readArtefact_done ran fun envelope marked => ?_
      obtain ⟨marker, same, -, keyed, -⟩ := kept.named
      obtain rfl := Option.some.inj (same.symm.trans marked)
      exact keyed ▸ gone
    · obtain ⟨current, register, shared, current_held, register_held, member, same⟩ := lists
      -- an artefact at this address is of the same subject, and so is all that its register lists
      obtain ⟨plaintext, also, shares⟩ := allKept _ register register_held shared member
      have equal := apart also sealed ((shares.address.trans same).trans kept.address.symm)
      obtain ⟨common, -⟩ := Prod.mk.inj equal
      refine runTaskStep_lost (fun row held reg there artefact member envelope marked => ?_) faults
      obtain rfl := Option.some.inj (current_held.symm.trans held)
      obtain rfl := Option.some.inj (register_held.symm.trans there)
      obtain ⟨_, _, inPlace⟩ := allKept _ register register_held artefact member
      obtain ⟨marker, same, -, keyed, -⟩ := inPlace.named
      obtain rfl := Option.some.inj (same.symm.trans marked)
      rw [keyed, common]
      exact gone
  · intro unshredded
    have alive : world.disk.shredded.contains (taskKey id) = false := by
      rw [← Bool.not_eq_true]
      exact fun shredded => unshredded ((invariant.shredded (taskKey id)).mp shredded)
    refine ⟨bytes, kept.address, fun ctx flows => ?_⟩
    exact readArtefact_kept sized kept (remembered ▸ alive) alive (further.label ▸ flows)

end Erasing

section Shredding

/-- The concrete libraries with a digest of 32 bytes. -/
@[reducible] private def shreddingLibraries : Libraries :=
  { plainLibraries with sha256 := paddedDigest.sha256 }

attribute [local instance] shreddingLibraries

private theorem shreddingLibraries_correct : Cipher.Correct := by
  have drawn (count : Nat) : (Entropy.drawn count : List UInt8).length = 32 := List.length_replicate
  refine ⟨fun count nonce => ?_, fun wrapped dek _ associated plaintext nonce => ?_⟩
  · change some ((Entropy.drawn nonce ++ Entropy.drawn count).drop 32) = _
    rw [List.drop_left' (drawn nonce)]
  · have front : (Entropy.drawn nonce ++ dek ++ associated ++ plaintext).drop 32
        = (dek ++ associated) ++ plaintext := by
      rw [List.append_assoc, List.append_assoc, List.drop_left' (drawn nonce), List.append_assoc]
    have starts : (dek ++ associated).isPrefixOf ((dek ++ associated) ++ plaintext) = true :=
      List.isPrefixOf_iff_prefix.mpr (List.prefix_append _ _)
    have rest : (Entropy.drawn nonce ++ dek ++ associated ++ plaintext).drop
        (32 + (dek ++ associated).length) = plaintext := by
      rw [← List.drop_drop, front, List.drop_left]
    change (if (dek ++ associated).isPrefixOf
        ((Entropy.drawn nonce ++ dek ++ associated ++ plaintext).drop 32) then
        some ((Entropy.drawn nonce ++ dek ++ associated ++ plaintext).drop
          (32 + (dek ++ associated).length)) else none) = _
    rw [front, if_pos starts, rest]

private def eraserCtx : Ctx where
  principal := .human "node:n1"
  clearance := ⟨.personal, true⟩
  partition := "local"
  nowMs := 5

/-- Two tasks, each with the same bytes as its artefact. -/
private def attachingEvents : List ErasureEvent :=
  [.node (.open "state" "n1" false 0 []),
    .node (.call (.createTask eraserCtx "write" "text" Label.bottom [.release "out"]) []),
    .node (.call (.createTask eraserCtx "write" "text" Label.bottom [.release "out"]) []),
    .node (.call (.attachArtefact eraserCtx ⟨"reg-n1-1"⟩ "text" [7]) []),
    .node (.call (.attachArtefact eraserCtx ⟨"reg-n1-3"⟩ "text" [7]) [])]

/-- The first task's subject is shredded. -/
private def erasingEvents : List ErasureEvent := [.shred "task:task-n1-2"]

private def erasedHash : String := blobAddress "task:task-n1-2" [7]

private def keptHash : String := blobAddress "task:task-n1-4" [7]

private theorem attached_tasks
    : (afterErasures attachingEvents).world.disk.tasks.list.map (fun row => (row.1, row.2.register))
      = [("task-n1-2", ⟨"reg-n1-1"⟩), ("task-n1-4", ⟨"reg-n1-3"⟩)] := by decide +kernel

private theorem attached_registers
    : (afterErasures attachingEvents).world.disk.registers.list.map
        (fun row => (row.1, row.2.label, row.2.artefacts.map (·.hash)))
      = [("reg-n1-1", Label.bottom, [erasedHash]), ("reg-n1-3", Label.bottom, [keptHash])] := by
  decide +kernel

private theorem erased_registers
    : (afterErasures (attachingEvents ++ erasingEvents)).world.disk.registers.list.map
        (fun row => (row.2.taskId, row.2.decisions))
      = [("task-n1-2", []), ("task-n1-4", [])] := by decide +kernel

/-- The two tasks seal the same bytes, each under its own subject. -/
private theorem erasing_sealable (pair : String × List UInt8)
    (member : pair ∈ sealable (attachingEvents ++ erasingEvents))
    : pair = ("task:task-n1-2", [7]) ∨ pair = ("task:task-n1-4", [7]) := by
  obtain ⟨keyId, bytes⟩ := pair
  obtain ⟨key, reg, held, named, source⟩ := member
  dsimp only at named source
  have listed : (reg.taskId, reg.decisions) ∈ [("task-n1-2", []), ("task-n1-4", [])] := by
    rw [← erased_registers]
    exact List.mem_map.mpr ⟨(key, reg), Table.mem_list.mpr held, rfl⟩
  have undecided : reg.decisions = [] ∧ (reg.taskId = "task-n1-2" ∨ reg.taskId = "task-n1-4") := by
    simp only [List.mem_cons, Prod.mk.injEq, List.not_mem_nil, or_false] at listed
    rcases listed with ⟨task, none⟩ | ⟨task, none⟩
    · exact ⟨none, Or.inl task⟩
    · exact ⟨none, Or.inr task⟩
  have only : bytes = [7] := by
    rcases source with ⟨call, faults, called, handed⟩ | ⟨decision, decided, -⟩
    · simp only [attachingEvents, erasingEvents, List.mem_cons, List.mem_append, List.not_mem_nil,
        or_false, ErasureEvent.node.injEq, Event.call.injEq, reduceCtorEq, false_or] at called
      rcases called with ⟨rfl, -⟩ | ⟨rfl, -⟩ | ⟨rfl, -⟩ | ⟨rfl, -⟩
      · exact handed.elim
      · exact handed.elim
      · exact handed
      · exact handed
    · rw [undecided.1] at decided
      cases decided
  subst only named
  rcases undecided.2 with task | task
  · rw [task]
    exact Or.inl rfl
  · rw [task]
    exact Or.inr rfl

private theorem erasing_apart : Kernel.Apart (sealable (attachingEvents ++ erasingEvents)) := by
  have different : erasedHash ≠ keptHash := by decide +kernel
  intro first member second other same
  rcases erasing_sealable first member with rfl | rfl
  · rcases erasing_sealable second other with rfl | rfl
    · rfl
    · exact absurd same different
  · rcases erasing_sealable second other with rfl | rfl
    · exact absurd same.symm different
    · rfl

/-- After the first subject was shredded its artefact is not read, and the other task's is. -/
theorem erased_subject_erases_artefacts_of_one
    : (∀ faults bytes,
        (readArtefact eraserCtx erasedHash (afterErasures (attachingEvents ++ erasingEvents)).world
          faults).1 ≠ .done bytes)
      ∧ ∃ bytes, blobAddress "task:task-n1-4" bytes = keptHash
        ∧ (readArtefact eraserCtx keptHash (afterErasures (attachingEvents ++ erasingEvents)).world
          []).1 = .done bytes := by
  have owned : ∀ event ∈ attachingEvents ++ erasingEvents, KernelOwned event := by
    intro event member
    simp only [attachingEvents, erasingEvents, List.mem_append, List.mem_cons, List.not_mem_nil,
      or_false] at member
    rcases member with (rfl | rfl | rfl | rfl | rfl) | rfl <;> trivial
  have up : (afterErasures (attachingEvents ++ erasingEvents)).up = true := by decide +kernel
  have row (key register : String) (shown : (key, RegisterId.mk register)
        ∈ [("task-n1-2", ⟨"reg-n1-1"⟩), ("task-n1-4", ⟨"reg-n1-3"⟩)])
      : ∃ row, (afterErasures attachingEvents).world.disk.tasks[key]? = some row
        ∧ row.register = ⟨register⟩ := by
    rw [← attached_tasks] at shown
    obtain ⟨⟨_, row⟩, member, same⟩ := List.mem_map.mp shown
    obtain ⟨rfl, register⟩ := Prod.mk.inj same
    exact ⟨row, Table.mem_list.mp member, register⟩
  have listing (key hash : String) (shown : (key, Label.bottom, [hash])
        ∈ [("reg-n1-1", Label.bottom, [erasedHash]), ("reg-n1-3", Label.bottom, [keptHash])])
      : ∃ reg, (afterErasures attachingEvents).world.disk.registers[key]? = some reg
        ∧ reg.label = Label.bottom ∧ ∃ artefact ∈ reg.artefacts, artefact.hash = hash := by
    rw [← attached_registers] at shown
    obtain ⟨⟨_, reg⟩, member, same⟩ := List.mem_map.mp shown
    simp only [Prod.mk.injEq] at same
    obtain ⟨rfl, label, hashes⟩ := same
    refine ⟨reg, Table.mem_list.mp member, label, List.mem_map.mp ?_⟩
    rw [hashes]
    exact List.mem_singleton_self _
  obtain ⟨first, firstStored, firstNamed⟩ := row "task-n1-2" "reg-n1-1" List.mem_cons_self
  obtain ⟨second, secondStored, secondNamed⟩ :=
    row "task-n1-4" "reg-n1-3" (List.mem_cons_of_mem _ List.mem_cons_self)
  obtain ⟨erased, erasedHeld, -, erasedArtefact, erasedListed, erasedNamed⟩ :=
    listing "reg-n1-1" erasedHash List.mem_cons_self
  obtain ⟨kept, keptHeld, keptLabel, keptArtefact, keptListed, keptNamed⟩ :=
    listing "reg-n1-3" keptHash (List.mem_cons_of_mem _ List.mem_cons_self)
  have different : taskKey "task-n1-4" ≠ "task:task-n1-2" := by decide
  have gone := (erased_subject_erases_artefacts paddedDigest_length shreddingLibraries_correct
    attachingEvents erasingEvents owned (by decide) erasing_apart up firstStored
    (by rw [firstNamed]; exact erasedHeld) erasedListed).1
    (List.mem_append_right _ (List.mem_singleton_self _))
  have there := (erased_subject_erases_artefacts paddedDigest_length shreddingLibraries_correct
    attachingEvents erasingEvents owned (by decide) erasing_apart up secondStored
    (by rw [secondNamed]; exact keptHeld) keptListed).2
    (by simp [attachingEvents, erasingEvents, different])
  obtain ⟨bytes, address, readable⟩ := there
  have flows : kept.label.flowsTo eraserCtx.clearance = true := by
    rw [keptLabel]
    decide
  rw [erasedNamed] at gone
  rw [keptNamed] at address readable
  refine ⟨fun faults => gone.1 eraserCtx faults, bytes, address, ?_⟩
  rw [readable eraserCtx flows]

end Shredding

end VerticalAI.Correctness
