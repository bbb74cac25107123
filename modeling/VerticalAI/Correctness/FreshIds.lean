import VerticalAI.Kernel.ApprovalHistory
import VerticalAI.Kernel.MintEffects

/-! Minted ids are fresh for ever: over every run of the calls that mint them, with faults,
crashes and reopenings under any node id, no two rows share one and no row is replaced.
-/

namespace VerticalAI.Correctness
open VerticalAI.Foundation VerticalAI.Contracts VerticalAI.Kernel

-----------------------------------------------------------------------------------------
-- Ids in the tables
-----------------------------------------------------------------------------------------

/-- A place in the tables that holds a minted id. -/
inductive IdPlace where
  | register (key : String)
  | taskOf (register : String)
  | stop (key : String)
  | resume (key : String)

/-- The id at a place. -/
def idAt (disk : StateDir) : IdPlace → Option String
  | .register key => disk.registers[key]?.map (·.id.text)
  | .taskOf key => disk.registers[key]?.map (·.taskId)
  | .stop key => disk.stops[key]?.map (·.id)
  | .resume key => disk.resumes[key]?.map (·.id)

/-- Every id is a minted one and in one place; rows are filed under their ids, a task under that
of its register.
-/
structure IdTables (disk : StateDir) : Prop where
  minted : ∀ place id, idAt disk place = some id → disk.Minted id
  distinct : ∀ place other id, idAt disk place = some id → idAt disk other = some id
    → place = other
  register : ∀ (key : String) (reg : Register), disk.registers[key]? = some reg → reg.id.text = key
  task : ∀ (key : String) (row : Task), disk.tasks[key]? = some row
    → row.id = key ∧ ∃ reg, disk.registers[row.register.text]? = some reg ∧ reg.taskId = key
  stop : ∀ (key : String) (event : StopEvent), disk.stops[key]? = some event → event.id = key
  resume : ∀ (key : String) (event : ResumeEvent), disk.resumes[key]? = some event
    → event.id = key

/-- Every row of the four tables stays as it is. -/
structure RowsKept (disk after : StateDir) : Prop where
  registers : ∀ (key : String) reg, disk.registers[key]? = some reg
    → after.registers[key]? = some reg
  tasks : ∀ (key : String) row, disk.tasks[key]? = some row → after.tasks[key]? = some row
  stops : ∀ (key : String) event, disk.stops[key]? = some event → after.stops[key]? = some event
  resumes : ∀ (key : String) event, disk.resumes[key]? = some event
    → after.resumes[key]? = some event

theorem RowsKept.trans {first middle last : StateDir} (head : RowsKept first middle)
    (tail : RowsKept middle last)
    : RowsKept first last :=
  ⟨fun key reg held => tail.registers key reg (head.registers key reg held),
    fun key row held => tail.tasks key row (head.tasks key row held),
    fun key event held => tail.stops key event (head.stops key event held),
    fun key event held => tail.resumes key event (head.resumes key event held)⟩

-----------------------------------------------------------------------------------------
-- What a call files
-----------------------------------------------------------------------------------------

/-- What a call that mints ids files: nothing, or rows under new ids in one table, and for a
register possibly its task.
-/
inductive Files (disk after : StateDir) : Prop where
  | nothing (registers : after.registers = disk.registers) (tasks : after.tasks = disk.tasks)
      (stops : after.stops = disk.stops) (resumes : after.resumes = disk.resumes)
      (grown : disk.numbered ≤ after.numbered)
  | register {reg : Register} (new : NewId disk after reg.id.text)
      (newTask : NewId disk after reg.taskId) (apart : reg.id.text ≠ reg.taskId)
      (empty : reg.artefacts = [])
      (registers : after.registers = disk.registers.insert reg.id.text reg)
      (tasks : after.tasks = disk.tasks
        ∨ ∃ row : Task, row.id = reg.taskId ∧ row.register = reg.id
          ∧ after.tasks = disk.tasks.insert row.id row)
      (stops : after.stops = disk.stops) (resumes : after.resumes = disk.resumes)
  | stop {event : StopEvent} (new : NewId disk after event.id)
      (registers : after.registers = disk.registers) (tasks : after.tasks = disk.tasks)
      (stops : after.stops = disk.stops.insert event.id event)
      (resumes : after.resumes = disk.resumes)
  | resume {event : ResumeEvent} (new : NewId disk after event.id)
      (registers : after.registers = disk.registers) (tasks : after.tasks = disk.tasks)
      (stops : after.stops = disk.stops)
      (resumes : after.resumes = disk.resumes.insert event.id event)

section Filing

variable {disk after : StateDir}

theorem Files.grown (files : Files disk after) : disk.numbered ≤ after.numbered := by
  cases files with
  | nothing _ _ _ _ grown => exact grown
  | register new => exact new.grown
  | stop new => exact new.grown
  | resume new => exact new.grown

/-- No id in the tables is a new one. -/
theorem IdTables.ne_new (tables : IdTables disk) (place : IdPlace) {id other : String}
    (held : idAt disk place = some id) (new : NewId disk after other)
    : id ≠ other :=
  new.ne (tables.minted place id held)

/-- Ids stay minted and in one place where the new ones are. -/
theorem IdTables.add (tables : IdTables disk) (grown : disk.numbered ≤ after.numbered)
    (added : IdPlace → String → Prop)
    (origin : ∀ place id, idAt after place = some id → added place id ∨ idAt disk place = some id)
    (new : ∀ place id, added place id → NewId disk after id)
    (once : ∀ place other id, added place id → added other id → place = other)
    : (∀ place id, idAt after place = some id → after.Minted id)
      ∧ ∀ place other id, idAt after place = some id → idAt after other = some id
        → place = other := by
  constructor
  · intro place id held
    rcases origin place id held with fresh | before
    · exact (new place id fresh).minted
    · exact (tables.minted place id before).mono grown
  · intro place other id held there
    rcases origin place id held with fresh | before
    · rcases origin other id there with also | earlier
      · exact once place other id fresh also
      · exact absurd rfl (tables.ne_new _ earlier (new place id fresh))
    · rcases origin other id there with also | earlier
      · exact absurd rfl (tables.ne_new _ before (new other id also))
      · exact tables.distinct place other id before earlier

/-- A row that is there stays when one is filed under a new id. -/
theorem kept_insert {α : Type} {table : Table α} {key new : String} {row added : α}
    (held : table[key]? = some row) (different : key ≠ new)
    : (table.insert new added)[key]? = some row :=
  (Table.getElem?_insert_ne different).trans held

/-- The two places of a register that was filed. -/
def OfRegister (reg : Register) (place : IdPlace) (id : String) : Prop :=
  place = .register reg.id.text ∧ id = reg.id.text ∨ place = .taskOf reg.id.text ∧ id = reg.taskId

theorem idAt_register {reg : Register}
    (registers : after.registers = disk.registers.insert reg.id.text reg)
    (stops : after.stops = disk.stops) (resumes : after.resumes = disk.resumes) (place : IdPlace)
    (id : String) (held : idAt after place = some id)
    : OfRegister reg place id ∨ idAt disk place = some id := by
  cases place with
  | register key =>
      obtain ⟨found, there, rfl⟩ := Option.map_eq_some_iff.mp held
      rw [registers] at there
      rcases Table.getElem?_insert_inv there with ⟨rfl, rfl⟩ | before
      · exact Or.inl (Or.inl ⟨rfl, rfl⟩)
      · exact Or.inr (Option.map_eq_some_iff.mpr ⟨found, before, rfl⟩)
  | taskOf key =>
      obtain ⟨found, there, rfl⟩ := Option.map_eq_some_iff.mp held
      rw [registers] at there
      rcases Table.getElem?_insert_inv there with ⟨rfl, rfl⟩ | before
      · exact Or.inl (Or.inr ⟨rfl, rfl⟩)
      · exact Or.inr (Option.map_eq_some_iff.mpr ⟨found, before, rfl⟩)
  | stop key => exact Or.inr (by rwa [idAt, stops] at held)
  | resume key => exact Or.inr (by rwa [idAt, resumes] at held)

theorem ofRegister_once {reg : Register} (apart : reg.id.text ≠ reg.taskId) (place other : IdPlace)
    (id : String) (first : OfRegister reg place id) (second : OfRegister reg other id)
    : place = other := by
  rcases first with ⟨rfl, rfl⟩ | ⟨rfl, rfl⟩
  · rcases second with ⟨rfl, -⟩ | ⟨-, same⟩
    · rfl
    · exact absurd same apart
  · rcases second with ⟨-, same⟩ | ⟨rfl, -⟩
    · exact absurd same.symm apart
    · rfl

theorem idAt_stop {event : StopEvent} (registers : after.registers = disk.registers)
    (stops : after.stops = disk.stops.insert event.id event)
    (resumes : after.resumes = disk.resumes) (place : IdPlace) (id : String)
    (held : idAt after place = some id)
    : (place = .stop event.id ∧ id = event.id) ∨ idAt disk place = some id := by
  cases place with
  | register key => exact Or.inr (by rwa [idAt, registers] at held)
  | taskOf key => exact Or.inr (by rwa [idAt, registers] at held)
  | stop key =>
      obtain ⟨found, there, rfl⟩ := Option.map_eq_some_iff.mp held
      rw [stops] at there
      rcases Table.getElem?_insert_inv there with ⟨rfl, rfl⟩ | before
      · exact Or.inl ⟨rfl, rfl⟩
      · exact Or.inr (Option.map_eq_some_iff.mpr ⟨found, before, rfl⟩)
  | resume key => exact Or.inr (by rwa [idAt, resumes] at held)

theorem idAt_resume {event : ResumeEvent} (registers : after.registers = disk.registers)
    (stops : after.stops = disk.stops)
    (resumes : after.resumes = disk.resumes.insert event.id event) (place : IdPlace) (id : String)
    (held : idAt after place = some id)
    : (place = .resume event.id ∧ id = event.id) ∨ idAt disk place = some id := by
  cases place with
  | register key => exact Or.inr (by rwa [idAt, registers] at held)
  | taskOf key => exact Or.inr (by rwa [idAt, registers] at held)
  | stop key => exact Or.inr (by rwa [idAt, stops] at held)
  | resume key =>
      obtain ⟨found, there, rfl⟩ := Option.map_eq_some_iff.mp held
      rw [resumes] at there
      rcases Table.getElem?_insert_inv there with ⟨rfl, rfl⟩ | before
      · exact Or.inl ⟨rfl, rfl⟩
      · exact Or.inr (Option.map_eq_some_iff.mpr ⟨found, before, rfl⟩)

/-- No key in the tables is a new id. -/
theorem IdTables.key_ne (tables : IdTables disk) {id : String} (new : NewId disk after id)
    : (∀ (key : String) reg, disk.registers[key]? = some reg → key ≠ id)
      ∧ (∀ (key : String) row, disk.tasks[key]? = some row → key ≠ id)
      ∧ (∀ (key : String) event, disk.stops[key]? = some event → key ≠ id)
      ∧ ∀ (key : String) event, disk.resumes[key]? = some event → key ≠ id := by
  refine ⟨fun key reg held => ?_, fun key row held => ?_, fun key event held => ?_,
    fun key event held => ?_⟩
  · have named := tables.register key reg held
    exact tables.ne_new (.register key) (Option.map_eq_some_iff.mpr ⟨reg, held, named⟩) new
  · obtain ⟨-, reg, there, named⟩ := tables.task key row held
    exact tables.ne_new (.taskOf row.register.text)
      (Option.map_eq_some_iff.mpr ⟨reg, there, named⟩) new
  · have named := tables.stop key event held
    exact tables.ne_new (.stop key) (Option.map_eq_some_iff.mpr ⟨event, held, named⟩) new
  · have named := tables.resume key event held
    exact tables.ne_new (.resume key) (Option.map_eq_some_iff.mpr ⟨event, held, named⟩) new

/-- Filing rows under new ids replaces none. -/
theorem IdTables.kept (tables : IdTables disk) (files : Files disk after)
    : RowsKept disk after := by
  cases files with
  | nothing registers tasks stops resumes =>
      refine ⟨?_, ?_, ?_, ?_⟩
      · exact fun key reg held => registers ▸ held
      · exact fun key row held => tasks ▸ held
      · exact fun key event held => stops ▸ held
      · exact fun key event held => resumes ▸ held
  | register new newTask _ _ registers tasks stops resumes =>
      refine ⟨fun key reg held => ?_, fun key row held => ?_, ?_, ?_⟩
      · rw [registers]
        exact kept_insert held ((tables.key_ne new).1 key reg held)
      · rcases tasks with same | ⟨added, named, -, inserted⟩
        · exact same ▸ held
        · rw [inserted, named]
          exact kept_insert held ((tables.key_ne newTask).2.1 key row held)
      · exact fun key event held => stops ▸ held
      · exact fun key event held => resumes ▸ held
  | stop new registers tasks stops resumes =>
      refine ⟨?_, ?_, fun key event held => ?_, ?_⟩
      · exact fun key reg held => registers ▸ held
      · exact fun key row held => tasks ▸ held
      · rw [stops]
        exact kept_insert held ((tables.key_ne new).2.2.1 key event held)
      · exact fun key event held => resumes ▸ held
  | resume new registers tasks stops resumes =>
      refine ⟨?_, ?_, ?_, fun key event held => ?_⟩
      · exact fun key reg held => registers ▸ held
      · exact fun key row held => tasks ▸ held
      · exact fun key event held => stops ▸ held
      · rw [resumes]
        exact kept_insert held ((tables.key_ne new).2.2.2 key event held)

/-- A task keeps its register. -/
theorem IdTables.task_kept (tables : IdTables disk) (files : Files disk after) {key : String}
    {row : Task} (held : disk.tasks[key]? = some row)
    : row.id = key ∧ ∃ reg, after.registers[row.register.text]? = some reg ∧ reg.taskId = key := by
  obtain ⟨named, reg, there, task⟩ := tables.task key row held
  exact ⟨named, reg, (tables.kept files).registers _ reg there, task⟩

/-- Filing rows under new ids keeps the tables so. -/
theorem IdTables.files (tables : IdTables disk) (files : Files disk after) : IdTables after := by
  have taskKept (key : String) (row : Task) (held : disk.tasks[key]? = some row) :=
    tables.task_kept files held
  cases files with
  | nothing registers tasks stops resumes grown =>
      have same (place : IdPlace) : idAt after place = idAt disk place := by
        cases place <;> simp only [idAt, registers, stops, resumes]
      have ⟨minted, distinct⟩ := tables.add grown (fun _ _ => False)
        (fun place id held => Or.inr (same place ▸ held)) nofun nofun
      refine ⟨minted, distinct, ?_, ?_, ?_, ?_⟩
      · exact registers ▸ tables.register
      · exact fun key row held => taskKept key row (tasks ▸ held)
      · exact stops ▸ tables.stop
      · exact resumes ▸ tables.resume
  | @register reg new newTask apart _ registers tasks stops resumes =>
      have ⟨minted, distinct⟩ := tables.add new.grown (OfRegister reg)
        (idAt_register registers stops resumes)
        (fun place id added => by
          rcases added with ⟨-, rfl⟩ | ⟨-, rfl⟩
          · exact new
          · exact newTask)
        (ofRegister_once apart)
      refine ⟨minted, distinct, fun key found held => ?_, fun key row held => ?_, ?_, ?_⟩
      · rw [registers] at held
        rcases Table.getElem?_insert_inv held with ⟨rfl, rfl⟩ | before
        · rfl
        · exact tables.register key found before
      · rcases tasks with same | ⟨added, named, of, inserted⟩
        · exact taskKept key row (same ▸ held)
        · rw [inserted] at held
          rcases Table.getElem?_insert_inv held with ⟨rfl, rfl⟩ | before
          · refine ⟨rfl, reg, ?_, named.symm⟩
            rw [registers, of]
            exact Std.ExtTreeMap.getElem?_insert_self
          · exact taskKept key row before
      · exact stops ▸ tables.stop
      · exact resumes ▸ tables.resume
  | @stop event new registers tasks stops resumes =>
      have ⟨minted, distinct⟩ := tables.add new.grown
        (fun place id => place = .stop event.id ∧ id = event.id)
        (idAt_stop registers stops resumes) (fun _ _ added => added.2 ▸ new)
        (fun _ _ _ first second => first.1.trans second.1.symm)
      refine ⟨minted, distinct, ?_, fun key row held => taskKept key row (tasks ▸ held),
        fun key found held => ?_, ?_⟩
      · exact registers ▸ tables.register
      · rw [stops] at held
        rcases Table.getElem?_insert_inv held with ⟨rfl, rfl⟩ | before
        · rfl
        · exact tables.stop key found before
      · exact resumes ▸ tables.resume
  | @resume event new registers tasks stops resumes =>
      have ⟨minted, distinct⟩ := tables.add new.grown
        (fun place id => place = .resume event.id ∧ id = event.id)
        (idAt_resume registers stops resumes) (fun _ _ added => added.2 ▸ new)
        (fun _ _ _ first second => first.1.trans second.1.symm)
      refine ⟨minted, distinct, ?_, fun key row held => taskKept key row (tasks ▸ held), ?_,
        fun key found held => ?_⟩
      · exact registers ▸ tables.register
      · exact stops ▸ tables.stop
      · rw [resumes] at held
        rcases Table.getElem?_insert_inv held with ⟨rfl, rfl⟩ | before
        · rfl
        · exact tables.resume key found before

end Filing

-----------------------------------------------------------------------------------------
-- Calls
-----------------------------------------------------------------------------------------

/-- The calls that mint the ids of registers, tasks, STOPs and RESUMEs. -/
def Minting : Event → Prop
  | .call (.submitTask _ _ _) _ | .call (.createTask _ _ _ _ _) _ => True
  | .call (.stop _ _) _ | .call (.resume _ _) _ => True
  | .call _ _ => False
  | .close | .open _ _ _ _ _ => True

section Calls

variable [Libraries] {world after : World}

theorem files_of_quiet (grown : world.disk.numbered ≤ after.disk.numbered)
    (quiet : Trail (Within [.counter, .record]) world after)
    : Files world.disk after.disk := by
  have ⟨stops, resumes, _⟩ := same_of_trail quiet .stops (by decide)
  exact .nothing (same_of_trail quiet .registers (by decide))
    (same_of_trail quiet .tasks (by decide)) stops resumes grown

/-- A task that was submitted, and possibly filed, is filed under new ids. -/
theorem files_of_submitted (supply : Supply 2 world) {middle : World} {reg : Register}
    (submitted : Submitted world middle reg)
    (tasks : after = middle ∨ ∃ row : Task, row.id = reg.taskId ∧ row.register = reg.id
      ∧ after = Updates.apply (Update.putTask row) middle)
    : Files world.disk after.disk := by
  have ⟨stops, resumes, _⟩ := same_of_trail submitted.logged .stops (by decide)
  have table := same_of_trail submitted.logged .tasks (by decide)
  obtain ⟨new, newTask, apart⟩ := submitted.newIds supply
  rcases tasks with rfl | ⟨row, named, of, rfl⟩
  · exact .register new newTask apart submitted.empty submitted.stored (Or.inl table) stops resumes
  · refine .register new newTask apart submitted.empty submitted.stored
      (Or.inr ⟨row, named, of, ?_⟩) stops resumes
    exact congrArg (fun table => table.insert row.id row) table

/-- A call that mints ids files its rows under new ones, however it ends. -/
theorem invoke_files {call : Call} (supply : Supply call.draws world) (faults : List Fault)
    (minting : Minting (.call call faults))
    : Files world.disk (invoke call world faults).2.1.disk := by
  cases call with
  | submitTask ctx goal label =>
      have ran := Program.map_run Reply.registerId (submitTask ctx goal label) world faults
      change Files world.disk ((Reply.registerId <$> submitTask ctx goal label) world faults).2.1.disk
      rw [ran]
      rcases submitTask_effect ctx goal label world faults with refused | ⟨reg, submitted, -⟩
      · exact files_of_quiet (submitTask_draws world faults supply).grown refused.quiet
      · exact files_of_submitted supply submitted (Or.inl rfl)
  | createTask ctx goal artefactType label steps =>
      have ran := Program.map_run Reply.task (createTask ctx goal artefactType label steps) world
        faults
      change Files world.disk
        ((Reply.task <$> createTask ctx goal artefactType label steps) world faults).2.1.disk
      rw [ran]
      rcases createTask_effect ctx goal artefactType label steps world faults with
        quiet | ⟨reg, middle, submitted, tasks⟩
      · exact files_of_quiet (createTask_draws world faults supply).grown quiet
      · exact files_of_submitted supply submitted
          (tasks.imp_right fun ⟨row, _, filed⟩ => ⟨row, filed⟩)
  | stop ctx scope =>
      change Files world.disk ((Reply.text <$> stop ctx scope) world faults).2.1.disk
      rw [Program.map_run]
      rcases stop_effect ctx scope world faults with ⟨refused, -⟩ | ⟨event, stopped⟩
      · exact files_of_quiet (stop_draws world faults supply).grown refused.quiet
      · have record := stopped.record
        exact .stop (stopped.newId supply)
          (same_of_trail stopped.logged .registers (by decide))
          (same_of_trail stopped.logged .tasks (by decide))
          (congrArg Prod.fst record) (congrArg (fun record => record.2.1) record)
  | resume ctx stopId =>
      change Files world.disk (((fun _ => Reply.unit) <$> resume ctx stopId) world faults).2.1.disk
      rw [Program.map_run]
      rcases resume_effect ctx stopId world faults with refused | ⟨event, lifted⟩
      · exact files_of_quiet (resume_draws world faults supply).grown refused.quiet
      · have record := lifted.record
        have new := lifted.newId supply
        obtain ⟨middle, logged, after⟩ := lifted.logged
        refine .resume new ?_ ?_
          (congrArg Prod.fst record) (congrArg (fun record => record.2.1) record)
        · rw [after]
          exact same_of_trail logged .registers (by decide)
        · rw [after]
          exact same_of_trail logged .tasks (by decide)
  | _ => exact minting.elim

/-- Every event of such a run files rows under new ids, if any. -/
theorem step_files {machine : Machine} {count : Nat} (numbering : Numbering machine count)
    {event : Event} (few : count + event.draws < 2 ^ 64) (minting : Minting event)
    : Files machine.world.disk (machine.step event).world.disk := by
  have grown := (numbering.step event few).2
  rcases machine.step_cases event with ⟨call, faults, rfl, up, stepped⟩ | ⟨last, trail, stepped⟩
  · rw [stepped]
    exact invoke_files (numbering.supply up few) faults minting
  · rw [stepped] at grown ⊢
    have ⟨stops, resumes, _⟩ := same_of_trail trail .stops (by decide)
    exact .nothing (same_of_trail trail .registers (by decide))
      (same_of_trail trail .tasks (by decide)) stops resumes grown

/-- The last event of such a run files rows under new ids, if any. -/
theorem last_files {events : List Event} {event : Event}
    (minting : ∀ other ∈ events ++ [event], Minting other)
    (few : drawn (events ++ [event]) < 2 ^ 64)
    : Files (nodeAfter events).world.disk ((nodeAfter events).step event).world.disk := by
  rw [drawn_append, drawn_cons, drawn_nil, Nat.add_zero] at few
  have numbering : Numbering (nodeAfter events) (drawn events) := numbering_run events (by omega)
  exact step_files numbering few (minting event (List.mem_append_right _ (List.mem_singleton_self _)))

/-- The tables stay so over every run, by induction on it. -/
theorem nodeAfter_idTables (events : List Event) (minting : ∀ event ∈ events, Minting event)
    (few : drawn events < 2 ^ 64)
    : IdTables (nodeAfter events).world.disk := by
  induction events using List.reverseRecOn with
  | nil =>
      refine ⟨fun place id held => ?_, fun place other id held => ?_, nofun, nofun, nofun, nofun⟩
      · cases place <;> cases held
      · cases place <;> cases held
  | append_singleton events event ih =>
      have earlier := ih (fun other member => minting other (List.mem_append_left _ member))
        (drawn_lt_of_append few)
      rw [nodeAfter_concat]
      exact earlier.files (last_files minting few)

/-- Rows of an earlier state are rows of every later one, by induction on what is between. -/
theorem nodeAfter_kept (earlier later : List Event)
    (minting : ∀ event ∈ earlier ++ later, Minting event)
    (few : drawn (earlier ++ later) < 2 ^ 64)
    : RowsKept (nodeAfter earlier).world.disk (nodeAfter (earlier ++ later)).world.disk := by
  induction later using List.reverseRecOn with
  | nil =>
      rw [List.append_nil]
      exact ⟨fun _ _ => id, fun _ _ => id, fun _ _ => id, fun _ _ => id⟩
  | append_singleton later event ih =>
      rw [← List.append_assoc] at minting few ⊢
      have fewer := drawn_lt_of_append few
      have before : ∀ other ∈ earlier ++ later, Minting other :=
        fun other member => minting other (List.mem_append_left _ member)
      have tables := nodeAfter_idTables (earlier ++ later) before fewer
      rw [nodeAfter_concat]
      exact (ih before fewer).trans (tables.kept (last_files minting few))

/-- In every run of submitting and creating tasks, STOPs and RESUMEs that draws fewer numbers than a
`u64` counts, with faults, crashes between any two durable writes and reopenings under any node id:
no two places of the tables hold the same id, a task has the id of its register's task, and no row
that an earlier state holds is ever replaced.
-/
theorem minted_ids_stay_fresh (events : List Event) (minting : ∀ event ∈ events, Minting event)
    (few : drawn events < 2 ^ 64)
    : IdTables (nodeAfter events).world.disk
      ∧ ∀ earlier later, events = earlier ++ later
        → RowsKept (nodeAfter earlier).world.disk (nodeAfter events).world.disk := by
  refine ⟨nodeAfter_idTables events minting few, ?_⟩
  rintro earlier later rfl
  exact nodeAfter_kept earlier later minting few

end Calls

attribute [local instance] plainLibraries

private def minterCtx : Ctx where
  principal := .human "node:n1"
  clearance := ⟨.personal, true⟩
  partition := "local"
  nowMs := 5

/-- A task and a STOP, then a task that loses power after its register, and a RESUME of a node
whose id ends like a number.
-/
private def mintingEvents : List Event :=
  [.open "state" "n1" false 0 [],
    .call (.createTask minterCtx "write" "text" Label.bottom [.approve]) [],
    .call (.stop minterCtx "node") [],
    .call (.createTask minterCtx "write" "text" Label.bottom [.approve]) [.none, .none, .none, .crash],
    .open "state" "n1-1" false 0 [], .call (.resume minterCtx "stop-n1-3") []]

/-- Nothing is filed twice in that run, and its first task is still there. -/
theorem minted_ids_stay_fresh_reopened
    : IdTables (nodeAfter mintingEvents).world.disk
      ∧ ∃ row, (nodeAfter mintingEvents).world.disk.tasks["task-n1-2"]? = some row := by
  have minting : ∀ event ∈ mintingEvents, Minting event := by
    intro event member
    simp only [mintingEvents, List.mem_cons, List.not_mem_nil, or_false] at member
    rcases member with rfl | rfl | rfl | rfl | rfl | rfl <;> trivial
  have fresh := minted_ids_stay_fresh mintingEvents minting (by decide)
  have kept := fresh.2 (mintingEvents.take 2) (mintingEvents.drop 2) (List.take_append_drop 2 _).symm
  exact ⟨fresh.1, _, kept.tasks "task-n1-2" _ rfl⟩

end VerticalAI.Correctness
