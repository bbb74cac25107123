import VerticalAI.Kernel.ArtefactReads
import VerticalAI.Kernel.CallGuard
import VerticalAI.Kernel.TaskMoves

/-! What a release that is done leaves among the exports: the files of its register's artefacts, with
their bytes, and every other file as it was.
-/

namespace VerticalAI.Kernel
open VerticalAI.Foundation VerticalAI.Contracts VerticalAI.Store

/-- The path of the file that an artefact is released to. -/
def ReleasedTo [Text.CharTables] (node : RealKernel) (toDir : String) (artefact : ArtefactRef)
    (path : String)
    : Prop :=
  ∃ dest name, releaseDest node toDir = .ok dest
    ∧ releaseFileName artefact.hash artefact.kind = .ok name ∧ path = joinPath dest name

/-- Two names in one directory with one path are one name. -/
theorem joinPath_injective {dest first second : String}
    (same : joinPath dest first = joinPath dest second)
    : first = second :=
  String.toList_inj.mp (Path.join_injective _ (String.ofList_injective same))

variable [Libraries]

/-- The bytes of the artefact at an address. -/
def HasBytes (world : World) (hash : String) (bytes : List UInt8) : Prop :=
  getBlob hash world [] = (.done bytes, world, [])

section Bytes

variable {world after : World} {hash : String} {bytes : List UInt8}

theorem hasBytes_iff : HasBytes world hash bytes ↔ ∃ envelope, Found world hash bytes envelope :=
  ⟨fun read => (getBlob_done read).1, fun ⟨_, found⟩ => getBlob_working found⟩

theorem hasBytes_of_done (read : (getBlob hash world []).1 = .done bytes)
    : HasBytes world hash bytes := by
  rcases ran : getBlob hash world [] with ⟨outcome, after, rest⟩
  rw [ran] at read
  subst read
  exact hasBytes_iff.mpr (getBlob_done ran).1

/-- Only a hash that is well formed names bytes. -/
theorem HasBytes.valid (has : HasBytes world hash bytes) : validHash hash = true := by
  obtain ⟨envelope, found⟩ := hasBytes_iff.mp has
  exact found.valid

/-- Nothing but the payload tier decides what an artefact's bytes are. -/
theorem hasBytes_trail {allowed : World → Update → Prop} (trail : Trail allowed world after)
    (elsewhere : ∀ later update, allowed later update → update.area ≠ .payload) (hash : String)
    (bytes : List UInt8)
    : HasBytes after hash bytes ↔ HasBytes world hash bytes := by
  have payload := same_elsewhere trail elsewhere
  have back : after.Same world .payload := ⟨payload.1.symm, payload.2.1.symm, payload.2.2.symm⟩
  have shredded := (shredded_trail trail).2
  rw [hasBytes_iff, hasBytes_iff]
  exact exists_congr fun envelope =>
    ⟨fun found => found.congr back shredded.symm, fun found => found.congr payload shredded⟩

/-- What is readable changes only with the payload tier. -/
theorem hasBytes_within {areas : List Area} (trail : Trail (Within areas) world after)
    (absent : Area.payload ∉ areas) (hash : String) (bytes : List UInt8)
    : HasBytes after hash bytes ↔ HasBytes world hash bytes :=
  hasBytes_trail trail (fun _ _ within equal => absent (equal ▸ within.1)) hash bytes

end Bytes

section Writing

variable {ctx : Ctx} {world last : World} {faults rest : List Fault}
  {dest hash name taskId toDir : String} {register : RegisterId}

/-- What a file was written with are its artefact's bytes. -/
theorem writeFile_done (ran : writeFile ctx dest hash name world faults = (.done (), last, rest))
    : ∃ bytes, HasBytes world hash bytes
      ∧ last.disk.exports = (world.disk.exports.insert (joinPath dest name) []).insert
        (joinPath dest name) bytes := by
  obtain ⟨bytes, _, _, read, emptied⟩ := Program.bind_done_inv ran
  obtain ⟨found, rfl⟩ := readArtefact_found read
  obtain ⟨_, _, _, opened, stored⟩ := Program.bind_done_inv emptied
  obtain rfl := save_done opened
  obtain ⟨_, _, _, written, checked⟩ := Program.bind_done_inv stored
  obtain rfl := save_done written
  obtain ⟨-, rfl⟩ := Program.fetch_done_inv checked
  exact ⟨bytes, hasBytes_iff.mpr found, rfl⟩

/-- What a list of files leaves: each path holds the bytes of the last artefact written there. -/
structure FilesWritten (world last : World) (dest : String) (files : List (String × String))
    : Prop where
  readable : ∀ file ∈ files, ∃ bytes, HasBytes world file.1 bytes
  written : ∀ file ∈ files, ∃ other ∈ files, joinPath dest other.2 = joinPath dest file.2
    ∧ ∃ bytes, HasBytes world other.1 bytes ∧ last.disk.exports[joinPath dest file.2]? = some bytes
  others : ∀ path, (∀ file ∈ files, joinPath dest file.2 ≠ path)
    → last.disk.exports[path]? = world.disk.exports[path]?

/-- The artefacts' bytes and the exports before are all that the starting point decides. -/
theorem FilesWritten.congr {start : World} {files : List (String × String)}
    (wrote : FilesWritten start last dest files)
    (bytes : ∀ hash bytes, HasBytes start hash bytes ↔ HasBytes world hash bytes)
    (exports : start.disk.exports = world.disk.exports)
    : FilesWritten world last dest files := by
  refine ⟨fun file member => ?_, fun file member => ?_, fun path apart => ?_⟩
  · obtain ⟨content, has⟩ := wrote.readable file member
    exact ⟨content, (bytes file.1 content).mp has⟩
  · obtain ⟨other, listed, path, content, has, held⟩ := wrote.written file member
    exact ⟨other, listed, path, content, (bytes other.1 content).mp has, held⟩
  · rw [wrote.others path apart, exports]

/-- A later file of the same path replaces an earlier one, by induction on the files. -/
theorem writeFiles_done {files : List (String × String)}
    (ran : writeFiles ctx dest files world faults = (.done (), last, rest))
    : FilesWritten world last dest files := by
  induction files generalizing world faults with
  | nil =>
      cases ran
      exact ⟨fun _ none => absurd none List.not_mem_nil, fun _ none => absurd none List.not_mem_nil,
        fun _ _ => rfl⟩
  | cons file more ih =>
      obtain ⟨hash, name⟩ := file
      obtain ⟨_, middle, left, first, later⟩ := Program.bind_done_inv ran
      obtain ⟨bytes, found, exports⟩ := writeFile_done first
      have same := hasBytes_within (writeFile_emits.trail_inv first) (by decide)
      have wrote := ih later
      have own : middle.disk.exports[joinPath dest name]? = some bytes := by
        rw [exports, Std.ExtTreeMap.getElem?_insert_self]
      refine ⟨List.forall_mem_cons.mpr ⟨⟨bytes, found⟩, fun file member => ?_⟩,
        List.forall_mem_cons.mpr ⟨?_, fun file member => ?_⟩, fun path apart => ?_⟩
      · obtain ⟨bytes, there⟩ := wrote.readable file member
        exact ⟨bytes, (same file.1 bytes).mp there⟩
      · by_cases again : ∃ file ∈ more, joinPath dest file.2 = joinPath dest name
        · obtain ⟨file, member, path⟩ := again
          obtain ⟨other, listed, path', bytes, there, held⟩ := wrote.written file member
          exact ⟨other, List.mem_cons_of_mem _ listed, path'.trans path, bytes,
            (same other.1 bytes).mp there, path ▸ held⟩
        · refine ⟨(hash, name), List.mem_cons_self, rfl, bytes, found, ?_⟩
          rw [wrote.others _ fun file member path => again ⟨file, member, path⟩, own]
      · obtain ⟨other, listed, path, bytes, there, held⟩ := wrote.written file member
        exact ⟨other, List.mem_cons_of_mem _ listed, path, bytes, (same other.1 bytes).mp there, held⟩
      · obtain ⟨first, apart⟩ := List.forall_mem_cons.mp apart
        rw [wrote.others path apart, exports, Table.getElem?_insert_ne (Ne.symm first),
          Table.getElem?_insert_ne (Ne.symm first)]

omit [Libraries] in
/-- Every artefact has a file, by induction on them. -/
theorem releaseFiles_covers [Text.CharTables] {artefacts : List ArtefactRef}
    {files : List (String × String)}
    (named : releaseFiles artefacts = .ok files)
    : ∀ artefact ∈ artefacts, ∃ file ∈ files, file.1 = artefact.hash
      ∧ releaseFileName artefact.hash artefact.kind = .ok file.2 := by
  induction artefacts generalizing files with
  | nil => exact fun _ none => absurd none List.not_mem_nil
  | cons artefact more ih =>
      unfold releaseFiles at named
      cases first : releaseFileName artefact.hash artefact.kind with
      | error error =>
          rw [first] at named
          cases named
      | ok name =>
          rw [first] at named
          cases others : releaseFiles more with
          | error error =>
              rw [others] at named
              cases named
          | ok later =>
              rw [others] at named
              cases named
              refine List.forall_mem_cons.mpr
                ⟨⟨_, List.mem_cons_self, rfl, first⟩, fun other member => ?_⟩
              obtain ⟨file, listed, same, named⟩ := ih others other member
              exact ⟨file, List.mem_cons_of_mem _ listed, same, named⟩

omit [Libraries] in
theorem privateDir_done {path : String}
    (ran : privateDir path world faults = (.done (), last, rest))
    : last = Updates.apply (.createDir path) world := by
  obtain ⟨_, _, _, made, checked⟩ := Program.bind_done_inv ran
  obtain rfl := save_done made
  exact (Program.fetch_done_inv checked).2

/-- A release that returned wrote the files of its register's artefacts. -/
theorem release_done (ran : release ctx taskId register toDir world faults = (.done (), last, rest))
    : ∃ reg dest files, world.disk.registers[register.text]? = some reg
      ∧ releaseDest world.kernel toDir = .ok dest ∧ releaseFiles reg.artefacts = .ok files
      ∧ FilesWritten world last dest files := by
  obtain ⟨reg, _, _, read, looked⟩ := Program.bind_done_inv ran
  obtain rfl := readRegister_emits.still_inv read
  rw [kernel, Program.observe_bind_run, id] at looked
  cases resolved : releaseDest _ toDir with
  | error error =>
      rw [resolved] at looked
      cases looked
  | ok dest =>
      rw [resolved] at looked
      cases named : releaseFiles reg.artefacts with
      | error error =>
          rw [named] at looked
          cases looked
      | ok files =>
          rw [named] at looked
          simp only [Program.lift_ok, Program.pure_bind_run] at looked
          obtain ⟨_, logged, _, recorded, created⟩ := Program.bind_done_inv looked
          obtain ⟨_, rooted, _, root, resumed⟩ := Program.bind_done_inv created
          obtain ⟨_, middle, _, made, wrote⟩ := Program.bind_done_inv resumed
          refine ⟨reg, dest, files, (readRegister_done read).1, rfl, named,
            (writeFiles_done wrote).congr (fun hash bytes => ?_) ?_⟩
          · calc HasBytes middle hash bytes
                ↔ HasBytes rooted hash bytes :=
                  hasBytes_within (privateDir_emits.trail_inv made) (by decide) hash bytes
              _ ↔ HasBytes logged hash bytes :=
                  hasBytes_within (privateDir_emits.trail_inv root) (by decide) hash bytes
              _ ↔ HasBytes _ hash bytes :=
                  hasBytes_within (log_emits.trail_inv recorded) (by decide) hash bytes
          · obtain rfl := privateDir_done made
            obtain rfl := privateDir_done root
            exact (same_of_trail (log_emits.trail_inv recorded) .exports (by decide)).2

end Writing

-----------------------------------------------------------------------------------------
-- The step that a call finishes
-----------------------------------------------------------------------------------------

section Scheduler

variable {ctx : Ctx} {old : Task} {i : Nat}

/-- No row is written that shows this step as done. -/
def LeavesUndone (i : Nat) (_ : World) (update : Update) : Prop :=
  ∀ row, update = .putTask row → ¬row.DoneAt i

/-- A step is put on the row as done only if it came to that. -/
theorem settleStep_leavesUndone {id : String} {k : Nat} {base : Task} (undone : ¬base.DoneAt i)
    {wasWaiting : Bool} {result : Except KernelError (StepStatus × UInt32)}
    (settled : ∀ status tokens, result = .ok (status, tokens)
      → status = .done ∨ status = .waitingHuman)
    (other : ∀ tokens, result = .ok (.done, tokens) → k ≠ i)
    : (settleStep ctx id k wasWaiting base result).Emits (LeavesUndone i) := by
  have modified {change : Step → Step} {row : Task} (built : row.steps = base.steps.modify k change)
      (leaves : ∀ step, k = i → (change step).status ≠ .done)
      : ¬row.DoneAt i := by
    intro done
    rcases Task.doneAt_modify built done with earlier | ⟨same, step, -, finished⟩
    · exact undone earlier
    · exact leaves step same.symm finished
  have saved {row : Task} (stays : ¬row.DoneAt i) : (saveTask row).Emits (LeavesUndone i) := by
    refine save_emits fun _ written same => ?_
    cases same
    exact stays
  have recorded {row : Task} (stays : ¬row.DoneAt i)
      : (recordStep ctx id k row).Emits (LeavesUndone i) := by
    have logged : (log "task.step" ctx.nowMs (stepRecord id k)).Emits (LeavesUndone i) :=
      log_emits.mono fun _ update within row same => by
        have recorded := List.mem_singleton.mp within.1
        rw [same] at recorded
        cases recorded
    exact logged.bind fun _ => (saved stays).bind fun _ => Program.emits_pure
  unfold settleStep
  split
  · split
    · exact Program.emits_pure
    · exact recorded (modified rfl fun _ _ same => nomatch same)
  · next status tokens waits =>
      refine recorded (modified rfl fun step same => ?_)
      rcases settled status tokens rfl with rfl | rfl
      · exact absurd same (other tokens rfl)
      · exact absurd rfl waits
  · refine (saved (modified rfl fun step _ same => ?_)).bind fun _ => Program.emits_fail
    cases same

/-- The work of this step was done, between bookkeeping. -/
def Finishing (ctx : Ctx) (old : Task) (i : Nat) (world last : World) : Prop :=
  ∃ before after left rest tokens step,
    Trail (Bookkeeping old) world before ∧ old.next = some (i, step)
    ∧ runStep ctx old.id step.kind old.register old.artefactType before left
      = (.done (.done, tokens), after, rest)
    ∧ Trail (Bookkeeping old) after last

/-- The row does not show this step as done. -/
def Undone (old : Task) (i : Nat) (world : World) : Prop :=
  ∀ row, world.disk.tasks[old.id]? = some row → ¬row.DoneAt i

omit [Libraries] in
theorem Undone.trail {world last : World} (undone : Undone old i world)
    (trail : Trail (LeavesUndone i) world last)
    : Undone old i last := by
  have step : ∀ later update, Undone old i later → LeavesUndone i later update
      → Undone old i (Updates.apply update later) := by
    intro later update undone leaves row held
    rcases tasks_apply held with ⟨rfl, -⟩ | earlier
    · exact leaves row rfl
    · exact undone row earlier
  exact trail.preserves step undone

/-- The work on the next step and its settlement leave this step undone unless its work was done, by
cases on how the work ends.
-/
theorem work_finishing (goesOn : ¬old.Terminal) {k : Nat} {step : Step}
    (next : old.next = some (k, step)) {base : Task} (begun : old.Begun k base)
    (undone : ¬base.DoneAt i) (wasWaiting : Bool) (world : World)
    (held : world.disk.tasks[old.id]? = some base) (faults : List Fault)
    : Undone old i ((Program.attempt (runStep ctx old.id step.kind old.register
        old.artefactType) >>= settleStep ctx old.id k wasWaiting base) world faults).2.1
      ∨ Finishing ctx old i world ((Program.attempt (runStep ctx old.id step.kind old.register
        old.artefactType) >>= settleStep ctx old.id k wasWaiting base) world faults).2.1 := by
  rw [Program.bind_run, Program.attempt]
  rcases work : runStep ctx old.id step.kind old.register old.artefactType world faults with
    ⟨⟨status, tokens⟩ | error | _, last, unmet⟩
  all_goals
    have kept := same_of_trail (runStep_emits.trail_inv work) .tasks (by decide)
    have stays : Undone old i last := by
      intro row found
      rw [World.Same] at kept
      rw [kept, held] at found
      obtain rfl := Option.some.inj found
      exact undone
  · have came : ∀ other spent, (Except.ok (status, tokens) : Except KernelError _)
        = .ok (other, spent) → other = .done ∨ other = .waitingHuman := by
      intro other spent same
      cases same
      exact runStep_status work
    by_cases finishes : status = .done ∧ k = i
    · obtain ⟨rfl, rfl⟩ := finishes
      exact Or.inr ⟨world, last, faults, unmet, tokens, step, .refl world, next, work,
        (settleStep_moves goesOn next begun came).trail last unmet⟩
    · refine Or.inl (stays.trail ((settleStep_leavesUndone undone came ?_).trail last unmet))
      intro spent same equal
      cases same
      exact finishes ⟨rfl, equal⟩
  · have broke : (settleStep ctx old.id k wasWaiting base (.error error)).Emits (LeavesUndone i) :=
      settleStep_leavesUndone undone (fun _ _ same => by cases same) (fun _ same => by cases same)
    exact Or.inl (stays.trail (broke.trail last unmet))
  · exact Or.inl stays

/-- Running the next step leaves every other step undone, and this one unless its work was done. -/
theorem advance_finishing (goesOn : ¬old.Terminal) {k : Nat} {step : Step}
    (next : old.next = some (k, step)) (undone : ¬old.DoneAt i) {world : World}
    (stored : world.disk.tasks[old.id]? = some old) (faults : List Fault)
    : Undone old i (advance ctx old.id old k step world faults).2.1
      ∨ Finishing ctx old i world (advance ctx old.id old k step world faults).2.1 := by
  unfold advance
  cases decide (step.status = .waitingHuman) with
  | true => exact work_finishing goesOn next (Or.inl rfl) undone true world stored faults
  | false =>
      have undoneToo : ¬(old.started k ctx.nowMs).DoneAt i := by
        intro done
        rcases Task.doneAt_modify rfl done with earlier | ⟨-, _, _, finished⟩
        · exact undone earlier
        · cases finished
      change Undone old i ((saveTask (old.started k ctx.nowMs) >>= fun _ =>
          Program.attempt (runStep ctx old.id step.kind old.register old.artefactType)
            >>= settleStep ctx old.id k false (old.started k ctx.nowMs)) world faults).2.1
        ∨ Finishing ctx old i world ((saveTask (old.started k ctx.nowMs) >>= fun _ =>
          Program.attempt (runStep ctx old.id step.kind old.register old.artefactType)
            >>= settleStep ctx old.id k false (old.started k ctx.nowMs)) world faults).2.1
      rw [Program.bind_run]
      rcases saved : saveTask (old.started k ctx.nowMs) world faults with
        ⟨_ | error | _, middle, rest⟩
      · obtain rfl := save_done saved
        have held : (Updates.apply (Update.putTask (old.started k ctx.nowMs)) world
            : World).disk.tasks[old.id]? = some (old.started k ctx.nowMs) :=
          Std.ExtTreeMap.getElem?_insert_self
        refine (work_finishing goesOn next (Or.inr ⟨ctx.nowMs, rfl⟩) undoneToo false _ held
          rest).imp_right ?_
        rintro ⟨before, after, left, unmet, tokens, ahead, head, rest⟩
        exact ⟨before, after, left, unmet, tokens, ahead,
          ((saveTask_moves goesOn (.started next)).trail_inv saved).trans head, rest⟩
      all_goals
        have initial : Undone old i world := fun row held => by
          obtain rfl := Option.some.inj (stored.symm.trans held)
          exact undone
        have leaves : (saveTask (old.started k ctx.nowMs)).Emits (LeavesUndone i) :=
          save_emits fun _ written same => by
            cases same
            exact undoneToo
        exact Or.inl (initial.trail (leaves.trail_inv saved))

/-- A step that a call of the scheduler made done was the next one, and its work was done. -/
theorem runTaskStep_finishing (ctx : Ctx) {world : World}
    (stored : world.disk.tasks[old.id]? = some old) (faults : List Fault) (undone : ¬old.DoneAt i)
    : Undone old i (runTaskStep ctx old.id world faults).2.1
      ∨ Finishing ctx old i world (runTaskStep ctx old.id world faults).2.1 := by
  have initial : Undone old i world := fun row held => by
    obtain rfl := Option.some.inj (stored.symm.trans held)
    exact undone
  have restated {status : TaskStatus} {last : Syscall Task}
      (after : last.Emits (LeavesUndone i))
      : (saveTask { old with status } >>= fun _ => last).Emits (LeavesUndone i) := by
    have same (later : World) : LeavesUndone i later (.putTask { old with status }) := by
      intro row written
      cases written
      exact undone
    exact Program.Emits.bind (save_emits same) fun _ => after
  unfold runTaskStep
  rw [Program.bind_run]
  rcases read : task ctx old.id world faults with ⟨shown | error | _, middle, rest⟩
  all_goals
    obtain rfl := task_emits.still_inv read
  · cases shown with
    | none => exact Or.inl initial
    | some row =>
        obtain rfl := Option.some.inj (stored.symm.trans (task_done read).1)
        dsimp only
        split
        · exact Or.inl initial
        · next goesOn =>
            rw [kernel, Program.observe_bind_run]
            split
            · exact Or.inl (initial.trail ((restated Program.emits_fail).trail _ rest))
            · cases next : old.next with
              | none => exact Or.inl (initial.trail ((restated Program.emits_pure).trail _ rest))
              | some current => exact advance_finishing goesOn next undone stored rest
  · exact Or.inl initial
  · exact Or.inl initial

/-- The file of one of these artefacts, with its bytes. -/
def ReleasedFrom (world : World) (toDir : String) (artefacts : List ArtefactRef) (path : String)
    (bytes : List UInt8) : Prop :=
  ∃ artefact ∈ artefacts, ReleasedTo world.kernel toDir artefact path
    ∧ HasBytes world artefact.hash bytes

/-- When a call made a release done, every export is as it was or the file of an artefact that the
task's register lists.
-/
theorem runTaskStep_released (ctx : Ctx) {world : World}
    (stored : world.disk.tasks[old.id]? = some old) (faults : List Fault) (undone : ¬old.DoneAt i)
    {finished : Task}
    (held : (runTaskStep ctx old.id world faults).2.1.disk.tasks[old.id]? = some finished)
    (done : finished.DoneAt i) {step : Step} (placed : finished.steps[i]? = some step)
    {toDir : String} (kind : step.kind = .release toDir)
    : ∃ reg, world.disk.registers[old.register.text]? = some reg
      ∧ ∀ path, (runTaskStep ctx old.id world faults).2.1.disk.exports[path]?
            = world.disk.exports[path]?
          ∨ ∃ bytes, ReleasedFrom world toDir reg.artefacts path bytes
            ∧ (runTaskStep ctx old.id world faults).2.1.disk.exports[path]? = some bytes := by
  have alike := (runTaskStep_row ctx stored faults).elim fun row ⟨found, moved⟩ => by
    obtain rfl := Option.some.inj (held.symm.trans found)
    exact moved.elim (fun same => same ▸ Task.Alike.refl old) fun moved => moved.2.built.1
  rcases runTaskStep_finishing ctx stored faults undone with still | finishing
  · exact absurd done (still finished held)
  obtain ⟨before, after, left, rest, tokens, ahead, head, next, work, tail⟩ := finishing
  obtain ⟨origin, found, same⟩ := alike.kind placed
  obtain rfl := Option.some.inj ((Task.next_some next).1.symm.trans found)
  rw [same, kind] at work
  obtain ⟨_, _, _, released, ended⟩ := Program.bind_done_inv work
  cases ended
  obtain ⟨reg, dest, files, registered, resolved, named, wrote⟩ := release_done released
  have apart (area : Area) (absent : area ∉ [Area.record, .tasks]) {first last : World}
      (trail : Trail (Bookkeeping old) first last)
      : first.Same last area :=
    same_elsewhere trail fun _ _ book equal => absent (equal ▸ book.1)
  have registers : before.disk.registers = world.disk.registers := apart .registers (by decide) head
  have left : before.disk.exports = world.disk.exports := (apart .exports (by decide) head).2
  have kept := (apart .exports (by decide) tail).2
  have same := hasBytes_trail head fun _ _ book equal => absurd (equal ▸ book.1) (by decide)
  have wrote := wrote.congr same left
  refine ⟨reg, registers ▸ registered, fun path => ?_⟩
  rw [kept]
  by_cases written : ∃ file ∈ files, joinPath dest file.2 = path
  · obtain ⟨file, member, rfl⟩ := written
    obtain ⟨other, listed, shared, bytes, has, held⟩ := wrote.written file member
    obtain ⟨artefact, among, hashed, titled⟩ := releaseFiles_mem named other listed
    refine Or.inr ⟨bytes, ⟨artefact, among, ⟨dest, other.2, ?_, titled, shared.symm⟩, ?_⟩, held⟩
    · rw [releaseDest, RealKernel.exportRoot, ← (process_of_trail head).1]
      exact resolved
    · rw [hashed]
      exact has
  · exact Or.inl (wrote.others path fun file member equal => written ⟨file, member, equal⟩)

end Scheduler

end VerticalAI.Kernel
