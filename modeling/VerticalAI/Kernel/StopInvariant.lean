import VerticalAI.Kernel.Rebuild
import VerticalAI.Kernel.StopEffects

/-! The STOP record over runs: what the tables hold, that the set in memory is the set they
hold, and what one event of a run does to them.
-/

namespace VerticalAI.Kernel
open VerticalAI.Foundation VerticalAI.Contracts VerticalAI.Store

/-- Every row is filed under its own id and was issued by a human, and every RESUME cites a STOP. -/
structure StopTables (disk : StateDir) : Prop where
  stop : ∀ (key : String) (event : StopEvent), disk.stops[key]? = some event
    → event.id = key ∧ event.issuer.isHuman = true
  resume : ∀ (key : String) (event : ResumeEvent), disk.resumes[key]? = some event
    → event.id = key ∧ event.issuer.isHuman = true ∧ disk.stops.contains event.cites = true

/-- Memory holds what the tables hold. -/
def InMemory (world : World) : Prop :=
  world.kernel.stops = ⟨world.disk.stops, world.disk.resumes⟩

/-- What the tables hold is what a process that reads them rebuilds. -/
theorem replayStops_eq {disk : StateDir} (tables : StopTables disk)
    : replayStops disk.stops disk.resumes = ⟨disk.stops, disk.resumes⟩ := by
  have stopRows : ∀ row ∈ disk.stops.list,
      row.2.id = row.1 ∧ row.2.issuer.isHuman = true := by
    intro row member
    exact tables.stop row.1 row.2 (Table.mem_list.mp member)
  have resumeRows : ∀ row ∈ disk.resumes.list, row.2.id = row.1
      ∧ row.2.issuer.isHuman = true ∧ disk.stops.contains row.2.cites = true := by
    intro row member
    exact tables.resume row.1 row.2 (Table.mem_list.mp member)
  unfold replayStops
  dsimp only
  rw [StopSet.foldl_tryAddStop _ stopRows, Table.foldl_insert_list]
  rw [StopSet.foldl_addResume _ resumeRows, Table.foldl_insert_list]

/-- The tables keep their keys while neither of them changes. -/
theorem StopTables.congr {disk after : StateDir} (tables : StopTables disk)
    (stops : after.stops = disk.stops) (resumes : after.resumes = disk.resumes)
    : StopTables after := by
  constructor
  · intro key event held
    exact tables.stop key event (stops ▸ held)
  · intro key event held
    rw [stops]
    exact tables.resume key event (resumes ▸ held)

theorem StopTables.same {world after : World} (tables : StopTables world.disk)
    (record : after.stopRecord = world.stopRecord)
    : StopTables after.disk :=
  tables.congr (congrArg Prod.fst record) (congrArg (fun record => record.2.1) record)

theorem InMemory.same {world after : World} (memory : InMemory world)
    (record : after.stopRecord = world.stopRecord)
    : InMemory after := by
  simp only [World.stopRecord, Prod.mk.injEq] at record
  rw [InMemory, record.1, record.2.1, record.2.2]
  exact memory

variable [Libraries]

namespace Stopped

variable {ctx : Ctx} {scope : String} {world after : World}
  {outcome : Outcome KernelError String} {event : StopEvent}

theorem named (stopped : Stopped ctx scope world outcome after event) : event.scope = scope :=
  congrArg StopEvent.scope stopped.issued

/-- The tables gain the STOP, and so does memory. -/
theorem record (stopped : Stopped ctx scope world outcome after event)
    : after.stopRecord
      = (world.disk.stops.insert event.id event, world.disk.resumes,
          { world.kernel.stops with
            stops := world.kernel.stops.stops.insert event.id event }) :=
  stopRecord_frame (by decide) stopped.logged

/-- A STOP goes into the table and into memory alike. -/
theorem keeps (stopped : Stopped ctx scope world outcome after event)
    (tables : StopTables world.disk) (memory : InMemory world)
    : StopTables after.disk ∧ InMemory after := by
  have record := stopped.record
  simp only [World.stopRecord, Prod.mk.injEq] at record
  obtain ⟨stops, resumes, inMemory⟩ := record
  refine ⟨⟨?_, ?_⟩, ?_⟩
  · intro key held found
    rw [stops] at found
    rcases Table.getElem?_insert_inv found with ⟨rfl, rfl⟩ | before
    · exact ⟨rfl, stopped.human⟩
    · exact tables.stop key held before
  · intro key held found
    obtain ⟨named, human, known⟩ := tables.resume key held (resumes ▸ found)
    refine ⟨named, human, ?_⟩
    rw [stops, Std.ExtTreeMap.contains_insert, known, Bool.or_true]
  · rw [InMemory, inMemory, stops, resumes, memory]

end Stopped

namespace Lifted

variable {stopId : String} {world after : World} {outcome : Outcome KernelError Unit}
  {event : ResumeEvent}

/-- The tables gain the RESUME, and so does memory. -/
theorem record (lifted : Lifted stopId world outcome after event)
    : after.stopRecord
      = (world.disk.stops, world.disk.resumes.insert event.id event,
          { world.kernel.stops with
            resumes := world.kernel.stops.resumes.insert event.id event }) := by
  obtain ⟨middle, logged, rfl⟩ := lifted.logged
  have kept := stopRecord_frame (by decide) logged
  simp only [World.stopRecord, Prod.mk.injEq] at kept
  obtain ⟨stops, resumes, inMemory⟩ := kept
  simp only [World.stopRecord, Prod.mk.injEq]
  refine ⟨stops, ?_, ?_⟩
  · exact congrArg (fun table => table.insert event.id event) resumes
  · exact congrArg (fun set : StopSet =>
      { set with resumes := set.resumes.insert event.id event }) inMemory

theorem keeps (lifted : Lifted stopId world outcome after event)
    (tables : StopTables world.disk) (memory : InMemory world)
    : StopTables after.disk ∧ InMemory after := by
  have record := lifted.record
  simp only [World.stopRecord, Prod.mk.injEq] at record
  obtain ⟨stops, resumes, inMemory⟩ := record
  refine ⟨⟨?_, ?_⟩, ?_⟩
  · intro key held found
    exact tables.stop key held (stops ▸ found)
  · intro key held found
    rw [resumes] at found
    rw [stops]
    rcases Table.getElem?_insert_inv found with ⟨rfl, rfl⟩ | before
    · have known := lifted.known
      rw [memory, ← lifted.cites] at known
      exact ⟨rfl, lifted.human, known⟩
    · exact tables.resume key held before
  · rw [InMemory, inMemory, stops, resumes, memory]

end Lifted

/-- What a call does to the STOP record, with the outcome of the call. -/
inductive RecordChange (world after : World) (outcome : Outcome KernelError Reply)
    : Call → Prop where
  | quiet {call : Call} (same : after.stopRecord = world.stopRecord)
    (noStop : ∀ ctx scope, call = .stop ctx scope → ∀ value, outcome ≠ .done value)
    (noResume : ∀ ctx id, call = .resume ctx id → ∀ value, outcome ≠ .done value)
    : RecordChange world after outcome call
  | stopped {ctx : Ctx} {scope : String} {event : StopEvent}
    {result : Outcome KernelError String}
    (stopped : Stopped ctx scope world result after event) (answer : outcome = result.map .text)
    : RecordChange world after outcome (.stop ctx scope)
  | lifted {ctx : Ctx} {stopId : String} {event : ResumeEvent}
    {result : Outcome KernelError Unit}
    (lifted : Lifted stopId world result after event)
    (answer : outcome = result.map fun _ => .unit)
    : RecordChange world after outcome (.resume ctx stopId)

omit [Libraries] in
theorem Outcome.map_ne_done {α β : Type} {outcome : Outcome KernelError α} {change : α → β}
    (noValue : ∀ value, outcome ≠ .done value) (value : β)
    : outcome.map change ≠ .done value := by
  cases outcome with
  | done given => exact absurd rfl (noValue given)
  | failed error => exact nofun
  | crashed => exact nofun

/-- Only STOP and RESUME touch the record, by cases on the call. -/
theorem invoke_change (call : Call) (world : World) (faults : List Fault)
    : RecordChange world (invoke call world faults).2.1 (invoke call world faults).1 call := by
  by_cases elsewhere : .stops ∉ call.footprint
  · refine .quiet (stopRecord_frame elsewhere ((invoke_emits call).trail world faults)) ?_ ?_
    · rintro ctx scope rfl
      exact absurd (.tail _ (.head _)) elsewhere
    · rintro ctx id rfl
      exact absurd (.tail _ (.head _)) elsewhere
  · cases call with
    | stop ctx scope =>
        change RecordChange world ((Reply.text <$> stop ctx scope) world faults).2.1
          ((Reply.text <$> stop ctx scope) world faults).1 (.stop ctx scope)
        rw [Program.map_run]
        rcases stop_effect ctx scope world faults with ⟨refused, -⟩ | ⟨event, stopped⟩
        · exact .quiet (stopRecord_frame (by decide) refused.quiet)
            (fun _ _ _ value => Outcome.map_ne_done refused.noValue value) nofun
        · exact .stopped stopped rfl
    | resume ctx stopId =>
        change RecordChange world
          (((fun _ => Reply.unit) <$> resume ctx stopId) world faults).2.1
          (((fun _ => Reply.unit) <$> resume ctx stopId) world faults).1 (.resume ctx stopId)
        rw [Program.map_run]
        rcases resume_effect ctx stopId world faults with refused | ⟨event, lifted⟩
        · exact .quiet (stopRecord_frame (by decide) refused.quiet) nofun
            (fun _ _ _ value => Outcome.map_ne_done refused.noValue value)
        · exact .lifted lifted rfl
    | _ => exact absurd (by simp [Call.footprint, stepAreas]) elsewhere

/-- The tables are sound, and a process that is up holds what they hold. -/
structure StopInvariant (machine : Machine) : Prop where
  tables : StopTables machine.world.disk
  memory : machine.up = true → InMemory machine.world

omit [Libraries] in
/-- A node that never ran has no STOP anywhere. -/
theorem stopInvariant_fresh : StopInvariant .fresh := by
  refine ⟨⟨?_, ?_⟩, nofun⟩
  · intro key event held
    change (∅ : Table StopEvent)[key]? = some event at held
    rw [Std.ExtTreeMap.getElem?_empty] at held
    cases held
  · intro key event held
    change (∅ : Table ResumeEvent)[key]? = some event at held
    rw [Std.ExtTreeMap.getElem?_empty] at held
    cases held

/-- A call keeps the invariant. -/
theorem StopInvariant.call {machine : Machine} (invariant : StopInvariant machine)
    (up : machine.up = true) (call : Call) (faults : List Fault)
    : StopTables (invoke call machine.world faults).2.1.disk
      ∧ InMemory (invoke call machine.world faults).2.1 := by
  have memory := invariant.memory up
  cases invoke_change call machine.world faults with
  | quiet same => exact ⟨invariant.tables.same same, memory.same same⟩
  | stopped stopped => exact stopped.keeps invariant.tables memory
  | lifted lifted => exact lifted.keeps invariant.tables memory

/-- Opening changes no table of the record, and a process that comes up holds what they hold. -/
theorem StopInvariant.opened {machine : Machine} (invariant : StopInvariant machine)
    (down : machine.up = false) (stateDir nodeId : String) (recoveredPartialLine : Bool)
    (nowMs : UInt64) (faults : List Fault)
    : StopInvariant
        (machine.step (.open stateDir nodeId recoveredPartialLine nowMs faults)) := by
  have trail : Trail (Within [.leases]) machine.world
      (RealKernel.open stateDir nodeId recoveredPartialLine nowMs machine.world faults).2.1 :=
    open_emits.trail machine.world faults
  simp only [Machine.step, down, Bool.false_eq_true, if_false]
  rcases ran : RealKernel.open stateDir nodeId recoveredPartialLine nowMs machine.world faults with
    ⟨node | _ | _, after, rest⟩
  all_goals
    rw [ran] at trail
    have record := stopRecord_frame (by decide) trail
    simp only [World.stopRecord, Prod.mk.injEq] at record
    have tables : StopTables after.disk := invariant.tables.congr record.1 record.2.1
  · obtain ⟨rfl, -⟩ := open_done ran
    refine ⟨tables, fun _ => ?_⟩
    change replayStops machine.world.disk.stops machine.world.disk.resumes
      = ⟨after.disk.stops, after.disk.resumes⟩
    rw [replayStops_eq invariant.tables, record.1, record.2.1]
  · exact ⟨tables, fun running => by cases running⟩
  · exact ⟨tables, fun running => by cases running⟩

/-- Opening leaves both tables alone. -/
theorem step_open_tables (machine : Machine) (stateDir nodeId : String)
    (recoveredPartialLine : Bool) (nowMs : UInt64) (faults : List Fault)
    : let after := machine.step (.open stateDir nodeId recoveredPartialLine nowMs faults)
      after.world.disk.stops = machine.world.disk.stops
        ∧ after.world.disk.resumes = machine.world.disk.resumes := by
  cases up : machine.up with
  | true => simp only [Machine.step, up, if_true, and_self]
  | false =>
      have trail : Trail (Within [.leases]) machine.world
          (RealKernel.open stateDir nodeId recoveredPartialLine nowMs machine.world faults).2.1 :=
        open_emits.trail machine.world faults
      have record := stopRecord_frame (by decide) trail
      simp only [World.stopRecord, Prod.mk.injEq] at record
      dsimp only
      rw [Machine.step_open_disk up]
      exact ⟨record.1, record.2.1⟩

/-- Every event keeps the invariant, by cases on the event. -/
theorem StopInvariant.step {machine : Machine} (invariant : StopInvariant machine)
    (event : Event)
    : StopInvariant (machine.step event) := by
  cases event with
  | call call faults =>
      cases up : machine.up with
      | false => rwa [Machine.step_call_down up]
      | true =>
          have kept := invariant.call up call faults
          rw [← Machine.step_call_world up] at kept
          exact ⟨kept.1, fun _ => kept.2⟩
  | close => exact ⟨invariant.tables, nofun⟩
  | «open» stateDir nodeId recoveredPartialLine nowMs faults =>
      cases up : machine.up with
      | false => exact invariant.opened up stateDir nodeId recoveredPartialLine nowMs faults
      | true =>
          simp only [Machine.step, up, if_true]
          exact invariant

/-- Disk and memory agree on the STOP set in every reachable state. -/
theorem Reachable.stopInvariant {machine : Machine} (reachable : Reachable machine)
    : StopInvariant machine :=
  reachable.invariant stopInvariant_fresh fun _ event invariant => invariant.step event

end VerticalAI.Kernel
