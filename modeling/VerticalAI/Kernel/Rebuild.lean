import VerticalAI.Kernel.Footprint

/-! What opening a node does: the process it rebuilds from the state directory, and the lease rows
it sweeps on the way.
-/

namespace VerticalAI.Kernel
open VerticalAI.Foundation VerticalAI.Contracts VerticalAI.Store

section Reads

variable {α β : Type} {look : StateDir → α} {next : α → Syscall β} {world after : World}
  {faults rest : List Fault}

/-- A read that worked gave what is on disk and changed nothing. -/
theorem load_bind_done {value : β}
    (ran : (load look >>= next) world faults = (.done value, after, rest))
    : ∃ left, next (look world.disk) world left = (.done value, after, rest) := by
  rcases faults with _ | ⟨_ | reason | _, left⟩
  · exact ⟨[], ran⟩
  · exact ⟨left, ran⟩
  · cases ran
  · cases ran

/-- A read leaves the state to what follows it, if anything does. -/
theorem load_bind_trail {allowed : World → Update → Prop}
    (tail : ∀ left, Trail allowed world (next (look world.disk) world left).2.1)
    (faults : List Fault)
    : Trail allowed world ((load look >>= next) world faults).2.1 := by
  rcases faults with _ | ⟨_ | reason | _, left⟩
  · exact tail []
  · exact tail left
  · exact Trail.refl world
  · exact Trail.refl world

end Reads

/-- Only the listed rows are deleted, by induction on their keys. -/
theorem deleteLeases_deletes (keys : List String)
    : (deleteLeases keys).Emits (fun _ update => ∃ key ∈ keys, update = Update.deleteLease key) := by
  induction keys with
  | nil => exact Program.emits_pure
  | cons key rest ih =>
      unfold deleteLeases
      refine Program.Emits.bind (save_emits fun _ => ⟨key, .head _, rfl⟩) fun _ => ?_
      refine ih.mono ?_
      rintro _ _ ⟨other, member, same⟩
      exact ⟨other, .tail _ member, same⟩

/-- The state without these lease rows. -/
def World.swept (world : World) (keys : List String) : World :=
  world.onDisk fun disk => { disk with leases := keys.foldl (fun rows key => rows.erase key) disk.leases }

/-- A sweep that returned deleted all of them, by induction on the keys. -/
theorem deleteLeases_done {keys : List String} {world after : World} {faults rest : List Fault}
    (ran : deleteLeases keys world faults = (.done (), after, rest))
    : after = world.swept keys := by
  induction keys generalizing world faults with
  | nil =>
      cases ran
      rfl
  | cons key others ih =>
      obtain ⟨_, middle, left, deleted, swept⟩ := Program.bind_done_inv ran
      rcases Program.persist_cases KernelError.store (.deleteLease key) world faults with
        ⟨more, saved⟩ | ⟨reason, more, saved⟩ | ⟨more, saved⟩
      all_goals
        rw [save, saved] at deleted
        cases deleted
      exact ih swept

theorem deleteLeases_working (keys : List String) (world : World)
    : deleteLeases keys world [] = (.done (), world.swept keys, []) := by
  induction keys generalizing world with
  | nil => rfl
  | cons key others ih =>
      unfold deleteLeases
      have deleted : save (.deleteLease key) world []
          = (.done (), Updates.apply (Update.deleteLease key) world, []) := rfl
      rw [Program.bind_done deleted, ih]
      rfl

/-- The lease rows as opening reads them. -/
def StateDir.leaseReplay (disk : StateDir) (nowMs : UInt64) : LeaseReplay :=
  disk.leases.list.foldl (fun replay row => replay.read nowMs row.1 row.2)
    { home := disk.fences.list.foldl (fun home row => home.restore row.1 row.2) {} }

/-- Every arch row can be read back. -/
def StateDir.ArchesReadable [Libraries] (disk : StateDir) : Prop :=
  ∀ (id : String) (manifest : ArchManifest), disk.arches[id]? = some manifest
    → ∃ read, manifest.readBack = .ok read

theorem StateDir.archRefused_eq_none [Libraries] {disk : StateDir}
    : disk.archRefused = none ↔ disk.ArchesReadable := by
  unfold StateDir.archRefused
  rw [List.findSome?_eq_none_iff]
  constructor
  · intro none id manifest stored
    have row := none (id, manifest) (Table.mem_list.mpr stored)
    cases given : manifest.readBack with
    | ok read => exact ⟨read, rfl⟩
    | error reason => simp [given] at row
  · intro readable row member
    obtain ⟨read, same⟩ := readable row.1 row.2 (Table.mem_list.mp member)
    simp [same]

theorem StateDir.readArches_ok [Libraries] {disk : StateDir} {arches : Table ArchManifest}
    : disk.readArches = .ok arches ↔ disk.ArchesReadable ∧ arches = disk.archesRead := by
  unfold StateDir.readArches
  rw [← StateDir.archRefused_eq_none]
  cases disk.archRefused with
  | none => simp [eq_comm]
  | some reason => simp

/-- The process that opening rebuilds. -/
def StateDir.rebuild [Libraries] (disk : StateDir) (stateDir nodeId : String)
    (recoveredPartialLine : Bool)
    (nowMs : UInt64)
    : RealKernel where
  nodeId
  stateDir
  chain := { events := disk.ledger }
  recoveredPartialLine
  shredded := disk.shredded
  ledgerHead := headVerdict disk.head disk.ledger
  clock := HlcClock.new nodeId
  adapters := replayArches disk.archesRead
  budgets := disk.archesRead.map fun _ manifest => manifest.contextCeiling
  locks := (disk.leaseReplay nowMs).newest.foldl (fun locks row => locks.restore row.2) {}
  home := (disk.leaseReplay nowMs).home
  devices := replayDevices disk.devices
  stops := replayStops disk.stops disk.resumes
  counter := disk.counter.getD 0

section Opening

variable [Libraries] {stateDir nodeId : String} {recoveredPartialLine : Bool} {nowMs : UInt64}
  {world after : World} {faults rest : List Fault}

/-- A process that came up read all arch rows back and is the one rebuilt, over the state without the
swept rows.
-/
theorem open_done {node : RealKernel}
    (opened : RealKernel.open stateDir nodeId recoveredPartialLine nowMs world faults
      = (.done node, after, rest))
    : node = world.disk.rebuild stateDir nodeId recoveredPartialLine nowMs
      ∧ after = world.swept (world.disk.leaseReplay nowMs).stale
      ∧ world.disk.ArchesReadable := by
  unfold RealKernel.open at opened
  obtain ⟨_, opened⟩ := load_bind_done opened
  obtain ⟨_, opened⟩ := load_bind_done opened
  obtain ⟨_, opened⟩ := load_bind_done opened
  obtain ⟨_, opened⟩ := load_bind_done opened
  obtain ⟨_, opened⟩ := load_bind_done opened
  obtain ⟨_, opened⟩ := load_bind_done opened
  obtain ⟨_, opened⟩ := load_bind_done opened
  cases read : world.disk.readArches with
  | error error =>
      rw [read] at opened
      cases opened
  | ok arches =>
      obtain ⟨readable, rfl⟩ := StateDir.readArches_ok.mp read
      rw [read, Program.lift_ok, pure_bind] at opened
      obtain ⟨_, opened⟩ := load_bind_done opened
      obtain ⟨left, opened⟩ := load_bind_done opened
      obtain ⟨_, middle, more, swept, opened⟩ := Program.bind_done_inv opened
      obtain rfl := deleteLeases_done swept
      obtain ⟨_, opened⟩ := load_bind_done opened
      cases opened
      exact ⟨rfl, rfl, readable⟩

/-- Opening deletes rows that its replay found stale, and does nothing else to the state. -/
theorem open_sweeps (faults : List Fault)
    : Trail (fun _ update =>
          ∃ key ∈ (world.disk.leaseReplay nowMs).stale, update = Update.deleteLease key)
        world (RealKernel.open stateDir nodeId recoveredPartialLine nowMs world faults).2.1 := by
  unfold RealKernel.open
  refine load_bind_trail (fun _ => ?_) faults
  refine load_bind_trail (fun _ => ?_) _
  refine load_bind_trail (fun _ => ?_) _
  refine load_bind_trail (fun _ => ?_) _
  refine load_bind_trail (fun _ => ?_) _
  refine load_bind_trail (fun _ => ?_) _
  refine load_bind_trail (fun _ => ?_) _
  cases world.disk.readArches with
  | error error => exact Trail.refl world
  | ok arches =>
      rw [Program.lift_ok, pure_bind]
      refine load_bind_trail (fun _ => ?_) _
      refine load_bind_trail (fun left => ?_) _
      have counted : (load (·.counter)).Emits (fun _ update =>
          ∃ key ∈ (world.disk.leaseReplay nowMs).stale, update = Update.deleteLease key) :=
        load_emits
      exact ((deleteLeases_deletes _).bind fun _ => counted.bind fun _ =>
        Program.emits_pure).trail world left

/-- On working storage a node whose arch rows can be read back opens. -/
theorem open_working (readable : world.disk.ArchesReadable)
    : RealKernel.open stateDir nodeId recoveredPartialLine nowMs world []
      = (.done (world.disk.rebuild stateDir nodeId recoveredPartialLine nowMs),
          world.swept (world.disk.leaseReplay nowMs).stale, []) := by
  have swept := deleteLeases_working (world.disk.leaseReplay nowMs).stale world
  have read := StateDir.readArches_ok.mpr ⟨readable, rfl⟩
  unfold RealKernel.open
  change (Program.lift world.disk.readArches >>= fun _ => _) world [] = _
  rw [read, Program.lift_ok, pure_bind]
  change (deleteLeases (world.disk.leaseReplay nowMs).stale >>= fun _ => _) world [] = _
  rw [Program.bind_done swept]
  rfl

/-- A node that is opened comes up with what was rebuilt, all arch rows read, or stays down with rows
swept.
-/
theorem Machine.step_open {machine : Machine} (down : machine.up = false)
    (stateDir nodeId : String) (recoveredPartialLine : Bool) (nowMs : UInt64) (faults : List Fault)
    : ((machine.step (.open stateDir nodeId recoveredPartialLine nowMs faults)).up = true
        ∧ (machine.step (.open stateDir nodeId recoveredPartialLine nowMs faults)).world
          = { machine.world.swept (machine.world.disk.leaseReplay nowMs).stale with
              kernel := machine.world.disk.rebuild stateDir nodeId recoveredPartialLine nowMs }
        ∧ machine.world.disk.ArchesReadable)
      ∨ ((machine.step (.open stateDir nodeId recoveredPartialLine nowMs faults)).up = false
        ∧ Trail (fun _ update =>
              ∃ key ∈ (machine.world.disk.leaseReplay nowMs).stale,
                update = Update.deleteLease key)
            machine.world
            (machine.step (.open stateDir nodeId recoveredPartialLine nowMs faults)).world) := by
  have trail : Trail (fun _ update =>
        ∃ key ∈ (machine.world.disk.leaseReplay nowMs).stale, update = Update.deleteLease key)
      machine.world
      (RealKernel.open stateDir nodeId recoveredPartialLine nowMs machine.world faults).2.1 :=
    open_sweeps faults
  simp only [Machine.step, down, Bool.false_eq_true, if_false]
  rcases ran : RealKernel.open stateDir nodeId recoveredPartialLine nowMs machine.world faults with
    ⟨node | error | _, after, rest⟩
  all_goals rw [ran] at trail
  · obtain ⟨rfl, rfl, readable⟩ := open_done ran
    exact Or.inl ⟨rfl, rfl, readable⟩
  · exact Or.inr ⟨rfl, trail⟩
  · exact Or.inr ⟨rfl, trail⟩

end Opening

end VerticalAI.Kernel
