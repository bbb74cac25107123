import VerticalAI.Kernel.LeaseReplay
import VerticalAI.Kernel.RecordEffects

/-! What a call for a lease does, however it ends, and what an event does to leases. -/

namespace VerticalAI.Kernel
open VerticalAI.Foundation VerticalAI.Contracts VerticalAI.Store

/-- The keys of the rows on a slot. -/
def StateDir.slotKeys (disk : StateDir) (resource partition : String) : List String :=
  (disk.leases.list.filter fun row =>
    row.2.resource = resource && row.2.partition = partition).map (·.1)

/-- The keys of a slot are those of the rows on it. -/
theorem mem_slotKeys {disk : StateDir} {resource partition key : String}
    : key ∈ disk.slotKeys resource partition
      ↔ ∃ lease, disk.leases[key]? = some lease ∧ lease.OnSlot resource partition := by
  simp only [StateDir.slotKeys, List.mem_map, List.mem_filter, Bool.and_eq_true, decide_eq_true_eq,
    Prod.exists, exists_and_right, exists_eq_right, Table.mem_list, Lease.OnSlot]

/-- The state with a lease granted in memory. -/
def World.granting (world : World) (locks : LockTable) (home : LockHome) : World :=
  Updates.apply (Update.setLocks locks home) world

variable [Libraries]

/-- What is left of a call once the lock table has granted. -/
def fileLease (nowMs : UInt64) (granted : Lease) (keys : List String) : Syscall Lease := do
  save (.putLease granted)
  deleteLeases (keys.filter (· ≠ granted.id))
  save (.setFence granted.resource granted.fence)
  log "lease.granted" nowMs (.str granted.id)
  return granted

section Calls

variable {ctx : Ctx} {resource : String} {ttlMs : UInt64} {world after : World}
  {faults rest : List Fault} {granted : Lease} {keys : List String}

/-- A call is refused and changes nothing, or grants and goes on to file the lease. -/
theorem lease_cases (ctx : Ctx) (resource : String) (ttlMs : UInt64) (world : World)
    (faults : List Fault)
    : (∃ outcome left, lease ctx resource ttlMs world faults = (outcome, world, left)
        ∧ ∀ granted, outcome ≠ .done granted)
      ∨ ∃ granted locks home,
          world.kernel.locks.acquire resource ctx.principal ctx.nowMs ttlMs ctx.partition
              world.kernel.home = .ok (granted, locks, home)
          ∧ Undisturbed faults[0]?
          ∧ lease ctx resource ttlMs world faults
            = fileLease ctx.nowMs granted (world.disk.slotKeys resource ctx.partition)
                (world.granting locks home) faults.tail := by
  have read {left : List Fault}
      (loaded : load (·.leases.list) world faults = (.done world.disk.leases.list, world, left))
      : (∃ outcome left, lease ctx resource ttlMs world faults = (outcome, world, left)
          ∧ ∀ granted, outcome ≠ .done granted)
        ∨ ∃ granted locks home,
            world.kernel.locks.acquire resource ctx.principal ctx.nowMs ttlMs ctx.partition
                world.kernel.home = .ok (granted, locks, home)
            ∧ lease ctx resource ttlMs world faults
              = fileLease ctx.nowMs granted (world.disk.slotKeys resource ctx.partition)
                  (world.granting locks home) left := by
    unfold lease kernel
    rw [Program.bind_done loaded, Program.observe_bind_run]
    cases acquired : world.kernel.locks.acquire resource ctx.principal ctx.nowMs ttlMs ctx.partition
        world.kernel.home with
    | error error =>
        refine Or.inl ⟨.failed (.lock error), left, ?_, nofun⟩
        simp only [id_eq, acquired]
        rfl
    | ok value =>
        obtain ⟨granted, locks, home⟩ := value
        refine Or.inr ⟨granted, locks, home, rfl, ?_⟩
        obtain ⟨-, placed, -⟩ := LockTable.acquire_ok acquired
        simp only [id_eq, acquired]
        rw [← placed.1]
        rfl
  rcases faults with _ | ⟨_ | reason | _, left⟩
  · refine (read rfl).imp_right ?_
    rintro ⟨granted, locks, home, acquired, ran⟩
    exact ⟨granted, locks, home, acquired, Or.inl rfl, ran⟩
  · refine (read rfl).imp_right ?_
    rintro ⟨granted, locks, home, acquired, ran⟩
    exact ⟨granted, locks, home, acquired, Or.inr rfl, ran⟩
  · exact Or.inl ⟨_, left, rfl, nofun⟩
  · exact Or.inl ⟨_, left, rfl, nofun⟩

/-- What filing a lease may change: its row, the rows it supersedes, its fence and the record. -/
inductive Filing (granted : Lease) (keys : List String) (world : World) : Update → Prop
  | row : Filing granted keys world (.putLease granted)
  | superseded {key : String} (listed : key ∈ keys) (other : key ≠ granted.id)
      : Filing granted keys world (.deleteLease key)
  | fence : Filing granted keys world (.setFence granted.resource granted.fence)
  | record {update : Update} (within : Within [.record] world update)
      : Filing granted keys world update

theorem fileLease_emits {nowMs : UInt64}
    : (fileLease nowMs granted keys).Emits (Filing granted keys) := by
  unfold fileLease
  refine Program.Emits.bind (save_emits fun _ => .row) fun _ => ?_
  have deleted : (deleteLeases (keys.filter (· ≠ granted.id))).Emits (Filing granted keys) := by
    refine (deleteLeases_deletes _).mono ?_
    rintro world update ⟨key, member, rfl⟩
    obtain ⟨listed, other⟩ := List.mem_filter.mp member
    exact .superseded listed (of_decide_eq_true other)
  refine deleted.bind fun _ => ?_
  refine Program.Emits.bind (save_emits fun _ => .fence) fun _ => ?_
  exact (log_emits.mono fun _ _ within => .record within).bind fun _ => Program.emits_pure

omit [Libraries] in
/-- Deleting rows goes on until it fails or loses power, by induction on their keys. -/
theorem deleteLeases_stops (keys : List String) (world : World) (faults : List Fault)
    : ∃ swept left, keys = swept ++ left
        ∧ (deleteLeases keys world faults).2.1 = world.swept swept
        ∧ (left = [] ∨ (deleteLeases keys world faults).1 = .crashed
          ∨ FailsAt faults swept.length) := by
  induction keys generalizing world faults with
  | nil => exact ⟨[], [], rfl, rfl, Or.inl rfl⟩
  | cons key others ih =>
      unfold deleteLeases
      rcases save_settles (.deleteLease key) world faults with
        ⟨undisturbed, saved⟩ | ⟨outcome, rest, saved, stopped⟩
      · rw [Program.bind_done saved]
        obtain ⟨swept, left, split, after, stopped⟩ :=
          ih (Updates.apply (Update.deleteLease key) world) faults.tail
        refine ⟨key :: swept, left, congrArg (key :: ·) split, after, ?_⟩
        exact stopped.imp_right (Or.imp_right (FailsAt.after undisturbed))
      · rw [Program.bind_run, saved]
        rcases stopped with rfl | ⟨error, rfl, fails⟩
        · exact ⟨[], key :: others, rfl, rfl, Or.inr (Or.inl rfl)⟩
        · exact ⟨[], key :: others, rfl, rfl, Or.inr (Or.inr fails)⟩

/-- What filing a lease leaves of the rows: all as they were where its own was not written, else
its own and those that were not deleted before it stopped.
-/
inductive RowsFiled (granted : Lease) (keys : List String) (faults : List Fault) (lost : Prop)
    (rows after : Table Lease) : Prop
  | unwritten (stopped : lost ∨ FailsAt faults 0) (same : after = rows)
  | written (swept left : List String) (split : keys.filter (· ≠ granted.id) = swept ++ left)
      (filed : after
        = swept.foldl (fun rows key => rows.erase key) (rows.insert granted.id granted))
      (stopped : left = [] ∨ lost ∨ FailsAt faults (swept.length + 1))

omit [Libraries] in
/-- Where the rows are once the lease's own was written and some others deleted. -/
theorem getElem?_filed {swept left : List String} (rows : Table Lease)
    (split : keys.filter (· ≠ granted.id) = swept ++ left) {key : String} {row : Lease}
    : (swept.foldl (fun rows key => rows.erase key) (rows.insert granted.id granted))[key]?
        = some row
      ↔ key = granted.id ∧ row = granted
        ∨ key ≠ granted.id ∧ key ∉ swept ∧ rows[key]? = some row := by
  have apart : granted.id ∉ swept := by
    intro member
    have listed : granted.id ∈ keys.filter (· ≠ granted.id) :=
      split ▸ List.mem_append_left _ member
    exact of_decide_eq_true (List.mem_filter.mp listed).2 rfl
  rw [Table.getElem?_foldl_erase]
  by_cases same : key = granted.id
  · subst same
    rw [Std.ExtTreeMap.getElem?_insert_self, Option.some.injEq]
    simp [apart, eq_comm]
  · rw [Table.getElem?_insert_ne same]
    simp [same]

omit [Libraries] in
theorem RowsFiled.mono {faults : List Fault} {lost down : Prop} {rows after : Table Lease}
    (filed : RowsFiled granted keys faults lost rows after) (leads : lost → down)
    : RowsFiled granted keys faults down rows after := by
  cases filed with
  | unwritten stopped same => exact .unwritten (stopped.imp_left leads) same
  | written swept left split filed stopped =>
      exact .written swept left split filed (stopped.imp_right (Or.imp_left leads))

theorem fileLease_rows {nowMs : UInt64} (granted : Lease) (keys : List String) (world : World)
    (faults : List Fault)
    : RowsFiled granted keys faults ((fileLease nowMs granted keys world faults).1 = .crashed)
        world.disk.leases (fileLease nowMs granted keys world faults).2.1.disk.leases := by
  let Spared (world : World) (update : Update) : Prop :=
    (Updates.apply update world : World).disk.leases = world.disk.leases
  have tail : Program.Emits
      (do
        save (.setFence granted.resource granted.fence)
        log "lease.granted" nowMs (.str granted.id)
        return granted : Syscall Lease) Spared := by
    refine Program.Emits.bind (save_emits fun _ => rfl) fun _ => ?_
    refine (log_emits.mono fun world update within => ?_).bind fun _ => Program.emits_pure
    have same : World.Same world _ .leases :=
      World.Same.apply world update fun same => absurd (same ▸ within.1) (by decide)
    exact same.1
  have kept {first last : World} (trail : Trail Spared first last)
      : last.disk.leases = first.disk.leases := by
    let Kept (world : World) : Prop := world.disk.leases = first.disk.leases
    have step : ∀ world update, Kept world → Spared world update
        → Kept (Updates.apply update world) := fun _ _ same spared => spared.trans same
    have same : Kept last := trail.preserves step rfl
    exact same
  unfold fileLease
  rcases save_settles (.putLease granted) world faults with
    ⟨undisturbed, saved⟩ | ⟨outcome, rest, saved, stopped⟩
  · obtain ⟨swept, left, split, deleted, stopped⟩ := deleteLeases_stops
      (keys.filter (· ≠ granted.id)) (Updates.apply (.putLease granted) world) faults.tail
    rw [Program.bind_done saved, Program.bind_run]
    have fails := Or.imp_right (a := left = [])
      (Or.imp_right (FailsAt.after undisturbed)) stopped
    rcases ran : deleteLeases (keys.filter (· ≠ granted.id))
      (Updates.apply (Update.putLease granted) world) faults.tail with
      ⟨value | error | _, after, rest⟩
    all_goals
      rw [ran] at deleted fails
      obtain rfl : after = _ := deleted
    · refine .written swept left split (kept (tail.trail _ rest)) ?_
      exact fails.imp_right fun ended => ended.elim nofun Or.inr
    · refine .written swept left split rfl ?_
      exact fails.imp_right fun ended => ended.elim nofun Or.inr
    · exact .written swept left split rfl (Or.inr (Or.inl rfl))
  · rw [Program.bind_run, saved]
    rcases stopped with rfl | ⟨error, rfl, fails⟩
    · exact .unwritten (Or.inl rfl) rfl
    · exact .unwritten (Or.inr fails) rfl

/-- The lease is filed: its row is there and those it superseded are not, its fence is stored, and
memory is as it was.
-/
structure LeaseFiled (granted : Lease) (keys : List String) (world after : World) : Prop where
  rows : ∀ (key : String) (row : Lease), after.disk.leases[key]? = some row
    ↔ key = granted.id ∧ row = granted
      ∨ key ≠ granted.id ∧ key ∉ keys ∧ world.disk.leases[key]? = some row
  fences : after.disk.fences = world.disk.fences.insert granted.resource granted.fence
  locks : after.kernel.locks = world.kernel.locks
  home : after.kernel.home = world.kernel.home

/-- A lease that was filed is the answer, and its row replaces the others of its slot. -/
theorem fileLease_done {nowMs : UInt64} {returned : Lease}
    (ran : fileLease nowMs granted keys world faults = (.done returned, after, rest))
    : returned = granted ∧ LeaseFiled granted keys world after := by
  obtain ⟨_, written, left, put, deleting⟩ := Program.bind_done_inv ran
  obtain rfl := save_done put
  obtain ⟨_, swept, left, deleted, fencing⟩ := Program.bind_done_inv deleting
  obtain rfl := deleteLeases_done deleted
  obtain ⟨_, fenced, left, set, logging⟩ := Program.bind_done_inv fencing
  obtain rfl := save_done set
  obtain ⟨_, logged, left, recorded, result⟩ := Program.bind_done_inv logging
  have trail := recorded ▸ log_emits.trail _ _
  cases result
  obtain ⟨rows, fences, locks, home⟩ := same_of_trail trail .leases (by decide)
  refine ⟨rfl, fun key row => ?_, fences, locks, home⟩
  rw [rows]
  change ((keys.filter (· ≠ granted.id)).foldl (fun rows key => rows.erase key)
    (world.disk.leases.insert granted.id granted))[key]? = some row ↔ _
  rw [getElem?_filed _ (List.append_nil _).symm, List.mem_filter, decide_eq_true_eq]
  refine or_congr_right (and_congr_right fun other => ?_)
  rw [and_iff_left other]

end Calls

-----------------------------------------------------------------------------------------
-- Events
-----------------------------------------------------------------------------------------

/-- What an event does to leases. -/
inductive LeaseStep (machine after : Machine) : Event → Prop
  | quiet {event : Event} (same : machine.world.Same after.world .leases)
      (up : after.up = true → machine.up = true)
      (unanswered : ∀ ctx resource ttlMs faults lease,
        event = .call (.lease ctx resource ttlMs) faults
        → machine.answer (.lease ctx resource ttlMs) faults ≠ some (.done (.lease lease)))
      : LeaseStep machine after event
  | granted {ctx : Ctx} {resource : String} {ttlMs : UInt64} {faults : List Fault}
      {granted : Lease} {locks : LockTable} {home : LockHome} (up : machine.up = true)
      (acquired : machine.world.kernel.locks.acquire resource ctx.principal ctx.nowMs ttlMs
        ctx.partition machine.world.kernel.home = .ok (granted, locks, home))
      (trail : Trail (Filing granted (machine.world.disk.slotKeys resource ctx.partition))
        (machine.world.granting locks home) after.world)
      (returned : ∀ lease,
        machine.answer (.lease ctx resource ttlMs) faults = some (.done (.lease lease))
        → lease = granted
          ∧ LeaseFiled granted (machine.world.disk.slotKeys resource ctx.partition)
              (machine.world.granting locks home) after.world)
      (read : Undisturbed faults[0]?)
      (rows : RowsFiled granted (machine.world.disk.slotKeys resource ctx.partition) faults.tail
        (after.up = false) machine.world.disk.leases after.world.disk.leases)
      : LeaseStep machine after (.call (.lease ctx resource ttlMs) faults)
  | opened {stateDir nodeId : String} {recoveredPartialLine : Bool} {nowMs : UInt64}
      {faults : List Fault} (up : after.up = true)
      (world : after.world
        = { machine.world.swept (machine.world.disk.leaseReplay nowMs).stale with
            kernel := machine.world.disk.rebuild stateDir nodeId recoveredPartialLine nowMs })
      (closed : machine.up = false)
      : LeaseStep machine after (.open stateDir nodeId recoveredPartialLine nowMs faults)
  | halted {stateDir nodeId : String} {recoveredPartialLine : Bool} {nowMs : UInt64}
      {faults : List Fault} (down : after.up = false)
      (trail : Trail (fun _ update =>
          ∃ key ∈ (machine.world.disk.leaseReplay nowMs).stale, update = Update.deleteLease key)
        machine.world after.world)
      (closed : machine.up = false)
      : LeaseStep machine after (.open stateDir nodeId recoveredPartialLine nowMs faults)

/-- A call for a lease is refused, or grants. -/
theorem leaseStep_call {machine : Machine} (up : machine.up = true) (ctx : Ctx) (resource : String)
    (ttlMs : UInt64) (faults : List Fault)
    : LeaseStep machine (machine.step (.call (.lease ctx resource ttlMs) faults))
        (.call (.lease ctx resource ttlMs) faults) := by
  have mapped : invoke (.lease ctx resource ttlMs) machine.world faults
      = ((lease ctx resource ttlMs machine.world faults).1.map .lease,
          (lease ctx resource ttlMs machine.world faults).2) :=
    Program.map_run Reply.lease (lease ctx resource ttlMs) machine.world faults
  have stepped := Machine.step_call_world up (.lease ctx resource ttlMs) faults
  have answered := Machine.answer_up up (.lease ctx resource ttlMs) faults
  rw [mapped] at stepped answered
  rcases lease_cases ctx resource ttlMs machine.world faults with
    ⟨outcome, left, ran, refused⟩ | ⟨granted, locks, home, acquired, read, ran⟩
  · rw [ran] at stepped answered
    refine .quiet ?_ (fun _ => up) ?_
    · rw [stepped]
      exact World.Same.refl machine.world .leases
    · rintro ctx resource ttlMs faults lease same
      cases same
      rw [answered]
      cases outcome with
      | done value => exact absurd rfl (refused value)
      | failed error => nofun
      | crashed => nofun
  · rw [ran] at stepped answered
    refine .granted up acquired ?_ (fun lease returned => ?_) read ?_
    · rw [stepped]
      exact fileLease_emits.trail _ _
    · rw [answered] at returned
      rcases filed : fileLease ctx.nowMs granted
        (machine.world.disk.slotKeys resource ctx.partition) (machine.world.granting locks home)
        faults.tail with ⟨value | error | _, after, rest⟩
      all_goals
        rw [filed] at returned stepped
        cases returned
      obtain ⟨rfl, done⟩ := fileLease_done filed
      rw [stepped]
      exact ⟨rfl, done⟩
    · rw [stepped]
      refine (fileLease_rows granted _ (machine.world.granting locks home) faults.tail).mono
        fun lost => Machine.step_call_crashed up ?_
      rw [mapped, ran, lost]
      rfl

/-- Every event, by cases on it. -/
theorem Machine.step_leases (machine : Machine) (event : Event)
    : LeaseStep machine (machine.step event) event := by
  cases event with
  | call call faults =>
      cases up : machine.up with
      | false =>
          rw [Machine.step_call_down up]
          refine .quiet (World.Same.refl machine.world .leases) id ?_
          rintro ctx resource ttlMs faults lease -
          rw [Machine.answer, if_neg (by simp [up])]
          intro same
          cases same
      | true =>
          by_cases elsewhere : Area.leases ∈ call.footprint
          · cases call with
            | lease ctx resource ttlMs => exact leaseStep_call up ctx resource ttlMs faults
            | _ => exact absurd elsewhere (by simp [Call.footprint, stepAreas])
          · refine .quiet ?_ (fun _ => up) ?_
            · rw [Machine.step_call_world up]
              exact same_of_trail ((invoke_emits call).trail machine.world faults) .leases elsewhere
            · rintro ctx resource ttlMs faults lease same
              cases same
              exact absurd (.head _) elsewhere
  | close =>
      refine .quiet (World.Same.refl machine.world .leases) ?_ ?_
      · intro running
        cases running
      · rintro _ _ _ _ _ same
        cases same
  | «open» stateDir nodeId recoveredPartialLine nowMs faults =>
      cases up : machine.up with
      | true =>
          simp only [Machine.step, up, if_true]
          refine .quiet (World.Same.refl machine.world .leases) id ?_
          rintro _ _ _ _ _ same
          cases same
      | false =>
          rcases Machine.step_open up stateDir nodeId recoveredPartialLine nowMs faults with
            ⟨opened, world, -⟩ | ⟨down, trail⟩
          · exact .opened opened world up
          · exact .halted down trail up

section Filed

variable {granted : Lease} {keys : List String}

/-- Filing leaves the lock table and the fences in memory alone. -/
theorem filing_memory {first last : World} (trail : Trail (Filing granted keys) first last)
    : last.kernel.locks = first.kernel.locks ∧ last.kernel.home = first.kernel.home := by
  let Kept (world : World) : Prop :=
    world.kernel.locks = first.kernel.locks ∧ world.kernel.home = first.kernel.home
  have step : ∀ world update, Kept world → Filing granted keys world update
      → Kept (Updates.apply update world) := by
    rintro world update ⟨locks, home⟩ filing
    cases filing with
    | row => exact ⟨locks, home⟩
    | superseded => exact ⟨locks, home⟩
    | fence => exact ⟨locks, home⟩
    | record within =>
        obtain ⟨-, -, sameLocks, sameHome⟩ : World.Same world _ .leases :=
          World.Same.apply world update fun same => absurd (same ▸ within.1) (by decide)
        exact ⟨sameLocks.trans locks, sameHome.trans home⟩
  have kept : Kept last := trail.preserves step ⟨rfl, rfl⟩
  exact kept

/-- What holds of the rows and fences on disk holds after filing if each of its updates keeps it. -/
theorem filing_preserves {invariant : Table Lease → Table UInt64 → Prop} {first last : World}
    (row : ∀ leases fences, invariant leases fences
      → invariant (leases.insert granted.id granted) fences)
    (superseded : ∀ leases fences, ∀ key ∈ keys, key ≠ granted.id → invariant leases fences
      → invariant (leases.erase key) fences)
    (fence : ∀ leases fences, invariant leases fences
      → invariant leases (fences.insert granted.resource granted.fence))
    (trail : Trail (Filing granted keys) first last)
    (initial : invariant first.disk.leases first.disk.fences)
    : invariant last.disk.leases last.disk.fences := by
  let Holds (world : World) : Prop := invariant world.disk.leases world.disk.fences
  have step : ∀ world update, Holds world → Filing granted keys world update
      → Holds (Updates.apply update world) := by
    intro world update holds filing
    cases filing with
    | row => exact row _ _ holds
    | superseded listed other => exact superseded _ _ _ listed other holds
    | fence => exact fence _ _ holds
    | record within =>
        obtain ⟨rows, fences, -⟩ : World.Same world _ .leases :=
          World.Same.apply world update fun same => absurd (same ▸ within.1) (by decide)
        change invariant (Updates.apply update world : World).disk.leases
          (Updates.apply update world : World).disk.fences
        rw [rows, fences]
        exact holds
  have kept : Holds last := trail.preserves step initial
  exact kept

/-- A row after filing is the granted lease, or stood there before. -/
theorem row_of_filing {first last : World} (trail : Trail (Filing granted keys) first last)
    {key : String} {row : Lease} (stored : last.disk.leases[key]? = some row)
    : row = granted ∨ first.disk.leases[key]? = some row := by
  let Known (leases : Table Lease) (_ : Table UInt64) : Prop :=
    ∀ (key : String) (row : Lease), leases[key]? = some row
      → row = granted ∨ first.disk.leases[key]? = some row
  have known : Known last.disk.leases last.disk.fences := by
    refine filing_preserves ?_ ?_ (fun _ _ known => known) trail fun _ _ => Or.inr
    · intro leases _ known key row stored
      rcases Table.getElem?_insert_inv stored with ⟨-, rfl⟩ | earlier
      · exact Or.inl rfl
      · exact known key row earlier
    · intro leases _ _ _ _ known key row left
      exact known key row (Table.getElem?_erase_inv left)
  exact known key row stored

/-- A fence after filing is the granted lease's, or stood there before. -/
theorem fence_of_filing {first last : World} (trail : Trail (Filing granted keys) first last)
    {resource : String} {fence : UInt64} (stored : last.disk.fences[resource]? = some fence)
    : fence = granted.fence ∨ first.disk.fences[resource]? = some fence := by
  let Known (_ : Table Lease) (fences : Table UInt64) : Prop :=
    ∀ (resource : String) (fence : UInt64), fences[resource]? = some fence
      → fence = granted.fence ∨ first.disk.fences[resource]? = some fence
  have known : Known last.disk.leases last.disk.fences := by
    refine filing_preserves (fun _ _ known => known) (fun _ _ _ _ _ known => known) ?_ trail
      fun _ _ => Or.inr
    intro _ fences known resource fence stored
    rcases Table.getElem?_insert_inv stored with ⟨-, rfl⟩ | earlier
    · exact Or.inl rfl
    · exact known resource fence earlier
  exact known resource fence stored

/-- Filing keeps every other row that it does not supersede. -/
theorem kept_by_filing {first last : World} (trail : Trail (Filing granted keys) first last)
    {key : String} {row : Lease} (other : key ≠ granted.id) (unlisted : key ∉ keys)
    (stored : first.disk.leases[key]? = some row)
    : last.disk.leases[key]? = some row := by
  let Kept (leases : Table Lease) (_ : Table UInt64) : Prop := leases[key]? = some row
  have kept : Kept last.disk.leases last.disk.fences := by
    refine filing_preserves ?_ ?_ (fun _ _ kept => kept) trail stored
    · exact fun _ _ kept => (Table.getElem?_insert_ne other).trans kept
    · exact fun _ _ name listed _ kept =>
        Table.getElem?_erase_ne (fun same => unlisted (same ▸ listed)) kept
  exact kept

omit [Libraries] in
/-- Sweeping only deletes lease rows. -/
theorem sweep_preserves {invariant : Table Lease → Prop} {keys : List String} {first last : World}
    (deleted : ∀ leases, ∀ key ∈ keys, invariant leases → invariant (leases.erase key))
    (trail : Trail (fun _ update => ∃ key ∈ keys, update = Update.deleteLease key) first last)
    (initial : invariant first.disk.leases)
    : invariant last.disk.leases ∧ last.disk.fences = first.disk.fences := by
  let Holds (world : World) : Prop :=
    invariant world.disk.leases ∧ world.disk.fences = first.disk.fences
  have step : ∀ world update, Holds world
      → (∃ key ∈ keys, update = Update.deleteLease key) → Holds (Updates.apply update world) := by
    rintro world update ⟨holds, fences⟩ ⟨key, member, rfl⟩
    exact ⟨deleted _ key member holds, fences⟩
  have kept : Holds last := trail.preserves step ⟨initial, rfl⟩
  exact kept

omit [Libraries] in
/-- A row after sweeping stood there before. -/
theorem row_of_sweep {first last : World}
    (trail : Trail (fun _ update => ∃ key ∈ keys, update = Update.deleteLease key) first last)
    {key : String} {row : Lease} (stored : last.disk.leases[key]? = some row)
    : first.disk.leases[key]? = some row := by
  let Known (leases : Table Lease) : Prop :=
    ∀ (key : String) (row : Lease), leases[key]? = some row → first.disk.leases[key]? = some row
  have known : Known last.disk.leases ∧ last.disk.fences = first.disk.fences :=
    sweep_preserves
      (fun _ _ _ known key row left => known key row (Table.getElem?_erase_inv left)) trail
      fun _ _ => id
  exact known.1 key row stored

omit [Libraries] in
/-- Sweeping keeps every row that is not listed. -/
theorem kept_by_sweep {first last : World}
    (trail : Trail (fun _ update => ∃ key ∈ keys, update = Update.deleteLease key) first last)
    {key : String} {row : Lease} (unlisted : key ∉ keys)
    (stored : first.disk.leases[key]? = some row)
    : last.disk.leases[key]? = some row := by
  let Kept (leases : Table Lease) : Prop := leases[key]? = some row
  have kept : Kept last.disk.leases ∧ last.disk.fences = first.disk.fences :=
    sweep_preserves
      (fun _ _ listed kept => Table.getElem?_erase_ne (fun same => unlisted (same ▸ listed)) kept)
      trail stored
  exact kept.1

omit [Libraries] in
/-- Sweeping leaves the fences alone. -/
theorem fences_of_sweep {first last : World}
    (trail : Trail (fun _ update => ∃ key ∈ keys, update = Update.deleteLease key) first last)
    : last.disk.fences = first.disk.fences := by
  let Any (_ : Table Lease) : Prop := True
  have kept : Any _ ∧ _ := sweep_preserves (fun _ _ _ _ => trivial) trail trivial
  exact kept.2

end Filed

/-- Lease rows are filed under their ids in every reachable state. -/
theorem Reachable.leasesKeyed {machine : Machine} (reachable : Reachable machine)
    : LeasesKeyed machine.world.disk := by
  let Keyed (world : World) : Prop := LeasesKeyed world.disk
  have kept {allowed : World → Update → Prop} {first last : World}
      (trail : Trail allowed first last) (keyed : Keyed first)
      : Keyed last := by
    refine trail.preserves (fun world update holds _ => ?_) keyed
    cases update with
    | putLease lease =>
        intro key row held
        rcases Table.getElem?_insert_inv held with ⟨rfl, rfl⟩ | earlier
        · rfl
        · exact holds key row earlier
    | deleteLease name =>
        intro key row held
        exact holds key row (Table.getElem?_erase_inv held)
    | _ => exact holds
  have initial : LeasesKeyed {} := by
    intro key lease held
    change (∅ : Table Lease)[key]? = some lease at held
    rw [Std.ExtTreeMap.getElem?_empty] at held
    cases held
  exact reachable.disk_invariant initial
    (fun call world faults keyed => kept ((invoke_emits call).trail world faults) keyed)
    fun _ _ trail keyed => kept trail keyed

end VerticalAI.Kernel
