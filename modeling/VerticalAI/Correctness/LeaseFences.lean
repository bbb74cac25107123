import VerticalAI.Kernel.ApprovalHistory
import VerticalAI.Kernel.Leases

/-! Granted fences only grow, for the life of a resource. -/

namespace VerticalAI.Correctness
open VerticalAI.Foundation VerticalAI.Contracts VerticalAI.Kernel

section Runs

variable [Libraries]

/-- The event is a call for a lease, and returned this one. -/
def LeaseReturned (before : List Event) (event : Event) (lease : Lease) : Prop :=
  ∃ ctx resource ttlMs faults,
    event = .call (.lease ctx resource ttlMs) faults
    ∧ (nodeAfter before).answer (.lease ctx resource ttlMs) faults = some (.done (.lease lease))

/-- How many leases the lock table grants in an event: what its counter, which may wrap, is counted on
by.
-/
def grantsAt (machine : Machine) (event : Event) : Nat :=
  match event with
  | .call _ _ =>
      ((machine.step event).world.kernel.locks.counter
        - machine.world.kernel.locks.counter).toNat
  | _ => 0

/-- How many leases the lock table grants in a run from here. -/
def grantsFrom (machine : Machine) : List Event → Nat
  | [] => 0
  | event :: rest => grantsAt machine event + grantsFrom (machine.step event) rest

theorem grantsFrom_append (machine : Machine) (first second : List Event)
    : grantsFrom machine (first ++ second)
      = grantsFrom machine first + grantsFrom (machine.run first) second := by
  induction first generalizing machine with
  | nil => exact (Nat.zero_add _).symm
  | cons event rest ih =>
      rw [List.cons_append, grantsFrom, grantsFrom, ih, Nat.add_assoc]
      rfl

/-- No fence is above this number. -/
structure FencesWithin (machine : Machine) (bound : Nat) : Prop where
  rows : ∀ (key : String) (lease : Lease), machine.world.disk.leases[key]? = some lease
    → lease.fence.toNat ≤ bound
  fences : ∀ (resource : String) (fence : UInt64),
    machine.world.disk.fences[resource]? = some fence → fence.toNat ≤ bound
  memory : machine.up = true → ∀ resource,
    (machine.world.kernel.home.highest resource).toNat ≤ bound

/-- No lease is numbered above this, and no process that is up counts on from a higher number. -/
structure NumbersWithin (machine : Machine) (bound : Nat) : Prop where
  rows : ∀ (key : String) (lease : Lease) (number : UInt64),
    machine.world.disk.leases[key]? = some lease
    → LockTable.leaseNumber lease.id = some number → number.toNat ≤ bound
  memory : machine.up = true → machine.world.kernel.locks.counter.toNat ≤ bound

/-- A fence of this resource stays reached, on disk and by a process that is up. -/
structure FenceReached (machine : Machine) (resource : String) (fence : UInt64) : Prop where
  disk : ∃ stored, machine.world.disk.fences[resource]? = some stored
    ∧ fence.toNat ≤ stored.toNat
  memory : machine.up = true
    → fence.toNat ≤ (machine.world.kernel.home.highest resource).toNat

/-- A grant counts as one. -/
theorem grantsAt_granted {machine : Machine} {ctx : Ctx} {resource : String} {ttlMs : UInt64}
    {faults : List Fault} {granted : Lease} {keys : List String} {locks : LockTable}
    {home : LockHome}
    (acquired : LockTable.Acquired machine.world.kernel.locks machine.world.kernel.home granted
      locks home)
    (trail : Trail (Filing granted keys) (machine.world.granting locks home)
      (machine.step (.call (.lease ctx resource ttlMs) faults)).world)
    : grantsAt machine (.call (.lease ctx resource ttlMs) faults) = 1 := by
  have same := (filing_memory trail).1
  change _ = locks at same
  unfold grantsAt
  dsimp only
  rw [same, acquired.counter, Counter.succ_sub_self, UInt64.toNat_one]

omit [Libraries] in
theorem fence_eq {table after : LockTable} {home next : LockHome} {granted : Lease}
    (acquired : LockTable.Acquired table home granted after next)
    : granted.fence = home.highest granted.resource + 1 :=
  congrArg Prod.fst acquired.fence

omit [Libraries] in
theorem highest_next {table after : LockTable} {home next : LockHome} {granted : Lease}
    (acquired : LockTable.Acquired table home granted after next) (resource : String)
    : next.highest resource
      = if resource = granted.resource then home.highest granted.resource + 1
        else home.highest resource := by
  have issued : next = (home.issueFence granted.resource).2 := congrArg Prod.snd acquired.fence
  rw [issued, LockHome.highest_issueFence]

omit [Libraries] in
theorem FencesWithin.mono {machine : Machine} {bound wider : Nat}
    (within : FencesWithin machine bound) (above : bound ≤ wider)
    : FencesWithin machine wider where
  rows key lease stored := (within.rows key lease stored).trans above
  fences resource fence stored := (within.fences resource fence stored).trans above
  memory up resource := (within.memory up resource).trans above

/-- Fences stay within the number of grants, by cases on what the event does to leases. -/
theorem FencesWithin.step {machine : Machine} {bound : Nat} (within : FencesWithin machine bound)
    (event : Event)
    : FencesWithin (machine.step event) (bound + grantsAt machine event) := by
  cases machine.step_leases event with
  | quiet same up _ =>
      obtain ⟨rows, fences, -, home⟩ := same
      refine FencesWithin.mono ⟨?_, ?_, fun running => ?_⟩ (Nat.le_add_right _ _)
      · rw [rows]
        exact within.rows
      · rw [fences]
        exact within.fences
      · rw [home]
        exact within.memory (up running)
  | @granted ctx resource ttlMs faults granted locks home up acquired trail _ =>
      obtain ⟨acquired, -⟩ := LockTable.acquire_ok acquired
      rw [grantsAt_granted acquired trail]
      generalize machine.step (.call (.lease ctx resource ttlMs) faults) = after at trail ⊢
      have issued : granted.fence.toNat ≤ bound + 1 := by
        rw [fence_eq acquired]
        exact (Counter.toNat_succ_le _).trans (Nat.succ_le_succ (within.memory up _))
      refine ⟨fun key lease stored => ?_, fun name fence stored => ?_, fun _ name => ?_⟩
      · rcases row_of_filing trail stored with rfl | earlier
        · exact issued
        · exact (within.rows key lease earlier).trans (Nat.le_succ _)
      · rcases fence_of_filing trail stored with rfl | earlier
        · exact issued
        · exact (within.fences name fence earlier).trans (Nat.le_succ _)
      rw [(filing_memory trail).2]
      change (home.highest name).toNat ≤ bound + 1
      rw [highest_next acquired]
      split
      · exact (Counter.toNat_succ_le _).trans (Nat.succ_le_succ (within.memory up _))
      · exact (within.memory up name).trans (Nat.le_succ _)
  | @opened stateDir nodeId recoveredPartialLine nowMs faults up world =>
      refine FencesWithin.mono ⟨fun key lease stored => ?_, ?_, fun _ name => ?_⟩
        (Nat.le_add_right _ _)
      · rw [world] at stored
        exact within.rows key lease (Table.getElem?_foldl_erase _ _ |>.mp stored).2
      · rw [world]
        exact within.fences
      · rw [world]
        change ((machine.world.disk.rebuild stateDir nodeId recoveredPartialLine nowMs).home.highest
          name).toNat ≤ bound
        rw [rebuild_home]
        refine foldl_restore_le (fun other => foldl_restore_le (fun _ => ?_) ?_ other) ?_ name
        · exact Nat.zero_le _
        · exact fun row member => within.fences row.1 row.2 (Table.mem_list.mp member)
        · exact fun row member => within.rows row.1 row.2 (Table.mem_list.mp member)
  | @halted stateDir nodeId recoveredPartialLine nowMs faults down trail =>
      refine FencesWithin.mono ?_ (Nat.le_add_right _ _)
      generalize machine.step (.open stateDir nodeId recoveredPartialLine nowMs faults) = after
        at down trail ⊢
      refine ⟨fun key lease stored => within.rows key lease (row_of_sweep trail stored), ?_,
        fun up => absurd (down.symm.trans up) nofun⟩
      rw [fences_of_sweep trail]
      exact within.fences

theorem fencesWithin (events : List Event)
    : FencesWithin (nodeAfter events) (grantsFrom Machine.fresh events) := by
  induction events using List.reverseRecOn with
  | nil =>
      refine ⟨fun key lease stored => ?_, fun resource fence stored => ?_, nofun⟩
      · change (∅ : Table Lease)[key]? = some lease at stored
        rw [Std.ExtTreeMap.getElem?_empty] at stored
        cases stored
      · change (∅ : Table UInt64)[resource]? = some fence at stored
        rw [Std.ExtTreeMap.getElem?_empty] at stored
        cases stored
  | append_singleton events event ih =>
      rw [nodeAfter_concat, grantsFrom_append]
      exact ih.step event

omit [Libraries] in
theorem NumbersWithin.mono {machine : Machine} {bound wider : Nat}
    (within : NumbersWithin machine bound) (above : bound ≤ wider)
    : NumbersWithin machine wider where
  rows key lease number stored numbered := (within.rows key lease number stored numbered).trans above
  memory up := (within.memory up).trans above

/-- Lease numbers stay within the number of grants, by cases on what the event does to leases. -/
theorem NumbersWithin.step {machine : Machine} {bound : Nat} (within : NumbersWithin machine bound)
    (event : Event)
    : NumbersWithin (machine.step event) (bound + grantsAt machine event) := by
  cases machine.step_leases event with
  | quiet same up _ =>
      obtain ⟨rows, -, locks, -⟩ := same
      refine NumbersWithin.mono ⟨?_, fun running => ?_⟩ (Nat.le_add_right _ _)
      · rw [rows]
        exact within.rows
      · rw [locks]
        exact within.memory (up running)
  | @granted ctx resource ttlMs faults granted locks home up acquired trail _ =>
      obtain ⟨acquired, -⟩ := LockTable.acquire_ok acquired
      rw [grantsAt_granted acquired trail]
      generalize machine.step (.call (.lease ctx resource ttlMs) faults) = after at trail ⊢
      have next : (machine.world.kernel.locks.counter + 1).toNat ≤ bound + 1 :=
        (Counter.toNat_succ_le _).trans (Nat.succ_le_succ (within.memory up))
      refine ⟨fun key lease number stored numbered => ?_, fun _ => ?_⟩
      · rcases row_of_filing trail stored with rfl | earlier
        · rw [acquired.id, LockTable.leaseNumber_leaseId] at numbered
          exact Option.some.inj numbered ▸ next
        · exact Nat.le_succ_of_le (within.rows key lease number earlier numbered)
      rw [(filing_memory trail).1]
      change locks.counter.toNat ≤ bound + 1
      rw [acquired.counter]
      exact next
  | @opened stateDir nodeId recoveredPartialLine nowMs faults up world =>
      refine NumbersWithin.mono ⟨fun key lease number stored numbered => ?_, fun _ => ?_⟩
        (Nat.le_add_right _ _)
      · rw [world] at stored
        exact within.rows key lease number (Table.getElem?_foldl_erase _ _ |>.mp stored).2 numbered
      · rw [world]
        have replayed := leaseReplay_replayed machine.world.disk nowMs
        refine foldl_restore_counter_le (Nat.zero_le _) fun row member number numbered => ?_
        have read := Table.mem_list.mp (replayed.among row member).1
        exact within.rows row.1 row.2 number read numbered
  | @halted stateDir nodeId recoveredPartialLine nowMs faults down trail =>
      refine NumbersWithin.mono ?_ (Nat.le_add_right _ _)
      generalize machine.step (.open stateDir nodeId recoveredPartialLine nowMs faults) = after
        at down trail ⊢
      refine ⟨fun key lease number stored numbered => ?_, fun up => absurd (down.symm.trans up) nofun⟩
      exact within.rows key lease number (row_of_sweep trail stored) numbered

theorem numbersWithin (events : List Event)
    : NumbersWithin (nodeAfter events) (grantsFrom Machine.fresh events) := by
  induction events using List.reverseRecOn with
  | nil =>
      refine ⟨fun key lease number stored => ?_, nofun⟩
      change (∅ : Table Lease)[key]? = some lease at stored
      rw [Std.ExtTreeMap.getElem?_empty] at stored
      cases stored
  | append_singleton events event ih =>
      rw [nodeAfter_concat, grantsFrom_append]
      exact ih.step event

omit [Libraries] in
/-- A number within a bound that leaves room can be counted on. -/
theorem hasNext_of_le {number : UInt64} {bound : Nat} (below : number.toNat ≤ bound)
    (room : bound + 1 < 2 ^ 64)
    : Counter.HasNext number :=
  (Nat.succ_le_succ below).trans_lt room

/-- What was reached stays reached while fences do not run out, by cases on what the event does. -/
theorem FenceReached.step {machine : Machine} {bound : Nat} {resource : String} {fence : UInt64}
    {event : Event} (reached : FenceReached machine resource fence)
    (within : FencesWithin machine bound) (room : bound + grantsAt machine event < 2 ^ 64)
    : FenceReached (machine.step event) resource fence := by
  cases machine.step_leases event with
  | quiet same up _ =>
      obtain ⟨-, fences, -, home⟩ := same
      refine ⟨?_, fun running => ?_⟩
      · rw [fences]
        exact reached.disk
      · rw [home]
        exact reached.memory (up running)
  | @granted ctx asked ttlMs faults granted locks home up acquired trail _ =>
      obtain ⟨acquired, -⟩ := LockTable.acquire_ok acquired
      rw [grantsAt_granted acquired trail] at room
      have issued (same : resource = granted.resource)
          : fence.toNat ≤ (machine.world.kernel.home.highest granted.resource + 1).toNat := by
        rw [Counter.toNat_succ (hasNext_of_le (within.memory up _) room)]
        exact Nat.le_succ_of_le (same ▸ reached.memory up)
      generalize machine.step (.call (.lease ctx asked ttlMs) faults) = after at trail ⊢
      let Stored (_ : Table Lease) (fences : Table UInt64) : Prop :=
        ∃ stored, fences[resource]? = some stored ∧ fence.toNat ≤ stored.toNat
      refine ⟨?_, fun _ => ?_⟩
      · have kept : Stored after.world.disk.leases after.world.disk.fences := by
          refine filing_preserves (fun _ _ holds => holds) (fun _ _ _ _ _ holds => holds)
            (fun _ fences holds => ?_) trail reached.disk
          by_cases same : resource = granted.resource
          · refine ⟨granted.fence, ?_, fence_eq acquired ▸ issued same⟩
            rw [same, Std.ExtTreeMap.getElem?_insert_self]
          · obtain ⟨stored, held, above⟩ := holds
            exact ⟨stored, (Table.getElem?_insert_ne same).trans held, above⟩
        exact kept
      · rw [(filing_memory trail).2]
        change fence.toNat ≤ (home.highest resource).toNat
        rw [highest_next acquired]
        split
        · next same => exact issued same
        · exact reached.memory up
  | @opened stateDir nodeId recoveredPartialLine nowMs faults up world =>
      obtain ⟨stored, held, above⟩ := reached.disk
      refine ⟨⟨stored, ?_, above⟩, fun _ => above.trans ?_⟩
      · rw [world]
        exact held
      · rw [world]
        exact rebuild_fence_le held
  | @halted stateDir nodeId recoveredPartialLine nowMs faults down trail =>
      refine ⟨?_, fun up => absurd (down.symm.trans up) nofun⟩
      rw [fences_of_sweep trail]
      exact reached.disk

/-- A lease that a call returned was granted by the lock table, and then filed. -/
theorem LeaseReturned.grant {before : List Event} {event : Event} {lease : Lease}
    (returned : LeaseReturned before event lease)
    : ∃ ctx resource ttlMs faults locks home,
        event = .call (.lease ctx resource ttlMs) faults
        ∧ (nodeAfter before).up = true
        ∧ (nodeAfter before).world.kernel.locks.acquire resource ctx.principal ctx.nowMs ttlMs
            ctx.partition (nodeAfter before).world.kernel.home = .ok (lease, locks, home)
        ∧ Trail (Filing lease ((nodeAfter before).world.disk.slotKeys resource ctx.partition))
            ((nodeAfter before).world.granting locks home) ((nodeAfter before).step event).world
        ∧ LeaseFiled lease ((nodeAfter before).world.disk.slotKeys resource ctx.partition)
            ((nodeAfter before).world.granting locks home) ((nodeAfter before).step event).world := by
  obtain ⟨ctx, resource, ttlMs, faults, rfl, answered⟩ := returned
  cases (nodeAfter before).step_leases (.call (.lease ctx resource ttlMs) faults) with
  | quiet _ _ unanswered => exact absurd answered (unanswered _ _ _ _ _ rfl)
  | granted up acquired trail returned =>
      obtain ⟨rfl, filed⟩ := returned lease answered
      exact ⟨ctx, resource, ttlMs, faults, _, _, rfl, up, acquired, trail, filed⟩

/-- The lease that a call returned carries the next fence, and that fence is stored. -/
theorem leaseReturned_granted {before : List Event} {event : Event} {lease : Lease}
    (returned : LeaseReturned before event lease)
    : (nodeAfter before).up = true
      ∧ lease.fence = (nodeAfter before).world.kernel.home.highest lease.resource + 1
      ∧ grantsAt (nodeAfter before) event = 1
      ∧ FenceReached ((nodeAfter before).step event) lease.resource lease.fence := by
  obtain ⟨ctx, resource, ttlMs, faults, locks, home, rfl, up, acquired, trail, filed⟩ :=
    returned.grant
  obtain ⟨acquired, -⟩ := LockTable.acquire_ok acquired
  have reached : home.highest lease.resource = lease.fence := by
    rw [highest_next acquired, if_pos rfl, ← fence_eq acquired]
  refine ⟨up, fence_eq acquired, grantsAt_granted acquired trail,
    ⟨lease.fence, ?_, le_refl _⟩, fun _ => ?_⟩
  · rw [filed.fences, Std.ExtTreeMap.getElem?_insert_self]
  · rw [filed.home]
    exact (congrArg UInt64.toNat reached).ge

/-- A fence stays reached over what follows, by induction on it. -/
theorem fenceReached_later {before later : List Event} {resource : String} {fence : UInt64}
    (reached : FenceReached (nodeAfter before) resource fence)
    (few : grantsFrom Machine.fresh (before ++ later) < 2 ^ 64)
    : FenceReached (nodeAfter (before ++ later)) resource fence := by
  induction later using List.reverseRecOn with
  | nil =>
      rw [List.append_nil]
      exact reached
  | append_singleton later event ih =>
      rw [← List.append_assoc, grantsFrom_append] at few
      rw [← List.append_assoc, nodeAfter_concat]
      have fewer : grantsFrom Machine.fresh (before ++ later) < 2 ^ 64 :=
        (Nat.le_add_right _ _).trans_lt few
      exact (ih fewer).step (fencesWithin (before ++ later)) few

/-- In every run with fewer than 2^64 grants, a lease returned later for a resource has a higher
fence.
-/
theorem granted_fences_increase (before middle after : List Event) (first second : Event)
    (lease later : Lease)
    (few : grantsFrom Machine.fresh (before ++ first :: middle ++ second :: after) < 2 ^ 64)
    (returned : LeaseReturned before first lease)
    (again : LeaseReturned (before ++ first :: middle) second later)
    (same : lease.resource = later.resource)
    : lease.fence < later.fence := by
  obtain ⟨-, -, -, reached⟩ := leaseReturned_granted returned
  obtain ⟨up, issued, counted, -⟩ := leaseReturned_granted again
  have split : before ++ first :: middle = (before ++ [first]) ++ middle := by
    rw [List.append_assoc, List.singleton_append]
  have room : grantsFrom Machine.fresh (before ++ first :: middle) + 1 < 2 ^ 64 := by
    have counts := counted
    rw [grantsFrom_append, grantsFrom] at few
    unfold nodeAfter at counts
    omega
  rw [← nodeAfter_concat] at reached
  have kept : FenceReached (nodeAfter (before ++ first :: middle)) lease.resource lease.fence := by
    rw [split] at room ⊢
    exact fenceReached_later reached (by omega)
  rw [UInt64.lt_iff_toNat_lt, issued,
    Counter.toNat_succ
      (hasNext_of_le ((fencesWithin (before ++ first :: middle)).memory up _) room), ← same]
  exact Nat.lt_succ_of_le (kept.memory up)

end Runs

attribute [local instance] shortLibraries

section Run

private def clerkCtx : Ctx where
  principal := .machine "n1" "clerk"
  clearance := ⟨.public, false⟩
  partition := "local"
  nowMs := 5

private def openingAt (nowMs : UInt64) : Event := .open "state" "n1" false nowMs []

private def renewal : Event := .call (.lease clerkCtx "invoice" 10) []

private def clerkLease (fence : UInt64) : Lease where
  id := "lease-1"
  resource := "invoice"
  holder := .machine "n1" "clerk"
  grantedAtMs := 5
  ttlMs := 10
  fence
  partition := "local"

/-- A lease that expired and was swept at a reopening leaves its fence behind. -/
theorem granted_fences_increase_after_sweep : (1 : UInt64) < 2 := by
  have few : grantsFrom Machine.fresh
      ([openingAt 0] ++ renewal :: [.close, openingAt 20] ++ renewal :: []) < 2 ^ 64 := by
    decide +kernel
  exact granted_fences_increase [openingAt 0] [.close, openingAt 20] [] renewal renewal (clerkLease 1)
    (clerkLease 2) few ⟨clerkCtx, "invoice", 10, [], rfl, rfl⟩
    ⟨clerkCtx, "invoice", 10, [], rfl, rfl⟩ rfl

end Run

end VerticalAI.Correctness
