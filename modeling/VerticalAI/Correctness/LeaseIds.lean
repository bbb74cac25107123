import VerticalAI.Correctness.LeaseFences

/-! Lease ids name one lease each, as long as opening keeps the lease with the highest number and
these numbers do not wrap.
-/

namespace VerticalAI.Correctness
open VerticalAI.Foundation VerticalAI.Contracts VerticalAI.Kernel

/-- For every lease row there is one with a number at least as high that opening would keep: it is
unexpired, and no other unexpired row of its slot is as new.
-/
def HighestLeaseKept (disk : StateDir) (nowMs : UInt64) : Prop :=
  ∀ (name : String) (other : Lease) (number : UInt64),
    disk.leases[name]? = some other → LockTable.leaseNumber other.id = some number
    → ∃ (key : String) (row : Lease) (reached : UInt64),
        disk.leases[key]? = some row ∧ LockTable.leaseNumber row.id = some reached
        ∧ number ≤ reached ∧ row.expired nowMs = false
        ∧ ∀ (rival : String) (newer : Lease), disk.leases[rival]? = some newer
          → SameSlot newer row → newer.expired nowMs = false
          → Lease.supersedes newer row = true → rival = key

/-- An opening of this node keeps the lease with the highest number, and a call for a lease finds a
number left to count on to.
-/
def KeepsHighestLease (machine : Machine) (event : Event) : Prop :=
  match event with
  | .open _ _ _ nowMs _ => machine.up = false → HighestLeaseKept machine.world.disk nowMs
  | .call (.lease _ _ _) _ =>
      machine.up = true → Counter.HasNext machine.world.kernel.locks.counter
  | _ => True

/-- Opening keeps all rows that are unexpired and on slots of their own. -/
theorem highestLeaseKept_of_live {disk : StateDir} {nowMs : UInt64}
    (live : ∀ row ∈ disk.leases.list, row.2.expired nowMs = false
      ∧ ∀ other ∈ disk.leases.list, SameSlot other.2 row.2 → other.1 = row.1)
    : HighestLeaseKept disk nowMs := by
  intro name other number stored numbered
  obtain ⟨unexpired, alone⟩ := live (name, other) (Table.mem_list.mpr stored)
  refine ⟨name, other, number, stored, numbered, UInt64.le_refl _, unexpired, ?_⟩
  exact fun rival newer present slot _ _ => alone (rival, newer) (Table.mem_list.mpr present) slot

/-- The rows that opening would keep are the newest ones. -/
theorem HighestLeaseKept.newest {disk : StateDir} {nowMs : UInt64}
    (kept : HighestLeaseKept disk nowMs) {name : String} {other : Lease} {number : UInt64}
    (stored : disk.leases[name]? = some other)
    (numbered : LockTable.leaseNumber other.id = some number)
    : ∃ (key : String) (row : Lease) (reached : UInt64),
        disk.leases[key]? = some row ∧ LockTable.leaseNumber row.id = some reached
        ∧ number ≤ reached ∧ key ∉ (disk.leaseReplay nowMs).stale := by
  have replayed := leaseReplay_replayed disk nowMs
  obtain ⟨key, row, reached, present, rowNumber, above, unexpired, alone⟩ :=
    kept name other number stored numbered
  refine ⟨key, row, reached, present, rowNumber, above, fun swept => ?_⟩
  have newest : (key, row) ∈ (disk.leaseReplay nowMs).newest := by
    obtain ⟨⟨rival, newer⟩, member, slot, rest⟩ :=
      replayed.covers (key, row) (Table.mem_list.mpr present) unexpired
    rcases rest with same | supersedes
    · exact same ▸ member
    · obtain ⟨read, live⟩ := replayed.among _ member
      have there := Table.mem_list.mp read
      obtain rfl : rival = key := alone rival newer there slot live supersedes
      rw [present] at there
      exact Option.some.inj there ▸ member
  obtain ⟨old, read, absent⟩ := replayed.stale key swept
  have there := Table.mem_list.mp read
  rw [present] at there
  exact absent (Option.some.inj there ▸ newest)

section Runs

variable [Libraries]

/-- The counter of a process that is up is not behind any lease row. -/
def CounterAhead (machine : Machine) : Prop :=
  machine.up = true → ∀ (key : String) (row : Lease) (number : UInt64),
    machine.world.disk.leases[key]? = some row → LockTable.leaseNumber row.id = some number
    → number ≤ machine.world.kernel.locks.counter

/-- The id of a lease names nothing else, and a row keeps the counter from its number. -/
structure IdTaken (machine : Machine) (lease : Lease) : Prop where
  covered : ∃ number, lease.id = LockTable.leaseId number
    ∧ ∃ (key : String) (row : Lease) (reached : UInt64),
        machine.world.disk.leases[key]? = some row
        ∧ LockTable.leaseNumber row.id = some reached ∧ number ≤ reached
  stored : ∀ row, machine.world.disk.leases[lease.id]? = some row → row = lease
  memory : machine.up = true
    → ∀ other, machine.world.kernel.locks.leases[lease.id]? = some other → other = lease

variable {machine : Machine} {lease : Lease}

/-- The counter stays ahead, by cases on what the event does to leases. -/
theorem CounterAhead.step (ahead : CounterAhead machine) {event : Event}
    (keeps : KeepsHighestLease machine event)
    : CounterAhead (machine.step event) := by
  intro running key row number stored numbered
  cases machine.step_leases event with
  | quiet same up _ =>
      obtain ⟨rows, -, locks, -⟩ := same
      rw [rows] at stored
      rw [locks]
      exact ahead (up running) key row number stored numbered
  | @granted ctx resource ttlMs faults granted locks home up acquired trail _ _ rows =>
      obtain ⟨acquired, -⟩ := LockTable.acquire_ok acquired
      rw [(filing_memory trail).1]
      change number ≤ locks.counter
      rw [acquired.counter]
      have earlier {key : String} (stored : machine.world.disk.leases[key]? = some row)
          : number ≤ machine.world.kernel.locks.counter + 1 :=
        Counter.le_succ_of_le (keeps up) (ahead up key row number stored numbered)
      cases rows with
      | unwritten _ same =>
          rw [same] at stored
          exact earlier stored
      | written swept left split filed _ =>
          rw [filed, getElem?_filed _ split] at stored
          rcases stored with ⟨-, rfl⟩ | ⟨-, -, stored⟩
          · rw [acquired.id, LockTable.leaseNumber_leaseId] at numbered
            exact Option.some.inj numbered ▸ UInt64.le_refl _
          · exact earlier stored
  | @opened stateDir nodeId recoveredPartialLine nowMs faults up world =>
      rw [world] at stored ⊢
      obtain ⟨unswept, present⟩ := Table.getElem?_foldl_erase _ _ |>.mp stored
      have replayed := leaseReplay_replayed machine.world.disk nowMs
      rcases replayed.swept (key, row) (Table.mem_list.mpr present) with newest | swept
      · exact rebuild_lockCounter newest numbered
      · exact absurd swept unswept
  | halted down => exact absurd (down.symm.trans running) nofun

/-- Every event of the run keeps the lease with the highest number. -/
def KeepsHighestLeases (events : List Event) : Prop :=
  ∀ before event after, events = before ++ event :: after
    → KeepsHighestLease (nodeAfter before) event

theorem KeepsHighestLeases.front {front rest : List Event}
    (keeps : KeepsHighestLeases (front ++ rest))
    : KeepsHighestLeases front :=
  fun before event after split =>
    keeps before event (after ++ rest) (by rw [split, List.append_assoc, List.cons_append])

/-- The counter is ahead in every run whose events keep it so, by induction on the run. -/
theorem counterAhead {events : List Event} (keeps : KeepsHighestLeases events)
    : CounterAhead (nodeAfter events) := by
  induction events using List.reverseRecOn with
  | nil => nofun
  | append_singleton events event ih =>
      rw [nodeAfter_concat]
      exact (ih keeps.front).step (keeps events event [] rfl)

omit [Libraries] in
/-- The next id is not a taken one. -/
theorem IdTaken.fresh (taken : IdTaken machine lease) (ahead : CounterAhead machine)
    (up : machine.up = true) (room : Counter.HasNext machine.world.kernel.locks.counter)
    : lease.id ≠ LockTable.leaseId (machine.world.kernel.locks.counter + 1) := by
  obtain ⟨number, named, key, row, reached, stored, numbered, above⟩ := taken.covered
  rw [named]
  intro same
  have next := LockTable.leaseId_injective same
  have bounded := ahead up key row reached stored numbered
  rw [next] at above
  exact absurd (Counter.lt_succ room) (UInt64.not_lt.mpr (UInt64.le_trans above bounded))

/-- An id stays taken over an event that keeps the lease with the highest number, by cases on what
the event does to leases.
-/
theorem IdTaken.step (taken : IdTaken machine lease) (ahead : CounterAhead machine)
    (keyed : LeasesKeyed machine.world.disk) {event : Event}
    (keeps : KeepsHighestLease machine event)
    : IdTaken (machine.step event) lease := by
  obtain ⟨number, named, key, row, reached, stored, numbered, above⟩ := taken.covered
  cases machine.step_leases event with
  | quiet same up _ =>
      obtain ⟨rows, -, locks, -⟩ := same
      refine ⟨⟨number, named, key, row, reached, ?_, numbered, above⟩, ?_, fun running => ?_⟩
      · rw [rows]
        exact stored
      · rw [rows]
        exact taken.stored
      · rw [locks]
        exact taken.memory (up running)
  | @granted ctx resource ttlMs faults granted locks home up acquired trail _ _ rows =>
      obtain ⟨acquired, -⟩ := LockTable.acquire_ok acquired
      obtain ⟨kept, leases, keptIff⟩ := acquired.leases
      have fresh : lease.id ≠ granted.id := acquired.id ▸ taken.fresh ahead up (keeps up)
      have bounded := ahead up key row reached stored numbered
      refine ⟨⟨number, named, ?_⟩, fun other present => ?_, fun _ other present => ?_⟩
      · cases rows with
        | unwritten _ same =>
            rw [same]
            exact ⟨key, row, reached, stored, numbered, above⟩
        | written swept left split filed _ =>
            refine ⟨granted.id, granted, machine.world.kernel.locks.counter + 1, ?_, ?_, ?_⟩
            · rw [filed, getElem?_filed _ split]
              exact Or.inl ⟨rfl, rfl⟩
            · rw [acquired.id, LockTable.leaseNumber_leaseId]
            · exact Counter.le_succ_of_le (keeps up) (UInt64.le_trans above bounded)
      · cases rows with
        | unwritten _ same =>
            rw [same] at present
            exact taken.stored other present
        | written swept left split filed _ =>
            rw [filed, getElem?_filed _ split] at present
            rcases present with ⟨same, -⟩ | ⟨-, -, earlier⟩
            · exact absurd same fresh
            · exact taken.stored other earlier
      · rw [(filing_memory trail).1] at present
        change locks.leases[lease.id]? = some other at present
        rw [leases, Table.getElem?_insert_ne fresh] at present
        exact taken.memory up other ((keptIff _ _).mp present).1
  | @opened stateDir nodeId recoveredPartialLine nowMs faults up world closed =>
      obtain ⟨key, row, highest, kept, keptNumber, higher, unswept⟩ :=
        (keeps closed).newest stored numbered
      refine ⟨⟨number, named, key, row, highest, ?_, keptNumber, UInt64.le_trans above higher⟩,
        fun other present => ?_, fun _ other present => ?_⟩
      · rw [world]
        exact (Table.getElem?_foldl_erase _ _).mpr ⟨unswept, kept⟩
      · rw [world] at present
        exact taken.stored other (Table.getElem?_foldl_erase _ _ |>.mp present).2
      · rw [world] at present
        have replayed := leaseReplay_replayed machine.world.disk nowMs
        have read := (replayed.among _ ((rebuild_leases keyed).mp present)).1
        exact taken.stored other (Table.mem_list.mp read)
  | @halted stateDir nodeId recoveredPartialLine nowMs faults down trail closed =>
      obtain ⟨key, row, highest, kept, keptNumber, higher, unswept⟩ :=
        (keeps closed).newest stored numbered
      generalize machine.step (.open stateDir nodeId recoveredPartialLine nowMs faults) = after
        at down trail ⊢
      exact ⟨⟨number, named, key, row, highest, kept_by_sweep trail unswept kept, keptNumber,
          UInt64.le_trans above higher⟩,
        fun other left => taken.stored other (row_of_sweep trail left),
        fun up => absurd (down.symm.trans up) nofun⟩

/-- The id of a lease that was returned is taken. -/
theorem LeaseReturned.taken {before : List Event} {event : Event}
    (returned : LeaseReturned before event lease)
    : IdTaken ((nodeAfter before).step event) lease := by
  obtain ⟨ctx, resource, ttlMs, faults, locks, home, rfl, -, acquired, -, filed⟩ :=
    returned.grant
  obtain ⟨acquired, -⟩ := LockTable.acquire_ok acquired
  obtain ⟨kept, leases, -⟩ := acquired.leases
  have number := (congrArg LockTable.leaseNumber acquired.id).trans
    (LockTable.leaseNumber_leaseId _)
  refine ⟨⟨_, acquired.id, lease.id, lease, _, (filed.rows _ _).mpr (Or.inl ⟨rfl, rfl⟩), number,
    UInt64.le_refl _⟩, fun row stored => ?_, fun _ other stored => ?_⟩
  · rcases (filed.rows _ _).mp stored with ⟨-, same⟩ | ⟨different, -⟩
    · exact same
    · exact absurd rfl different
  · rw [filed.locks] at stored
    change locks.leases[lease.id]? = some other at stored
    rw [leases, Std.ExtTreeMap.getElem?_insert_self] at stored
    exact (Option.some.inj stored).symm

/-- A taken id stays so over what follows, by induction on it. -/
theorem idTaken_later {before later : List Event} {lease : Lease}
    (taken : IdTaken (nodeAfter before) lease) (keeps : KeepsHighestLeases (before ++ later))
    : IdTaken (nodeAfter (before ++ later)) lease := by
  induction later using List.reverseRecOn with
  | nil =>
      rw [List.append_nil]
      exact taken
  | append_singleton later event ih =>
      rw [← List.append_assoc] at keeps ⊢
      rw [nodeAfter_concat]
      exact (ih keeps.front).step (counterAhead keeps.front) (Reachable.leasesKeyed ⟨_, rfl⟩)
        (keeps (before ++ later) event [] rfl)

/-- In every run whose openings keep the lease with the highest number, and whose calls for leases
find a number left: two leases that were returned have different ids, and the id of one that was
returned names no other in the lock table.
-/
theorem lease_ids_are_not_reused (events : List Event)
    (keeps : ∀ before event after, events = before ++ event :: after
      → KeepsHighestLease (nodeAfter before) event)
    (before middle : List Event) (first : Event) (lease : Lease)
    (returned : LeaseReturned before first lease)
    : (∀ second after later, events = before ++ first :: middle ++ second :: after
        → LeaseReturned (before ++ first :: middle) second later → lease.id ≠ later.id)
      ∧ (events = before ++ first :: middle → (nodeAfter events).up = true
        → ∀ other, (nodeAfter events).world.kernel.locks.leases[lease.id]? = some other
          → other = lease) := by
  have split : before ++ first :: middle = (before ++ [first]) ++ middle := by
    rw [List.append_assoc, List.singleton_append]
  have taken (kept : KeepsHighestLeases (before ++ first :: middle))
      : IdTaken (nodeAfter (before ++ first :: middle)) lease := by
    rw [split] at kept ⊢
    refine idTaken_later ?_ kept
    rw [nodeAfter_concat]
    exact returned.taken
  refine ⟨fun second after later run again => ?_, fun run up other stored => ?_⟩
  · subst run
    obtain ⟨ctx, resource, ttlMs, faults, rfl, answered⟩ := again
    have kept := KeepsHighestLeases.front keeps
    cases (nodeAfter (before ++ first :: middle)).step_leases
      (.call (.lease ctx resource ttlMs) faults) with
    | quiet _ _ unanswered => exact absurd answered (unanswered _ _ _ _ _ rfl)
    | granted up acquired trail answers =>
        obtain ⟨rfl, -⟩ := answers later answered
        obtain ⟨acquired, -⟩ := LockTable.acquire_ok acquired
        rw [acquired.id]
        exact (taken kept).fresh (counterAhead kept) up (keeps _ _ after rfl up)
  · subst run
    exact (taken keeps).memory up other stored

end Runs

attribute [local instance] shortLibraries

section Run

private def deskCtx (desk : String) (nowMs : UInt64) : Ctx where
  principal := .machine "n1" desk
  clearance := ⟨.public, false⟩
  partition := "local"
  nowMs := nowMs

private def booting (nowMs : UInt64) : Event := .open "state" "n1" false nowMs []

private def asking (ctx : Ctx) (resource : String) : Event := .call (.lease ctx resource 10) []

private def deskLease (id resource desk : String) (grantedAtMs : UInt64) : Lease where
  id := id
  resource := resource
  holder := .machine "n1" desk
  grantedAtMs := grantedAtMs
  ttlMs := 10
  fence := 1
  partition := "local"

/-- A node reopened before the lease expires counts on from it. -/
theorem lease_ids_are_not_reused_before_expiry : "lease-1" ≠ "lease-2" := by
  have keeps : ∀ before event after,
      [booting 0, asking (deskCtx "in" 5) "tray", .close, booting 10,
          asking (deskCtx "out" 12) "shelf"] = before ++ event :: after
      → KeepsHighestLease (nodeAfter before) event := by
    intro before event after split
    rcases before with _ | ⟨first, _ | ⟨second, _ | ⟨third, _ | ⟨fourth, _ | ⟨fifth, before⟩⟩⟩⟩⟩
    · cases split
      exact fun _ => highestLeaseKept_of_live (by decide +kernel)
    · cases split
      exact fun _ => by decide +kernel
    · cases split
      trivial
    · cases split
      exact fun _ => highestLeaseKept_of_live (by decide +kernel)
    · cases split
      exact fun _ => by decide +kernel
    · simp at split
  exact (lease_ids_are_not_reused _ keeps [booting 0] [.close, booting 10]
    (asking (deskCtx "in" 5) "tray") (deskLease "lease-1" "tray" "in" 5)
    ⟨deskCtx "in" 5, "tray", 10, [], rfl, rfl⟩).1 (asking (deskCtx "out" 12) "shelf") []
    (deskLease "lease-2" "shelf" "out" 12) rfl ⟨deskCtx "out" 12, "shelf", 10, [], rfl, rfl⟩

/-- A node reopened after its only lease expired starts counting again: the id of that lease names
the next one, of another holder, and releasing it frees that one.
-/
theorem reopening_reuses_a_lease_id
    : let reopened := [booting 0] ++ asking (deskCtx "in" 5) "tray" :: [.close, booting 20]
      let machine := nodeAfter (reopened ++ [asking (deskCtx "out" 25) "shelf"])
      LeaseReturned [booting 0] (asking (deskCtx "in" 5) "tray") (deskLease "lease-1" "tray" "in" 5)
      ∧ LeaseReturned reopened (asking (deskCtx "out" 25) "shelf")
          (deskLease "lease-1" "shelf" "out" 25)
      ∧ machine.world.kernel.locks.holderOf "shelf" "local" 30 = some (.machine "n1" "out")
      ∧ (machine.world.kernel.locks.release "lease-1").holderOf "shelf" "local" 30 = none := by
  refine ⟨⟨deskCtx "in" 5, "tray", 10, [], rfl, rfl⟩,
    ⟨deskCtx "out" 25, "shelf", 10, [], rfl, rfl⟩, ?_, ?_⟩
  · decide +kernel
  · decide +kernel

end Run

end VerticalAI.Correctness
