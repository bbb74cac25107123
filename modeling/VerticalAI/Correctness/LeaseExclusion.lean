import VerticalAI.Correctness.LeaseFences

/-! Leases exclude each other: while a lease that was returned is unexpired and its holder asks for
nothing new on its slot, nobody else is granted the slot, whatever fails, crashes or reopens.
-/

namespace VerticalAI.Correctness
open VerticalAI.Foundation VerticalAI.Contracts VerticalAI.Kernel

/-- The time a call for a lease is made at, and the one an opening sweeps at. -/
def Event.leaseClock : Event → Option UInt64
  | .call (.lease ctx _ _) _ => some ctx.nowMs
  | .open _ _ _ nowMs _ => some nowMs
  | _ => none

/-- The clocks of a run never go back. -/
def ClocksRise (events : List Event) : Prop :=
  (events.filterMap Event.leaseClock).Pairwise (· ≤ ·)

/-- The event is a call for a lease on this slot by this principal. -/
def AsksFor (holder : Principal) (resource partition : String) (event : Event) : Prop :=
  ∃ ctx ttlMs faults, event = .call (.lease ctx resource ttlMs) faults
    ∧ ctx.principal = holder ∧ ctx.partition = partition

section Runs

variable [Libraries]

/-- The lease is the only one on its slot, in the rows and in the lock table of a process that is
up, and the lease counter of that process is past it.
-/
structure SlotHeld (machine : Machine) (lease : Lease) : Prop where
  stored : machine.world.disk.leases[lease.id]? = some lease
  only : ∀ (key : String) (row : Lease), machine.world.disk.leases[key]? = some row
    → SameSlot row lease → key = lease.id
  numbered : ∃ number, lease.id = LockTable.leaseId number
    ∧ (machine.up = true → number ≤ machine.world.kernel.locks.counter)
  memory : machine.up = true
    → machine.world.kernel.locks.leases[lease.id]? = some lease
      ∧ ∀ (id : String) (other : Lease),
          machine.world.kernel.locks.leases[id]? = some other → SameSlot other lease
          → id = lease.id

variable {machine : Machine} {lease : Lease}

omit [Libraries] in
/-- On a held slot nobody else is granted anything. -/
theorem SlotHeld.refused (held : SlotHeld machine lease) (up : machine.up = true)
    {resource partition : String} {holder : Principal} {nowMs ttlMs : UInt64}
    (placed : lease.OnSlot resource partition) (unexpired : lease.expired nowMs = false)
    (different : lease.holder ≠ holder)
    : machine.world.kernel.locks.acquire resource holder nowMs ttlMs partition
        machine.world.kernel.home = .error .held := by
  obtain ⟨stored, only⟩ := held.memory up
  refine LockTable.acquire_held stored placed (fun id other present on => ?_) unexpired different
  have same : SameSlot other lease := ⟨on.1.trans placed.1.symm, on.2.trans placed.2.symm⟩
  rw [only id other present same, stored] at present
  exact (Option.some.inj present).symm

/-- A lease that was returned holds its slot. -/
theorem LeaseReturned.holds {before : List Event} {event : Event}
    (returned : LeaseReturned before event lease)
    : SlotHeld ((nodeAfter before).step event) lease := by
  obtain ⟨ctx, resource, ttlMs, faults, locks, home, rfl, -, acquired, -, filed⟩ :=
    returned.grant
  obtain ⟨acquired, placed, -⟩ := LockTable.acquire_ok acquired
  obtain ⟨kept, leases, keptIff⟩ := acquired.leases
  refine ⟨(filed.rows _ _).mpr (Or.inl ⟨rfl, rfl⟩), fun key row stored same => ?_,
    ⟨_, acquired.id, fun _ => ?_⟩, fun _ => ?_⟩
  · rcases (filed.rows key row).mp stored with ⟨named, -⟩ | ⟨-, absent, earlier⟩
    · exact named
    · refine absurd (mem_slotKeys.mpr ⟨row, earlier, ?_⟩) absent
      exact ⟨same.1.trans placed.1, same.2.trans placed.2⟩
  · rw [filed.locks]
    exact acquired.counter ▸ UInt64.le_refl _
  · rw [filed.locks]
    change locks.leases[lease.id]? = some lease ∧ _
    rw [leases]
    refine ⟨Std.ExtTreeMap.getElem?_insert_self, fun id other stored same => ?_⟩
    change locks.leases[id]? = some other at stored
    rw [leases] at stored
    rcases Table.getElem?_insert_inv stored with ⟨named, -⟩ | earlier
    · exact named
    · exact absurd same ((keptIff id other).mp earlier).2

omit [Libraries] in
/-- Opening keeps the lease that holds its slot, until it expires. -/
theorem SlotHeld.newest (held : SlotHeld machine lease) {nowMs : UInt64}
    (unexpired : lease.expired nowMs = false)
    : (lease.id, lease) ∈ (machine.world.disk.leaseReplay nowMs).newest
      ∧ lease.id ∉ (machine.world.disk.leaseReplay nowMs).stale := by
  have replayed := leaseReplay_replayed machine.world.disk nowMs
  obtain ⟨⟨key, row⟩, present, slot, -⟩ :=
    replayed.covers (lease.id, lease) (Table.mem_list.mpr held.stored) unexpired
  have stored := Table.mem_list.mp (replayed.among (key, row) present).1
  obtain rfl : key = lease.id := held.only key row stored slot
  rw [held.stored] at stored
  obtain rfl := Option.some.inj stored
  refine ⟨present, fun swept => ?_⟩
  obtain ⟨other, read, absent⟩ := replayed.stale lease.id swept
  have same := Table.mem_list.mp read
  rw [held.stored] at same
  exact absent (Option.some.inj same ▸ present)

/-- A slot stays held over an event that comes before the lease expires and is no new call by its
holder, while lease numbers do not run out; by cases on what the event does to leases.
-/
theorem SlotHeld.step (held : SlotHeld machine lease) (keyed : LeasesKeyed machine.world.disk)
    {event : Event} {bound : Nat} (within : NumbersWithin machine bound)
    (few : bound + grantsAt machine event < 2 ^ 64)
    (unexpired : ∀ nowMs, Event.leaseClock event = some nowMs → lease.expired nowMs = false)
    (quiet : ¬AsksFor lease.holder lease.resource lease.partition event)
    : SlotHeld (machine.step event) lease := by
  cases machine.step_leases event with
  | quiet same up _ =>
      obtain ⟨rows, -, locks, -⟩ := same
      obtain ⟨number, numbered, below⟩ := held.numbered
      refine ⟨?_, ?_, ⟨number, numbered, fun running => ?_⟩, fun running => ?_⟩
      · rw [rows]
        exact held.stored
      · rw [rows]
        exact held.only
      · rw [locks]
        exact below (up running)
      · rw [locks]
        exact held.memory (up running)
  | @granted ctx resource ttlMs faults granted locks home up acquired trail _ =>
      have elsewhere : ¬lease.OnSlot resource ctx.partition := by
        intro placed
        have other : lease.holder ≠ ctx.principal := fun same =>
          quiet ⟨ctx, ttlMs, faults, by rw [placed.1], same.symm, placed.2.symm⟩
        rw [held.refused up placed (unexpired ctx.nowMs rfl) other] at acquired
        cases acquired
      obtain ⟨acquired, placed, -⟩ := LockTable.acquire_ok acquired
      rw [grantsAt_granted acquired trail] at few
      have room := hasNext_of_le (within.memory up) few
      obtain ⟨present, alone⟩ := held.memory up
      obtain ⟨number, numbered, below⟩ := held.numbered
      obtain ⟨kept, leases, keptIff⟩ := acquired.leases
      have apart : ¬SameSlot granted lease := fun same =>
        elsewhere ⟨same.1.symm.trans placed.1, same.2.symm.trans placed.2⟩
      have fresh : lease.id ≠ granted.id := by
        rw [numbered, acquired.id]
        intro same
        have last := LockTable.leaseId_injective same ▸ below up
        exact absurd (Counter.lt_succ room) (UInt64.not_lt.mpr last)
      generalize machine.step (.call (.lease ctx resource ttlMs) faults) = after at trail ⊢
      have unlisted : lease.id ∉ machine.world.disk.slotKeys resource ctx.partition := by
        intro listed
        obtain ⟨row, earlier, on⟩ := mem_slotKeys.mp listed
        rw [held.stored] at earlier
        obtain rfl := Option.some.inj earlier
        exact elsewhere on
      have table := (filing_memory trail).1
      change after.world.kernel.locks = locks at table
      refine ⟨kept_by_filing trail fresh unlisted held.stored, fun key row stored same => ?_,
        ⟨number, numbered, fun _ => ?_⟩, fun _ => ?_⟩
      · rcases row_of_filing trail stored with rfl | earlier
        · exact absurd same apart
        · exact held.only key row earlier same
      · rw [table, acquired.counter]
        exact Counter.le_succ_of_le room (below up)
      · rw [table, leases]
        refine ⟨?_, fun id other stored same => ?_⟩
        · rw [Table.getElem?_insert_ne fresh]
          exact (keptIff _ _).mpr ⟨present, fun on => apart ⟨on.1.symm, on.2.symm⟩⟩
        · rcases Table.getElem?_insert_inv stored with ⟨-, rfl⟩ | earlier
          · exact absurd same apart
          · exact alone id other ((keptIff id other).mp earlier).1 same
  | @opened stateDir nodeId recoveredPartialLine nowMs faults up world =>
      obtain ⟨newest, unswept⟩ := held.newest (unexpired nowMs rfl)
      obtain ⟨number, numbered, -⟩ := held.numbered
      refine ⟨?_, fun key row stored same => ?_, ⟨number, numbered, fun _ => ?_⟩, fun _ => ?_⟩
      · rw [world]
        exact (Table.getElem?_foldl_erase _ _).mpr ⟨unswept, held.stored⟩
      · rw [world] at stored
        exact held.only key row (Table.getElem?_foldl_erase _ _ |>.mp stored).2 same
      · rw [world]
        refine rebuild_lockCounter newest ?_
        rw [numbered, LockTable.leaseNumber_leaseId]
      · rw [world]
        refine ⟨(rebuild_leases keyed).mpr newest, fun id other restored same => ?_⟩
        have replayed := leaseReplay_replayed machine.world.disk nowMs
        have read := (replayed.among _ ((rebuild_leases keyed).mp restored)).1
        exact held.only id other (Table.mem_list.mp read) same
  | @halted stateDir nodeId recoveredPartialLine nowMs faults down trail =>
      obtain ⟨-, unswept⟩ := held.newest (unexpired nowMs rfl)
      generalize machine.step (.open stateDir nodeId recoveredPartialLine nowMs faults) = after
        at down trail ⊢
      obtain ⟨number, numbered, -⟩ := held.numbered
      exact ⟨kept_by_sweep trail unswept held.stored,
        fun key row stored => held.only key row (row_of_sweep trail stored),
        ⟨number, numbered, fun up => absurd (down.symm.trans up) nofun⟩,
        fun up => absurd (down.symm.trans up) nofun⟩

/-- A slot stays held over what follows, by induction on it. -/
theorem slotHeld_later {before later : List Event} {lease : Lease}
    (held : SlotHeld (nodeAfter before) lease)
    (few : grantsFrom Machine.fresh (before ++ later) < 2 ^ 64)
    (unexpired : ∀ event ∈ later, ∀ nowMs, Event.leaseClock event = some nowMs
      → lease.expired nowMs = false)
    (quiet : ∀ event ∈ later, ¬AsksFor lease.holder lease.resource lease.partition event)
    : SlotHeld (nodeAfter (before ++ later)) lease := by
  induction later using List.reverseRecOn with
  | nil =>
      rw [List.append_nil]
      exact held
  | append_singleton later event ih =>
      rw [← List.append_assoc, grantsFrom_append] at few
      rw [← List.append_assoc, nodeAfter_concat]
      have fewer : grantsFrom Machine.fresh (before ++ later) < 2 ^ 64 :=
        (Nat.le_add_right _ _).trans_lt few
      have earlier := ih fewer (fun other member => unexpired other (List.mem_append_left _ member))
        fun other member => quiet other (List.mem_append_left _ member)
      have last : event ∈ later ++ [event] := List.mem_append_right _ (List.mem_singleton_self _)
      exact earlier.step (Reachable.leasesKeyed ⟨_, rfl⟩) (numbersWithin (before ++ later)) few
        (unexpired event last) (quiet event last)

/-- While a lease that was returned is unexpired and its holder has not called for its slot again,
and fewer than 2^64 leases have been granted: a call for the slot by anybody else is refused, and
the lock table is as it was.
-/
theorem unexpired_leases_exclude (before middle : List Event) (first : Event) (lease : Lease)
    (ctx : Ctx) (ttlMs : UInt64) (faults : List Fault)
    (clocks : ClocksRise (first :: middle ++ [.call (.lease ctx lease.resource ttlMs) faults]))
    (few : grantsFrom Machine.fresh (before ++ first :: middle) < 2 ^ 64)
    (returned : LeaseReturned before first lease)
    (quiet : ∀ event ∈ middle, ¬AsksFor lease.holder lease.resource lease.partition event)
    (placed : lease.partition = ctx.partition) (different : lease.holder ≠ ctx.principal)
    (unexpired : lease.expired ctx.nowMs = false)
    : (∀ granted, (nodeAfter (before ++ first :: middle)).answer
          (.lease ctx lease.resource ttlMs) faults ≠ some (.done (.lease granted)))
      ∧ ((nodeAfter (before ++ first :: middle)).step
          (.call (.lease ctx lease.resource ttlMs) faults)).world.kernel.locks
        = (nodeAfter (before ++ first :: middle)).world.kernel.locks := by
  have sooner : ∀ event ∈ middle, ∀ nowMs, Event.leaseClock event = some nowMs
      → lease.expired nowMs = false := by
    intro event member nowMs clock
    unfold ClocksRise at clocks
    rw [List.filterMap_append, List.pairwise_append] at clocks
    have earlier : nowMs ≤ ctx.nowMs :=
      clocks.2.2 nowMs (List.mem_filterMap.mpr ⟨event, .tail _ member, clock⟩) ctx.nowMs (.head _)
    cases live : lease.expired nowMs with
    | false => rfl
    | true => exact absurd (Lease.expired_mono earlier live) (by simp [unexpired])
  have held : SlotHeld (nodeAfter (before ++ first :: middle)) lease := by
    have split : before ++ first :: middle = (before ++ [first]) ++ middle := by
      rw [List.append_assoc, List.singleton_append]
    rw [split] at few ⊢
    refine slotHeld_later ?_ few sooner quiet
    rw [nodeAfter_concat]
    exact returned.holds
  cases (nodeAfter (before ++ first :: middle)).step_leases
    (.call (.lease ctx lease.resource ttlMs) faults) with
  | quiet same _ unanswered => exact ⟨fun granted => unanswered _ _ _ _ granted rfl, same.2.2.1⟩
  | granted up acquired =>
      rw [held.refused up ⟨rfl, placed⟩ unexpired different] at acquired
      cases acquired

end Runs

attribute [local instance] shortLibraries

section Run

private def packerCtx (nowMs : UInt64) : Ctx where
  principal := .machine "n1" "packer"
  clearance := ⟨.public, false⟩
  partition := "local"
  nowMs := nowMs

private def billerCtx (nowMs : UInt64) : Ctx where
  principal := .machine "n1" "biller"
  clearance := ⟨.public, false⟩
  partition := "local"
  nowMs := nowMs

private def shipping (ctx : Ctx) : Event := .call (.lease ctx "shipment" 100) []

private def packerLease : Lease where
  id := "lease-1"
  resource := "shipment"
  holder := .machine "n1" "packer"
  grantedAtMs := 5
  ttlMs := 100
  fence := 1
  partition := "local"

private def setup : List Event := [.open "state" "n1" false 0 []]

/-- The lock table refuses, also after a reopening, and is as it was. -/
theorem unexpired_leases_exclude_after_reopening
    : let reopened := setup
        ++ shipping (packerCtx 5) :: [.close, .open "state" "n1" false 20 []]
      (∀ granted, (nodeAfter reopened).answer (.lease (billerCtx 30) "shipment" 100) []
          ≠ some (.done (.lease granted)))
      ∧ ((nodeAfter reopened).step (shipping (billerCtx 30))).world.kernel.locks
        = (nodeAfter reopened).world.kernel.locks := by
  refine unexpired_leases_exclude setup _ _ packerLease (billerCtx 30) 100 [] ?_ ?_
    ⟨packerCtx 5, "shipment", 100, [], rfl, rfl⟩ ?_ rfl ?_ ?_
  · change [(5 : UInt64), 20, 30].Pairwise (· ≤ ·)
    decide
  · decide +kernel
  · rintro event member ⟨ctx, ttlMs, faults, rfl, -⟩
    simp at member
  · decide
  · decide

end Run

end VerticalAI.Correctness
