import VerticalAI.Correctness.LeaseFences
import VerticalAI.Kernel.LeaseAgreement
import VerticalAI.Kernel.MemoryRows
import VerticalAI.Kernel.StopInvariant

/-! Memory and disk agree after every call: the process holds what opening would rebuild from the
state directory at that moment.
-/

namespace VerticalAI.Correctness
open VerticalAI.Foundation VerticalAI.Contracts VerticalAI.Kernel

/-- Two processes have the same manifests mounted (to the comparison that mounting makes), the same
STOPs, the same devices and the same leases unexpired at this time.
-/
structure SameMemory (first second : RealKernel) (nowMs : UInt64) : Prop where
  arches : ∀ id : String,
    Option.Rel ArchManifest.Alike (first.adapters[id]?.map (·.manifest))
      (second.adapters[id]?.map (·.manifest))
  stops : first.stops = second.stops
  devices : ∀ id : String, first.devices.keys[id]? = second.devices.keys[id]?
  leases : ∀ (id : String) (lease : Lease),
    first.locks.leases[id]? = some lease ∧ lease.expired nowMs = false
    ↔ second.locks.leases[id]? = some lease ∧ lease.expired nowMs = false

section Runs

variable [Libraries]

/-- The event is no grant whose row cannot be written, nor one that leaves a row of the slot that
is as new as the lease or expires later, because a deletion fails; and the lease table has not
counted to its last number.
-/
def SettlesLeases (machine : Machine) : Event → Prop
  | .call (.lease ctx resource ttlMs) faults =>
      machine.up = true → ∀ granted locks home,
        machine.world.kernel.locks.acquire resource ctx.principal ctx.nowMs ttlMs ctx.partition
          machine.world.kernel.home = .ok (granted, locks, home)
        → Counter.HasNext machine.world.kernel.locks.counter
          ∧ ¬FailsAt faults 1
          ∧ ∀ swept left,
              (machine.world.disk.slotKeys resource ctx.partition).filter (· ≠ granted.id)
                = swept ++ left
              → FailsAt faults (swept.length + 2)
              → ∀ key ∈ left, ∀ row, machine.world.disk.leases[key]? = some row
                → Lease.Outlasts granted row
  | _ => True

/-- The event leaves no row behind, and loses none, that a rebuilt process would differ by. -/
def Settles (machine : Machine) (event : Event) : Prop :=
  SettlesArches machine event ∧ SettlesLeases machine event

/-- Leases of a process that is up agree with the rows, by cases on what the event does to them. -/
theorem leasesAgree_step {machine : Machine} (event : Event)
    (agree : machine.up = true
      → LeasesAgree machine.world.disk.leases machine.world.kernel.locks)
    (keyed : LeasesKeyed machine.world.disk) (settled : SettlesLeases machine event)
    (running : (machine.step event).up = true)
    : LeasesAgree (machine.step event).world.disk.leases
        (machine.step event).world.kernel.locks := by
  cases machine.step_leases event with
  | quiet same up _ =>
      obtain ⟨rows, -, locks, -⟩ := same
      rw [rows, locks]
      exact agree (up running)
  | @granted ctx resource ttlMs faults granted locks home up acquired trail _ read rows =>
      obtain ⟨room, written, deleted⟩ := settled up granted locks home acquired
      obtain ⟨acquired, placed, -⟩ := LockTable.acquire_ok acquired
      have table : (machine.step (.call (.lease ctx resource ttlMs) faults)).world.kernel.locks
          = locks :=
        (filing_memory trail).1
      rw [table]
      have alive : ¬(machine.step (.call (.lease ctx resource ttlMs) faults)).up = false :=
        fun down => absurd (down.symm.trans running) nofun
      cases rows with
      | unwritten stopped =>
          rcases stopped with down | fails
          · exact absurd down alive
          · exact absurd (fails.after read) written
      | written swept left split filed stopped =>
          rw [filed]
          refine (agree up).grant room acquired (fun key => ?_) split fun key member row stored => ?_
          · rw [mem_slotKeys, placed.1, placed.2]
          · rcases stopped with rfl | down | fails
            · exact absurd member List.not_mem_nil
            · exact absurd down alive
            · exact deleted swept left split (fails.after read) key member row stored
  | opened up world =>
      rw [world]
      exact LeasesAgree.opened keyed
  | halted down => exact absurd (down.symm.trans running) nofun

/-- A run whose events all settle leaves memory and rows the same, by induction on it. -/
theorem matches_of_settled (events : List Event)
    (settled : ∀ before event after, events = before ++ event :: after
      → Settles (nodeAfter before) event)
    : (nodeAfter events).up = true
      → ArchesMatch (nodeAfter events).world
        ∧ RegistryMatches (nodeAfter events).world
        ∧ LeasesAgree (nodeAfter events).world.disk.leases
            (nodeAfter events).world.kernel.locks := by
  induction events using List.reverseRecOn with
  | nil => nofun
  | append_singleton events event ih =>
      have earlier := ih fun before other after split =>
        settled before other (after ++ [event]) (by rw [split, List.append_assoc, List.cons_append])
      obtain ⟨arches, leases⟩ := settled events event [] rfl
      rw [nodeAfter_concat]
      exact fun running =>
        ⟨ArchesMatch.step event (fun up => (earlier up).1) arches running,
          RegistryMatches.step event (fun up => (earlier up).2.1) running,
          leasesAgree_step event (fun up => (earlier up).2.2) (Reachable.leasesKeyed ⟨_, rfl⟩) leases
            running⟩

/-- In every run whose events settle: what a node that is up holds in memory is what opening would
rebuild from its state directory, at any time.
-/
theorem memory_matches_disk (events : List Event)
    (settled : ∀ before event after, events = before ++ event :: after
      → Settles (nodeAfter before) event)
    (up : (nodeAfter events).up = true) (stateDir nodeId : String) (recoveredPartialLine : Bool)
    (nowMs : UInt64)
    : ∃ rebuilt after,
        RealKernel.open stateDir nodeId recoveredPartialLine nowMs (nodeAfter events).world []
          = (.done rebuilt, after, [])
        ∧ SameMemory (nodeAfter events).world.kernel rebuilt nowMs := by
  obtain ⟨arches, registry, leases⟩ := matches_of_settled events settled up
  have stops : StopInvariant (nodeAfter events) := Reachable.stopInvariant ⟨_, rfl⟩
  refine ⟨_, _, open_working arches.readable, arches.alike, ?_, fun id => ?_, fun id lease => ?_⟩
  · exact (stops.memory up).trans (replayStops_eq stops.tables).symm
  · exact (registry id).trans (replayDevices_registry _ id).symm
  · exact leases.rebuilt (Reachable.leasesKeyed ⟨_, rfl⟩)

end Runs

attribute [local instance] shortLibraries

section Run

private def pressCtx (nowMs : UInt64) : Ctx where
  principal := .machine "n1" "press"
  clearance := ⟨.public, false⟩
  partition := "local"
  nowMs := nowMs

private def starting : Event := .open "state" "n1" false 0 []

private def pressManifest : ArchManifest where
  name := "proof"
  capabilities := {.judge}
  locality := .local
  jurisdiction := "FR"
  retentionDays := none
  costPer1kTokensEur := ⟨0x3F847AE147AE147B⟩
  latencyMsP50 := 1
  contextCeiling := 4096
  determinism := .seededDeterministic
  identity :=
    { weightsSha256 := "sha256:proof", engine := "mock", engineVersion := "1", backend := "cpu"
      quant := "-", kvCache := "-", threads := 1, batch := 1, sampling := ∅, seed := some 1 }
  clearance := ⟨.personal, true⟩
  governed := true

/-- An arch that costs a cent. -/
private def mounting : Event := .call (.mount (mockAdapter pressManifest 4096) 1) []

private def grantAt (nowMs : UInt64) (faults : List Fault) : Event :=
  .call (.lease (pressCtx nowMs) "plate" 10) faults

private def pressLease (number : String) (grantedAtMs fence : UInt64) : Lease where
  id := number
  resource := "plate"
  holder := .machine "n1" "press"
  grantedAtMs := grantedAtMs
  ttlMs := 10
  fence := fence
  partition := "local"

private def renewed : List Event :=
  [starting, mounting, grantAt 5 [], grantAt 6 [.none, .none, .fail "disk full"]]

/-- A renewal that cannot delete the row it supersedes leaves one that it outlasts. -/
theorem memory_matches_disk_after_renewal
    : ∃ rebuilt after,
        RealKernel.open "state" "n1" false 7 (nodeAfter renewed).world []
          = (.done rebuilt, after, [])
        ∧ SameMemory (nodeAfter renewed).world.kernel rebuilt 7 := by
  have up : (nodeAfter renewed).up = true := by decide +kernel
  refine memory_matches_disk renewed (fun before event after split => ?_) up "state" "n1" false 7
  rcases before with _ | ⟨first, _ | ⟨second, _ | ⟨third, _ | ⟨fourth, before⟩⟩⟩⟩
  · cases split
    exact ⟨trivial, trivial⟩
  · cases split
    exact ⟨fun _ _ => ⟨pressManifest, rfl, Or.inl rfl⟩, trivial⟩
  · cases split
    refine ⟨trivial, fun _ _ _ _ _ => ⟨by decide +kernel, ?_, fun _ _ _ fails => ?_⟩⟩
    · rintro ⟨-, reason, refused⟩
      cases refused
    · obtain ⟨-, reason, refused⟩ := fails
      cases refused
  · cases split
    refine ⟨trivial, fun _ granted locks home acquired =>
      ⟨by decide +kernel, ?_, fun swept left _ _ key _ row stored => ?_⟩⟩
    · rintro ⟨-, reason, refused⟩
      cases refused
    have rows : (nodeAfter [starting, mounting, grantAt 5 []]).world.disk.leases.list
        = [("lease-1", pressLease "lease-1" 5 1)] := by
      decide +kernel
    have member := Table.mem_list.mpr stored
    rw [rows, List.mem_singleton] at member
    cases member
    cases acquired
    exact ⟨⟨rfl, rfl⟩, by decide +kernel, by decide +kernel⟩
  · simp [renewed] at split

/-- A lease whose row cannot be written is held in memory only. -/
theorem unwritten_lease_is_held_in_memory
    : ∃ rebuilt after,
        RealKernel.open "state" "n1" false 6
            (nodeAfter [starting, grantAt 5 [.none, .fail "disk full"]]).world []
          = (.done rebuilt, after, [])
        ∧ ¬SameMemory
            (nodeAfter [starting, grantAt 5 [.none, .fail "disk full"]]).world.kernel rebuilt 6 := by
  refine ⟨_, _, open_working (fun id manifest stored => ?_), fun same => ?_⟩
  · change (∅ : Table ArchManifest)[id]? = some manifest at stored
    rw [Std.ExtTreeMap.getElem?_empty] at stored
    cases stored
  · have held := (same.leases "lease-1" (pressLease "lease-1" 5 1)).mp (by decide +kernel)
    revert held
    decide +kernel

end Run

end VerticalAI.Correctness
