import VerticalAI.Kernel.Tasks

/-! Opening a node: what a process rebuilds from its state directory before it serves. -/

namespace VerticalAI.Kernel
open VerticalAI.Foundation VerticalAI.Contracts VerticalAI.Store

variable [Libraries]

omit [Libraries] in
/-- The STOP set the two tables hold; a row the set refuses is skipped. -/
def replayStops (stops : Table StopEvent) (resumes : Table ResumeEvent) : StopSet :=
  let known := stops.list.foldl (fun set row => (set.tryAddStop row.2).toOption.getD set) {}
  resumes.list.foldl (fun set row => (set.addResume row.2).toOption.getD set) known

omit [Libraries] in
/-- The key a device row holds, if it is one. -/
def DeviceRow.key (row : DeviceRow) : Option VerifyingKey :=
  (Hex.decode row.vkHex).bind (sized 32)

omit [Libraries] in
/-- The registry of the devices whose rows hold a key. -/
def replayDevices (rows : Table DeviceRow) : DeviceRegistry :=
  rows.list.foldl
    (fun registry row =>
      match row.2.key with
      | some key => registry.register row.1 key
      | none => registry)
    {}

section Leases

/-- Which of two leases on a slot is the newer one. -/
def Lease.supersedes (first second : Lease) : Bool :=
  second.grantedAtMs < first.grantedAtMs
    || second.grantedAtMs = first.grantedAtMs && second.fence ≤ first.fence

/-- The lease rows as they are read: the newest of each slot with its key, the keys of the
others, and the fences they carry.
-/
structure LeaseReplay where
  newest : List (String × Lease) := []
  stale : List String := []
  home : LockHome := {}

/-- Read one lease row. -/
def LeaseReplay.read (replay : LeaseReplay) (nowMs : UInt64) (key : String) (lease : Lease)
    : LeaseReplay :=
  let home := replay.home.restore lease.resource lease.fence
  let sameSlot (row : String × Lease) : Bool :=
    row.2.resource = lease.resource && row.2.partition = lease.partition
  if lease.expired nowMs then { replay with stale := replay.stale ++ [key], home }
  else
    let others := replay.newest.filter fun row => !sameSlot row
    match replay.newest.find? sameSlot with
    | some (previousKey, previous) =>
        if Lease.supersedes previous lease then
          { newest := others ++ [(previousKey, previous)], stale := replay.stale ++ [key], home }
        else { newest := others ++ [(key, lease)], stale := replay.stale ++ [previousKey], home }
    | none => { replay with newest := others ++ [(key, lease)], home }

end Leases

/-- The arch rows as they are read back. -/
def StateDir.archesRead (disk : StateDir) : Table ArchManifest :=
  disk.arches.filterMap fun _ manifest => manifest.readBack.toOption

/-- Why the first arch row that cannot be read back cannot. -/
def StateDir.archRefused (disk : StateDir) : Option String :=
  disk.arches.list.findSome? fun row =>
    match row.2.readBack with
    | .error reason => some reason
    | .ok _ => none

/-- Read the arch rows back, if all of them can be. -/
def StateDir.readArches (disk : StateDir) : Except KernelError (Table ArchManifest) :=
  match disk.archRefused with
  | some reason => .error (.store reason)
  | none => .ok disk.archesRead

omit [Libraries] in
/-- The mock adapters that stand in for the arches on record. -/
def replayArches (rows : Table ArchManifest) : Table ArchAdapter :=
  rows.map fun _ manifest => mockAdapter manifest manifest.contextCeiling

/-- Rebuild the process from the state directory. Nothing of a process that was there before is
read. Leases that are expired or superseded are deleted on the way. A row that cannot be read keeps
the node from opening.
-/
def RealKernel.open (stateDir nodeId : String) (recoveredPartialLine : Bool) (nowMs : UInt64)
    : Syscall RealKernel := do
  let chain ← load fun disk => ({ events := disk.ledger } : Ledger)
  let recorded ← load (·.head)
  let shredded ← load (·.shredded)
  let stops ← load (·.stops)
  let resumes ← load (·.resumes)
  let devices ← load (·.devices)
  let arches ← Program.lift (← load (·.readArches))
  let fences ← load (·.fences)
  let leases ← load (·.leases)
  let home : LockHome :=
    fences.list.foldl (fun home row => home.restore row.1 row.2) {}
  let replay : LeaseReplay :=
    leases.list.foldl (fun replay row => replay.read nowMs row.1 row.2) { home }
  deleteLeases replay.stale
  let counter ← load (·.counter)
  return {
    nodeId, stateDir, chain, recoveredPartialLine, shredded
    ledgerHead := headVerdict recorded chain.events
    clock := HlcClock.new nodeId
    adapters := replayArches arches
    budgets := arches.map fun _ manifest => manifest.contextCeiling
    locks := replay.newest.foldl (fun locks row => locks.restore row.2) {}
    home := replay.home
    devices := replayDevices devices
    stops := replayStops stops resumes
    counter := counter.getD 0 }

end VerticalAI.Kernel
