import VerticalAI.Foundation.Indifference
import VerticalAI.Kernel.Machine
import VerticalAI.Kernel.Tasks

/-! Processes over one state directory. Opening a store takes the lock on the directory before
anything else is read or written, and the operating system gives the lock back when the process
that holds it drops the store or ends.
-/

namespace VerticalAI.Kernel
open VerticalAI.Foundation VerticalAI.Contracts VerticalAI.Store

/-- What the operating system refuses while a store is opened, if anything: making the state
directory, opening the lock file, restricting it, opening the keys and the tiers.
-/
structure Refusals where
  createDir : Option String := none
  openLock : Option String := none
  restrictLock : Option String := none
  openTiers : Option String := none

/-- Go on unless this was refused. -/
def unlessRefused (refusal : Option String) (context : String) : Except String Unit :=
  match refusal with
  | some reason => .error s!"{context}: {reason}"
  | none => .ok ()

/-- The lock file of a state directory. -/
def lockPath (stateDir : String) : String := joinPath stateDir "lock"

/-- Lock the file at this path unless another open file has it locked. -/
def StoreLock.acquire (held : Bool) (stateDir : String) (refusals : Refusals)
    : Except String Unit := do
  let path := lockPath stateDir
  unlessRefused refusals.openLock s!"take the single-writer lock {path}"
  if held then
    .error (s!"state directory {stateDir} is already open by another vkd: {path} is locked by "
      ++ "another process; stop that daemon or choose another --state-dir")
  unlessRefused refusals.restrictLock s!"restrict {path}"

/-- What stands before a store's tiers are read. -/
def Store.prepare (held : Bool) (stateDir : String) (refusals : Refusals)
    : Except String Unit := do
  unlessRefused refusals.createDir s!"create {stateDir}"
  StoreLock.acquire held stateDir refusals
  unlessRefused refusals.openTiers "open the store"

/-- A locked directory is refused whatever else goes on. -/
theorem prepare_held {stateDir : String} {refusals : Refusals}
    : Store.prepare true stateDir refusals ≠ .ok () := by
  unfold Store.prepare StoreLock.acquire
  rcases refusals with ⟨_ | _, _ | _, _, _⟩ <;> nofun

/-- A state directory, the outside it shares, and the processes that have its store open. -/
structure Host where
  disk : StateDir := {}
  sent : List Sent := []
  draws : Nat := 0
  /-- The process that holds the lock. -/
  lock : Option String := none
  /-- What each process with an open store holds. -/
  stores : Table RealKernel := ∅

/-- What processes do. A process that returns, is killed or drops its store is gone. -/
inductive Action where
  | launch (process stateDir nodeId : String) (recoveredPartialLine : Bool) (nowMs : UInt64)
      (refusals : Refusals) (faults : List Fault)
  | call (process : String) (call : Call) (faults : List Fault)
  | exit (process : String)
  | powerLoss

/-- What a process learns. -/
inductive Answer where
  | opened
  | refused (message : String)
  | failed (error : KernelError)
  | replied (outcome : Outcome KernelError Reply)
  | nothing

namespace Host

/-- What a process holds before it opened a store. -/
def noKernel : RealKernel where
  nodeId := ""
  stateDir := ""
  clock := HlcClock.new ""

/-- The world as a process with this kernel sees it. -/
def world (host : Host) (kernel : RealKernel) : World where
  disk := host.disk
  kernel
  sent := host.sent
  draws := host.draws

/-- What a process leaves of the shared state. -/
def leave (host : Host) (world : World) : Host :=
  { host with disk := world.disk, sent := world.sent, draws := world.draws }

/-- The process keeps its store open. -/
def keep (host : Host) (process : String) (kernel : RealKernel) : Host :=
  { host with lock := some process, stores := host.stores.insert process kernel }

/-- The process is gone, and its lock with it. -/
def drop (host : Host) (process : String) : Host :=
  { host with
    lock := if host.lock = some process then none else host.lock
    stores := host.stores.erase process }

variable [Libraries]

/-- Open the store: lock first, then read. Whatever fails drops the lock again. -/
def launch (host : Host) (process stateDir nodeId : String) (recoveredPartialLine : Bool)
    (nowMs : UInt64) (refusals : Refusals) (faults : List Fault)
    : Answer × Host :=
  match Store.prepare host.lock.isSome stateDir refusals with
  | .error message => (.refused message, host)
  | .ok () =>
      match RealKernel.open stateDir nodeId recoveredPartialLine nowMs (host.world noKernel)
          faults with
      | (.done kernel, world, _) => (.opened, (host.leave world).keep process kernel)
      | (.failed error, world, _) => (.failed error, host.leave world)
      | (.crashed, world, _) => (.nothing, host.leave world)

/-- A call is made by a process on its own open store. -/
def call (host : Host) (process : String) (call : Call) (faults : List Fault)
    : Answer × Host :=
  match host.stores[process]? with
  | none => (.nothing, host)
  | some kernel =>
      match invoke call (host.world kernel) faults with
      | (.crashed, world, _) => (.replied .crashed, (host.leave world).drop process)
      | (outcome, world, _) =>
          (.replied outcome,
            { host.leave world with stores := host.stores.insert process world.kernel })

/-- What an action answers, and the host after it. -/
def perform (host : Host) : Action → Answer × Host
  | .launch process stateDir nodeId recoveredPartialLine nowMs refusals faults =>
      host.launch process stateDir nodeId recoveredPartialLine nowMs refusals faults
  | .call process call faults => host.call process call faults
  | .exit process => (.nothing, host.drop process)
  | .powerLoss => (.nothing, { host with lock := none, stores := ∅ })

def step (host : Host) (action : Action) : Host := (host.perform action).2

def run (host : Host) (actions : List Action) : Host := actions.foldl step host

theorem run_concat (host : Host) (actions : List Action) (action : Action)
    : host.run (actions ++ [action]) = (host.run actions).step action :=
  List.foldl_append

end Host
end VerticalAI.Kernel
