import VerticalAI.Kernel.Machine
import VerticalAI.Store.OpenedFiles

/-! Starting the daemon: open the store, bind the endpoint, enrol the node's own device, boot,
and serve on a record that holds.
-/

namespace VerticalAI.Vkd
open VerticalAI.Foundation VerticalAI.Contracts VerticalAI.Store VerticalAI.Kernel

/-- What a start is asked for. -/
structure Args where
  stateDir : String
  nodeId : String
  autoEnrollNode : Bool
  force : Bool

/-- What a start finds: a master key that it may not get, the files of the ledger, an endpoint that
it may not be let have, the key of the node's device or why there is none, and the time at each of
its steps.
-/
structure Surroundings where
  masterKeyRefused : Option String
  ledgerDir : Dir
  bindRefused : Option String
  deviceKey : Except String VerifyingKey
  openedMs : UInt64
  enrolledMs : UInt64
  bootedMs : UInt64

/-- Why a start does not come to serve. -/
inductive Refusal where
  | locked
  | kernel (error : KernelError)
  | bind (reason : String)
  | deviceKey (reason : String)
  | ledger (message : String)

/-- The message with which a start refuses its own ledger. -/
def doesNotVerify (args : Args) (length : Nat) : String :=
  let ledger := joinPath args.stateDir "ledger"
  s!"the ledger chain in {ledger} does not verify ({length} events): a line was rewritten, or the "
    ++ "tail this node last recorded is gone; refusing to serve. Inspect it, restore it from a "
    ++ "backup, or pass --force to serve anyway."

/-- The ledger as a start reads it from its files. The master key comes before. -/
def readLedger [EventReader] (found : Surroundings) : Except String LedgerFs :=
  match found.masterKeyRefused with
  | some reason => .error reason
  | none => (LedgerFs.openIn found.ledgerDir).1

/-- The world whose record is the ledger that was read. -/
def reading (ledger : LedgerFs) (world : World) : World :=
  { world with disk.ledger := ledger.events }

variable [Libraries]

/-- Enrol the node's own device, where that is asked for. -/
def enroll (args : Args) (found : Surroundings) : Program World Refusal Unit :=
  if args.autoEnrollNode then
    match found.deviceKey with
    | .error reason => Program.fail (.deviceKey reason)
    | .ok key => Program.mapError .kernel (enrollNodeKey key found.enrolledMs)
  else Program.pure ()

/-- What stands between an open store and serving. The endpoint comes before the record. -/
def comeUp (args : Args) (found : Surroundings) : Program World Refusal BootReport := do
  match found.bindRefused with
  | some reason => Program.fail (.bind reason)
  | none =>
      enroll args found
      let report ← Program.mapError .kernel (boot found.bootedMs)
      if report.ledgerOk || args.force then return report
      else Program.fail (.ledger (doesNotVerify args report.ledgerLen))

/-- The node that a start leaves. One that does not come to serve is gone. -/
def settle
    : Outcome Refusal BootReport × World × List Fault → Outcome Refusal BootReport × Machine
  | (.done report, world, _) => (.done report, { world, up := true })
  | (.failed refusal, world, _) => (.failed refusal, { world, up := false })
  | (.crashed, world, _) => (.crashed, { world, up := false })

/-- Start the daemon. The lock on the state directory refuses a second one before it reads
anything, and a ledger that cannot be read keeps it from opening the store.
-/
def start [EventReader] (args : Args) (found : Surroundings) (machine : Machine)
    (faults : List Fault)
    : Outcome Refusal BootReport × Machine :=
  if machine.up then (.failed .locked, machine)
  else
    match readLedger found with
    | .error reason => (.failed (.kernel (.store reason)), machine)
    | .ok ledger =>
        match RealKernel.open args.stateDir args.nodeId ledger.recoveredPartialLine found.openedMs
            (reading ledger machine.world) faults with
        | (.done kernel, world, rest) => settle (comeUp args found { world with kernel } rest)
        | (.failed error, world, _) => (.failed (.kernel error), { world, up := false })
        | (.crashed, world, _) => (.crashed, { world, up := false })

end VerticalAI.Vkd
