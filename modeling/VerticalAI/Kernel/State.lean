import VerticalAI.Contracts.Interceptors
import VerticalAI.Contracts.Ledger
import VerticalAI.Contracts.Storage
import VerticalAI.Foundation.Program
import VerticalAI.Kernel.Arch
import VerticalAI.Store.RecordedHead

/-! The state of a node: what its state directory holds, what its process holds in memory, what
it has handed to the outside, and the updates that change them.
-/

namespace VerticalAI.Kernel
open VerticalAI.Foundation VerticalAI.Contracts VerticalAI.Store

-----------------------------------------------------------------------------------------
-- Rows
-----------------------------------------------------------------------------------------

/-- An enrolled human device, as the `devices` table stores it. -/
structure DeviceRow where
  vkHex : String
  trustClass : String
  deriving DecidableEq, Repr

/-- Cumulative call counters of an arch. -/
structure ArchStats where
  calls : UInt64 := 0
  tokensIn : UInt64 := 0
  projected : UInt64 := 0
  deriving DecidableEq, Repr

inductive StepKind where
  | plan (archId : String)
  | draft (archId : String)
  | judge (archId : String)
  | harness (name : String)
  | approve
  | release (toDir : String)
  deriving DecidableEq, Repr

inductive StepStatus where
  | pending
  | running
  | waitingHuman
  | done
  | failed (reason : String)
  deriving DecidableEq, Repr

structure Step where
  kind : StepKind
  status : StepStatus
  startedMs : Option UInt64
  endedMs : Option UInt64
  tokens : UInt32
  deriving DecidableEq, Repr

inductive TaskStatus where
  | queued
  | running
  | waitingHuman
  | done
  | failed
  | stopped
  deriving DecidableEq, Repr

/-- A status as the wire spells it. -/
def TaskStatus.name : TaskStatus → String
  | .queued => "queued"
  | .running => "running"
  | .waitingHuman => "waiting_human"
  | .done => "done"
  | .failed => "failed"
  | .stopped => "stopped"

structure Task where
  id : String
  register : RegisterId
  goal : String
  artefactType : String
  steps : List Step
  status : TaskStatus
  createdMs : UInt64
  deriving DecidableEq, Repr

-----------------------------------------------------------------------------------------
-- The node
-----------------------------------------------------------------------------------------

/-- What the state directory holds: the tables of the metadata tier, the families of its `kv`
table, the ledger, the payload tier and the exports. A row is what was written; only in the text of
an arch's can something else be read. The ledger is the events whose lines are whole in its segments;
segments that do not read are in `LedgerFs`.
-/
structure StateDir where
  arches : Table ArchManifest := ∅
  registers : Table Register := ∅
  tasks : Table Task := ∅
  leases : Table Lease := ∅
  approvals : Table Approval := ∅
  stops : Table StopEvent := ∅
  resumes : Table ResumeEvent := ∅
  liveness : Table LivenessLease := ∅
  devices : Table DeviceRow := ∅
  hot : Table ModuleManifest := ∅
  counter : Option UInt64 := none
  fences : Table UInt64 := ∅
  stats : Table ArchStats := ∅
  policiesVersion : Option String := none
  head : Option LedgerHead := none
  ledger : List LedgerEvent := []
  dataKeys : Table (List UInt8) := ∅
  shredded : Table Unit := ∅
  blobs : Table (List UInt8) := ∅
  envelopes : Table BlobEnvelope := ∅
  exportDirs : Table Unit := ∅
  exports : Table (List UInt8) := ∅

/-- What the process holds. `counter` numbers the ids it mints, and starts over after 2^64 of them. -/
structure RealKernel where
  nodeId : String
  /-- The path of the state directory. -/
  stateDir : String
  chain : Ledger := {}
  ledgerHead : HeadVerdict := .unrecorded
  /-- Opening the ledger dropped an unterminated last line. -/
  recoveredPartialLine : Bool := false
  shredded : Table Unit := ∅
  clock : HlcClock
  adapters : Table ArchAdapter := ∅
  budgets : Table UInt32 := ∅
  locks : LockTable := {}
  home : LockHome := {}
  devices : DeviceRegistry := {}
  stops : StopSet := {}
  inferLog : List (String × Label) := []
  counter : UInt64 := 0

/-- A prompt that an adapter was called with. -/
structure Sent where
  archId : String
  prompt : List Char
  maxTokens : UInt32
  deriving DecidableEq, Repr

structure World where
  disk : StateDir
  kernel : RealKernel
  /-- The calls adapters have received. -/
  sent : List Sent := []
  /-- How much randomness was drawn. -/
  draws : Nat := 0

/-- One change to the state. Those of the first groups are durable. -/
inductive Update where
  | putArch (id : String) (manifest : ArchManifest)
  | deleteArch (id : String)
  | putRegister (reg : Register)
  | putTask (task : Task)
  | putLease (lease : Lease)
  | deleteLease (key : String)
  | putApproval (key : String) (approval : Approval)
  | putStop (event : StopEvent)
  | putResume (event : ResumeEvent)
  | putLiveness (lease : LivenessLease)
  | putDevice (id : String) (row : DeviceRow)
  | putHot (subject : String) (module : ModuleManifest)
  | setCounter (value : UInt64)
  | setFence (resource : String) (fence : UInt64)
  | setStats (archId : String) (stats : ArchStats)
  | setPoliciesVersion (version : String)
  | setHead (head : LedgerHead)
  | appendEvent (event : LedgerEvent)
  | writeDataKey (keyId : String) (wrapped : List UInt8)
  | writeBlob (hash : String) (sealed : List UInt8)
  | writeEnvelope (envelope : BlobEnvelope)
  | createDir (path : String)
  | writeExport (path : String) (bytes : List UInt8)
  | setClock (clock : HlcClock)
  | mountAdapter (id : String) (adapter : ArchAdapter)
  | unmountAdapter (id : String)
  | setBudget (id : String) (tokens : UInt32)
  | setLocks (locks : LockTable) (home : LockHome)
  | registerDevice (id : String) (key : VerifyingKey)
  | setStops (stops : StopSet)
  | pushInferLog (archId : String) (label : Label)
  | countUp
  | send (sent : Sent)
  | draw

namespace World

def onDisk (world : World) (change : StateDir → StateDir) : World :=
  { world with disk := change world.disk }

def inKernel (world : World) (change : RealKernel → RealKernel) : World :=
  { world with kernel := change world.kernel }

end World

def Update.apply (update : Update) (world : World) : World :=
  match update with
  | .putArch id manifest =>
      world.onDisk fun disk => { disk with arches := disk.arches.insert id manifest }
  | .deleteArch id => world.onDisk fun disk => { disk with arches := disk.arches.erase id }
  | .putRegister reg =>
      world.onDisk fun disk =>
        { disk with registers := disk.registers.insert reg.id.text reg }
  | .putTask task =>
      world.onDisk fun disk => { disk with tasks := disk.tasks.insert task.id task }
  | .putLease lease =>
      world.onDisk fun disk => { disk with leases := disk.leases.insert lease.id lease }
  | .deleteLease key => world.onDisk fun disk => { disk with leases := disk.leases.erase key }
  | .putApproval key approval =>
      world.onDisk fun disk => { disk with approvals := disk.approvals.insert key approval }
  | .putStop event =>
      world.onDisk fun disk => { disk with stops := disk.stops.insert event.id event }
  | .putResume event =>
      world.onDisk fun disk => { disk with resumes := disk.resumes.insert event.id event }
  | .putLiveness lease =>
      world.onDisk fun disk =>
        { disk with liveness := disk.liveness.insert lease.business lease }
  | .putDevice id row =>
      world.onDisk fun disk => { disk with devices := disk.devices.insert id row }
  | .putHot subject module =>
      world.onDisk fun disk => { disk with hot := disk.hot.insert subject module }
  | .setCounter value => world.onDisk fun disk => { disk with counter := some value }
  | .setFence resource fence =>
      world.onDisk fun disk => { disk with fences := disk.fences.insert resource fence }
  | .setStats archId stats =>
      world.onDisk fun disk => { disk with stats := disk.stats.insert archId stats }
  | .setPoliciesVersion version =>
      world.onDisk fun disk => { disk with policiesVersion := some version }
  | .setHead head => world.onDisk fun disk => { disk with head := some head }
  | .appendEvent event =>
      (world.onDisk fun disk => { disk with ledger := disk.ledger ++ [event] }).inKernel
        fun kernel => { kernel with chain := kernel.chain.pushVerified event }
  | .writeDataKey keyId wrapped =>
      world.onDisk fun disk => { disk with dataKeys := disk.dataKeys.insert keyId wrapped }
  | .writeBlob hash sealed =>
      world.onDisk fun disk => { disk with blobs := disk.blobs.insert hash sealed }
  | .writeEnvelope envelope =>
      world.onDisk fun disk =>
        { disk with envelopes := disk.envelopes.insert envelope.hash envelope }
  | .createDir path =>
      world.onDisk fun disk => { disk with exportDirs := disk.exportDirs.insert path () }
  | .writeExport path bytes =>
      world.onDisk fun disk => { disk with exports := disk.exports.insert path bytes }
  | .setClock clock => world.inKernel fun kernel => { kernel with clock }
  | .mountAdapter id adapter =>
      world.inKernel fun kernel =>
        { kernel with adapters := kernel.adapters.insert id adapter }
  | .unmountAdapter id =>
      world.inKernel fun kernel =>
        { kernel with
          adapters := kernel.adapters.erase id
          budgets := kernel.budgets.erase id }
  | .setBudget id tokens =>
      world.inKernel fun kernel => { kernel with budgets := kernel.budgets.insert id tokens }
  | .setLocks locks home => world.inKernel fun kernel => { kernel with locks, home }
  | .registerDevice id key =>
      world.inKernel fun kernel => { kernel with devices := kernel.devices.register id key }
  | .setStops stops => world.inKernel fun kernel => { kernel with stops }
  | .pushInferLog archId label =>
      world.inKernel fun kernel =>
        { kernel with inferLog := kernel.inferLog ++ [(archId, label)] }
  | .countUp => world.inKernel fun kernel => { kernel with counter := kernel.counter + 1 }
  | .send sent => { world with sent := world.sent ++ [sent] }
  | .draw => { world with draws := world.draws + 1 }

instance : Updates World Update := ⟨Update.apply⟩

/-- A call into the kernel. -/
abbrev Syscall (α : Type) := Program World KernelError α

-----------------------------------------------------------------------------------------
-- Libraries
-----------------------------------------------------------------------------------------

/-- The authenticated cipher that seals the payload tier, with the key that wraps data keys. -/
class Cipher where
  wrap : (dataKey nonce : List UInt8) → List UInt8
  unwrapDek : (wrapped : List UInt8) → Option (List UInt8)
  sealUnder : (dataKey associated plaintext nonce : List UInt8) → List UInt8
  openUnder : (dataKey associated sealed : List UInt8) → Option (List UInt8)

/-- The operating system's randomness, draw by draw. -/
class Entropy where
  drawn : Nat → List UInt8

/-- What the kernel takes from libraries. -/
class Libraries extends Digest, SignatureScheme, Cipher, Entropy, FloatText, Text.CharTables

/-- Libraries for concrete runs: hashes and ciphertexts are the bytes themselves, a signature is
the key and the first half of the message, the randomness is the number of the draw, floats are
read back as they were written, and Latin letters are printable.
-/
@[reducible] def plainLibraries : Libraries where
  sha256 bytes := bytes
  verifies key message signature := signature.val = key.val ++ message.take 32
  wrap dataKey nonce := nonce ++ dataKey
  unwrapDek wrapped := some (wrapped.drop 32)
  sealUnder dataKey associated plaintext nonce := nonce ++ dataKey ++ associated ++ plaintext
  openUnder dataKey associated sealed :=
    let header := dataKey ++ associated
    if header.isPrefixOf (sealed.drop 32) then some (sealed.drop (32 + header.length)) else none
  drawn count := List.replicate 32 (UInt8.ofNat count)
  reread float := .ok float
  shown char := 160 ≤ char.toNat ∧ char.toNat ≠ 173

/-- The same with hashes of the usual length: the first 32 bytes. -/
@[reducible] def shortLibraries : Libraries :=
  { plainLibraries with sha256 := fun bytes => bytes.take 32 }

end VerticalAI.Kernel
