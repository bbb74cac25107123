import VerticalAI.Kernel.State

/-! What every syscall is made of: the record, minted ids, registers, the payload tier and the
devices.
-/

namespace VerticalAI.Kernel
open VerticalAI.Foundation VerticalAI.Contracts VerticalAI.Store

section Access

/-- Read a durable value; a read that fails is a store failure. -/
def load {α : Type} (look : StateDir → α) : Syscall α :=
  Program.fetch .store (fun world => look world.disk)

/-- Read a durable value where a failed read passes for an absent one. -/
def loadOr {α : Type} (absent : α) (look : StateDir → α) : Syscall α := do
  match ← Program.attempt (load look) with
  | .ok value => return value
  | .error _ => return absent

def save (update : Update) : Syscall Unit := Program.persist .store update

def kernel {α : Type} (look : RealKernel → α) : Syscall α :=
  Program.observe (fun world => look world.kernel)

end Access

variable [Libraries]

-----------------------------------------------------------------------------------------
-- The record
-----------------------------------------------------------------------------------------

/-- Append an event, and record it as the head unless the chain has diverged. The append is one write:
its line is on disk whole and the chain has it, or neither. What a cut, a rollback or the sync of a
new segment's directory leave below that is in `LedgerFs`.
-/
def log (kind : String) (wallMs : UInt64) (payload : Json) : Syscall Unit := do
  let node ← kernel id
  let (hlc, clock) := node.clock.now wallMs
  Program.perform (.setClock clock)
  let event := node.chain.nextEvent
    { kind, retention := .operational90d, wallMs, clockQuality := .synced, hlc
      causalHeads := [], payloadHash := hashCanonical payload }
  save (.appendEvent event)
  if node.ledgerHead.isDiverged then return ()
  else Program.persist (fun _ => .store "record the ledger head") (.setHead (LedgerHead.of event))

/-- Mint an id; the counter is stored before the id is used. -/
def nextId (stem : String) : Syscall String := do
  Program.perform .countUp
  let node ← kernel id
  save (.setCounter node.counter)
  return s!"{stem}-{node.nodeId}-{node.counter}"

/-- Does the record hold? -/
def RealKernel.ledgerHolds (node : RealKernel) : Bool :=
  node.chain.verifyChain && !node.ledgerHead.isDiverged

-----------------------------------------------------------------------------------------
-- Registers
-----------------------------------------------------------------------------------------

def submitTask (ctx : Ctx) (goal : String) (label : Label) : Syscall RegisterId := do
  let id := RegisterId.mk (← nextId "reg")
  let taskId ← nextId "task"
  save (.putRegister
    { id, taskId, label, goal, constraints := [], evidence := [], decisions := []
      openQuestions := [], artefacts := [] })
  log "task.submitted" ctx.nowMs (.str id.text)
  return id

omit [Libraries] in
def readRegister (ctx : Ctx) (id : RegisterId) : Syscall Register := do
  match ← load (·.registers[id.text]?) with
  | none => Program.fail (.notFound id.text)
  | some reg =>
      if reg.label.flowsTo ctx.clearance then return reg
      else Program.fail (.i2 s!"register {id.text} exceeds caller clearance")

def writeRegister (ctx : Ctx) (reg : Register) : Syscall Unit := do
  save (.putRegister reg)
  log "register.written" ctx.nowMs (.str reg.id.text)

-----------------------------------------------------------------------------------------
-- The payload tier
-----------------------------------------------------------------------------------------

/-- The storage address of a plaintext under a key id. -/
def blobAddress (keyId : String) (plaintext : List UInt8) : String :=
  hashBytes (Challenge.utf8 keyId ++ 0 :: plaintext)

omit [Libraries] in
/-- `sha256:` and 64 lower-case hexadecimal digits. -/
def validHash (hash : String) : Bool :=
  match Text.stripPrefix "sha256:".toList hash.toList with
  | some digits => digits.length = 64 && digits.all fun digit =>
      ('0' ≤ digit && digit ≤ '9') || ('a' ≤ digit && digit ≤ 'f')
  | none => false

/-- Draw random bytes. -/
def random : Syscall (List UInt8) := do
  let draws ← Program.observe (·.draws)
  Program.perform .draw
  return Entropy.drawn draws

/-- The data key of a subject, made on first use when `create` asks for it. -/
def dekFor (keyId : String) (create : Bool) : Program World StorageError (List UInt8) := do
  let shredded ← Program.observe (·.kernel.shredded)
  if shredded.contains keyId then Program.fail .shredded
  else
    match ← Program.fetch (fun _ => .notFound) (·.disk.dataKeys[keyId]?) with
    | some wrapped =>
        match Cipher.unwrapDek wrapped with
        | some dek => return dek
        | none => Program.fail .notFound
    | none =>
        if !create then Program.fail .notFound
        else
          let draws ← Program.observe (·.draws)
          Program.perform .draw
          Program.perform .draw
          let dek := Entropy.drawn draws
          Program.persist (fun _ => .notFound)
            (.writeDataKey keyId (Cipher.wrap dek (Entropy.drawn (draws + 1))))
          return dek

/-- Seal a plaintext under its subject's data key, at the address that is also its associated
data.
-/
def putBlob (keyId : String) (label : Label) (plaintext : List UInt8)
    : Syscall BlobEnvelope := do
  let dek ← Program.mapError (fun error => .store error.text) (dekFor keyId true)
  let hash := blobAddress keyId plaintext
  let sealed := Cipher.sealUnder dek (Challenge.utf8 hash) plaintext (← random)
  let envelope : BlobEnvelope :=
    { hash, keyId, alg := "xchacha20poly1305", ciphertextLen := UInt64.ofNat sealed.length
      label }
  Program.persist (fun _ => .store "write blob") (.writeBlob hash sealed)
  Program.persist (fun _ => .store "write envelope") (.writeEnvelope envelope)
  return envelope

omit [Libraries] in
def blobEnvelope (hash : String) : Program World StorageError BlobEnvelope := do
  if !validHash hash then Program.fail .notFound
  else
    match ← Program.fetch (fun _ => .notFound) (·.disk.envelopes[hash]?) with
    | some envelope => return envelope
    | none => Program.fail .notFound

/-- The plaintext at an address: the envelope has to name it, the ciphertext to open under it,
and the plaintext to derive it again.
-/
def getBlob (hash : String) : Syscall (List UInt8) := do
  let missing (error : StorageError) : KernelError := .notFound error.text
  let integrity (why : String) : KernelError :=
    .store s!"blob {hash} failed its integrity check: {why}"
  let envelope ← Program.mapError missing (blobEnvelope hash)
  if envelope.hash ≠ hash then
    Program.fail (integrity s!"its envelope names {envelope.hash}")
  else
    let dek ← Program.mapError missing (dekFor envelope.keyId false)
    match ← Program.fetch (fun _ => missing .notFound) (·.disk.blobs[hash]?) with
    | none => Program.fail (missing .notFound)
    | some sealed =>
        match Cipher.openUnder dek (Challenge.utf8 hash) sealed with
        | none =>
            Program.fail (integrity
              "the ciphertext on disk was not sealed under this address")
        | some plaintext =>
            let derived := blobAddress envelope.keyId plaintext
            if derived ≠ hash then
              Program.fail (integrity s!"its plaintext derives {derived}")
            else return plaintext

omit [Libraries] in
/-- An artefact's kind becomes part of a file name, so it has to be a short plain token. -/
def validateArtefactKind (kind : String) : Except KernelError Unit :=
  let plain (char : Char) : Bool :=
    char.isAlphanum || char = '.' || char = '_' || char = '-'
  if kind.toList ≠ [] ∧ (Utf8.encode kind.toList).length ≤ 32
      ∧ kind.toList.head? ≠ some '.' ∧ kind.toList.all plain then .ok ()
  else .error (.gate "artefact kind must be a short plain token")

def attachArtefact (ctx : Ctx) (regId : RegisterId) (kind : String) (bytes : List UInt8)
    : Syscall BlobEnvelope := do
  Program.lift (validateArtefactKind kind)
  let reg ← readRegister ctx regId
  let envelope ← putBlob s!"task:{reg.taskId}" reg.label bytes
  writeRegister ctx
    { reg with artefacts := reg.artefacts ++ [⟨envelope.hash, kind⟩] }
  return envelope

def readArtefact (ctx : Ctx) (hash : String) : Syscall (List UInt8) := do
  let envelope ←
    Program.mapError (fun error => .notFound error.text) (blobEnvelope hash)
  if envelope.label.flowsTo ctx.clearance then getBlob hash
  else Program.fail (.i2 s!"artefact {hash} exceeds caller clearance")

-----------------------------------------------------------------------------------------
-- Devices
-----------------------------------------------------------------------------------------

/-- Enrol a human device: the row, the registry, the record. -/
def enrollDevicePersisted (deviceId : String) (key : VerifyingKey) (nowMs : UInt64)
    : Syscall Unit := do
  save (.putDevice deviceId ⟨Hex.encode key.val, "full"⟩)
  Program.perform (.registerDevice deviceId key)
  log "device.enrolled" nowMs (.str deviceId)

omit [Libraries] in
/-- The device id of this node's own key. -/
def nodeDevice (nodeId : String) : String := s!"node:{nodeId}"

/-- Enrol the node's own key. The same key again is a no-op, a different one is refused. -/
def enrollNodeKey (key : VerifyingKey) (nowMs : UInt64) : Syscall Unit := do
  let id := nodeDevice (← kernel (·.nodeId))
  match ← load (·.devices[id]?) with
  | some row =>
      if row.vkHex = Hex.encode key.val then return ()
      else Program.fail (.i1 s!"device {id} is already enrolled with a different key")
  | none => enrollDevicePersisted id key nowMs

omit [Libraries] in
/-- Renew a business's liveness lease. -/
def renewLivenessPersisted (business deviceId : String) (expiresAtMs : UInt64)
    : Syscall Unit :=
  save (.putLiveness ⟨business, deviceId, expiresAtMs⟩)

end VerticalAI.Kernel
