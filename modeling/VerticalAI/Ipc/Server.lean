import VerticalAI.Ipc.Challenges
import VerticalAI.Kernel.Footprint

/-! The kernel's side of a request: whom its presence proof makes the caller, and what its method
does.
-/

namespace VerticalAI.Ipc
open VerticalAI.Foundation VerticalAI.Contracts VerticalAI.Kernel

-----------------------------------------------------------------------------------------
-- Requests
-----------------------------------------------------------------------------------------

/-- Proof that the key of an enrolled device was present for one request. -/
structure PresenceProof where
  deviceId : String
  nonce : String
  signatureHex : String
  deriving DecidableEq, Repr

/-- What the device signs. -/
def PresenceProof.message [Digest] (nonce : String) : List UInt8 :=
  Challenge.utf8 (hashBytes (Challenge.utf8 s!"presence|{nonce}"))

/-- The parameters of a request as the server reads them: texts and numbers by their names, the
steps and the approval as they decode or with the reason they do not.
-/
structure Params where
  text : String → Option String
  number : String → Option UInt64
  steps : Except String (List StepKind)
  approval : Except String Approval

structure Request where
  method : String
  params : Params
  presence : Option PresenceProof

/-- A proof whose nonce was taken, with the verdict of that. -/
structure Presented where
  proof : PresenceProof
  nonce : Except RpcError Unit

def takesPresence (method : String) : Bool :=
  method ∈ ["task.create", "task.step", "stop", "resume", "approve"]

/-- A text parameter that has to be there. -/
def Params.required (params : Params) (name : String) : Except RpcError String :=
  match params.text name with
  | some text => .ok text
  | none => .error (bad name)

-----------------------------------------------------------------------------------------
-- Principals
-----------------------------------------------------------------------------------------

/-- Machine by default, and human for the one request whose proof was made with the enrolled key
of its device over a nonce that was taken in time.
-/
def principalFor [Digest] [SignatureScheme] (node : RealKernel)
    : Option Presented → Except RpcError Principal
  | none => .ok (.machine node.nodeId "cli")
  | some presented =>
      match presented.nonce with
      | .error error => .error error
      | .ok () =>
          match signatureOfHex presented.proof.signatureHex with
          | none => .error (invariant "I1: presence signature is not 64 bytes of hex")
          | some signature =>
              match node.devices.verify presented.proof.deviceId
                  (PresenceProof.message presented.proof.nonce) signature with
              | .error error => .error (invariant s!"I1: {error.text}")
              | .ok () => .ok (.human presented.proof.deviceId)

/-- The only place a context is built. -/
def ctxFor [Digest] [SignatureScheme] (node : RealKernel) (presence : Option Presented)
    (now : UInt64)
    : Except RpcError Ctx :=
  match principalFor node presence with
  | .error error => .error error
  | .ok principal =>
      .ok { principal, clearance := ⟨.personal, true⟩, partition := "local", nowMs := now }

-----------------------------------------------------------------------------------------
-- Methods
-----------------------------------------------------------------------------------------

/-- A kernel error as the wire reports it. -/
def kerr (error : KernelError) : RpcError :=
  let code := match error with
    | .notFound _ => eNotFound
    | .store _ => eStore
    | _ => eInvariant
  ⟨code, error.text⟩

/-- The text of an error that a host function reports. -/
def hostText : KernelError → String
  | .store reason => reason
  | error => error.text

structure BootInfo where
  nodeId : String
  arches : Nat
  devices : Nat
  ledgerLen : Nat
  ledgerOk : Bool
  recoveredPartialLine : Bool
  stoppedScopes : List String
  policiesVersion : Option String
  stateDir : String
  exportRoot : String

/-- What a request is answered with. -/
inductive Answer where
  | info (info : BootInfo)
  | entry (entry : Kernel.Entry)
  | arches (rows : List (String × ArchManifest))
  | archId (id : String)
  | ok
  | task (row : Task)
  | subject (hash : String)
  | tasks (rows : List Task)
  | top (view : TopView)
  | stopId (id : String)
  | enrolled (deviceId : String)
  | events (events : List LedgerEvent)
  | verified (ok : Bool) (len : Nat)
  | challenge (nonce : String) (expiresAtMs : UInt64)

/-- The manifest of an arch that is mounted for tests and demonstrations. -/
def mockManifest (name : String) (ceiling : UInt32) : ArchManifest where
  name
  capabilities := {.generate, .plan, .judge}
  locality := .local
  jurisdiction := "FR"
  retentionDays := none
  costPer1kTokensEur := 0
  latencyMsP50 := 1
  contextCeiling := ceiling
  determinism := .seededDeterministic
  identity :=
    { weightsSha256 := s!"sha256:mock-{name}", engine := "mock", engineVersion := "1"
      backend := "cpu", quant := "-", kvCache := "-", threads := 1, batch := 1, sampling := ∅
      seed := some 1 }
  clearance := ⟨.holdout, true⟩
  governed := true

/-- The context ceiling a mount asks for, if it fits. -/
def ceilingOf (params : Params) : Except RpcError UInt32 :=
  match params.number "context_ceiling" with
  | none => .ok 4096
  | some asked => if asked.toNat < 2 ^ 32 then .ok asked.toUInt32 else .error (bad "context_ceiling")

/-- The verifying key that a hexadecimal text spells. -/
def keyOfHex (text : String) : Except RpcError VerifyingKey :=
  match (Hex.decode text).bind (sized 32) with
  | some key => .ok key
  | none => .error (bad "vk_hex must be 32 bytes of hex")

variable [Libraries]

/-- Run a call of the kernel; its error becomes the request's. -/
def syscall {α : Type} (program : Syscall α) : Program World RpcError α :=
  Program.mapError kerr program

def bootInfo : Program World RpcError Answer := do
  let node ← Program.observe (·.kernel)
  let policiesVersion ← syscall (loadOr none (·.policiesVersion))
  return .info {
    nodeId := node.nodeId
    arches := node.arches.length
    devices := node.devices.ids.length
    ledgerLen := node.chain.events.length
    ledgerOk := node.ledgerHolds
    recoveredPartialLine := node.recoveredPartialLine
    stoppedScopes := node.stops.stoppedScopes
    policiesVersion
    stateDir := node.stateDir
    exportRoot := node.exportRoot }

/-- Only the node's own device; any other would let a process of the same user mint humans. -/
def enrollNode (params : Params) (kernelNow : UInt64) : Program World RpcError Answer := do
  let id ← Program.lift (params.required "device_id")
  let key ← Program.lift ((params.required "vk_hex").bind keyOfHex)
  let node ← Program.observe (·.kernel)
  if id ≠ nodeDevice node.nodeId then
    Program.fail (invariant
      "I1: only the node's own device may be enrolled over the local endpoint")
  else
    syscall (enrollNodeKey key kernelNow)
    return .enrolled id

/-- What a request does under the kernel's lock. The clock was read when the request arrived, and
is read again by the calls that have no context.
-/
def serve (request : Request) (presence : Option Presented) (now kernelNow : UInt64)
    : Program World RpcError Answer := do
  let node ← Program.observe (·.kernel)
  let params := request.params
  match request.method with
  | "boot.info" => bootInfo
  | "ns.ls" =>
      let ctx ← Program.lift (ctxFor node presence now)
      .entry <$> syscall (resolve ctx ((params.text "path").getD "/"))
  | "arch.ls" => return .arches node.arches
  | "arch.mount_mock" =>
      let ceiling ← Program.lift (ceilingOf params)
      let adapter := mockAdapter (mockManifest ((params.text "name").getD "mock") ceiling) ceiling
      .archId <$> Program.mapError (bad <| hostText ·) (mount adapter kernelNow)
  | "arch.unmount" =>
      let id ← Program.lift (params.required "arch_id")
      Program.mapError (⟨eStore, hostText ·⟩) (unmount id kernelNow)
      return .ok
  | "task.create" =>
      let ctx ← Program.lift (ctxFor node presence now)
      let goal ← Program.lift (params.required "goal")
      let artefactType := (params.text "artefact_type").getD "note"
      let steps ← Program.lift (params.steps.mapError fun reason => bad s!"steps: {reason}")
      .task <$> syscall (createTask ctx goal artefactType .bottom steps)
  | "task.step" =>
      let ctx ← Program.lift (ctxFor node presence now)
      let id ← Program.lift (params.required "task_id")
      .task <$> syscall (runTaskStep ctx id)
  | "task.subject" =>
      let ctx ← Program.lift (ctxFor node presence now)
      let id ← Program.lift (params.required "task_id")
      .subject <$> syscall (approvalSubject ctx id)
  | "task.show" =>
      let ctx ← Program.lift (ctxFor node presence now)
      let id ← Program.lift (params.required "task_id")
      match ← syscall (task ctx id) with
      | some row => return .task row
      | none => Program.fail (notFound id)
  | "task.ls" =>
      let ctx ← Program.lift (ctxFor node presence now)
      .tasks <$> syscall (tasks ctx)
  | "top" =>
      let ctx ← Program.lift (ctxFor node presence now)
      .top <$> syscall (top ctx)
  | "stop" =>
      let ctx ← Program.lift (ctxFor node presence now)
      .stopId <$> syscall (stop ctx ((params.text "scope").getD "node"))
  | "resume" =>
      let ctx ← Program.lift (ctxFor node presence now)
      let id ← Program.lift (params.required "stop_id")
      syscall (resume ctx id)
      return .ok
  | "approve" =>
      let ctx ← Program.lift (ctxFor node presence now)
      let approval ←
        Program.lift (params.approval.mapError fun reason => bad s!"approval: {reason}")
      -- The other kinds are the harness's and the auditor's to record.
      if approval.kind ≠ .human then
        Program.fail (bad "only human approvals are accepted over the transport")
      else
        syscall (approve ctx approval)
        return .ok
  | "device.enroll_node" => enrollNode params kernelNow
  | "ledger.tail" =>
      let asked := ((params.number "n").map (·.toNat)).getD 50
      return .events (node.chain.events.drop (node.chain.events.length - asked))
  | "ledger.verify" => return .verified node.ledgerHolds node.chain.events.length
  | method => Program.fail ⟨eMethod, s!"unknown method {method}"⟩

end VerticalAI.Ipc
