import VerticalAI.Foundation.Lockstep
import VerticalAI.Kernel.Inference
import VerticalAI.Stub.StubKernel

/-! Scripts of calls that every kernel takes. A script names a register or a STOP by the call that
returned its id, since two kernels need not number their ids alike.
-/

namespace VerticalAI.Stub
open VerticalAI.Foundation VerticalAI.Contracts VerticalAI.Kernel

/-- A call that every kernel takes. A register that is written is filed under the name given. -/
inductive TraitCall (ρ : Type) where
  | submitTask (ctx : Ctx) (goal : String) (label : Label)
  | readRegister (ctx : Ctx) (id : ρ)
  | writeRegister (ctx : Ctx) (id : ρ) (reg : Register)
  | infer (ctx : Ctx) (archId : String) (capability : Capability) (regId : ρ)
  | lease (ctx : Ctx) (resource : String) (ttlMs : UInt64)
  | approve (ctx : Ctx) (approval : Approval)
  | stop (ctx : Ctx) (scope : String)
  | resume (ctx : Ctx) (stopId : ρ)
  | runAutomation (ctx : Ctx) (business module : String)
  | promote (ctx : Ctx) (module : ModuleManifest) (verdicts : List GateVerdict)
  | exportModule (ctx : Ctx) (moduleHash : String) (toScope : Scope)
      (verdicts : List GateVerdict)

/-- The call with its name looked up, if it names anything. -/
def TraitCall.resolve {ρ τ : Type} (name : ρ → Option τ) : TraitCall ρ → Option (TraitCall τ)
  | .submitTask ctx goal label => some (.submitTask ctx goal label)
  | .readRegister ctx id => (name id).map fun id => .readRegister ctx id
  | .writeRegister ctx id reg => (name id).map fun id => .writeRegister ctx id reg
  | .infer ctx archId capability regId =>
      (name regId).map fun regId => .infer ctx archId capability regId
  | .lease ctx resource ttlMs => some (.lease ctx resource ttlMs)
  | .approve ctx approval => some (.approve ctx approval)
  | .stop ctx scope => some (.stop ctx scope)
  | .resume ctx stopId => (name stopId).map fun stopId => .resume ctx stopId
  | .runAutomation ctx business module => some (.runAutomation ctx business module)
  | .promote ctx module verdicts => some (.promote ctx module verdicts)
  | .exportModule ctx moduleHash toScope verdicts =>
      some (.exportModule ctx moduleHash toScope verdicts)

/-- The call as the real kernel takes it. -/
def TraitCall.toCall : TraitCall String → Call
  | .submitTask ctx goal label => .submitTask ctx goal label
  | .readRegister ctx id => .readRegister ctx ⟨id⟩
  | .writeRegister ctx id reg => .writeRegister ctx { reg with id := ⟨id⟩ }
  | .infer ctx archId capability regId => .infer ctx archId capability ⟨regId⟩
  | .lease ctx resource ttlMs => .lease ctx resource ttlMs
  | .approve ctx approval => .approve ctx approval
  | .stop ctx scope => .stop ctx scope
  | .resume ctx stopId => .resume ctx stopId
  | .runAutomation ctx business module => .runAutomation ctx business module
  | .promote ctx module verdicts => .promote ctx module verdicts
  | .exportModule ctx moduleHash toScope verdicts =>
      .exportModule ctx moduleHash toScope verdicts

/-- The call as the stub takes it. -/
def StubKernel.serve [Digest] [SignatureScheme] : TraitCall String → StubCall Reply
  | .submitTask ctx goal label => .registerId <$> submitTask ctx goal label
  | .readRegister ctx id => .register <$> readRegister ctx ⟨id⟩
  | .writeRegister ctx id reg => (fun _ => .unit) <$> writeRegister ctx { reg with id := ⟨id⟩ }
  | .infer ctx archId capability regId => .outcome <$> infer ctx archId capability ⟨regId⟩
  | .lease ctx resource ttlMs => .lease <$> lease ctx resource ttlMs
  | .approve ctx approval => (fun _ => .unit) <$> approve ctx approval
  | .stop ctx scope => .text <$> stop ctx scope
  | .resume ctx stopId => (fun _ => .unit) <$> resume ctx stopId
  | .runAutomation ctx business module => (fun _ => .unit) <$> runAutomation ctx business module
  | .promote ctx module verdicts => (fun _ => .unit) <$> promote ctx module verdicts
  | .exportModule ctx moduleHash toScope verdicts =>
      (fun _ => .unit) <$> exportModule ctx moduleHash toScope verdicts

/-- What a call came to; nothing, where it named what no call had returned. -/
abbrev Response := Option (Outcome KernelError Reply)

/-- The id a call returned. -/
def returnedId : Response → Option String
  | some (.done (.registerId id)) => some id.text
  | some (.done (.text id)) => some id
  | _ => none

/-- The id that the call with this number returned. -/
def named (responses : List Response) (handle : Nat) : Option String :=
  responses[handle]?.bind returnedId

/-- What a refusal names as violated. -/
inductive Ground where
  | i1
  | i2
  | i3
  | i4
  | i4Prime
  | stopped
  | lock
  | principal
  | stop
  | module
  | gate
  | notFound
  | store
  deriving DecidableEq, Repr

/-- The invariant an error names. -/
def ground : KernelError → Ground
  | .i1 _ => .i1
  | .i2 _ => .i2
  | .i3 _ => .i3
  | .i4 _ => .i4
  | .i4Prime _ => .i4Prime
  | .stopped _ => .stopped
  | .lock _ => .lock
  | .principal _ => .principal
  | .stop _ => .stop
  | .module _ => .module
  | .gate _ => .gate
  | .notFound _ => .notFound
  | .store _ => .store

/-- Whether a call was made and refused, and on what ground. -/
inductive Verdict where
  | unnamed
  | accepted
  | refused (ground : Ground)
  | lost
  deriving DecidableEq, Repr

def verdict : Response → Verdict
  | none => .unnamed
  | some (.done _) => .accepted
  | some (.failed error) => .refused (ground error)
  | some .crashed => .lost

/-- A kernel whose storage works, taking scripts. -/
def serving {σ : Type} (take : TraitCall String → Program σ KernelError Reply)
    : Service σ (TraitCall Nat) Response :=
  fun responses state call =>
    match call.resolve (named responses) with
    | none => (none, state)
    | some call =>
        let (outcome, after, _) := take call state []
        (some outcome, after)

/-- What a test does to a kernel before it calls it. -/
inductive Hook where
  | registerArch (manifest : ArchManifest) (nowMs : UInt64)
  | enrollDevice (deviceId : String) (key : VerifyingKey) (nowMs : UInt64)
  | renewLiveness (business deviceId : String) (expiresAtMs : UInt64)
  | setContextBudget (archId : String) (tokens : UInt32)

/-- The hook as the stub has it. -/
def StubKernel.hook [Digest] (stub : StubKernel) : Hook → StubKernel
  | .registerArch manifest _ => stub.registerArch manifest
  | .enrollDevice deviceId key _ => stub.enrollDevice deviceId key
  | .renewLiveness business deviceId expiresAtMs =>
      stub.renewLiveness business deviceId expiresAtMs
  | .setContextBudget archId tokens => stub.setContextBudget archId tokens

/-- The hook as the real kernel has it. -/
def Hook.toCall : Hook → Call
  | .registerArch manifest nowMs => .mount (mockAdapter manifest manifest.contextCeiling) nowMs
  | .enrollDevice deviceId key nowMs => .enrollDevicePersisted deviceId key nowMs
  | .renewLiveness business deviceId expiresAtMs =>
      .renewLivenessPersisted business deviceId expiresAtMs
  | .setContextBudget archId tokens => .setContextBudget archId tokens

/-- A test of both kernels: where the real one is opened and when, the node each believes it is,
and the hooks.
-/
structure Setup where
  stateDir : String
  openedMs : UInt64
  realNode : String
  stubNode : String
  hooks : List Hook

namespace Setup

variable [Libraries]

/-- The hooks of a real kernel; one that fails stops the test. -/
def hookAll : List Hook → Syscall Unit
  | [] => return ()
  | hook :: rest => do
      let _ ← invoke hook.toCall
      hookAll rest

/-- The real kernel opened over an empty directory. -/
def opened (setup : Setup) : World :=
  (Machine.fresh.step (.open setup.stateDir setup.realNode false setup.openedMs [])).world

/-- The hooks of the real kernel did not stop the test. -/
def Started (setup : Setup) : Prop := (hookAll setup.hooks setup.opened []).1 = .done ()

/-- The real kernel that the script starts from. -/
def world (setup : Setup) : World := (hookAll setup.hooks setup.opened []).2.1

/-- The stub that the script starts from. -/
def stub (setup : Setup) : StubKernel :=
  setup.hooks.foldl StubKernel.hook (.new setup.stubNode)

/-- The script on the stub. -/
def onStub (setup : Setup) (script : List (TraitCall Nat)) : Served StubKernel Response :=
  .script (serving StubKernel.serve) setup.stub script

/-- The script on the real kernel. -/
def onReal (setup : Setup) (script : List (TraitCall Nat)) : Served World Response :=
  .script (serving fun call => invoke call.toCall) setup.world script

end Setup

/-- The call asks a mounted arch about a register that is there, and the label flows to the arch. -/
structure Reaches (served : Served World Response) (call : TraitCall Nat) (ctx : Ctx)
    (archId : String) (capability : Capability) (adapter : ArchAdapter) (reg : Register)
    : Prop where
  asks : ∃ handle regId, call = .infer ctx archId capability handle
    ∧ named served.answers handle = some regId
    ∧ served.state.disk.registers[regId]? = some reg
  mounted : served.state.kernel.adapters[archId]? = some adapter
  flows : reg.label.flowsTo adapter.manifest.clearance = true

/-- The budget takes the prompt the call would send, so that nothing is projected. -/
def Ample (served : Served World Response) (call : TraitCall Nat) : Prop :=
  ∀ ctx archId capability adapter reg,
    Reaches served call ctx archId capability adapter reg
    → reg.label.flowsTo ctx.clearance = true
    → adapter.countTokens (lower reg (roleOf capability).toList)
      ≤ served.state.kernel.budgetFor archId adapter

/-- A caller that gets as far as the arch is cleared for the register as well. -/
def CallerCleared (served : Served World Response) (call : TraitCall Nat) : Prop :=
  ∀ ctx archId capability adapter reg,
    Reaches served call ctx archId capability adapter reg
    → reg.label.flowsTo ctx.clearance = true

end VerticalAI.Stub
