import VerticalAI.Kernel.Boot
import VerticalAI.Kernel.Namespace

/-! Runs of a node: calls into its kernel, with whatever faults the storage has for each, its
process ending, and its state directory being opened again.
-/

namespace VerticalAI.Kernel
open VerticalAI.Foundation VerticalAI.Contracts VerticalAI.Store

/-- Every call the kernel offers. The clock is read by the call where it has no context. -/
inductive Call where
  | submitTask (ctx : Ctx) (goal : String) (label : Label)
  | readRegister (ctx : Ctx) (id : RegisterId)
  | writeRegister (ctx : Ctx) (reg : Register)
  | infer (ctx : Ctx) (archId : String) (capability : Capability) (regId : RegisterId)
  | lease (ctx : Ctx) (resource : String) (ttlMs : UInt64)
  | approve (ctx : Ctx) (approval : Approval)
  | stop (ctx : Ctx) (scope : String)
  | resume (ctx : Ctx) (stopId : String)
  | runAutomation (ctx : Ctx) (business module : String)
  | promote (ctx : Ctx) (module : ModuleManifest) (verdicts : List GateVerdict)
  | exportModule (ctx : Ctx) (moduleHash : String) (toScope : Scope)
      (verdicts : List GateVerdict)
  | attachArtefact (ctx : Ctx) (regId : RegisterId) (kind : String) (bytes : List UInt8)
  | readArtefact (ctx : Ctx) (hash : String)
  | createTask (ctx : Ctx) (goal artefactType : String) (label : Label)
      (steps : List StepKind)
  | runTaskStep (ctx : Ctx) (taskId : String)
  | approvalSubject (ctx : Ctx) (taskId : String)
  | task (ctx : Ctx) (id : String)
  | tasks (ctx : Ctx)
  | top (ctx : Ctx)
  | resolve (ctx : Ctx) (path : String)
  | mount (adapter : ArchAdapter) (nowMs : UInt64)
  | unmount (archId : String) (nowMs : UInt64)
  | setContextBudget (archId : String) (tokens : UInt32)
  | boot (nowMs : UInt64)
  | enrollDevicePersisted (deviceId : String) (key : VerifyingKey) (nowMs : UInt64)
  | enrollNodeKey (key : VerifyingKey) (nowMs : UInt64)
  | renewLivenessPersisted (business deviceId : String) (expiresAtMs : UInt64)

/-- What a call returns. -/
inductive Reply where
  | unit
  | registerId (id : RegisterId)
  | register (reg : Register)
  | outcome (outcome : InferOutcome)
  | lease (lease : Lease)
  | text (text : String)
  | envelope (envelope : BlobEnvelope)
  | bytes (bytes : List UInt8)
  | task (row : Task)
  | found (row : Option Task)
  | tasks (rows : List Task)
  | top (view : TopView)
  | entry (entry : Entry)
  | report (report : BootReport)

variable [Libraries]

/-- Run a call. -/
def invoke : Call → Syscall Reply
  | .submitTask ctx goal label => .registerId <$> submitTask ctx goal label
  | .readRegister ctx id => .register <$> readRegister ctx id
  | .writeRegister ctx reg => (fun _ => .unit) <$> writeRegister ctx reg
  | .infer ctx archId capability regId => .outcome <$> infer ctx archId capability regId
  | .lease ctx resource ttlMs => .lease <$> lease ctx resource ttlMs
  | .approve ctx approval => (fun _ => .unit) <$> approve ctx approval
  | .stop ctx scope => .text <$> stop ctx scope
  | .resume ctx stopId => (fun _ => .unit) <$> resume ctx stopId
  | .runAutomation ctx business module => (fun _ => .unit) <$> runAutomation ctx business module
  | .promote ctx module verdicts => (fun _ => .unit) <$> promote ctx module verdicts
  | .exportModule ctx moduleHash toScope verdicts =>
      (fun _ => .unit) <$> exportModule ctx moduleHash toScope verdicts
  | .attachArtefact ctx regId kind bytes => .envelope <$> attachArtefact ctx regId kind bytes
  | .readArtefact ctx hash => .bytes <$> readArtefact ctx hash
  | .createTask ctx goal artefactType label steps =>
      .task <$> createTask ctx goal artefactType label steps
  | .runTaskStep ctx taskId => .task <$> runTaskStep ctx taskId
  | .approvalSubject ctx taskId => .text <$> approvalSubject ctx taskId
  | .task ctx id => .found <$> task ctx id
  | .tasks ctx => .tasks <$> tasks ctx
  | .top ctx => .top <$> top ctx
  | .resolve ctx path => .entry <$> resolve ctx path
  | .mount adapter nowMs => .text <$> mount adapter nowMs
  | .unmount archId nowMs => (fun _ => .unit) <$> unmount archId nowMs
  | .setContextBudget archId tokens =>
      (fun _ => .unit) <$> Program.perform (.setBudget archId tokens)
  | .boot nowMs => .report <$> boot nowMs
  | .enrollDevicePersisted deviceId key nowMs =>
      (fun _ => .unit) <$> enrollDevicePersisted deviceId key nowMs
  | .enrollNodeKey key nowMs => (fun _ => .unit) <$> enrollNodeKey key nowMs
  | .renewLivenessPersisted business deviceId expiresAtMs =>
      (fun _ => .unit) <$> renewLivenessPersisted business deviceId expiresAtMs

/-- A node. What a process held is gone once it is down; the kernel of its last process is kept
only because nothing reads it.
-/
structure Machine where
  world : World
  up : Bool

/-- A node with an empty state directory that was never opened. -/
def Machine.fresh : Machine where
  world :=
    { disk := {}
      kernel := { nodeId := "", stateDir := "", clock := HlcClock.new "" } }
  up := false

/-- What happens to a node. -/
inductive Event where
  | call (call : Call) (faults : List Fault)
  | close
  | open (stateDir nodeId : String) (recoveredPartialLine : Bool) (nowMs : UInt64)
      (faults : List Fault)

namespace Machine

/-- What a call into this node answers; a node that is down takes none. -/
def answer (machine : Machine) (call : Call) (faults : List Fault)
    : Option (Outcome KernelError Reply) :=
  if machine.up then some (invoke call machine.world faults).1 else none

/-- A call that lost power takes the process down. The lock on the state directory refuses a
second process.
-/
def step (machine : Machine) (event : Event) : Machine :=
  match event with
  | .call call faults =>
      if !machine.up then machine
      else
        match invoke call machine.world faults with
        | (.crashed, world, _) => { world, up := false }
        | (_, world, _) => { world, up := true }
  | .close => { machine with up := false }
  | .open stateDir nodeId recoveredPartialLine nowMs faults =>
      if machine.up then machine
      else
        match RealKernel.open stateDir nodeId recoveredPartialLine nowMs machine.world faults with
        | (.done kernel, world, _) => { world := { world with kernel }, up := true }
        | (_, world, _) => { world, up := false }

def run (machine : Machine) (events : List Event) : Machine := events.foldl step machine

/-- A call leaves the state its program leaves. -/
theorem step_call_world {machine : Machine} (up : machine.up = true) (call : Call)
    (faults : List Fault)
    : (machine.step (.call call faults)).world = (invoke call machine.world faults).2.1 := by
  simp only [step, up, Bool.not_true, Bool.false_eq_true, if_false]
  rcases invoke call machine.world faults with ⟨_ | _ | _, _, _⟩ <;> rfl

/-- A node that is down takes no calls. -/
theorem step_call_down {machine : Machine} (down : machine.up = false) (call : Call)
    (faults : List Fault)
    : machine.step (.call call faults) = machine := by
  simp only [step, down, Bool.not_false, if_true]

/-- A call that does not lose power leaves the node up. -/
theorem step_call_up {machine : Machine} {call : Call} {faults : List Fault}
    {outcome : Outcome KernelError Reply} (answered : machine.answer call faults = some outcome)
    (alive : outcome ≠ .crashed)
    : machine.up = true ∧ (machine.step (.call call faults)).up = true := by
  unfold answer at answered
  split at answered
  · next up =>
      refine ⟨up, ?_⟩
      simp only [step, up, Bool.not_true, Bool.false_eq_true, if_false]
      obtain rfl := Option.some.inj answered
      rcases ran : invoke call machine.world faults with ⟨_ | _ | _, _, _⟩
      · rfl
      · rfl
      · exact absurd (congrArg Prod.fst ran) alive
  · cases answered

/-- A call that loses power takes the node down. -/
theorem step_call_crashed {machine : Machine} {call : Call} {faults : List Fault}
    (up : machine.up = true) (lost : (invoke call machine.world faults).1 = .crashed)
    : (machine.step (.call call faults)).up = false := by
  simp only [step, up, Bool.not_true, Bool.false_eq_true, if_false]
  rcases ran : invoke call machine.world faults with ⟨outcome, world, rest⟩
  rw [ran] at lost
  obtain rfl : outcome = .crashed := lost
  rfl

theorem answer_up {machine : Machine} (up : machine.up = true) (call : Call)
    (faults : List Fault)
    : machine.answer call faults = some (invoke call machine.world faults).1 := if_pos up

/-- Opening leaves the state directory its program leaves, whether the node comes up or not. -/
theorem step_open_disk {machine : Machine} (down : machine.up = false) (stateDir nodeId : String)
    (recoveredPartialLine : Bool) (nowMs : UInt64) (faults : List Fault)
    : (machine.step (.open stateDir nodeId recoveredPartialLine nowMs faults)).world.disk
      = (RealKernel.open stateDir nodeId recoveredPartialLine nowMs machine.world
          faults).2.1.disk := by
  simp only [step, down, Bool.false_eq_true, if_false]
  rcases RealKernel.open stateDir nodeId recoveredPartialLine nowMs machine.world faults with
    ⟨_ | _ | _, _, _⟩ <;> rfl

theorem run_append (machine : Machine) (first second : List Event)
    : machine.run (first ++ second) = (machine.run first).run second :=
  List.foldl_append

end Machine

/-- A state that some run of a node ends in. -/
def Reachable (machine : Machine) : Prop := ∃ events, machine = Machine.fresh.run events

theorem Reachable.run {machine : Machine} (reachable : Reachable machine) (events : List Event)
    : Reachable (machine.run events) := by
  obtain ⟨earlier, rfl⟩ := reachable
  exact ⟨earlier ++ events, (Machine.run_append _ earlier events).symm⟩

theorem Reachable.step {machine : Machine} (reachable : Reachable machine) (event : Event)
    : Reachable (machine.step event) :=
  reachable.run [event]

/-- What holds of a node never opened and survives every event holds in every reachable state,
by induction on the run.
-/
theorem Reachable.invariant {invariant : Machine → Prop} (initial : invariant .fresh)
    (kept : ∀ machine event, invariant machine → invariant (machine.step event))
    {machine : Machine} (reachable : Reachable machine)
    : invariant machine := by
  obtain ⟨events, rfl⟩ := reachable
  induction events using List.reverseRecOn with
  | nil => exact initial
  | append_singleton events event ih =>
      rw [Machine.run_append]
      exact kept _ event ih

end VerticalAI.Kernel
