import VerticalAI.Cli.TaskCommand
import VerticalAI.Ipc.Daemon

/-! The verbs of the shell that need a human: each asks the daemon for a nonce and sends its request
with a proof over it, made with the key of this node's device.
-/

namespace VerticalAI.Cli
open VerticalAI.Foundation VerticalAI.Contracts VerticalAI.Kernel VerticalAI.Ipc

/-- How long an approval challenge stays answerable. -/
def approvalTtlMs : UInt64 := 60000

/-- A key that signs for a human: what it signs verifies under its public half. -/
structure HumanKey [SignatureScheme] where
  deviceId : String
  verifyingKey : VerifyingKey
  sign : List UInt8 → Signature
  verifies : ∀ message, SignatureScheme.verifies verifyingKey message (sign message) = true

variable [Libraries]

/-- Proof that the device's key was present for the next request. -/
def proofBy (key : HumanKey) (nonce : String) : PresenceProof where
  deviceId := key.deviceId
  nonce
  signatureHex := Hex.encode (key.sign (PresenceProof.message nonce)).val

/-- A request with these parameters and no proof. -/
def plain (method : String) (params : Params) : Request where
  method
  params
  presence := none

def noParams : Params where
  text _ := none
  number _ := none
  steps := .error "missing field"
  approval := .error "missing field"

/-- What is around the requests of a command, by their number: the turns that others take before one
arrives and before it is finished, from the state they find, and the times of both.
-/
structure Interleaving where
  before : Nat → Daemon → List Turn
  during : Nat → Daemon → List Turn
  arrives : Nat → UInt64
  finishes : Nat → UInt64

/-- What others do while a request of the command is under way: they do not finish it. -/
def Interleaving.meanwhile (around : Interleaving) (k number : Nat) (daemon : Daemon) : List Turn :=
  (around.during k daemon).filter fun turn => !turn.finishes number

/-- Finish a request that is under way and read its answer. -/
def answered (number : Nat) (nonce : String) (now : UInt64) : Program Daemon Failure Answer :=
  fun daemon faults =>
    match daemon.entry number with
    | none => (.failed .closed, daemon, faults)
    | some entry =>
        match (daemon.without number).dispatch entry nonce now faults with
        | (.done answer, after) => (.done answer, after, [])
        | (.failed error, after) => (.failed (.refused error), after, [])
        | (.crashed, after) => (.failed .closed, after, [])

/-- Send a request and read its answer. -/
def ask (around : Interleaving) (k : Nat) (request : Request) (nonce : String)
    : Program Daemon Failure Answer :=
  fun daemon faults =>
    let daemon := daemon.run (around.before k daemon)
    let number := daemon.arrived
    let daemon := daemon.step (.arrive request (around.arrives k))
    let daemon := daemon.run (around.meanwhile k number daemon)
    answered number nonce (around.finishes k) daemon faults

/-- Asking is a run of the daemon: others' turns, the request's arrival, others' turns and its end. -/
theorem ask_run (around : Interleaving) (k : Nat) (request : Request) (nonce : String)
    (daemon : Daemon) (faults : List Fault)
    : ∃ first second number, (ask around k request nonce daemon faults).2.1
        = daemon.run (first ++ .arrive request (around.arrives k) :: second
          ++ [.finish number nonce (around.finishes k) faults]) := by
  let first := around.before k daemon
  let number := (daemon.run first).arrived
  let waiting := (daemon.run first).step (.arrive request (around.arrives k))
  let second := around.meanwhile k number waiting
  refine ⟨first, second, number, ?_⟩
  rw [Daemon.run_concat, Daemon.run_append]
  change (answered number nonce (around.finishes k) (waiting.run second) faults).2.1
    = (waiting.run second).step (.finish number nonce (around.finishes k) faults)
  rw [answered, Daemon.step]
  cases (waiting.run second).entry number with
  | none => rfl
  | some entry =>
      dsimp only
      rcases ((waiting.run second).without number).dispatch entry nonce (around.finishes k) faults with
        ⟨_ | _ | _, after⟩ <;> rfl

/-- What the daemon says of itself. -/
def info (around : Interleaving) (k : Nat) : Program Daemon Failure BootInfo := do
  match ← ask around k (plain "boot.info" noParams) "" with
  | .info info => return info
  | _ => Program.fail .malformed

/-- A nonce that the daemon issues. -/
def challenge (around : Interleaving) (k : Nat)
    (nonce : String) : Program Daemon Failure String := do
  match ← ask around k (plain "presence.challenge" noParams) nonce with
  | .challenge nonce _ => return nonce
  | _ => Program.fail .malformed

/-- This node's own device: the daemon says which node it is. -/
def device (keyring : String → HumanKey) (around : Interleaving) (k : Nat)
    : Program Daemon Failure HumanKey := do
  return keyring (← info around k).nodeId

/-- What this task waits to have approved. -/
def subject (taskId : String) (around : Interleaving)
    (k : Nat) : Program Daemon Failure String := do
  match ← ask around k (plain "task.subject" (taskParams taskId)) "" with
  | .subject hash => return hash
  | _ => Program.fail .malformed

/-- The approval of a subject, signed over a challenge that lasts from now on. -/
def approvalBy (key : HumanKey) (taskId subject nonce : String) (nowMs : UInt64) : Approval :=
  let challenge : Challenge :=
    { resource := s!"task:{taskId}", actionDigest := subject, nonce
      expiresAtMs := nowMs + approvalTtlMs }
  { subjectHash := subject
    kind := .human
    approver := .human key.deviceId
    challenge := some challenge
    signatureHex := some (Hex.encode (key.sign challenge.digest).val) }

/-- `vk approve`: learn what the scheduler waits to have approved, then sign it. One nonce carries
both signatures.
-/
def approve (keyring : String → HumanKey) (taskId : String) (around : Interleaving)
    (signedMs : UInt64) (nonce : String)
    : Program Daemon Failure String := do
  let key ← device keyring around 0
  let subject ← subject taskId around 1
  let nonce ← challenge around 2 nonce
  let approval := approvalBy key taskId subject nonce signedMs
  let params := { noParams with approval := .ok approval }
  match ← ask around 3 ⟨"approve", params, some (proofBy key nonce)⟩ "" with
  | .ok => return subject
  | _ => Program.fail .malformed

/-- `vk task step`. -/
def stepOnce (taskId : String) (around : Interleaving) (k : Nat) : Program Daemon Failure Task := do
  match ← ask around k (stepRequest taskId) "" with
  | .task row => return row
  | _ => Program.fail .malformed

/-- Whatever the command comes to, it leaves the daemon as a run of turns does. -/
def TakesTurns {α : Type} (command : Program Daemon Failure α) : Prop :=
  ∀ daemon faults, ∃ turns, (command daemon faults).2.1 = daemon.run turns

namespace TakesTurns

variable {α β : Type}

theorem pure (value : α) : TakesTurns (Pure.pure value) := fun _ _ => ⟨[], rfl⟩

theorem fail (failure : Failure) : TakesTurns (Program.fail failure : Program Daemon Failure α) :=
  fun _ _ => ⟨[], rfl⟩

/-- Two commands one after the other take the turns of both. -/
theorem bind {command : Program Daemon Failure α} {next : α → Program Daemon Failure β}
    (head : TakesTurns command) (tail : ∀ value, TakesTurns (next value))
    : TakesTurns (command >>= next) := by
  intro daemon faults
  obtain ⟨turns, left⟩ := head daemon faults
  rcases ran : command daemon faults with ⟨value | failure | _, middle, rest⟩
  all_goals rw [ran] at left
  · obtain ⟨others, last⟩ := tail value middle rest
    have left : middle = daemon.run turns := left
    refine ⟨turns ++ others, ?_⟩
    rw [Program.bind_done ran, last, left, Daemon.run_append]
  · rw [Program.bind_failed ran]
    exact ⟨turns, left⟩
  · rw [Program.bind_crashed ran]
    exact ⟨turns, left⟩

/-- One request takes turns, whatever is made of its answer. -/
theorem asked {around : Interleaving} {k : Nat} {request : Request} {nonce : String}
    {next : Answer → Program Daemon Failure β} (tail : ∀ answer, TakesTurns (next answer))
    : TakesTurns (ask around k request nonce >>= next) := by
  refine bind (fun daemon faults => ?_) tail
  obtain ⟨first, second, number, left⟩ := ask_run around k request nonce daemon faults
  exact ⟨_, left⟩

end TakesTurns

/-- The ceremony is a run of the daemon: what holds over its runs holds over `vk approve`. -/
theorem approve_takesTurns (keyring : String → HumanKey) (taskId : String) (around : Interleaving)
    (signedMs : UInt64) (nonce : String)
    : TakesTurns (approve keyring taskId around signedMs nonce) := by
  have informed : TakesTurns (info around 0) :=
    .asked fun answer => by cases answer <;> first | exact .pure _ | exact .fail _
  have named : TakesTurns (subject taskId around 1) :=
    .asked fun answer => by cases answer <;> first | exact .pure _ | exact .fail _
  have issued : TakesTurns (challenge around 2 nonce) :=
    .asked fun answer => by cases answer <;> first | exact .pure _ | exact .fail _
  refine TakesTurns.bind (informed.bind fun _ => .pure _) fun key => ?_
  refine named.bind fun subject => issued.bind fun nonce => ?_
  exact .asked fun answer => by cases answer <;> first | exact .pure _ | exact .fail _

end VerticalAI.Cli
