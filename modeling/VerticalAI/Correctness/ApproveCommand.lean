import VerticalAI.Cli.HumanCommands
import VerticalAI.Correctness.AnsweredSubjects
import VerticalAI.Correctness.ChallengeLifetime

/-! The approval ceremony of the shell goes through among other requests: while these leave the task
waiting and the nonce alone, `vk approve` files the approval the task waits for, and the next step of
the task is that approval done.
-/

namespace VerticalAI.Correctness
open VerticalAI.Foundation VerticalAI.Contracts VerticalAI.Kernel VerticalAI.Ipc VerticalAI.Cli

section Commands

variable [Libraries]

/-- The next step of the task is an approval step, for a register that its users may see. -/
structure WaitsToApprove (row : Task) (reg : Register) (i : Nat) (step : Step) : Prop where
  goesOn : ¬row.Terminal
  next : row.next = some (i, step)
  approve : step.kind = .approve
  flows : reg.label.flowsTo ⟨.personal, true⟩ = true

/-- A daemon whose node has the shell's key enrolled and no STOP on it, and that stores this row with
this register.
-/
structure AtApproval (keyring : String → HumanKey) (key : HumanKey) (row : Task) (reg : Register)
    (daemon : Daemon) : Prop where
  up : daemon.up = true
  numbered : daemon.Numbered
  unstopped : daemon.world.kernel.stops.stopped "node" = false
  stored : daemon.world.disk.tasks[row.id]? = some row
  held : daemon.world.disk.registers[row.register.text]? = some reg
  device : keyring daemon.world.kernel.nodeId = key
  enrolled : daemon.world.kernel.devices.keys[key.deviceId]? = some key.verifyingKey

/-- A turn of others that leaves the node at the approval and its approvals on file, and does not
issue, present or drop the nonce of the ceremony.
-/
structure Considerate (keyring : String → HumanKey) (key : HumanKey) (row : Task) (reg : Register)
    (nonce : String) (daemon : Daemon) (turn : Turn) : Prop where
  waiting : AtApproval keyring key row reg daemon → AtApproval keyring key row reg (daemon.step turn)
  unissued : ∀ time, daemon.issues turn ≠ some (nonce, time)
  unpresented : daemon.presents turn ≠ some nonce
  undropped : ∀ expiry, daemon.challenges.open[nonce]? = some expiry → ¬Drops daemon turn nonce expiry
  filed : HumanApprovalFiled daemon.world.disk (Register.subject reg)
    → HumanApprovalFiled (daemon.step turn).world.disk (Register.subject reg)

/-- All that others do around the requests of the command is considerate. -/
structure AllConsiderate (keyring : String → HumanKey) (key : HumanKey) (row : Task)
    (reg : Register)
    (nonce : String) (around : Interleaving) : Prop where
  before : ∀ k daemon, Throughout (around.before k daemon) fun first turn =>
    Considerate keyring key row reg nonce (daemon.run first) turn
  during : ∀ k number daemon, Throughout (around.meanwhile k number daemon) fun first turn =>
    Considerate keyring key row reg nonce (daemon.run first) turn

variable {keyring : String → HumanKey} {key : HumanKey} {row : Task} {reg : Register} {nonce : String}
  {daemon : Daemon} {around : Interleaving}

/-- What every turn keeps is kept along them, by induction on the turns. -/
theorem kept_along {Kept : Daemon → Prop} {turns : List Turn} (holds : Kept daemon)
    (steps : Throughout turns fun first turn =>
      Kept (daemon.run first) → Kept ((daemon.run first).step turn))
    : Kept (daemon.run turns) := by
  induction turns using List.reverseRecOn with
  | nil => exact holds
  | append_singleton turns turn ih =>
      obtain ⟨earlier, last⟩ := Throughout.concat_iff.mp steps
      rw [Daemon.run_concat]
      exact last (ih earlier)

/-- A state of affairs that considerate turns of others leave as it is. -/
def Steady (keyring : String → HumanKey) (key : HumanKey) (row : Task) (reg : Register)
    (nonce : String) (holds : Daemon → Prop) : Prop :=
  ∀ daemon turn, Considerate keyring key row reg nonce daemon turn → holds daemon
    → holds (daemon.step turn)

theorem steady_atApproval
    : Steady keyring key row reg nonce (AtApproval keyring key row reg) :=
  fun _ _ considerate waits => considerate.waiting waits

/-- The node is at the approval and the nonce is open until then. -/
def NonceOpen (keyring : String → HumanKey) (key : HumanKey) (row : Task) (reg : Register)
    (nonce : String) (expiry : UInt64) (daemon : Daemon) : Prop :=
  AtApproval keyring key row reg daemon ∧ daemon.challenges.open[nonce]? = some expiry

theorem steady_nonceOpen {expiry : UInt64}
    : Steady keyring key row reg nonce (NonceOpen keyring key row reg nonce expiry) :=
  fun _ _ considerate ⟨waits, held⟩ =>
    ⟨considerate.waiting waits, (stays_open_iff considerate.unissued considerate.unpresented).mpr
      ⟨held, considerate.undropped expiry held⟩⟩

/-- The node is at the approval, and a human gave it. -/
def Approved (keyring : String → HumanKey) (key : HumanKey) (row : Task) (reg : Register)
    (daemon : Daemon) : Prop :=
  AtApproval keyring key row reg daemon
    ∧ HumanApprovalFiled daemon.world.disk (Register.subject reg)

theorem steady_approved : Steady keyring key row reg nonce (Approved keyring key row reg) :=
  fun _ _ considerate ⟨waits, filed⟩ => ⟨considerate.waiting waits, considerate.filed filed⟩

/-- A request that arrives leaves the node as it is. -/
theorem AtApproval.arrive (waits : AtApproval keyring key row reg daemon) (request : Request)
    (now : UInt64)
    : AtApproval keyring key row reg (daemon.step (.arrive request now)) := by
  have same : daemon.step (.arrive request now) = daemon.arrive request now := if_pos waits.up
  have numbered := waits.numbered.step (.arrive request now)
  rw [same] at numbered ⊢
  exact ⟨waits.up, numbered, waits.unstopped, waits.stored, waits.held, waits.device, waits.enrolled⟩

/-- A request that is finished leaves the node at the approval if these parts of it stay. -/
theorem AtApproval.finish (waits : AtApproval keyring key row reg daemon) (number : Nat)
    {after : Daemon} (up : after.up = daemon.up)
    (inFlight : after.inFlight = (daemon.without number).inFlight)
    (arrived : after.arrived = daemon.arrived)
    (trail : Trail (Within [.record, .approvals]) daemon.world after.world)
    : AtApproval keyring key row reg after where
  up := up.trans waits.up
  numbered entry underway := by
    rw [inFlight] at underway
    rw [arrived]
    exact waits.numbered entry (List.mem_of_mem_filter underway)
  unstopped := by
    rw [(same_of_trail trail .stops (by decide)).2.2]
    exact waits.unstopped
  stored := by
    have same : after.world.disk.tasks = _ := same_of_trail trail .tasks (by decide)
    exact same ▸ waits.stored
  held := by
    have same : after.world.disk.registers = _ := same_of_trail trail .registers (by decide)
    exact same ▸ waits.held
  device := by
    rw [(process_of_trail trail).2]
    exact waits.device
  enrolled := by
    rw [(same_of_trail trail .devices (by decide)).2]
    exact waits.enrolled

-----------------------------------------------------------------------------------------
-- One request
-----------------------------------------------------------------------------------------

/-- A request is under way when it comes to be finished, others around it being considerate. -/
theorem ask_among {Ready Waiting : Daemon → Prop}
    (considerate : AllConsiderate keyring key row reg nonce around) (k : Nat) (request : Request)
    (given : String) (faults : List Fault) (ready : Ready daemon)
    (steadyReady : Steady keyring key row reg nonce Ready)
    (steadyWaiting : Steady keyring key row reg nonce Waiting)
    (atApproval : ∀ daemon, Ready daemon → AtApproval keyring key row reg daemon)
    (running : ∀ daemon, Waiting daemon → daemon.up = true)
    (arrives : ∀ daemon, Ready daemon → Waiting (daemon.step (.arrive request (around.arrives k))))
    : ∃ first waiting, Ready first ∧ Waiting waiting
      ∧ waiting.entry first.arrived = some
        ⟨first.arrived, request, (first.take request (around.arrives k)).2, around.arrives k⟩
      ∧ ask around k request given daemon faults
        = answered first.arrived given (around.finishes k) waiting faults := by
  let first := daemon.run (around.before k daemon)
  let arrived := first.step (.arrive request (around.arrives k))
  have ready : Ready first :=
    kept_along ready fun before turn after split =>
      steadyReady _ _ (considerate.before k daemon before turn after split)
  have waits := atApproval first ready
  let Under (daemon : Daemon) : Prop :=
    Waiting daemon ∧ daemon.entry first.arrived
      = some ⟨first.arrived, request, (first.take request (around.arrives k)).2, around.arrives k⟩
  have under : Under (arrived.run (around.meanwhile k first.arrived arrived)) := by
    refine kept_along ⟨arrives first ready, Daemon.entry_arrive waits.up waits.numbered _ _⟩ ?_
    intro before turn after split ⟨waiting, entry⟩
    have member : turn ∈ around.meanwhile k first.arrived arrived :=
      split ▸ List.mem_append_right _ List.mem_cons_self
    have other : turn.finishes first.arrived = false := by
      simpa using (List.mem_filter.mp member).2
    have next := steadyWaiting _ _ (considerate.during k _ arrived before turn after split) waiting
    exact ⟨next, Daemon.entry_step entry other (running _ next)⟩
  exact ⟨first, _, ready, under.1, under.2, rfl⟩

/-- A request that the kernel serves is answered with what the kernel says. -/
theorem answered_served {number : Nat} {entry : Arrived} {now : UInt64} {answer : Ipc.Answer}
    {after : World} {rest : List Fault} (given : String) (under : daemon.entry number = some entry)
    (method : entry.request.method ≠ "presence.challenge")
    (admits : entry.presence = none ∨ takesPresence entry.request.method = true)
    (served : serve entry.request entry.presence entry.now now daemon.world []
      = (.done answer, after, rest))
    : answered number given now daemon []
      = (.done answer, { daemon.without number with world := after }, []) := by
  have proofless : (entry.presence.isSome && !takesPresence entry.request.method) = false := by
    rcases admits with none | takes
    · rw [none]
      rfl
    · rw [takes]
      exact Bool.and_false _
  rw [answered, under]
  simp only [Daemon.dispatch, proofless, Bool.false_eq_true, if_false, method]
  have same : (daemon.without number).world = daemon.world := rfl
  rw [same, served]

/-- A request that leaves the kernel as it is. -/
theorem AtApproval.read (waits : AtApproval keyring key row reg daemon) (number : Nat)
    : AtApproval keyring key row reg { daemon.without number with world := daemon.world } :=
  waits.finish number rfl rfl rfl (.refl _)

theorem info_done (considerate : AllConsiderate keyring key row reg nonce around) (k : Nat)
    (waits : AtApproval keyring key row reg daemon)
    : ∃ found after, info around k daemon [] = (.done found, after, [])
      ∧ keyring found.nodeId = key ∧ AtApproval keyring key row reg after := by
  obtain ⟨first, waiting, -, waits, under, asked⟩ :=
    ask_among considerate k (plain "boot.info" noParams) "" [] waits steady_atApproval
      steady_atApproval (fun _ waits => waits) (fun _ waits => waits.up) fun _ waits => waits.arrive _ _
  obtain ⟨found, ran, named⟩ : ∃ found : BootInfo,
      bootInfo waiting.world [] = (.done (.info found), waiting.world, [])
        ∧ found.nodeId = waiting.world.kernel.nodeId :=
    ⟨_, rfl, rfl⟩
  have other : (plain "boot.info" noParams).method ≠ "presence.challenge" :=
    show "boot.info" ≠ "presence.challenge" by decide
  have served : serve (plain "boot.info" noParams) none (around.arrives k) (around.finishes k)
      waiting.world [] = (.done (.info found), waiting.world, []) := ran
  have done := answered_served "" under other (.inl rfl) served
  refine ⟨found, _, ?_, named ▸ waits.device, waits.read first.arrived⟩
  rw [info, Program.bind_done (asked.trans done)]
  rfl

theorem subject_done (considerate : AllConsiderate keyring key row reg nonce around) (k : Nat)
    {i : Nat} {step : Step} (current : WaitsToApprove row reg i step)
    (waits : AtApproval keyring key row reg daemon)
    : ∃ after, subject row.id around k daemon [] = (.done (Register.subject reg), after, [])
      ∧ AtApproval keyring key row reg after := by
  obtain ⟨first, waiting, -, waits, under, asked⟩ :=
    ask_among considerate k (plain "task.subject" (taskParams row.id)) "" [] waits steady_atApproval
      steady_atApproval (fun _ waits => waits) (fun _ waits => waits.up) fun _ waits => waits.arrive _ _
  have next : row.next.map (·.2.kind) = some .approve := by
    rw [current.next, Option.map_some, current.approve]
  have served : serve (plain "task.subject" (taskParams row.id)) none (around.arrives k)
      (around.finishes k) waiting.world []
      = (.done (.subject (Register.subject reg)), waiting.world, []) := by
    change (Ipc.Answer.subject <$> syscall (approvalSubject
      (cliCtx waiting.world.kernel (around.arrives k)) row.id)) waiting.world [] = _
    rw [Program.map_run, syscall,
      Program.mapError_done (approvalSubject_working waits.stored waits.held current.flows next)]
    rfl
  have other : (plain "task.subject" (taskParams row.id)).method ≠ "presence.challenge" :=
    show "task.subject" ≠ "presence.challenge" by decide
  have done := answered_served "" under other (.inl rfl) served
  refine ⟨_, ?_, waits.read first.arrived⟩
  rw [subject, Program.bind_done (asked.trans done)]
  rfl

theorem challenge_done (considerate : AllConsiderate keyring key row reg nonce around) (k : Nat)
    (waits : AtApproval keyring key row reg daemon)
    : ∃ after, challenge around k nonce daemon [] = (.done nonce, after, [])
      ∧ NonceOpen keyring key row reg nonce (around.arrives k + challengeTtlMs) after := by
  obtain ⟨first, waiting, -, waits, under, asked⟩ :=
    ask_among considerate k (plain "presence.challenge" noParams) nonce [] waits steady_atApproval
      steady_atApproval (fun _ waits => waits) (fun _ waits => waits.up) fun _ waits => waits.arrive _ _
  let after : Daemon :=
    { waiting.without first.arrived with
      challenges := (waiting.challenges.issue (around.arrives k) nonce).1 }
  have done : answered first.arrived nonce (around.finishes k) waiting []
      = (.done (.challenge nonce (around.arrives k + challengeTtlMs)), after, []) := by
    rw [answered, under]
    rfl
  refine ⟨after, ?_, waits.finish first.arrived rfl rfl rfl (.refl _),
    Std.ExtTreeMap.getElem?_insert_self⟩
  rw [challenge, Program.bind_done (asked.trans done)]
  rfl

-----------------------------------------------------------------------------------------
-- The request that carries a proof
-----------------------------------------------------------------------------------------

omit [Libraries] in
/-- What a key signs is read back from the text of its signature. -/
theorem signatureOfHex_encode (signature : Signature)
    : signatureOfHex (Hex.encode signature.val) = some signature := by
  rw [signatureOfHex, Hex.decode_encode]
  simp [sized, signature.property]

omit [Libraries] in
/-- A nonce that is open is taken with the request that presents it. -/
theorem take_open {request : Request} {proof : PresenceProof} {expiry now : UInt64}
    (held : daemon.challenges.open[proof.nonce]? = some expiry) (inTime : now < expiry)
    (carried : request.presence = some proof)
    : (daemon.take request now).2 = some ⟨proof, .ok ()⟩ := by
  have spent : (daemon.challenges.spend proof.nonce now).2 = .ok () :=
    Challenges.spend_ok_iff.mpr ⟨expiry, held, inTime⟩
  rw [Daemon.take, carried, ← spent]

/-- A request with a proof over a nonce that was open, made with the enrolled key, is a human's. -/
theorem ctxFor_proof {node : RealKernel} {now : UInt64}
    (enrolled : node.devices.keys[key.deviceId]? = some key.verifyingKey)
    : ctxFor node (some ⟨proofBy key nonce, .ok ()⟩) now
      = .ok { principal := .human key.deviceId, clearance := ⟨.personal, true⟩
              partition := "local", nowMs := now } := by
  have verified : node.devices.verify key.deviceId (PresenceProof.message nonce)
      (key.sign (PresenceProof.message nonce)) = .ok () :=
    DeviceRegistry.verify_ok_iff.mpr ⟨key.verifyingKey, enrolled, key.verifies _⟩
  rw [ctxFor, principalFor]
  simp only [proofBy, signatureOfHex_encode, verified]

/-- The approval passes in that human's context, while its own challenge lasts. -/
theorem i1Approval_passes {devices : DeviceRegistry} {taskId subject : String}
    {signedMs now : UInt64} (enrolled : devices.keys[key.deviceId]? = some key.verifyingKey)
    (inTime : now < signedMs + approvalTtlMs)
    : i1Approval (.human key.deviceId) (approvalBy key taskId subject nonce signedMs) devices now
      = .ok () := by
  have verified (message : List UInt8)
      : devices.verify key.deviceId message (key.sign message) = .ok () :=
    DeviceRegistry.verify_ok_iff.mpr ⟨key.verifyingKey, enrolled, key.verifies message⟩
  have alive : ¬signedMs + approvalTtlMs ≤ now := UInt64.not_le.mpr inTime
  simp [i1Approval, Approval.verifyHuman, approvalBy, Principal.isHuman, alive,
    signatureOfHex_encode, verified, Except.mapError]

/-- The kernel files an approval that is sent with a proof. -/
theorem approved_done (considerate : AllConsiderate keyring key row reg nonce around) (k : Nat)
    {expiry signedMs : UInt64} (ready : NonceOpen keyring key row reg nonce expiry daemon)
    (inTime : around.arrives k < expiry) (alive : around.arrives k < signedMs + approvalTtlMs)
    : let approval := approvalBy key row.id (Register.subject reg) nonce signedMs
      let request : Request :=
        ⟨"approve", { noParams with approval := .ok approval }, some (proofBy key nonce)⟩
      ∃ after, ask around k request "" daemon [] = (.done .ok, after, [])
        ∧ Approved keyring key row reg after := by
  intro approval request
  obtain ⟨first, waiting, ⟨-, held⟩, waits, under, asked⟩ :=
    ask_among considerate k request "" [] ready steady_nonceOpen steady_atApproval
      (fun _ ready => ready.1) (fun _ waits => waits.up) fun _ ready => ready.1.arrive _ _
  have taken : (first.take request (around.arrives k)).2 = some ⟨proofBy key nonce, .ok ()⟩ :=
    take_open held inTime rfl
  rw [taken] at under
  let ctx : Ctx :=
    { principal := .human key.deviceId, clearance := ⟨.personal, true⟩, partition := "local"
      nowMs := around.arrives k }
  let last : World :=
    Updates.apply (Update.putApproval (approvalKey approval) approval)
      (waiting.world.logged "approval.recorded" (around.arrives k) approval.toJson)
  have passes : i1Approval ctx.principal approval waiting.world.kernel.devices ctx.nowMs = .ok () :=
    i1Approval_passes waits.enrolled alive
  have filed : Kernel.approve ctx approval waiting.world [] = (.done (), last, []) := by
    rw [Kernel.approve, kernel, Program.observe_bind_run, passes, Program.lift_ok,
      Program.pure_bind_run, Program.bind_done (log_working _ _ _ _)]
    rfl
  have served : serve request (some ⟨proofBy key nonce, .ok ()⟩) (around.arrives k)
      (around.finishes k) waiting.world [] = (.done .ok, last, []) := by
    change (Program.lift (ctxFor waiting.world.kernel (some ⟨proofBy key nonce, .ok ()⟩)
      (around.arrives k)) >>= fun ctx =>
        (syscall (Kernel.approve ctx approval) >>= fun _ => Pure.pure Ipc.Answer.ok))
      waiting.world [] = _
    rw [ctxFor_proof waits.enrolled, Program.lift_ok, Program.pure_bind_run, syscall,
      Program.bind_done (Program.mapError_done filed)]
    rfl
  have other : request.method ≠ "presence.challenge" :=
    show "approve" ≠ "presence.challenge" by decide
  have done := answered_served "" under other (.inr rfl) served
  refine ⟨_, asked.trans done, waits.finish first.arrived rfl rfl rfl (approve_emits.trail_inv filed),
    approvalKey approval, approval, Std.ExtTreeMap.getElem?_insert_self, rfl, rfl⟩

/-- A step that runs an approved approval step. -/
theorem stepOnce_done (considerate : AllConsiderate keyring key row reg nonce around) (k : Nat)
    {i : Nat} {step : Step} (current : WaitsToApprove row reg i step)
    (approved : Approved keyring key row reg daemon)
    : ∃ answered last,
        stepOnce row.id around k daemon [] = (.done answered, last, [])
        ∧ last.world.disk.tasks[row.id]? = some answered
        ∧ answered.DoneAt i := by
  obtain ⟨first, waiting, -, ⟨waits, filed⟩, under, asked⟩ :=
    ask_among considerate k (stepRequest row.id) "" [] approved steady_approved steady_approved
      (fun _ approved => approved.1) (fun _ approved => approved.1.up) fun _ approved =>
        ⟨approved.1.arrive _ _, by rw [Daemon.world_arrive]; exact approved.2⟩
  let ctx := cliCtx waiting.world.kernel (around.arrives k)
  obtain ⟨base, after, begun, ran, shown⟩ :=
    runTaskStep_approved ctx waits.stored current.goesOn waits.unstopped waits.held current.flows
      current.next current.approve filed
  have served : serve (stepRequest row.id) none (around.arrives k) (around.finishes k) waiting.world []
      = (.done (.task (base.ended i .done 0 ctx.nowMs)), after, []) := by
    rw [serve_step, Program.map_run, syscall, Program.mapError_done ran]
    rfl
  have other : (stepRequest row.id).method ≠ "presence.challenge" :=
    show "task.step" ≠ "presence.challenge" by decide
  have done := answered_served "" under other (.inl rfl) served
  refine ⟨base.ended i .done 0 ctx.nowMs, { waiting.without first.arrived with world := after }, ?_,
    shown, begun.ended_doneAt (Task.next_some current.next).1⟩
  rw [stepOnce, Program.bind_done (asked.trans done)]
  rfl

-----------------------------------------------------------------------------------------
-- The ceremony
-----------------------------------------------------------------------------------------

/-- The approval arrives while both challenges last, the one it was given and the one it gives. -/
structure WithinChallenges (around : Interleaving) (signedMs : UInt64) : Prop where
  presence : around.arrives 3 < around.arrives 2 + challengeTtlMs
  approval : around.arrives 3 < signedMs + approvalTtlMs

/-- From any state of the daemon at an approval, and whatever others do before and during each request
as long as it is considerate: `vk approve` returns the subject that the task waits to have approved and
leaves a human approval of it on file, and the step that is run next is that approval step, done.
-/
theorem approve_ceremony_completes {i : Nat} {step : Step} {signedMs : UInt64}
    (current : WaitsToApprove row reg i step) (waits : AtApproval keyring key row reg daemon)
    (considerate : AllConsiderate keyring key row reg nonce around)
    (inTime : WithinChallenges around signedMs)
    : ∃ after answered last,
        Cli.approve keyring row.id around signedMs nonce daemon []
          = (.done (Register.subject reg), after, [])
        ∧ HumanApprovalFiled after.world.disk (Register.subject reg)
        ∧ stepOnce row.id around 4 after [] = (.done answered, last, [])
        ∧ last.world.disk.tasks[row.id]? = some answered
        ∧ answered.DoneAt i := by
  obtain ⟨found, first, informed, named, waits⟩ := info_done considerate 0 waits
  obtain ⟨second, asked, waits⟩ := subject_done considerate 1 current waits
  obtain ⟨third, challenged, opened⟩ := challenge_done considerate 2 waits
  obtain ⟨after, sent, approved⟩ :=
    approved_done considerate 3 opened inTime.presence inTime.approval
  obtain ⟨answered, last, stepped, shown, done⟩ := stepOnce_done considerate 4 current approved
  refine ⟨after, answered, last, ?_, approved.2, stepped, shown, done⟩
  have keyed : device keyring around 0 daemon [] = (.done key, first, []) := by
    rw [device, Program.bind_done informed, ← named]
    rfl
  rw [Cli.approve, Program.bind_done keyed, Program.bind_done asked, Program.bind_done challenged,
    Program.bind_done sent]
  rfl

end Commands

/-- Libraries in which whatever begins with a key's bytes is signed by it. -/
@[reducible] private def markedLibraries : Libraries :=
  { shortLibraries with verifies := fun key _ signature => signature.val.take 32 = key.val }

attribute [local instance] markedLibraries

section Run

private def keyOfNode (nodeId : String) : HumanKey where
  deviceId := nodeDevice nodeId
  verifyingKey := .repeated 7
  sign _ := ⟨List.replicate 64 7, rfl⟩
  verifies _ := rfl

private def clientCtx : Ctx where
  principal := .machine "n1" "cli"
  clearance := ⟨.personal, true⟩
  partition := "local"
  nowMs := 5

/-- A node with its device enrolled, and a task of one approval step. -/
private def askedNode : World :=
  (nodeAfter [.open "state" "n1" false 0 [],
    .call (.enrollDevicePersisted "node:n1" (.repeated 7) 1) [],
    .call (.createTask clientCtx "write" "text" Label.bottom [.approve]) []]).world

private def askedStep : Step := ⟨.approve, .pending, none, none, 0⟩

private def askedRow : Task where
  id := "task-n1-2"
  register := ⟨"reg-n1-1"⟩
  goal := "write"
  artefactType := "text"
  steps := [askedStep]
  status := .queued
  createdMs := 5

private def heldRegister : Register where
  id := ⟨"reg-n1-1"⟩
  taskId := "task-n1-2"
  label := Label.bottom
  goal := "write"
  constraints := []
  evidence := []
  decisions := []
  openQuestions := []
  artefacts := []

/-- Before each request of the command, and while it is under way, another one arrives. -/
private def busy : Interleaving where
  before _ _ := [.arrive (plain "boot.info" noParams) 5]
  during _ _ := [.arrive (plain "boot.info" noParams) 5]
  arrives _ := 5
  finishes _ := 5

private theorem arrival_considerate (daemon : Daemon)
    : Considerate keyOfNode (keyOfNode "n1") askedRow heldRegister "nonce" daemon
        (.arrive (plain "boot.info" noParams) 5) where
  waiting waits := waits.arrive _ _
  unissued _ := nofun
  unpresented presents := by
    simp [Daemon.presents, plain] at presents
  undropped _ _ := by
    rintro ⟨_, _, issues, _⟩
    cases issues
  filed filed := by
    rw [Daemon.world_arrive]
    exact filed

private theorem busy_considerate
    : AllConsiderate keyOfNode (keyOfNode "n1") askedRow heldRegister "nonce" busy :=
  ⟨fun _ _ => Throughout.single_iff.mpr (arrival_considerate _),
    fun _ _ _ => Throughout.single_iff.mpr (arrival_considerate _)⟩

private theorem busy_inTime : WithinChallenges busy 5 where
  presence := show (5 : UInt64) < 5 + challengeTtlMs by decide
  approval := show (5 : UInt64) < 5 + approvalTtlMs by decide

private theorem asked_waits : WaitsToApprove askedRow heldRegister 0 askedStep where
  goesOn := by rintro (done | failed) <;> contradiction
  next := rfl
  approve := rfl
  flows := by decide

private theorem asked_atApproval
    : AtApproval keyOfNode (keyOfNode "n1") askedRow heldRegister (Daemon.start askedNode) where
  up := rfl
  numbered := Daemon.numbered_run askedNode []
  unstopped := rfl
  stored := rfl
  held := rfl
  device := rfl
  enrolled := rfl

/-- The ceremony for it completes among these. -/
theorem approve_ceremony_completes_write
    : ∃ after answered last,
        Cli.approve keyOfNode askedRow.id busy 5 "nonce" (Daemon.start askedNode) []
          = (.done (Register.subject heldRegister), after, [])
        ∧ HumanApprovalFiled after.world.disk (Register.subject heldRegister)
        ∧ stepOnce askedRow.id busy 4 after [] = (.done answered, last, [])
        ∧ last.world.disk.tasks[askedRow.id]? = some answered
        ∧ answered.DoneAt 0 :=
  approve_ceremony_completes asked_waits asked_atApproval busy_considerate busy_inTime

end Run

end VerticalAI.Correctness
