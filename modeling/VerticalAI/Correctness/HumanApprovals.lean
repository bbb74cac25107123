import VerticalAI.Kernel.ApprovalHistory
import VerticalAI.Kernel.Releases

/-! Human approvals over whole runs: none is on file that its human did not give, nothing that
needs one goes ahead without it, and what exactly it is given for.
-/

namespace VerticalAI.Correctness
open VerticalAI.Foundation VerticalAI.Contracts VerticalAI.Kernel

section Approvals

variable [Libraries]

/-- In every run: human approvals on file were accepted in the ceremony of the human they name,
finished approval steps had one for the subject of that moment, and so had the promoted modules
that need one for their content.
-/
theorem human_approvals_are_own (events : List Event)
    : (∀ (key : String) (approval : Approval),
        (nodeAfter events).world.disk.approvals[key]? = some approval
        → approval.kind = .human → Accepted events approval)
      ∧ (∀ (id : String) (row : Task) (i : Nat),
          (nodeAfter events).world.disk.tasks[id]? = some row → DoneApproval row i
          → Happened events (ApprovedBy id i))
      ∧ ∀ (subject : String) (module : ModuleManifest),
          (nodeAfter events).world.disk.hot[subject]? = some module → NeedsHuman module
          → HumanApproved events module.provenance.contentHash := by
  refine ⟨approvals_accepted events, steps_approved events, ?_⟩
  intro subject module held needed
  obtain ⟨before, event, after, rfl, promoted⟩ := hot_approved events subject module held
  obtain ⟨ctx, verdicts, faults, -, -, approved⟩ := promoted
  obtain ⟨approval, human, named, accepted⟩ := approved needed
  exact ⟨approval, human, named, accepted.append _⟩

/-- An accepted approval was signed for its subject. -/
theorem challenge_of_accepted {events : List Event} {approval : Approval}
    (accepted : Accepted events approval)
    : ∃ challenge, approval.challenge = some challenge
        ∧ challenge.actionDigest = approval.subjectHash := by
  obtain ⟨before, event, after, -, ctx, faults, -, -, ceremony⟩ := accepted
  obtain ⟨deviceId, challenge, signatureHex, signature, key, -, challenged, subject, -⟩ :=
    ceremony.signed
  exact ⟨challenge, challenged, subject⟩

/-- In every run: a promoted module that needs a human had an accepted approval whose challenge was
signed for the module's content hash; and without one on file that is signed for that hash
promoting fails and makes nothing hot, whatever resources the approvals on file name.
-/
theorem promotion_takes_the_signed_digest (events : List Event)
    : (∀ (subject : String) (module : ModuleManifest),
        (nodeAfter events).world.disk.hot[subject]? = some module → NeedsHuman module
        → ∃ approval challenge, approval.kind = .human ∧ Accepted events approval
            ∧ approval.challenge = some challenge
            ∧ challenge.actionDigest = module.provenance.contentHash)
      ∧ ∀ ctx module verdicts faults, NeedsHuman module
          → (∀ (key : String) (approval : Approval) (challenge : Challenge),
              (nodeAfter events).world.disk.approvals[key]? = some approval
              → approval.kind = .human → approval.challenge = some challenge
              → challenge.actionDigest ≠ module.provenance.contentHash)
          → let result := promote ctx module verdicts (nodeAfter events).world faults
            result.1 ≠ .done ()
              ∧ ∀ (subject : String) (promoted : ModuleManifest),
                  result.2.1.disk.hot[subject]? = some promoted
                  → (nodeAfter events).world.disk.hot[subject]? = some promoted := by
  constructor
  · intro subject module held needed
    obtain ⟨before, event, after, rfl, promoted⟩ := hot_approved events subject module held
    obtain ⟨ctx, verdicts, faults, -, -, approved⟩ := promoted
    obtain ⟨approval, human, named, accepted⟩ := approved needed
    obtain ⟨challenge, challenged, digest⟩ := challenge_of_accepted accepted
    exact ⟨approval, challenge, human, accepted.append _, challenged, digest.trans named⟩
  · intro ctx module verdicts faults needed unsigned
    have refused : ¬PromotionApproved (nodeAfter events).world.disk module := by
      rintro ⟨key, approval, filed, human, named⟩
      have accepted := approvals_accepted events key approval filed human
      obtain ⟨challenge, challenged, digest⟩ := challenge_of_accepted accepted
      exact unsigned key approval challenge filed human challenged (digest.trans named)
    intro result
    constructor
    · intro returned
      have ran : promote ctx module verdicts (nodeAfter events).world faults
          = (.done (), result.2.1, result.2.2) :=
        Prod.ext returned rfl
      exact refused (promote_guard.done rfl ran needed)
    · intro subject promoted held
      have trail : Trail (Authorised (nodeAfter events).world.disk (.promote ctx module verdicts))
          (nodeAfter events).world result.2.1 := promote_guard.trail rfl faults
      rcases hot_trail trail subject promoted held with earlier | ⟨_, _, called, approved⟩
      · exact earlier
      · cases called
        exact absurd (approved needed) refused

/-- What a call of the scheduler makes of the task: the same steps, and the next one done at
most.
-/
theorem row_of_runTaskStep {world : World} {ctx : Ctx} {row : Task}
    (stored : world.disk.tasks[row.id]? = some row) (faults : List Fault) {finished : Task}
    (held : (runTaskStep ctx row.id world faults).2.1.disk.tasks[row.id]? = some finished)
    : Task.Alike row finished
      ∧ ∀ i, finished.DoneAt i → row.DoneAt i ∨ ∃ step, row.next = some (i, step) := by
  let Followed (later : World) : Prop :=
    ∀ changed, later.disk.tasks[row.id]? = some changed
      → Task.Alike row changed
        ∧ ∀ i, changed.DoneAt i → row.DoneAt i ∨ ∃ step, row.next = some (i, step)
  have step : ∀ later update, Followed later → StepGuard world.disk ctx row later update
      → Followed (Updates.apply update later) := by
    intro later update followed guarded changed held
    rcases tasks_apply held with ⟨rfl, -⟩ | earlier
    · refine ⟨guarded.alike, fun i done => ?_⟩
      rcases guarded.done i done with before | ⟨step, next, -⟩
      · exact Or.inl before
      · exact Or.inr ⟨step, next⟩
    · exact followed changed earlier
  have initial : Followed world := by
    intro changed same
    obtain rfl := Option.some.inj (stored.symm.trans same)
    exact ⟨Task.Alike.refl row, fun _ done => Or.inl done⟩
  have followed : Followed (runTaskStep ctx row.id world faults).2.1 :=
    (runTaskStep_guard stored faults).preserves step initial
  exact followed finished held

/-- In every run: when a call finishes a release that an approval step precedes, an earlier call
had finished that approval step on a human approval for the subject of that moment. Every file is
as it was, or the file in the release's destination of an artefact on the task's register, with the
bytes stored at the artefact's address.
-/
theorem release_follows_approval (events : List Event) (ctx : Ctx) (id : String)
    (faults : List Fault)
    : let before := (nodeAfter events).world
      let after := ((nodeAfter events).step (.call (.runTaskStep ctx id) faults)).world
      ∀ (row finished : Task) (i j : Nat) (release : Step) (toDir : String),
        before.disk.tasks[id]? = some row → after.disk.tasks[id]? = some finished
        → ¬row.DoneAt i → finished.DoneAt i
        → finished.steps[i]? = some release → release.kind = .release toDir
        → j < i → (∃ step, finished.steps[j]? = some step ∧ step.kind = .approve)
        → Happened events (ApprovedBy id j)
          ∧ ∃ reg, before.disk.registers[row.register.text]? = some reg
            ∧ ∀ path, after.disk.exports[path]? = before.disk.exports[path]?
              ∨ ∃ bytes, ReleasedFrom before toDir reg.artefacts path bytes
                ∧ after.disk.exports[path]? = some bytes := by
  intro before after row finished i j release toDir stored held undone done placed kind earlier asked
  have keyed : TasksKeyed before.disk := Reachable.tasksKeyed ⟨events, rfl⟩
  rcases (nodeAfter events).step_cases (.call (.runTaskStep ctx id) faults) with
    ⟨call, given, same, -, stepped⟩ | ⟨last, trail, stepped⟩
  · cases same
    have ran : (invoke (.runTaskStep ctx id) (nodeAfter events).world faults).2.1
        = (runTaskStep ctx id (nodeAfter events).world faults).2.1 := by
      change ((Reply.task <$> runTaskStep ctx id) (nodeAfter events).world faults).2.1 = _
      rw [Program.map_run]
    have result : after.disk = (runTaskStep ctx id before faults).2.1.disk :=
      congrArg World.disk (stepped.trans ran)
    rw [result] at held ⊢
    obtain rfl := keyed id row stored
    obtain ⟨alike, followed⟩ := row_of_runTaskStep stored faults held
    refine ⟨?_, runTaskStep_released ctx stored faults undone held done placed kind⟩
    rcases followed i done with already | ⟨step, next⟩
    · exact absurd already undone
    · obtain ⟨approval, placed, kind⟩ := asked
      obtain ⟨origin, found, same⟩ := alike.kind placed
      obtain ⟨-, -, ended⟩ := Task.next_some next
      obtain ⟨other, there, status⟩ := ended j earlier
      rw [found] at there
      obtain rfl := Option.some.inj there
      exact steps_approved events row.id row j stored ⟨origin, found, status, same.trans kind⟩
  · have kept : after.disk.tasks = before.disk.tasks := by
      have same := same_of_trail trail .tasks (by decide)
      rw [World.Same] at same
      exact (congrArg StateDir.tasks stepped).trans same
    rw [kept, stored] at held
    obtain rfl := Option.some.inj held
    exact absurd done undone

end Approvals

attribute [local instance] plainLibraries

section Run

private def machineCtx : Ctx where
  principal := .machine "n1" "cli"
  clearance := ⟨.personal, true⟩
  partition := "local"
  nowMs := 5

private def phoneCtx : Ctx := { machineCtx with principal := .human "phone" }

private def phoneKey : VerifyingKey := .repeated 7

/-- The challenge of a task's approval. -/
private def taskChallenge (subject : String) : Challenge :=
  ⟨"task:task-n1-2", subject, "0123456789abcdef", 100⟩

/-- The approval of a subject that the phone signed for that task. -/
private def phoneApproval (subject : String) : Approval where
  subjectHash := subject
  kind := .human
  approver := .human "phone"
  challenge := some (taskChallenge subject)
  signatureHex := some (Hex.encode (phoneKey.val ++ (taskChallenge subject).digest.take 32))

/-- A node with the phone enrolled and a task of these steps. -/
private def taskEvents (steps : List StepKind) : List Event :=
  [.open "state" "n1" false 0 [], .call (.enrollDevicePersisted "phone" phoneKey 1) [],
    .call (.createTask machineCtx "write" "text" Label.bottom steps) []]

/-- The task's register with an artefact on it. -/
private def artefactRegister : Register where
  id := ⟨"reg-n1-1"⟩
  taskId := "task-n1-2"
  label := Label.bottom
  goal := "write"
  constraints := []
  evidence := []
  decisions := []
  openQuestions := []
  artefacts := [⟨"a1", "text"⟩]

/-- A module that claims that artefact as its content. -/
private def claimingModule : ModuleManifest where
  name := "m"
  kind := .skill
  version := "1"
  machineEvolved := false
  files := []
  provenance := ⟨"a1", [], "s", [], ∅⟩
  poolEpoch := none
  autonomyProfile := none
  tags := []

/-- The artefact was approved for the task, and then the module was promoted. -/
private def promotedEvents : List Event :=
  taskEvents [.approve]
    ++ [.call (.writeRegister machineCtx artefactRegister) [],
      .call (.approve phoneCtx (phoneApproval "a1")) [],
      .call (.promote machineCtx claimingModule [⟨.annexIii, "a1", true, "e", "s"⟩]) []]

private theorem promoted_facts
    : (nodeAfter promotedEvents).world.disk.hot["a1"]? = some claimingModule
      ∧ (nodeAfter promotedEvents).world.disk.approvals.list.map (·.2)
        = [phoneApproval "a1"] := by
  decide +kernel

/-- The promotion went ahead on an approval accepted from the phone. -/
theorem human_approvals_are_own_promoted : HumanApproved promotedEvents "a1" :=
  (human_approvals_are_own promotedEvents).2.2 "a1" claimingModule promoted_facts.1 (Or.inl rfl)

/-- An approval whose challenge names a task's resource lets a module be promoted. -/
theorem approval_of_a_task_promotes_a_module
    : ∃ (events : List Event) (subject : String) (module : ModuleManifest),
        (nodeAfter events).world.disk.hot[subject]? = some module ∧ NeedsHuman module
        ∧ ∀ (key : String) (approval : Approval),
            (nodeAfter events).world.disk.approvals[key]? = some approval
            → ∃ challenge, approval.challenge = some challenge
                ∧ challenge.resource = "task:task-n1-2" := by
  refine ⟨promotedEvents, "a1", claimingModule, promoted_facts.1, Or.inl rfl, ?_⟩
  intro key approval filed
  have listed : approval ∈ (nodeAfter promotedEvents).world.disk.approvals.list.map (·.2) :=
    List.mem_map_of_mem (Table.mem_list.mpr filed)
  rw [promoted_facts.2] at listed
  obtain rfl := List.mem_singleton.mp listed
  exact ⟨taskChallenge "a1", rfl, rfl⟩

/-- The addresses of the two artefacts. -/
private def firstHash : String :=
  "sha256:7461736b3a7461736b2d6e312d32004141414141414141414141414141414141"

private def secondHash : String :=
  "sha256:7461736b3a7461736b2d6e312d32004242424242424242424242424242424242"

/-- Two artefacts, of which the second was approved, up to the approval step. -/
private def approvedEvents : List Event :=
  taskEvents [.approve, .release "out"]
    ++ [.call (.attachArtefact machineCtx ⟨"reg-n1-1"⟩ "md" (List.replicate 17 65)) [],
      .call (.attachArtefact machineCtx ⟨"reg-n1-1"⟩ "text" (List.replicate 17 66)) [],
      .call (.approve phoneCtx (phoneApproval secondHash)) [],
      .call (.runTaskStep machineCtx "task-n1-2") []]

/-- The task with its approval step done, and its release as given. -/
private def releasingTask (release : Step) (status : TaskStatus) : Task where
  id := "task-n1-2"
  register := ⟨"reg-n1-1"⟩
  goal := "write"
  artefactType := "text"
  steps := [⟨.approve, .done, some 5, some 5, 0⟩, release]
  status
  createdMs := 5

private def pendingTask : Task := releasingTask ⟨.release "out", .pending, none, none, 0⟩ .running

private def releasedTask : Task :=
  releasingTask ⟨.release "out", .done, some 5, some 5, 0⟩ .done

private theorem approved_facts
    : (nodeAfter approvedEvents).world.disk.tasks[pendingTask.id]? = some pendingTask
      ∧ ((nodeAfter approvedEvents).world.disk.registers["reg-n1-1"]?).map (·.artefacts)
        = some [⟨firstHash, "md"⟩, ⟨secondHash, "text"⟩]
      ∧ (nodeAfter approvedEvents).world.disk.exports["state/exports/out/7461736b3a74.md"]? = none
      := by
  decide +kernel

private theorem releaseFileName_first : releaseFileName firstHash "md" = .ok "7461736b3a74.md" := by
  decide +kernel

private theorem pendingTask_undone : ¬pendingTask.DoneAt 1 := by
  rintro ⟨step, placed, done⟩
  cases placed
  cases done

private theorem released_facts
    : let released :=
        (nodeAfter approvedEvents).step (.call (.runTaskStep machineCtx pendingTask.id) [])
      released.world.disk.tasks[pendingTask.id]? = some releasedTask
        ∧ released.world.disk.exports["state/exports/out/7461736b3a74.md"]?
          = some (List.replicate 17 65)
        ∧ released.world.disk.approvals.list.all (·.2.subjectHash = secondHash) = true := by
  decide +kernel

/-- The release followed a human approval, and the file it wrote holds the first artefact's bytes. -/
theorem release_follows_approval_of_second
    : Happened approvedEvents (ApprovedBy pendingTask.id 0)
      ∧ ReleasedFrom (nodeAfter approvedEvents).world "out" [⟨firstHash, "md"⟩, ⟨secondHash, "text"⟩]
        "state/exports/out/7461736b3a74.md" (List.replicate 17 65) := by
  obtain ⟨stored, artefacts, absent⟩ := approved_facts
  obtain ⟨held, written, -⟩ := released_facts
  obtain ⟨happened, reg, registered, files⟩ :=
    release_follows_approval approvedEvents machineCtx pendingTask.id [] pendingTask releasedTask 1 0 _
      "out" stored held pendingTask_undone ⟨_, rfl, rfl⟩ rfl rfl (by decide) ⟨_, rfl, rfl⟩
  obtain ⟨same, registered', listed⟩ := Option.map_eq_some_iff.mp artefacts
  obtain rfl := Option.some.inj (registered'.symm.trans registered)
  rcases files "state/exports/out/7461736b3a74.md" with unchanged | ⟨bytes, released, now⟩
  · rw [absent] at unchanged
    cases written.symm.trans unchanged
  · obtain rfl := Option.some.inj (written.symm.trans now)
    exact ⟨happened, listed ▸ released⟩

/-- A release behind an approval writes out an artefact that no approval names. -/
theorem release_of_an_unapproved_artefact
    : ∃ (events : List Event) (ctx : Ctx) (row finished : Task) (artefact : ArtefactRef)
        (bytes : List UInt8),
        let before := (nodeAfter events).world.disk
        let after := ((nodeAfter events).step (.call (.runTaskStep ctx row.id) [])).world.disk
        before.tasks[row.id]? = some row ∧ after.tasks[row.id]? = some finished
        ∧ ¬row.DoneAt 1 ∧ finished.DoneAt 1
        ∧ finished.steps.map (·.kind) = [.approve, .release "out"]
        ∧ (∃ reg, before.registers[row.register.text]? = some reg ∧ artefact ∈ reg.artefacts)
        ∧ before.exports["state/exports/out/7461736b3a74.md"]? = none
        ∧ after.exports["state/exports/out/7461736b3a74.md"]? = some bytes
        ∧ releaseFileName artefact.hash artefact.kind = .ok "7461736b3a74.md"
        ∧ ∀ (key : String) (approval : Approval), after.approvals[key]? = some approval
            → approval.subjectHash ≠ artefact.hash := by
  obtain ⟨stored, artefacts, absent⟩ := approved_facts
  obtain ⟨held, written, approvals⟩ := released_facts
  obtain ⟨reg, registered, listed⟩ := Option.map_eq_some_iff.mp artefacts
  refine ⟨approvedEvents, machineCtx, pendingTask, releasedTask, ⟨firstHash, "md"⟩, _, stored, held,
    pendingTask_undone, ⟨_, rfl, rfl⟩, rfl, ⟨reg, registered, ?_⟩, absent, written,
    releaseFileName_first, ?_⟩
  · rw [listed]
    exact List.mem_cons_self
  · intro key approval filed
    have named := List.all_eq_true.mp approvals (key, approval) (Table.mem_list.mpr filed)
    rw [of_decide_eq_true named]
    decide

end Run

end VerticalAI.Correctness
