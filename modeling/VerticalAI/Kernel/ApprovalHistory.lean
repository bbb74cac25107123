import VerticalAI.Kernel.CallGuard

/-! Where human approvals come from and what they let happen, over the history of a run. -/

namespace VerticalAI.Kernel
open VerticalAI.Foundation VerticalAI.Contracts VerticalAI.Store

/-- Some event of the history was one of these, given what came before it. -/
def Happened (events : List Event) (occasion : List Event → Event → Prop) : Prop :=
  ∃ before event after, events = before ++ event :: after ∧ occasion before event

namespace Happened

variable {events : List Event} {occasion : List Event → Event → Prop}

theorem last {event : Event} (now : occasion events event)
    : Happened (events ++ [event]) occasion :=
  ⟨events, event, [], rfl, now⟩

/-- What happened stays so. -/
theorem append (happened : Happened events occasion) (more : List Event)
    : Happened (events ++ more) occasion := by
  obtain ⟨before, earlier, after, rfl, now⟩ := happened
  exact ⟨before, earlier, after ++ more, by simp only [List.append_assoc, List.cons_append], now⟩

theorem later (happened : Happened events occasion) (event : Event)
    : Happened (events ++ [event]) occasion :=
  happened.append [event]

end Happened

section Ceremony

variable [Libraries]

/-- The human that the approval names made it: on their own channel, over an unexpired challenge
for its subject, signed with the key enrolled for their device.
-/
structure Ceremony (ctx : Ctx) (approval : Approval) (devices : DeviceRegistry) : Prop where
  own : approval.approver = ctx.principal
  signed : ∃ deviceId challenge signatureHex signature key,
    ctx.principal = .human deviceId
    ∧ approval.challenge = some challenge
    ∧ challenge.actionDigest = approval.subjectHash
    ∧ ctx.nowMs < challenge.expiresAtMs
    ∧ approval.signatureHex = some signatureHex
    ∧ signatureOfHex signatureHex = some signature
    ∧ devices.keys[deviceId]? = some key
    ∧ SignatureScheme.verifies key challenge.digest signature = true

/-- The check of a human approval passes for such a ceremony only. -/
theorem ceremony_of_checked {ctx : Ctx} {approval : Approval} {devices : DeviceRegistry}
    (human : approval.kind = .human)
    (checked : i1Approval ctx.principal approval devices ctx.nowMs = .ok ())
    : Ceremony ctx approval devices := by
  unfold i1Approval at checked
  rw [if_pos human] at checked
  split at checked
  · cases checked
  · next channel =>
      rw [not_or, not_not, ne_eq, not_not] at channel
      obtain ⟨-, own⟩ := channel
      refine ⟨own, ?_⟩
      have verified : approval.verifyHuman devices ctx.nowMs = .ok () := by
        cases result : approval.verifyHuman devices ctx.nowMs with
        | ok _ => rfl
        | error error =>
            rw [result] at checked
            cases checked
      obtain ⟨deviceId, challenge, signatureHex, signature, named, rest⟩ :=
        Approval.verifyHuman_ok verified
      obtain ⟨challenged, subject, unexpired, signed, read, accepted⟩ := rest
      obtain ⟨key, enrolled, verifies⟩ := DeviceRegistry.verify_ok_iff.mp accepted
      exact ⟨deviceId, challenge, signatureHex, signature, key, own ▸ named, challenged, subject,
        unexpired, signed, read, enrolled, verifies⟩

end Ceremony

section History

variable [Libraries]

/-- The node after these events. -/
def nodeAfter (events : List Event) : Machine := Machine.fresh.run events

theorem nodeAfter_concat (events : List Event) (event : Event)
    : nodeAfter (events ++ [event]) = (nodeAfter events).step event := by
  rw [nodeAfter, Machine.run_append]
  rfl

/-- A call to approve returned, in its own ceremony. -/
def AcceptedBy (approval : Approval) (before : List Event) (event : Event) : Prop :=
  ∃ ctx faults,
    event = .call (.approve ctx approval) faults
    ∧ (nodeAfter before).answer (.approve ctx approval) faults = some (.done .unit)
    ∧ Ceremony ctx approval (nodeAfter before).world.kernel.devices

def Accepted (events : List Event) (approval : Approval) : Prop :=
  Happened events (AcceptedBy approval)

/-- One event adds no approval but one that it accepts, by cases on the event. -/
theorem approvals_step (events : List Event) (event : Event) {key : String}
    {approval : Approval} (human : approval.kind = .human)
    (held : (nodeAfter (events ++ [event])).world.disk.approvals[key]? = some approval)
    : (nodeAfter events).world.disk.approvals[key]? = some approval
      ∨ AcceptedBy approval events event := by
  rw [nodeAfter_concat] at held
  generalize same : nodeAfter events = machine at held ⊢
  rcases machine.step_cases event with ⟨call, faults, rfl, up, stepped⟩ | ⟨last, trail, stepped⟩
  · rw [stepped] at held
    by_cases elsewhere : .approvals ∉ call.footprint
    · have kept := same_of_trail ((invoke_emits call).trail machine.world faults) .approvals
        elsewhere
      rw [World.Same] at kept
      rw [kept] at held
      exact Or.inl held
    · cases call with
      | approve ctx accepted =>
          have ran := Program.map_run (fun _ => Reply.unit) (approve ctx accepted) machine.world
            faults
          change ((fun _ => Reply.unit) <$> approve ctx accepted) machine.world faults
            |>.2.1.disk.approvals[key]? = some approval at held
          rw [ran] at held
          rcases approve_effect ctx accepted machine.world faults with kept | filed
          · rw [kept] at held
            exact Or.inl held
          · rw [filed.table] at held
            rcases Table.getElem?_insert_inv held with ⟨-, rfl⟩ | earlier
            · refine Or.inr ⟨ctx, faults, rfl, ?_, ?_⟩
              · rw [same, Machine.answer_up up]
                change some (((fun _ => Reply.unit) <$> approve ctx approval)
                  machine.world faults).1 = _
                rw [ran, filed.returned]
                rfl
              · rw [same]
                exact ceremony_of_checked human filed.checked
            · exact Or.inl earlier
      | _ => exact absurd (by simp [Call.footprint, stepAreas]) elsewhere
  · have kept := same_of_trail trail .approvals (by decide)
    rw [World.Same] at kept
    rw [stepped, kept] at held
    exact Or.inl held

/-- Every human approval on file was accepted in its own ceremony, by induction on the run. -/
theorem approvals_accepted (events : List Event)
    : ∀ (key : String) (approval : Approval),
        (nodeAfter events).world.disk.approvals[key]? = some approval
        → approval.kind = .human → Accepted events approval := by
  induction events using List.reverseRecOn with
  | nil =>
      intro key approval held
      change (∅ : Table Approval)[key]? = some approval at held
      rw [Std.ExtTreeMap.getElem?_empty] at held
      cases held
  | append_singleton events event ih =>
      intro key approval held human
      rcases approvals_step events event human held with earlier | accepted
      · exact (ih key approval earlier human).later event
      · exact Happened.last accepted

omit [Libraries] in
/-- An approval step of the row is done. -/
def DoneApproval (row : Task) (i : Nat) : Prop :=
  ∃ step, row.steps[i]? = some step ∧ step.status = .done ∧ step.kind = .approve

/-- A human approval that was accepted earlier names the subject. -/
def HumanApproved (events : List Event) (subject : String) : Prop :=
  ∃ approval, approval.kind = .human ∧ approval.subjectHash = subject ∧ Accepted events approval

/-- A call of the scheduler finished the approval step, whose subject a human had approved. -/
def ApprovedBy (id : String) (i : Nat) (before : List Event) (event : Event) : Prop :=
  ∃ ctx faults row after subject,
    event = .call (.runTaskStep ctx id) faults
    ∧ (nodeAfter before).up = true
    ∧ (nodeAfter before).world.disk.tasks[id]? = some row ∧ ¬row.DoneAt i
    ∧ (nodeAfter (before ++ [event])).world.disk.tasks[id]? = some after ∧ DoneApproval after i
    ∧ (approvalSubject ctx id (nodeAfter before).world []).1 = .done subject
    ∧ HumanApproved before subject

/-- A call promoted the module, whose content a human had approved if it needed one. -/
def PromotedBy (module : ModuleManifest) (before : List Event) (event : Event) : Prop :=
  ∃ ctx verdicts faults,
    event = .call (.promote ctx module verdicts) faults
    ∧ (nodeAfter before).up = true
    ∧ (NeedsHuman module → HumanApproved before module.provenance.contentHash)

/-- Where the finished approval steps of a call come from. -/
theorem doneApproval_trail {call : Call} {first last : World}
    (trail : Trail (Authorised first.disk call) first last)
    : ∀ (id : String) (row : Task) (i : Nat), last.disk.tasks[id]? = some row
        → DoneApproval row i
        → (∃ old, first.disk.tasks[id]? = some old ∧ DoneApproval old i)
          ∨ ∃ ctx old step, call = .runTaskStep ctx id ∧ first.disk.tasks[id]? = some old
              ∧ old.next = some (i, step) ∧ step.kind = .approve
              ∧ Approved first.disk ctx old.register := by
  let Sourced (world : World) : Prop :=
    ∀ (id : String) (row : Task) (i : Nat), world.disk.tasks[id]? = some row
      → DoneApproval row i
      → (∃ old, first.disk.tasks[id]? = some old ∧ DoneApproval old i)
        ∨ ∃ ctx old step, call = .runTaskStep ctx id ∧ first.disk.tasks[id]? = some old
            ∧ old.next = some (i, step) ∧ step.kind = .approve
            ∧ Approved first.disk ctx old.register
  have step : ∀ world update, Sourced world → Authorised first.disk call world update
      → Sourced (Updates.apply update world) := by
    intro world update sourced authorised id row i held done
    rcases tasks_apply held with ⟨rfl, rfl⟩ | earlier
    · obtain ⟨step, placed, finished, approval⟩ := done
      rcases authorised with fresh | ⟨ctx, old, rfl, stored, progress⟩
      · exact absurd ⟨step, placed, finished⟩ (fresh i)
      · obtain ⟨before, found, same⟩ := progress.alike.kind placed
        have kind : before.kind = .approve := same.trans approval
        rw [progress.alike.id]
        rcases progress.done i ⟨step, placed, finished⟩ with
          ⟨other, there, ended⟩ | ⟨other, next, -, approved⟩
        · rw [found] at there
          obtain rfl := Option.some.inj there
          exact Or.inl ⟨old, stored, before, found, ended, kind⟩
        · obtain ⟨there, -, -⟩ := Task.next_some next
          rw [found] at there
          obtain rfl := Option.some.inj there
          exact Or.inr ⟨ctx, old, before, rfl, stored, next, kind, approved kind⟩
    · exact sourced id row i earlier done
  have sourced : Sourced last :=
    trail.preserves step fun id row i held done => Or.inl ⟨row, held, done⟩
  exact sourced

/-- Where the promoted modules of a call come from. -/
theorem hot_trail {call : Call} {first last : World}
    (trail : Trail (Authorised first.disk call) first last)
    : ∀ (subject : String) (module : ModuleManifest), last.disk.hot[subject]? = some module
        → first.disk.hot[subject]? = some module
          ∨ ∃ ctx verdicts, call = .promote ctx module verdicts
              ∧ (NeedsHuman module → PromotionApproved first.disk module) := by
  let Sourced (world : World) : Prop :=
    ∀ (subject : String) (module : ModuleManifest), world.disk.hot[subject]? = some module
      → first.disk.hot[subject]? = some module
        ∨ ∃ ctx verdicts, call = .promote ctx module verdicts
            ∧ (NeedsHuman module → PromotionApproved first.disk module)
  have step : ∀ world update, Sourced world → Authorised first.disk call world update
      → Sourced (Updates.apply update world) := by
    intro world update sourced authorised subject module held
    rcases hot_apply held with rfl | earlier
    · obtain ⟨⟨ctx, verdicts, called⟩, -, -, approved⟩ := authorised
      exact Or.inr ⟨ctx, verdicts, called, approved⟩
    · exact sourced subject module earlier
  have sourced : Sourced last := trail.preserves step fun _ _ held => Or.inl held
  exact sourced

/-- Every finished approval step was approved by a human, by induction on the run. -/
theorem steps_approved (events : List Event)
    : ∀ (id : String) (row : Task) (i : Nat),
        (nodeAfter events).world.disk.tasks[id]? = some row → DoneApproval row i
        → Happened events (ApprovedBy id i) := by
  induction events using List.reverseRecOn with
  | nil =>
      intro id row i held
      change (∅ : Table Task)[id]? = some row at held
      rw [Std.ExtTreeMap.getElem?_empty] at held
      cases held
  | append_singleton events event ih =>
      intro id row i held done
      have now := held
      rw [nodeAfter_concat] at held
      have keyed : TasksKeyed (nodeAfter events).world.disk := Reachable.tasksKeyed ⟨events, rfl⟩
      rcases (nodeAfter events).step_cases event with
        ⟨call, faults, rfl, up, stepped⟩ | ⟨last, trail, stepped⟩
      · rw [stepped] at held
        rcases doneApproval_trail (invoke_guard keyed call faults) id row i held done with
          ⟨old, earlier, ended⟩ | ⟨ctx, old, step, rfl, stored, next, kind, approved⟩
        · exact (ih id old i earlier ended).later _
        · obtain ⟨reg, registered, flows, key, approval, filed, human, named⟩ := approved
          obtain ⟨placed, undone, -⟩ := Task.next_some next
          refine Happened.last ⟨ctx, faults, old, row, Register.subject reg, rfl, up, stored, ?_, now,
            done, ?_, approval, human, named, approvals_accepted events key approval filed human⟩
          · rintro ⟨other, there, ended⟩
            rw [placed] at there
            obtain rfl := Option.some.inj there
            exact undone ended
          · have current : old.next.map (·.2.kind) = some .approve := by
              rw [next, Option.map_some, kind]
            rw [approvalSubject_working stored registered flows current]
      · have kept := same_of_trail trail .tasks (by decide)
        rw [World.Same] at kept
        rw [stepped, kept] at held
        exact (ih id row i held done).later event

/-- Every promoted module was promoted by a call that had the approval it needed, by induction on
the run.
-/
theorem hot_approved (events : List Event)
    : ∀ (subject : String) (module : ModuleManifest),
        (nodeAfter events).world.disk.hot[subject]? = some module
        → Happened events (PromotedBy module) := by
  induction events using List.reverseRecOn with
  | nil =>
      intro subject module held
      change (∅ : Table ModuleManifest)[subject]? = some module at held
      rw [Std.ExtTreeMap.getElem?_empty] at held
      cases held
  | append_singleton events event ih =>
      intro subject module held
      rw [nodeAfter_concat] at held
      have keyed : TasksKeyed (nodeAfter events).world.disk := Reachable.tasksKeyed ⟨events, rfl⟩
      rcases (nodeAfter events).step_cases event with
        ⟨call, faults, rfl, up, stepped⟩ | ⟨last, trail, stepped⟩
      · rw [stepped] at held
        rcases hot_trail (invoke_guard keyed call faults) subject module held with
          earlier | ⟨ctx, verdicts, rfl, approved⟩
        · exact (ih subject module earlier).later _
        · refine Happened.last ⟨ctx, verdicts, faults, rfl, up, fun needed => ?_⟩
          obtain ⟨key, approval, filed, human, named⟩ := approved needed
          exact ⟨approval, human, named, approvals_accepted events key approval filed human⟩
      · have kept := same_of_trail trail .modules (by decide)
        rw [World.Same] at kept
        rw [stepped, kept] at held
        exact (ih subject module held).later event

end History

end VerticalAI.Kernel
