import VerticalAI.Correctness.ClearedPrompts
import VerticalAI.Kernel.PromptRecord

/-! The record accounts for what was handed out: it tells of no inference that did not happen, and a
prompt it does not tell of was handed over by a call that did not return.
-/

namespace VerticalAI.Correctness
open VerticalAI.Foundation VerticalAI.Contracts VerticalAI.Store VerticalAI.Kernel

variable [Libraries]

/-- The node took this call, and the call did not return. -/
def failedHere (machine : Machine) : Event → Bool
  | .call call faults =>
      match machine.answer call faults with
      | some (.failed _) | some .crashed => true
      | some (.done _) | none => false
  | _ => false

/-- How many calls of a run did not return. -/
def failures (machine : Machine) : List Event → Nat
  | [] => 0
  | event :: rest => (failedHere machine event).toNat + failures (machine.step event) rest

theorem failures_concat (machine : Machine) (events : List Event) (event : Event)
    : failures machine (events ++ [event])
      = failures machine events + (failedHere (machine.run events) event).toNat := by
  induction events generalizing machine with
  | nil => simp [failures, Machine.run]
  | cons first rest ih =>
      rw [List.cons_append, failures, failures, ih, Nat.add_assoc]
      rfl

/-- An event leaves at most as much unrecorded as calls of it failed. -/
theorem owes_step {machine : Machine} {debt : Nat} (owes : machine.world.Owes debt) (event : Event)
    : ∃ more ≤ (failedHere machine event).toNat,
        (machine.step event).world.Owes (debt + more) := by
  have unchanged {after : World} (sent : after.sent = machine.world.sent)
      (ledger : after.disk.ledger = machine.world.disk.ledger)
      : ∃ more ≤ (failedHere machine event).toNat, after.Owes (debt + more) := by
    refine ⟨0, Nat.zero_le _, ?_⟩
    rw [World.Owes, World.infers, sent, ledger]
    exact owes
  cases event with
  | call call faults =>
      cases up : machine.up with
      | false =>
          rw [Machine.step_call_down up]
          exact unchanged rfl rfl
      | true =>
          rw [Machine.step_call_world up, failedHere, Machine.answer_up up]
          have settled := invoke_balanced call debt machine.world faults owes
          rcases ran : invoke call machine.world faults with ⟨value | error | _, after, rest⟩
          all_goals rw [ran] at settled
          · exact ⟨0, Nat.zero_le _, settled.of_done⟩
          · exact settled.elim (⟨0, Nat.zero_le _, ·⟩) fun failed => ⟨1, le_rfl, failed.2⟩
          · exact settled.elim (⟨0, Nat.zero_le _, ·⟩) fun failed => ⟨1, le_rfl, failed.2⟩
  | close => exact unchanged rfl rfl
  | «open» stateDir nodeId recoveredPartialLine nowMs faults =>
      cases up : machine.up with
      | false =>
          refine unchanged (open_sent up stateDir nodeId recoveredPartialLine nowMs faults) ?_
          rw [Machine.step_open_disk up]
          exact (same_of_trail (open_emits.trail machine.world faults) .record (by decide)).2.1
      | true =>
          simp only [Machine.step, up, if_true]
          exact unchanged rfl rfl

/-- In every run, whatever failed on the way: there are no more inferences on the record than prompts
were handed to an arch, and no more prompts were handed over beyond those than calls failed.
-/
theorem prompts_are_accounted_for (events : List Event)
    : (nodeAfter events).world.infers ≤ (nodeAfter events).world.sent.length
      ∧ (nodeAfter events).world.sent.length
        ≤ (nodeAfter events).world.infers + failures .fresh events := by
  have owed : ∃ debt ≤ failures .fresh events, (nodeAfter events).world.Owes debt := by
    induction events using List.reverseRecOn with
    | nil => exact ⟨0, le_rfl, rfl⟩
    | append_singleton events event ih =>
        obtain ⟨debt, bounded, owes⟩ := ih
        obtain ⟨more, failed, after⟩ := owes_step owes event
        rw [nodeAfter_concat, failures_concat]
        exact ⟨debt + more, Nat.add_le_add bounded failed, after⟩
  obtain ⟨debt, bounded, owes⟩ := owed
  rw [World.Owes] at owes
  omega

end VerticalAI.Correctness
