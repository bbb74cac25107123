import VerticalAI.Kernel.ApprovalHistory
import VerticalAI.Kernel.HandedPrompts

/-! Whatever left the node for an arch was cleared when it left, in every run. -/

namespace VerticalAI.Correctness
open VerticalAI.Foundation VerticalAI.Contracts VerticalAI.Store VerticalAI.Kernel

section Prompts

variable [Libraries]

/-- Opening a state directory calls no arch. -/
theorem open_sent {machine : Machine} (down : machine.up = false) (stateDir nodeId : String)
    (recoveredPartialLine : Bool) (nowMs : UInt64) (faults : List Fault)
    : (machine.step (.open stateDir nodeId recoveredPartialLine nowMs faults)).world.sent
      = machine.world.sent := by
  have opened : (RealKernel.open stateDir nodeId recoveredPartialLine nowMs machine.world
      faults).2.1.sent = machine.world.sent :=
    same_of_trail (open_emits.trail machine.world faults) .sent (by decide)
  simp only [Machine.step, down, Bool.false_eq_true, if_false]
  rcases ran : RealKernel.open stateDir nodeId recoveredPartialLine nowMs machine.world faults with
    ⟨_ | _ | _, last, rest⟩
  all_goals
    rw [ran] at opened
    exact opened

/-- What an event hands over: one cleared prompt of a call, or nothing. -/
theorem step_hands (machine : Machine) (event : Event)
    : (machine.step event).world.sent = machine.world.sent
      ∨ ∃ call faults ctx sent adapter key reg role,
          event = .call call faults
          ∧ call.prompter = some ctx
          ∧ (machine.step event).world.sent = machine.world.sent ++ [sent]
          ∧ Cleared ctx machine.world sent adapter key reg role := by
  cases event with
  | call call faults =>
      cases up : machine.up with
      | false => exact .inl (by rw [Machine.step_call_down up])
      | true =>
          rw [Machine.step_call_world up]
          rcases invoke_hands call machine.world faults with
            none | ⟨ctx, sent, adapter, key, reg, role, asks, more, cleared⟩
          · exact .inl none
          · exact .inr ⟨call, faults, ctx, sent, adapter, key, reg, role, rfl, asks, more, cleared⟩
  | close => exact .inl rfl
  | «open» stateDir nodeId recoveredPartialLine nowMs faults =>
      cases up : machine.up with
      | false => exact .inl (open_sent up stateDir nodeId recoveredPartialLine nowMs faults)
      | true => exact .inl (by simp only [Machine.step, up, if_true])

/-- In every run, whatever failed on the way: each prompt that an arch was called with was handed over
by a call whose caller was cleared for the register it was made of, to an arch that was mounted and
cleared for it too; it was that register, whole or projected, and fit the budget in force; and no call
handed over two.
-/
theorem sent_prompts_were_cleared {events : List Event} {sent : Sent}
    (out : sent ∈ (nodeAfter events).world.sent)
    : Happened events fun before event =>
        ∃ call faults ctx adapter key reg role,
          event = .call call faults
          ∧ call.prompter = some ctx
          ∧ (nodeAfter (before ++ [event])).world.sent = (nodeAfter before).world.sent ++ [sent]
          ∧ Cleared ctx (nodeAfter before).world sent adapter key reg role
          ∧ (CountsBytes adapter.countTokens → adapter.countTokens sent.prompt
              ≤ (nodeAfter before).world.kernel.budgetFor sent.archId adapter) := by
  induction events using List.reverseRecOn with
  | nil => exact absurd out List.not_mem_nil
  | append_singleton events event ih =>
      by_cases earlier : sent ∈ (nodeAfter events).world.sent
      · exact (ih earlier).append [event]
      · rw [nodeAfter_concat] at out
        rcases step_hands (nodeAfter events) event with
          none | ⟨call, faults, ctx, last, adapter, key, reg, role, is, asks, more, cleared⟩
        · rw [none] at out
          exact absurd out earlier
        · rw [more] at out
          obtain rfl := List.mem_singleton.mp ((List.mem_append.mp out).resolve_left earlier)
          rw [← nodeAfter_concat] at more
          exact .last ⟨call, faults, ctx, adapter, key, reg, role, is, asks, more, cleared,
            cleared.fits⟩

end Prompts

attribute [local instance] shortLibraries

section Run

private def plannerAdapter : ArchAdapter where
  manifest :=
    { name := "planner"
      capabilities := {.plan}
      locality := .local
      jurisdiction := "FR"
      retentionDays := none
      costPer1kTokensEur := 0
      latencyMsP50 := 1
      contextCeiling := 64
      determinism := .seededDeterministic
      identity :=
        { weightsSha256 := "sha256:p", engine := "e", engineVersion := "1", backend := "cpu"
          quant := "q4", kvCache := "f16", threads := 1, batch := 1, sampling := ∅, seed := none }
      clearance := ⟨.public, false⟩
      governed := true }
  contextBudget := 64
  countTokens _ := 1
  complete _ _ _ := .ok ['o', 'k']

private def plannerCtx : Ctx where
  principal := .machine "n1" "cli"
  clearance := ⟨.public, false⟩
  partition := "local"
  nowMs := 5

/-- A task's register is planned on. -/
private def planned : List Event :=
  [.open "state" "n1" false 0 [], .call (.mount plannerAdapter 1) [],
    .call (.submitTask plannerCtx "g" .bottom) [],
    .call (.infer plannerCtx plannerAdapter.manifest.archId .plan ⟨"reg-n1-1"⟩) []]

theorem sent_prompts_were_cleared_plan
    : ∃ sent ∈ (nodeAfter planned).world.sent,
        Happened planned fun before event =>
          ∃ call faults ctx adapter key reg role,
            event = .call call faults
            ∧ call.prompter = some ctx
            ∧ (nodeAfter (before ++ [event])).world.sent = (nodeAfter before).world.sent ++ [sent]
            ∧ Cleared ctx (nodeAfter before).world sent adapter key reg role
            ∧ (CountsBytes adapter.countTokens → adapter.countTokens sent.prompt
                ≤ (nodeAfter before).world.kernel.budgetFor sent.archId adapter) := by
  have once : (nodeAfter planned).world.sent.length = 1 := rfl
  obtain ⟨sent, alone⟩ := List.length_eq_one_iff.mp once
  have out : sent ∈ (nodeAfter planned).world.sent := by
    rw [alone]
    exact List.mem_singleton_self sent
  exact ⟨sent, out, sent_prompts_were_cleared out⟩

end Run

end VerticalAI.Correctness
