import VerticalAI.Kernel.Inference

/-! An inference that returns handed the arch a prompt within its budget, of a register that caller
and arch are cleared for, and put it on the record; a refusal before that does nothing.
-/

namespace VerticalAI.Correctness
open VerticalAI.Foundation VerticalAI.Contracts VerticalAI.Kernel

/-- How many of the events are of this kind. -/
def kindCount (kind : String) (events : List LedgerEvent) : Nat :=
  (events.map (·.kind)).count kind

section Inferences

variable [Libraries]

/-- What an inference did that returned: the prompt it handed over fits the budget in force and is
what its tokens were counted of, the record tells of it once and of a projection if there was one,
and the register's label flows to caller and arch.
-/
structure InferredWithin (ctx : Ctx) (archId : String) (regId : RegisterId) (world after : World)
    (out : InferOutcome) (adapter : ArchAdapter) (reg : Register) (prompt : List Char)
    (events : List LedgerEvent) : Prop where
  mounted : world.kernel.adapters[archId]? = some adapter
  stored : world.disk.registers[regId.text]? = some reg
  sent : after.sent
    = world.sent ++ [⟨archId, prompt, min (world.kernel.budgetFor archId adapter) 1024⟩]
  fits : adapter.countTokens prompt ≤ world.kernel.budgetFor archId adapter
  tokens : out.tokensIn = adapter.countTokens prompt
  recorded : world.Appends after events
  projected : out.projected = true ↔ kindCount "infer.projected" events = 1
  once : kindCount "infer" events = 1
  caller : reg.label.flowsTo ctx.clearance = true
  arch : reg.label.flowsTo adapter.manifest.clearance = true

/-- An inference that returned stayed within budget, clearance and record; one that was refused, for
anything but its storage and before the arch was called, changed nothing.
-/
theorem infer_within_budget (ctx : Ctx) (archId : String) (capability : Capability)
    (regId : RegisterId) (world : World) (faults : List Fault)
    (bytes : ∀ adapter, world.kernel.adapters[archId]? = some adapter
      → CountsBytes adapter.countTokens)
    : (∀ out after rest,
        infer ctx archId capability regId world faults = (.done out, after, rest)
        → ∃ adapter reg prompt events,
            InferredWithin ctx archId regId world after out adapter reg prompt events)
      ∧ ∀ error after rest,
          infer ctx archId capability regId world faults = (.failed error, after, rest)
          → after.sent = world.sent → (∀ reason, error ≠ .store reason) → after = world := by
  refine ⟨fun out after rest ran => ?_, fun error after rest ran unsent notStore => ?_⟩
  · obtain ⟨adapter, reg, prompt, inferred⟩ := infer_done ran
    obtain ⟨events, appended, kinds⟩ := inferred.recorded
    have fits : adapter.countTokens prompt ≤ world.kernel.budgetFor archId adapter := by
      rcases inferred.fitted with ⟨-, -, fits⟩ | ⟨-, fitted⟩
      · exact fits
      · exact project_fits (bytes adapter inferred.mounted) fitted
    refine ⟨adapter, reg, prompt, events, inferred.mounted, inferred.stored, inferred.sent, fits,
      inferred.tokens, appended, ?_, ?_, inferred.caller, inferred.arch⟩
    · rw [kindCount, kinds]
      cases out.projected with
      | true => decide
      | false => decide
    · rw [kindCount, kinds]
      cases out.projected with
      | true => decide
      | false => decide
  · rcases infer_refuses.failed rfl ran with same | ⟨reason, fromStore⟩ | ⟨sent, handed⟩
    · exact same
    · exact absurd fromStore (notStore reason)
    · rw [unsent] at handed
      exact absurd handed (by simp)

end Inferences

attribute [local instance] shortLibraries

section Run

/-- Counts bytes, as far as a `u32` goes. -/
private def byteCount (text : List Char)
    : UInt32 := UInt32.ofNat (min (byteLength text) (2 ^ 32 - 1))

private theorem byteCount_countsBytes : CountsBytes byteCount := by
  intro first second longer
  rw [UInt32.le_iff_toNat_le, byteCount, byteCount, UInt32.toNat_ofNat', UInt32.toNat_ofNat',
    Nat.mod_eq_of_lt (by omega), Nat.mod_eq_of_lt (by omega)]
  omega

private def drafterManifest : ArchManifest where
  name := "drafter"
  capabilities := {.generate}
  locality := .local
  jurisdiction := "FR"
  retentionDays := none
  costPer1kTokensEur := 0
  latencyMsP50 := 1
  contextCeiling := 64
  determinism := .seededDeterministic
  identity :=
    { weightsSha256 := "sha256:d", engine := "e", engineVersion := "1", backend := "cpu"
      quant := "q4", kvCache := "f16", threads := 1, batch := 1, sampling := ∅, seed := none }
  clearance := ⟨.public, false⟩
  governed := true

private def drafter : ArchAdapter where
  manifest := drafterManifest
  contextBudget := 64
  countTokens := byteCount
  complete _ _ _ := .ok ['o', 'k']

private def brief : Register where
  id := ⟨"r"⟩
  taskId := "t"
  label := Label.bottom
  goal := "g"
  constraints := []
  evidence := [⟨"a very long piece of evidence", .web, "h"⟩]
  decisions := []
  openQuestions := []
  artefacts := []

private def drafting : World where
  disk := { registers := (∅ : Table Register).insert "r" brief }
  kernel :=
    { nodeId := "n1", stateDir := "state", clock := HlcClock.new "n1"
      adapters := (∅ : Table ArchAdapter).insert "a" drafter }

private def drafterCtx : Ctx where
  principal := .machine "n1" "cli"
  clearance := ⟨.public, false⟩
  partition := "local"
  nowMs := 5

/-- A register too long for the arch is projected. -/
theorem infer_within_budget_of_projection
    : ∃ out after rest,
        infer drafterCtx "a" .generate ⟨"r"⟩ drafting [] = (.done out, after, rest)
        ∧ out.projected = true
        ∧ ∃ adapter reg prompt events,
            InferredWithin drafterCtx "a" ⟨"r"⟩ drafting after out adapter reg prompt events := by
  have bytes : ∀ adapter, drafting.kernel.adapters["a"]? = some adapter
      → CountsBytes adapter.countTokens := by
    intro adapter mounted
    have same : drafting.kernel.adapters["a"]? = some drafter := Std.ExtTreeMap.getElem?_insert_self
    rw [same] at mounted
    cases mounted
    exact byteCount_countsBytes
  have done : (infer drafterCtx "a" .generate ⟨"r"⟩ drafting []).1 = .done ⟨"a", true, 49⟩ := by
    decide +kernel
  have ran : infer drafterCtx "a" .generate ⟨"r"⟩ drafting [] = (.done ⟨"a", true, 49⟩, _, _) :=
    Prod.ext done rfl
  exact ⟨_, _, _, ran, rfl,
    (infer_within_budget drafterCtx "a" .generate ⟨"r"⟩ drafting [] bytes).1 _ _ _ ran⟩

end Run

end VerticalAI.Correctness
