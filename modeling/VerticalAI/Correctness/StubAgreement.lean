import VerticalAI.Stub.Hooks

/-! The stub as a reference for the real kernel: given the same script, what each refuses and what
it ends with.
-/

namespace VerticalAI.Correctness
open VerticalAI.Foundation VerticalAI.Contracts VerticalAI.Kernel VerticalAI.Stub

section Runs

variable [Libraries]

/-- Both refused the same calls on the same grounds, and ended with the same stopped scopes, the
same approvals and the same hot modules.
-/
structure Faithful (stub : Served StubKernel Response) (real : Served World Response)
    : Prop where
  refusals : stub.answers.map verdict = real.answers.map verdict
  stoppedScopes : stub.state.stops.stoppedScopes = real.state.kernel.stops.stoppedScopes
  approvals : ∀ approval, approval ∈ stub.state.approvals
    ↔ ∃ key : String, real.state.disk.approvals[key]? = some approval
  hot : ∀ subject, subject ∈ stub.state.hot ↔ subject ∈ real.state.disk.hot

/-- Twins ended with the same sets. -/
theorem Twins.faithful {stub : Served StubKernel Response} {real : Served World Response}
    (twins : Twins stub real) (refusals : stub.answers.map verdict = real.answers.map verdict)
    : Faithful stub real where
  refusals := refusals
  stoppedScopes := StopSet.stoppedScopes_congr twins.paired.stopped_eq
  approvals := twins.same.approvals
  hot := twins.same.hot

/-- A script of fewer calls than there are numbers for, at two a call, leaves room for each. -/
theorem along_roomy {setup : Setup} {script : List (TraitCall Nat)}
    (few : 2 * script.length < UInt64.size)
    (ample : Along (serving fun call => invoke call.toCall) setup.world script Ample)
    : Along (serving fun call => invoke call.toCall) setup.world script
        fun served item => Ample served item ∧ Roomy served := by
  rintro before item after rfl
  refine ⟨ample before item after rfl, ?_⟩
  rw [Roomy, Served.script_answers_length]
  rw [List.length_append, List.length_cons] at few
  omega

/-- The stub is a faithful reference for exactly the scripts in which every inference that gets as
far as the arch is of a register its caller is cleared for. The stub looks the register up where
the real kernel reads it for the caller; at the first other inference the stub accepts what the
real kernel refuses. A call draws two numbers for ids at most, and both number them with a `u64`.
-/
theorem stub_faithful_iff (injective : Function.Injective Digest.sha256) {setup : Setup}
    (started : setup.Started) {script : List (TraitCall Nat)}
    (few : 2 * script.length < UInt64.size)
    (ample : Along (serving fun call => invoke call.toCall) setup.world script Ample)
    : Faithful (setup.onStub script) (setup.onReal script)
      ↔ Along (serving fun call => invoke call.toCall) setup.world script CallerCleared := by
  have lockstep := twins_in_lockstep injective
  have admitted := along_roomy few ample
  have alike := lockstep.answers_iff (Setup.twins started) admitted
  constructor
  · intro faithful
    exact alike.mp faithful.refusals
  · intro cleared
    have twins := lockstep.related_script (Setup.twins started) admitted cleared
    exact Twins.faithful twins (alike.mpr cleared)

end Runs

section Run

attribute [local instance] plainLibraries

private def openManifest : ArchManifest where
  name := "mock"
  capabilities := {.generate}
  locality := .local
  jurisdiction := "EU"
  retentionDays := none
  costPer1kTokensEur := 0
  latencyMsP50 := 1
  contextCeiling := 4294967295
  determinism := .seededDeterministic
  identity :=
    { weightsSha256 := "w", engine := "e", engineVersion := "1", backend := "cpu", quant := "q"
      kvCache := "f", threads := 1, batch := 1, sampling := ∅, seed := none }
  clearance := ⟨.personal, true⟩
  governed := false

/-- Two kernels with one arch that is cleared for everything personal. -/
private def pair : Setup where
  stateDir := "state"
  openedMs := 5
  realNode := "n1"
  stubNode := "stub"
  hooks := [.registerArch openManifest 5]

private def clearedTo (scope : Scope) : Ctx where
  principal := .machine "n1" "cli"
  clearance := ⟨scope, false⟩
  partition := "local"
  nowMs := 6

/-- A caller submits a personal task and asks the arch about it. -/
private def personalScript (scope : Scope) : List (TraitCall Nat) :=
  [.submitTask (clearedTo scope) "goal" ⟨.personal, .own, ∅⟩,
    .infer (clearedTo scope) openManifest.archId .plan 0]

private theorem pair_started : pair.Started := by rfl

/-- What the real kernel is in when the arch is asked. -/
private def submitted (scope : Scope) : Served World Response :=
  .script (serving fun call => invoke call.toCall) pair.world ((personalScript scope).take 1)

private theorem submitted_budget (scope : Scope)
    : (submitted scope).state.kernel.budgets[openManifest.archId]? = some 4294967295 := by
  change (Std.ExtTreeMap.insert _ openManifest.archId 4294967295)[openManifest.archId]? = _
  exact Std.ExtTreeMap.getElem?_insert_self

private theorem submitted_adapter (scope : Scope)
    : (submitted scope).state.kernel.adapters[openManifest.archId]?
      = some (mockAdapter openManifest 4294967295) := by
  change (Std.ExtTreeMap.insert _ openManifest.archId
    (mockAdapter openManifest openManifest.contextCeiling))[openManifest.archId]? = _
  exact Std.ExtTreeMap.getElem?_insert_self

private theorem submitted_id (scope : Scope)
    : named (submitted scope).answers 0 = some "reg-n1-1" := by
  rfl

private theorem submitted_register (scope : Scope)
    : (submitted scope).state.disk.registers["reg-n1-1"]?
      = some { id := ⟨"reg-n1-1"⟩, taskId := "task-n1-2", label := ⟨.personal, .own, ∅⟩
               goal := "goal", constraints := [], evidence := [], decisions := []
               openQuestions := [], artefacts := [] } := by
  change (Std.ExtTreeMap.insert _ "reg-n1-1" _)["reg-n1-1"]? = _
  rw [Std.ExtTreeMap.getElem?_insert_self]
  rfl

/-- Whoever asks reaches the arch. -/
private theorem submitted_reaches (scope : Scope)
    : ∃ reg, reg.label = ⟨.personal, .own, ∅⟩
      ∧ Reaches (submitted scope) (.infer (clearedTo scope) openManifest.archId .plan 0)
          (clearedTo scope) openManifest.archId .plan (mockAdapter openManifest 4294967295) reg :=
  ⟨_, rfl, ⟨0, "reg-n1-1", rfl, submitted_id scope, submitted_register scope⟩,
    submitted_adapter scope, by decide⟩

/-- Only the second call asks an arch. -/
private theorem along_personal {fact : Served World Response → TraitCall Nat → Prop}
    {scope : Scope}
    (first : fact ⟨[], pair.world⟩ (.submitTask (clearedTo scope) "goal" ⟨.personal, .own, ∅⟩))
    (second : fact (submitted scope)
      (.infer (clearedTo scope) openManifest.archId .plan 0))
    : Along (serving fun call => invoke call.toCall) pair.world (personalScript scope) fact := by
  change Throughout ([_] ++ [_]) _
  exact Throughout.concat_iff.mpr ⟨Throughout.single_iff.mpr first, second⟩

/-- The budget is as large as a budget can be. -/
private theorem personal_ample (scope : Scope)
    : Along (serving fun call => invoke call.toCall) pair.world (personalScript scope) Ample := by
  refine along_personal ?_ ?_
  · intro ctx archId capability adapter reg reaches _
    obtain ⟨handle, regId, asks, -⟩ := reaches.asks
    cases asks
  · intro ctx archId capability adapter reg reaches _
    obtain ⟨handle, regId, asks, -⟩ := reaches.asks
    cases asks
    rw [RealKernel.budgetFor, submitted_budget, Option.getD_some, UInt32.le_iff_toNat_le]
    exact Nat.le_of_lt_succ (UInt32.toNat_lt _)

/-- A caller that is cleared for everything personal is faithfully answered. -/
theorem personal_script_is_faithful
    : Faithful (pair.onStub (personalScript .personal))
        (pair.onReal (personalScript .personal)) := by
  refine (stub_faithful_iff (fun _ _ same => same) pair_started (by decide)
    (personal_ample .personal)).mpr ?_
  refine along_personal ?_ ?_
  · intro ctx archId capability adapter reg reaches
    obtain ⟨handle, regId, asks, -⟩ := reaches.asks
    cases asks
  · intro ctx archId capability adapter reg reaches
    obtain ⟨handle, regId, asks, names, stored⟩ := reaches.asks
    cases asks
    cases (submitted_id .personal).symm.trans names
    cases (submitted_register .personal).symm.trans stored
    decide

/-- The stub answers a caller that may not be shown the register; the real kernel refuses it. -/
theorem stub_answers_uncleared_caller
    : pair.Started
      ∧ Along (serving fun call => invoke call.toCall) pair.world (personalScript .public) Ample
      ∧ ¬Faithful (pair.onStub (personalScript .public))
          (pair.onReal (personalScript .public)) := by
  refine ⟨pair_started, personal_ample .public, fun faithful => ?_⟩
  have cleared := ((twins_in_lockstep fun _ _ same => same).answers_iff
    (Setup.twins pair_started) (along_roomy (by decide) (personal_ample .public))).mp
      faithful.refusals
  obtain ⟨reg, label, reaches⟩ := submitted_reaches .public
  have last : CallerCleared (submitted .public) _ := cleared [_] _ [] rfl
  have flows := last _ _ _ _ _ reaches
  rw [label] at flows
  revert flows
  decide

end Run

end VerticalAI.Correctness
