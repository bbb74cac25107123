import VerticalAI.Kernel.Projection
import VerticalAI.Kernel.TaskReads

/-! What an inference does when it returns, and that a refusal before the arch is called does
nothing.
-/

namespace VerticalAI.Kernel
open VerticalAI.Foundation VerticalAI.Contracts VerticalAI.Store

variable [Libraries] {ctx : Ctx} {archId : String} {adapter : ArchAdapter} {budget : UInt32}
  {regId : RegisterId} {prompt : List Char} {world after : World} {faults rest : List Fault}

/-- The prompt fits as it is, or its projection was recorded. -/
theorem fit_done {fitted : List Char} {projected : Bool}
    (ran : fit ctx archId adapter budget regId prompt world faults
      = (.done (fitted, projected), after, rest))
    : projected = false ∧ fitted = prompt ∧ adapter.countTokens prompt ≤ budget ∧ after = world
      ∨ projected = true ∧ project prompt budget adapter.countTokens = some fitted
        ∧ ∃ payload, after = world.logged "infer.projected" ctx.nowMs payload := by
  unfold fit at ran
  by_cases exceeds : budget < adapter.countTokens prompt
  · simp only [exceeds, if_true] at ran
    cases fits : project prompt budget adapter.countTokens with
    | none =>
        rw [fits] at ran
        cases ran
    | some text =>
        rw [fits] at ran
        obtain ⟨_, middle, left, logged, result⟩ := Program.bind_done_inv ran
        obtain rfl := log_done logged
        cases result
        exact Or.inr ⟨rfl, rfl, _, rfl⟩
  · simp only [exceeds, if_false] at ran
    cases ran
    exact Or.inl ⟨rfl, rfl, UInt32.not_lt.mp exceeds, rfl⟩

omit [Libraries] in
theorem complete_done {maxTokens : UInt32} {output : List Char}
    (ran : complete archId adapter prompt maxTokens world faults = (.done output, after, rest))
    : after = Updates.apply (Update.send ⟨archId, prompt, maxTokens⟩) world := by
  unfold complete at ran
  rw [Program.observe_bind_run, Program.perform_bind_run] at ran
  cases answered : adapter.complete world.sent.length prompt maxTokens with
  | ok output =>
      rw [answered] at ran
      cases ran
      rfl
  | error reason =>
      rw [answered] at ran
      cases ran

omit [Libraries] in
theorem bumpStats_done {tokensIn : UInt32} {projected : Bool}
    (ran : bumpStats archId tokensIn projected world faults = (.done (), after, rest))
    : ∃ stats, after = Updates.apply (Update.setStats archId stats) world := by
  unfold bumpStats at ran
  obtain ⟨stored, middle, left, read, written⟩ := Program.bind_done_inv ran
  obtain ⟨-, rfl⟩ := Program.fetch_done_inv read
  exact ⟨_, save_done written⟩

theorem writeRegister_done {reg : Register}
    (ran : writeRegister ctx reg world faults = (.done (), after, rest))
    : after = World.logged (Updates.apply (Update.putRegister reg) world) "register.written"
        ctx.nowMs (.str reg.id.text) := by
  unfold writeRegister at ran
  obtain ⟨_, middle, left, written, logged⟩ := Program.bind_done_inv ran
  obtain rfl := save_done written
  exact log_done logged

theorem logged_sent (kind : String) (wallMs : UInt64) (payload : Json) (world : World)
    : (world.logged kind wallMs payload).sent = world.sent := by
  unfold World.logged
  split <;> rfl

/-- The events are what was appended to the record, on disk and in memory. -/
def World.Appends (world after : World) (events : List LedgerEvent) : Prop :=
  after.disk.ledger = world.disk.ledger ++ events
  ∧ after.kernel.chain.events = world.kernel.chain.events ++ events

omit [Libraries] in
theorem World.Appends.trans {world middle after : World} {first second : List LedgerEvent}
    (head : world.Appends middle first) (tail : middle.Appends after second)
    : world.Appends after (first ++ second) := by
  constructor
  · rw [tail.1, head.1, List.append_assoc]
  · rw [tail.2, head.2, List.append_assoc]

/-- Logging appends one event, of its kind. -/
theorem logged_appends (kind : String) (wallMs : UInt64) (payload : Json) (world : World)
    : ∃ event, world.Appends (world.logged kind wallMs payload) [event] ∧ event.kind = kind := by
  refine ⟨world.logEvent kind wallMs payload, ⟨logged_ledger kind wallMs payload world, ?_⟩, rfl⟩
  unfold World.logged
  split <;> rfl

/-- The tokens an arch takes: what it was given, or what its adapter reports. -/
def RealKernel.budgetFor (node : RealKernel) (archId : String) (adapter : ArchAdapter) : UInt32 :=
  node.budgets[archId]?.getD adapter.contextBudget

/-- What an inference that returned did. -/
structure Inferred (ctx : Ctx) (archId : String) (regId : RegisterId) (world after : World)
    (out : InferOutcome) (adapter : ArchAdapter) (reg : Register) (role : String)
    (prompt : List Char) : Prop where
  mounted : world.kernel.adapters[archId]? = some adapter
  stored : world.disk.registers[regId.text]? = some reg
  caller : reg.label.flowsTo ctx.clearance = true
  arch : reg.label.flowsTo adapter.manifest.clearance = true
  fitted : out.projected = false ∧ prompt = lower reg role.toList
        ∧ adapter.countTokens prompt ≤ world.kernel.budgetFor archId adapter
    ∨ out.projected = true
        ∧ project (lower reg role.toList) (world.kernel.budgetFor archId adapter)
            adapter.countTokens = some prompt
  sent : after.sent
    = world.sent ++ [⟨archId, prompt, min (world.kernel.budgetFor archId adapter) 1024⟩]
  tokens : out.tokensIn = adapter.countTokens prompt
  recorded : ∃ events, world.Appends after events
    ∧ events.map (·.kind)
      = (if out.projected then ["infer.projected"] else []) ++ ["infer", "register.written"]

/-- An inference that returned, step by step. -/
theorem infer_done {capability : Capability} {out : InferOutcome}
    (ran : infer ctx archId capability regId world faults = (.done out, after, rest))
    : ∃ adapter reg prompt,
        Inferred ctx archId regId world after out adapter reg (roleOf capability) prompt := by
  unfold infer kernel at ran
  rw [Program.observe_bind_run] at ran
  dsimp only at ran
  cases mounted : world.kernel.adapters[archId]? with
  | none =>
      rw [mounted] at ran
      cases ran
  | some adapter =>
      rw [mounted] at ran
      obtain ⟨reg, middle, left, read, ran⟩ := Program.bind_done_inv ran
      obtain ⟨stored, caller⟩ := readRegister_done read
      rw [readRegister_emits.still_inv read] at ran
      obtain ⟨_, checked, left, flows, ran⟩ := Program.bind_done_inv ran
      obtain ⟨arch, same⟩ : reg.label.flowsTo adapter.manifest.clearance = true
          ∧ checked = world := by
        unfold i2Flow at flows
        by_cases arch : reg.label.flowsTo adapter.manifest.clearance = true
        · rw [if_pos arch] at flows
          cases flows
          exact ⟨arch, rfl⟩
        · rw [if_neg arch] at flows
          cases flows
      rw [same] at ran
      rw [Program.observe_bind_run] at ran
      obtain ⟨⟨prompt, projected⟩, middle, left, fitted, ran⟩ := Program.bind_done_inv ran
      obtain ⟨output, handed, left, completed, ran⟩ := Program.bind_done_inv ran
      have handedIs := complete_done completed
      obtain ⟨_, recorded, left, logged, ran⟩ := Program.bind_done_inv ran
      have recordedIs := log_done logged
      rw [Program.perform_bind_run] at ran
      obtain ⟨_, counted, left, bumped, ran⟩ := Program.bind_done_inv ran
      obtain ⟨stats, countedIs⟩ := bumpStats_done bumped
      obtain ⟨_, last, left, written, result⟩ := Program.bind_done_inv ran
      have lastIs := writeRegister_done written
      cases result
      have sent : after.sent = middle.sent
          ++ [⟨archId, prompt, min (world.kernel.budgetFor archId adapter) 1024⟩] := by
        calc after.sent
          _ = counted.sent := by rw [lastIs, logged_sent]; rfl
          _ = recorded.sent := by rw [countedIs]; rfl
          _ = handed.sent := by rw [recordedIs, logged_sent]
          _ = _ := by rw [handedIs]; rfl
      have ledger : ∃ events, middle.Appends after events
          ∧ events.map (·.kind) = ["infer", "register.written"] := by
        obtain ⟨inferred, first, inferredKind⟩ : ∃ event,
            middle.Appends recorded [event] ∧ event.kind = "infer" := by
          rw [recordedIs, handedIs]
          exact logged_appends "infer" ctx.nowMs _ _
        obtain ⟨stored, second, storedKind⟩ : ∃ event,
            recorded.Appends after [event] ∧ event.kind = "register.written" := by
          rw [lastIs, countedIs]
          exact logged_appends "register.written" ctx.nowMs _ _
        refine ⟨[inferred, stored], first.trans second, ?_⟩
        rw [List.map_cons, List.map_cons, inferredKind, storedKind]
        rfl
      obtain ⟨events, appended, kinds⟩ := ledger
      rcases fit_done fitted with ⟨rfl, rfl, fits, rfl⟩ | ⟨rfl, fits, payload, rfl⟩
      · exact ⟨adapter, reg, _, mounted, stored, caller, arch, Or.inl ⟨rfl, rfl, fits⟩, sent, rfl,
          events, appended, kinds⟩
      · obtain ⟨event, grown, kind⟩ := logged_appends "infer.projected" ctx.nowMs payload world
        rw [logged_sent] at sent
        refine ⟨adapter, reg, _, mounted, stored, caller, arch, Or.inr ⟨rfl, fits⟩, sent, rfl, _,
          grown.trans appended, ?_⟩
        rw [List.map_append, kinds, List.map_cons, kind]
        rfl

/-- What an inference that reports an error has done: nothing, unless the store failed or the
arch was called.
-/
def InferRefused (world : World) (error : KernelError) (after : World) : Prop :=
  after = world ∨ (∃ reason, error = .store reason)
    ∨ ∃ sent, after.sent = world.sent ++ [sent]

/-- Only the store makes logging fail. -/
theorem log_fails {kind : String} {wallMs : UInt64} {payload : Json}
    : (log kind wallMs payload).Satisfies (fun _ => True) (Within [.record]) (fun _ _ => True)
        (fun error _ => ∃ reason, error = .store reason) := by
  have stored {update : Update} {wrap : String → KernelError}
      (fails : ∀ reason, ∃ text, wrap reason = .store text)
      : (Program.persist wrap update : Syscall Unit).Satisfies (fun _ => True) (fun _ _ => True)
          (fun _ _ => True) (fun error _ => ∃ reason, error = .store reason) :=
    Program.satisfies_persist (fun _ _ => trivial) (fun _ _ => trivial)
      fun _ reason _ => fails reason
  have looked : (kernel id).Satisfies (fun _ => True) (fun _ _ => True)
      (fun _ _ => True) (fun error _ => ∃ reason, error = .store reason) :=
    Program.satisfies_observe fun _ _ => trivial
  have clocked {clock : HlcClock}
      : (Program.perform (.setClock clock) : Syscall Unit).Satisfies (fun _ => True)
          (fun _ _ => True) (fun _ _ => True) (fun error _ => ∃ reason, error = .store reason) :=
    Program.satisfies_perform (fun _ _ => trivial) fun _ _ => trivial
  have fails : (log kind wallMs payload).Satisfies (fun _ => True) (fun _ _ => True)
      (fun _ _ => True) (fun error _ => ∃ reason, error = .store reason) := by
    refine looked.bind fun node => clocked.bind fun _ => ?_
    refine Program.Satisfies.bind (stored fun reason => ⟨reason, rfl⟩) fun _ => ?_
    refine Program.satisfies_ite (fun _ => ?_) fun _ => ?_
    · exact Program.satisfies_pure fun _ _ => trivial
    · exact stored fun _ => ⟨_, rfl⟩
  exact fun world faults holds =>
    ⟨log_emits.trail world faults, (fails world faults holds).2.1, log_emits.met world faults⟩

section Refusals

omit [Libraries] in
/-- A program that makes no update refuses by doing nothing. -/
theorem reads_refuse {α : Type} {program : Syscall α} (emits : program.Emits fun _ _ => False)
    : program.Satisfies (· = world) (fun _ _ => True) (fun _ => (· = world))
        (InferRefused world) := by
  let Same (later : World) : Prop := later = world
  have same : program.Satisfies Same (fun _ _ => False) (fun _ => Same) (fun _ => Same) :=
    emits.keeps fun _ _ _ none => none.elim
  exact same.consequence (fun _ holds => holds) (fun _ _ none => none.elim)
    (fun _ _ holds => holds) fun _ _ holds => Or.inl holds

omit [Libraries] in
/-- Whatever fails once the arch was called is no refusal before it. -/
theorem handed_refuses {α : Type} {program : Syscall α} {areas : List Area} [Libraries]
    (emits : program.Emits (Within areas)) (elsewhere : Area.sent ∉ areas)
    : program.Satisfies (fun later => ∃ sent, later.sent = world.sent ++ [sent])
        (fun _ _ => True) (fun _ later => ∃ sent, later.sent = world.sent ++ [sent])
        (InferRefused world) := by
  let Handed (later : World) : Prop := ∃ sent, later.sent = world.sent ++ [sent]
  have kept : program.Satisfies Handed (Within areas) (fun _ => Handed) (fun _ => Handed) := by
    refine emits.keeps fun later update handed within => ?_
    have same : World.Same later _ .sent :=
      World.Same.apply later update fun equal => elsewhere (equal ▸ within.1)
    obtain ⟨sent, held⟩ := handed
    exact ⟨sent, Eq.trans same held⟩
  exact kept.consequence (fun _ holds => holds) (fun _ _ _ => trivial) (fun _ _ holds => holds)
    fun _ _ holds => Or.inr (Or.inr holds)

theorem fit_refuses
    : (fit ctx archId adapter budget regId prompt).Satisfies (· = world) (fun _ _ => True)
        (fun _ later => later.sent = world.sent) (InferRefused world) := by
  unfold fit
  refine Program.satisfies_ite (fun _ => ?_) fun _ => ?_
  · cases project prompt budget adapter.countTokens with
    | none => exact Program.satisfies_fail fun _ same => Or.inl same
    | some text =>
        let Unsent (later : World) : Prop := later.sent = world.sent
        have step : ∀ later update, Unsent later → Within [.record] later update
            → Unsent (Updates.apply update later) := by
          intro later update unsent within
          have same : World.Same later _ .sent :=
            World.Same.apply later update fun equal => absurd (equal ▸ within.1) (by decide)
          exact Eq.trans same unsent
        have logged {payload : Json}
            : (log "infer.projected" ctx.nowMs payload).Satisfies (· = world) (fun _ _ => True)
                (fun _ => Unsent) (InferRefused world) :=
          (log_fails.carries step).consequence
            (fun _ same => ⟨trivial, congrArg World.sent same⟩) (fun _ _ _ => trivial)
            (fun _ _ holds => holds.2) fun _ _ holds => Or.inr (Or.inl holds.1)
        exact logged.bind fun _ => Program.satisfies_pure fun _ unsent => unsent
  · exact Program.satisfies_pure fun _ same => congrArg World.sent same

omit [Libraries] in
/-- The prompt is handed over first. -/
theorem complete_refuses {maxTokens : UInt32}
    : (complete archId adapter prompt maxTokens).Satisfies (fun later => later.sent = world.sent)
        (fun _ _ => True) (fun _ later => ∃ sent, later.sent = world.sent ++ [sent])
        (InferRefused world) := by
  unfold complete
  have looked : (Program.observe (·.sent.length) : Syscall Nat).Satisfies
      (fun later => later.sent = world.sent) (fun _ _ => True)
      (fun _ later => later.sent = world.sent) (InferRefused world) :=
    Program.satisfies_observe fun _ unsent => unsent
  have handed {sent : Sent} : (Program.perform (.send sent) : Syscall Unit).Satisfies
      (fun later => later.sent = world.sent) (fun _ _ => True)
      (fun _ later => ∃ sent, later.sent = world.sent ++ [sent]) (InferRefused world) :=
    Program.satisfies_perform (fun _ _ => trivial) fun later unsent =>
      ⟨sent, congrArg (· ++ [sent]) unsent⟩
  refine looked.bind fun calls => handed.bind fun _ => ?_
  cases adapter.complete calls prompt maxTokens with
  | ok output => exact Program.satisfies_pure fun _ holds => holds
  | error reason => exact Program.satisfies_fail fun _ holds => Or.inr (Or.inr holds)

/-- An inference that reports an error did nothing, met the store or called the arch. -/
theorem infer_refuses {capability : Capability}
    : (infer ctx archId capability regId).Satisfies (· = world) (fun _ _ => True)
        (fun _ _ => True) (InferRefused world) := by
  unfold infer
  refine (reads_refuse kernel_emits).bind fun mounted => ?_
  cases mounted with
  | none => exact Program.satisfies_fail fun _ same => Or.inl same
  | some adapter =>
      refine (reads_refuse readRegister_emits).bind fun reg => ?_
      refine (reads_refuse Program.emits_lift).bind fun _ => ?_
      refine (reads_refuse kernel_emits).bind fun budget => ?_
      refine fit_refuses.bind fun fitted => ?_
      refine complete_refuses.bind fun output => ?_
      refine (handed_refuses log_emits (by decide)).bind fun _ => ?_
      have noted : (Program.perform (.pushInferLog archId reg.label) : Syscall Unit).Emits
          (Within [.inferLog]) :=
        perform_area .inferLog rfl (by decide) fun _ => trivial
      refine (handed_refuses noted (by decide)).bind fun _ => ?_
      refine (handed_refuses bumpStats_emits (by decide)).bind fun _ => ?_
      refine (handed_refuses writeRegister_emits (by decide)).bind fun _ => ?_
      exact Program.satisfies_pure fun _ _ => trivial

end Refusals

end VerticalAI.Kernel
