import VerticalAI.Stub.Scripts
import VerticalAI.Stub.StubCalls

/-! When the stub and the real kernel are as good as the same to a caller that names every id by the
call that returned it, and that their calls keep them so.
-/

namespace VerticalAI.Stub
open VerticalAI.Foundation VerticalAI.Contracts VerticalAI.Kernel

-----------------------------------------------------------------------------------------
-- Names
-----------------------------------------------------------------------------------------

/-- The next call has no handle yet. -/
theorem named_free (responses : List Response) : named responses responses.length = none := by
  simp only [named, List.getElem?_eq_none le_rfl, Option.bind_none]

/-- A call adds the name it returned, if it returned one. -/
theorem named_concat (responses : List Response) (response : Response)
    : named (responses ++ [response])
      = Function.update (named responses) responses.length (returnedId response) := by
  funext handle
  by_cases same : handle = responses.length
  · subst same
    simp only [named, List.getElem?_concat_length, Option.bind_some, Function.update_self]
  · rw [Function.update_of_ne same]
    rcases Nat.lt_or_gt_of_ne same with before | beyond
    · simp only [named, List.getElem?_append_left before]
    · have past : (responses ++ [response]).length ≤ handle := by
        rw [List.length_append, List.length_singleton]
        exact beyond
      simp only [named, List.getElem?_eq_none past, List.getElem?_eq_none beyond.le]

/-- An answer without an id names nothing new. -/
theorem named_silent {responses : List Response} {response : Response}
    (silent : returnedId response = none)
    : named (responses ++ [response]) = named responses := by
  rw [named_concat, silent, Function.update_eq_self_iff, named_free]

-----------------------------------------------------------------------------------------
-- Twins
-----------------------------------------------------------------------------------------

def StubBearing.holdings (bearing : StubBearing) : Holdings :=
  ⟨bearing.registers, bearing.stops, bearing.counter.toNat⟩

def realHoldings (bearing : Bearing) : Holdings :=
  ⟨bearing.registers, bearing.stops, bearing.counter.toNat⟩

variable [Libraries]

/-- What no id is part of is the same in both; approvals and hot modules are the same sets. -/
structure Matches (stub : StubBearing) (real : Bearing) : Prop where
  arches : ∀ id : String, real.adapters[id]?
    = stub.arches[id]?.map fun manifest => mockAdapter manifest manifest.contextCeiling
  devices : real.devices = stub.devices
  locks : real.locks = stub.locks
  home : real.home = stub.home
  liveness : real.liveness = stub.liveness
  approvals : ∀ approval, approval ∈ stub.approvals
    ↔ ∃ key : String, real.approvals[key]? = some approval
  keys : ∀ (key : String) approval, real.approvals[key]? = some approval
    → key = approvalKey approval
  hot : ∀ subject, subject ∈ stub.hot ↔ subject ∈ real.hot

omit [Libraries] in
/-- A caller sees the same under every name. -/
structure Paired (stub : StubBearing) (real : Bearing) (mine theirs : Naming) : Prop where
  sound : stub.holdings.Sound mine
  realSound : (realHoldings real).Sound theirs
  view : stub.holdings.view mine = (realHoldings real).view theirs

/-- No call that was served drew more than two numbers. -/
structure Numbered (calls : Nat) (counter realCounter : UInt64) : Prop where
  stub : counter.toNat ≤ 2 * calls
  real : realCounter.toNat ≤ 2 * calls

/-- There are numbers left for one more call. -/
def Roomy {σ : Type} (served : Served σ Response) : Prop :=
  2 * (served.answers.length + 1) < UInt64.size

section Numbers

variable {calls : Nat} {counter realCounter : UInt64}

omit [Libraries]

theorem Numbered.more (numbered : Numbered calls counter realCounter)
    : Numbered (calls + 1) counter realCounter :=
  ⟨numbered.stub.trans (by omega), numbered.real.trans (by omega)⟩

/-- The next two numbers, where there is room for a call. -/
theorem Numbered.next (numbered : Numbered calls counter realCounter)
    (room : 2 * (calls + 1) < UInt64.size)
    : (counter + 1).toNat = counter.toNat + 1 ∧ (counter + 2).toNat = counter.toNat + 2
      ∧ (realCounter + 1).toNat = realCounter.toNat + 1
      ∧ (realCounter + 2).toNat = realCounter.toNat + 2 := by
  obtain ⟨stub, real⟩ := numbered
  have one : (1 : UInt64).toNat = 1 := rfl
  have two : (2 : UInt64).toNat = 2 := rfl
  refine ⟨?_, ?_, ?_, ?_⟩
  all_goals
    apply Counter.toNat_add
    omega

end Numbers

structure Twins (first : Served StubKernel Response) (second : Served World Response) : Prop where
  taken : first.answers.length = second.answers.length
  numbered : Numbered second.answers.length first.state.counter second.state.kernel.counter
  same : Matches first.state.bearing second.state.bearing
  paired : Paired first.state.bearing second.state.bearing (named first.answers)
    (named second.answers)

/-- A call is answered alike by both and leaves them twins. -/
structure Concur (first : Served StubKernel Response) (second : Served World Response)
    (stubCall : StubCall Reply) (realCall : Syscall Reply)
    : Prop where
  alike : verdict (some (stubCall first.state []).1) = verdict (some (realCall second.state []).1)
  twins : Twins
    ⟨first.answers ++ [some (stubCall first.state []).1], (stubCall first.state []).2.1⟩
    ⟨second.answers ++ [some (realCall second.state []).1], (realCall second.state []).2.1⟩

section Concurring

variable {first : Served StubKernel Response} {second : Served World Response}
  {stubCall : StubCall Reply} {realCall : Syscall Reply} {outcome : Outcome KernelError Reply}
  {realOutcome : Outcome KernelError Reply} {stub : StubBearing} {real : Bearing}

/-- It is enough to know how the call ends in each. -/
theorem Twins.concur (twins : Twins first second)
    (ends : stubCall.Ends StubKernel.bearing first.state outcome stub)
    (realEnds : realCall.Ends World.bearing second.state realOutcome real)
    (alike : verdict (some outcome) = verdict (some realOutcome))
    (numbered : Numbered (second.answers.length + 1) stub.counter real.counter)
    (same : Matches stub real)
    (paired : Paired stub real (named (first.answers ++ [some outcome]))
      (named (second.answers ++ [some realOutcome])))
    : Concur first second stubCall realCall := by
  obtain ⟨rfl, rfl⟩ := ends
  obtain ⟨rfl, rfl⟩ := realEnds
  refine ⟨alike, ?_, ?_, same, paired⟩
  · simp only [List.length_append, List.length_singleton, twins.taken]
  · rw [List.length_append]
    exact numbered

/-- No new name is learnt. -/
theorem Twins.concur_silent (twins : Twins first second)
    (ends : stubCall.Ends StubKernel.bearing first.state outcome stub)
    (realEnds : realCall.Ends World.bearing second.state realOutcome real)
    (alike : verdict (some outcome) = verdict (some realOutcome))
    (silent : returnedId (some outcome) = none) (realSilent : returnedId (some realOutcome) = none)
    (numbered : Numbered (second.answers.length + 1) stub.counter real.counter)
    (same : Matches stub real)
    (paired : Paired stub real (named first.answers) (named second.answers))
    : Concur first second stubCall realCall := by
  refine twins.concur ends realEnds alike numbered same ?_
  rw [named_silent silent, named_silent realSilent]
  exact paired

/-- Nothing changes that answers depend on. -/
theorem Twins.concur_still (twins : Twins first second)
    (ends : stubCall.Ends StubKernel.bearing first.state outcome first.state.bearing)
    (realEnds : realCall.Ends World.bearing second.state realOutcome second.state.bearing)
    (alike : verdict (some outcome) = verdict (some realOutcome))
    (silent : returnedId (some outcome) = none) (realSilent : returnedId (some realOutcome) = none)
    : Concur first second stubCall realCall :=
  twins.concur_silent ends realEnds alike silent realSilent twins.numbered.more twins.same twins.paired

end Concurring

-----------------------------------------------------------------------------------------
-- What twins have in common
-----------------------------------------------------------------------------------------

section Common

variable {stub : StubBearing} {real : Bearing} {mine theirs : Naming}

/-- Registers, STOPs and the counter are matched by name and not here. -/
theorem Matches.refiled (same : Matches stub real) {registers realRegisters : Table Register}
    {stops realStops : StopSet} {counter realCounter : UInt64}
    : Matches { stub with registers, stops, counter }
        { real with registers := realRegisters, stops := realStops, counter := realCounter } :=
  ⟨same.arches, same.devices, same.locks, same.home, same.liveness, same.approvals, same.keys,
    same.hot⟩

/-- Both kernels know the same subjects as approved. -/
theorem Matches.approved_eq (same : Matches stub real) (subject : String)
    : stub.approved subject = real.approved subject := by
  rw [Bool.eq_iff_iff, Bearing.approved_iff, StubBearing.approved, List.any_eq_true]
  simp only [same.approvals, Bool.and_eq_true, decide_eq_true_eq]
  constructor
  · rintro ⟨approval, ⟨key, held⟩, named, human⟩
    exact ⟨key, approval, held, named, human⟩
  · rintro ⟨key, approval, held, named, human⟩
    exact ⟨approval, ⟨key, held⟩, named, human⟩

namespace Paired

omit [Libraries]

variable (paired : Paired stub real mine theirs) {handle : Nat} {id other : String}
include paired

/-- Both kernels have the same scopes stopped. -/
theorem stopped_eq (scope : String) : stub.stops.stopped scope = real.stops.stopped scope := by
  have mineIff := paired.sound.stopped_iff scope
  rw [paired.view] at mineIff
  exact Bool.eq_iff_iff.mpr (mineIff.trans (paired.realSound.stopped_iff scope).symm)

/-- A handle names something in both or in neither. -/
theorem name_cases (handle : Nat)
    : (mine handle = none ∧ theirs handle = none)
      ∨ ∃ id other, mine handle = some id ∧ theirs handle = some other := by
  have named : (mine handle).isSome = (theirs handle).isSome :=
    congrFun (congrArg View.named paired.view) handle
  cases mineIs : mine handle <;> cases theirsIs : theirs handle
  · exact Or.inl ⟨rfl, rfl⟩
  · rw [mineIs, theirsIs] at named
    cases named
  · rw [mineIs, theirsIs] at named
    cases named
  · exact Or.inr ⟨_, _, rfl, rfl⟩

/-- Registers under one name have one label. -/
theorem label_eq (names : mine handle = some id) (also : theirs handle = some other)
    : stub.registers[id]?.map (·.label) = real.registers[other]?.map (·.label) := by
  have seen := stub.holdings.view_label names
  have realSeen := (realHoldings real).view_label also
  rw [paired.view, realSeen] at seen
  exact seen.symm

/-- Both kernels know the STOP of a handle, or neither does. -/
theorem hasStop_eq (names : mine handle = some id) (also : theirs handle = some other)
    : stub.stops.hasStop id = real.stops.hasStop other := by
  have seen := stub.holdings.hasStop_eq names
  have realSeen := (realHoldings real).hasStop_eq also
  rw [paired.view, ← realSeen] at seen
  exact seen

/-- The stub may use up numbers that are not returned. -/
theorem count {later : UInt64} (grown : stub.counter.toNat ≤ later.toNat)
    : Paired { stub with counter := later } real mine theirs where
  sound := paired.sound.count grown
  realSound := paired.realSound
  view := paired.view

/-- Both write a register of one label under the same name. -/
theorem write (names : mine handle = some id) (also : theirs handle = some other)
    {reg realReg : Register} (own : reg.id.text = id) (realOwn : realReg.id.text = other)
    (label : reg.label = realReg.label)
    : Paired { stub with registers := stub.registers.insert id reg }
        { real with registers := real.registers.insert other realReg } mine theirs where
  sound := paired.sound.write names own
  realSound := paired.realSound.write also realOwn
  view := by
    have seen := paired.sound.view_write names reg
    have realSeen := paired.realSound.view_write also realReg
    rw [paired.view, label, ← realSeen] at seen
    exact seen

/-- The real kernel writes a register with the label it had. -/
theorem rewrite (also : theirs handle = some other) {reg realReg : Register}
    (stored : real.registers[other]? = some reg) (realOwn : realReg.id.text = other)
    (label : realReg.label = reg.label)
    : Paired stub { real with registers := real.registers.insert other realReg } mine theirs where
  sound := paired.sound
  realSound := paired.realSound.write also realOwn
  view := by
    have realSeen := paired.realSound.view_write also realReg
    have before := (realHoldings real).view_label also
    have held : (realHoldings real).registers[other]? = some reg := stored
    rw [held, Option.map_some, ← label] at before
    have kept : ((realHoldings real).view theirs).write handle realReg.label
        = (realHoldings real).view theirs := by
      rw [View.write, ← before, Function.update_eq_self]
    rw [paired.view, ← kept, ← realSeen]
    rfl

end Paired

end Common

-----------------------------------------------------------------------------------------
-- Calls
-----------------------------------------------------------------------------------------

namespace Twins

variable {first : Served StubKernel Response} {second : Served World Response}
  (twins : Twins first second) {ctx : Ctx}
include twins

/-- Both kernels submit a task alike, each under its own ids. -/
theorem submitTask (room : Roomy second) (goal : String) (label : Label)
    : Concur first second (.registerId <$> StubKernel.submitTask ctx goal label)
        (.registerId <$> Kernel.submitTask ctx goal label) := by
  obtain ⟨reg, own, labelled, ends⟩ := StubKernel.submitTask_ends ctx goal label first.state
  obtain ⟨realReg, realOwn, realLabelled, realEnds⟩ :=
    submitTask_ends ctx goal label second.state
  obtain ⟨one, two, realOne, realTwo⟩ := twins.numbered.next room
  obtain ⟨few, realFew⟩ := twins.numbered
  have above : first.state.counter.toNat < (first.state.counter + 1).toNat := by omega
  have grown : (first.state.counter + 1).toNat ≤ (first.state.counter + 2).toNat := by omega
  have realAbove : second.state.kernel.counter.toNat < (second.state.kernel.counter + 1).toNat := by
    omega
  have realGrown : (second.state.kernel.counter + 1).toNat
      ≤ (second.state.kernel.counter + 2).toNat := by omega
  have mine := twins.paired.sound.submit (named_free first.answers) above grown own
  have theirs := twins.paired.realSound.submit (named_free second.answers) realAbove realGrown
    realOwn
  have numbered : Numbered (second.answers.length + 1) (first.state.counter + 2)
      (second.state.kernel.counter + 2) := ⟨by omega, by omega⟩
  refine twins.concur (ends.map _) (realEnds.map _) rfl numbered twins.same.refiled ?_
  rw [named_concat, named_concat]
  refine ⟨mine.1, theirs.1, ?_⟩
  have seen := mine.2
  rw [twins.paired.view, labelled, twins.taken, ← realLabelled, ← theirs.2] at seen
  rw [twins.taken]
  exact seen

/-- Both have a next number, and counting it leaves them numbered. -/
theorem draws (room : Roomy second)
    : first.state.counter.toNat < (first.state.counter + 1).toNat
      ∧ second.state.kernel.counter.toNat < (second.state.kernel.counter + 1).toNat
      ∧ Numbered (second.answers.length + 1) (first.state.counter + 1)
          (second.state.kernel.counter + 1) := by
  obtain ⟨one, -, realOne, -⟩ := twins.numbered.next room
  obtain ⟨few, realFew⟩ := twins.numbered
  refine ⟨?_, ?_, ?_, ?_⟩ <;> omega

/-- Both kernels read the register of a handle alike, or refuse it alike. -/
theorem readRegister {handle : Nat} {id other : String}
    (names : named first.answers handle = some id) (also : named second.answers handle = some other)
    : Concur first second (.register <$> StubKernel.readRegister ctx ⟨id⟩)
        (.register <$> Kernel.readRegister ctx ⟨other⟩) := by
  have labels := twins.paired.label_eq names also
  cases stored : first.state.bearing.registers[id]? with
  | none =>
      rw [stored, Option.map_none, eq_comm, Option.map_eq_none_iff] at labels
      exact twins.concur_still ((StubKernel.readRegister_missing stored).map _)
        ((readRegister_missing labels).map _) rfl rfl rfl
  | some reg =>
      rw [stored, Option.map_some, eq_comm, Option.map_eq_some_iff] at labels
      obtain ⟨realReg, realStored, label⟩ := labels
      cases flows : reg.label.flowsTo ctx.clearance with
      | false =>
          exact twins.concur_still ((StubKernel.readRegister_above stored flows).map _)
            ((readRegister_above realStored (label ▸ flows)).map _) rfl rfl rfl
      | true =>
          exact twins.concur_still ((StubKernel.readRegister_ends stored flows).map _)
            ((readRegister_ends realStored (label ▸ flows)).map _) rfl rfl rfl

theorem writeRegister {handle : Nat} {id other : String}
    (names : named first.answers handle = some id) (also : named second.answers handle = some other)
    (reg : Register)
    : Concur first second
        ((fun _ => .unit) <$> StubKernel.writeRegister ctx { reg with id := ⟨id⟩ })
        ((fun _ => .unit) <$> Kernel.writeRegister ctx { reg with id := ⟨other⟩ }) :=
  twins.concur_silent ((StubKernel.writeRegister_ends ctx _ first.state).map _)
    ((writeRegister_ends ctx _ second.state).map _) rfl rfl rfl twins.numbered.more
    twins.same.refiled
    (twins.paired.write names also rfl rfl rfl)

/-- Both kernels grant a lease alike, or refuse it alike. -/
theorem lease (resource : String) (ttlMs : UInt64)
    : Concur first second (.lease <$> StubKernel.lease ctx resource ttlMs)
        (.lease <$> Kernel.lease ctx resource ttlMs) := by
  have locks := twins.same.locks
  have home := twins.same.home
  cases acquired : first.state.bearing.locks.acquire resource ctx.principal ctx.nowMs ttlMs
    ctx.partition first.state.bearing.home with
  | error error =>
      have busy := acquired
      rw [← locks, ← home] at busy
      exact twins.concur_still ((StubKernel.lease_refused acquired).map _)
        ((lease_refused busy).map _) rfl rfl rfl
  | ok given =>
      obtain ⟨granted, locks', home'⟩ := given
      have free := acquired
      rw [← locks, ← home] at free
      exact twins.concur_silent ((StubKernel.lease_granted acquired).map _)
        ((lease_granted free).map _) rfl rfl rfl twins.numbered.more
        ⟨twins.same.arches, twins.same.devices, rfl, rfl, twins.same.liveness,
          twins.same.approvals, twins.same.keys, twins.same.hot⟩
        ⟨twins.paired.sound, twins.paired.realSound, twins.paired.view⟩

/-- Both kernels take an approval alike, or refuse it alike. -/
theorem approve (injective : Function.Injective Digest.sha256) (approval : Approval)
    : Concur first second ((fun _ => .unit) <$> StubKernel.approve ctx approval)
        ((fun _ => .unit) <$> Kernel.approve ctx approval) := by
  cases checked : i1Approval ctx.principal approval first.state.bearing.devices ctx.nowMs with
  | error error =>
      have refused := checked
      rw [← twins.same.devices] at refused
      exact twins.concur_still ((StubKernel.approve_refused checked).map _)
        ((approve_refused refused).map _) rfl rfl rfl
  | ok _ =>
      have passed := checked
      rw [← twins.same.devices] at passed
      refine twins.concur_silent ((StubKernel.approve_done checked).map _)
        ((approve_done passed).map _) rfl rfl rfl twins.numbered.more
        ⟨twins.same.arches, twins.same.devices, twins.same.locks, twins.same.home,
          twins.same.liveness, fun found => ?_, fun key found held => ?_, twins.same.hot⟩
        ⟨twins.paired.sound, twins.paired.realSound, twins.paired.view⟩
      · rw [List.mem_append, List.mem_singleton, twins.same.approvals]
        constructor
        · rintro (⟨key, held⟩ | rfl)
          · by_cases same : found = approval
            · subst same
              exact ⟨approvalKey found, Std.ExtTreeMap.getElem?_insert_self⟩
            · have apart : key ≠ approvalKey approval := by
                rw [twins.same.keys key found held]
                exact fun equal => same (approvalKey_injective injective equal)
              exact ⟨key, (Table.getElem?_insert_ne apart).trans held⟩
          · exact ⟨approvalKey found, Std.ExtTreeMap.getElem?_insert_self⟩
        · rintro ⟨key, held⟩
          rcases Table.getElem?_insert_inv held with ⟨-, rfl⟩ | before
          · exact Or.inr rfl
          · exact Or.inl ⟨key, before⟩
      · rcases Table.getElem?_insert_inv held with ⟨rfl, rfl⟩ | before
        · rfl
        · exact twins.same.keys key found before

/-- Both kernels take a STOP alike, each under its own id. -/
theorem stop (room : Roomy second) (scope : String)
    : Concur first second (.text <$> StubKernel.stop ctx scope)
        (.text <$> Kernel.stop ctx scope) := by
  cases human : ctx.principal.isHuman with
  | false =>
      have absent := i1Presence_machine human
      exact twins.concur_still ((StubKernel.stop_refused absent).map _)
        ((stop_refused absent).map _) rfl rfl rfl
  | true =>
      obtain ⟨event, own, inScope, ends⟩ := StubKernel.stop_done scope human first.state
      obtain ⟨realEvent, realOwn, realScope, realEnds⟩ := stop_done scope human second.state
      obtain ⟨above, realAbove, numbered⟩ := twins.draws room
      have mine := twins.paired.sound.issue (named_free first.answers) above own
      have theirs := twins.paired.realSound.issue (named_free second.answers) realAbove realOwn
      refine twins.concur (ends.map _) (realEnds.map _) rfl numbered twins.same.refiled ?_
      rw [named_concat, named_concat]
      refine ⟨mine.1, theirs.1, ?_⟩
      have seen := mine.2
      rw [twins.paired.view, inScope, twins.taken, ← realScope, ← theirs.2] at seen
      rw [twins.taken]
      exact seen

/-- Both kernels lift the STOP of a handle alike. -/
theorem resume (room : Roomy second) {handle : Nat} {id other : String}
    (names : named first.answers handle = some id) (also : named second.answers handle = some other)
    : Concur first second ((fun _ => .unit) <$> StubKernel.resume ctx id)
        ((fun _ => .unit) <$> Kernel.resume ctx other) := by
  cases human : ctx.principal.isHuman with
  | false =>
      have absent := i1Presence_machine human
      exact twins.concur_still ((StubKernel.resume_refused absent).map _)
        ((resume_refused absent).map _) rfl rfl rfl
  | true =>
      obtain ⟨above, realAbove, numbered⟩ := twins.draws room
      have stops := twins.paired.hasStop_eq names also
      cases known : first.state.bearing.stops.hasStop id with
      | false =>
          rw [known] at stops
          exact twins.concur_silent ((StubKernel.resume_unknown human known).map _)
            ((resume_unknown human stops.symm).map _) rfl rfl rfl
            ⟨numbered.stub, twins.numbered.more.real⟩ twins.same.refiled
            (twins.paired.count above.le)
      | true =>
          rw [known] at stops
          obtain ⟨event, own, cites, ends⟩ := StubKernel.resume_done human known
          obtain ⟨realEvent, realOwn, realCites, realEnds⟩ := resume_done human stops.symm
          subst cites realCites
          have new : ¬UsedUp first.state.counter.toNat event.id := own ▸ UsedUp.fresh above
          have realNew : ¬UsedUp second.state.kernel.counter.toNat realEvent.id :=
            realOwn ▸ UsedUp.fresh realAbove
          refine twins.concur_silent (ends.map _) (realEnds.map _) rfl rfl rfl numbered
            twins.same.refiled
            ⟨twins.paired.sound.lift names own above,
              twins.paired.realSound.lift also realOwn realAbove, ?_⟩
          have seen := twins.paired.sound.view_lift names new (first.state.counter + 1).toNat
          have realSeen := twins.paired.realSound.view_lift also realNew
            (second.state.kernel.counter + 1).toNat
          rw [twins.paired.view, ← realSeen] at seen
          exact seen

theorem runAutomation (business module : String)
    : Concur first second ((fun _ => .unit) <$> StubKernel.runAutomation ctx business module)
        ((fun _ => .unit) <$> Kernel.runAutomation ctx business module) := by
  cases human : ctx.principal.isHuman with
  | true =>
      exact twins.concur_still ((StubKernel.runAutomation_human human).map _)
        ((runAutomation_human human).map _) rfl rfl rfl
  | false =>
      have alike : i4Liveness business second.state.bearing.liveness[business]?
            second.state.bearing.stops ctx.nowMs
          = i4Liveness business first.state.bearing.liveness[business]?
            first.state.bearing.stops ctx.nowMs := by
        rw [i4Liveness, i4Liveness, twins.paired.stopped_eq, twins.same.liveness]
      cases checked : i4Liveness business first.state.bearing.liveness[business]?
        first.state.bearing.stops ctx.nowMs with
      | error error =>
          exact twins.concur_still ((StubKernel.runAutomation_refused human checked).map _)
            ((runAutomation_refused human (alike.trans checked)).map _) rfl rfl rfl
      | ok _ =>
          exact twins.concur_still ((StubKernel.runAutomation_done human checked).map _)
            ((runAutomation_done human (alike.trans checked)).map _) rfl rfl rfl

/-- Both kernels promote a module alike, by the approvals that both have. -/
theorem promote (module : ModuleManifest) (verdicts : List GateVerdict)
    : Concur first second ((fun _ => .unit) <$> StubKernel.promote ctx module verdicts)
        ((fun _ => .unit) <$> Kernel.promote ctx module verdicts) := by
  have alike := congrArg (promotion module verdicts)
    (twins.same.approved_eq module.provenance.contentHash)
  cases checked : promotion module verdicts
    (first.state.bearing.approved module.provenance.contentHash) with
  | error error =>
      exact twins.concur_still ((StubKernel.promote_refused checked).map _)
        ((promote_refused (alike.symm.trans checked)).map _) rfl rfl rfl
  | ok _ =>
      refine twins.concur_silent ((StubKernel.promote_done checked).map _)
        ((promote_done (alike.symm.trans checked)).map _) rfl rfl rfl twins.numbered.more
        ⟨twins.same.arches, twins.same.devices, twins.same.locks, twins.same.home,
          twins.same.liveness, twins.same.approvals, twins.same.keys, fun subject => ?_⟩
        ⟨twins.paired.sound, twins.paired.realSound, twins.paired.view⟩
      rw [List.mem_append, List.mem_singleton, twins.same.hot, Std.ExtTreeMap.mem_insert,
        Std.LawfulEqCmp.compare_eq_iff_eq, or_comm, eq_comm]

theorem exportModule (moduleHash : String) (toScope : Scope) (verdicts : List GateVerdict)
    : Concur first second
        ((fun _ => .unit) <$> StubKernel.exportModule ctx moduleHash toScope verdicts)
        ((fun _ => .unit) <$> Kernel.exportModule ctx moduleHash toScope verdicts) := by
  have ends := StubKernel.exportModule_ends ctx moduleHash toScope verdicts first.state
  have realEnds := exportModule_ends ctx moduleHash toScope verdicts second.state
  cases checked : exporting moduleHash toScope verdicts with
  | error error =>
      rw [checked] at ends realEnds
      exact twins.concur_still (ends.map _) (realEnds.map _) rfl rfl rfl
  | ok _ =>
      rw [checked] at ends realEnds
      exact twins.concur_still (ends.map _) (realEnds.map _) rfl rfl rfl

section Inferences

variable {archId : String} {capability : Capability} {handle : Nat} {id other : String}
  (names : named first.answers handle = some id)
  (also : named second.answers handle = some other)
include names also

/-- An inference by a cleared caller, or one that is refused before that matters. -/
theorem infer (ample : Ample second (.infer ctx archId capability handle))
    (cleared : CallerCleared second (.infer ctx archId capability handle))
    : Concur first second (.outcome <$> StubKernel.infer ctx archId capability ⟨id⟩)
        (.outcome <$> Kernel.infer ctx archId capability ⟨other⟩) := by
  have mounts := twins.same.arches archId
  have labels := twins.paired.label_eq names also
  cases mounted : first.state.bearing.arches[archId]? with
  | none =>
      rw [mounted, Option.map_none] at mounts
      exact twins.concur_still ((StubKernel.infer_unmounted mounted).map _)
        ((infer_unmounted mounts).map _) rfl rfl rfl
  | some manifest =>
      rw [mounted, Option.map_some] at mounts
      cases stored : first.state.bearing.registers[id]? with
      | none =>
          rw [stored, Option.map_none, eq_comm, Option.map_eq_none_iff] at labels
          exact twins.concur_still ((StubKernel.infer_missing mounted stored).map _)
            ((infer_unread mounts (readRegister_missing labels)).map _) rfl rfl rfl
      | some reg =>
          rw [stored, Option.map_some, eq_comm, Option.map_eq_some_iff] at labels
          obtain ⟨realReg, realStored, label⟩ := labels
          cases flows : reg.label.flowsTo manifest.clearance with
          | false =>
              have refused : i2Flow reg.label manifest = .error (.i2
                  s!"label {reg.label.scope.debug} exceeds clearance of arch {manifest.name}") := by
                rw [i2Flow, flows]
                rfl
              have ends : (Reply.outcome <$> StubKernel.infer ctx archId capability ⟨id⟩).Ends
                  StubKernel.bearing first.state (.failed _) first.state.bearing :=
                (StubKernel.infer_above mounted stored refused).map _
              cases caller : realReg.label.flowsTo ctx.clearance with
              | false =>
                  exact twins.concur_still ends
                    ((infer_unread mounts (readRegister_above realStored caller)).map _) rfl rfl rfl
              | true =>
                  exact twins.concur_still ends
                    ((infer_above mounts realStored caller (label ▸ refused)).map _) rfl rfl rfl
          | true =>
              have reaches : Reaches second (.infer ctx archId capability handle) ctx archId
                  capability (mockAdapter manifest manifest.contextCeiling) realReg :=
                ⟨⟨handle, other, rfl, also, realStored⟩, mounts, label ▸ flows⟩
              have caller := cleared _ _ _ _ _ reaches
              have passed : i2Flow reg.label manifest = .ok () := if_pos flows
              obtain ⟨out, ends⟩ : ∃ out, (StubKernel.infer ctx archId capability ⟨id⟩).Ends
                  StubKernel.bearing first.state (.done out) first.state.bearing :=
                StubKernel.infer_ends mounted stored passed
              have own := (twins.paired.realSound.register other realReg realStored).1
              have realEnds := infer_ends mounts realStored caller (label ▸ passed)
                (ample _ _ _ _ _ reaches caller) rfl
              rw [own] at realEnds
              exact twins.concur_silent (ends.map _) (realEnds.map _) rfl rfl rfl
                twins.numbered.more twins.same.refiled
                (twins.paired.rewrite also realStored ((congrArg RegisterId.text
                  (raise_kept _ _ _).1).trans own) (raise_kept _ _ _).2)

/-- A caller that is not cleared is refused by the real kernel alone. -/
theorem infer_apart (uncleared : ¬CallerCleared second (.infer ctx archId capability handle))
    : verdict (some ((.outcome <$> StubKernel.infer ctx archId capability ⟨id⟩
          : StubCall Reply) first.state []).1)
        = .accepted
      ∧ verdict (some ((.outcome <$> Kernel.infer ctx archId capability ⟨other⟩
          : Syscall Reply) second.state []).1)
        = .refused .i2 := by
  simp only [CallerCleared, not_forall, Bool.not_eq_true] at uncleared
  obtain ⟨_, _, _, adapter, realReg, reaches, caller⟩ := uncleared
  obtain ⟨⟨_, regId, asked, named, realStored⟩, mounts, flows⟩ := reaches
  cases asked
  obtain rfl : other = regId := Option.some.inj (also.symm.trans named)
  have same := twins.same.arches archId
  have labels := twins.paired.label_eq names also
  have read : second.state.bearing.registers[other]? = some realReg := realStored
  rw [read, Option.map_some, Option.map_eq_some_iff] at labels
  obtain ⟨reg, stored, label⟩ := labels
  have held : second.state.bearing.adapters[archId]? = some adapter := mounts
  rw [held, eq_comm, Option.map_eq_some_iff] at same
  obtain ⟨manifest, mounted, rfl⟩ := same
  have passed : i2Flow reg.label manifest = .ok () := if_pos (label ▸ flows)
  obtain ⟨out, ends⟩ : ∃ out, (StubKernel.infer ctx archId capability ⟨id⟩).Ends
      StubKernel.bearing first.state (.done out) first.state.bearing :=
    StubKernel.infer_ends mounted stored passed
  have refused : (Kernel.infer ctx archId capability ⟨other⟩).Ends World.bearing second.state
      (.failed _) second.state.bearing :=
    infer_unread held (readRegister_above read caller)
  rw [(ends.map Reply.outcome).answer, (refused.map Reply.outcome).answer]
  exact ⟨rfl, rfl⟩

end Inferences

end Twins

-----------------------------------------------------------------------------------------
-- Scripts
-----------------------------------------------------------------------------------------

section Scripts

variable {first : Served StubKernel Response} {second : Served World Response}
  {item : TraitCall Nat}

/-- Both kernels take the item, are answered alike and stay twins. -/
structure Together (first : Served StubKernel Response) (second : Served World Response)
    (item : TraitCall Nat)
    : Prop where
  alike : verdict (serving StubKernel.serve first.answers first.state item).1
    = verdict (serving (fun call => invoke call.toCall) second.answers second.state item).1
  twins : Twins (first.next (serving StubKernel.serve) item)
    (second.next (serving fun call => invoke call.toCall) item)

theorem Concur.together {call realCall : TraitCall String}
    (concur : Concur first second (StubKernel.serve call) (invoke realCall.toCall))
    (resolved : item.resolve (named first.answers) = some call)
    (realResolved : item.resolve (named second.answers) = some realCall)
    : Together first second item := by
  have mine : serving StubKernel.serve first.answers first.state item
      = (some (StubKernel.serve call first.state []).1,
          (StubKernel.serve call first.state []).2.1) := by
    rw [serving, resolved]
  have theirs : serving (fun call => invoke call.toCall) second.answers second.state item
      = (some (invoke realCall.toCall second.state []).1,
          (invoke realCall.toCall second.state []).2.1) := by
    rw [serving, realResolved]
  constructor
  · rw [mine, theirs]
    exact concur.alike
  · rw [Served.next, Served.next, mine, theirs]
    exact concur.twins

/-- What names nothing is not called. -/
theorem Twins.together_unnamed (twins : Twins first second)
    (resolved : item.resolve (named first.answers) = none)
    (realResolved : item.resolve (named second.answers) = none)
    : Together first second item := by
  have mine : serving StubKernel.serve first.answers first.state item = (none, first.state) := by
    rw [serving, resolved]
  have theirs : serving (fun call => invoke call.toCall) second.answers second.state item
      = (none, second.state) := by
    rw [serving, realResolved]
  constructor
  · rw [mine, theirs]
  · rw [Served.next, Served.next, mine, theirs]
    refine ⟨?_, ?_, twins.same, ?_⟩
    · simp only [List.length_append, List.length_singleton, twins.taken]
    · rw [List.length_append]
      exact twins.numbered.more
    · rw [named_silent rfl, named_silent rfl]
      exact twins.paired

omit [Libraries] in
/-- Only an inference can want clearance. -/
theorem callerCleared_of_ne
    (elsewhere : ∀ ctx archId capability handle, item ≠ .infer ctx archId capability handle)
    : CallerCleared second item := by
  intro ctx archId capability adapter reg reaches
  obtain ⟨⟨handle, _, asked, -⟩, -, -⟩ := reaches
  exact absurd asked (elsewhere ctx archId capability handle)

/-- A call that names one thing is taken together if it is under every name that both learnt. -/
theorem Twins.together_named (twins : Twins first second) {handle : Nat}
    {call : String → TraitCall String}
    (resolves : ∀ name : Naming, item.resolve name = (name handle).map call)
    (concur : ∀ {id other : String}, named first.answers handle = some id
      → named second.answers handle = some other
      → Concur first second (StubKernel.serve (call id)) (invoke (call other).toCall))
    : Together first second item := by
  have mine := resolves (named first.answers)
  have theirs := resolves (named second.answers)
  rcases twins.paired.name_cases handle with ⟨none, also⟩ | ⟨id, other, names, also⟩
  · rw [none] at mine
    rw [also] at theirs
    exact twins.together_unnamed mine theirs
  · rw [names] at mine
    rw [also] at theirs
    exact (concur names also).together mine theirs

/-- Both kernels take any item but an inference together. -/
theorem Twins.together (twins : Twins first second) (room : Roomy second)
    (injective : Function.Injective Digest.sha256)
    (elsewhere : ∀ ctx archId capability handle, item ≠ .infer ctx archId capability handle)
    : Together first second item := by
  cases item with
  | submitTask ctx goal label => exact (twins.submitTask room goal label).together rfl rfl
  | readRegister ctx handle =>
      exact twins.together_named (fun _ => rfl) fun names also => twins.readRegister names also
  | writeRegister ctx handle reg =>
      exact twins.together_named (fun _ => rfl) fun names also => twins.writeRegister names also reg
  | infer ctx archId capability handle => exact absurd rfl (elsewhere ctx archId capability handle)
  | lease ctx resource ttlMs => exact (twins.lease resource ttlMs).together rfl rfl
  | approve ctx approval => exact (twins.approve injective approval).together rfl rfl
  | stop ctx scope => exact (twins.stop room scope).together rfl rfl
  | resume ctx handle =>
      exact twins.together_named (fun _ => rfl) fun names also => twins.resume room names also
  | runAutomation ctx business module =>
      exact (twins.runAutomation business module).together rfl rfl
  | promote ctx module verdicts => exact (twins.promote module verdicts).together rfl rfl
  | exportModule ctx moduleHash toScope verdicts =>
      exact (twins.exportModule moduleHash toScope verdicts).together rfl rfl

/-- Twins take an inference together if its caller is cleared, and only then answer it alike. -/
theorem Twins.infer_together (twins : Twins first second) {ctx : Ctx} {archId : String}
    {capability : Capability} {handle : Nat}
    (ample : Ample second (.infer ctx archId capability handle))
    : (CallerCleared second (.infer ctx archId capability handle)
          → Together first second (.infer ctx archId capability handle))
      ∧ (verdict (serving StubKernel.serve first.answers first.state
            (.infer ctx archId capability handle)).1
          = verdict (serving (fun call => invoke call.toCall) second.answers second.state
              (.infer ctx archId capability handle)).1
        → CallerCleared second (.infer ctx archId capability handle)) := by
  rcases twins.paired.name_cases handle with ⟨none, also⟩ | ⟨id, other, names, also⟩
  · refine ⟨fun _ => twins.together_unnamed (by rw [TraitCall.resolve, none]; rfl)
      (by rw [TraitCall.resolve, also]; rfl), fun _ ctx archId capability adapter reg reaches => ?_⟩
    obtain ⟨⟨_, regId, asked, named, -⟩, -, -⟩ := reaches
    cases asked
    rw [also] at named
    cases named
  · have mine : TraitCall.resolve (named first.answers) (.infer ctx archId capability handle)
        = some (.infer ctx archId capability id) := by rw [TraitCall.resolve, names]; rfl
    have theirs : TraitCall.resolve (named second.answers) (.infer ctx archId capability handle)
        = some (.infer ctx archId capability other) := by rw [TraitCall.resolve, also]; rfl
    refine ⟨fun cleared => (twins.infer names also ample cleared).together mine theirs,
      fun alike => ?_⟩
    by_contra uncleared
    obtain ⟨accepted, refused⟩ := twins.infer_apart names also uncleared
    rw [serving, serving, mine, theirs] at alike
    exact absurd ((accepted.symm.trans alike).trans refused) (by decide)

/-- The stub and the real kernel go through a script in step, as long as callers are cleared. -/
theorem twins_in_lockstep (injective : Function.Injective Digest.sha256)
    : Lockstep (serving StubKernel.serve) (serving fun call => invoke call.toCall) verdict verdict
        Twins (fun served item => Ample served item ∧ Roomy served) CallerCleared := by
  intro first second item twins ⟨ample, room⟩
  by_cases elsewhere : ∀ ctx archId capability handle,
      item ≠ .infer ctx archId capability handle
  · have together := twins.together room injective elsewhere
    exact ⟨iff_of_true together.alike (callerCleared_of_ne elsewhere), fun _ => together.twins⟩
  · simp only [ne_eq, not_forall, not_not] at elsewhere
    obtain ⟨ctx, archId, capability, handle, rfl⟩ := elsewhere
    obtain ⟨together, cleared⟩ := twins.infer_together ample
    exact ⟨⟨cleared, fun cleared => (together cleared).alike⟩, fun cleared =>
      (together cleared).twins⟩

end Scripts

end VerticalAI.Stub
