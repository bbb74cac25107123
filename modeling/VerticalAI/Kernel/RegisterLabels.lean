import VerticalAI.Kernel.CallGuard
import VerticalAI.Kernel.RegisterRules
import VerticalAI.Kernel.StopEffects

/-! The labels registers are stored with: which calls can lower one. -/

namespace VerticalAI.Kernel
open VerticalAI.Foundation VerticalAI.Contracts VerticalAI.Store

/-- What is stored under this id has a label that is not above this one. -/
def NotAbove (registers : Table Register) (id : String) (label : Label) : Prop :=
  ∀ old : Register, registers[id]? = some old → old.label ≤ label

/-- A register is not stored under a lower label than before. -/
def RaisesLabel (world : World) : Update → Prop
  | .putRegister reg => NotAbove world.disk.registers reg.id.text reg.label
  | _ => True

/-- Every register of the first table is in the second, and its label is not lower. -/
def LabelsRise (first last : Table Register) : Prop :=
  ∀ (id : String) (old : Register), first[id]? = some old
    → ∃ reg, last[id]? = some reg ∧ old.label ≤ reg.label

namespace LabelsRise

theorem refl (registers : Table Register) : LabelsRise registers registers :=
  fun _ old held => ⟨old, held, le_refl old.label⟩

theorem trans {first middle last : Table Register} (head : LabelsRise first middle)
    (tail : LabelsRise middle last)
    : LabelsRise first last := by
  intro id old held
  obtain ⟨reg, stored, below⟩ := head id old held
  obtain ⟨final, present, above⟩ := tail id reg stored
  exact ⟨final, present, below.trans above⟩

/-- One admitted update, by cases on whether it stores this register. -/
theorem apply {world : World} {update : Update} (raises : RaisesLabel world update)
    : LabelsRise world.disk.registers (Updates.apply update world : World).disk.registers := by
  cases update with
  | putRegister reg =>
      intro id old held
      by_cases same : id = reg.id.text
      · subst same
        exact ⟨reg, Std.ExtTreeMap.getElem?_insert_self, raises old held⟩
      · exact ⟨old, (Table.getElem?_insert_ne same).trans held, le_refl old.label⟩
  | _ => exact refl world.disk.registers

/-- Along a trail that raises labels, every stored label ends at or above where it began. -/
theorem trail {first last : World} (trail : Trail RaisesLabel first last)
    : LabelsRise first.disk.registers last.disk.registers := by
  let Rise (start later : World) : Prop := LabelsRise start.disk.registers later.disk.registers
  have kept : Rise first last :=
    trail.relates (fun world => LabelsRise.refl world.disk.registers)
      fun _ _ _ earlier raises => LabelsRise.trans earlier (LabelsRise.apply raises)
  exact kept

end LabelsRise

variable [Libraries] {ctx : Ctx}

omit [Libraries] in
/-- An update outside the registers raises labels, since it changes none. -/
theorem raises_elsewhere {world : World} {update : Update} (elsewhere : update.area ≠ .registers)
    : RaisesLabel world update := by
  cases update with
  | putRegister reg => exact absurd rfl elsewhere
  | _ => trivial

theorem raises_quiet {areas : List Area} (absent : Area.registers ∉ areas) (world : World)
    (update : Update) (within : Within areas world update)
    : RaisesLabel world update :=
  raises_elsewhere fun same => absent (same ▸ within.1)

/-- A register is written under a label that is not below the stored one. -/
theorem writeRegister_raises {reg : Register}
    : (writeRegister ctx reg).Satisfies
        (fun world => NotAbove world.disk.registers reg.id.text reg.label) RaisesLabel
        (fun _ _ => True) (fun _ _ => True) :=
  writeRegister_rule (raises_quiet (by decide)) fun _ notAbove => notAbove

omit [Libraries] in
/-- What was read is written back with the label it had. -/
theorem rewrite_raises {world : World} {reg written : Register}
    (held : world.disk.registers[reg.id.text]? = some reg) (same : written.id = reg.id)
    (label : written.label = reg.label)
    : RaisesLabel world (.putRegister written) := by
  intro old stored
  rw [same, held] at stored
  obtain rfl := Option.some.inj stored
  exact label.ge

omit [Libraries] in
/-- The answer of an arch is added to the register that was read. -/
theorem raise_raises (world : World) (reg : Register) (role : String) (output : List Char)
    (held : world.disk.registers[reg.id.text]? = some reg)
    : RaisesLabel world (.putRegister (raise reg role output)) := by
  have kept := raise_kept reg role output
  exact rewrite_raises held kept.1 kept.2

/-- An artefact is listed in the register that was read. -/
theorem attachArtefact_raises {regId : RegisterId} {kind : String} {bytes : List UInt8}
    : KeepsKeyed RaisesLabel (attachArtefact ctx regId kind bytes) := by
  have lifted : (Program.lift (validateArtefactKind kind) : Syscall Unit).Emits (Within []) :=
    Program.emits_lift
  unfold attachArtefact
  refine keepsKeyed_of (fun _ keyed => keyed) ?_
  have checked : (Program.lift (validateArtefactKind kind) : Syscall Unit).Satisfies
      (fun world => RegistersKeyed world.disk.registers) RaisesLabel
      (fun _ world => RegistersKeyed world.disk.registers) (fun _ _ => True) :=
    known_elsewhere (raises_quiet (by decide)) lifted (by decide)
  refine checked.bind fun _ => ?_
  refine Program.Emits.reads_bind readRegister_emits
    (fun _ _ _ _ _ ran => (readRegister_done ran).1) fun reg => ?_
  let known (registers : Table Register) : Prop :=
    RegistersKeyed registers ∧ registers[regId.text]? = some reg
  have sealed : (putBlob s!"task:{reg.taskId}" reg.label bytes).Satisfies
      (fun world => known world.disk.registers) RaisesLabel
      (fun _ world => known world.disk.registers) (fun _ _ => True) :=
    known_elsewhere (raises_quiet (by decide)) putBlob_emits (by decide)
  refine sealed.bind fun envelope => ?_
  have listed : (writeRegister ctx
      { reg with artefacts := reg.artefacts ++ [⟨envelope.hash, kind⟩] }).Satisfies
      (fun world => known world.disk.registers) RaisesLabel (fun _ _ => True) (fun _ _ => True) := by
    refine writeRegister_rule (raises_quiet (by decide)) fun world ⟨keyed, held⟩ => ?_
    have stored : world.disk.registers[reg.id.text]? = some reg := by
      rwa [keyed regId.text reg held]
    exact rewrite_raises stored rfl rfl
  exact listed.bind fun _ => Program.satisfies_pure fun _ _ => trivial

theorem runTaskStep_raises {taskId : String} : KeepsKeyed RaisesLabel (runTaskStep ctx taskId) := by
  refine keepsKeyed_of (fun _ keyed => keyed) ?_
  refine runTaskStep_rule (fun _ _ keyed _ => keyed) (raises_quiet (by decide))
    (fun _ _ _ keyed _ => RegistersKeyed.apply keyed _) fun row kind => ?_
  have worked : KeepsKeyed RaisesLabel
      (runStep ctx taskId kind row.register row.artefactType) := by
    refine runStep_rule (raises_quiet (by decide)) raise_raises fun regId kind reg drafted _ => ?_
    exact attachArtefact_raises.consequence (fun _ holds => holds.1) (fun _ _ raises => raises)
      (fun _ _ _ => trivial) (fun _ _ _ => trivial)
  exact worked.consequence (fun _ keyed => keyed) (fun _ _ raises => raises)
    (fun _ _ _ => trivial) (fun _ _ _ => trivial)

/-- The id that the next register is given. -/
def RealKernel.nextRegister (node : RealKernel) : String :=
  mintedId "reg" node.nodeId (node.counter + 1)

/-- Minting answers the next number and touches no register. -/
theorem nextId_minted {stem : String} {known : String → Table Register → Prop}
    : (nextId stem).Satisfies
        (fun world => known (mintedId stem world.kernel.nodeId (world.kernel.counter + 1))
          world.disk.registers)
        RaisesLabel (fun id world => known id world.disk.registers) (fun _ _ => True) := by
  intro world faults holds
  have trail : Trail RaisesLabel world (nextId stem world faults).2.1 :=
    (nextId_emits.trail world faults).mono fun _ _ within =>
      raises_elsewhere fun same => absurd (same ▸ within.1) (by decide)
  refine ⟨trail, ?_, nextId_emits.met world faults⟩
  rcases nextId_cases stem world faults with ⟨rest, ran⟩ | ⟨error, rest, ran⟩ | ⟨rest, ran⟩
  · rw [ran]
    exact holds
  · rw [ran]
    trivial
  · rw [ran]
    trivial

/-- A register is submitted under an id that holds none with a label above its own. -/
theorem submitTask_raises {goal : String} {label : Label}
    : (submitTask ctx goal label).Satisfies
        (fun world => NotAbove world.disk.registers world.kernel.nextRegister label) RaisesLabel
        (fun id world => ∃ reg, world.disk.registers[id.text]? = some reg ∧ reg.label = label)
        (fun _ _ => True) := by
  unfold submitTask
  let free (id : String) (registers : Table Register) : Prop := NotAbove registers id label
  have minted : (nextId "reg").Satisfies
      (fun world => free world.kernel.nextRegister world.disk.registers) RaisesLabel
      (fun id world => free id world.disk.registers) (fun _ _ => True) := nextId_minted
  refine minted.bind fun id => ?_
  have numbered : (nextId "task").Satisfies (fun world => free id world.disk.registers)
      RaisesLabel (fun _ world => free id world.disk.registers) (fun _ _ => True) :=
    known_elsewhere (raises_quiet (by decide)) nextId_emits (by decide)
  refine numbered.bind fun taskId => ?_
  let known (registers : Table Register) : Prop :=
    ∃ reg, registers[id]? = some reg ∧ reg.label = label
  have stored : (save (.putRegister
      { id := ⟨id⟩, taskId, label, goal, constraints := [], evidence := [], decisions := []
        openQuestions := [], artefacts := [] })).Satisfies
      (fun world => NotAbove world.disk.registers id label) RaisesLabel
      (fun _ world => known world.disk.registers) (fun _ _ => True) :=
    Program.satisfies_persist (fun _ holds => holds)
      (fun _ _ => ⟨_, Std.ExtTreeMap.getElem?_insert_self, rfl⟩) fun _ _ _ => trivial
  refine stored.bind fun _ => ?_
  have logged : (log "task.submitted" ctx.nowMs (.str id)).Satisfies
      (fun world => known world.disk.registers) RaisesLabel
      (fun _ world => known world.disk.registers) (fun _ _ => True) :=
    known_elsewhere (raises_quiet (by decide)) log_emits (by decide)
  exact logged.bind fun _ => Program.satisfies_pure fun _ holds => holds

/-- A task that was created has the register that was submitted for it. -/
theorem createTask_raises {goal artefactType : String} {label : Label} {steps : List StepKind}
    : (createTask ctx goal artefactType label steps).Satisfies
        (fun world => NotAbove world.disk.registers world.kernel.nextRegister label) RaisesLabel
        (fun row world =>
          ∃ reg, world.disk.registers[row.register.text]? = some reg ∧ reg.label = label)
        (fun _ _ => True) := by
  unfold createTask
  refine submitTask_raises.bind fun register => ?_
  let known (registers : Table Register) : Prop :=
    ∃ reg, registers[register.text]? = some reg ∧ reg.label = label
  have elsewhere {β γ : Type} {areas : List Area} {program : Syscall β} {next : β → Syscall γ}
      {post : γ → World → Prop} (emits : program.Emits (Within areas))
      (absent : Area.registers ∉ areas)
      (tail : ∀ value, (next value).Satisfies (fun world => known world.disk.registers)
        RaisesLabel post (fun _ _ => True))
      : (program >>= next).Satisfies (fun world => known world.disk.registers) RaisesLabel
          post (fun _ _ => True) :=
    Program.Satisfies.bind (known_elsewhere (raises_quiet absent) emits absent) tail
  have read : (readRegister ctx register).Emits (Within []) := readRegister_emits
  refine elsewhere read (by decide) fun reg => ?_
  refine elsewhere saveTask_emits (by decide) fun _ => ?_
  exact Program.satisfies_pure fun _ holds => holds

/-- No stored register's label is lowered by what is asked for: a register is not written under a
label that is not at least the stored one, and not submitted under an id that was taken by one
with a label above its own.
-/
def KeepsStoredLabels (world : World) : Call → Prop
  | .writeRegister _ reg => NotAbove world.disk.registers reg.id.text reg.label
  | .submitTask _ _ label | .createTask _ _ _ label _ =>
      NotAbove world.disk.registers world.kernel.nextRegister label
  | _ => True

/-- Such a call lowers no label on its way, by cases on the call. -/
theorem invoke_raises {world : World} (keyed : RegistersKeyed world.disk.registers) (call : Call)
    (keeps : KeepsStoredLabels world call) (faults : List Fault)
    : Trail RaisesLabel world (invoke call world faults).2.1 := by
  by_cases elsewhere : Area.registers ∈ call.footprint
  · cases call with
    | writeRegister ctx reg =>
        change Trail _ world (((fun _ => Reply.unit) <$> writeRegister ctx reg) world faults).2.1
        rw [Program.map_run]
        exact writeRegister_raises.trail keeps faults
    | submitTask ctx goal label =>
        change Trail _ world ((Reply.registerId <$> submitTask ctx goal label) world faults).2.1
        rw [Program.map_run]
        exact submitTask_raises.trail keeps faults
    | createTask ctx goal artefactType label steps =>
        change Trail _ world
          ((Reply.task <$> createTask ctx goal artefactType label steps) world faults).2.1
        rw [Program.map_run]
        exact createTask_raises.trail keeps faults
    | infer ctx archId capability regId =>
        change Trail _ world
          ((Reply.outcome <$> infer ctx archId capability regId) world faults).2.1
        rw [Program.map_run]
        exact (infer_rule (raises_quiet (by decide)) raise_raises).trail keyed faults
    | attachArtefact ctx regId kind bytes =>
        change Trail _ world
          ((Reply.envelope <$> attachArtefact ctx regId kind bytes) world faults).2.1
        rw [Program.map_run]
        exact attachArtefact_raises.trail keyed faults
    | runTaskStep ctx taskId =>
        change Trail _ world ((Reply.task <$> runTaskStep ctx taskId) world faults).2.1
        rw [Program.map_run]
        exact runTaskStep_raises.trail keyed faults
    | _ => exact absurd elsewhere (by simp [Call.footprint])
  · exact ((invoke_emits call).trail world faults).mono fun _ _ within =>
      raises_elsewhere fun same => elsewhere (same ▸ within.1)

/-- Every reachable state directory has each register under its own id. -/
theorem Reachable.registersKeyed {machine : Machine} (reachable : Reachable machine)
    : RegistersKeyed machine.world.disk.registers := by
  let Keyed (disk : StateDir) : Prop := RegistersKeyed disk.registers
  have initial : Keyed {} := by
    intro id reg held
    change (∅ : Table Register)[id]? = some reg at held
    rw [Std.ExtTreeMap.getElem?_empty] at held
    cases held
  have kept : Keyed machine.world.disk :=
    reachable.disk_invariant initial
      (fun call world faults keyed =>
        RegistersKeyed.trail ((invoke_emits call).trail world faults) keyed)
      fun _ _ trail keyed => RegistersKeyed.trail trail keyed
  exact kept

/-- An event that asks for nothing lower lowers no label. -/
theorem Machine.step_labels {machine : Machine} (reachable : Reachable machine) (event : Event)
    (keeps : ∀ call faults, event = .call call faults → KeepsStoredLabels machine.world call)
    : LabelsRise machine.world.disk.registers (machine.step event).world.disk.registers := by
  rcases machine.step_cases event with ⟨call, faults, called, -, stepped⟩ | ⟨last, trail, stepped⟩
  · rw [stepped]
    exact LabelsRise.trail
      (invoke_raises reachable.registersKeyed call (keeps call faults called) faults)
  · have same : last.disk.registers = machine.world.disk.registers :=
      same_of_trail trail .registers (by decide)
    rw [stepped, same]
    exact LabelsRise.refl _

end VerticalAI.Kernel
