import VerticalAI.Foundation.ProgramLogic
import VerticalAI.Kernel.Machine

/-! Footprints: which parts of the state each call may change, in any run of it. -/

namespace VerticalAI.Kernel
open VerticalAI.Foundation VerticalAI.Contracts VerticalAI.Store

-----------------------------------------------------------------------------------------
-- Areas
-----------------------------------------------------------------------------------------

/-- The parts of a node's state that its updates fall into. -/
inductive Area where
  | arches
  | registers
  | tasks
  | leases
  | approvals
  | stops
  | liveness
  | devices
  | modules
  | counter
  | stats
  | policies
  | record
  | payload
  | exports
  | inferLog
  | adapters
  | sent
  | draws
  deriving DecidableEq

def Update.area : Update → Area
  | .putArch _ _ | .deleteArch _ => .arches
  | .putRegister _ => .registers
  | .putTask _ => .tasks
  | .putLease _ | .deleteLease _ | .setFence _ _ | .setLocks _ _ => .leases
  | .putApproval _ _ => .approvals
  | .putStop _ | .putResume _ | .setStops _ => .stops
  | .putLiveness _ => .liveness
  | .putDevice _ _ | .registerDevice _ _ => .devices
  | .putHot _ _ => .modules
  | .setCounter _ | .countUp => .counter
  | .setStats _ _ => .stats
  | .setPoliciesVersion _ => .policies
  | .setHead _ | .appendEvent _ | .setClock _ => .record
  | .writeDataKey _ _ | .writeBlob _ _ | .writeEnvelope _ => .payload
  | .createDir _ | .writeExport _ _ => .exports
  | .pushInferLog _ _ => .inferLog
  | .mountAdapter _ _ | .unmountAdapter _ | .setBudget _ _ => .adapters
  | .send _ => .sent
  | .draw => .draws

variable [Libraries]

/-- What is true of an update wherever the kernel makes it: the counter is stored as it
stands, and the record grows by the event that comes next on the chain.
-/
def Update.Genuine (world : World) : Update → Prop
  | .setCounter value => value = world.kernel.counter
  | .appendEvent event => ∃ entry, event = world.kernel.chain.nextEvent entry
  | _ => True

/-- Updates of these areas alone. -/
def Within (areas : List Area) (world : World) (update : Update) : Prop :=
  update.area ∈ areas ∧ update.Genuine world

variable {α : Type} {areas wider : List Area} {allowed : World → Update → Prop}

/-- An update of some areas is one of every list that has these areas in it. -/
theorem Within.widen (inclusion : areas ⊆ wider) {world : World} {update : Update}
    (within : Within areas world update)
    : Within wider world update :=
  ⟨inclusion within.1, within.2⟩

/-- A program that changes some areas changes no area outside a longer list of them. -/
theorem emits_widen {ε : Type} {program : Program World ε α} (emits : program.Emits (Within areas))
    (inclusion : areas ⊆ wider)
    : program.Emits (Within wider) :=
  emits.mono fun _ _ => Within.widen inclusion

/-- What only one area changes stays as it is along updates of others. -/
theorem frame {β : Type} {look : World → β} {area : Area}
    (only : ∀ world update, Update.area update ≠ area
      → look (Updates.apply update world) = look world)
    (absent : area ∉ areas) {first last : World} (trail : Trail (Within areas) first last)
    : look last = look first := by
  let Same (world : World) : Prop := look world = look first
  have step : ∀ world update, Same world → Within areas world update
      → Same (Updates.apply update world) := by
    intro world update same within
    have kept := only world update fun equal => absent (equal ▸ within.1)
    exact kept.trans same
  have same : Same last := Trail.preserves step trail rfl
  exact same

/-- Two states agree on an area. -/
def World.Same (first last : World) : Area → Prop
  | .arches => last.disk.arches = first.disk.arches
  | .registers => last.disk.registers = first.disk.registers
  | .tasks => last.disk.tasks = first.disk.tasks
  | .leases =>
      last.disk.leases = first.disk.leases ∧ last.disk.fences = first.disk.fences
        ∧ last.kernel.locks = first.kernel.locks ∧ last.kernel.home = first.kernel.home
  | .approvals => last.disk.approvals = first.disk.approvals
  | .stops =>
      last.disk.stops = first.disk.stops ∧ last.disk.resumes = first.disk.resumes
        ∧ last.kernel.stops = first.kernel.stops
  | .liveness => last.disk.liveness = first.disk.liveness
  | .devices =>
      last.disk.devices = first.disk.devices ∧ last.kernel.devices = first.kernel.devices
  | .modules => last.disk.hot = first.disk.hot
  | .counter =>
      last.disk.counter = first.disk.counter ∧ last.kernel.counter = first.kernel.counter
  | .stats => last.disk.stats = first.disk.stats
  | .policies => last.disk.policiesVersion = first.disk.policiesVersion
  | .record =>
      last.disk.head = first.disk.head ∧ last.disk.ledger = first.disk.ledger
        ∧ last.kernel.chain = first.kernel.chain ∧ last.kernel.clock = first.kernel.clock
  | .payload =>
      last.disk.dataKeys = first.disk.dataKeys ∧ last.disk.blobs = first.disk.blobs
        ∧ last.disk.envelopes = first.disk.envelopes
  | .exports =>
      last.disk.exportDirs = first.disk.exportDirs ∧ last.disk.exports = first.disk.exports
  | .inferLog => last.kernel.inferLog = first.kernel.inferLog
  | .adapters =>
      last.kernel.adapters = first.kernel.adapters ∧ last.kernel.budgets = first.kernel.budgets
  | .sent => last.sent = first.sent
  | .draws => last.draws = first.draws

namespace World.Same

omit [Libraries]

theorem refl (world : World) (area : Area) : world.Same world area := by
  cases area <;> simp only [World.Same, and_self]

/-- Two states that each agree with a third on an area agree with each other, by cases on
the area.
-/
theorem trans {first middle last : World} {area : Area} (head : first.Same middle area)
    (tail : middle.Same last area)
    : first.Same last area := by
  cases area <;> simp_all only [World.Same, and_self]

/-- An update leaves every other area alone, by cases on both. -/
theorem apply (world : World) (update : Update) {area : Area} (elsewhere : update.area ≠ area)
    : world.Same (Updates.apply update world) area := by
  cases update <;> cases area <;> first
    | rfl
    | exact ⟨rfl, rfl⟩
    | exact ⟨rfl, rfl, rfl⟩
    | exact ⟨rfl, rfl, rfl, rfl⟩
    | exact absurd rfl elsewhere

end World.Same

omit [Libraries] in
/-- An area stays as it is along a trail without updates of it. -/
theorem same_elsewhere {first last : World} {area : Area} (trail : Trail allowed first last)
    (elsewhere : ∀ later update, allowed later update → update.area ≠ area)
    : first.Same last area := by
  let Kept (start later : World) : Prop := start.Same later area
  have step : ∀ start later update, Kept start later → allowed later update
      → Kept start (Updates.apply update later) :=
    fun _ later update same made =>
      same.trans (World.Same.apply later update (elsewhere later update made))
  have kept : Kept first last := Trail.relates (fun world => World.Same.refl world area) step trail
  exact kept

/-- Updates of other areas leave an area alone, along a whole trail. -/
theorem same_of_trail {first last : World} (trail : Trail (Within areas) first last)
    (area : Area) (absent : area ∉ areas)
    : first.Same last area :=
  same_elsewhere trail fun _ _ within equal => absent (equal ▸ within.1)

omit [Libraries] in
/-- The state directory and the node's id are those that the process was opened with. -/
theorem process_of_trail {first last : World} (trail : Trail allowed first last)
    : last.kernel.stateDir = first.kernel.stateDir ∧ last.kernel.nodeId = first.kernel.nodeId := by
  let Same (start later : World) : Prop :=
    later.kernel.stateDir = start.kernel.stateDir ∧ later.kernel.nodeId = start.kernel.nodeId
  have same : Same first last :=
    trail.relates (fun _ => ⟨rfl, rfl⟩) fun _ _ update kept _ => by cases update <;> exact kept
  exact same

-----------------------------------------------------------------------------------------
-- Pieces
-----------------------------------------------------------------------------------------

section Pieces

omit [Libraries]

/-- Reading the state directory writes nothing. -/
theorem load_emits {look : StateDir → α} : (load look).Emits allowed := Program.emits_fetch

theorem loadOr_emits {absent : α} {look : StateDir → α} : (loadOr absent look).Emits allowed := by
  unfold loadOr
  refine load_emits.attempt.bind fun read => ?_
  cases read <;> exact Program.emits_pure

/-- Looking at the process's memory writes nothing. -/
theorem kernel_emits {look : RealKernel → α} : (kernel look).Emits allowed :=
  Program.emits_observe

/-- A save makes its one update and no other, whether or not the store takes it. -/
theorem save_emits {update : Update} (admitted : ∀ world, allowed world update)
    : (save update).Emits allowed :=
  Program.emits_persist admitted

/-- What is done with a call's answer afterwards writes nothing. -/
theorem map_emits {β : Type} {change : α → β} {program : Syscall α}
    (emits : program.Emits allowed)
    : (change <$> program).Emits allowed := by
  rw [map_eq_pure_bind]
  exact emits.bind fun _ => Program.emits_pure

end Pieces

/-- An update of a listed area, where nothing more is asked of it. -/
theorem within_area {update : Update} (area : Area) (named : update.area = area)
    (member : area ∈ areas) (elsewhere : ∀ world, update.Genuine world) (world : World)
    : Within areas world update :=
  ⟨named ▸ member, elsewhere world⟩

/-- The event is appended to the chain it was made from. -/
theorem log_emits {kind : String} {wallMs : UInt64} {payload : Json}
    : (log kind wallMs payload).Emits (Within [.record]) := by
  refine Program.emits_observe_bind fun node => ?_
  have clocked (clock : HlcClock)
      : (Program.perform (Update.setClock clock) : Syscall Unit).Satisfies
          (fun world => world.kernel = node) (Within [.record])
          (fun _ world => world.kernel.chain = node.chain) (fun _ _ => True) :=
    Program.satisfies_perform (fun _ _ => ⟨.head _, trivial⟩)
      (fun world held => by
        change world.kernel.chain = node.chain
        rw [held])
  refine (clocked _).bind fun _ => ?_
  have appended (entry : Contracts.Entry)
      : (save (.appendEvent (node.chain.nextEvent entry))).Satisfies
          (fun world => world.kernel.chain = node.chain) (Within [.record])
          (fun _ _ => True) (fun _ _ => True) :=
    Program.satisfies_persist
      (fun world held => ⟨.head _, entry, by rw [held]⟩)
      (fun _ _ => trivial) (fun _ _ _ => trivial)
  refine (appended _).bind fun _ => ?_
  split
  · exact Program.emits_pure
  · exact Program.emits_persist fun _ => ⟨.head _, trivial⟩

/-- The counter is stored as it stands after counting up. -/
theorem nextId_emits {stem : String} : (nextId stem).Emits (Within [.counter]) := by
  have counted : (Program.perform Update.countUp : Syscall Unit).Emits (Within [.counter]) :=
    Program.emits_perform fun _ => ⟨.head _, trivial⟩
  refine counted.bind fun _ => ?_
  refine Program.emits_observe_bind fun node => ?_
  have stored : (save (.setCounter node.counter)).Satisfies (fun world => world.kernel = node)
      (Within [.counter]) (fun _ _ => True) (fun _ _ => True) :=
    Program.satisfies_persist
      (fun world held => ⟨.head _, congrArg RealKernel.counter held.symm⟩)
      (fun _ _ => trivial) (fun _ _ _ => trivial)
  exact stored.bind fun _ => Program.emits_pure

/-- Storing an update of this area. -/
theorem save_area {update : Update} (area : Area) (named : update.area = area)
    (member : area ∈ areas) (elsewhere : ∀ world, update.Genuine world)
    : (save update).Emits (Within areas) :=
  save_emits (within_area area named member elsewhere)

/-- Changing volatile state of this area. -/
theorem perform_area {update : Update} (area : Area) (named : update.area = area)
    (member : area ∈ areas) (elsewhere : ∀ world, update.Genuine world)
    : (Program.perform update : Syscall Unit).Emits (Within areas) :=
  Program.emits_perform (within_area area named member elsewhere)

/-- Submitting a task draws two numbers, stores one register and logs the task. -/
theorem submitTask_emits {ctx : Ctx} {goal : String} {label : Label}
    : (submitTask ctx goal label).Emits (Within [.counter, .registers, .record]) := by
  unfold submitTask
  refine (emits_widen nextId_emits (by decide)).bind fun id => ?_
  refine (emits_widen nextId_emits (by decide)).bind fun taskId => ?_
  refine Program.Emits.bind (save_area .registers rfl (by decide) fun _ => trivial) fun _ => ?_
  exact (emits_widen log_emits (by decide)).bind fun _ => Program.emits_pure

omit [Libraries] in
/-- Reading a register writes nothing, whether it is found, missing or above the caller. -/
theorem readRegister_emits {ctx : Ctx} {id : RegisterId}
    : (readRegister ctx id).Emits allowed := by
  unfold readRegister
  refine load_emits.bind fun row => ?_
  cases row with
  | none => exact Program.emits_fail
  | some reg =>
      dsimp only
      split
      · exact Program.emits_pure
      · exact Program.emits_fail

/-- Writing a register stores its row and logs that it was written. -/
theorem writeRegister_emits {ctx : Ctx} {reg : Register}
    : (writeRegister ctx reg).Emits (Within [.registers, .record]) := by
  unfold writeRegister
  refine Program.Emits.bind (save_area .registers rfl (by decide) fun _ => trivial) fun _ => ?_
  exact emits_widen log_emits (by decide)

/-- Fetching a data key draws at most what a new key needs, and writes at most that key. -/
theorem dekFor_emits {keyId : String} {create : Bool}
    : (dekFor keyId create).Emits (Within [.draws, .payload]) := by
  unfold dekFor
  have drawn : (Program.perform Update.draw : Program World StorageError Unit).Emits
      (Within [.draws, .payload]) :=
    Program.emits_perform (within_area .draws rfl (by decide) fun _ => trivial)
  refine Program.emits_observe.bind fun shredded => ?_
  split
  · exact Program.emits_fail
  · refine Program.emits_fetch.bind fun wrapped => ?_
    cases wrapped with
    | some wrapped =>
        dsimp only
        split
        · exact Program.emits_pure
        · exact Program.emits_fail
    | none =>
        dsimp only
        split
        · exact Program.emits_fail
        · refine Program.emits_observe.bind fun draws => ?_
          refine drawn.bind fun _ => drawn.bind fun _ => ?_
          refine Program.Emits.bind ?_ fun _ => Program.emits_pure
          exact Program.emits_persist (within_area .payload rfl (by decide) fun _ => trivial)

/-- A data key that is only looked up is not made. -/
theorem dekFor_lookup_emits {keyId : String} : (dekFor keyId false).Emits allowed := by
  unfold dekFor
  refine Program.emits_observe.bind fun shredded => ?_
  split
  · exact Program.emits_fail
  · refine Program.emits_fetch.bind fun wrapped => ?_
    cases wrapped with
    | some wrapped =>
        dsimp only
        split
        · exact Program.emits_pure
        · exact Program.emits_fail
    | none => exact Program.emits_fail

/-- Storing a blob draws its nonce and writes only the payload tier, its data key
included.
-/
theorem putBlob_emits {keyId : String} {label : Label} {plaintext : List UInt8}
    : (putBlob keyId label plaintext).Emits (Within [.draws, .payload]) := by
  unfold putBlob
  refine dekFor_emits.mapError.bind fun dek => ?_
  have drawn : random.Emits (Within [.draws, .payload]) := by
    unfold random
    refine Program.emits_observe.bind fun draws => ?_
    exact Program.Emits.bind (perform_area .draws rfl (by decide) fun _ => trivial)
      fun _ => Program.emits_pure
  refine drawn.bind fun nonce => ?_
  refine Program.Emits.bind
    (Program.emits_persist (within_area .payload rfl (by decide) fun _ => trivial)) fun _ => ?_
  exact Program.Emits.bind
    (Program.emits_persist (within_area .payload rfl (by decide) fun _ => trivial))
    fun _ => Program.emits_pure

omit [Libraries] in
theorem blobEnvelope_emits {hash : String} : (blobEnvelope hash).Emits allowed := by
  unfold blobEnvelope
  split
  · exact Program.emits_fail
  · refine Program.emits_fetch.bind fun envelope => ?_
    cases envelope with
    | some envelope => exact Program.emits_pure
    | none => exact Program.emits_fail

/-- Opening a blob looks its data key up and writes nothing. -/
theorem getBlob_emits {hash : String} : (getBlob hash).Emits allowed := by
  unfold getBlob
  refine blobEnvelope_emits.mapError.bind fun envelope => ?_
  split
  · exact Program.emits_fail
  · refine dekFor_lookup_emits.mapError.bind fun dek => ?_
    refine Program.emits_fetch.bind fun sealed => ?_
    cases sealed with
    | none => exact Program.emits_fail
    | some sealed =>
        dsimp only
        split
        · exact Program.emits_fail
        · split
          · exact Program.emits_fail
          · exact Program.emits_pure

/-- Attaching an artefact stores the blob first and then the register that lists it. -/
theorem attachArtefact_emits {ctx : Ctx} {regId : RegisterId} {kind : String}
    {bytes : List UInt8}
    : (attachArtefact ctx regId kind bytes).Emits
        (Within [.draws, .payload, .registers, .record]) := by
  unfold attachArtefact
  refine Program.emits_lift.bind fun _ => ?_
  refine readRegister_emits.bind fun reg => ?_
  refine (emits_widen putBlob_emits (by decide)).bind fun envelope => ?_
  exact (emits_widen writeRegister_emits (by decide)).bind fun _ => Program.emits_pure

theorem readArtefact_emits {ctx : Ctx} {hash : String}
    : (readArtefact ctx hash).Emits allowed := by
  unfold readArtefact
  refine blobEnvelope_emits.mapError.bind fun envelope => ?_
  split
  · exact getBlob_emits
  · exact Program.emits_fail

/-- Enrolling a device changes the registry, in its row and in memory, and the record. -/
theorem enrollDevicePersisted_emits {deviceId : String} {key : VerifyingKey} {nowMs : UInt64}
    : (enrollDevicePersisted deviceId key nowMs).Emits (Within [.devices, .record]) := by
  unfold enrollDevicePersisted
  refine Program.Emits.bind (save_area .devices rfl (by decide) fun _ => trivial) fun _ => ?_
  refine Program.Emits.bind (perform_area .devices rfl (by decide) fun _ => trivial) fun _ => ?_
  exact emits_widen log_emits (by decide)

/-- Enrolling the node's key is enrolling a device, unless a key is on file already. -/
theorem enrollNodeKey_emits {key : VerifyingKey} {nowMs : UInt64}
    : (enrollNodeKey key nowMs).Emits (Within [.devices, .record]) := by
  unfold enrollNodeKey
  refine kernel_emits.bind fun nodeId => ?_
  refine load_emits.bind fun row => ?_
  cases row with
  | some row =>
      dsimp only
      split
      · exact Program.emits_pure
      · exact Program.emits_fail
  | none => exact enrollDevicePersisted_emits

theorem renewLivenessPersisted_emits {business deviceId : String} {expiresAtMs : UInt64}
    : (renewLivenessPersisted business deviceId expiresAtMs).Emits (Within [.liveness]) :=
  save_area .liveness rfl (by decide) fun _ => trivial

-----------------------------------------------------------------------------------------
-- Inference and leases
-----------------------------------------------------------------------------------------

/-- Fitting a prompt into the budget logs what was projected and changes nothing else. -/
theorem fit_emits {ctx : Ctx} {archId : String} {adapter : ArchAdapter} {budget : UInt32}
    {regId : RegisterId} {prompt : List Char}
    : (fit ctx archId adapter budget regId prompt).Emits (Within [.record]) := by
  unfold fit
  dsimp only
  split
  · split
    · exact Program.emits_fail
    · exact log_emits.bind fun _ => Program.emits_pure
  · exact Program.emits_pure

/-- What an adapter is asked is recorded as sent, whatever it answers. -/
theorem complete_emits {archId : String} {adapter : ArchAdapter} {prompt : List Char}
    {maxTokens : UInt32}
    : (complete archId adapter prompt maxTokens).Emits (Within [.sent]) := by
  unfold complete
  refine Program.emits_observe.bind fun calls => ?_
  refine Program.Emits.bind (perform_area .sent rfl (by decide) fun _ => trivial) fun _ => ?_
  split
  · exact Program.emits_pure
  · exact Program.emits_fail

theorem bumpStats_emits {archId : String} {tokensIn : UInt32} {projected : Bool}
    : (bumpStats archId tokensIn projected).Emits (Within [.stats]) := by
  unfold bumpStats
  refine load_emits.bind fun stats => ?_
  exact save_area .stats rfl (by decide) fun _ => trivial

/-- An inference changes the record, the requests sent, the inference log, the statistics
and the register that it is for.
-/
theorem infer_emits {ctx : Ctx} {archId : String} {capability : Capability} {regId : RegisterId}
    : (infer ctx archId capability regId).Emits
        (Within [.record, .sent, .inferLog, .stats, .registers]) := by
  unfold infer
  refine kernel_emits.bind fun mounted => ?_
  cases mounted with
  | none => exact Program.emits_fail
  | some adapter =>
      refine readRegister_emits.bind fun reg => ?_
      refine Program.emits_lift.bind fun _ => ?_
      refine kernel_emits.bind fun budget => ?_
      refine (emits_widen fit_emits (by decide)).bind fun fitted => ?_
      refine (emits_widen complete_emits (by decide)).bind fun output => ?_
      refine (emits_widen log_emits (by decide)).bind fun _ => ?_
      refine Program.Emits.bind (perform_area .inferLog rfl (by decide) fun _ => trivial)
        fun _ => ?_
      refine (emits_widen bumpStats_emits (by decide)).bind fun _ => ?_
      exact (emits_widen writeRegister_emits (by decide)).bind fun _ => Program.emits_pure

/-- By induction on the keys. -/
theorem deleteLeases_emits {keys : List String}
    : (deleteLeases keys).Emits (Within [.leases]) := by
  induction keys with
  | nil => exact Program.emits_pure
  | cons key rest ih =>
      unfold deleteLeases
      exact Program.Emits.bind (save_area .leases rfl (by decide) fun _ => trivial) fun _ => ih

/-- Taking a lease changes the lease table, on disk and in memory, and the record. -/
theorem lease_emits {ctx : Ctx} {resource : String} {ttlMs : UInt64}
    : (lease ctx resource ttlMs).Emits (Within [.leases, .record]) := by
  unfold lease
  refine load_emits.bind fun rows => ?_
  refine kernel_emits.bind fun node => ?_
  split
  · exact Program.emits_fail
  · refine Program.Emits.bind (perform_area .leases rfl (by decide) fun _ => trivial) fun _ => ?_
    refine Program.Emits.bind (save_area .leases rfl (by decide) fun _ => trivial) fun _ => ?_
    refine (emits_widen deleteLeases_emits (by decide)).bind fun _ => ?_
    refine Program.Emits.bind (save_area .leases rfl (by decide) fun _ => trivial) fun _ => ?_
    exact (emits_widen log_emits (by decide)).bind fun _ => Program.emits_pure

theorem approve_emits {ctx : Ctx} {approval : Approval}
    : (approve ctx approval).Emits (Within [.record, .approvals]) := by
  unfold approve
  refine kernel_emits.bind fun devices => ?_
  refine Program.emits_lift.bind fun _ => ?_
  refine (emits_widen log_emits (by decide)).bind fun _ => ?_
  exact save_area .approvals rfl (by decide) fun _ => trivial

omit [Libraries] in
theorem approvalsFor_emits {subjectHash : String} : (approvalsFor subjectHash).Emits allowed :=
  loadOr_emits.bind fun _ => Program.emits_pure

/-- A STOP changes the counter it takes its id from, the STOP set and the record. -/
theorem stop_emits {ctx : Ctx} {scope : String}
    : (stop ctx scope).Emits (Within [.counter, .stops, .record]) := by
  unfold stop
  refine Program.emits_lift.bind fun _ => ?_
  refine (emits_widen nextId_emits (by decide)).bind fun id => ?_
  refine Program.Emits.bind (save_area .stops rfl (by decide) fun _ => trivial) fun _ => ?_
  refine kernel_emits.bind fun stops => ?_
  split
  · exact Program.emits_fail
  · refine Program.Emits.bind (perform_area .stops rfl (by decide) fun _ => trivial) fun _ => ?_
    exact (emits_widen log_emits (by decide)).bind fun _ => Program.emits_pure

/-- A RESUME changes the counter it takes its id from, the STOP set and the record. -/
theorem resume_emits {ctx : Ctx} {stopId : String}
    : (resume ctx stopId).Emits (Within [.counter, .stops, .record]) := by
  unfold resume
  refine Program.emits_lift.bind fun _ => ?_
  refine kernel_emits.bind fun stops => ?_
  split
  · exact Program.emits_fail
  · refine (emits_widen nextId_emits (by decide)).bind fun id => ?_
    refine (emits_widen log_emits (by decide)).bind fun _ => ?_
    refine Program.Emits.bind (save_area .stops rfl (by decide) fun _ => trivial) fun _ => ?_
    refine kernel_emits.bind fun stops => ?_
    split
    · exact Program.emits_fail
    · exact perform_area .stops rfl (by decide) fun _ => trivial

/-- An automation changes the record alone. -/
theorem runAutomation_emits {ctx : Ctx} {business module : String}
    : (runAutomation ctx business module).Emits (Within [.record]) := by
  unfold runAutomation
  split
  · exact Program.emits_pure
  · refine load_emits.bind fun lease => ?_
    refine kernel_emits.bind fun stops => ?_
    exact Program.emits_lift.bind fun _ => log_emits

/-- A promotion changes the modules in force and the record. -/
theorem promote_emits {ctx : Ctx} {module : ModuleManifest} {verdicts : List GateVerdict}
    : (promote ctx module verdicts).Emits (Within [.record, .modules]) := by
  unfold promote
  refine Program.emits_lift.bind fun _ => ?_
  dsimp only
  split
  · exact Program.emits_fail
  · refine approvalsFor_emits.bind fun approvals => ?_
    split
    · exact Program.emits_fail
    · refine (emits_widen log_emits (by decide)).bind fun _ => ?_
      exact save_area .modules rfl (by decide) fun _ => trivial

theorem exportModule_emits {ctx : Ctx} {moduleHash : String} {toScope : Scope}
    {verdicts : List GateVerdict}
    : (exportModule ctx moduleHash toScope verdicts).Emits (Within [.record]) := by
  unfold exportModule
  split
  · exact Program.emits_fail
  · exact log_emits

/-- Mounting an adapter stores its manifest, remembers the adapter and logs the mount. -/
theorem mount_emits {adapter : ArchAdapter} {nowMs : UInt64}
    : (mount adapter nowMs).Emits (Within [.arches, .adapters, .record]) := by
  unfold mount
  split
  · exact Program.emits_fail
  · refine kernel_emits.bind fun mounted => ?_
    cases mounted with
    | some mounted =>
        dsimp only
        split
        · exact Program.emits_fail
        · refine Program.Emits.bind (perform_area .adapters rfl (by decide) fun _ => trivial)
            fun _ => ?_
          exact Program.Emits.bind (perform_area .adapters rfl (by decide) fun _ => trivial)
            fun _ => Program.emits_pure
    | none =>
        refine Program.Emits.bind (save_area .arches rfl (by decide) fun _ => trivial) fun _ => ?_
        refine Program.Emits.bind (perform_area .adapters rfl (by decide) fun _ => trivial)
          fun _ => ?_
        refine Program.Emits.bind (perform_area .adapters rfl (by decide) fun _ => trivial)
          fun _ => ?_
        exact (emits_widen log_emits (by decide)).bind fun _ => Program.emits_pure

theorem unmount_emits {archId : String} {nowMs : UInt64}
    : (unmount archId nowMs).Emits (Within [.arches, .adapters, .record]) := by
  unfold unmount
  refine Program.Emits.bind (perform_area .adapters rfl (by decide) fun _ => trivial) fun _ => ?_
  refine Program.Emits.bind (save_area .arches rfl (by decide) fun _ => trivial) fun _ => ?_
  exact emits_widen log_emits (by decide)

theorem boot_emits {nowMs : UInt64} : (boot nowMs).Emits (Within [.policies, .record]) := by
  have loaded : loadPoliciesVersion.Emits (Within [.policies, .record]) := by
    unfold loadPoliciesVersion
    refine load_emits.bind fun version => ?_
    cases version with
    | some version => exact Program.emits_pure
    | none =>
        exact Program.Emits.bind (save_area .policies rfl (by decide) fun _ => trivial)
          fun _ => Program.emits_pure
  unfold boot
  refine kernel_emits.bind fun node => ?_
  refine loaded.bind fun version => ?_
  exact (emits_widen log_emits (by decide)).bind fun _ => Program.emits_pure

-----------------------------------------------------------------------------------------
-- Tasks
-----------------------------------------------------------------------------------------

theorem saveTask_emits {row : Task} : (saveTask row).Emits (Within [.tasks]) :=
  save_area .tasks rfl (by decide) fun _ => trivial

/-- Creating a task is submitting it and storing its row. -/
theorem createTask_emits {ctx : Ctx} {goal artefactType : String} {label : Label}
    {steps : List StepKind}
    : (createTask ctx goal artefactType label steps).Emits
        (Within [.counter, .registers, .record, .tasks]) := by
  unfold createTask
  refine (emits_widen submitTask_emits (by decide)).bind fun register => ?_
  refine readRegister_emits.bind fun reg => ?_
  exact (emits_widen saveTask_emits (by decide)).bind fun _ => Program.emits_pure

section Views

omit [Libraries]

theorem visibleTo_emits {ctx : Ctx} {row : Task} : (visibleTo ctx row).Emits allowed :=
  loadOr_emits.bind fun _ => Program.emits_pure

theorem task_emits {ctx : Ctx} {id : String} : (task ctx id).Emits allowed := by
  unfold task
  refine loadOr_emits.bind fun row => ?_
  cases row with
  | none => exact Program.emits_pure
  | some row =>
      refine visibleTo_emits.bind fun visible => ?_
      split <;> exact Program.emits_pure

/-- By induction on the rows. -/
theorem keepVisible_emits {ctx : Ctx} {rows : List Task}
    : (keepVisible ctx rows).Emits allowed := by
  induction rows with
  | nil => exact Program.emits_pure
  | cons row rest ih =>
      exact visibleTo_emits.bind fun _ => ih.bind fun _ => Program.emits_pure

theorem tasks_emits {ctx : Ctx} : (tasks ctx).Emits allowed :=
  loadOr_emits.bind fun _ => keepVisible_emits

theorem top_emits {ctx : Ctx} : (top ctx).Emits allowed := by
  unfold top
  refine loadOr_emits.bind fun arches => ?_
  refine tasks_emits.bind fun visible => ?_
  refine kernel_emits.bind fun stops => ?_
  exact loadOr_emits.bind fun _ => Program.emits_pure

theorem resolve_emits {ctx : Ctx} {path : String} : (resolve ctx path).Emits allowed := by
  have found {entry : Option Entry} : (foundAt path entry).Emits allowed := by
    cases entry with
    | some entry => exact Program.emits_pure
    | none => exact Program.emits_fail
  unfold resolve
  split
  · exact Program.emits_pure
  · exact kernel_emits.bind fun _ => Program.emits_pure
  · exact kernel_emits.bind fun _ => found
  · exact tasks_emits.bind fun _ => Program.emits_pure
  · exact task_emits.bind fun _ => found
  · exact blobEnvelope_emits.mapError.bind fun _ => Program.emits_pure
  · exact loadOr_emits.bind fun _ => Program.emits_pure
  · exact loadOr_emits.bind fun _ => found
  · exact kernel_emits.bind fun _ => Program.emits_pure
  · exact Program.emits_fail

end Views

theorem approvalSubject_emits {ctx : Ctx} {taskId : String}
    : (approvalSubject ctx taskId).Emits allowed := by
  unfold approvalSubject
  refine task_emits.bind fun row => ?_
  cases row with
  | none => exact Program.emits_fail
  | some row =>
      dsimp only
      split
      · exact readRegister_emits.bind fun _ => Program.emits_pure
      · exact Program.emits_fail

theorem writeFile_emits {ctx : Ctx} {dest hash name : String}
    : (writeFile ctx dest hash name).Emits (Within [.exports]) := by
  unfold writeFile
  refine readArtefact_emits.bind fun bytes => ?_
  refine Program.Emits.bind (save_area .exports rfl (by decide) fun _ => trivial) fun _ => ?_
  refine Program.Emits.bind (save_area .exports rfl (by decide) fun _ => trivial) fun _ => ?_
  exact load_emits

theorem writeFiles_emits {ctx : Ctx} {dest : String} {files : List (String × String)}
    : (writeFiles ctx dest files).Emits (Within [.exports]) := by
  induction files with
  | nil => exact Program.emits_pure
  | cons file rest ih => exact writeFile_emits.bind fun _ => ih

theorem privateDir_emits {path : String} : (privateDir path).Emits (Within [.exports]) :=
  Program.Emits.bind (save_area .exports rfl (by decide) fun _ => trivial) fun _ => load_emits

/-- A release logs its files and their destination, and writes exports alone. -/
theorem release_emits {ctx : Ctx} {taskId : String} {register : RegisterId} {toDir : String}
    : (release ctx taskId register toDir).Emits (Within [.record, .exports]) := by
  have created {path : String} : (privateDir path).Emits (Within [.record, .exports]) :=
    emits_widen privateDir_emits (by decide)
  unfold release
  refine readRegister_emits.bind fun reg => ?_
  refine kernel_emits.bind fun node => ?_
  refine Program.emits_lift.bind fun dest => ?_
  refine Program.emits_lift.bind fun files => ?_
  refine (emits_widen log_emits (by decide)).bind fun _ => ?_
  refine created.bind fun _ => created.bind fun _ => ?_
  exact emits_widen writeFiles_emits (by decide)

/-- What the work of a step may change; the task's own row is not among it. -/
def stepAreas : List Area :=
  [.record, .sent, .inferLog, .stats, .registers, .draws, .payload, .exports]

theorem draft_emits {ctx : Ctx} {archId : String} {register : RegisterId}
    {artefactType : String}
    : (draft ctx archId register artefactType).Emits
        (Within [.record, .sent, .inferLog, .stats, .registers, .draws, .payload]) := by
  unfold draft
  refine (emits_widen infer_emits (by decide)).bind fun outcome => ?_
  refine readRegister_emits.bind fun reg => ?_
  split
  · exact Program.emits_fail
  · exact (emits_widen attachArtefact_emits (by decide)).bind fun _ => Program.emits_pure

/-- A step of any kind stays within the areas of a step. -/
theorem runStep_emits {ctx : Ctx} {taskId : String} {kind : StepKind} {register : RegisterId}
    {artefactType : String}
    : (runStep ctx taskId kind register artefactType).Emits (Within stepAreas) := by
  cases kind with
  | plan archId =>
      exact (emits_widen infer_emits (by decide)).bind fun _ => Program.emits_pure
  | draft archId =>
      exact (emits_widen draft_emits (by decide)).bind fun _ => Program.emits_pure
  | judge archId =>
      exact (emits_widen infer_emits (by decide)).bind fun _ => Program.emits_pure
  | harness name => exact Program.emits_pure
  | approve =>
      exact approvalSubject_emits.bind fun _ =>
        approvalsFor_emits.bind fun _ => Program.emits_pure
  | release toDir =>
      exact (emits_widen release_emits (by decide)).bind fun _ => Program.emits_pure

/-- Settling a step's outcome stores the task's row and logs the step. -/
theorem settleStep_emits {ctx : Ctx} {taskId : String} {i : Nat} {wasWaiting : Bool}
    {row : Task} {result : Except KernelError (StepStatus × UInt32)}
    : (settleStep ctx taskId i wasWaiting row result).Emits (Within [.record, .tasks]) := by
  have recorded {row : Task}
      : (recordStep ctx taskId i row).Emits (Within [.record, .tasks]) := by
    unfold recordStep
    refine (emits_widen log_emits (by decide)).bind fun _ => ?_
    exact (emits_widen saveTask_emits (by decide)).bind fun _ => Program.emits_pure
  unfold settleStep
  split
  · split
    · exact Program.emits_pure
    · exact recorded
  · exact recorded
  · exact (emits_widen saveTask_emits (by decide)).bind fun _ => Program.emits_fail

theorem advance_emits {ctx : Ctx} {taskId : String} {row : Task} {i : Nat} {step : Step}
    : (advance ctx taskId row i step).Emits (Within (.tasks :: stepAreas)) := by
  have settled {wasWaiting : Bool} {row : Task}
      : (Program.attempt (runStep ctx taskId step.kind row.register row.artefactType) >>= fun result =>
          settleStep ctx taskId i wasWaiting row result).Emits (Within (.tasks :: stepAreas)) :=
    Program.Emits.bind (emits_widen runStep_emits (by decide)).attempt fun _ =>
      emits_widen settleStep_emits (by decide)
  unfold advance
  dsimp only
  split
  · exact (emits_widen saveTask_emits (by decide)).bind fun _ => settled
  · exact settled

/-- One step of a task changes its row and what a step may change, on every path through
it.
-/
theorem runTaskStep_emits {ctx : Ctx} {taskId : String}
    : (runTaskStep ctx taskId).Emits (Within (.tasks :: stepAreas)) := by
  unfold runTaskStep
  refine task_emits.bind fun row => ?_
  cases row with
  | none => exact Program.emits_fail
  | some row =>
      dsimp only
      split
      · exact Program.emits_pure
      · refine kernel_emits.bind fun stops => ?_
        split
        · exact (emits_widen saveTask_emits (by decide)).bind fun _ => Program.emits_fail
        · split
          · exact (emits_widen saveTask_emits (by decide)).bind fun _ => Program.emits_pure
          · exact advance_emits

-----------------------------------------------------------------------------------------
-- Calls and opening
-----------------------------------------------------------------------------------------

/-- The parts of the state a call may change. -/
def Call.footprint : Call → List Area
  | .submitTask _ _ _ => [.counter, .registers, .record]
  | .writeRegister _ _ => [.registers, .record]
  | .infer _ _ _ _ => [.record, .sent, .inferLog, .stats, .registers]
  | .lease _ _ _ => [.leases, .record]
  | .approve _ _ => [.record, .approvals]
  | .stop _ _ | .resume _ _ => [.counter, .stops, .record]
  | .runAutomation _ _ _ | .exportModule _ _ _ _ => [.record]
  | .promote _ _ _ => [.record, .modules]
  | .attachArtefact _ _ _ _ => [.draws, .payload, .registers, .record]
  | .createTask _ _ _ _ _ => [.counter, .registers, .record, .tasks]
  | .runTaskStep _ _ => .tasks :: stepAreas
  | .mount _ _ | .unmount _ _ => [.arches, .adapters, .record]
  | .setContextBudget _ _ => [.adapters]
  | .boot _ => [.policies, .record]
  | .enrollDevicePersisted _ _ _ | .enrollNodeKey _ _ => [.devices, .record]
  | .renewLivenessPersisted _ _ _ => [.liveness]
  | .readRegister _ _ | .readArtefact _ _ | .approvalSubject _ _ | .task _ _ | .tasks _
  | .top _ | .resolve _ _ => []

/-- Every call stays within its areas, by cases on the call. -/
theorem invoke_emits (call : Call) : (invoke call).Emits (Within call.footprint) := by
  cases call with
  | submitTask ctx goal label => exact map_emits submitTask_emits
  | readRegister ctx id => exact map_emits readRegister_emits
  | writeRegister ctx reg => exact map_emits writeRegister_emits
  | infer ctx archId capability regId => exact map_emits infer_emits
  | lease ctx resource ttlMs => exact map_emits lease_emits
  | approve ctx approval => exact map_emits approve_emits
  | stop ctx scope => exact map_emits stop_emits
  | resume ctx stopId => exact map_emits resume_emits
  | runAutomation ctx business module => exact map_emits runAutomation_emits
  | promote ctx module verdicts => exact map_emits promote_emits
  | exportModule ctx moduleHash toScope verdicts => exact map_emits exportModule_emits
  | attachArtefact ctx regId kind bytes => exact map_emits attachArtefact_emits
  | readArtefact ctx hash => exact map_emits readArtefact_emits
  | createTask ctx goal artefactType label steps => exact map_emits createTask_emits
  | runTaskStep ctx taskId => exact map_emits runTaskStep_emits
  | approvalSubject ctx taskId => exact map_emits approvalSubject_emits
  | task ctx id => exact map_emits task_emits
  | tasks ctx => exact map_emits tasks_emits
  | top ctx => exact map_emits top_emits
  | resolve ctx path => exact map_emits resolve_emits
  | mount adapter nowMs => exact map_emits mount_emits
  | unmount archId nowMs => exact map_emits unmount_emits
  | setContextBudget archId tokens =>
      exact map_emits (perform_area .adapters rfl (.head _) fun _ => trivial)
  | boot nowMs => exact map_emits boot_emits
  | enrollDevicePersisted deviceId key nowMs => exact map_emits enrollDevicePersisted_emits
  | enrollNodeKey key nowMs => exact map_emits enrollNodeKey_emits
  | renewLivenessPersisted business deviceId expiresAtMs =>
      exact map_emits renewLivenessPersisted_emits

/-- Opening a state directory deletes lease rows at most, and changes nothing else. -/
theorem open_emits {stateDir nodeId : String} {recoveredPartialLine : Bool} {nowMs : UInt64}
    : (RealKernel.open stateDir nodeId recoveredPartialLine nowMs).Emits
        (Within [.leases]) := by
  unfold RealKernel.open
  refine load_emits.bind fun chain => ?_
  refine load_emits.bind fun recorded => ?_
  refine load_emits.bind fun shredded => ?_
  refine load_emits.bind fun stops => ?_
  refine load_emits.bind fun resumes => ?_
  refine load_emits.bind fun devices => ?_
  refine load_emits.bind fun read => ?_
  refine Program.emits_lift.bind fun arches => ?_
  refine load_emits.bind fun fences => ?_
  refine load_emits.bind fun leases => ?_
  refine deleteLeases_emits.bind fun _ => ?_
  exact load_emits.bind fun _ => Program.emits_pure

/-- An event is a call that a node answers, or touches no more of the disk than lease rows. -/
theorem Machine.step_cases (machine : Machine) (event : Event)
    : (∃ call faults,
        event = .call call faults ∧ machine.up = true
          ∧ (machine.step event).world = (invoke call machine.world faults).2.1)
      ∨ ∃ last, Trail (Within [.leases]) machine.world last
          ∧ (machine.step event).world.disk = last.disk := by
  cases event with
  | call call faults =>
      cases up : machine.up with
      | false =>
          rw [Machine.step_call_down up]
          exact Or.inr ⟨machine.world, Trail.refl _, rfl⟩
      | true => exact Or.inl ⟨call, faults, rfl, rfl, Machine.step_call_world up call faults⟩
  | close => exact Or.inr ⟨machine.world, Trail.refl _, rfl⟩
  | «open» stateDir nodeId recoveredPartialLine nowMs faults =>
      cases up : machine.up with
      | false =>
          rw [Machine.step_open_disk up]
          exact Or.inr ⟨_, open_emits.trail machine.world faults, rfl⟩
      | true =>
          simp only [Machine.step, up, if_true]
          exact Or.inr ⟨machine.world, Trail.refl _, rfl⟩

/-- What calls and openings keep holds of every reachable state directory. -/
theorem Reachable.disk_invariant {invariant : StateDir → Prop} (initial : invariant {})
    (called : ∀ (call : Call) (world : World) (faults : List Fault), invariant world.disk
      → invariant (invoke call world faults).2.1.disk)
    (opened : ∀ (first last : World), Trail (Within [.leases]) first last
      → invariant first.disk → invariant last.disk)
    {machine : Machine} (reachable : Reachable machine)
    : invariant machine.world.disk := by
  let Kept (machine : Machine) : Prop := invariant machine.world.disk
  have step : ∀ machine event, Kept machine → Kept (machine.step event) := by
    intro machine event holds
    change invariant (machine.step event).world.disk
    rcases machine.step_cases event with ⟨call, faults, -, -, stepped⟩ | ⟨last, trail, stepped⟩
    · rw [stepped]
      exact called call machine.world faults holds
    · rw [stepped]
      exact opened machine.world last trail holds
  have kept : Kept machine := reachable.invariant initial step
  exact kept

end VerticalAI.Kernel
