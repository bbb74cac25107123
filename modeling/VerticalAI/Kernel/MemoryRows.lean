import VerticalAI.Kernel.Enrolment

/-! Mounted arches and enrolled devices are in memory what their rows say, after every call that
leaves the node up.
-/

namespace VerticalAI.Kernel
open VerticalAI.Foundation VerticalAI.Contracts VerticalAI.Store

section Calls

variable [Libraries] {α : Type} {start invariant : World → Prop} {machine : Machine}

/-- From such a state the program ends in a state with the invariant, unless it loses power. -/
def Leaves (start invariant : World → Prop) (program : Syscall α) : Prop :=
  program.Satisfies start (fun _ _ => True) (fun _ => invariant) (fun _ => invariant)

/-- The outcome of a program that leaves the invariant. -/
def Outcome.Left (invariant : World → Prop) (world : World) (outcome : Outcome KernelError α)
    : Prop :=
  outcome.Meets (fun _ => invariant) (fun _ => invariant) world

omit [Libraries] in
theorem leaves_of_keeps {allowed : World → Update → Prop} {program : Syscall α}
    (emits : program.Emits allowed)
    (step : ∀ world update, invariant world → allowed world update
      → invariant (Updates.apply update world))
    : Leaves invariant invariant program :=
  (Program.Emits.keeps emits step).consequence (fun _ held => held) (fun _ _ _ => trivial)
    (fun _ _ held => held) fun _ _ held => held

omit [Libraries] in
theorem Outcome.Left.map {β : Type} {change : α → β} {outcome : Outcome KernelError α}
    {world : World} (left : Outcome.Left invariant world outcome)
    : Outcome.Left invariant world (outcome.map change) := by
  cases outcome with
  | done value => exact left
  | failed error => exact left
  | crashed => trivial

/-- A node that is up after a call has what the call's program leaves. -/
theorem Machine.step_left {call : Call} {faults : List Fault} (up : machine.up = true)
    (left : Outcome.Left invariant (invoke call machine.world faults).2.1
      (invoke call machine.world faults).1)
    (running : (machine.step (.call call faults)).up = true)
    : invariant (machine.step (.call call faults)).world := by
  rw [Machine.step_call_world up]
  cases ended : (invoke call machine.world faults).1 with
  | done value =>
      rw [ended] at left
      exact left
  | failed error =>
      rw [ended] at left
      exact left
  | crashed => exact absurd ((Machine.step_call_crashed up ended).symm.trans running) nofun

end Calls

/-- The registry holds the keys that the rows give. -/
def RegistryMatches (world : World) : Prop :=
  RegistryOf world.kernel.devices world.disk.devices

section Devices

variable [Libraries] {deviceId : String} {key : VerifyingKey} {nowMs : UInt64}
  {machine : Machine}

/-- What leaves devices alone keeps the registry as the rows. -/
theorem registryMatches_of_trail {areas : List Area} {first last : World}
    (trail : Trail (Within areas) first last) (elsewhere : Area.devices ∉ areas)
    (same : RegistryMatches first)
    : RegistryMatches last := by
  obtain ⟨rows, registry⟩ : World.Same first last .devices :=
    same_of_trail trail .devices elsewhere
  unfold RegistryMatches
  rw [rows, registry]
  exact same

/-- An enrolment puts the same device on disk and in memory, whichever comes first. -/
theorem enrollDevicePersisted_leaves_registry
    : Leaves RegistryMatches RegistryMatches (enrollDevicePersisted deviceId key nowMs) := by
  let row : DeviceRow := ⟨Hex.encode key.val, "full"⟩
  let Written (world : World) : Prop :=
    ∃ rows : Table DeviceRow, world.disk.devices = rows.insert deviceId row
      ∧ RegistryOf world.kernel.devices rows
  have stored : (save (.putDevice deviceId row)).Satisfies RegistryMatches (fun _ _ => True)
      (fun _ => Written) (fun _ => RegistryMatches) :=
    Program.satisfies_persist (fun _ _ => trivial)
      (fun world same => ⟨world.disk.devices, rfl, same⟩) fun _ _ same => same
  have registered : (Program.perform (.registerDevice deviceId key) : Syscall Unit).Satisfies
      Written (fun _ _ => True) (fun _ => RegistryMatches) (fun _ => RegistryMatches) := by
    refine Program.satisfies_perform (fun _ _ => trivial) ?_
    rintro world ⟨rows, written, same⟩
    have both := same.register deviceId key
    rw [← written] at both
    exact both
  have logged : Leaves RegistryMatches RegistryMatches
      (log "device.enrolled" nowMs (.str deviceId)) :=
    leaves_of_keeps log_emits fun _ _ same within =>
      registryMatches_of_trail (Trail.single within) (by decide) same
  exact stored.bind fun _ => registered.bind fun _ => logged

theorem enrollNodeKey_leaves_registry
    : Leaves RegistryMatches RegistryMatches (enrollNodeKey key nowMs) := by
  unfold enrollNodeKey
  have named : Leaves RegistryMatches RegistryMatches (kernel (·.nodeId)) :=
    Program.satisfies_observe fun _ same => same
  refine named.bind fun nodeId => ?_
  have read : Leaves RegistryMatches RegistryMatches (load (·.devices[nodeDevice nodeId]?)) :=
    Program.satisfies_fetch (fun _ same => same) fun _ _ same => same
  refine read.bind fun row => ?_
  cases row with
  | none => exact enrollDevicePersisted_leaves_registry
  | some row =>
      refine Program.satisfies_ite (fun _ => ?_) fun _ => ?_
      · exact Program.satisfies_pure fun _ same => same
      · exact Program.satisfies_fail fun _ same => same

/-- The registry stays what the rows give, by cases on the event. -/
theorem RegistryMatches.step (event : Event)
    (same : machine.up = true → RegistryMatches machine.world)
    (running : (machine.step event).up = true)
    : RegistryMatches (machine.step event).world := by
  cases event with
  | close => cases running
  | «open» stateDir nodeId recoveredPartialLine nowMs faults =>
      cases up : machine.up with
      | true =>
          simp only [Machine.step, up, if_true]
          exact same up
      | false =>
          rcases Machine.step_open up stateDir nodeId recoveredPartialLine nowMs faults with
            ⟨-, opened, -⟩ | ⟨down, -⟩
          · rw [opened]
            exact replayDevices_registry machine.world.disk.devices
          · exact absurd (down.symm.trans running) Bool.false_ne_true
  | call call faults =>
      cases up : machine.up with
      | false => exact absurd (Machine.step_call_down up call faults ▸ running) (by simp [up])
      | true =>
          by_cases elsewhere : Area.devices ∈ call.footprint
          · refine Machine.step_left up ?_ running
            cases call with
            | enrollDevicePersisted deviceId key nowMs =>
                have ran : invoke (.enrollDevicePersisted deviceId key nowMs) machine.world faults
                    = _ :=
                  Program.map_run (fun _ => Reply.unit) (enrollDevicePersisted deviceId key nowMs)
                    machine.world faults
                rw [ran]
                exact Outcome.Left.map
                  (enrollDevicePersisted_leaves_registry machine.world faults (same up)).2.1
            | enrollNodeKey key nowMs =>
                have ran : invoke (.enrollNodeKey key nowMs) machine.world faults = _ :=
                  Program.map_run (fun _ => Reply.unit) (enrollNodeKey key nowMs) machine.world
                    faults
                rw [ran]
                exact Outcome.Left.map
                  (enrollNodeKey_leaves_registry machine.world faults (same up)).2.1
            | _ => exact absurd elsewhere (by simp [Call.footprint, stepAreas])
          · rw [Machine.step_call_world up]
            exact registryMatches_of_trail ((invoke_emits call).trail machine.world faults)
              elsewhere (same up)

end Devices

-----------------------------------------------------------------------------------------
-- What is mounted
-----------------------------------------------------------------------------------------

/-- The row reads back as this manifest, or as one like it. -/
def ReadsAs [Libraries] (mounted row : ArchManifest) : Prop :=
  ∃ read, row.readBack = .ok read ∧ mounted.Alike read

/-- The mounted manifests are what the rows read back as. -/
def ArchesMatch [Libraries] (world : World) : Prop :=
  ∀ id : String,
    Option.Rel ReadsAs (world.kernel.adapters[id]?.map (·.manifest)) world.disk.arches[id]?

/-- The row of a manifest is there, and all others are as they are mounted. -/
def Mounting [Libraries] (id : String) (manifest : ArchManifest) (world : World) : Prop :=
  Option.Rel ReadsAs (some manifest) world.disk.arches[id]?
  ∧ ∀ other : String, other ≠ id
    → Option.Rel ReadsAs (world.kernel.adapters[other]?.map (·.manifest))
        world.disk.arches[other]?

section Mounted

variable [Libraries]

theorem ArchesMatch.mounting {world : World} (same : ArchesMatch world) (id : String)
    {manifest : ArchManifest} (reads : ReadsAs manifest manifest)
    : Mounting id manifest (Updates.apply (Update.putArch id manifest) world) := by
  change Option.Rel ReadsAs _ (world.disk.arches.insert id manifest)[id]? ∧ _
  rw [Std.ExtTreeMap.getElem?_insert_self]
  refine ⟨.some reads, fun other different => ?_⟩
  change Option.Rel ReadsAs _ (world.disk.arches.insert id manifest)[other]?
  rw [Table.getElem?_insert_ne different]
  exact same other

theorem Mounting.mounted {world : World} {id : String} {adapter : ArchAdapter}
    (mounting : Mounting id adapter.manifest world)
    : ArchesMatch (Updates.apply (Update.mountAdapter id adapter) world) := by
  obtain ⟨row, others⟩ := mounting
  intro other
  change Option.Rel ReadsAs ((world.kernel.adapters.insert id adapter)[other]?.map (·.manifest))
    world.disk.arches[other]?
  by_cases same : other = id
  · subst same
    rw [Std.ExtTreeMap.getElem?_insert_self]
    exact row
  · rw [Table.getElem?_insert_ne same]
    exact others other same

/-- Rows of mounted manifests can be read back. -/
theorem ArchesMatch.readable {world : World} (same : ArchesMatch world)
    : world.disk.ArchesReadable := by
  intro id manifest stored
  have row := same id
  rw [stored] at row
  generalize world.kernel.adapters[id]?.map (·.manifest) = mounted at row
  cases row with
  | some reads =>
      obtain ⟨read, given, -⟩ := reads
      exact ⟨read, given⟩

omit [Libraries] in
/-- An adapter is mounted again under the manifest of its row. -/
theorem manifest_replayArches (rows : Table ArchManifest) (id : String)
    : (replayArches rows)[id]?.map (·.manifest) = rows[id]? := by
  unfold replayArches
  rw [Std.ExtTreeMap.getElem?_map, Option.map_map]
  exact Option.map_id'

/-- What opening mounts is what the rows read back as. -/
theorem archesMatch_rebuilt {disk : StateDir} (readable : disk.ArchesReadable) (id : String)
    : Option.Rel ReadsAs ((replayArches disk.archesRead)[id]?.map (·.manifest))
        disk.arches[id]? := by
  rw [manifest_replayArches, StateDir.archesRead, Std.ExtTreeMap.getElem?_filterMap']
  cases stored : disk.arches[id]? with
  | none => exact .none
  | some row =>
      obtain ⟨read, given⟩ := readable id row stored
      rw [Option.bind_some, given]
      exact .some ⟨read, given, Or.inl rfl⟩

/-- A process with these manifests mounted has what opening would mount. -/
theorem ArchesMatch.alike {world : World} (same : ArchesMatch world) (id : String)
    : Option.Rel ArchManifest.Alike (world.kernel.adapters[id]?.map (·.manifest))
        ((replayArches world.disk.archesRead)[id]?.map (·.manifest)) := by
  rw [manifest_replayArches, StateDir.archesRead, Std.ExtTreeMap.getElem?_filterMap']
  have mounted := same id
  generalize world.kernel.adapters[id]?.map (·.manifest) = manifest at mounted ⊢
  generalize world.disk.arches[id]? = row at mounted ⊢
  cases mounted with
  | none => exact .none
  | some reads =>
      obtain ⟨read, given, alike⟩ := reads
      rw [Option.bind_some, given]
      exact .some alike

end Mounted

variable [Libraries]

section Calls

variable {adapter : ArchAdapter} {archId : String} {nowMs : UInt64} {world : World}
  {faults : List Fault}

/-- What leaves rows and adapters alone keeps them the same. -/
theorem archesMatch_of_trail {areas : List Area} {first last : World}
    (trail : Trail (Within areas) first last) (noRow : Area.arches ∉ areas)
    (noAdapter : Area.adapters ∉ areas) (same : ArchesMatch first)
    : ArchesMatch last := by
  have rows : last.disk.arches = first.disk.arches := same_of_trail trail .arches noRow
  obtain ⟨adapters, -⟩ : World.Same first last .adapters :=
    same_of_trail trail .adapters noAdapter
  intro id
  rw [rows, adapters]
  exact same id

theorem log_leaves_arches {kind : String} {payload : Json}
    : Leaves ArchesMatch ArchesMatch (log kind nowMs payload) :=
  leaves_of_keeps log_emits fun _ _ same within =>
    archesMatch_of_trail (Trail.single within) (by decide) (by decide) same

/-- Swapping in the adapter of a row that is there. -/
theorem swap_leaves_arches {α : Type} {next : Syscall α}
    (tail : Leaves ArchesMatch ArchesMatch next)
    : Leaves (Mounting archId adapter.manifest) ArchesMatch (do
        Program.perform (.setBudget archId adapter.contextBudget)
        Program.perform (.mountAdapter archId adapter)
        next) := by
  have budgeted : (Program.perform (.setBudget archId adapter.contextBudget)
      : Syscall Unit).Satisfies (Mounting archId adapter.manifest) (fun _ _ => True)
        (fun _ => Mounting archId adapter.manifest) (fun _ => ArchesMatch) :=
    Program.satisfies_perform (fun _ _ => trivial) fun _ mounting => mounting
  have swapped : (Program.perform (.mountAdapter archId adapter) : Syscall Unit).Satisfies
      (Mounting archId adapter.manifest) (fun _ _ => True) (fun _ => ArchesMatch)
        (fun _ => ArchesMatch) :=
    Program.satisfies_perform (fun _ _ => trivial) fun _ mounting => mounting.mounted
  exact budgeted.bind fun _ => swapped.bind fun _ => tail

/-- Mounting keeps them, if what it writes for a new arch is read back as it is. -/
theorem mount_leaves_arches
    : Leaves
        (fun world => ArchesMatch world
          ∧ (world.kernel.adapters[adapter.manifest.archId]? = none
            → ReadsAs adapter.manifest adapter.manifest))
        ArchesMatch (mount adapter nowMs) := by
  have same {α : Type} {value : α} : Leaves ArchesMatch ArchesMatch (pure value : Syscall α) :=
    Program.satisfies_pure fun _ same => same
  unfold mount
  split
  · exact Program.satisfies_fail fun _ same => same.1
  · dsimp only
    have looked : (kernel (·.adapters[adapter.manifest.archId]?)).Satisfies
        (fun world => ArchesMatch world
          ∧ (world.kernel.adapters[adapter.manifest.archId]? = none
            → ReadsAs adapter.manifest adapter.manifest))
        (fun _ _ => True)
        (fun mounted world => ArchesMatch world
          ∧ mounted = world.kernel.adapters[adapter.manifest.archId]?
          ∧ (mounted = none → ReadsAs adapter.manifest adapter.manifest))
        (fun _ => ArchesMatch) :=
      Program.satisfies_observe fun _ same => ⟨same.1, rfl, same.2⟩
    refine looked.bind fun mounted => ?_
    cases mounted with
    | some mounted =>
        refine Program.satisfies_ite (fun _ => ?_) fun equal => ?_
        · exact Program.satisfies_fail fun _ held => held.1
        · refine (swap_leaves_arches same).consequence (fun world held => ?_) (fun _ _ _ => trivial)
            (fun _ _ same => same) fun _ _ same => same
          rw [Bool.not_eq_true', Bool.not_eq_false] at equal
          obtain ⟨matched, found, -⟩ := held
          refine ⟨?_, fun other _ => matched other⟩
          have row := matched adapter.manifest.archId
          rw [← found, Option.map_some] at row
          generalize world.disk.arches[adapter.manifest.archId]? = stored at row ⊢
          cases row with
          | some reads =>
              obtain ⟨read, given, alike⟩ := reads
              exact .some ⟨read, given, alike.of_same equal⟩
    | none =>
        have stored : (save (.putArch adapter.manifest.archId adapter.manifest)).Satisfies
            (fun world => ArchesMatch world
              ∧ none = world.kernel.adapters[adapter.manifest.archId]?
              ∧ ((none : Option ArchAdapter) = none → ReadsAs adapter.manifest adapter.manifest))
            (fun _ _ => True)
            (fun _ => Mounting adapter.manifest.archId adapter.manifest)
            (fun _ => ArchesMatch) :=
          Program.satisfies_persist (fun _ _ => trivial)
            (fun _ held => held.1.mounting adapter.manifest.archId (held.2.2 rfl))
            fun _ _ held => held.1
        exact stored.bind fun _ => swap_leaves_arches (log_leaves_arches.bind fun _ => same)

/-- Unmounting keeps them, unless the row was there and could not be deleted. -/
theorem unmount_leaves_arches (same : ArchesMatch world)
    (settled : FailsAt faults 0 → world.disk.arches[archId]? = none)
    : Outcome.Left ArchesMatch (unmount archId nowMs world faults).2.1
        (unmount archId nowMs world faults).1 := by
  let dropped : World := Updates.apply (Update.unmountAdapter archId) world
  have unmounted : unmount archId nowMs world faults
      = (save (.deleteArch archId) >>= fun _ =>
          log "arch.unmounted" nowMs (.str archId) : Syscall Unit) dropped faults := rfl
  have elsewhere (other : String) (different : other ≠ archId)
      : Option.Rel ReadsAs (dropped.kernel.adapters[other]?.map (·.manifest))
          world.disk.arches[other]? := by
    change Option.Rel ReadsAs ((world.kernel.adapters.erase archId)[other]?.map (·.manifest)) _
    rw [Table.getElem?_erase_other different]
    exact same other
  have gone {row : Option ArchManifest} (absent : row = none)
      : Option.Rel ReadsAs (dropped.kernel.adapters[archId]?.map (·.manifest)) row := by
    change Option.Rel ReadsAs ((world.kernel.adapters.erase archId)[archId]?.map (·.manifest)) row
    rw [Std.ExtTreeMap.getElem?_erase_self, absent]
    exact .none
  rw [unmounted, Program.bind_run]
  rcases save_settles (.deleteArch archId) dropped faults with
    ⟨-, saved⟩ | ⟨outcome, rest, saved, stopped⟩
  · rw [saved]
    refine (log_leaves_arches _ faults.tail fun other => ?_).2.1
    change Option.Rel ReadsAs _ (world.disk.arches.erase archId)[other]?
    by_cases equal : other = archId
    · subst equal
      exact gone Std.ExtTreeMap.getElem?_erase_self
    · rw [Table.getElem?_erase_other equal]
      exact elsewhere other equal
  · rw [saved]
    rcases stopped with rfl | ⟨error, rfl, fails⟩
    · trivial
    · intro other
      by_cases equal : other = archId
      · subst equal
        exact gone (settled fails)
      · exact elsewhere other equal

end Calls

/-- The event is no unmounting whose row is there and cannot be deleted, and no mounting of a new arch
whose manifest is not read back as it is.
-/
def SettlesArches (machine : Machine) : Event → Prop
  | .call (.mount adapter _) _ =>
      machine.up = true → machine.world.kernel.adapters[adapter.manifest.archId]? = none
      → ReadsAs adapter.manifest adapter.manifest
  | .call (.unmount archId _) faults =>
      machine.up = true → FailsAt faults 0 → machine.world.disk.arches[archId]? = none
  | _ => True

section Events

variable {machine : Machine}

/-- What is mounted stays what the rows say, by cases on the event. -/
theorem ArchesMatch.step (event : Event) (same : machine.up = true → ArchesMatch machine.world)
    (settled : SettlesArches machine event) (running : (machine.step event).up = true)
    : ArchesMatch (machine.step event).world := by
  cases event with
  | close => cases running
  | «open» stateDir nodeId recoveredPartialLine nowMs faults =>
      cases up : machine.up with
      | true =>
          simp only [Machine.step, up, if_true]
          exact same up
      | false =>
          rcases Machine.step_open up stateDir nodeId recoveredPartialLine nowMs faults with
            ⟨-, opened⟩ | ⟨down, -⟩
          · obtain ⟨world, readable⟩ := opened
            rw [world]
            exact archesMatch_rebuilt readable
          · exact absurd (down.symm.trans running) Bool.false_ne_true
  | call call faults =>
      cases up : machine.up with
      | false => exact absurd (Machine.step_call_down up call faults ▸ running) (by simp [up])
      | true =>
          refine Machine.step_left up ?_ running
          have trail := (invoke_emits call).trail machine.world faults
          have elsewhere (noRow : Area.arches ∉ call.footprint)
              (noAdapter : Area.adapters ∉ call.footprint)
              : Outcome.Left ArchesMatch (invoke call machine.world faults).2.1
                  (invoke call machine.world faults).1 := by
            have kept := archesMatch_of_trail trail noRow noAdapter (same up)
            cases (invoke call machine.world faults).1 with
            | done value => exact kept
            | failed error => exact kept
            | crashed => trivial
          cases call with
          | mount adapter nowMs =>
              have ran : invoke (.mount adapter nowMs) machine.world faults = _ :=
                Program.map_run Reply.text (mount adapter nowMs) machine.world faults
              rw [ran]
              exact Outcome.Left.map
                (mount_leaves_arches machine.world faults ⟨same up, settled up⟩).2.1
          | unmount archId nowMs =>
              have ran : invoke (.unmount archId nowMs) machine.world faults = _ :=
                Program.map_run (fun _ => Reply.unit) (unmount archId nowMs) machine.world faults
              rw [ran]
              exact (unmount_leaves_arches (same up) (settled up)).map
          | setContextBudget archId tokens => exact same up
          | _ =>
              exact elsewhere (by simp [Call.footprint, stepAreas])
                (by simp [Call.footprint, stepAreas])

end Events

end VerticalAI.Kernel
