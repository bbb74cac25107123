import VerticalAI.Kernel.ApprovalHistory
import VerticalAI.Kernel.Rebuild

/-! Enrolled devices: the registry in memory is what the rows hold, and what an enrolment writes
however it ends.
-/

namespace VerticalAI.Kernel
open VerticalAI.Foundation VerticalAI.Contracts VerticalAI.Store

/-- The key a row gives a device. -/
def keyOf (rows : Table DeviceRow) (id : String) : Option VerifyingKey :=
  rows[id]?.bind DeviceRow.key

/-- The registry holds the keys that the rows give. -/
def RegistryOf (registry : DeviceRegistry) (rows : Table DeviceRow) : Prop :=
  ∀ id : String, registry.keys[id]? = keyOf rows id

/-- Reading rows with distinct keys gives each device its key, by induction on the rows. -/
private theorem foldl_register {rows : List (String × DeviceRow)} (registry : DeviceRegistry)
    (distinct : rows.Pairwise fun first second => first.1 ≠ second.1) (id : String)
    : (rows.foldl
        (fun registry row =>
          match row.2.key with
          | some key => registry.register row.1 key
          | none => registry)
        registry).keys[id]?
      = match rows.find? (·.1 = id) with
        | some row => row.2.key.or registry.keys[id]?
        | none => registry.keys[id]? := by
  induction rows generalizing registry with
  | nil => rfl
  | cons row rest ih =>
      obtain ⟨apart, distinct⟩ := List.pairwise_cons.mp distinct
      rw [List.foldl_cons, ih _ distinct, List.find?_cons]
      by_cases same : row.1 = id
      · subst same
        have absent : rest.find? (·.1 = row.1) = none := by
          rw [List.find?_eq_none]
          intro other member named
          exact apart other member (of_decide_eq_true named).symm
        rw [absent]
        simp only [decide_true]
        cases row.2.key with
        | none => rfl
        | some key => exact Std.ExtTreeMap.getElem?_insert_self
      · have unchanged : (match row.2.key with
            | some key => registry.register row.1 key
            | none => registry).keys[id]? = registry.keys[id]? := by
          cases row.2.key with
          | none => rfl
          | some key => exact Table.getElem?_insert_ne (Ne.symm same)
        simp only [same, decide_false, unchanged]

theorem replayDevices_registry (rows : Table DeviceRow) : RegistryOf (replayDevices rows) rows := by
  intro id
  have folded := foldl_register {} (Table.list_distinct rows) id
  rw [Table.find?_list] at folded
  refine Eq.trans folded ?_
  unfold keyOf
  cases rows[id]? with
  | none => exact Std.ExtTreeMap.getElem?_empty
  | some row =>
      change row.key.or (∅ : Table VerifyingKey)[id]? = row.key
      rw [Std.ExtTreeMap.getElem?_empty, Option.or_none]

theorem RegistryOf.register {registry : DeviceRegistry} {rows : Table DeviceRow}
    (same : RegistryOf registry rows) (id : String) (key : VerifyingKey)
    : RegistryOf (registry.register id key) (rows.insert id ⟨Hex.encode key.val, "full"⟩) := by
  intro other
  unfold keyOf DeviceRegistry.register
  by_cases equal : other = id
  · subst equal
    rw [Std.ExtTreeMap.getElem?_insert_self, Std.ExtTreeMap.getElem?_insert_self]
    simp only [Option.bind_some, DeviceRow.key, Hex.decode_encode, sized, key.property, dif_pos]
  · rw [Table.getElem?_insert_ne equal, Table.getElem?_insert_ne equal]
    exact same other

variable [Libraries]

/-- The device is enrolled: its row, its key in memory and its event. -/
structure Enrolled (deviceId : String) (key : VerifyingKey) (world after : World) : Prop where
  rows : after.disk.devices
    = world.disk.devices.insert deviceId ⟨Hex.encode key.val, "full"⟩
  registry : after.kernel.devices = world.kernel.devices.register deviceId key
  logged : Logged after.disk "device.enrolled" (.str deviceId)

/-- Once the device's row is written, the faults of an enrolment spare its event. -/
def SparesEnrolment (diverged : Bool) (faults : List Fault) : Prop :=
  Undisturbed faults[0]? → SparesRecord diverged faults.tail

/-- A spared enrolment enrols and reports no error, or changes nothing and does not return. -/
theorem enrollDevicePersisted_spared (deviceId : String) {key : VerifyingKey} {nowMs : UInt64}
    {world : World} {faults : List Fault}
    (spared : SparesEnrolment world.kernel.ledgerHead.isDiverged faults)
    : (Enrolled deviceId key world (enrollDevicePersisted deviceId key nowMs world faults).2.1
        ∧ ∀ error, (enrollDevicePersisted deviceId key nowMs world faults).1 ≠ .failed error)
      ∨ ((enrollDevicePersisted deviceId key nowMs world faults).2.1 = world
        ∧ (enrollDevicePersisted deviceId key nowMs world faults).1 ≠ .done ()) := by
  let row : DeviceRow := ⟨Hex.encode key.val, "full"⟩
  let written : World :=
    Updates.apply (Update.registerDevice deviceId key)
      (Updates.apply (Update.putDevice deviceId row) world)
  have recorded {rest : List Fault} (saved : save (.putDevice deviceId row) world faults
        = (.done (), Updates.apply (Update.putDevice deviceId row) world, rest))
      : enrollDevicePersisted deviceId key nowMs world faults
        = log "device.enrolled" nowMs (.str deviceId) written rest := by
    unfold enrollDevicePersisted
    rw [Program.bind_done saved]
    rfl
  have enrolled {rest : List Fault} (spared : SparesRecord world.kernel.ledgerHead.isDiverged rest)
      : Enrolled deviceId key world
          (log "device.enrolled" nowMs (.str deviceId) written rest).2.1
        ∧ ∀ error, (log "device.enrolled" nowMs (.str deviceId) written rest).1
          ≠ .failed error := by
    have sparedThen : SparesRecord written.kernel.ledgerHead.isDiverged rest := spared
    obtain ⟨alive, logged⟩ := log_spared sparedThen
    obtain ⟨rows, registry⟩ : World.Same written _ .devices :=
      same_of_trail (log_emits.trail written rest) .devices (by decide)
    exact ⟨⟨rows, registry, logged⟩, alive⟩
  rcases faults with _ | ⟨_ | reason | _, rest⟩
  · rw [recorded rfl]
    exact Or.inl (enrolled (spared (Or.inl rfl)))
  · rw [recorded rfl]
    exact Or.inl (enrolled (spared (Or.inr rfl)))
  · exact Or.inr ⟨rfl, nofun⟩
  · exact Or.inr ⟨rfl, nofun⟩

/-- Enrolling the node's key reads its row first. -/
theorem enrollNodeKey_spared {key : VerifyingKey} {nowMs : UInt64} {world : World}
    {faults : List Fault}
    (spared : Undisturbed faults[0]?
      → world.disk.devices[nodeDevice world.kernel.nodeId]? = none
      → SparesEnrolment world.kernel.ledgerHead.isDiverged faults.tail)
    : (Enrolled (nodeDevice world.kernel.nodeId) key world (enrollNodeKey key nowMs world faults).2.1
        ∧ ∀ error, (enrollNodeKey key nowMs world faults).1 ≠ .failed error)
      ∨ (enrollNodeKey key nowMs world faults).2.1 = world := by
  let id : String := nodeDevice world.kernel.nodeId
  have looked {rest : List Fault}
      (ran : load (·.devices[id]?) world faults = (.done world.disk.devices[id]?, world, rest))
      (kept : world.disk.devices[id]? = none
        → SparesEnrolment world.kernel.ledgerHead.isDiverged rest)
      : (Enrolled id key world (enrollNodeKey key nowMs world faults).2.1
          ∧ ∀ error, (enrollNodeKey key nowMs world faults).1 ≠ .failed error)
        ∨ (enrollNodeKey key nowMs world faults).2.1 = world := by
    unfold enrollNodeKey kernel
    simp only [Program.observe_bind_run]
    rw [Program.bind_done ran]
    cases held : world.disk.devices[id]? with
    | none => exact (enrollDevicePersisted_spared _ (kept held)).imp_right And.left
    | some row =>
        refine Or.inr ?_
        dsimp only
        split <;> rfl
  rcases faults with _ | ⟨_ | reason | _, rest⟩
  · exact looked rfl (spared (Or.inl rfl))
  · exact looked rfl (spared (Or.inr rfl))
  · exact Or.inr rfl
  · exact Or.inr rfl

/-- The event is no enrolment that writes a device's row and then loses its event. -/
def SparesDevices (machine : Machine) : Event → Prop
  | .call (.enrollDevicePersisted _ _ _) faults =>
      SparesEnrolment machine.world.kernel.ledgerHead.isDiverged faults
  | .call (.enrollNodeKey _ _) faults =>
      Undisturbed faults[0]?
        → machine.world.disk.devices[nodeDevice machine.world.kernel.nodeId]? = none
        → SparesEnrolment machine.world.kernel.ledgerHead.isDiverged faults.tail
  | _ => True

/-- Every device row has its event on the record, and a process that is up holds the keys that
the rows give.
-/
structure DevicesOnRecord (machine : Machine) : Prop where
  rows : ∀ (id : String) (row : DeviceRow), machine.world.disk.devices[id]? = some row
    → Logged machine.world.disk "device.enrolled" (.str id)
  memory : machine.up = true
    → RegistryOf machine.world.kernel.devices machine.world.disk.devices

theorem devicesOnRecord_fresh : DevicesOnRecord Machine.fresh := by
  refine ⟨fun id row held => ?_, fun running => by cases running⟩
  change (∅ : Table DeviceRow)[id]? = some row at held
  rw [Std.ExtTreeMap.getElem?_empty] at held
  cases held

namespace DevicesOnRecord

variable {machine : Machine}

/-- The rows and the registry of a state reached from this one. -/
def At (world : World) : Prop :=
  (∀ (id : String) (row : DeviceRow), world.disk.devices[id]? = some row
    → Logged world.disk "device.enrolled" (.str id))
  ∧ RegistryOf world.kernel.devices world.disk.devices

/-- What leaves devices alone keeps them on the record. -/
theorem at_of_trail {areas : List Area} {first last : World}
    (trail : Trail (Within areas) first last)
    (elsewhere : Area.devices ∉ areas) (held : At first)
    : At last := by
  obtain ⟨rows, registry⟩ : World.Same first last .devices :=
    same_of_trail trail .devices elsewhere
  refine ⟨fun id row stored => ?_, ?_⟩
  · rw [rows] at stored
    exact (held.1 id row stored).trail trail
  · rw [rows, registry]
    exact held.2

theorem at_of_enrolled {areas : List Area} {first last : World} {deviceId : String}
    {key : VerifyingKey} (trail : Trail (Within areas) first last)
    (enrolled : Enrolled deviceId key first last) (held : At first)
    : At last := by
  refine ⟨fun id row stored => ?_, ?_⟩
  · rw [enrolled.rows] at stored
    rcases Table.getElem?_insert_inv stored with ⟨rfl, -⟩ | earlier
    · exact enrolled.logged
    · exact (held.1 id row earlier).trail trail
  · rw [enrolled.rows, enrolled.registry]
    exact held.2.register deviceId key

/-- A call that spares the devices' events keeps devices on the record, by cases on the call. -/
theorem at_of_call {call : Call} {faults : List Fault} (held : At machine.world)
    (spared : SparesDevices machine (.call call faults))
    : At (invoke call machine.world faults).2.1 := by
  have trail := (invoke_emits call).trail machine.world faults
  by_cases elsewhere : Area.devices ∈ call.footprint
  · cases call with
    | enrollDevicePersisted deviceId key nowMs =>
        have ran : invoke (.enrollDevicePersisted deviceId key nowMs) machine.world faults = _ :=
          Program.map_run (fun _ => Reply.unit) (enrollDevicePersisted deviceId key nowMs)
            machine.world faults
        rw [ran] at trail ⊢
        rcases enrollDevicePersisted_spared deviceId spared with
          ⟨enrolled, -⟩ | ⟨same, -⟩
        · exact at_of_enrolled trail enrolled held
        · rw [same]
          exact held
    | enrollNodeKey key nowMs =>
        have ran : invoke (.enrollNodeKey key nowMs) machine.world faults = _ :=
          Program.map_run (fun _ => Reply.unit) (enrollNodeKey key nowMs) machine.world faults
        rw [ran] at trail ⊢
        rcases enrollNodeKey_spared spared with ⟨enrolled, -⟩ | same
        · exact at_of_enrolled trail enrolled held
        · rw [same]
          exact held
    | _ => exact absurd elsewhere (by simp [Call.footprint, stepAreas])
  · exact at_of_trail trail elsewhere held

/-- Every event that spares the devices' events keeps them on the record. -/
theorem step (onRecord : DevicesOnRecord machine) (event : Event)
    (spared : SparesDevices machine event)
    : DevicesOnRecord (machine.step event) := by
  cases event with
  | call call faults =>
      cases up : machine.up with
      | false => rwa [Machine.step_call_down up]
      | true =>
          have held := at_of_call ⟨onRecord.rows, onRecord.memory up⟩ spared
          rw [← Machine.step_call_world up] at held
          exact ⟨held.1, fun _ => held.2⟩
  | close => exact ⟨onRecord.rows, fun running => by cases running⟩
  | «open» stateDir nodeId recoveredPartialLine nowMs faults =>
      cases up : machine.up with
      | true =>
          simp only [Machine.step, up, if_true]
          exact onRecord
      | false =>
          rcases Machine.step_open up stateDir nodeId recoveredPartialLine nowMs faults with
            ⟨-, opened, -⟩ | ⟨down, trail⟩
          · refine ⟨?_, fun _ => ?_⟩
            · rw [opened]
              exact onRecord.rows
            · rw [opened]
              exact replayDevices_registry machine.world.disk.devices
          · have within : Trail (Within [.leases]) machine.world
                (machine.step (.open stateDir nodeId recoveredPartialLine nowMs faults)).world := by
              refine trail.mono ?_
              rintro _ _ ⟨_, _, same⟩
              exact same ▸ ⟨.head _, trivial⟩
            obtain ⟨rows, -⟩ : World.Same machine.world _ .devices :=
              same_of_trail within .devices (by decide)
            refine ⟨fun id row stored => ?_, fun up => absurd (down.symm.trans up) Bool.false_ne_true⟩
            rw [rows] at stored
            exact (onRecord.rows id row stored).trail within

end DevicesOnRecord

end VerticalAI.Kernel
