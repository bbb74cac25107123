import VerticalAI.Kernel.Enrolment

/-! Every device that the kernel accepts is on the record, unless an enrolment wrote its row and
then lost its event.
-/

namespace VerticalAI.Correctness
open VerticalAI.Foundation VerticalAI.Contracts VerticalAI.Kernel

/-- A call that enrols a device. -/
def EnrolsDevice : Call → Prop
  | .enrollDevicePersisted _ _ _ | .enrollNodeKey _ _ => True
  | _ => False

section Runs

variable [Libraries]

/-- Some signature by the device is accepted. -/
def AcceptsDevice (devices : DeviceRegistry) (id : String) : Prop :=
  ∃ message signature, devices.verify id message signature = .ok ()

/-- Devices are on the record in every run that spares their events, by induction on the run. -/
theorem devicesOnRecord {events : List Event}
    (spared : ∀ before event after, events = before ++ event :: after
      → SparesDevices (nodeAfter before) event)
    : DevicesOnRecord (nodeAfter events) := by
  induction events using List.reverseRecOn with
  | nil => exact devicesOnRecord_fresh
  | append_singleton events event ih =>
      rw [nodeAfter_concat]
      refine (ih fun before earlier after split => ?_).step event (spared events event [] rfl)
      refine spared before earlier (after ++ [event]) ?_
      rw [split, List.append_assoc, List.cons_append]

/-- An enrolment that is spared and reports an error left every device as it was. -/
theorem refused_enrolment {machine : Machine} {call : Call} {faults : List Fault}
    {error : KernelError} (enrols : EnrolsDevice call)
    (spared : SparesDevices machine (.call call faults))
    (answered : machine.answer call faults = some (.failed error))
    : (machine.step (.call call faults)).world = machine.world := by
  have up := (Machine.step_call_up answered nofun).1
  rw [Machine.answer_up up] at answered
  rw [Machine.step_call_world up]
  have refused := Option.some.inj answered
  cases call with
  | enrollDevicePersisted deviceId key nowMs =>
      have ran : invoke (.enrollDevicePersisted deviceId key nowMs) machine.world faults = _ :=
        Program.map_run (fun _ => Reply.unit) (enrollDevicePersisted deviceId key nowMs)
          machine.world faults
      rw [ran] at refused ⊢
      rcases enrollDevicePersisted_spared deviceId spared with
        ⟨-, alive⟩ | ⟨same, -⟩
      · exact absurd (Outcome.map_eq_failed refused) (alive error)
      · exact same
  | enrollNodeKey key nowMs =>
      have ran : invoke (.enrollNodeKey key nowMs) machine.world faults = _ :=
        Program.map_run (fun _ => Reply.unit) (enrollNodeKey key nowMs) machine.world faults
      rw [ran] at refused ⊢
      rcases enrollNodeKey_spared spared with ⟨-, alive⟩ | same
      · exact absurd (Outcome.map_eq_failed refused) (alive error)
      · exact same
  | _ => exact enrols.elim

/-- In every run whose enrolments lose no event of a device whose row they wrote: a device that the
kernel accepts, or would after a reopening, is on the record; and an enrolment that reports an error
has changed nothing.
-/
theorem accepted_devices_are_on_record (events : List Event)
    (spared : ∀ before event after, events = before ++ event :: after
      → SparesDevices (nodeAfter before) event)
    : (∀ id, ((nodeAfter events).up = true
            ∧ AcceptsDevice (nodeAfter events).world.kernel.devices id)
          ∨ AcceptsDevice (replayDevices (nodeAfter events).world.disk.devices) id
        → Logged (nodeAfter events).world.disk "device.enrolled" (.str id))
      ∧ ∀ before call faults after error, events = before ++ .call call faults :: after
        → EnrolsDevice call
        → (nodeAfter before).answer call faults = some (.failed error)
        → (nodeAfter (before ++ [.call call faults])).world = (nodeAfter before).world := by
  have onRecord := devicesOnRecord spared
  have filed {registry : DeviceRegistry} {id : String}
      (same : RegistryOf registry (nodeAfter events).world.disk.devices)
      (accepts : AcceptsDevice registry id)
      : Logged (nodeAfter events).world.disk "device.enrolled" (.str id) := by
    obtain ⟨message, signature, verified⟩ := accepts
    obtain ⟨key, held, -⟩ := DeviceRegistry.verify_ok_iff.mp verified
    rw [same id, keyOf, Option.bind_eq_some_iff] at held
    obtain ⟨row, stored, -⟩ := held
    exact onRecord.rows id row stored
  refine ⟨?_, ?_⟩
  · rintro id (⟨up, accepts⟩ | accepts)
    · exact filed (onRecord.memory up) accepts
    · exact filed (replayDevices_registry _) accepts
  · intro before call faults after error split enrols answered
    rw [nodeAfter_concat]
    exact refused_enrolment enrols (spared before _ after split) answered

end Runs

attribute [local instance] plainLibraries

section Run

private def nodeKey : VerifyingKey := .repeated 7

private def firstOpening : Event := .open "state" "n1" false 0 []

private def enrolment : Call := .enrollNodeKey nodeKey 5

/-- What the node's key signs. -/
private def nodeSignature : Signature := ⟨nodeKey.val ++ List.replicate 32 0, rfl⟩

private theorem accepts_node {devices : DeviceRegistry}
    (enrolled : devices.keys["node:n1"]? = some nodeKey)
    : AcceptsDevice devices "node:n1" :=
  ⟨List.replicate 32 0, nodeSignature,
    DeviceRegistry.verify_ok_iff.mpr ⟨nodeKey, enrolled, rfl⟩⟩

/-- An undisturbed enrolment is on the record. -/
theorem accepted_devices_are_on_record_of_node
    : Logged (nodeAfter [firstOpening, .call enrolment []]).world.disk "device.enrolled"
        (.str "node:n1") := by
  refine (accepted_devices_are_on_record [firstOpening, .call enrolment []] ?_).1 "node:n1"
    (Or.inl ⟨rfl, accepts_node rfl⟩)
  intro before event after split
  rcases before with _ | ⟨first, _ | ⟨second, before⟩⟩
  · cases split
    trivial
  · cases split
    exact fun _ _ _ => ⟨Or.inl rfl, Or.inr nofun⟩
  · simp at split

/-- A device whose enrolment reported an error is accepted, and is not on the record even after
the enrolment was retried and returned.
-/
theorem retried_enrolment_is_off_the_record
    : ∃ events call faults error,
        EnrolsDevice call
        ∧ (nodeAfter events).answer call faults = some (.failed error)
        ∧ AcceptsDevice (nodeAfter (events ++ [.call call faults])).world.kernel.devices "node:n1"
        ∧ (nodeAfter (events ++ [.call call faults])).answer call [] = some (.done .unit)
        ∧ ¬Logged (nodeAfter (events ++ [.call call faults, .call call []])).world.disk
            "device.enrolled" (.str "node:n1") := by
  refine ⟨[firstOpening], enrolment, [.none, .none, .fail "disk full"], .store "disk full", trivial,
    rfl, accepts_node rfl, rfl, ?_⟩
  rintro ⟨event, member, -⟩
  have empty : (nodeAfter [firstOpening, .call enrolment [.none, .none, .fail "disk full"],
      .call enrolment []]).world.disk.ledger = [] := rfl
  rw [List.singleton_append, empty] at member
  cases member

end Run

end VerticalAI.Correctness
