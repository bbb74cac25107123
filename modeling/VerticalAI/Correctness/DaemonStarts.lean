import VerticalAI.Kernel.Enrolment
import VerticalAI.Kernel.VerifiedRecord
import VerticalAI.Store.CanonicalReader
import VerticalAI.Store.LedgerOps
import VerticalAI.Vkd.Start

/-! Starts of the daemon: after any history a node comes up again, and whatever is on its disk, a
daemon serves on a record that verifies unless it is forced to, and says which in its report.
-/

namespace VerticalAI.Correctness
open VerticalAI.Foundation VerticalAI.Contracts VerticalAI.Store VerticalAI.Kernel VerticalAI.Vkd

section Starts

variable [Libraries]

-----------------------------------------------------------------------------------------
-- Boots
-----------------------------------------------------------------------------------------

/-- The last event on the record is a boot with this report. -/
def Reported (report : BootReport) (before after : List LedgerEvent) : Prop :=
  ∃ event, after = before ++ [event] ∧ event.kind = "boot"
    ∧ event.payloadHash = hashCanonical report.toJson

theorem loadPoliciesVersion_emits : loadPoliciesVersion.Emits (Within [.policies]) := by
  rw [loadPoliciesVersion]
  refine load_emits.bind fun version => ?_
  cases version with
  | some version => exact Program.emits_pure
  | none =>
      exact Program.Emits.bind (save_area .policies rfl (by decide) fun _ => trivial)
        fun _ => Program.emits_pure

/-- A boot that returned put on the record what it found. -/
theorem boot_done {nowMs : UInt64} {world after : World} {faults rest : List Fault}
    {report : BootReport} (ran : boot nowMs world faults = (.done report, after, rest))
    : report.ledgerOk = world.kernel.ledgerHolds
      ∧ Reported report world.disk.ledger after.disk.ledger
      ∧ after.kernel.devices = world.kernel.devices := by
  have devices : world.Same after .devices := by
    have trail : Trail (Within [.policies, .record]) world (boot nowMs world faults).2.1 :=
      boot_emits.trail world faults
    rw [ran] at trail
    exact same_of_trail trail .devices (by decide)
  obtain ⟨node, first, _, looked, ran⟩ := Program.bind_done_inv ran
  cases looked
  obtain ⟨version, second, _, loaded, ran⟩ := Program.bind_done_inv ran
  obtain ⟨_, third, _, logged, ran⟩ := Program.bind_done_inv ran
  cases ran
  obtain rfl := log_done logged
  have trail := loadPoliciesVersion_emits.trail world faults
  rw [loaded] at trail
  obtain ⟨-, ledger, -⟩ := same_of_trail trail .record (by decide)
  refine ⟨rfl, ⟨second.logEvent "boot" nowMs _, ?_, rfl, rfl⟩, devices.2⟩
  rw [logged_ledger, ledger]

omit [Libraries] in
theorem loadPoliciesVersion_working (world : World)
    : ∃ version after, loadPoliciesVersion world [] = (.done version, after, []) := by
  have loaded : load (·.policiesVersion) world []
      = (.done world.disk.policiesVersion, world, []) := rfl
  rw [loadPoliciesVersion, Program.bind_done loaded]
  cases world.disk.policiesVersion with
  | some version => exact ⟨_, _, rfl⟩
  | none => exact ⟨_, _, rfl⟩

/-- On working storage a boot returns. -/
theorem boot_working (nowMs : UInt64) (world : World)
    : ∃ report after, boot nowMs world [] = (.done report, after, []) := by
  obtain ⟨version, after, loaded⟩ := loadPoliciesVersion_working world
  have node : kernel id world [] = (.done world.kernel, world, []) := rfl
  rw [boot, Program.bind_done node, Program.bind_done loaded]
  exact ⟨_, _, Program.bind_done (log_working "boot" nowMs _ after)⟩

-----------------------------------------------------------------------------------------
-- Enrolment
-----------------------------------------------------------------------------------------

/-- On working storage the node's key is enrolled unless another one is; the process then
accepts it.
-/
theorem enrollNodeKey_working {key : VerifyingKey} (nowMs : UInt64) {world : World}
    (own : ∀ row, world.disk.devices[nodeDevice world.kernel.nodeId]? = some row
      → row.vkHex = Hex.encode key.val)
    (registry : RegistryOf world.kernel.devices world.disk.devices)
    : ∃ after events, enrollNodeKey key nowMs world [] = (.done (), after, [])
      ∧ after.disk.ledger = world.disk.ledger ++ events ∧ events.length ≤ 1
      ∧ (∀ event ∈ events, event.kind = "device.enrolled")
      ∧ after.kernel.devices.keys[nodeDevice world.kernel.nodeId]? = some key := by
  have node : kernel (·.nodeId) world [] = (.done world.kernel.nodeId, world, []) := rfl
  have looked : load (·.devices[nodeDevice world.kernel.nodeId]?) world []
      = (.done world.disk.devices[nodeDevice world.kernel.nodeId]?, world, []) := rfl
  rw [enrollNodeKey, Program.bind_done node, Program.bind_done looked]
  cases stored : world.disk.devices[nodeDevice world.kernel.nodeId]? with
  | some row =>
      have same := own row stored
      refine ⟨world, [], ?_, (List.append_nil _).symm, Nat.zero_le _, by simp, ?_⟩
      · dsimp only
        rw [if_pos same]
        rfl
      · rw [registry, keyOf, stored]
        simp [DeviceRow.key, same, Hex.decode_encode, sized, key.property]
  | none =>
      let id := nodeDevice world.kernel.nodeId
      let written : World := Updates.apply (Update.registerDevice id key)
        (Updates.apply (Update.putDevice id ⟨Hex.encode key.val, "full"⟩) world)
      have logged := log_working "device.enrolled" nowMs (.str id) written
      refine ⟨written.logged "device.enrolled" nowMs (.str id),
        [written.logEvent "device.enrolled" nowMs (.str id)], logged, ?_, Nat.le_refl 1, ?_, ?_⟩
      · rw [logged_ledger]
        rfl
      · intro event member
        rw [List.mem_singleton.mp member]
        rfl
      · have trail : Trail (Within [.record]) written
            (log "device.enrolled" nowMs (.str id) written []).2.1 := log_emits.trail written []
        rw [log_working] at trail
        obtain ⟨-, kept⟩ := same_of_trail trail .devices (by decide)
        rw [kept]
        exact Std.ExtTreeMap.getElem?_insert_self

/-- A start with a key for the node's device, where it is asked to enrol one. The row of a device
that is enrolled already is of this key.
-/
def DeviceKeyed (args : Args) (found : Surroundings) (rows : Table DeviceRow) : Prop :=
  args.autoEnrollNode = true → ∃ key, found.deviceKey = .ok key
    ∧ ∀ row, rows[nodeDevice args.nodeId]? = some row → row.vkHex = Hex.encode key.val

/-- The key that a start found is the one that the process takes for the node's device. -/
def KeyAccepted (args : Args) (found : Surroundings) (world : World) : Prop :=
  args.autoEnrollNode = true → ∀ key, found.deviceKey = .ok key
    → world.kernel.devices.keys[nodeDevice args.nodeId]? = some key

/-- A key that is enrolled is that of the row which was there. -/
theorem keyed_of_enrolled {args : Args} {found : Surroundings} {world after : World}
    {faults rest : List Fault} (named : world.kernel.nodeId = args.nodeId)
    (ran : enroll args found world faults = (.done (), after, rest))
    : DeviceKeyed args found world.disk.devices := by
  intro asked
  simp only [enroll, asked, if_true] at ran
  cases given : found.deviceKey with
  | error reason =>
      rw [given] at ran
      cases ran
  | ok key =>
      rw [given] at ran
      refine ⟨key, rfl, fun row stored => ?_⟩
      have ran := Program.mapError_done_inv ran
      by_contra other
      obtain ⟨nodeId, last, _, looked, ran⟩ := Program.bind_done_inv ran
      cases looked
      obtain ⟨left, ran⟩ := load_bind_done ran
      simp only [named, stored, if_neg other] at ran
      cases ran

/-- A call that returned leaves a node that is up reachable. -/
theorem reachable_called {call : Call} {reply : Reply} {world after : World}
    (reachable : Reachable ⟨world, true⟩)
    (ran : invoke call world [] = (.done reply, after, []))
    : Reachable ⟨after, true⟩ := by
  have stepped : Machine.step ⟨world, true⟩ (.call call []) = ⟨after, true⟩ := by
    simp [Machine.step, ran]
  rw [← stepped]
  exact reachable.run [.call call []]

-----------------------------------------------------------------------------------------
-- Serving
-----------------------------------------------------------------------------------------

section Serving

/-- The state with the process that a start rebuilds on it, the ledger read. -/
def openedFor (args : Args) (found : Surroundings) (ledger : LedgerFs) (world : World) : World :=
  let read := reading ledger world
  { read.swept (read.disk.leaseReplay found.openedMs).stale with
    kernel := read.disk.rebuild args.stateDir args.nodeId ledger.recoveredPartialLine
      found.openedMs }

variable [EventReader]

/-- A start finds the node locked, cannot read the ledger, cannot open the node, or comes up on what
it rebuilds.
-/
theorem start_cases (args : Args) (found : Surroundings) (machine : Machine) (faults : List Fault)
    : (machine.up = true ∧ start args found machine faults = (.failed .locked, machine))
      ∨ (machine.up = false ∧ ∃ reason, readLedger found = .error reason
        ∧ start args found machine faults = (.failed (.kernel (.store reason)), machine))
      ∨ (machine.up = false ∧ ∃ world outcome,
          start args found machine faults = (outcome, ⟨world, false⟩)
          ∧ (outcome = .crashed ∨ ∃ error, outcome = .failed (.kernel error)))
      ∨ (machine.up = false ∧ ∃ ledger rest, readLedger found = .ok ledger
        ∧ machine.world.disk.ArchesReadable
        ∧ start args found machine faults
          = settle (comeUp args found (openedFor args found ledger machine.world) rest)) := by
  unfold start
  cases machine.up with
  | true => exact Or.inl ⟨rfl, rfl⟩
  | false =>
      simp only [Bool.false_eq_true, if_false]
      cases read : readLedger found with
      | error reason => exact Or.inr (Or.inl ⟨trivial, reason, rfl, rfl⟩)
      | ok ledger =>
          dsimp only
          rcases opened : RealKernel.open args.stateDir args.nodeId ledger.recoveredPartialLine
            found.openedMs (reading ledger machine.world) faults
            with ⟨kernel | error | _, world, rest⟩
          · obtain ⟨rfl, rfl, readable⟩ := open_done opened
            exact Or.inr (Or.inr (Or.inr ⟨trivial, ledger, rest, rfl, readable, rfl⟩))
          · exact Or.inr (Or.inr (Or.inl ⟨trivial, world, _, rfl, Or.inr ⟨error, rfl⟩⟩))
          · exact Or.inr (Or.inr (Or.inl ⟨trivial, world, _, rfl, Or.inl rfl⟩))

end Serving

/-- What a start ends in that has not booted: power is lost, or the kernel or the key refuses. -/
def Unbooted : Outcome Refusal BootReport → Prop
  | .crashed | .failed (.kernel _) | .failed (.deviceKey _) => True
  | .done _ | .failed .locked | .failed (.bind _) | .failed (.ledger _) => False

/-- An enrolment that is refused is refused by the kernel or for the key. -/
theorem enroll_refused {args : Args} {found : Surroundings} {world after : World}
    {faults rest : List Fault} {refusal : Refusal}
    (ran : enroll args found world faults = (.failed refusal, after, rest))
    : Unbooted (.failed refusal) := by
  unfold enroll at ran
  split at ran
  · cases given : found.deviceKey with
    | error reason =>
        rw [given] at ran
        cases ran
        trivial
    | ok key =>
        rw [given] at ran
        simp only [Program.mapError] at ran
        split at ran
        all_goals cases ran
        trivial
  · cases ran

/-- A start that has its endpoint does not come to boot, or enrols, boots and judges by the
report.
-/
theorem comeUp_cases {args : Args} {found : Surroundings} (bound : found.bindRefused = none)
    (world : World) (faults : List Fault)
    : (∃ outcome after rest, comeUp args found world faults = (outcome, after, rest)
        ∧ Unbooted outcome)
      ∨ ∃ middle left report after rest, enroll args found world faults = (.done (), middle, left)
        ∧ boot found.bootedMs middle left = (.done report, after, rest)
        ∧ comeUp args found world faults
          = (if report.ledgerOk || args.force then .done report
              else .failed (.ledger (doesNotVerify args report.ledgerLen)), after, rest) := by
  simp only [comeUp, bound]
  rcases enrolled : enroll args found world faults with ⟨_ | refusal | _, middle, left⟩
  · rw [Program.bind_done enrolled]
    rcases booted : boot found.bootedMs middle left with ⟨report | error | _, after, rest⟩
    · refine Or.inr ⟨middle, left, report, after, rest, rfl, booted, ?_⟩
      rw [Program.bind_done (Program.mapError_done booted)]
      split <;> rfl
    · have failed : Program.mapError Refusal.kernel (boot found.bootedMs) middle left
          = (.failed (.kernel error), after, rest) := by
        simp only [Program.mapError, booted]
      exact Or.inl ⟨_, _, _, Program.bind_failed failed, trivial⟩
    · have crashed : Program.mapError Refusal.kernel (boot found.bootedMs) middle left
          = (.crashed, after, rest) := by
        simp only [Program.mapError, booted]
      exact Or.inl ⟨_, _, _, Program.bind_crashed crashed, trivial⟩
  · exact Or.inl ⟨_, _, _, Program.bind_failed enrolled, enroll_refused enrolled⟩
  · exact Or.inl ⟨_, _, _, Program.bind_crashed enrolled, trivial⟩

/-- How a start goes: it is refused at the lock, before its boot or at the endpoint, or it boots
and is judged by its report.
-/
inductive Course [EventReader] (args : Args) (found : Surroundings) (machine : Machine)
    : Outcome Refusal BootReport × Machine → Prop where
  | locked (up : machine.up = true) : Course args found machine (.failed .locked, machine)
  | unbooted (outcome : Outcome Refusal BootReport) (after : Machine) (down : after.up = false)
      (failed : Unbooted outcome)
      : Course args found machine (outcome, after)
  | unbound {ledger : LedgerFs} (read : readLedger found = .ok ledger) (reason : String)
      (refused : found.bindRefused = some reason)
      : Course args found machine
          (.failed (.bind reason), ⟨openedFor args found ledger machine.world, false⟩)
  | booted {ledger : LedgerFs} {faults left rest : List Fault} {middle world : World}
      {report : BootReport} (read : readLedger found = .ok ledger)
      (arches : machine.world.disk.ArchesReadable) (bound : found.bindRefused = none)
      (enrolled : enroll args found (openedFor args found ledger machine.world) faults
        = (.done (), middle, left))
      (booted : boot found.bootedMs middle left = (.done report, world, rest))
      : Course args found machine
          (if report.ledgerOk || args.force then (.done report, ⟨world, true⟩)
            else (.failed (.ledger (doesNotVerify args report.ledgerLen)), ⟨world, false⟩))

theorem start_course [EventReader] (args : Args) (found : Surroundings) (machine : Machine)
    (faults : List Fault)
    : Course args found machine (start args found machine faults) := by
  rcases start_cases args found machine faults with
    ⟨up, ended⟩ | ⟨down, reason, -, ended⟩ | ⟨-, world, outcome, ended, failed⟩
    | ⟨-, ledger, reading, read, arches, ended⟩
  · rw [ended]
    exact .locked up
  · rw [ended]
    exact .unbooted _ machine down trivial
  · rw [ended]
    refine .unbooted outcome ⟨world, false⟩ rfl ?_
    rcases failed with rfl | ⟨error, rfl⟩
    · trivial
    · trivial
  rw [ended]
  cases bound : found.bindRefused with
  | some reason =>
      have refused : comeUp args found (openedFor args found ledger machine.world) reading
          = (.failed (.bind reason), openedFor args found ledger machine.world, reading) := by
        simp only [comeUp, bound]
        rfl
      rw [refused]
      exact .unbound read reason bound
  | none =>
      rcases comeUp_cases bound (openedFor args found ledger machine.world) reading with
        ⟨outcome, last, rest, ran, unbooted⟩
        | ⟨middle, left, report, last, rest, enrolled, booted, ran⟩
      · rw [ran]
        cases outcome with
        | done report => exact absurd unbooted id
        | failed refusal => exact .unbooted _ ⟨last, false⟩ rfl unbooted
        | crashed => exact .unbooted _ ⟨last, false⟩ rfl unbooted
      · have course : Course args found machine _ := .booted read arches bound enrolled booted
        rw [ran]
        split
        · next serves =>
            rw [if_pos serves] at course
            exact course
        · next refuses =>
            rw [if_neg refuses] at course
            exact course

/-- What a start needs of what it finds: the master key and a ledger and arch rows that can be read,
the endpoint, and a key for the node's device where it is to enrol one.
-/
structure Startable [EventReader] (args : Args) (found : Surroundings) (machine : Machine)
    : Prop where
  ledger : ∃ ledger, readLedger found = .ok ledger
  arches : machine.world.disk.ArchesReadable
  bound : found.bindRefused = none
  keyed : DeviceKeyed args found machine.world.disk.devices

/-- A start that serves found what it needs. -/
theorem start_done [EventReader] {args : Args} {found : Surroundings} {machine after : Machine}
    {faults : List Fault} {report : BootReport}
    (served : start args found machine faults = (.done report, after))
    : Startable args found machine := by
  have course := start_course args found machine faults
  generalize start args found machine faults = ended at course served
  cases course with
  | locked => cases served
  | unbooted outcome after down failed =>
      cases served
      exact absurd failed id
  | unbound => cases served
  | @booted ledger _ _ _ _ _ _ read arches bound enrolled =>
      have keyed : DeviceKeyed args found (openedFor args found ledger machine.world).disk.devices :=
        keyed_of_enrolled rfl enrolled
      exact ⟨⟨ledger, read⟩, arches, bound, keyed⟩

-----------------------------------------------------------------------------------------
-- Coming up
-----------------------------------------------------------------------------------------

/-- On working storage the enrolment is of one event or none. -/
theorem enroll_working {args : Args} {found : Surroundings} (world : World)
    (keyed : DeviceKeyed args found world.disk.devices) (named : world.kernel.nodeId = args.nodeId)
    (registry : RegistryOf world.kernel.devices world.disk.devices)
    (reachable : Reachable ⟨world, true⟩)
    : ∃ after events, enroll args found world [] = (.done (), after, [])
      ∧ after.disk.ledger = world.disk.ledger ++ events ∧ events.length ≤ 1
      ∧ (∀ event ∈ events, event.kind = "device.enrolled")
      ∧ KeyAccepted args found after ∧ Reachable ⟨after, true⟩ := by
  cases asked : args.autoEnrollNode with
  | false =>
      refine ⟨world, [], ?_, (List.append_nil _).symm, Nat.zero_le _, by simp, ?_, reachable⟩
      · simp only [enroll, asked]
        rfl
      · intro enrolling
        rw [asked] at enrolling
        cases enrolling
  | true =>
      obtain ⟨key, given, own⟩ := keyed asked
      rw [← named] at own
      obtain ⟨after, events, ran, ledger, few, kinds, held⟩ :=
        enrollNodeKey_working found.enrolledMs own registry
      refine ⟨after, events, ?_, ledger, few, kinds, ?_, ?_⟩
      · simp only [enroll, asked, given, if_true]
        exact Program.mapError_done ran
      · intro _ other taken
        rw [given] at taken
        cases taken
        rw [← named]
        exact held
      · have called : invoke (.enrollNodeKey key found.enrolledMs) world []
            = (.done .unit, after, []) := Program.map_done ran
        exact reachable_called reachable called

/-- What a node is like that has come up: its record holds and ends in its report, after at most the
enrolment of its own device, and it takes that device's key.
-/
structure CameUp (args : Args) (found : Surroundings) (before : Machine) (report : BootReport)
    (after : Machine) : Prop where
  up : after.up = true
  reachable : Reachable after
  holds : report.ledgerOk = true
  reported : ∃ enrolled : List LedgerEvent, enrolled.length ≤ 1
    ∧ (∀ event ∈ enrolled, event.kind = "device.enrolled")
    ∧ Reported report (before.world.disk.ledger ++ enrolled) after.world.disk.ledger
  accepted : KeyAccepted args found after.world

/-- The files of the ledger, where they can be read, hold the node's record. -/
def HoldsRecord [EventReader] (found : Surroundings) (machine : Machine) : Prop :=
  ∀ ledger, readLedger found = .ok ledger → ledger.events = machine.world.disk.ledger

omit [Libraries] in
/-- Files that store the record hold it. -/
theorem readLedger_of_stores [EventReader] (lawful : EventReader.Lawful) {found : Surroundings}
    {events : List LedgerEvent} (stores : Stores found.ledgerDir events)
    (given : found.masterKeyRefused = none)
    : readLedger found = .ok ⟨⟨events⟩, false⟩ := by
  rw [readLedger, given]
  dsimp only
  rw [openIn_of_open (stores.opens lawful)]

/-- A node that is down comes up on working storage when it finds what it needs. -/
theorem comes_up [EventReader] {args : Args} {found : Surroundings} {machine : Machine}
    (reachable : Reachable machine) (down : machine.up = false)
    (numbered : machine.world.disk.ledger.length < 2 ^ 64) (recorded : HoldsRecord found machine)
    (startable : Startable args found machine)
    : ∃ report after, start args found machine [] = (.done report, after)
      ∧ CameUp args found machine report after := by
  obtain ⟨⟨ledger, read⟩, readable, bound, keyed⟩ := startable
  have unchanged : reading ledger machine.world = machine.world := by
    rw [reading, recorded ledger read]
  let world := openedFor args found ledger machine.world
  have opened : machine.step (.open args.stateDir args.nodeId ledger.recoveredPartialLine
      found.openedMs []) = ⟨world, true⟩ := by
    simp [Machine.step, down, open_working readable, world, openedFor, unchanged]
  have running : Reachable ⟨world, true⟩ := by
    rw [← opened]
    exact reachable.run [.open args.stateDir args.nodeId ledger.recoveredPartialLine
      found.openedMs []]
  obtain ⟨enrolledAt, enrolled, ran, grown, few, kinds, accepted, running⟩ :=
    enroll_working world keyed rfl (replayDevices_registry _) running
  have whole : world.disk.ledger = machine.world.disk.ledger := recorded ledger read
  rw [whole] at grown
  obtain ⟨report, after, booted⟩ := boot_working found.bootedMs enrolledAt
  obtain ⟨verdict, reported, devices⟩ := boot_done booted
  have holds : report.ledgerOk = true := by
    rw [verdict]
    refine (running.recorded.inUse rfl).ledgerHolds ?_
    change enrolledAt.disk.ledger.length ≤ 2 ^ 64
    rw [grown, List.length_append]
    omega
  have served : comeUp args found world [] = (.done report, after, []) := by
    simp only [comeUp, bound]
    rw [Program.bind_done ran, Program.bind_done (Program.mapError_done booted)]
    simp only [holds, Bool.true_or, if_true]
    rfl
  rw [grown] at reported
  refine ⟨report, ⟨after, true⟩, ?_, rfl, ?_, holds, ⟨enrolled, few, kinds, reported⟩, ?_⟩
  · simp only [start, down, Bool.false_eq_true, if_false, read, unchanged, open_working readable]
    have served := congrArg settle served
    simp only [world, openedFor, unchanged] at served
    exact served
  · have called : invoke (.boot found.bootedMs) enrolledAt []
        = (.done (.report report), after, []) := Program.map_done booted
    exact reachable_called running called
  · intro asked key given
    change after.kernel.devices.keys[_]? = _
    rw [devices]
    exact accepted asked key given

/-- After any history, a node that is down comes up on working storage exactly when its start finds
what it needs, and then on a record that holds.
-/
theorem node_comes_up_again [EventReader] (args : Args) (found : Surroundings) {machine : Machine}
    (reachable : Reachable machine) (down : machine.up = false)
    (numbered : machine.world.disk.ledger.length < 2 ^ 64) (recorded : HoldsRecord found machine)
    : ((∃ report after, start args found machine [] = (.done report, after))
        ↔ Startable args found machine)
      ∧ ∀ report after, start args found machine [] = (.done report, after)
        → CameUp args found machine report after := by
  refine ⟨⟨fun served => ?_, fun startable => ?_⟩, fun report after served => ?_⟩
  · obtain ⟨report, after, served⟩ := served
    exact start_done served
  · obtain ⟨report, after, served, -⟩ := comes_up reachable down numbered recorded startable
    exact ⟨report, after, served⟩
  · obtain ⟨given, other, same, came⟩ :=
      comes_up reachable down numbered recorded (start_done served)
    rw [served] at same
    cases same
    exact came

-----------------------------------------------------------------------------------------
-- The record that a start finds
-----------------------------------------------------------------------------------------

/-- The chain that was read links, and the head on record is on it. -/
def RecordVerifies (recorded : Option LedgerHead) (ledger : LedgerFs) : Prop :=
  ledgerChain.Linked genesisHash ledger.events
    ∧ (headVerdict recorded ledger.events).isDiverged = false

/-- The report is on the record, behind what was read. -/
def ReportOnRecord (report : BootReport) (ledger : LedgerFs) (after : Machine) : Prop :=
  ∃ before, ledger.events <+: before ∧ Reported report before after.world.disk.ledger

/-- What holds of a daemon that serves: it reported whether the ledger verifies, and it does, or the
daemon was forced.
-/
structure Served (args : Args) (recorded : Option LedgerHead) (ledger : LedgerFs)
    (report : BootReport) (after : Machine) : Prop where
  up : after.up = true
  verdict : report.ledgerOk = true ↔ RecordVerifies recorded ledger
  verifies : RecordVerifies recorded ledger ∨ args.force = true
  reported : ReportOnRecord report ledger after

/-- What holds of a daemon that refuses its ledger, down again. -/
structure Refused (args : Args) (recorded : Option LedgerHead) (ledger : LedgerFs)
    (message : String) (after : Machine) : Prop where
  down : after.up = false
  diverged : ¬RecordVerifies recorded ledger
  unforced : args.force = false
  reported : ∃ report, message = doesNotVerify args report.ledgerLen ∧ report.ledgerOk = false
    ∧ ReportOnRecord report ledger after

end Starts

attribute [local instance] shortLibraries canonicalReader

section Restart

private def workshop : Args where
  stateDir := "state"
  nodeId := "n1"
  autoEnrollNode := true
  force := false

/-- What a start finds in the morning, the ledger with these events. -/
private def morning (events : List LedgerEvent) : Surroundings where
  masterKeyRefused := none
  ledgerDir := Std.ExtTreeMap.insert ∅ (segmentFile 0) (segmentBytes events)
  bindRefused := none
  deviceKey := .ok (.repeated 7)
  openedMs := 10
  enrolledMs := 11
  bootedMs := 12

private theorem morning_reads {events : List LedgerEvent} (few : events.length ≤ segmentEvents)
    : readLedger (morning events) = .ok ⟨⟨events⟩, false⟩ :=
  readLedger_of_stores canonicalReader_lawful (stores_segment few) rfl

/-- A boot that lost power between its event and the record of the head. -/
private def interrupted : Machine :=
  Machine.fresh.run [.open "state" "n1" false 0 [],
    .call (.boot 1) [.none, .none, .none, .crash]]

/-- A node comes up again after it lost power in its first boot. -/
theorem node_comes_up_again_interrupted
    : ∃ report after,
        start workshop (morning interrupted.world.disk.ledger) interrupted []
          = (.done report, after)
        ∧ CameUp workshop (morning interrupted.world.disk.ledger) interrupted report after := by
  let found := morning interrupted.world.disk.ledger
  have reachable : Reachable interrupted := ⟨_, rfl⟩
  have short : interrupted.world.disk.ledger.length = 1 := by decide +kernel
  have read : readLedger found = .ok ⟨⟨interrupted.world.disk.ledger⟩, false⟩ :=
    morning_reads (by rw [short]; decide)
  have recorded : HoldsRecord found interrupted := fun ledger also => by
    cases read.symm.trans also
    rfl
  have readable : interrupted.world.disk.archRefused = none := by decide +kernel
  have vacant : interrupted.world.disk.devices[nodeDevice "n1"]? = none := by decide +kernel
  obtain ⟨serves, came⟩ := node_comes_up_again workshop found reachable (by decide +kernel)
    (by rw [short]; decide) recorded
  have startable : Startable workshop found interrupted :=
    ⟨⟨_, read⟩, StateDir.archRefused_eq_none.mp readable, rfl,
      fun _ => ⟨.repeated 7, rfl, fun row stored => nomatch vacant.symm.trans stored⟩⟩
  obtain ⟨report, after, served⟩ := serves.mpr startable
  exact ⟨report, after, served, came report after served⟩

/-- A node that was booted once. -/
private def booted : Machine :=
  Machine.fresh.run [.open "state" "n1" false 0 [], .call (.boot 1) [], .close]

end Restart

end VerticalAI.Correctness
