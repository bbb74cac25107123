import VerticalAI.Kernel.Processes
import VerticalAI.Kernel.VerifiedRecord

/-! The lock makes processes take turns: whatever they do on one state directory, some run of a
single node does the same and answers the same.
-/

namespace VerticalAI.Correctness
open VerticalAI.Foundation VerticalAI.Contracts VerticalAI.Store VerticalAI.Kernel

-----------------------------------------------------------------------------------------
-- What opening looks at
-----------------------------------------------------------------------------------------

/-- The worlds differ in no more than what their processes hold. -/
structure SameShared (first second : World) : Prop where
  disk : first.disk = second.disk
  sent : first.sent = second.sent
  draws : first.draws = second.draws

theorem load_indifferent {α : Type} {look : StateDir → α}
    : (load look).Indifferent SameShared :=
  Program.indifferent_fetch fun _ _ same => congrArg look same.disk

theorem SameShared.deleteLease {first second : World} (same : SameShared first second)
    (key : String)
    : SameShared (Updates.apply (Update.deleteLease key) first)
        (Updates.apply (Update.deleteLease key) second) :=
  ⟨congrArg (fun disk : StateDir => { disk with leases := disk.leases.erase key }) same.disk,
    same.sent, same.draws⟩

/-- Sweeping looks at no process, by induction on the keys. -/
theorem deleteLeases_indifferent (keys : List String)
    : (deleteLeases keys).Indifferent SameShared := by
  induction keys with
  | nil => exact Program.indifferent_pure ()
  | cons key rest ih =>
      refine Program.Indifferent.bind ?_ fun _ => ih
      exact Program.indifferent_persist fun _ _ same => same.deleteLease key

/-- Nothing of an earlier process is read when a store is opened. -/
theorem open_indifferent [Libraries] {stateDir nodeId : String} {recoveredPartialLine : Bool}
    {nowMs : UInt64}
    : (RealKernel.open stateDir nodeId recoveredPartialLine nowMs).Indifferent SameShared := by
  unfold RealKernel.open
  refine load_indifferent.bind fun chain => ?_
  refine load_indifferent.bind fun recorded => ?_
  refine load_indifferent.bind fun shredded => ?_
  refine load_indifferent.bind fun stops => ?_
  refine load_indifferent.bind fun resumes => ?_
  refine load_indifferent.bind fun devices => ?_
  refine load_indifferent.bind fun read => ?_
  refine (Program.indifferent_lift read).bind fun arches => ?_
  refine load_indifferent.bind fun fences => ?_
  refine load_indifferent.bind fun leases => ?_
  refine (deleteLeases_indifferent _).bind fun _ => ?_
  exact load_indifferent.bind fun _ => Program.indifferent_pure _

-----------------------------------------------------------------------------------------
-- Turns
-----------------------------------------------------------------------------------------

/-- What an action amounts to for a node that has the state directory to itself; nothing when the
process has no open store, or is refused one.
-/
def Host.event (host : Host) : Action → Option Event
  | .launch _ stateDir nodeId recoveredPartialLine nowMs refusals faults =>
      match Store.prepare host.lock.isSome stateDir refusals with
      | .ok () => some (.open stateDir nodeId recoveredPartialLine nowMs faults)
      | .error _ => none
  | .call process call faults =>
      if host.stores.contains process then some (.call call faults) else none
  | .exit process => if host.stores.contains process then some .close else none
  | .powerLoss => some .close

def Host.events [Libraries] (host : Host) (actions : List Action) : List Event :=
  match actions with
  | [] => []
  | action :: rest => (Host.event host action).toList ++ Host.events (host.step action) rest

/-- The events of a longer run end with those of its last action, by induction on the run. -/
theorem events_concat [Libraries] (host : Host) (actions : List Action) (action : Action)
    : Host.events host (actions ++ [action])
      = Host.events host actions ++ (Host.event (host.run actions) action).toList := by
  induction actions generalizing host with
  | nil => simp [Host.events, Host.run]
  | cons first rest ih => simp [Host.events, Host.run, ih]

/-- The host is the node: they share a state directory, and at most one process has a store open,
the one that holds the lock and the node's kernel.
-/
structure Serial (host : Host) (node : Machine) : Prop where
  disk : host.disk = node.world.disk
  sent : host.sent = node.world.sent
  draws : host.draws = node.world.draws
  up : node.up = host.lock.isSome
  holder : ∀ process,
    host.lock = some process → host.stores[process]? = some node.world.kernel
  sole : ∀ process kernel,
    host.stores[process]? = some kernel → host.lock = some process

namespace Serial

variable {host : Host} {node : Machine} {process : String}

theorem fresh : Serial {} Machine.fresh where
  disk := rfl
  sent := rfl
  draws := rfl
  up := rfl
  holder process held := absurd held.symm (Option.some_ne_none process)
  sole := by
    intro process kernel held
    rw [Std.ExtTreeMap.getElem?_empty] at held
    cases held

/-- The world of the holder is the node's. -/
theorem world_eq (serial : Serial host node) {kernel : RealKernel}
    (stored : host.stores[process]? = some kernel)
    : host.world kernel = node.world := by
  have same : some node.world.kernel = some kernel :=
    (serial.holder process (serial.sole process kernel stored)).symm.trans stored
  obtain rfl := Option.some.inj same
  simp only [Host.world, serial.disk, serial.sent, serial.draws]

theorem up_of_stored (serial : Serial host node) {kernel : RealKernel}
    (stored : host.stores[process]? = some kernel)
    : node.up = true := by
  rw [serial.up, serial.sole process kernel stored]
  rfl

/-- Once the holder is gone nobody has a store open. -/
theorem sole_erase (serial : Serial host node) {kernel found : RealKernel} {other : String}
    (stored : host.stores[process]? = some kernel)
    : (host.stores.erase process)[other]? ≠ some found := by
  intro held
  have kept := Table.getElem?_erase_inv held
  have holders := (serial.sole other found kept).symm.trans (serial.sole process kernel stored)
  obtain rfl := Option.some.inj holders
  rw [Std.ExtTreeMap.getElem?_erase_self] at held
  cases held

/-- The holder's end is the node's. -/
theorem drop (serial : Serial host node) {kernel : RealKernel}
    (stored : host.stores[process]? = some kernel) (world : World)
    : Serial ((host.leave world).drop process) { world, up := false } where
  disk := rfl
  sent := rfl
  draws := rfl
  up := by simp [Host.drop, Host.leave, serial.sole process kernel stored]
  holder := by simp [Host.drop, Host.leave, serial.sole process kernel stored]
  sole _ _ held := absurd held (serial.sole_erase stored)

/-- The end of a process without an open store is nobody's. -/
theorem bystander (serial : Serial host node) (absent : host.stores[process]? = none)
    : Serial (host.drop process) node := by
  have unheld : host.lock ≠ some process := by
    intro holds
    rw [serial.holder process holds] at absent
    cases absent
  refine ⟨serial.disk, serial.sent, serial.draws, ?_, ?_, ?_⟩
  · simp only [Host.drop, if_neg unheld, serial.up]
  · intro other holds
    simp only [Host.drop, if_neg unheld] at holds
    have different : other ≠ process := fun same => unheld (same ▸ holds)
    exact (Table.getElem?_erase_other different).trans (serial.holder other holds)
  · intro other kernel held
    simp only [Host.drop, if_neg unheld]
    exact serial.sole other kernel (Table.getElem?_erase_inv held)

/-- A call that returned leaves the holder with the node's kernel. -/
theorem keep (serial : Serial host node) {kernel : RealKernel}
    (stored : host.stores[process]? = some kernel) (world : World)
    : Serial { host.leave world with stores := host.stores.insert process world.kernel }
        { world, up := true } where
  disk := rfl
  sent := rfl
  draws := rfl
  up := by simp [Host.leave, serial.sole process kernel stored]
  holder := by
    intro other holds
    have locked := serial.sole process kernel stored
    obtain rfl := Option.some.inj (locked.symm.trans holds)
    exact Std.ExtTreeMap.getElem?_insert_self
  sole := by
    intro other found held
    rcases Table.getElem?_insert_inv held with ⟨rfl, -⟩ | earlier
    · exact serial.sole other kernel stored
    · exact serial.sole other found earlier

variable [Libraries]

/-- A call by the holder is the node's call. -/
theorem call (serial : Serial host node) (process : String) (call : Call)
    (faults : List Fault)
    : Serial (host.step (.call process call faults))
        (node.run (Host.event host (.call process call faults)).toList) := by
  simp only [Host.step, Host.perform, Host.call, Host.event, Std.ExtTreeMap.contains_eq_isSome_getElem?]
  cases stored : host.stores[process]? with
  | none => exact serial
  | some kernel =>
      simp only [Option.isSome_some, if_true, Option.toList_some, Machine.run,
        List.foldl_cons, List.foldl_nil, Machine.step, serial.up_of_stored stored,
        Bool.not_true, Bool.false_eq_true, if_false, serial.world_eq stored]
      rcases invoke call node.world faults with ⟨_ | _ | _, world, rest⟩
      · exact serial.keep stored world
      · exact serial.keep stored world
      · exact serial.drop stored world

/-- A launch that gets the lock is the node's opening; the others change nothing. -/
theorem launch (serial : Serial host node) (process stateDir nodeId : String)
    (recoveredPartialLine : Bool) (nowMs : UInt64) (refusals : Refusals) (faults : List Fault)
    : let action : Action :=
        .launch process stateDir nodeId recoveredPartialLine nowMs refusals faults
      Serial (host.step action) (node.run (Host.event host action).toList) := by
  simp only [Host.step, Host.perform, Host.launch, Host.event]
  cases prepared : Store.prepare host.lock.isSome stateDir refusals with
  | error message => exact serial
  | ok _ =>
      have unlocked : host.lock = none := by
        cases locked : host.lock with
        | none => rfl
        | some holder =>
            rw [locked] at prepared
            exact absurd prepared prepare_held
      have nobody : ∀ (other : String) (kernel : RealKernel),
          host.stores[other]? ≠ some kernel := by
        intro other kernel held
        rw [serial.sole other kernel held] at unlocked
        cases unlocked
      have shared : SameShared (host.world Host.noKernel) node.world :=
        ⟨serial.disk, serial.sent, serial.draws⟩
      have down : node.up = false := by rw [serial.up, unlocked]; rfl
      have indifferent : (RealKernel.open stateDir nodeId recoveredPartialLine
          nowMs).Indifferent SameShared := open_indifferent
      obtain ⟨outcomes, worlds, -⟩ :=
        indifferent (host.world Host.noKernel) node.world faults shared
      simp only [Option.toList_some, Machine.run, List.foldl_cons, List.foldl_nil,
        Machine.step, down, Bool.false_eq_true, if_false]
      rcases ran : RealKernel.open stateDir nodeId recoveredPartialLine nowMs
        (host.world Host.noKernel) faults with ⟨outcome, world, rest⟩
      rcases also : RealKernel.open stateDir nodeId recoveredPartialLine nowMs node.world
        faults with ⟨other, left, remaining⟩
      rw [ran, also] at outcomes worlds
      obtain rfl : outcome = other := outcomes
      obtain ⟨disk, sent, draws⟩ := worlds
      cases outcome with
      | done kernel =>
          refine ⟨disk, sent, draws, rfl, ?_, ?_⟩
          · intro holder holds
            obtain rfl : process = holder := Option.some.inj holds
            exact Std.ExtTreeMap.getElem?_insert_self
          · intro holder found held
            rcases Table.getElem?_insert_inv held with ⟨rfl, -⟩ | earlier
            · rfl
            · exact absurd earlier (nobody holder found)
      | failed error =>
          refine ⟨disk, sent, draws, ?_, ?_, fun holder found held =>
            absurd held (nobody holder found)⟩
          · simp [Host.leave, unlocked]
          · simp [Host.leave, unlocked]
      | crashed =>
          refine ⟨disk, sent, draws, ?_, ?_, fun holder found held =>
            absurd held (nobody holder found)⟩
          · simp [Host.leave, unlocked]
          · simp [Host.leave, unlocked]

/-- An action of any process is a turn of the node, by cases on the action. -/
theorem step (serial : Serial host node) (action : Action)
    : Serial (host.step action) (node.run (Host.event host action).toList) := by
  cases action with
  | launch process stateDir nodeId recoveredPartialLine nowMs refusals faults =>
      exact serial.launch process stateDir nodeId recoveredPartialLine nowMs refusals faults
  | call process call faults => exact serial.call process call faults
  | exit process =>
      simp only [Host.step, Host.perform, Host.event, Std.ExtTreeMap.contains_eq_isSome_getElem?]
      cases stored : host.stores[process]? with
      | none => exact serial.bystander stored
      | some kernel =>
          have dropped := serial.drop stored node.world
          have left : host.leave node.world = host := by
            simp only [Host.leave, ← serial.disk, ← serial.sent, ← serial.draws]
          rwa [left] at dropped
  | powerLoss =>
      refine ⟨serial.disk, serial.sent, serial.draws, rfl, fun process held => ?_,
        fun process kernel held => ?_⟩
      · exact absurd held.symm (Option.some_ne_none process)
      · change (∅ : Table RealKernel)[process]? = some kernel at held
        rw [Std.ExtTreeMap.getElem?_empty] at held
        cases held

/-- Processes take turns, by induction on what they do. -/
theorem run (actions : List Action)
    : Serial (Host.run {} actions) (Machine.fresh.run (Host.events {} actions)) := by
  induction actions using List.reverseRecOn with
  | nil => exact Serial.fresh
  | append_singleton actions action ih =>
      rw [Host.run_concat, events_concat, Machine.run_append]
      exact ih.step action

/-- A process with an open store is told what the node answers. -/
theorem answers (serial : Serial host node) {kernel : RealKernel}
    (stored : host.stores[process]? = some kernel) (call : Call) (faults : List Fault)
    : ∃ outcome, node.answer call faults = some outcome
        ∧ (host.perform (.call process call faults)).1 = .replied outcome := by
  refine ⟨_, Machine.answer_up (serial.up_of_stored stored) call faults, ?_⟩
  simp only [Host.perform, Host.call, stored, serial.world_eq stored]
  rcases invoke call node.world faults with ⟨_ | _ | _, _, _⟩ <;> rfl

end Serial

-----------------------------------------------------------------------------------------
-- Every run
-----------------------------------------------------------------------------------------

section Runs

variable [Libraries]

/-- A launch while somebody holds the lock is refused, and changes nothing. -/
theorem launch_locked {host : Host} (locked : host.lock.isSome = true)
    (process stateDir nodeId : String) (recoveredPartialLine : Bool) (nowMs : UInt64)
    (refusals : Refusals) (faults : List Fault)
    : ∃ message,
        host.perform
            (.launch process stateDir nodeId recoveredPartialLine nowMs refusals faults)
          = (.refused message, host) := by
  simp only [Host.perform, Host.launch, locked]
  cases prepared : Store.prepare true stateDir refusals with
  | error message => exact ⟨message, rfl⟩
  | ok _ => exact absurd prepared prepare_held

/-- Whatever processes do on one state directory, in any order and wherever they die: one node that
has the directory to itself could have done it, at most one process at a time has the store open,
that process is answered as the node answers, and everybody else's launch is refused and changes
nothing.
-/
theorem processes_take_turns (actions : List Action)
    : ∃ events, let host := Host.run {} actions
        let node := Machine.fresh.run events
        Serial host node
        ∧ (∀ (process : String) (kernel : RealKernel), host.stores[process]? = some kernel →
            (∀ (other : String) (found : RealKernel),
                host.stores[other]? = some found → other = process)
              ∧ (∀ call faults, ∃ outcome, node.answer call faults = some outcome
                  ∧ (host.perform (.call process call faults)).1 = .replied outcome)
              ∧ ∀ other stateDir nodeId recovered nowMs refusals faults, ∃ message,
                  host.perform (.launch other stateDir nodeId recovered nowMs refusals faults)
                    = (.refused message, host)) := by
  have serial := Serial.run actions
  refine ⟨Host.events {} actions, serial, fun process kernel stored => ⟨?_, ?_, ?_⟩⟩
  · intro other found also
    exact Option.some.inj
      ((serial.sole other found also).symm.trans (serial.sole process kernel stored))
  · exact serial.answers stored
  · intro other stateDir nodeId recovered nowMs refusals faults
    have locked : (Host.run {} actions).lock.isSome = true := by
      rw [serial.sole process kernel stored]
      rfl
    exact launch_locked locked other stateDir nodeId recovered nowMs refusals faults

/-- Whatever processes do on one state directory, with any failing storage and wherever they die:
the ledger on disk verifies and contains the recorded head, and the process with an open store says
so, as long as the events can be numbered.
-/
theorem shared_record_holds (actions : List Action)
    (numbered : (Host.run {} actions).disk.ledger.length ≤ 2 ^ 64)
    : let host := Host.run {} actions
      (Ledger.mk host.disk.ledger).verifyChain = true
        ∧ (headVerdict host.disk.head host.disk.ledger).isDiverged = false
        ∧ ∀ (process : String) (kernel : RealKernel), host.stores[process]? = some kernel →
            kernel.chain.events = host.disk.ledger ∧ kernel.ledgerHolds = true := by
  have serial := Serial.run actions
  have reachable : Reachable (Machine.fresh.run (Host.events {} actions)) := ⟨_, rfl⟩
  obtain ⟨holds, inUse⟩ := reachable.recorded
  rw [← serial.disk] at holds
  refine ⟨Ledger.verifyChain_iff.mpr holds.linked, holds.intact numbered, ?_⟩
  intro process kernel stored
  have working := inUse (serial.up_of_stored stored)
  rw [← serial.world_eq stored] at working
  exact ⟨working.chain, working.ledgerHolds numbered⟩

end Runs

attribute [local instance] shortLibraries

section Run

/-- A daemon is started twice; the second process gets the store once the first is gone. -/
private def startedTwice : List Action :=
  [.launch "first" "state" "n1" false 0 {} [], .launch "second" "state" "n1" false 0 {} [],
    .call "first" (.boot 10) [], .exit "first", .launch "second" "state" "n1" false 20 {} [],
    .call "second" (.boot 30) []]

/-- Both boots are on one record, which holds. -/
theorem shared_record_holds_twice
    : (Host.run {} startedTwice).disk.ledger.length = 2
      ∧ (Ledger.mk (Host.run {} startedTwice).disk.ledger).verifyChain = true := by
  have two : (Host.run {} startedTwice).disk.ledger.length = 2 := rfl
  exact ⟨two, (shared_record_holds startedTwice (by rw [two]; decide)).1⟩

end Run

end VerticalAI.Correctness
