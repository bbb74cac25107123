import VerticalAI.Kernel.LoggingTimes
import VerticalAI.Kernel.Rebuild
import VerticalAI.Kernel.RecordEffects

/-! The record a node writes always holds: its chain verifies and still reaches the recorded head,
in every state a run leaves, whatever failed on the way.
-/

namespace VerticalAI.Kernel
open VerticalAI.Foundation VerticalAI.Contracts VerticalAI.Store

variable [Libraries]

/-- The ledger on disk verifies, and contains the recorded head as long as its events can be
numbered.
-/
structure RecordHolds (disk : StateDir) : Prop where
  linked : ledgerChain.Linked genesisHash disk.ledger
  headed : disk.ledger.length ≤ 2 ^ 64
    → ∀ head, disk.head = some head → Contains head disk.ledger

/-- And the process works on that ledger. -/
structure RecordInUse (world : World) : Prop where
  holds : RecordHolds world.disk
  chain : world.kernel.chain.events = world.disk.ledger
  intact : world.disk.ledger.length ≤ 2 ^ 64 → world.kernel.ledgerHead.isDiverged = false

/-- A record that holds is no diverged one. -/
theorem RecordHolds.intact {disk : StateDir} (holds : RecordHolds disk)
    (numbered : disk.ledger.length ≤ 2 ^ 64)
    : (headVerdict disk.head disk.ledger).isDiverged = false := by
  cases recorded : disk.head with
  | none => rfl
  | some head =>
      rw [Bool.eq_false_iff, ne_eq, isDiverged_headVerdict, not_not]
      exact holds.headed numbered head recorded

/-- A process that works on such a record reports that it holds. -/
theorem RecordInUse.ledgerHolds {world : World} (inUse : RecordInUse world)
    (numbered : world.disk.ledger.length ≤ 2 ^ 64)
    : world.kernel.ledgerHolds = true := by
  have linked : world.kernel.chain.verifyChain = true := by
    rw [Ledger.verifyChain_iff, inUse.chain]
    exact inUse.holds.linked
  rw [RealKernel.ledgerHolds, linked, inUse.intact numbered]
  rfl

theorem RecordHolds.empty : RecordHolds {} where
  linked := trivial
  headed _ _ recorded := by cases recorded

omit [Libraries] in
/-- No update changes the verdict the store was opened with, by cases on the update. -/
theorem ledgerHead_of_trail {allowed : World → Update → Prop} {first last : World}
    (trail : Trail allowed first last)
    : last.kernel.ledgerHead = first.kernel.ledgerHead := by
  let Kept (world : World) : Prop := world.kernel.ledgerHead = first.kernel.ledgerHead
  have kept : Kept last := by
    refine trail.preserves (fun world update same _ => ?_) rfl
    cases update <;> exact same
  exact kept

/-- What leaves the record alone leaves it in use. -/
theorem RecordInUse.quiet {first last : World} {areas : List Area} (inUse : RecordInUse first)
    (trail : Trail (Within areas) first last) (elsewhere : Area.record ∉ areas)
    : RecordInUse last := by
  obtain ⟨head, ledger, chain, -⟩ := same_of_trail trail .record elsewhere
  have verdict := ledgerHead_of_trail trail
  obtain ⟨⟨linked, headed⟩, same, intact⟩ := inUse
  refine ⟨⟨?_, ?_⟩, ?_, ?_⟩
  · rwa [ledger]
  · rwa [ledger, head]
  · rw [chain, ledger, same]
  · rwa [ledger, verdict]

/-- The next event links to the chain in use. -/
theorem RecordInUse.appended {world : World} (inUse : RecordInUse world) (kind : String)
    (wallMs : UInt64) (payload : Json)
    : RecordInUse (world.appended kind wallMs payload) := by
  have ledger : (world.appended kind wallMs payload).disk.ledger
      = world.disk.ledger ++ [world.logEvent kind wallMs payload] := rfl
  have fewer (numbered : (world.appended kind wallMs payload).disk.ledger.length ≤ 2 ^ 64)
      : world.disk.ledger.length ≤ 2 ^ 64 := by
    rw [ledger, List.length_append, List.length_singleton] at numbered
    exact Nat.le_of_succ_le numbered
  have chain : ledgerChain.Linked genesisHash world.kernel.chain.events :=
    inUse.chain ▸ inUse.holds.linked
  obtain ⟨names, carries⟩ := world.kernel.chain.nextEvent_linked
    { kind, retention := .operational90d, wallMs, clockQuality := .synced
      hlc := (world.kernel.clock.now wallMs).1
      causalHeads := [], payloadHash := hashCanonical payload }
  refine ⟨⟨?_, ?_⟩, ?_, ?_⟩
  · rw [ledger, ← inUse.chain]
    exact HashChain.linked_concat.mpr ⟨chain, names, carries⟩
  · intro numbered head recorded
    exact (inUse.holds.headed (fewer numbered) head recorded).append _
  · rw [ledger, ← inUse.chain]
    rfl
  · intro numbered
    exact inUse.intact (fewer numbered)

/-- The event that logging appends stands at its own number. -/
theorem RecordInUse.contains {world : World} (inUse : RecordInUse world) (kind : String)
    (wallMs : UInt64) (payload : Json)
    (numbered : (world.appended kind wallMs payload).disk.ledger.length ≤ 2 ^ 64)
    : Contains (LedgerHead.of (world.logEvent kind wallMs payload))
        (world.appended kind wallMs payload).disk.ledger := by
  have ledger : (world.appended kind wallMs payload).disk.ledger
      = world.disk.ledger ++ [world.logEvent kind wallMs payload] := rfl
  rw [ledger, List.length_append, List.length_singleton] at numbered
  refine ⟨world.logEvent kind wallMs payload, ?_, rfl⟩
  have place : (LedgerHead.of (world.logEvent kind wallMs payload)).seq.toNat
      = world.disk.ledger.length := by
    change (UInt64.ofNat world.kernel.chain.events.length).toNat = _
    rw [inUse.chain, UInt64.toNat_ofNat']
    exact Nat.mod_eq_of_lt numbered
  rw [ledger, place, List.getElem?_concat_length]

/-- Logging keeps the record in use, wherever it ends. -/
theorem RecordInUse.log {world : World} (inUse : RecordInUse world) (kind : String)
    (wallMs : UInt64) (payload : Json) (faults : List Fault)
    : RecordInUse (log kind wallMs payload world faults).2.1 := by
  have appended := inUse.appended kind wallMs payload
  rcases log_cases kind wallMs payload world faults with
    ⟨rest, whole⟩ | ⟨outcome, rest, cut, -⟩ | ⟨outcome, rest, cut, -⟩
  · rw [whole, World.logged]
    split
    · exact appended
    · refine ⟨⟨appended.holds.linked, fun numbered head recorded => ?_⟩, appended.chain,
        appended.intact⟩
      obtain rfl := Option.some.inj recorded
      exact inUse.contains kind wallMs payload numbered
  · rw [cut]
    exact ⟨⟨inUse.holds.linked, inUse.holds.headed⟩, inUse.chain, inUse.intact⟩
  · rw [cut]
    exact appended

/-- A call keeps the record in use, at every point where power may be lost. -/
theorem RecordInUse.invoke {world : World} (inUse : RecordInUse world) (call : Call)
    (faults : List Fault)
    : RecordInUse (invoke call world faults).2.1 := by
  let Good (world : World) (_ : List Fault) : Prop := RecordInUse world
  have kept : Good (Kernel.invoke call world faults).2.1 (Kernel.invoke call world faults).2.2 := by
    refine Program.Composed.keeps (invoke_logs call) ?_ inUse
    intro α program part world faults good
    cases part with
    | quiet emits elsewhere => exact RecordInUse.quiet good (emits.trail world faults) elsewhere
    | log kind payload => exact RecordInUse.log good kind _ payload faults
  exact kept

/-- The record of a node holds, and a process that is up works on it. -/
structure Recorded (machine : Machine) : Prop where
  holds : RecordHolds machine.world.disk
  inUse : machine.up = true → RecordInUse machine.world

/-- Sweeping leases leaves the record alone. -/
theorem RecordHolds.swept {first last : World} (holds : RecordHolds first.disk)
    (trail : Trail (Within [.leases]) first last)
    : RecordHolds last.disk := by
  obtain ⟨head, ledger, -⟩ := same_of_trail trail .record (by decide)
  refine ⟨?_, ?_⟩
  · rw [ledger]
    exact holds.linked
  · rw [ledger, head]
    exact holds.headed

/-- Every event keeps it, by cases on the event. -/
theorem Recorded.step {machine : Machine} (recorded : Recorded machine) (event : Event)
    : Recorded (machine.step event) := by
  cases event with
  | call call faults =>
      cases up : machine.up with
      | false =>
          rw [Machine.step_call_down up]
          exact recorded
      | true =>
          have left := (recorded.inUse up).invoke call faults
          rw [← Machine.step_call_world up] at left
          exact ⟨left.holds, fun _ => left⟩
  | close => exact ⟨recorded.holds, nofun⟩
  | «open» stateDir nodeId recoveredPartialLine nowMs faults =>
      cases up : machine.up with
      | true =>
          simp only [Machine.step, up, if_true]
          exact recorded
      | false =>
          rcases Machine.step_open up stateDir nodeId recoveredPartialLine nowMs faults with
            ⟨-, opened, -⟩ | ⟨down, swept⟩
          · have holds : RecordHolds machine.world.disk := recorded.holds
            refine ⟨?_, fun _ => ?_⟩
            · rw [opened]
              exact ⟨holds.linked, holds.headed⟩
            · rw [opened]
              exact ⟨⟨holds.linked, holds.headed⟩, rfl, holds.intact⟩
          · have trail : Trail (Within [.leases]) machine.world
                (machine.step (.open stateDir nodeId recoveredPartialLine nowMs faults)).world := by
              refine swept.mono ?_
              rintro _ _ ⟨key, -, rfl⟩
              exact ⟨.head _, trivial⟩
            exact ⟨recorded.holds.swept trail, fun up => by rw [down] at up; cases up⟩

theorem Reachable.recorded {machine : Machine} (reachable : Reachable machine)
    : Recorded machine :=
  reachable.invariant ⟨RecordHolds.empty, nofun⟩ fun _ event recorded => recorded.step event

end VerticalAI.Kernel
