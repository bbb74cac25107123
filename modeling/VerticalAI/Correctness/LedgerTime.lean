import VerticalAI.Contracts.StampOrder
import VerticalAI.Kernel.ApprovalHistory
import VerticalAI.Kernel.LoggingTimes
import VerticalAI.Kernel.Rebuild

/-! The stamps on the ledger over whole runs: they increase as long as no process goes on logging
behind what the one before it logged.
-/

namespace VerticalAI.Correctness
open VerticalAI.Foundation VerticalAI.Contracts VerticalAI.Kernel

/-- How many storage operations fail. -/
def failing (faults : List Fault) : Nat := faults.countP (· ≠ .none)

theorem failing_suffix {rest faults : List Fault} (left : rest <:+ faults)
    : failing rest ≤ failing faults :=
  left.sublist.countP_le

theorem failing_cons (fault : Fault) (rest : List Fault) (fails : fault ≠ .none)
    : failing (fault :: rest) = failing rest + 1 :=
  List.countP_cons_of_pos (decide_eq_true fails)

section Times

variable [Libraries]

/-- Logging reads the clock and puts its stamp on the ledger, unless a storage operation failed. -/
theorem log_times (kind : String) (wallMs : UInt64) (payload : Json) (world : World)
    (faults : List Fault)
    : let after := (log kind wallMs payload world faults).2.1
      let rest := (log kind wallMs payload world faults).2.2
      after.kernel.clock = (world.kernel.clock.now wallMs).2
        ∧ ((∃ event, event.hlc = (world.kernel.clock.now wallMs).1
              ∧ after.disk.ledger = world.disk.ledger ++ [event] ∧ failing rest ≤ failing faults)
          ∨ after.disk.ledger = world.disk.ledger ∧ failing rest + 1 ≤ failing faults) := by
  intro after rest
  have met : failing rest ≤ failing faults := failing_suffix (log_emits.met world faults).left
  have stored {left : List Fault}
      (appended : save (.appendEvent (world.logEvent kind wallMs payload)) (world.clocked wallMs) faults
        = (.done (), world.appended kind wallMs payload, left))
      : after.kernel.clock = (world.kernel.clock.now wallMs).2
        ∧ after.disk.ledger = world.disk.ledger ++ [world.logEvent kind wallMs payload] := by
    have ran := log_run kind wallMs payload world faults
    rw [Program.bind_done appended] at ran
    change (log kind wallMs payload world faults).2.1.kernel.clock = _
      ∧ (log kind wallMs payload world faults).2.1.disk.ledger = _
    rw [ran]
    split
    · exact ⟨rfl, rfl⟩
    · rcases Program.persist_cases (fun _ => KernelError.store "record the ledger head")
        (Update.setHead (Store.LedgerHead.of (world.logEvent kind wallMs payload)))
        (world.appended kind wallMs payload) left with
        ⟨_, headed⟩ | ⟨reason, _, headed⟩ | ⟨_, headed⟩
      all_goals
        rw [headed]
        exact ⟨rfl, rfl⟩
  cases faults with
  | nil => exact (stored rfl).imp_right fun grown => Or.inl ⟨_, rfl, grown, met⟩
  | cons fault faults =>
      cases fault with
      | none => exact (stored rfl).imp_right fun grown => Or.inl ⟨_, rfl, grown, met⟩
      | fail reason => exact ⟨rfl, Or.inr ⟨rfl, (failing_cons (.fail reason) faults nofun).ge⟩⟩
      | crash => exact ⟨rfl, Or.inr ⟨rfl, (failing_cons .crash faults nofun).ge⟩⟩

/-- The stamps on the ledger, in order. -/
def ledgerStamps (world : World) : List Hlc := world.disk.ledger.map (·.hlc)

/-- The clock is ahead of the last stamp on the ledger. -/
def ClockAhead (world : World) (wallMs : UInt64) : Prop :=
  ∀ last ∈ (ledgerStamps world).getLast?, world.kernel.clock.AheadOf wallMs last

omit [Libraries] in
/-- A stamp after the last one comes after all. -/
theorem increasing_concat {stamps : List Hlc} {stamp : Hlc}
    (increasing : stamps.Pairwise Hlc.Precedes)
    (later : ∀ last ∈ stamps.getLast?, last.Precedes stamp)
    : (stamps ++ [stamp]).Pairwise Hlc.Precedes := by
  rw [List.pairwise_append]
  refine ⟨increasing, List.pairwise_singleton _ _, fun earlier member other same => ?_⟩
  obtain rfl := List.mem_singleton.mp same
  rcases List.eq_nil_or_concat' stamps with rfl | ⟨before, last, rfl⟩
  · exact absurd member List.not_mem_nil
  · have passed := later last (by simp)
    rcases List.mem_append.mp member with before' | last'
    · obtain ⟨-, -, below⟩ := List.pairwise_append.mp increasing
      exact (below earlier before' last (List.mem_singleton_self last)).trans passed
    · obtain rfl := List.mem_singleton.mp last'
      exact passed

/-- The counter is at most the events on the ledger and the failures so far. With a clock that
started ahead of the ledger the stamps increase, and it still is ahead.
-/
structure Stamped (slack : Nat) (wallMs : UInt64) (started : Prop) (world : World)
    (faults : List Fault) : Prop where
  counter : world.kernel.clock.last.counter.toNat + failing faults ≤ world.disk.ledger.length + slack
  order : started → (ledgerStamps world).Pairwise Hlc.Precedes ∧ ClockAhead world wallMs

/-- What logging keeps, while events and failures are few. -/
theorem log_stamped {slack : Nat} {wallMs : UInt64} {started : Prop} {world : World}
    {faults : List Fault}
    (kind : String) (payload : Json)
    (few : (log kind wallMs payload world faults).2.1.disk.ledger.length + slack < 2 ^ 32)
    (stamped : Stamped slack wallMs started world faults)
    : Stamped slack wallMs started (log kind wallMs payload world faults).2.1
        (log kind wallMs payload world faults).2.2 := by
  obtain ⟨counted, order⟩ := stamped
  have raised := world.kernel.clock.now_counter wallMs
  obtain ⟨clock, ⟨event, given, ledger, met⟩ | ⟨ledger, met⟩⟩ :=
    log_times kind wallMs payload world faults
  · have grown : (log kind wallMs payload world faults).2.1.disk.ledger.length
        = world.disk.ledger.length + 1 := by rw [ledger, List.length_append, List.length_singleton]
    refine ⟨?_, fun start => ?_⟩
    · rw [clock]
      omega
    · obtain ⟨increasing, ahead⟩ := order start
      have stamps : ledgerStamps (log kind wallMs payload world faults).2.1
          = ledgerStamps world ++ [(world.kernel.clock.now wallMs).1] := by
        rw [ledgerStamps, ledger, List.map_append, List.map_singleton, given, ledgerStamps]
      rw [ClockAhead, stamps, clock]
      refine ⟨increasing_concat increasing fun last member => ?_, fun last member => ?_⟩
      · exact HlcClock.now_follows (by omega) (ahead last member)
      · rw [List.getLast?_concat] at member
        obtain rfl := Option.some.inj member
        exact HlcClock.aheadOf_now
  · refine ⟨?_, fun start => ?_⟩
    · rw [clock, ledger]
      omega
    · obtain ⟨increasing, ahead⟩ := order start
      have stamps : ledgerStamps (log kind wallMs payload world faults).2.1 = ledgerStamps world := by
        rw [ledgerStamps, ledger, ledgerStamps]
      rw [ClockAhead, stamps, clock]
      refine ⟨increasing, fun last member => ?_⟩
      rw [ledger] at few
      exact Or.inl (HlcClock.now_follows (by omega) (ahead last member)).asymm

omit [Libraries] in
/-- What leaves the record alone keeps as much. -/
theorem stamped_of_same {slack : Nat} {wallMs : UInt64} {started : Prop} {world last : World}
    {faults rest : List Fault} (same : world.Same last .record) (left : rest <:+ faults)
    (stamped : Stamped slack wallMs started world faults)
    : Stamped slack wallMs started last rest := by
  obtain ⟨-, ledger, -, clock⟩ := same
  obtain ⟨counted, order⟩ := stamped
  have fewer := failing_suffix left
  refine ⟨?_, ?_⟩
  · rw [clock, ledger]
    omega
  · rw [ClockAhead, ledgerStamps, ledger, clock]
    exact order

/-- What a call keeps, while events and failures are few. -/
theorem invoke_stamped {slack : Nat} {started : Prop} (call : Call) {world : World}
    {faults : List Fault}
    (few : (invoke call world faults).2.1.disk.ledger.length + slack < 2 ^ 32)
    (stamped : Stamped slack call.wallMs started world faults)
    : Stamped slack call.wallMs started (invoke call world faults).2.1
        (invoke call world faults).2.2 := by
  let Good (world : World) (faults : List Fault) : Prop :=
    world.disk.ledger.length + slack < 2 ^ 32 → Stamped slack call.wallMs started world faults
  have kept (α : Type) (program : Syscall α) (part : LogPart call.wallMs α program) (world : World)
      (faults : List Fault) (good : Good world faults)
      : Good (program world faults).2.1 (program world faults).2.2 := by
    intro few
    cases part with
    | quiet emits elsewhere =>
        have same := same_of_trail (emits.trail world faults) .record elsewhere
        exact stamped_of_same same (emits.met world faults).left (good (same.2.1 ▸ few))
    | log kind payload =>
        refine log_stamped kind payload few (good ?_)
        obtain ⟨-, ⟨event, -, ledger, -⟩ | ⟨ledger, -⟩⟩ :=
          log_times kind call.wallMs payload world faults
        · rw [ledger, List.length_append] at few
          omega
        · rwa [ledger] at few
  have good : Good (invoke call world faults).2.1 (invoke call world faults).2.2 :=
    (invoke_logs call).keeps kept fun _ => stamped
  exact good few

/-- A call does not shorten the ledger. -/
theorem invoke_ledger_length (call : Call) (world : World) (faults : List Fault)
    : world.disk.ledger.length ≤ (invoke call world faults).2.1.disk.ledger.length := by
  let Kept (later : World) : Prop := world.disk.ledger.length ≤ later.disk.ledger.length
  have kept : Kept (invoke call world faults).2.1 := by
    refine ((invoke_emits call).trail world faults).preserves ?_ le_rfl
    intro later update longer _
    change _ ≤ (Updates.apply update later : World).disk.ledger.length
    have grown : later.disk.ledger.length ≤ (Updates.apply update later : World).disk.ledger.length := by
      cases update with
      | appendEvent event =>
          change _ ≤ (later.disk.ledger ++ [event]).length
          rw [List.length_append]
          omega
      | _ => exact le_rfl
    exact Nat.le_trans longer grown
  exact kept

/-- An event is a call that a node answers, or leaves the ledger as it is and the counter no
higher.
-/
theorem step_clock (machine : Machine) (event : Event)
    : (∃ call faults, event = .call call faults ∧ machine.up = true
        ∧ (machine.step event).world = (invoke call machine.world faults).2.1)
      ∨ (machine.step event).world.disk.ledger = machine.world.disk.ledger
        ∧ (machine.step event).world.kernel.clock.last.counter.toNat
          ≤ machine.world.kernel.clock.last.counter.toNat := by
  cases event with
  | call call faults =>
      cases up : machine.up with
      | false =>
          rw [Machine.step_call_down up]
          exact Or.inr ⟨rfl, le_rfl⟩
      | true => exact Or.inl ⟨call, faults, rfl, rfl, Machine.step_call_world up call faults⟩
  | close => exact Or.inr ⟨rfl, le_rfl⟩
  | «open» stateDir nodeId recoveredPartialLine nowMs faults =>
      right
      cases up : machine.up with
      | true =>
          simp only [Machine.step, up, if_true, le_refl, and_self]
      | false =>
          rcases Machine.step_open up stateDir nodeId recoveredPartialLine nowMs faults with
            ⟨-, opened, -⟩ | ⟨-, swept⟩
          · rw [opened]
            exact ⟨rfl, Nat.zero_le _⟩
          · have trail : Trail (Within [.leases]) machine.world
                (machine.step (.open stateDir nodeId recoveredPartialLine nowMs faults)).world := by
              refine swept.mono ?_
              rintro _ _ ⟨key, -, rfl⟩
              exact ⟨.head _, trivial⟩
            obtain ⟨-, ledger, -, clock⟩ := same_of_trail trail .record (by decide)
            exact ⟨ledger, clock ▸ le_rfl⟩

omit [Libraries] in
/-- How many storage operations failed during the calls of a run. -/
def storageFailures (events : List Event) : Nat :=
  (events.map fun | .call _ faults => failing faults | _ => 0).sum

omit [Libraries] in
theorem storageFailures_concat (events : List Event) (event : Event)
    : storageFailures (events ++ [event])
      = storageFailures events + match event with | .call _ faults => failing faults | _ => 0 := by
  rw [storageFailures, List.map_append, List.sum_append, List.map_singleton, List.sum_singleton]
  rfl

/-- Every call that puts something on the ledger is made while the clock of its process is ahead
of the last stamp there.
-/
def LogsAhead (events : List Event) : Prop :=
  ∀ before call faults after, events = before ++ .call call faults :: after
    → (nodeAfter (before ++ [.call call faults])).world.disk.ledger
      ≠ (nodeAfter before).world.disk.ledger
    → ClockAhead (nodeAfter before).world call.wallMs

theorem LogsAhead.init {events : List Event} {event : Event} (ahead : LogsAhead (events ++ [event]))
    : LogsAhead events := by
  rintro before call faults after rfl
  exact ahead before call faults (after ++ [event]) (by simp)

/-- The stamps increase, and the counter is at most the events and failures so far, by induction
on the run.
-/
theorem nodeAfter_stamped (events : List Event) (ahead : LogsAhead events)
    (few : (nodeAfter events).world.disk.ledger.length + storageFailures events < 2 ^ 32)
    : (nodeAfter events).world.kernel.clock.last.counter.toNat
        ≤ (nodeAfter events).world.disk.ledger.length + storageFailures events
      ∧ (ledgerStamps (nodeAfter events).world).Pairwise Hlc.Precedes := by
  induction events using List.reverseRecOn with
  | nil => exact ⟨Nat.zero_le _, List.Pairwise.nil⟩
  | append_singleton events event ih =>
      have now := ahead events
      rw [storageFailures_concat] at few ⊢
      rw [nodeAfter_concat] at few ⊢
      rcases step_clock (nodeAfter events) event with
        ⟨call, faults, rfl, up, stepped⟩ | ⟨ledger, clock⟩
      · rw [stepped] at few ⊢
        have longer := invoke_ledger_length call (nodeAfter events).world faults
        dsimp only at few ⊢
        obtain ⟨counter, increasing⟩ := ih ahead.init (by omega)
        have start : Stamped (storageFailures events + failing faults) call.wallMs
            (ClockAhead (nodeAfter events).world call.wallMs) (nodeAfter events).world faults :=
          ⟨by omega, fun ahead => ⟨increasing, ahead⟩⟩
        obtain ⟨counted, order⟩ := invoke_stamped call few start
        refine ⟨by omega, ?_⟩
        by_cases same : (invoke call (nodeAfter events).world faults).2.1.disk.ledger
            = (nodeAfter events).world.disk.ledger
        · rwa [ledgerStamps, same]
        · refine (order (now call faults [] rfl ?_)).1
          rwa [nodeAfter_concat, stepped]
      · rw [ledger] at few ⊢
        obtain ⟨counter, increasing⟩ := ih ahead.init (by omega)
        exact ⟨by omega, by rwa [ledgerStamps, ledger]⟩

/-- In every run whose logging calls find the clock of their process ahead of the ledger, with fewer
than 2^32 events and storage failures: the stamps on the ledger strictly increase.
-/
theorem ledger_stamps_increase (events : List Event) (ahead : LogsAhead events)
    (few : (nodeAfter events).world.disk.ledger.length + storageFailures events < 2 ^ 32)
    : (ledgerStamps (nodeAfter events).world).Pairwise Hlc.Precedes :=
  (nodeAfter_stamped events ahead few).2

end Times

attribute [local instance] shortLibraries

section Run

/-- A node that is booted, reopened and booted again, at these wall times. -/
private def rebooted (first second : UInt64) : List Event :=
  [.open "state" "n1" false 0 [], .call (.boot first) [], .close, .open "state" "n1" false 0 [],
    .call (.boot second) []]

private theorem rebooted_first
    : ledgerStamps (nodeAfter ((rebooted 100 150).take 4)).world = [⟨100, 0, "n1"⟩] := rfl

private theorem rebooted_later
    : ledgerStamps (nodeAfter (rebooted 100 150)).world = [⟨100, 0, "n1"⟩, ⟨150, 0, "n1"⟩] := rfl

private theorem rebooted_earlier
    : ledgerStamps (nodeAfter (rebooted 100 50)).world = [⟨100, 0, "n1"⟩, ⟨50, 0, "n1"⟩] := rfl

/-- With a later wall time the stamps increase over the reopening. -/
theorem rebooted_stamps_increase
    : (ledgerStamps (nodeAfter (rebooted 100 150)).world).Pairwise Hlc.Precedes := by
  have length : (nodeAfter (rebooted 100 150)).world.disk.ledger.length = 2 := by
    simpa [ledgerStamps] using congrArg List.length rebooted_later
  refine ledger_stamps_increase (rebooted 100 150) ?_ (by rw [length]; decide)
  intro before call faults after same _
  match before with
  | [] => cases same
  | [_] =>
      cases same
      exact fun last none => nomatch none
  | [_, _] => cases same
  | [_, _, _] => cases same
  | [_, _, _, _] =>
      cases same
      intro last member
      change last ∈ (ledgerStamps (nodeAfter ((rebooted 100 150).take 4)).world).getLast? at member
      rw [rebooted_first] at member
      cases member
      exact Or.inr (Or.inl (Or.inl (by decide)))
  | _ :: _ :: _ :: _ :: _ :: rest => simp [rebooted] at same

/-- With an earlier one they go back. -/
theorem rebooted_stamps_go_back
    : ∃ events, storageFailures events = 0 ∧ (nodeAfter events).world.disk.ledger.length < 2 ^ 32
        ∧ ¬(ledgerStamps (nodeAfter events).world).Pairwise Hlc.Precedes := by
  have length : (nodeAfter (rebooted 100 50)).world.disk.ledger.length = 2 := by
    simpa [ledgerStamps] using congrArg List.length rebooted_earlier
  refine ⟨rebooted 100 50, rfl, by rw [length]; decide, ?_⟩
  rw [rebooted_earlier]
  intro increasing
  have first : Hlc.Precedes ⟨100, 0, "n1"⟩ ⟨50, 0, "n1"⟩ := by simpa using increasing
  exact first.asymm (Or.inl (Or.inl (by decide)))

end Run

end VerticalAI.Correctness
