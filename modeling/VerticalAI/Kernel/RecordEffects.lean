import VerticalAI.Kernel.Footprint

/-! What logging does to the state, however it ends: the event is on the record or nothing is. -/

namespace VerticalAI.Kernel
open VerticalAI.Foundation VerticalAI.Contracts VerticalAI.Store

/-- A stored update happens, is refused or meets a crash. -/
theorem save_cases (update : Update) (world : World) (faults : List Fault)
    : (∃ rest, save update world faults = (.done (), Updates.apply update world, rest))
      ∨ (∃ reason rest, save update world faults = (.failed (.store reason), world, rest))
      ∨ ∃ rest, save update world faults = (.crashed, world, rest) :=
  Program.persist_cases KernelError.store update world faults

/-- A stored update that returned has happened. -/
theorem save_done {update : Update} {world after : World} {faults rest : List Fault}
    (ran : save update world faults = (.done (), after, rest))
    : after = Updates.apply update world := by
  rcases save_cases update world faults with
    ⟨left, saved⟩ | ⟨reason, left, saved⟩ | ⟨left, saved⟩
  all_goals
    rw [saved] at ran
    cases ran
  rfl

variable [Libraries]

/-- The event that logging would append next. -/
def World.logEvent (world : World) (kind : String) (wallMs : UInt64) (payload : Json)
    : LedgerEvent :=
  world.kernel.chain.nextEvent
    { kind, retention := .operational90d, wallMs, clockQuality := .synced
      hlc := (world.kernel.clock.now wallMs).1
      causalHeads := [], payloadHash := hashCanonical payload }

omit [Libraries] in
/-- The state after the clock was read. -/
def World.clocked (world : World) (wallMs : UInt64) : World :=
  Updates.apply (Update.setClock (world.kernel.clock.now wallMs).2) world

/-- The state with the event on the record, and not yet as its head. -/
def World.appended (world : World) (kind : String) (wallMs : UInt64) (payload : Json) : World :=
  Updates.apply (Update.appendEvent (world.logEvent kind wallMs payload)) (world.clocked wallMs)

/-- The state after logging. -/
def World.logged (world : World) (kind : String) (wallMs : UInt64) (payload : Json) : World :=
  if world.kernel.ledgerHead.isDiverged then world.appended kind wallMs payload
  else
    Updates.apply (Update.setHead (LedgerHead.of (world.logEvent kind wallMs payload)))
      (world.appended kind wallMs payload)

/-- Logging reads the clock, stores the event and then the head. -/
theorem log_run (kind : String) (wallMs : UInt64) (payload : Json) (world : World)
    (faults : List Fault)
    : log kind wallMs payload world faults
      = (save (.appendEvent (world.logEvent kind wallMs payload)) >>= fun _ =>
          if world.kernel.ledgerHead.isDiverged then Pure.pure ()
          else Program.persist (fun _ => KernelError.store "record the ledger head")
            (.setHead (LedgerHead.of (world.logEvent kind wallMs payload))))
        (world.clocked wallMs) faults := rfl

/-- Logging ends whole, before the event or between the event and the head. -/
theorem log_cases (kind : String) (wallMs : UInt64) (payload : Json) (world : World)
    (faults : List Fault)
    : (∃ rest,
        log kind wallMs payload world faults = (.done (), world.logged kind wallMs payload, rest))
      ∨ (∃ outcome rest,
          log kind wallMs payload world faults = (outcome, world.clocked wallMs, rest)
            ∧ outcome ≠ .done ())
      ∨ ∃ outcome rest,
          log kind wallMs payload world faults
            = (outcome, world.appended kind wallMs payload, rest)
            ∧ outcome ≠ .done () := by
  rw [log_run]
  rcases save_cases (.appendEvent (world.logEvent kind wallMs payload)) (world.clocked wallMs)
    faults with ⟨rest, saved⟩ | ⟨reason, rest, saved⟩ | ⟨rest, saved⟩
  · rw [Program.bind_done saved, World.logged]
    cases world.kernel.ledgerHead.isDiverged with
    | true => exact Or.inl ⟨rest, rfl⟩
    | false =>
        rcases Program.persist_cases (fun _ => KernelError.store "record the ledger head")
          (Update.setHead (LedgerHead.of (world.logEvent kind wallMs payload)))
          (world.appended kind wallMs payload) rest with
          ⟨rest, headed⟩ | ⟨reason, rest, headed⟩ | ⟨rest, headed⟩
        · exact Or.inl ⟨rest, headed⟩
        · exact Or.inr (Or.inr ⟨_, rest, headed, nofun⟩)
        · exact Or.inr (Or.inr ⟨_, rest, headed, nofun⟩)
  · rw [Program.bind_failed saved]
    exact Or.inr (Or.inl ⟨_, rest, rfl, nofun⟩)
  · rw [Program.bind_crashed saved]
    exact Or.inr (Or.inl ⟨_, rest, rfl, nofun⟩)

/-- Logging that returned left the event on the record. -/
theorem log_done {kind : String} {wallMs : UInt64} {payload : Json} {world after : World}
    {faults rest : List Fault}
    (ran : log kind wallMs payload world faults = (.done (), after, rest))
    : after = world.logged kind wallMs payload := by
  rcases log_cases kind wallMs payload world faults with
    ⟨left, whole⟩ | ⟨outcome, left, cut, failed⟩ | ⟨outcome, left, cut, failed⟩
  · rw [whole] at ran
    cases ran
    rfl
  · rw [cut] at ran
    cases ran
    exact absurd rfl failed
  · rw [cut] at ran
    cases ran
    exact absurd rfl failed

/-- With working storage the event is logged. -/
theorem log_working (kind : String) (wallMs : UInt64) (payload : Json) (world : World)
    : log kind wallMs payload world [] = (.done (), world.logged kind wallMs payload, []) := by
  rw [log_run, World.logged]
  cases diverged : world.kernel.ledgerHead.isDiverged <;> rfl

/-- What is logged is the event, at the end of the record. -/
theorem logged_ledger (kind : String) (wallMs : UInt64) (payload : Json) (world : World)
    : (world.logged kind wallMs payload).disk.ledger
      = world.disk.ledger ++ [world.logEvent kind wallMs payload] := by
  unfold World.logged
  split <;> rfl

/-- Whatever logging put on the record is that event. -/
theorem log_gains (kind : String) (wallMs : UInt64) (payload : Json) (world : World)
    (faults : List Fault)
    : ∀ entry ∈ (log kind wallMs payload world faults).2.1.disk.ledger,
        entry ∉ world.disk.ledger
        → entry.kind = kind ∧ entry.payloadHash = hashCanonical payload := by
  intro entry member new
  have last (grown : entry ∈ world.disk.ledger ++ [world.logEvent kind wallMs payload])
      : entry.kind = kind ∧ entry.payloadHash = hashCanonical payload := by
    obtain rfl := List.mem_singleton.mp ((List.mem_append.mp grown).resolve_left new)
    exact ⟨rfl, rfl⟩
  rcases log_cases kind wallMs payload world faults with
    ⟨left, whole⟩ | ⟨outcome, left, cut, -⟩ | ⟨outcome, left, cut, -⟩
  · rw [whole, logged_ledger] at member
    exact last member
  · rw [cut] at member
    exact absurd member new
  · rw [cut] at member
    exact last member

/-- An event of this kind with this payload is on the record. -/
def Logged (disk : StateDir) (kind : String) (payload : Json) : Prop :=
  ∃ event ∈ disk.ledger, event.kind = kind ∧ event.payloadHash = hashCanonical payload

/-- What is on the record stays there, by cases on the update. -/
theorem Logged.apply {world : World} {kind : String} {payload : Json}
    (logged : Logged world.disk kind payload) (update : Update)
    : Logged (Updates.apply update world : World).disk kind payload := by
  obtain ⟨event, member, named⟩ := logged
  cases update with
  | appendEvent appended => exact ⟨event, List.mem_append_left _ member, named⟩
  | _ => exact ⟨event, member, named⟩

theorem Logged.trail {allowed : World → Update → Prop} {first last : World} {kind : String}
    {payload : Json} (logged : Logged first.disk kind payload) (trail : Trail allowed first last)
    : Logged last.disk kind payload := by
  let Kept (world : World) : Prop := Logged world.disk kind payload
  have kept : Kept last :=
    trail.preserves (fun _ update holds _ => Logged.apply holds update) logged
  exact kept

/-- Whatever a program does, what was on the record is there when it returns. -/
theorem Logged.kept {α : Type} {program : Syscall α} {allowed : World → Update → Prop}
    {kind : String} {payload : Json} (emits : program.Emits allowed)
    : program.Satisfies (fun world => Logged world.disk kind payload) allowed
        (fun _ world => Logged world.disk kind payload) (fun _ _ => True) :=
  (emits.keeps fun _ update logged _ => logged.apply update).consequence (fun _ holds => holds)
    (fun _ _ admitted => admitted) (fun _ _ holds => holds) (fun _ _ _ => trivial)

theorem logged_logged (kind : String) (wallMs : UInt64) (payload : Json) (world : World)
    : Logged (world.logged kind wallMs payload).disk kind payload := by
  refine ⟨world.logEvent kind wallMs payload, ?_, rfl, rfl⟩
  rw [logged_ledger]
  exact List.mem_append_right _ (List.mem_singleton_self _)

/-- Logging puts the event on the record, and keeps what the record's updates keep. -/
theorem log_records {kind : String} {wallMs : UInt64} {payload : Json} {invariant : World → Prop}
    {allowed : World → Update → Prop}
    (stable : ∀ world update, invariant world → update.area = .record
      → invariant (Updates.apply update world))
    (admits : ∀ world update, Within [.record] world update → allowed world update)
    : (log kind wallMs payload).Satisfies invariant allowed
        (fun _ world => invariant world ∧ Logged world.disk kind payload)
        (fun _ => invariant) := by
  have kept : (log kind wallMs payload).Satisfies invariant (Within [.record])
      (fun _ => invariant) (fun _ => invariant) :=
    log_emits.keeps fun world update holds within =>
      stable world update holds (List.mem_singleton.mp within.1)
  intro world faults holds
  obtain ⟨trail, meets, met⟩ := kept world faults holds
  refine ⟨trail.mono admits, ?_, met⟩
  rcases log_cases kind wallMs payload world faults with
    ⟨rest, ran⟩ | ⟨outcome, rest, ran, failed⟩ | ⟨outcome, rest, ran, failed⟩
  · rw [ran] at meets ⊢
    exact ⟨meets, logged_logged kind wallMs payload world⟩
  · rw [ran] at meets ⊢
    cases outcome with
    | done _ => exact absurd rfl failed
    | failed _ => exact meets
    | crashed => trivial
  · rw [ran] at meets ⊢
    cases outcome with
    | done _ => exact absurd rfl failed
    | failed _ => exact meets
    | crashed => trivial

/-- Nothing happens to a durable operation. -/
def Undisturbed (fault : Option Fault) : Prop := fault = none ∨ fault = some .none

/-- A call's durable operation with this index fails, and none before it was disturbed. -/
def FailsAt (faults : List Fault) (index : Nat) : Prop :=
  (∀ earlier < index, Undisturbed faults[earlier]?) ∧ ∃ reason, faults[index]? = some (.fail reason)

omit [Libraries] in
theorem FailsAt.after {faults : List Fault} {index : Nat} (first : Undisturbed faults[0]?)
    (fails : FailsAt faults.tail index)
    : FailsAt faults (index + 1) := by
  obtain ⟨earlier, refused⟩ := fails
  rw [List.getElem?_tail] at refused
  refine ⟨fun other below => ?_, refused⟩
  cases other with
  | zero => exact first
  | succ other =>
      have undisturbed := earlier other (Nat.lt_of_succ_lt_succ below)
      rwa [List.getElem?_tail] at undisturbed

omit [Libraries] in
/-- A stored update happens, or it fails or loses power and changes nothing. -/
theorem save_settles (update : Update) (world : World) (faults : List Fault)
    : Undisturbed faults[0]?
        ∧ save update world faults = (.done (), Updates.apply update world, faults.tail)
      ∨ ∃ outcome left, save update world faults = (outcome, world, left)
        ∧ (outcome = .crashed ∨ ∃ error, outcome = .failed error ∧ FailsAt faults 0) := by
  rcases faults with _ | ⟨_ | reason | _, rest⟩
  · exact Or.inl ⟨Or.inl rfl, rfl⟩
  · exact Or.inl ⟨Or.inr rfl, rfl⟩
  · exact Or.inr ⟨_, rest, rfl, Or.inr ⟨_, rfl, nofun, reason, rfl⟩⟩
  · exact Or.inr ⟨_, rest, rfl, Or.inl rfl⟩

/-- The faults that logging meets leave the event stored, and refuse no head. -/
def SparesRecord (diverged : Bool) (faults : List Fault) : Prop :=
  Undisturbed faults[0]? ∧ (diverged = true ∨ ∀ reason, faults[1]? ≠ some (.fail reason))

/-- Logging that is spared puts the event on the record, and reports no error. -/
theorem log_spared {kind : String} {wallMs : UInt64} {payload : Json} {world : World}
    {faults : List Fault} (spared : SparesRecord world.kernel.ledgerHead.isDiverged faults)
    : (∀ error, (log kind wallMs payload world faults).1 ≠ .failed error)
      ∧ Logged (log kind wallMs payload world faults).2.1.disk kind payload := by
  obtain ⟨stored, headed⟩ := spared
  have event : Logged (world.appended kind wallMs payload).disk kind payload :=
    ⟨world.logEvent kind wallMs payload, List.mem_append_right _ (List.mem_singleton_self _),
      rfl, rfl⟩
  have appended : ∃ rest, save (.appendEvent (world.logEvent kind wallMs payload))
        (world.clocked wallMs) faults = (.done (), world.appended kind wallMs payload, rest)
      ∧ rest = faults.tail := by
    rcases faults with _ | ⟨fault, rest⟩
    · exact ⟨[], rfl, rfl⟩
    · rcases stored with none | works
      · cases none
      · obtain rfl := Option.some.inj works
        exact ⟨rest, rfl, rfl⟩
  obtain ⟨rest, ran, rfl⟩ := appended
  rw [log_run, Program.bind_done ran]
  split
  · exact ⟨nofun, event⟩
  · next converged =>
      have refused := headed.resolve_left converged
      rcases faults with _ | ⟨first, _ | ⟨_ | reason | _, more⟩⟩
      · exact ⟨nofun, event.apply _⟩
      · exact ⟨nofun, event.apply _⟩
      · exact ⟨nofun, event.apply _⟩
      · exact absurd rfl (refused reason)
      · exact ⟨nofun, event⟩

end VerticalAI.Kernel
