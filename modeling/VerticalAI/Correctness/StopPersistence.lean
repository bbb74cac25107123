import VerticalAI.Kernel.ApprovalHistory
import VerticalAI.Kernel.Numbering

/-! A STOP holds until it is resumed, and a RESUME that is refused lifts nothing: over every run
of calls, failed writes, crashes and reopenings.
-/

namespace VerticalAI.Correctness
open VerticalAI.Foundation VerticalAI.Contracts VerticalAI.Kernel

-----------------------------------------------------------------------------------------
-- Live STOPs
-----------------------------------------------------------------------------------------

/-- The STOP is on file for its scope and no RESUME on file cites it. -/
def Live (disk : StateDir) (id scope : String) : Prop :=
  (∃ event, disk.stops[id]? = some event ∧ event.scope = scope)
    ∧ ∀ (key : String) (resume : ResumeEvent), disk.resumes[key]? = some resume
        → resume.cites ≠ id

/-- The scopes a node that is up shows as stopped. -/
def stoppedScopes (machine : Machine) : List String :=
  machine.world.kernel.stops.stoppedScopes

/-- A live STOP shows while the node is up. -/
theorem Live.shown {machine : Machine} {id scope : String}
    (live : Live machine.world.disk id scope) (invariant : StopInvariant machine)
    (up : machine.up = true)
    : scope ∈ stoppedScopes machine := by
  obtain ⟨⟨event, held, named⟩, unresumed⟩ := live
  obtain ⟨filed, -⟩ := invariant.tables.stop id event held
  rw [stoppedScopes, StopSet.mem_stoppedScopes, StopSet.stopped_iff]
  have memory : machine.world.kernel.stops = _ := invariant.memory up
  refine ⟨id, event, ?_, named, ?_⟩
  · rw [memory]
    exact held
  · rw [Bool.eq_false_iff, ne_eq, StopSet.resumed_iff, memory]
    rintro ⟨key, resume, found, cites⟩
    exact unresumed key resume found (cites.trans filed)

theorem Live.congr {disk after : StateDir} {id scope : String} (live : Live disk id scope)
    (stops : after.stops = disk.stops) (resumes : after.resumes = disk.resumes)
    : Live after id scope := by
  unfold Live
  rw [stops, resumes]
  exact live

/-- The ids that STOPs and RESUMEs are filed under were used up. -/
structure StopsMinted (disk : StateDir) : Prop where
  stop : ∀ (key : String) (event : StopEvent), disk.stops[key]? = some event → disk.Minted key
  resume : ∀ (key : String) (event : ResumeEvent), disk.resumes[key]? = some event
    → disk.Minted key

theorem StopsMinted.congr {disk after : StateDir} (minted : StopsMinted disk)
    (stops : after.stops = disk.stops) (resumes : after.resumes = disk.resumes)
    (grown : disk.numbered ≤ after.numbered)
    : StopsMinted after :=
  ⟨fun key event held => (minted.stop key event (stops ▸ held)).mono grown,
    fun key event held => (minted.resume key event (resumes ▸ held)).mono grown⟩

section Persistence

variable [Libraries]

/-- This event is a RESUME that cites the STOP and wrote its row. -/
def Resumes (machine : Machine) (event : Event) (stopId : String) : Prop :=
  ∃ (ctx : Ctx) (faults : List Fault) (resume : ResumeEvent),
    event = .call (.resume ctx stopId) faults
    ∧ resume.cites = stopId
    ∧ machine.world.disk.resumes[resume.id]? = none
    ∧ (machine.step event).world.disk.resumes[resume.id]? = some resume

/-- A STOP that took hold under a new id is live. -/
theorem live_of_stopped {ctx : Ctx} {scope : String} {world after : World}
    {outcome : Outcome KernelError String} {event : StopEvent}
    (stopped : Stopped ctx scope world outcome after event) (tables : StopTables world.disk)
    (minted : StopsMinted world.disk) (new : NewId world.disk after.disk event.id)
    : Live after.disk event.id scope := by
  have record := stopped.record
  simp only [World.stopRecord, Prod.mk.injEq] at record
  obtain ⟨stops, resumes, -⟩ := record
  refine ⟨⟨event, ?_, stopped.named⟩, ?_⟩
  · rw [stops, Std.ExtTreeMap.getElem?_insert_self]
  · intro key resume found cites
    rw [resumes] at found
    obtain ⟨-, -, known⟩ := tables.resume key resume found
    -- a RESUME on file cites a STOP on file, whose id is older than the new one
    rw [cites, Std.ExtTreeMap.contains_iff_mem, Std.ExtTreeMap.mem_iff_isSome_getElem?,
      Option.isSome_iff_exists] at known
    obtain ⟨earlier, held⟩ := known
    exact new.ne (minted.stop event.id earlier held) rfl

-----------------------------------------------------------------------------------------
-- Steps and runs
-----------------------------------------------------------------------------------------

/-- A STOP stays live under another STOP. -/
theorem Live.stopped {ctx : Ctx} {id scope other : String} {world after : World}
    {outcome : Outcome KernelError String} {event : StopEvent} (live : Live world.disk id scope)
    (stopped : Stopped ctx other world outcome after event) (minted : StopsMinted world.disk)
    (new : NewId world.disk after.disk event.id)
    : Live after.disk id scope := by
  have record := stopped.record
  simp only [World.stopRecord, Prod.mk.injEq] at record
  obtain ⟨stops, resumes, -⟩ := record
  obtain ⟨⟨held, found, named⟩, unresumed⟩ := live
  refine ⟨⟨held, ?_, named⟩, resumes ▸ unresumed⟩
  rw [stops, Table.getElem?_insert_ne (new.ne (minted.stop id held found))]
  exact found

/-- A STOP stays live under a RESUME that cites another. -/
theorem Live.lifted {id scope other : String} {world after : World}
    {outcome : Outcome KernelError Unit} {event : ResumeEvent}
    (live : Live world.disk id scope) (lifted : Lifted other world outcome after event)
    (different : other ≠ id)
    : Live after.disk id scope := by
  have record := lifted.record
  simp only [World.stopRecord, Prod.mk.injEq] at record
  obtain ⟨stops, resumes, -⟩ := record
  refine ⟨stops ▸ live.1, ?_⟩
  intro key resume found
  rw [resumes] at found
  by_cases same : key = event.id
  · subst same
    rw [Std.ExtTreeMap.getElem?_insert_self] at found
    obtain rfl := Option.some.inj found
    exact fun cites => different (lifted.cites.symm.trans cites)
  · rw [Table.getElem?_insert_ne same] at found
    exact live.2 key resume found

/-- The STOP record of a node that drew so many numbers at most. -/
structure Tracked (machine : Machine) (count : Nat) : Prop where
  record : StopInvariant machine
  minted : StopsMinted machine.world.disk
  numbering : Numbering machine count

omit [Libraries] in
theorem tracked_fresh : Tracked .fresh 0 := ⟨stopInvariant_fresh, ⟨nofun, nofun⟩, numbering_fresh⟩

/-- Every event keeps the ids of the record minted, by cases on what a call does to it. -/
theorem Tracked.step {machine : Machine} {count : Nat} (tracked : Tracked machine count)
    (event : Event) (few : count + event.draws < 2 ^ 64)
    : Tracked (machine.step event) (count + event.draws) := by
  obtain ⟨numbering, grown⟩ := tracked.numbering.step event few
  refine ⟨tracked.record.step event, ?_, numbering⟩
  have minted := tracked.minted
  rcases machine.step_cases event with ⟨call, faults, rfl, up, stepped⟩ | ⟨last, trail, stepped⟩
  · have supply := tracked.numbering.supply up few
    rw [stepped] at grown ⊢
    cases invoke_change call machine.world faults with
    | quiet same =>
        exact minted.congr (congrArg Prod.fst same) (congrArg (fun record => record.2.1) same) grown
    | stopped stopped =>
        have new := stopped.newId supply
        have record := stopped.record
        simp only [World.stopRecord, Prod.mk.injEq] at record
        refine ⟨fun key other held => ?_, fun key other held => ?_⟩
        · rw [record.1] at held
          rcases Table.getElem?_insert_inv held with ⟨rfl, -⟩ | before
          · exact new.minted
          · exact (minted.stop key other before).mono grown
        · exact (minted.resume key other (record.2.1 ▸ held)).mono grown
    | lifted lifted =>
        have new := lifted.newId supply
        have record := lifted.record
        simp only [World.stopRecord, Prod.mk.injEq] at record
        refine ⟨fun key other held => ?_, fun key other held => ?_⟩
        · exact (minted.stop key other (record.1 ▸ held)).mono grown
        · rw [record.2.1] at held
          rcases Table.getElem?_insert_inv held with ⟨rfl, -⟩ | before
          · exact new.minted
          · exact (minted.resume key other before).mono grown
  · rw [stepped] at grown ⊢
    obtain ⟨stops, resumes, -⟩ := same_of_trail trail .stops (by decide)
    exact minted.congr stops resumes grown

theorem Tracked.run {machine : Machine} {count : Nat} (tracked : Tracked machine count)
    (events : List Event) (few : count + drawn events < 2 ^ 64)
    : Tracked (machine.run events) (count + drawn events) := by
  induction events generalizing machine count with
  | nil => exact tracked
  | cons event rest ih =>
      rw [drawn_cons, ← Nat.add_assoc] at few ⊢
      exact ih (tracked.step event (by omega)) few

/-- One event leaves a STOP live or resumes it, by cases on the event. -/
theorem Live.step {machine : Machine} {id scope : String} {count : Nat}
    (live : Live machine.world.disk id scope) (tracked : Tracked machine count) (event : Event)
    (few : count + event.draws < 2 ^ 64)
    : Live (machine.step event).world.disk id scope ∨ Resumes machine event id := by
  cases event with
  | call call faults =>
      cases up : machine.up with
      | false =>
          rw [Machine.step_call_down up]
          exact Or.inl live
      | true =>
          have supply := tracked.numbering.supply up few
          have change := invoke_change call machine.world faults
          rw [← Machine.step_call_world up] at change
          cases change with
          | quiet same =>
              exact Or.inl (live.congr (congrArg Prod.fst same)
                (congrArg (fun record => record.2.1) same))
          | stopped stopped =>
              exact Or.inl (live.stopped stopped tracked.minted (stopped.newId supply))
          | @lifted ctx stopId resume _ lifted =>
              by_cases same : stopId = id
              · subst same
                have record := lifted.record
                simp only [World.stopRecord, Prod.mk.injEq] at record
                refine Or.inr ⟨ctx, faults, resume, rfl, lifted.cites, ?_, ?_⟩
                · cases found : machine.world.disk.resumes[resume.id]? with
                  | none => rfl
                  | some earlier =>
                      have used := tracked.minted.resume _ earlier found
                      exact absurd rfl ((lifted.newId supply).ne used)
                · rw [record.2.1, Std.ExtTreeMap.getElem?_insert_self]
              · exact Or.inl (live.lifted lifted same)
  | close => exact Or.inl live
  | «open» stateDir nodeId recoveredPartialLine nowMs faults =>
      obtain ⟨stops, resumes⟩ :=
        step_open_tables machine stateDir nodeId recoveredPartialLine nowMs faults
      exact Or.inl (live.congr stops resumes)

/-- Over a run a STOP stays live until some event of the run resumes it, by induction on the
run.
-/
theorem Live.run {machine : Machine} {id scope : String} {count : Nat}
    (live : Live machine.world.disk id scope) (tracked : Tracked machine count)
    (events : List Event) (few : count + drawn events < 2 ^ 64)
    : Live (machine.run events).world.disk id scope
      ∨ ∃ before event after,
          events = before ++ event :: after ∧ Resumes (machine.run before) event id := by
  induction events generalizing machine count with
  | nil => exact Or.inl live
  | cons event rest ih =>
      rw [drawn_cons, ← Nat.add_assoc] at few
      have room : count + event.draws < 2 ^ 64 := by omega
      rcases live.step tracked event room with still | resumes
      · rcases ih still (tracked.step event room) few with
          last | ⟨before, later, after, rfl, resumes⟩
        · exact Or.inl last
        · exact Or.inr ⟨event :: before, later, after, rfl, resumes⟩
      · exact Or.inr ⟨[], event, rest, rfl, resumes⟩

-----------------------------------------------------------------------------------------
-- What callers see
-----------------------------------------------------------------------------------------

/-- A STOP that returned its id is live. -/
theorem live_of_answer {machine : Machine} {count : Nat} (tracked : Tracked machine count)
    (few : count + 1 < 2 ^ 64) {ctx : Ctx} {scope id : String} {faults : List Fault}
    (answered : machine.answer (.stop ctx scope) faults = some (.done (.text id)))
    : Live (machine.step (.call (.stop ctx scope) faults)).world.disk id scope := by
  obtain ⟨up, -⟩ := Machine.step_call_up answered nofun
  rw [Machine.answer_up up] at answered
  have supply := tracked.numbering.supply up few
  have change := invoke_change (.stop ctx scope) machine.world faults
  rw [← Machine.step_call_world up, Option.some.inj answered] at change
  cases change with
  | quiet _ noStop => exact absurd rfl (noStop ctx scope rfl _)
  | @stopped _ _ event result stopped answer =>
      cases result with
      | failed error => cases answer
      | crashed => cases answer
      | done value =>
          cases answer
          obtain rfl := stopped.value id rfl
          exact live_of_stopped stopped tracked.record.tables tracked.minted (stopped.newId supply)

/-- A RESUME that did not return leaves the record as it is. -/
theorem record_of_refused {machine : Machine} {ctx : Ctx} {stopId : String}
    {faults : List Fault} {outcome : Outcome KernelError Reply}
    (answered : machine.answer (.resume ctx stopId) faults = some outcome)
    (refused : outcome ≠ .done .unit)
    : (machine.step (.call (.resume ctx stopId) faults)).world.stopRecord
      = machine.world.stopRecord := by
  cases up : machine.up with
  | false =>
      rw [Machine.answer, up] at answered
      cases answered
  | true =>
      rw [Machine.answer_up up] at answered
      have change := invoke_change (.resume ctx stopId) machine.world faults
      rw [← Machine.step_call_world up, Option.some.inj answered] at change
      cases change with
      | quiet same => exact same
      | lifted lifted answer =>
          rw [lifted.returned] at answer
          exact absurd answer refused

omit [Libraries] in
/-- Two nodes that are up and have the same tables show the same scopes. -/
theorem stoppedScopes_congr {machine other : Machine} (invariant : StopInvariant machine)
    (otherInvariant : StopInvariant other) (up : machine.up = true) (otherUp : other.up = true)
    (stops : other.world.disk.stops = machine.world.disk.stops)
    (resumes : other.world.disk.resumes = machine.world.disk.resumes)
    : stoppedScopes other = stoppedScopes machine := by
  have memory : machine.world.kernel.stops = _ := invariant.memory up
  have otherMemory : other.world.kernel.stops = _ := otherInvariant.memory otherUp
  rw [stoppedScopes, stoppedScopes, otherMemory, memory, stops, resumes]

/-- In every run that draws fewer numbers for ids than a `u64` counts: a scope whose STOP returned
shows as stopped whenever the node is up, until a RESUME that cites that STOP has written its row.
And in every reachable state, whatever was drawn: a RESUME that did not return changes nothing of
the STOP record, in this process or in one that opens the node again.
-/
theorem stop_holds_and_refused_resume_lifts_nothing
    : (∀ earlier ctx scope faults id,
        (nodeAfter earlier).answer (.stop ctx scope) faults = some (.done (.text id))
        → ∀ events, drawn (earlier ++ .call (.stop ctx scope) faults :: events) < 2 ^ 64
        → let stopped := (nodeAfter earlier).step (.call (.stop ctx scope) faults)
          ((stopped.run events).up = true → scope ∈ stoppedScopes (stopped.run events))
          ∨ ∃ before event after,
              events = before ++ event :: after ∧ Resumes (stopped.run before) event id)
      ∧ ∀ machine, Reachable machine → ∀ ctx stopId faults outcome,
        machine.answer (.resume ctx stopId) faults = some outcome
        → outcome ≠ .done .unit
        → let after := machine.step (.call (.resume ctx stopId) faults)
          after.world.stopRecord = machine.world.stopRecord
          ∧ ∀ stateDir nodeId recoveredPartialLine nowMs openFaults,
              let reopened := (after.step .close).step
                (.open stateDir nodeId recoveredPartialLine nowMs openFaults)
              reopened.up = true → stoppedScopes reopened = stoppedScopes machine := by
  constructor
  · intro earlier ctx scope faults id answered events few
    rw [drawn_append, drawn_cons] at few
    have tracked : Tracked (nodeAfter earlier) (0 + drawn earlier) :=
      tracked_fresh.run earlier (by omega)
    rw [Nat.zero_add] at tracked
    have room : drawn earlier + 1 < 2 ^ 64 := by
      change drawn earlier + (1 + drawn events) < 2 ^ 64 at few
      omega
    have live := live_of_answer tracked room answered
    have stopped := tracked.step (.call (.stop ctx scope) faults) room
    rcases live.run stopped events (by omega) with still | resumed
    · exact Or.inl fun up => still.shown (stopped.run events (by omega)).record up
    · exact Or.inr resumed
  · intro machine reachable ctx stopId faults outcome answered refused
    have invariant := reachable.stopInvariant
    have record := record_of_refused answered refused
    refine ⟨record, ?_⟩
    intro stateDir nodeId recoveredPartialLine nowMs openFaults reopened up
    have tables := step_open_tables
      ((machine.step (.call (.resume ctx stopId) faults)).step .close) stateDir nodeId
      recoveredPartialLine nowMs openFaults
    simp only [World.stopRecord, Prod.mk.injEq] at record
    have running : machine.up = true := by
      by_contra down
      rw [Machine.answer, if_neg down] at answered
      cases answered
    exact stoppedScopes_congr invariant (((reachable.step _).step _).step _).stopInvariant
      running up (tables.1.trans record.1) (tables.2.trans record.2.1)

end Persistence

attribute [local instance] plainLibraries

section Run

/-- A node that was opened. -/
private def openedNode : Machine := nodeAfter [.open "state" "n1" false 0 []]

private def operatorCtx : Ctx where
  principal := .human "node:n1"
  clearance := ⟨.personal, true⟩
  partition := "local"
  nowMs := 5

private def intruderCtx : Ctx := { operatorCtx with principal := .machine "n1" "cli" }

/-- The node scope is still stopped after a reopening, and a machine's RESUME lifts nothing. -/
theorem stop_holds_over_reopening
    : "node" ∈ stoppedScopes ((openedNode.step (.call (.stop operatorCtx "node") [])).run
        [.close, .open "state" "n1" false 9 []])
      ∧ ((openedNode.step (.call (.stop operatorCtx "node") [])).step
          (.call (.resume intruderCtx (mintedId "stop" "n1" 1)) [])).world.stopRecord
        = (openedNode.step (.call (.stop operatorCtx "node") [])).world.stopRecord := by
  obtain ⟨holds, lifts⟩ := stop_holds_and_refused_resume_lifts_nothing
  have reachable : Reachable openedNode := ⟨_, rfl⟩
  constructor
  · have answered : openedNode.answer (.stop operatorCtx "node") []
        = some (.done (.text (mintedId "stop" "n1" 1))) := rfl
    rcases holds [.open "state" "n1" false 0 []] operatorCtx "node" [] _ answered
        [.close, .open "state" "n1" false 9 []] (by decide) with
      shown | ⟨before, event, after, split, resumes⟩
    · exact shown rfl
    · obtain ⟨ctx, faults, resume, rfl, -⟩ := resumes
      have member : Event.call (.resume ctx (mintedId "stop" "n1" 1)) faults
          ∈ before ++ Event.call (.resume ctx (mintedId "stop" "n1" 1)) faults :: after :=
        List.mem_append_cons_self
      rw [← split] at member
      simp only [List.mem_cons, reduceCtorEq, List.not_mem_nil, or_false] at member
  · exact (lifts _ (reachable.step _) intruderCtx _ []
      (.failed (.i1 "STOP/RESUME require a human principal")) rfl fun same => by cases same).1

end Run

end VerticalAI.Correctness
