import VerticalAI.Foundation.Counter
import VerticalAI.Kernel.StopInvariant

/-! The numbers of minted ids over runs: which ones a call draws, and that none is drawn twice as long
as the counter does not start over.
-/

namespace VerticalAI.Kernel
open VerticalAI.Foundation VerticalAI.Contracts VerticalAI.Store

/-- The number on disk. -/
def StateDir.numbered (disk : StateDir) : Nat := (disk.counter.getD 0).toNat

/-- An id whose number was used up. -/
def StateDir.Minted (disk : StateDir) (id : String) : Prop :=
  ∃ stem nodeId number, id = mintedId stem nodeId number ∧ number.toNat ≤ disk.numbered

/-- An id that was minted stays minted while the numbering goes up. -/
theorem StateDir.Minted.mono {disk after : StateDir} {id : String} (minted : disk.Minted id)
    (grown : disk.numbered ≤ after.numbered)
    : after.Minted id := by
  obtain ⟨stem, nodeId, number, named, below⟩ := minted
  exact ⟨stem, nodeId, number, named, below.trans grown⟩

/-- An id with a number above all that were used up is new. -/
theorem StateDir.Minted.fresh {disk : StateDir} {id stem nodeId : String} {number : UInt64}
    (minted : disk.Minted id) (above : disk.numbered < number.toNat)
    : id ≠ mintedId stem nodeId number := by
  rintro rfl
  obtain ⟨other, otherNode, used, named, below⟩ := minted
  rw [mintedId_number named] at above
  omega

/-- An id with a number that was drawn in between. -/
def NewId (disk after : StateDir) (id : String) : Prop :=
  ∃ stem nodeId number, id = mintedId stem nodeId number ∧ disk.numbered < number.toNat
    ∧ number.toNat ≤ after.numbered

namespace NewId

variable {disk after : StateDir} {id : String}

/-- A new id takes the numbering up. -/
theorem grown (new : NewId disk after id) : disk.numbered ≤ after.numbered := by
  obtain ⟨_, _, number, -, above, below⟩ := new
  exact above.le.trans below

/-- A new id is minted in the state that it leaves. -/
theorem minted (new : NewId disk after id) : after.Minted id := by
  obtain ⟨stem, nodeId, number, named, -, below⟩ := new
  exact ⟨stem, nodeId, number, named, below⟩

/-- No id in use is a new one. -/
theorem ne (new : NewId disk after id) {other : String} (used : disk.Minted other)
    : other ≠ id := by
  obtain ⟨stem, nodeId, number, rfl, above, -⟩ := new
  exact used.fresh above

end NewId

/-- The numbers on disk and in memory. -/
def World.counters (world : World) : Nat × Nat :=
  (world.disk.numbered, world.kernel.counter.toNat)

/-- Only an update of the counter changes either copy of it. -/
theorem counters_apply (world : World) (update : Update) (elsewhere : update.area ≠ .counter)
    : World.counters (Updates.apply update world) = world.counters := by
  cases update <;> first | rfl | exact absurd rfl elsewhere

/-- Where there is room, counting up and storing the counter take both copies to the next
number.
-/
theorem counters_counted {world : World} (room : Counter.HasNext world.kernel.counter)
    : world.counted.counters
      = (world.kernel.counter.toNat + 1, world.kernel.counter.toNat + 1) := by
  rw [← Counter.toNat_succ room]
  rfl

/-- The stored number is not ahead of the one in memory, and it and so many more fit in 64 bits. -/
structure Supply (count : Nat) (world : World) : Prop where
  behind : world.disk.numbered ≤ world.kernel.counter.toNat
  room : world.kernel.counter.toNat + count < 2 ^ 64

/-- So many numbers were drawn at most, and those stored were drawn. -/
structure Drew (count : Nat) (world after : World) : Prop where
  grown : world.disk.numbered ≤ after.disk.numbered
  behind : after.disk.numbered ≤ after.kernel.counter.toNat
  within : after.kernel.counter.toNat ≤ world.kernel.counter.toNat + count

/-- In any run of the program from a supply of numbers. -/
def Draws {α : Type} (count : Nat) (program : Syscall α) : Prop :=
  ∀ world faults, Supply count world → Drew count world (program world faults).2.1

/-- A run that draws at most some numbers draws at most any larger number of them. -/
theorem Drew.wider {count more : Nat} {world after : World} (drew : Drew count world after)
    (least : count ≤ more)
    : Drew more world after :=
  ⟨drew.grown, drew.behind, by have := drew.within; omega⟩

/-- A run that leaves both counters alone draws no number. -/
theorem Drew.same {count : Nat} {world after : World} (supply : Supply count world)
    (counters : after.counters = world.counters)
    : Drew count world after := by
  simp only [World.counters, Prod.mk.injEq] at counters
  have := supply.behind
  constructor <;> omega

theorem Draws.wider {α : Type} {count more : Nat} {program : Syscall α}
    (draws : Draws count program) (least : count ≤ more)
    : Draws more program := by
  intro world faults supply
  have room := supply.room
  exact (draws world faults ⟨supply.behind, by omega⟩).wider least

/-- What two programs draw, one after the other. -/
theorem Draws.bind {α β : Type} {count more : Nat} {program : Syscall α} {next : α → Syscall β}
    (first : Draws count program) (second : ∀ value, Draws more (next value))
    : Draws (count + more) (program >>= next) := by
  intro world faults supply
  have room := supply.room
  have drew := first world faults ⟨supply.behind, by omega⟩
  rcases ran : program world faults with ⟨value | error | _, middle, rest⟩
  all_goals rw [ran] at drew
  · have within : middle.kernel.counter.toNat ≤ world.kernel.counter.toNat + count := drew.within
    rw [Program.bind_done ran]
    obtain ⟨grown, behind, further⟩ := second value middle rest ⟨drew.behind, by omega⟩
    exact ⟨drew.grown.trans grown, behind, by omega⟩
  · rw [Program.bind_failed ran]
    exact drew.wider (Nat.le_add_right count more)
  · rw [Program.bind_crashed ran]
    exact drew.wider (Nat.le_add_right count more)

/-- Counting up and storing the counter draws one number at most. -/
theorem counted_drew {world : World} (supply : Supply 1 world) : Drew 1 world world.counted := by
  have counters := counters_counted supply.room
  simp only [World.counters, Prod.mk.injEq] at counters
  have := supply.behind
  constructor <;> omega

/-- The numbers after two were drawn and stored. -/
theorem counters_counted_twice (world : World)
    : world.counted.counted.counters
      = ((world.kernel.counter + 2).toNat, (world.kernel.counter + 2).toNat) := by
  change ((world.kernel.counter + 1 + 1).toNat, (world.kernel.counter + 1 + 1).toNat) = _
  rw [UInt64.add_assoc]
  rfl

/-- A number that was drawn but not stored is taken all the same. -/
theorem countUp_drew {world : World} (supply : Supply 1 world)
    : Drew 1 world (Updates.apply Update.countUp world) := by
  have counted := Counter.toNat_succ supply.room
  have behind := supply.behind
  refine ⟨le_rfl, ?_, counted.le⟩
  change world.disk.numbered ≤ (world.kernel.counter + 1).toNat
  omega

/-- An id takes one number at most, also where storing the counter fails. -/
theorem nextId_draws {stem : String} : Draws 1 (nextId stem) := by
  intro world faults supply
  rcases nextId_cases stem world faults with
    ⟨rest, minted⟩ | ⟨error, rest, minted⟩ | ⟨rest, minted⟩
  · exact minted ▸ counted_drew supply
  · exact minted ▸ countUp_drew supply
  · exact minted ▸ countUp_drew supply

theorem map_draws {α β : Type} {change : α → β} {count : Nat} {program : Syscall α}
    (draws : Draws count program)
    : Draws count (change <$> program) := by
  intro world faults supply
  rw [Program.map_run]
  exact draws world faults supply

/-- How many numbers a call draws at most. -/
def Call.draws : Call → Nat
  | .submitTask _ _ _ | .createTask _ _ _ _ _ => 2
  | .stop _ _ | .resume _ _ => 1
  | _ => 0

/-- How many numbers an event of a run draws at most. -/
def Event.draws : Event → Nat
  | .call asked _ => asked.draws
  | .close | .open _ _ _ _ _ => 0

/-- How many numbers a run draws at most. -/
def drawn (events : List Event) : Nat := (events.map Event.draws).sum

@[simp] theorem drawn_nil : drawn [] = 0 := rfl

@[simp] theorem drawn_cons (event : Event) (events : List Event)
    : drawn (event :: events) = event.draws + drawn events := List.sum_cons

/-- The numbers that a run draws are those of its first half and of its second. -/
@[simp] theorem drawn_append (first second : List Event)
    : drawn (first ++ second) = drawn first + drawn second := by
  rw [drawn, List.map_append, List.sum_append]
  rfl

/-- A first half draws no more numbers than the whole run. -/
theorem drawn_lt_of_append {first second : List Event} {limit : Nat}
    (few : drawn (first ++ second) < limit)
    : drawn first < limit := by
  rw [drawn_append] at few
  omega

section Calls

variable [Libraries]

/-- Calls outside the counter's area leave both copies as they are. -/
theorem counters_frame {areas : List Area} {first last : World}
    (trail : Trail (Within areas) first last) (absent : .counter ∉ areas)
    : last.counters = first.counters :=
  frame counters_apply absent trail

omit [Libraries] in
/-- The id with the number that was drawn and stored is new. -/
theorem newId_counted {world after : World} {stem id : String} (supply : Supply 1 world)
    (named : id = mintedId stem world.kernel.nodeId (world.kernel.counter + 1))
    (kept : after.counters = world.counted.counters)
    : NewId world.disk after.disk id := by
  have numbered : after.disk.numbered = world.kernel.counter.toNat + 1 :=
    congrArg Prod.fst (kept.trans (counters_counted supply.room))
  refine ⟨stem, world.kernel.nodeId, world.kernel.counter + 1, named, ?_, ?_⟩
  · rw [Counter.toNat_succ supply.room]
    exact Nat.lt_succ_of_le supply.behind
  · rw [Counter.toNat_succ supply.room, numbered]

/-- A STOP that was stored has a new id. -/
theorem Stopped.newId {ctx : Ctx} {scope : String} {world after : World}
    {outcome : Outcome KernelError String} {event : StopEvent}
    (stopped : Stopped ctx scope world outcome after event) (supply : Supply 1 world)
    : NewId world.disk after.disk event.id := by
  have kept : after.counters = (world.counted.withStop event).counters :=
    counters_frame stopped.logged (by decide)
  exact newId_counted supply stopped.minted kept

/-- A RESUME that was stored has a new id. -/
theorem Lifted.newId {stopId : String} {world after : World}
    {outcome : Outcome KernelError Unit} {event : ResumeEvent}
    (lifted : Lifted stopId world outcome after event) (supply : Supply 1 world)
    : NewId world.disk after.disk event.id := by
  obtain ⟨middle, logged, rfl⟩ := lifted.logged
  have kept : middle.counters = world.counted.counters := counters_frame logged (by decide)
  exact newId_counted supply lifted.minted kept

/-- What does not touch the counter draws nothing. -/
theorem Draws.none {α : Type} (areas : List Area) (absent : .counter ∉ areas)
    {program : Syscall α} (emits : program.Emits (Within areas))
    : Draws 0 program :=
  fun world faults supply => .same supply (counters_frame (emits.trail world faults) absent)

/-- A submission takes a number for the register and one for the task. -/
theorem submitTask_draws {ctx : Ctx} {goal : String} {label : Label}
    : Draws 2 (submitTask ctx goal label) := by
  change Draws (1 + (1 + 0)) (submitTask ctx goal label)
  unfold submitTask
  refine nextId_draws.bind fun reg => nextId_draws.bind fun task => ?_
  refine .none [.registers, .record] (by decide) ?_
  refine Program.Emits.bind (save_area .registers rfl (by decide) fun _ => trivial) fun _ => ?_
  exact (emits_widen log_emits (by decide)).bind fun _ => Program.emits_pure

theorem createTask_draws {ctx : Ctx} {goal artefactType : String} {label : Label}
    {steps : List StepKind}
    : Draws 2 (createTask ctx goal artefactType label steps) := by
  refine submitTask_draws.bind fun id => .none [.tasks] (by decide) ?_
  refine readRegister_emits.bind fun reg => ?_
  exact (emits_widen saveTask_emits (by decide)).bind fun _ => Program.emits_pure

/-- A STOP takes one number at most, and none where the caller is refused. -/
theorem stop_draws {ctx : Ctx} {scope : String} : Draws 1 (stop ctx scope) := by
  change Draws (0 + (1 + 0)) (stop ctx scope)
  unfold stop
  refine Draws.bind (.none [] (by decide) Program.emits_lift) fun _ => ?_
  refine nextId_draws.bind fun id => .none [.stops, .record] (by decide) ?_
  refine Program.Emits.bind (save_area .stops rfl (by decide) fun _ => trivial) fun _ => ?_
  refine kernel_emits.bind fun stops => ?_
  split
  · exact Program.emits_fail
  · refine Program.Emits.bind (perform_area .stops rfl (by decide) fun _ => trivial) fun _ => ?_
    exact (emits_widen log_emits (by decide)).bind fun _ => Program.emits_pure

/-- A RESUME takes one number at most, and none where it is refused. -/
theorem resume_draws {ctx : Ctx} {stopId : String} : Draws 1 (resume ctx stopId) := by
  change Draws (0 + (0 + 1)) (resume ctx stopId)
  unfold resume
  refine Draws.bind (.none [] (by decide) Program.emits_lift) fun _ => ?_
  refine Draws.bind (.none [] (by decide) kernel_emits) fun stops => ?_
  split
  · exact Draws.wider (.none [] (by decide) Program.emits_fail) (Nat.zero_le 1)
  · change Draws (1 + 0) _
    refine nextId_draws.bind fun id => .none [.stops, .record] (by decide) ?_
    refine (emits_widen log_emits (by decide)).bind fun _ => ?_
    refine Program.Emits.bind (save_area .stops rfl (by decide) fun _ => trivial) fun _ => ?_
    refine kernel_emits.bind fun stops => ?_
    split
    · exact Program.emits_fail
    · exact perform_area .stops rfl (by decide) fun _ => trivial

/-- By cases on the calls that mint. -/
theorem invoke_draws (call : Call) : Draws call.draws (invoke call) := by
  by_cases elsewhere : .counter ∉ call.footprint
  · exact Draws.wider (.none _ elsewhere (invoke_emits call)) (Nat.zero_le _)
  · cases call with
    | submitTask ctx goal label => exact map_draws submitTask_draws
    | createTask ctx goal artefactType label steps => exact map_draws createTask_draws
    | stop ctx scope => exact map_draws stop_draws
    | resume ctx stopId => exact map_draws resume_draws
    | _ => exact absurd (by simp [Call.footprint, stepAreas]) elsewhere

/-- No more numbers than these were drawn, and the number on disk is not ahead of the one of a node
that is up.
-/
structure Numbering (machine : Machine) (count : Nat) : Prop where
  stored : machine.world.disk.numbered ≤ count
  memory : machine.up = true → machine.world.disk.numbered ≤ machine.world.kernel.counter.toNat
    ∧ machine.world.kernel.counter.toNat ≤ count

omit [Libraries] in
theorem numbering_fresh : Numbering .fresh 0 := ⟨le_rfl, nofun⟩

omit [Libraries] in
/-- While the total stays below `2 ^ 64`, the next call finds the numbers that it needs. -/
theorem Numbering.supply {machine : Machine} {count more : Nat}
    (numbering : Numbering machine count) (up : machine.up = true) (few : count + more < 2 ^ 64)
    : Supply more machine.world := by
  obtain ⟨behind, below⟩ := numbering.memory up
  exact ⟨behind, by omega⟩

/-- The number on disk does not go back, by cases on the event. -/
theorem Numbering.step {machine : Machine} {count : Nat} (numbering : Numbering machine count)
    (event : Event) (few : count + event.draws < 2 ^ 64)
    : Numbering (machine.step event) (count + event.draws)
      ∧ machine.world.disk.numbered ≤ (machine.step event).world.disk.numbered := by
  have stored := numbering.stored
  cases event with
  | call call faults =>
      cases up : machine.up with
      | false =>
          rw [Machine.step_call_down up]
          refine ⟨⟨stored.trans (Nat.le_add_right _ _), fun running => ?_⟩, le_rfl⟩
          rw [up] at running
          cases running
      | true =>
          have below := (numbering.memory up).2
          obtain ⟨grown, behind, within⟩ :=
            invoke_draws call machine.world faults (numbering.supply up few)
          rw [← Machine.step_call_world up] at grown behind within
          have top := within.trans (Nat.add_le_add_right below call.draws)
          exact ⟨⟨behind.trans top, fun _ => ⟨behind, top⟩⟩, grown⟩
  | close => exact ⟨⟨stored, nofun⟩, le_rfl⟩
  | «open» stateDir nodeId recoveredPartialLine nowMs faults =>
      cases up : machine.up with
      | true =>
          simp only [Machine.step, up, if_true]
          exact ⟨numbering, le_rfl⟩
      | false =>
          have trail : Trail (Within [.leases]) machine.world
              (RealKernel.open stateDir nodeId recoveredPartialLine nowMs machine.world
                faults).2.1 := open_emits.trail machine.world faults
          have kept := congrArg Prod.fst (counters_frame trail (by decide))
          have same : (machine.step (.open stateDir nodeId recoveredPartialLine nowMs
              faults)).world.disk.numbered = machine.world.disk.numbered := by
            rw [Machine.step_open_disk up]
            exact kept
          refine ⟨⟨same.trans_le stored, fun running => ?_⟩, same.ge⟩
          simp only [Machine.step, up, Bool.false_eq_true, if_false] at running same ⊢
          rcases ran : RealKernel.open stateDir nodeId recoveredPartialLine nowMs machine.world
            faults with ⟨node | _ | _, after, rest⟩
          all_goals rw [ran] at running same
          · obtain ⟨rfl, -⟩ := open_done ran
            exact ⟨same.le, stored⟩
          · cases running
          · cases running

/-- The numbering stays within what a run may draw, by induction on its events. -/
theorem Numbering.run {machine : Machine} {count : Nat} (numbering : Numbering machine count)
    (events : List Event) (few : count + drawn events < 2 ^ 64)
    : Numbering (machine.run events) (count + drawn events) := by
  induction events generalizing machine count with
  | nil => exact numbering
  | cons event rest ih =>
      rw [drawn_cons, ← Nat.add_assoc] at few ⊢
      exact ih (numbering.step event (by omega)).1 few

theorem numbering_run (events : List Event) (few : drawn events < 2 ^ 64)
    : Numbering (Machine.fresh.run events) (drawn events) := by
  have numbering := numbering_fresh.run events (by rwa [Nat.zero_add])
  rwa [Nat.zero_add] at numbering

end Calls

end VerticalAI.Kernel
