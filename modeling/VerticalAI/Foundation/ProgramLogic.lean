import VerticalAI.Foundation.Program

/-! A program logic with a guarantee. A triple says of a program, for every fault list, which
updates it makes and in which states it makes them, what holds when it returns or reports an
error, and that it meets the faults in order. Nothing is said about a crash beyond the trail that
led to it.
-/

namespace VerticalAI.Foundation

variable {σ υ ε ε' α β : Type} [Updates σ υ]

-----------------------------------------------------------------------------------------
-- Trails of updates
-----------------------------------------------------------------------------------------

/-- One admitted update leads from the first state to the second. -/
def Admits (allowed : σ → υ → Prop) (before after : σ) : Prop :=
  ∃ update, allowed before update ∧ after = Updates.apply update before

/-- The second state is reached from the first by admitted updates, one at a time. -/
def Trail (allowed : σ → υ → Prop) : σ → σ → Prop :=
  Relation.ReflTransGen (Admits allowed)

namespace Trail

variable {allowed wider : σ → υ → Prop} {first middle last : σ}

theorem refl (state : σ) : Trail allowed state state := Relation.ReflTransGen.refl

theorem single {update : υ} (admitted : allowed first update)
    : Trail allowed first (Updates.apply update first) :=
  Relation.ReflTransGen.single ⟨update, admitted, rfl⟩

/-- Two trails join where one ends and the other begins. -/
theorem trans (head : Trail allowed first middle) (tail : Trail allowed middle last)
    : Trail allowed first last :=
  Relation.ReflTransGen.trans head tail

/-- Admitting more updates keeps a trail, by induction on its steps. -/
theorem mono (inclusion : ∀ state update, allowed state update → wider state update)
    (trail : Trail allowed first last)
    : Trail wider first last := by
  induction trail with
  | refl => exact Relation.ReflTransGen.refl
  | tail _ admits ih =>
      obtain ⟨update, admitted, rfl⟩ := admits
      exact Relation.ReflTransGen.tail ih ⟨update, inclusion _ _ admitted, rfl⟩

/-- What every admitted update preserves holds at the end of a trail, by induction. -/
theorem preserves {invariant : σ → Prop}
    (step : ∀ state update, invariant state → allowed state update
      → invariant (Updates.apply update state))
    (trail : Trail allowed first last) (initial : invariant first)
    : invariant last := by
  induction trail with
  | refl => exact initial
  | tail _ admits ih =>
      obtain ⟨update, admitted, rfl⟩ := admits
      exact step _ _ ih admitted

/-- A transitive relation between states that every update respects relates the ends of a
trail, by induction.
-/
theorem relates {relation : σ → σ → Prop} (reflexive : ∀ state, relation state state)
    (step : ∀ start state update, relation start state → allowed state update
      → relation start (Updates.apply update state))
    (trail : Trail allowed first last)
    : relation first last := by
  induction trail with
  | refl => exact reflexive first
  | tail _ admits ih =>
      obtain ⟨update, admitted, rfl⟩ := admits
      exact step _ _ _ ih admitted

/-- Where every update respects a transitive relation, each is made in a state related to the last
one, by induction from the first update.
-/
theorem towards {relation : σ → σ → Prop} (reflexive : ∀ state, relation state state)
    (transitive : ∀ first middle last, relation first middle → relation middle last
      → relation first last)
    (step : ∀ state update, allowed state update → relation state (Updates.apply update state))
    (trail : Trail allowed first last)
    : Trail (fun state update => allowed state update ∧ relation state last) first last
      ∧ relation first last := by
  induction trail using Relation.ReflTransGen.head_induction_on with
  | refl => exact ⟨Relation.ReflTransGen.refl, reflexive last⟩
  | head admits _ ih =>
      obtain ⟨update, admitted, rfl⟩ := admits
      have related := transitive _ _ _ (step _ update admitted) ih.2
      exact ⟨Relation.ReflTransGen.head ⟨update, ⟨admitted, related⟩, rfl⟩ ih.1, related⟩

end Trail

-----------------------------------------------------------------------------------------
-- Triples
-----------------------------------------------------------------------------------------

/-- The outcome meets the postcondition of the way it ended; a crash owes nothing. -/
def Outcome.Meets (post : α → σ → Prop) (failure : ε → σ → Prop) (state : σ)
    : Outcome ε α → Prop
  | .done value => post value state
  | .failed error => failure error state
  | .crashed => True

/-- The faults were met in order, and only a loss of power among them ends a run that way. -/
structure Met (faults : List Fault) (outcome : Outcome ε α) (rest : List Fault) : Prop where
  left : rest <:+ faults
  power : outcome = .crashed → .crash ∈ faults

/-- Nothing was met. -/
theorem Met.none {faults : List Fault} {outcome : Outcome ε α} (alive : outcome ≠ .crashed)
    : Met faults outcome faults :=
  ⟨faults.suffix_refl, fun lost => absurd lost alive⟩

/-- The first fault was met. -/
theorem Met.one {fault : Fault} {rest : List Fault} {outcome : Outcome ε α}
    (power : outcome = .crashed → fault = .crash)
    : Met (fault :: rest) outcome rest :=
  ⟨rest.suffix_cons fault, fun lost => power lost ▸ List.mem_cons_self⟩

/-- From a state with `pre`, the program makes admitted updates only, returns with `post`
and reports an error with `failure`, whatever the environment does.
-/
def Program.Satisfies (pre : σ → Prop) (program : Program σ ε α)
    (allowed : σ → υ → Prop) (post : α → σ → Prop) (failure : ε → σ → Prop)
    : Prop :=
  ∀ state faults,
    pre state
    → Trail allowed state (program state faults).2.1
      ∧ (program state faults).1.Meets post failure (program state faults).2.1
      ∧ Met faults (program state faults).1 (program state faults).2.2

/-- Every update the program makes, in any run, is admitted in the state it is made in. -/
def Program.Emits (program : Program σ ε α) (allowed : σ → υ → Prop) : Prop :=
  program.Satisfies (fun _ => True) allowed (fun _ _ => True) (fun _ _ => True)

namespace Program

variable {pre : σ → Prop} {allowed : σ → υ → Prop} {post : α → σ → Prop}
  {failure : ε → σ → Prop}

/-- The updates of a run are a trail of those that the triple allows. -/
theorem Satisfies.trail {program : Program σ ε α}
    (triple : program.Satisfies pre allowed post failure) {state : σ} (holds : pre state)
    (faults : List Fault)
    : Trail allowed state (program state faults).2.1 :=
  (triple state faults holds).1

/-- The postcondition of a run that returned. -/
theorem Satisfies.done {program : Program σ ε α}
    (triple : program.Satisfies pre allowed post failure) {state state' : σ}
    (holds : pre state) {faults rest : List Fault} {value : α}
    (ran : program state faults = (.done value, state', rest))
    : post value state' := by
  have meets := (triple state faults holds).2.1
  rwa [ran] at meets

/-- The failure condition of a run that reported an error. -/
theorem Satisfies.failed {program : Program σ ε α}
    (triple : program.Satisfies pre allowed post failure) {state state' : σ}
    (holds : pre state) {faults rest : List Fault} {error : ε}
    (ran : program state faults = (.failed error, state', rest))
    : failure error state' := by
  have meets := (triple state faults holds).2.1
  rwa [ran] at meets

/-- The rule of consequence: less may be asked before, and more allowed and promised
after.
-/
theorem Satisfies.consequence {program : Program σ ε α} {pre' : σ → Prop}
    {wider : σ → υ → Prop} {post' : α → σ → Prop} {failure' : ε → σ → Prop}
    (triple : program.Satisfies pre allowed post failure)
    (strengthen : ∀ state, pre' state → pre state)
    (inclusion : ∀ state update, allowed state update → wider state update)
    (weakenPost : ∀ value state, post value state → post' value state)
    (weakenFailure : ∀ error state, failure error state → failure' error state)
    : program.Satisfies pre' wider post' failure' := by
  intro state faults holds
  obtain ⟨trail, meets, met⟩ := triple state faults (strengthen state holds)
  refine ⟨trail.mono inclusion, ?_, met⟩
  rcases outcome : (program state faults).1 with value | error | _
  · rw [outcome] at meets
    exact weakenPost _ _ meets
  · rw [outcome] at meets
    exact weakenFailure _ _ meets
  · trivial

/-- A value is returned as it is, with the state as it was. -/
theorem satisfies_pure {value : α} (holds : ∀ state, pre state → post value state)
    : (Pure.pure value : Program σ ε α).Satisfies pre allowed post failure :=
  fun state _ initial => ⟨.refl state, holds state initial, .none nofun⟩

/-- A failure is raised with the state as it was. -/
theorem satisfies_fail {error : ε} (holds : ∀ state, pre state → failure error state)
    : (fail error : Program σ ε α).Satisfies pre allowed post failure :=
  fun state _ initial => ⟨.refl state, holds state initial, .none nofun⟩

/-- Sequencing: what the first step establishes is what the second one may assume. -/
theorem Satisfies.bind {program : Program σ ε α} {next : α → Program σ ε β}
    {middle : α → σ → Prop} {post : β → σ → Prop}
    (head : program.Satisfies pre allowed middle failure)
    (tail : ∀ value, (next value).Satisfies (middle value) allowed post failure)
    : (program >>= next).Satisfies pre allowed post failure := by
  intro state faults holds
  obtain ⟨trail, meets, met⟩ := head state faults holds
  rw [bind_run]
  rcases ran : program state faults with ⟨value | error | _, state', rest⟩
  · rw [ran] at trail meets met
    obtain ⟨later, result, last⟩ := tail value state' rest meets
    exact ⟨trail.trans later, result, last.left.trans met.left,
      fun lost => met.left.subset (last.power lost)⟩
  · rw [ran] at trail meets met
    exact ⟨trail, meets, met.left, nofun⟩
  · rw [ran] at trail met
    exact ⟨trail, trivial, met.left, fun _ => met.power rfl⟩

/-- A look at the state promises what it saw. -/
theorem satisfies_observe {look : σ → α} (holds : ∀ state, pre state → post (look state) state)
    : (observe look : Program σ ε α).Satisfies pre allowed post failure :=
  fun state _ initial => ⟨.refl state, holds state initial, .none nofun⟩

/-- A change of volatile state makes its one update and cannot fail. -/
theorem satisfies_perform {update : υ} {post : Unit → σ → Prop}
    (admitted : ∀ state, pre state → allowed state update)
    (holds : ∀ state, pre state → post () (Updates.apply update state))
    : (perform update : Program σ ε Unit).Satisfies pre allowed post failure :=
  fun state _ initial => ⟨.single (admitted state initial), holds state initial, .none nofun⟩

/-- A write makes its one update, or fails or loses power and makes none. -/
theorem satisfies_persist {wrap : String → ε} {update : υ} {post : Unit → σ → Prop}
    (admitted : ∀ state, pre state → allowed state update)
    (holds : ∀ state, pre state → post () (Updates.apply update state))
    (refused : ∀ state reason, pre state → failure (wrap reason) state)
    : (persist wrap update : Program σ ε Unit).Satisfies pre allowed post failure := by
  intro state faults initial
  rcases faults with _ | ⟨_ | _ | _, rest⟩
  · exact ⟨.single (admitted state initial), holds state initial, .none nofun⟩
  · exact ⟨.single (admitted state initial), holds state initial, .one nofun⟩
  · exact ⟨.refl state, refused state _ initial, .one nofun⟩
  · exact ⟨.refl state, trivial, .one fun _ => rfl⟩

/-- A read that works promises what it saw, and one that fails the state as it was. -/
theorem satisfies_fetch {wrap : String → ε} {look : σ → α}
    (holds : ∀ state, pre state → post (look state) state)
    (refused : ∀ state reason, pre state → failure (wrap reason) state)
    : (fetch wrap look : Program σ ε α).Satisfies pre allowed post failure := by
  intro state faults initial
  rcases faults with _ | ⟨_ | _ | _, rest⟩
  · exact ⟨.refl state, holds state initial, .none nofun⟩
  · exact ⟨.refl state, holds state initial, .one nofun⟩
  · exact ⟨.refl state, refused state _ initial, .one nofun⟩
  · exact ⟨.refl state, trivial, .one fun _ => rfl⟩

/-- An attempted program reports its error as a value, so its failure condition becomes part
of the postcondition.
-/
theorem Satisfies.attempt {program : Program σ ε α} {failure' : ε' → σ → Prop}
    {post : Except ε α → σ → Prop}
    (triple : program.Satisfies pre allowed (fun value => post (.ok value))
      (fun error => post (.error error)))
    : (attempt program : Program σ ε' (Except ε α)).Satisfies pre allowed post failure' := by
  intro state faults holds
  obtain ⟨trail, meets, met⟩ := triple state faults holds
  unfold Program.attempt
  rcases ran : program state faults with ⟨value | error | _, state', rest⟩
  all_goals rw [ran] at trail meets met
  · exact ⟨trail, meets, met.left, nofun⟩
  · exact ⟨trail, meets, met.left, nofun⟩
  · exact ⟨trail, trivial, met.left, fun _ => met.power rfl⟩

theorem Satisfies.mapError {program : Program σ ε α} {rename : ε → ε'}
    {failure : ε' → σ → Prop}
    (triple : program.Satisfies pre allowed post (fun error => failure (rename error)))
    : (mapError rename program).Satisfies pre allowed post failure := by
  intro state faults holds
  obtain ⟨trail, meets, met⟩ := triple state faults holds
  unfold Program.mapError
  rcases ran : program state faults with ⟨value | error | _, state', rest⟩
  all_goals rw [ran] at trail meets met
  · exact ⟨trail, meets, met.left, nofun⟩
  · exact ⟨trail, meets, met.left, nofun⟩
  · exact ⟨trail, trivial, met.left, fun _ => met.power rfl⟩

/-- What the precondition says whatever the state may be assumed. -/
theorem satisfies_of_fact {program : Program σ ε α} {fact : Prop}
    (known : ∀ state, pre state → fact)
    (triple : fact → program.Satisfies pre allowed post failure)
    : program.Satisfies pre allowed post failure :=
  fun state faults holds => triple (known state holds) state faults holds

/-- A choice satisfies what both of its branches do, each under its condition. -/
theorem satisfies_ite {condition : Prop} [Decidable condition]
    {yes no : Program σ ε α}
    (whenYes : condition → yes.Satisfies pre allowed post failure)
    (whenNo : ¬condition → no.Satisfies pre allowed post failure)
    : (if condition then yes else no).Satisfies pre allowed post failure := by
  split
  · exact whenYes ‹_›
  · exact whenNo ‹_›

-----------------------------------------------------------------------------------------
-- Updates alone
-----------------------------------------------------------------------------------------

/-- The updates of any run are a trail of those that the program may make. -/
theorem Emits.trail {program : Program σ ε α} (emits : program.Emits allowed) (state : σ)
    (faults : List Fault)
    : Trail allowed state (program state faults).2.1 :=
  Satisfies.trail emits trivial faults

/-- The updates of this run are a trail of those that the program may make. -/
theorem Emits.trail_inv {program : Program σ ε α} {state last : σ} {faults rest : List Fault}
    {outcome : Outcome ε α} (emits : program.Emits allowed)
    (ran : program state faults = (outcome, last, rest))
    : Trail allowed state last := by
  have trail := emits.trail state faults
  rwa [ran] at trail

theorem Emits.met {program : Program σ ε α} (emits : program.Emits allowed) (state : σ)
    (faults : List Fault)
    : Met faults (program state faults).1 (program state faults).2.2 :=
  (emits state faults trivial).2.2

/-- A sequence goes on from where its first step returned, if it does. -/
theorem Emits.bind_run {program : Program σ ε α} {next : α → Program σ ε β}
    (emits : program.Emits allowed) (state : σ) (faults : List Fault)
    : Trail allowed state ((program >>= next) state faults).2.1
      ∨ ∃ value middle rest, Trail allowed state middle
        ∧ (program >>= next) state faults = next value middle rest := by
  rw [Program.bind_run]
  rcases ran : program state faults with ⟨value | error | _, middle, rest⟩
  · exact Or.inr ⟨value, middle, rest, emits.trail_inv ran, rfl⟩
  · exact Or.inl (emits.trail_inv ran)
  · exact Or.inl (emits.trail_inv ran)

/-- On working storage a program returns or reports an error, and leaves working storage. -/
theorem Emits.working {program : Program σ ε α} (emits : program.Emits allowed) (state : σ)
    : (∃ value after, program state [] = (.done value, after, []))
      ∨ ∃ error after, program state [] = (.failed error, after, []) := by
  have met := emits.met state []
  rcases ran : program state [] with ⟨value | error | _, after, rest⟩
  all_goals
    rw [ran] at met
    obtain rfl : rest = [] := List.suffix_nil.mp met.left
  · exact Or.inl ⟨value, after, rfl⟩
  · exact Or.inr ⟨error, after, rfl⟩
  · exact absurd (met.power rfl) List.not_mem_nil

/-- What every admitted update preserves may be carried through a triple. -/
theorem Satisfies.carries {program : Program σ ε α} {invariant : σ → Prop}
    (triple : program.Satisfies pre allowed post failure)
    (step : ∀ state update, invariant state → allowed state update
      → invariant (Updates.apply update state))
    : program.Satisfies (fun state => pre state ∧ invariant state) allowed
        (fun value state => post value state ∧ invariant state)
        (fun error state => failure error state ∧ invariant state) := by
  rintro state faults ⟨holds, initial⟩
  obtain ⟨trail, meets, met⟩ := triple state faults holds
  have kept : invariant (program state faults).2.1 := trail.preserves step initial
  refine ⟨trail, ?_, met⟩
  cases outcome : (program state faults).1 with
  | done value =>
      rw [outcome] at meets
      exact ⟨meets, kept⟩
  | failed error =>
      rw [outcome] at meets
      exact ⟨meets, kept⟩
  | crashed => trivial

/-- What every admitted update preserves, the program preserves, however it ends. -/
theorem Emits.keeps {program : Program σ ε α} {invariant : σ → Prop}
    (emits : program.Emits allowed)
    (step : ∀ state update, invariant state → allowed state update
      → invariant (Updates.apply update state))
    : program.Satisfies invariant allowed (fun _ => invariant) (fun _ => invariant) :=
  (Satisfies.carries emits step).consequence (fun _ holds => ⟨trivial, holds⟩)
    (fun _ _ admitted => admitted) (fun _ _ kept => kept.2) (fun _ _ kept => kept.2)

/-- A program that makes no update leaves the state as it is. -/
theorem Emits.still {program : Program σ ε α} (emits : program.Emits fun _ _ => False)
    (state : σ) (faults : List Fault)
    : (program state faults).2.1 = state := by
  have same := Trail.relates (fun _ => rfl) (fun _ _ _ _ none => none.elim)
    (emits.trail state faults)
  exact Eq.symm same

/-- Where a program that makes no update ended is where it began. -/
theorem Emits.still_inv {program : Program σ ε α} {state last : σ} {faults rest : List Fault}
    {outcome : Outcome ε α} (emits : program.Emits fun _ _ => False)
    (ran : program state faults = (outcome, last, rest))
    : last = state := by
  have same := emits.still state faults
  rwa [ran] at same

/-- A program that makes no update keeps what held, and returns what it found. -/
theorem Emits.reads {program : Program σ ε α} {fact : α → σ → Prop}
    (emits : program.Emits fun _ _ => False)
    (found : ∀ state faults value last rest,
      program state faults = (.done value, last, rest) → fact value state)
    : program.Satisfies pre allowed (fun value state => pre state ∧ fact value state)
        (fun _ => pre) := by
  intro state faults holds
  have same := emits.still state faults
  have met := emits.met state faults
  rcases ran : program state faults with ⟨value | error | _, last, rest⟩
  all_goals
    rw [ran] at same met
    obtain rfl : last = state := same
  · exact ⟨Trail.refl last, ⟨holds, found last faults value last rest ran⟩, met⟩
  · exact ⟨Trail.refl last, holds, met⟩
  · exact ⟨Trail.refl last, trivial, met⟩

/-- What a program that makes no update found is known to what follows it. -/
theorem Emits.reads_bind {program : Program σ ε α} {next : α → Program σ ε β}
    {fact : α → σ → Prop} {post : β → σ → Prop}
    (emits : program.Emits fun _ _ => False)
    (found : ∀ state faults value last rest,
      program state faults = (.done value, last, rest) → fact value state)
    (tail : ∀ value, (next value).Satisfies (fun state => pre state ∧ fact value state) allowed
      post (fun _ _ => True))
    : (program >>= next).Satisfies pre allowed post (fun _ _ => True) := by
  refine Satisfies.bind ?_ tail
  exact (emits.reads found).consequence (fun _ holds => holds) (fun _ _ admitted => admitted)
    (fun _ _ holds => holds) (fun _ _ _ => trivial)

/-- What every run that returned returned is a postcondition. -/
theorem Emits.returns {program : Program σ ε α} {fact : α → Prop} (emits : program.Emits allowed)
    (returned : ∀ state faults value last rest,
      program state faults = (.done value, last, rest) → fact value)
    : program.Satisfies pre allowed (fun value _ => fact value) (fun _ _ => True) := by
  intro state faults _
  obtain ⟨trail, -, met⟩ := emits state faults trivial
  refine ⟨trail, ?_, met⟩
  rcases ran : program state faults with ⟨value | error | _, last, rest⟩
  · exact returned state faults value last rest ran
  · trivial
  · trivial

/-- A program that makes some updates makes them among any wider kind. -/
theorem Emits.mono {program : Program σ ε α} {wider : σ → υ → Prop}
    (emits : program.Emits allowed)
    (inclusion : ∀ state update, allowed state update → wider state update)
    : program.Emits wider :=
  Satisfies.consequence emits (fun _ holds => holds) inclusion (fun _ _ holds => holds)
    (fun _ _ holds => holds)

theorem emits_pure {value : α} : (Pure.pure value : Program σ ε α).Emits allowed :=
  satisfies_pure fun _ _ => trivial

theorem emits_fail {error : ε} : (fail error : Program σ ε α).Emits allowed :=
  satisfies_fail fun _ _ => trivial

theorem emits_lift {result : Except ε α} : (lift result : Program σ ε α).Emits allowed := by
  cases result with
  | ok value => exact emits_pure
  | error error => exact emits_fail

/-- What a computation without state returned is known of what follows it. -/
theorem emits_lift_bind {result : Except ε α} {next : α → Program σ ε β}
    (tail : ∀ value, result = .ok value → (next value).Emits allowed)
    : (lift result >>= next).Emits allowed := by
  cases result with
  | ok value => exact tail value rfl
  | error error => exact emits_fail

/-- Two programs one after the other make the updates of either. -/
theorem Emits.bind {program : Program σ ε α} {next : α → Program σ ε β}
    (head : program.Emits allowed) (tail : ∀ value, (next value).Emits allowed)
    : (program >>= next).Emits allowed :=
  Satisfies.bind head tail

theorem emits_observe {look : σ → α} : (observe look : Program σ ε α).Emits allowed :=
  satisfies_observe fun _ _ => trivial

/-- What was looked at is known of the state until it changes. -/
theorem emits_observe_bind {look : σ → α} {next : α → Program σ ε β}
    (tail : ∀ value, (next value).Satisfies (fun state => look state = value) allowed
      (fun _ _ => True) (fun _ _ => True))
    : (observe look >>= next).Emits allowed :=
  fun state faults _ => tail (look state) state faults rfl

/-- Where updates alone matter, the precondition does not. -/
theorem Emits.from_any {program : Program σ ε α} (emits : program.Emits allowed)
    : program.Satisfies pre allowed (fun _ _ => True) (fun _ _ => True) :=
  Satisfies.consequence emits (fun _ _ => trivial) (fun _ _ admitted => admitted)
    (fun _ _ holds => holds) (fun _ _ holds => holds)

theorem emits_fetch {wrap : String → ε} {look : σ → α}
    : (fetch wrap look : Program σ ε α).Emits allowed :=
  satisfies_fetch (fun _ _ => trivial) (fun _ _ _ => trivial)

theorem emits_perform {update : υ} (admitted : ∀ state, allowed state update)
    : (perform update : Program σ ε Unit).Emits allowed :=
  satisfies_perform (fun state _ => admitted state) (fun _ _ => trivial)

theorem emits_persist {wrap : String → ε} {update : υ} (admitted : ∀ state, allowed state update)
    : (persist wrap update : Program σ ε Unit).Emits allowed :=
  satisfies_persist (fun state _ => admitted state) (fun _ _ => trivial) (fun _ _ _ => trivial)

/-- Catching an error makes no update of its own. -/
theorem Emits.attempt {program : Program σ ε α} (emits : program.Emits allowed)
    : (attempt program : Program σ ε' (Except ε α)).Emits allowed :=
  Satisfies.attempt emits

/-- Renaming an error makes no update of its own. -/
theorem Emits.mapError {program : Program σ ε α} {rename : ε → ε'}
    (emits : program.Emits allowed)
    : (mapError rename program).Emits allowed :=
  Satisfies.mapError emits

-----------------------------------------------------------------------------------------
-- Composition
-----------------------------------------------------------------------------------------

omit [Updates σ υ]

/-- The program is put together from such parts, in sequence and with errors handed on as values. -/
inductive Composed
    (part : ∀ α : Type, Program σ ε α → Prop) : ∀ α : Type, Program σ ε α → Prop where
  | single {α : Type} {program : Program σ ε α} (is : part α program) : Composed part α program
  | bind {α β : Type} {first : Program σ ε α} {next : α → Program σ ε β}
    (head : Composed part α first) (tail : ∀ value, Composed part β (next value))
    : Composed part β (first >>= next)
  | attempt {α : Type} {program : Program σ ε α} (inner : Composed part α program)
    : Composed part (Except ε α) (Program.attempt program)

variable {part : ∀ α : Type, Program σ ε α → Prop}

theorem Composed.map {program : Program σ ε α} (composed : Composed part α program)
    (pures : ∀ value : β, part β (Pure.pure value)) (change : α → β)
    : Composed part β (change <$> program) := by
  rw [map_eq_pure_bind]
  exact .bind composed fun value => .single (pures (change value))

/-- What every part keeps of the state and the faults ahead the whole program keeps, by induction
on how it is composed.
-/
theorem Composed.keeps {good : σ → List Fault → Prop} {program : Program σ ε α}
    (composed : Composed part α program)
    (kept : ∀ (α : Type) (program : Program σ ε α), part α program → ∀ state faults, good state faults
      → good (program state faults).2.1 (program state faults).2.2)
    {state : σ} {faults : List Fault} (holds : good state faults)
    : good (program state faults).2.1 (program state faults).2.2 := by
  induction composed generalizing state faults with
  | single is => exact kept _ _ is state faults holds
  | @bind α β first next head tail headKeeps tailKeeps =>
      have middle := headKeeps holds
      rw [bind_run]
      rcases ran : first state faults with ⟨value | error | _, last, rest⟩
      all_goals rw [ran] at middle
      · exact tailKeeps value middle
      · exact middle
      · exact middle
  | @attempt α program inner keeps =>
      have last := keeps holds
      rw [Program.attempt]
      rcases ran : program state faults with ⟨value | error | _, after, rest⟩
      all_goals
        rw [ran] at last
        exact last

end Program

end VerticalAI.Foundation
