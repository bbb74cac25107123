import VerticalAI.Foundation.Counter
import VerticalAI.Kernel.StopEffects

/-! What a kernel files under ids, as a caller sees it that names every id by the call it was
returned from. The ids themselves are left out of sight, and so is what their numbers are.
-/

namespace VerticalAI.Stub
open VerticalAI.Foundation VerticalAI.Contracts VerticalAI.Kernel

/-- What a kernel files under ids, and the last number it put in one. -/
structure Holdings where
  registers : Table Register
  stops : StopSet
  counter : Nat

/-- The ids that the calls of a script returned. -/
abbrev Naming := Nat → Option String

/-- An id whose number was used up. -/
def UsedUp (counter : Nat) (id : String) : Prop :=
  ∃ stem nodeId number, id = mintedId stem nodeId number ∧ number.toNat ≤ counter

/-- An id that was used up stays so while the counter goes up. -/
theorem UsedUp.mono {counter later : Nat} {id : String} (used : UsedUp counter id)
    (grown : counter ≤ later)
    : UsedUp later id := by
  obtain ⟨stem, nodeId, number, minted, below⟩ := used
  exact ⟨stem, nodeId, number, minted, below.trans grown⟩

/-- An id with a number above those used up is new. -/
theorem UsedUp.fresh {counter : Nat} {number : UInt64} {stem nodeId : String}
    (above : counter < number.toNat)
    : ¬UsedUp counter (mintedId stem nodeId number) := by
  rintro ⟨other, otherNode, used, minted, below⟩
  rw [mintedId_number minted] at above
  omega

/-- Names are apart and used up, and whatever is filed is filed under a name. -/
structure Holdings.Sound (held : Holdings) (name : Naming) : Prop where
  used : ∀ handle id, name handle = some id → UsedUp held.counter id
  apart : ∀ handle other id, name handle = some id → name other = some id → handle = other
  register : ∀ (id : String) (reg : Register), held.registers[id]? = some reg
    → reg.id.text = id ∧ ∃ handle, name handle = some id
  stop : ∀ (id : String) (event : StopEvent), held.stops.stops[id]? = some event
    → event.id = id ∧ ∃ handle, name handle = some id
  resume : ∀ (id : String) (event : ResumeEvent), held.stops.resumes[id]? = some event
    → UsedUp held.counter id ∧ ∃ handle, name handle = some event.cites

-----------------------------------------------------------------------------------------
-- The caller's view
-----------------------------------------------------------------------------------------

/-- What a caller can tell of every name: whether there is one, the label of the register and the
scope of the STOP it names, and whether that STOP was lifted.
-/
structure View where
  named : Nat → Bool
  label : Nat → Option Label
  scope : Nat → Option String
  lifted : Nat → Bool

namespace View

/-- A call returned a new name. -/
def grant (view : View) (handle : Nat) : View :=
  { view with named := Function.update view.named handle true }

/-- A register was written. -/
def write (view : View) (handle : Nat) (label : Label) : View :=
  { view with label := Function.update view.label handle (some label) }

/-- A STOP was issued. -/
def halt (view : View) (handle : Nat) (scope : String) : View :=
  { view with scope := Function.update view.scope handle (some scope) }

/-- A STOP was lifted. -/
def lift (view : View) (handle : Nat) : View :=
  { view with lifted := Function.update view.lifted handle true }

end View

def Holdings.view (held : Holdings) (name : Naming) : View where
  named handle := (name handle).isSome
  label handle := (name handle).bind fun id => held.registers[id]?.map (·.label)
  scope handle := (name handle).bind fun id => held.stops.stops[id]?.map (·.scope)
  lifted handle := (name handle).any held.stops.resumed

namespace Holdings

variable {held : Holdings} {name : Naming} {handle : Nat} {id : String}

theorem view_label (held : Holdings) (names : name handle = some id)
    : (held.view name).label handle = held.registers[id]?.map (·.label) := by
  simp only [view, names, Option.bind_some]

theorem view_scope (held : Holdings) (names : name handle = some id)
    : (held.view name).scope handle = held.stops.stops[id]?.map (·.scope) := by
  simp only [view, names, Option.bind_some]

theorem view_lifted (held : Holdings) (names : name handle = some id)
    : (held.view name).lifted handle = held.stops.resumed id := by
  simp only [view, names, Option.any_some]

/-- A STOP that is named is known exactly if the caller sees its scope. -/
theorem hasStop_eq (held : Holdings) (names : name handle = some id)
    : held.stops.hasStop id = ((held.view name).scope handle).isSome := by
  rw [view_scope held names, Option.isSome_map, StopSet.hasStop,
    Std.ExtTreeMap.isSome_getElem?_eq_contains]

namespace Sound

variable (sound : held.Sound name)
include sound

/-- A scope is stopped exactly if the caller sees a STOP of it that was not lifted. -/
theorem stopped_iff (scope : String)
    : held.stops.stopped scope = true
      ↔ ∃ handle, (held.view name).scope handle = some scope
          ∧ (held.view name).lifted handle = false := by
  rw [StopSet.stopped_iff]
  constructor
  · rintro ⟨id, event, filed, rfl, live⟩
    obtain ⟨rfl, handle, names⟩ := sound.stop id event filed
    refine ⟨handle, ?_, ?_⟩
    · rw [view_scope held names, filed, Option.map_some]
    · rw [view_lifted held names, live]
  · rintro ⟨handle, inScope, live⟩
    cases names : name handle with
    | none =>
        simp only [view, names, Option.bind_none, reduceCtorEq] at inScope
    | some id =>
        rw [view_scope held names, Option.map_eq_some_iff] at inScope
        rw [view_lifted held names] at live
        obtain ⟨event, filed, rfl⟩ := inScope
        obtain ⟨rfl, -⟩ := sound.stop id event filed
        exact ⟨event.id, event, filed, rfl, live⟩

-----------------------------------------------------------------------------------------
-- What calls do
-----------------------------------------------------------------------------------------

/-- Numbers may be used up without being returned. -/
theorem count {later : Nat} (grown : held.counter ≤ later)
    : { held with counter := later }.Sound name where
  used handle id names := (sound.used handle id names).mono grown
  apart := sound.apart
  register := sound.register
  stop := sound.stop
  resume id event filed :=
    ⟨(sound.resume id event filed).1.mono grown, (sound.resume id event filed).2⟩

/-- An id that is new names nothing. -/
theorem unused (new : ¬UsedUp held.counter id)
    : held.registers[id]? = none ∧ held.stops.stops[id]? = none ∧ held.stops.resumes[id]? = none
      ∧ held.stops.resumed id = false := by
  have unnamed {handle : Nat} (names : name handle = some id) : False :=
    new (sound.used handle id names)
  refine ⟨?_, ?_, ?_, ?_⟩
  · refine Option.eq_none_iff_forall_ne_some.mpr fun reg filed => ?_
    obtain ⟨-, handle, names⟩ := sound.register id reg filed
    exact unnamed names
  · refine Option.eq_none_iff_forall_ne_some.mpr fun event filed => ?_
    obtain ⟨-, handle, names⟩ := sound.stop id event filed
    exact unnamed names
  · refine Option.eq_none_iff_forall_ne_some.mpr fun event filed => ?_
    exact new (sound.resume id event filed).1
  · refine Bool.eq_false_iff.mpr fun lifted => ?_
    obtain ⟨key, event, filed, rfl⟩ := StopSet.resumed_iff.mp lifted
    obtain ⟨-, handle, names⟩ := sound.resume key event filed
    exact unnamed names

/-- A new id is returned. -/
theorem grant (free : name handle = none) {stem nodeId : String} {number : UInt64}
    (above : held.counter < number.toNat)
    : { held with counter := number.toNat }.Sound
        (Function.update name handle (some (mintedId stem nodeId number))) := by
  have new : ¬UsedUp held.counter (mintedId stem nodeId number) := UsedUp.fresh above
  have kept {other : Nat} {id : String} (names : name other = some id)
      : Function.update name handle (some (mintedId stem nodeId number)) other = some id := by
    rw [Function.update_of_ne, names]
    rintro rfl
    rw [free] at names
    cases names
  constructor
  · intro other id names
    by_cases same : other = handle
    · subst same
      rw [Function.update_self, Option.some.injEq] at names
      exact ⟨stem, nodeId, number, names.symm, le_rfl⟩
    · rw [Function.update_of_ne same] at names
      exact (sound.used other id names).mono above.le
  · intro first second id names also
    by_cases same : first = handle
    · subst same
      by_cases equal : second = first
      · exact equal.symm
      · rw [Function.update_self, Option.some.injEq] at names
        rw [Function.update_of_ne equal] at also
        exact absurd (names ▸ sound.used second id also) new
    · rw [Function.update_of_ne same] at names
      by_cases equal : second = handle
      · subst equal
        rw [Function.update_self, Option.some.injEq] at also
        exact absurd (also ▸ sound.used first id names) new
      · rw [Function.update_of_ne equal] at also
        exact sound.apart first second id names also
  · intro id reg filed
    obtain ⟨own, other, names⟩ := sound.register id reg filed
    exact ⟨own, other, kept names⟩
  · intro id event filed
    obtain ⟨own, other, names⟩ := sound.stop id event filed
    exact ⟨own, other, kept names⟩
  · intro id event filed
    obtain ⟨used, other, names⟩ := sound.resume id event filed
    exact ⟨used.mono above.le, other, kept names⟩

/-- The caller sees a new name and nothing under it. -/
theorem view_grant (free : name handle = none) (new : ¬UsedUp held.counter id) (counter : Nat)
    : { held with counter }.view (Function.update name handle (some id))
      = (held.view name).grant handle := by
  obtain ⟨noRegister, noStop, -, notLifted⟩ := sound.unused new
  simp only [view, View.grant, View.mk.injEq]
  refine ⟨?_, ?_, ?_, ?_⟩
  all_goals
    funext other
    by_cases same : other = handle
  · subst same
    simp only [Function.update_self, Option.isSome_some]
  · simp only [Function.update_of_ne same]
  · subst same
    simp only [Function.update_self, Option.bind_some, noRegister, Option.map_none, free,
      Option.bind_none]
  · simp only [Function.update_of_ne same]
  · subst same
    simp only [Function.update_self, Option.bind_some, noStop, Option.map_none, free,
      Option.bind_none]
  · simp only [Function.update_of_ne same]
  · subst same
    simp only [Function.update_self, Option.any_some, notLifted, free, Option.any_none]
  · simp only [Function.update_of_ne same]

/-- A register is written under its name. -/
theorem write (names : name handle = some id) {reg : Register} (own : reg.id.text = id)
    : { held with registers := held.registers.insert id reg }.Sound name where
  used := sound.used
  apart := sound.apart
  register other found filed := by
    rcases Table.getElem?_insert_inv filed with ⟨rfl, rfl⟩ | before
    · exact ⟨own, handle, names⟩
    · exact sound.register other found before
  stop := sound.stop
  resume := sound.resume

/-- Writing a register shows under the handle that names it, and under no other. -/
theorem view_write (names : name handle = some id) (reg : Register)
    : { held with registers := held.registers.insert id reg }.view name
      = (held.view name).write handle reg.label := by
  simp only [view, View.write, View.mk.injEq, true_and, and_true]
  funext other
  by_cases same : other = handle
  · subst same
    simp only [names, Option.bind_some, Std.ExtTreeMap.getElem?_insert_self, Option.map_some,
      Function.update_self]
  · rw [Function.update_of_ne same]
    cases found : name other with
    | none => rfl
    | some key =>
        have different : key ≠ id := by
          rintro rfl
          exact same (sound.apart other handle key found names)
        simp only [Option.bind_some, Table.getElem?_insert_ne different]

/-- A STOP is filed under its name. -/
theorem halt {event : StopEvent} (names : name handle = some event.id)
    : { held with
        stops := { held.stops with stops := held.stops.stops.insert event.id event } }.Sound
          name where
  used := sound.used
  apart := sound.apart
  register := sound.register
  stop other found filed := by
    rcases Table.getElem?_insert_inv filed with ⟨rfl, rfl⟩ | before
    · exact ⟨rfl, handle, names⟩
    · exact sound.stop other found before
  resume := sound.resume

/-- A STOP that is added shows under the handle that names it. -/
theorem view_halt {event : StopEvent} (names : name handle = some event.id)
    : { held with
        stops := { held.stops with stops := held.stops.stops.insert event.id event } }.view name
      = (held.view name).halt handle event.scope := by
  simp only [view, View.halt, View.mk.injEq, true_and]
  refine ⟨?_, rfl⟩
  funext other
  by_cases same : other = handle
  · subst same
    simp only [names, Option.bind_some, Std.ExtTreeMap.getElem?_insert_self, Option.map_some,
      Function.update_self]
  · rw [Function.update_of_ne same]
    cases found : name other with
    | none => rfl
    | some key =>
        have different : key ≠ event.id := by
          rintro rfl
          exact same (sound.apart other handle _ found names)
        simp only [Option.bind_some, Table.getElem?_insert_ne different]

/-- A RESUME is filed under an id that nobody is told. -/
theorem lift {event : ResumeEvent} (names : name handle = some event.cites)
    {stem nodeId : String} {number : UInt64} (minted : event.id = mintedId stem nodeId number)
    (above : held.counter < number.toNat)
    : ({ held with
        stops := { held.stops with resumes := held.stops.resumes.insert event.id event }
        counter := number.toNat } : Holdings).Sound name where
  used other id found := (sound.used other id found).mono above.le
  apart := sound.apart
  register := sound.register
  stop := sound.stop
  resume other found filed := by
    rcases Table.getElem?_insert_inv filed with ⟨rfl, rfl⟩ | before
    · exact ⟨⟨stem, nodeId, number, minted, le_rfl⟩, handle, names⟩
    · obtain ⟨used, cited⟩ := sound.resume other found before
      exact ⟨used.mono above.le, cited⟩

/-- A RESUME that is added shows as the lifting of the STOP that it cites. -/
theorem view_lift {event : ResumeEvent} (names : name handle = some event.cites)
    (new : ¬UsedUp held.counter event.id) (counter : Nat)
    : ({ held with
        stops := { held.stops with resumes := held.stops.resumes.insert event.id event }
        counter } : Holdings).view name
      = (held.view name).lift handle := by
  obtain ⟨-, -, noResume, -⟩ := sound.unused new
  have resumed (id : String)
      : ({ held.stops with resumes := held.stops.resumes.insert event.id event }
          : StopSet).resumed id = (held.stops.resumed id || decide (event.cites = id)) := by
    rw [Bool.eq_iff_iff, Bool.or_eq_true, decide_eq_true_eq, StopSet.resumed_iff,
      StopSet.resumed_iff]
    constructor
    · rintro ⟨key, found, filed, rfl⟩
      rcases Table.getElem?_insert_inv filed with ⟨-, rfl⟩ | before
      · exact Or.inr rfl
      · exact Or.inl ⟨key, found, before, rfl⟩
    · rintro (⟨key, found, filed, rfl⟩ | rfl)
      · have different : key ≠ event.id := by
          rintro rfl
          rw [noResume] at filed
          cases filed
        exact ⟨key, found, by rw [Table.getElem?_insert_ne different, filed], rfl⟩
      · exact ⟨event.id, event, Std.ExtTreeMap.getElem?_insert_self, rfl⟩
  simp only [view, View.lift, View.mk.injEq, true_and]
  funext other
  by_cases same : other = handle
  · subst same
    simp only [names, Option.any_some, resumed, decide_true, Bool.or_true, Function.update_self]
  · rw [Function.update_of_ne same]
    cases found : name other with
    | none => rfl
    | some key =>
        have different : event.cites ≠ key := by
          rintro rfl
          exact same (sound.apart other handle _ found names)
        simp only [Option.any_some, resumed, different, decide_false, Bool.or_false]

/-- A register is filed under an id that is returned. -/
theorem submit (free : name handle = none) {stem nodeId : String} {number : UInt64} {later : Nat}
    (above : held.counter < number.toNat) (grown : number.toNat ≤ later) {reg : Register}
    (own : reg.id.text = mintedId stem nodeId number)
    : ({ held with
        registers := held.registers.insert reg.id.text reg
        counter := later } : Holdings).Sound (Function.update name handle (some reg.id.text))
      ∧ ({ held with
          registers := held.registers.insert reg.id.text reg
          counter := later } : Holdings).view (Function.update name handle (some reg.id.text))
        = ((held.view name).grant handle).write handle reg.label := by
  have new : ¬UsedUp held.counter reg.id.text := own ▸ UsedUp.fresh above
  have minted : { held with counter := number.toNat }.Sound
      (Function.update name handle (some (mintedId stem nodeId number))) := sound.grant free above
  have granted := minted.count grown
  rw [← own] at granted
  have seen := sound.view_grant free new later
  have names : Function.update name handle (some reg.id.text) handle = some reg.id.text :=
    Function.update_self handle _ name
  refine ⟨granted.write names rfl, ?_⟩
  rw [← seen]
  exact granted.view_write names reg

/-- A STOP is filed under an id that is returned. -/
theorem issue (free : name handle = none) {stem nodeId : String} {number : UInt64}
    (above : held.counter < number.toNat) {event : StopEvent}
    (own : event.id = mintedId stem nodeId number)
    : ({ held with
        stops := { held.stops with stops := held.stops.stops.insert event.id event }
        counter := number.toNat } : Holdings).Sound (Function.update name handle (some event.id))
      ∧ ({ held with
          stops := { held.stops with stops := held.stops.stops.insert event.id event }
          counter := number.toNat } : Holdings).view (Function.update name handle (some event.id))
        = ((held.view name).grant handle).halt handle event.scope := by
  have new : ¬UsedUp held.counter event.id := own ▸ UsedUp.fresh above
  have granted : { held with counter := number.toNat }.Sound
      (Function.update name handle (some (mintedId stem nodeId number))) := sound.grant free above
  rw [← own] at granted
  have seen := sound.view_grant free new number.toNat
  have names : Function.update name handle (some event.id) handle = some event.id :=
    Function.update_self handle _ name
  refine ⟨granted.halt names, ?_⟩
  rw [← seen]
  exact granted.view_halt names

end Sound

end Holdings

end VerticalAI.Stub
