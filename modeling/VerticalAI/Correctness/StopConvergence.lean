import Mathlib.Data.Set.Basic
import VerticalAI.Contracts.Stop

/-! STOP sets of several nodes converge: merging is a union of events, whatever the order, and a
scope is stopped exactly while some STOP for it is cited by no RESUME.
-/

namespace VerticalAI.Correctness
open VerticalAI.Foundation VerticalAI.Contracts

/-- The sets that adding events and merging lead to. -/
inductive StopSetReachable : StopSet → Prop where
  | empty : StopSetReachable {}
  | stop {set added : StopSet} {event : StopEvent} (reached : StopSetReachable set)
      (ran : set.tryAddStop event = .ok added)
      : StopSetReachable added
  | resume {set added : StopSet} {event : ResumeEvent} (reached : StopSetReachable set)
      (ran : set.addResume event = .ok added)
      : StopSetReachable added
  | merge {set other : StopSet} (reached : StopSetReachable set)
      (otherReached : StopSetReachable other)
      : StopSetReachable (set.merge other)

theorem StopSetReachable.sound {set : StopSet} (reached : StopSetReachable set) : set.Sound := by
  induction reached with
  | empty => exact StopSet.sound_empty
  | stop _ ran ih => exact ih.tryAddStop ran
  | resume _ ran ih => exact ih.addResume ran
  | merge _ _ ih otherIh => exact ih.merge otherIh

/-- In no two sets of a family does an id name two different events. -/
structure NamesOnce (family : Set StopSet) : Prop where
  stops : ∀ set ∈ family, ∀ other ∈ family, set.stops.Compatible other.stops
  resumes : ∀ set ∈ family, ∀ other ∈ family, set.resumes.Compatible other.resumes

/-- An order and grouping in which sets are merged. -/
inductive MergeTree where
  | leaf (set : StopSet)
  | node (left right : MergeTree)

namespace MergeTree

def leaves : MergeTree → List StopSet
  | leaf set => [set]
  | node left right => left.leaves ++ right.leaves

def merged : MergeTree → StopSet
  | leaf set => set
  | node left right => left.merged.merge right.merged

end MergeTree

/-- Some of the sets has a STOP for the scope that no RESUME of any of them cites. -/
def LiveIn (sets : List StopSet) (scope : String) : Prop :=
  ∃ set ∈ sets, ∃ (id : String) (stop : StopEvent),
    set.stops[id]? = some stop ∧ stop.scope = scope
    ∧ ∀ other ∈ sets, other.resumed stop.id = false

section Family

variable {family : Set StopSet}

theorem NamesOnce.merge_comm (named : NamesOnce family) {set other : StopSet}
    (member : set ∈ family) (otherMember : other ∈ family) (sound : set.Sound)
    (otherSound : other.Sound)
    : set.merge other = other.merge set := by
  have stops := Table.addMissing_comm (named.stops set member other otherMember)
  have resumes := Table.addMissing_comm (named.resumes set member other otherMember)
  rw [← StopSet.merge_resumes set otherSound, ← StopSet.merge_resumes other sound] at resumes
  exact congrArg₂ StopSet.mk stops resumes

theorem merge_assoc {first second third : StopSet} (sound : second.Sound) (thirdSound : third.Sound)
    : (first.merge second).merge third = first.merge (second.merge third) := by
  have stops := Table.addMissing_assoc first.stops second.stops third.stops
  have resumes := Table.addMissing_assoc first.resumes second.resumes third.resumes
  rw [← StopSet.merge_resumes first sound, ← StopSet.merge_resumes second thirdSound,
    ← StopSet.merge_resumes first (sound.merge thirdSound),
    ← StopSet.merge_resumes (first.merge second) thirdSound] at resumes
  exact congrArg₂ StopSet.mk stops resumes

theorem merge_self {set : StopSet} (sound : set.Sound) : set.merge set = set := by
  have resumes := Table.addMissing_self set.resumes
  rw [← StopSet.merge_resumes set sound] at resumes
  exact congrArg₂ StopSet.mk (Table.addMissing_self set.stops) resumes

/-- What a merge in any order and grouping holds: the events of its sets, all of them. -/
structure Gathers (tree : MergeTree) : Prop where
  sound : tree.merged.Sound
  stops : ∀ (id : String) stop,
    tree.merged.stops[id]? = some stop ↔ ∃ set ∈ tree.leaves, set.stops[id]? = some stop
  resumes : ∀ (id : String) resume,
    tree.merged.resumes[id]? = some resume ↔ ∃ set ∈ tree.leaves, set.resumes[id]? = some resume

/-- Merging gathers the events, by induction on the order in which sets are merged. -/
theorem NamesOnce.gathers (named : NamesOnce family)
    (sound : ∀ set ∈ family, set.Sound) (tree : MergeTree)
    (members : ∀ set ∈ tree.leaves, set ∈ family)
    : Gathers tree := by
  induction tree with
  | leaf set =>
      refine ⟨sound set (members set (List.mem_singleton_self _)), fun id stop => ?_,
        fun id resume => ?_⟩
      · simp only [MergeTree.leaves, MergeTree.merged, List.mem_singleton, exists_eq_left]
      · simp only [MergeTree.leaves, MergeTree.merged, List.mem_singleton, exists_eq_left]
  | node left right leftIh rightIh =>
      have leftMembers : ∀ set ∈ left.leaves, set ∈ family :=
        fun set member => members set (List.mem_append_left _ member)
      have rightMembers : ∀ set ∈ right.leaves, set ∈ family :=
        fun set member => members set (List.mem_append_right _ member)
      have first := leftIh leftMembers
      have second := rightIh rightMembers
      refine ⟨first.sound.merge second.sound, fun id stop => ?_, fun id resume => ?_⟩
      · have compatible : left.merged.stops.Compatible right.merged.stops := by
          intro key row found held there
          obtain ⟨set, member, inSet⟩ := (first.stops key row).mp held
          obtain ⟨other, otherMember, inOther⟩ := (second.stops key found).mp there
          exact named.stops set (leftMembers set member) other (rightMembers other otherMember)
            key row found inSet inOther
        have either : (left.merged.merge right.merged).stops[id]? = some stop
            ↔ left.merged.stops[id]? = some stop ∨ right.merged.stops[id]? = some stop :=
          Table.getElem?_addMissing_iff compatible
        rw [first.stops, second.stops] at either
        simpa only [MergeTree.merged, MergeTree.leaves, List.mem_append, or_and_right, exists_or]
          using either
      · have compatible : left.merged.resumes.Compatible right.merged.resumes := by
          intro key row found held there
          obtain ⟨set, member, inSet⟩ := (first.resumes key row).mp held
          obtain ⟨other, otherMember, inOther⟩ := (second.resumes key found).mp there
          exact named.resumes set (leftMembers set member) other (rightMembers other otherMember)
            key row found inSet inOther
        have either : (left.merged.merge right.merged).resumes[id]? = some resume
            ↔ left.merged.resumes[id]? = some resume ∨ right.merged.resumes[id]? = some resume := by
          rw [StopSet.merge_resumes left.merged second.sound]
          exact Table.getElem?_addMissing_iff compatible
        rw [first.resumes, second.resumes] at either
        simpa only [MergeTree.merged, MergeTree.leaves, List.mem_append, or_and_right, exists_or]
          using either

/-- In what was gathered, a STOP is resumed if some of the sets resumed it. -/
theorem Gathers.resumed_eq_false {tree : MergeTree} (gathers : Gathers tree) {stopId : String}
    : tree.merged.resumed stopId = false ↔ ∀ set ∈ tree.leaves, set.resumed stopId = false := by
  simp only [← Bool.not_eq_true, StopSet.resumed_iff, gathers.resumes]
  constructor
  · intro none set member ⟨id, resume, held, cites⟩
    exact none ⟨id, resume, ⟨set, member, held⟩, cites⟩
  · intro none ⟨id, resume, ⟨set, member, held⟩, cites⟩
    exact none set member ⟨id, resume, held, cites⟩

theorem Gathers.stopped_iff {tree : MergeTree} (gathers : Gathers tree) {scope : String}
    : tree.merged.stopped scope = true ↔ LiveIn tree.leaves scope := by
  rw [StopSet.stopped_iff]
  simp only [gathers.stops, gathers.resumed_eq_false]
  constructor
  · intro ⟨id, stop, ⟨set, member, held⟩, fits, live⟩
    exact ⟨set, member, id, stop, held, fits, live⟩
  · intro ⟨set, member, id, stop, held, fits, live⟩
    exact ⟨id, stop, ⟨set, member, held⟩, fits, live⟩

/-- Sets in which an id names one event merge commutatively, associatively and idempotently; any
merge of them holds sound events, and what is stopped in it is what no RESUME of any set lifted.
-/
theorem stop_sets_converge (reached : ∀ set ∈ family, StopSetReachable set)
    (named : NamesOnce family)
    : (∀ first ∈ family, ∀ second ∈ family, ∀ third ∈ family,
        first.merge second = second.merge first
        ∧ (first.merge second).merge third = first.merge (second.merge third)
        ∧ first.merge first = first)
      ∧ ∀ tree : MergeTree, (∀ set ∈ tree.leaves, set ∈ family)
        → tree.merged.Sound
          ∧ ∀ scope,
              (tree.merged.stopped scope = true ↔ LiveIn tree.leaves scope)
              ∧ (scope ∈ tree.merged.stoppedScopes ↔ LiveIn tree.leaves scope) := by
  have sound : ∀ set ∈ family, set.Sound := fun set member => (reached set member).sound
  constructor
  · intro first firstMember second secondMember third thirdMember
    exact ⟨named.merge_comm firstMember secondMember (sound _ firstMember) (sound _ secondMember),
      merge_assoc (sound _ secondMember) (sound _ thirdMember), merge_self (sound _ firstMember)⟩
  · intro tree members
    have gathers := named.gathers sound tree members
    refine ⟨gathers.sound, fun scope => ⟨gathers.stopped_iff, ?_⟩⟩
    rw [StopSet.mem_stoppedScopes, gathers.stopped_iff]

end Family

section Run

private def haltEvent : StopEvent := ⟨"s", "node", .human "phone", 1, []⟩

private def liftEvent : ResumeEvent := ⟨"r", "s", .human "phone", 2⟩

private def haltedSet : StopSet := { stops := (∅ : Table StopEvent).insert "s" haltEvent }

private def liftedSet : StopSet :=
  { haltedSet with resumes := (∅ : Table ResumeEvent).insert "r" liftEvent }

/-- A STOP in one set that another set lifted is lifted in their merge. -/
theorem stop_sets_converge_after_lift
    : ((haltedSet.merge liftedSet).stopped "node" = true
        ↔ LiveIn [haltedSet, liftedSet] "node") := by
  have halted : StopSetReachable haltedSet :=
    StopSetReachable.empty.stop (by rfl : ({} : StopSet).tryAddStop haltEvent = .ok haltedSet)
  have lifted : StopSetReachable liftedSet :=
    halted.resume (by rfl : haltedSet.addResume liftEvent = .ok liftedSet)
  have reached : ∀ set ∈ ({haltedSet, liftedSet} : Set StopSet), StopSetReachable set := by
    rintro set (rfl | rfl)
    · exact halted
    · exact lifted
  have same {α : Type} (table : Table α) : table.Compatible table :=
    fun _ _ _ held there => Option.some.inj (held.symm.trans there)
  have named : NamesOnce ({haltedSet, liftedSet} : Set StopSet) := by
    constructor
    · rintro set (rfl | rfl) other (rfl | rfl) <;> exact same (haltedSet.stops)
    · rintro set (rfl | rfl) other (rfl | rfl)
      · exact same _
      · exact fun _ _ _ held => by simp [haltedSet] at held
      · exact fun _ _ _ _ there => by simp [haltedSet] at there
      · exact same _
  have converge := (stop_sets_converge reached named).2 (.node (.leaf haltedSet) (.leaf liftedSet))
    fun set member => by
      rcases List.mem_cons.mp member with rfl | last
      · exact Or.inl rfl
      · exact Or.inr (List.mem_singleton.mp last)
  exact (converge.2 "node").1

end Run

end VerticalAI.Correctness
