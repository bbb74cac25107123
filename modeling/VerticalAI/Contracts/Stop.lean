import Std.Data.ExtTreeSet
import VerticalAI.Contracts.Principal

/-! STOP as a kernel primitive, and the autonomy liveness lease. -/

namespace VerticalAI.Contracts
open VerticalAI.Foundation

structure StopEvent where
  id : String
  scope : String
  issuer : Principal
  hlcMs : UInt64
  causalHeads : List String
  deriving DecidableEq, Repr

structure ResumeEvent where
  id : String
  cites : String
  issuer : Principal
  hlcMs : UInt64
  deriving DecidableEq, Repr

structure LivenessLease where
  business : String
  renewedByDevice : String
  expiresAtMs : UInt64
  deriving DecidableEq, Repr

def LivenessLease.alive (lease : LivenessLease) (nowMs : UInt64) : Bool :=
  nowMs < lease.expiresAtMs

inductive StopError where
  | notHuman
  | unknownStop
  deriving DecidableEq, Repr

def StopError.text : StopError → String
  | .notHuman => "STOP and RESUME require a human principal"
  | .unknownStop => "RESUME cites an unknown STOP"

/-- Grow-only sets; what is stopped is a function of both. -/
structure StopSet where
  stops : Table StopEvent := ∅
  resumes : Table ResumeEvent := ∅

namespace StopSet

def tryAddStop (set : StopSet) (event : StopEvent) : Except StopError StopSet :=
  if event.issuer.isHuman then .ok { set with stops := set.stops.insert event.id event }
  else .error .notHuman

def addResume (set : StopSet) (event : ResumeEvent) : Except StopError StopSet :=
  if ¬event.issuer.isHuman then .error .notHuman
  else if ¬set.stops.contains event.cites then .error .unknownStop
  else .ok { set with resumes := set.resumes.insert event.id event }

def hasStop (set : StopSet) (stopId : String) : Bool := set.stops.contains stopId

/-- Some RESUME cites this STOP. -/
def resumed (set : StopSet) (stopId : String) : Bool :=
  set.resumes.list.any fun row => row.2.cites = stopId

/-- Every scope a live STOP holds, sorted and without duplicates. -/
def stoppedScopes (set : StopSet) : List String :=
  (Std.ExtTreeSet.ofList
    ((set.stops.list.filter fun row => !set.resumed row.2.id).map (·.2.scope)) compare).toList

def stopped (set : StopSet) (scope : String) : Bool :=
  set.stops.list.any fun row => row.2.scope = scope && !set.resumed row.2.id

/-- Union of both sets: what is missing is added, a RESUME only if its STOP is known by then. -/
def merge (set other : StopSet) : StopSet :=
  let stops := set.stops.addMissing other.stops
  { stops
    resumes := other.resumes.list.foldl
      (fun resumes row =>
        if stops.contains row.2.cites then resumes.insertIfNew row.1 row.2 else resumes)
      set.resumes }

/-- A STOP is lifted exactly if some RESUME cites it. -/
theorem resumed_iff {set : StopSet} {stopId : String}
    : set.resumed stopId = true
      ↔ ∃ (id : String) (resume : ResumeEvent),
          set.resumes[id]? = some resume ∧ resume.cites = stopId := by
  simp only [resumed, List.any_eq_true, decide_eq_true_eq, Prod.exists, Table.mem_list]

/-- A scope is stopped exactly if some STOP on it is not lifted. -/
theorem stopped_iff {set : StopSet} {scope : String}
    : set.stopped scope = true
      ↔ ∃ (id : String) (stop : StopEvent),
          set.stops[id]? = some stop ∧ stop.scope = scope ∧ set.resumed stop.id = false := by
  simp only [stopped, List.any_eq_true, Bool.and_eq_true, decide_eq_true_eq, Prod.exists,
    Table.mem_list, Bool.not_eq_true']

/-- The listed scopes are the stopped ones. -/
theorem mem_stoppedScopes {set : StopSet} {scope : String}
    : scope ∈ set.stoppedScopes ↔ set.stopped scope = true := by
  rw [stoppedScopes, Std.ExtTreeSet.mem_toList, Std.ExtTreeSet.mem_ofList, List.contains_iff_mem,
    List.mem_map, stopped_iff]
  simp only [List.mem_filter, Prod.exists, Table.mem_list, Bool.not_eq_true']
  constructor
  · intro ⟨id, stop, ⟨held, live⟩, named⟩
    exact ⟨id, stop, held, named, live⟩
  · intro ⟨id, stop, held, named, live⟩
    exact ⟨id, stop, ⟨held, live⟩, named⟩

/-- The list says no more than what is stopped. -/
theorem stoppedScopes_congr {set other : StopSet}
    (same : ∀ scope, set.stopped scope = other.stopped scope)
    : set.stoppedScopes = other.stoppedScopes := by
  refine congrArg Std.ExtTreeSet.toList (Std.ExtTreeSet.ext_mem fun scope => ?_)
  rw [← Std.ExtTreeSet.mem_toList, ← Std.ExtTreeSet.mem_toList]
  change scope ∈ set.stoppedScopes ↔ scope ∈ other.stoppedScopes
  rw [mem_stoppedScopes, mem_stoppedScopes, same]

/-- Stops by humans are all added, by induction on the rows. -/
theorem foldl_tryAddStop {rows : List (String × StopEvent)} (set : StopSet)
    (sound : ∀ row ∈ rows, row.2.id = row.1 ∧ row.2.issuer.isHuman = true)
    : rows.foldl (fun set row => (set.tryAddStop row.2).toOption.getD set) set
      = { set with
          stops := rows.foldl (fun stops row => stops.insert row.1 row.2) set.stops } := by
  induction rows generalizing set with
  | nil => rfl
  | cons row rest ih =>
      obtain ⟨named, human⟩ := sound row List.mem_cons_self
      have added : (set.tryAddStop row.2).toOption.getD set
          = { set with stops := set.stops.insert row.1 row.2 } := by
        rw [tryAddStop, if_pos human, named]
        rfl
      rw [List.foldl_cons, List.foldl_cons, added,
        ih _ fun other member => sound other (List.mem_cons_of_mem _ member)]

/-- Resumes by humans that cite known stops are all added, by induction on the rows. -/
theorem foldl_addResume {rows : List (String × ResumeEvent)} (set : StopSet)
    (sound : ∀ row ∈ rows, row.2.id = row.1 ∧ row.2.issuer.isHuman = true
      ∧ set.stops.contains row.2.cites = true)
    : rows.foldl (fun set row => (set.addResume row.2).toOption.getD set) set
      = { set with
          resumes := rows.foldl (fun resumes row => resumes.insert row.1 row.2)
            set.resumes } := by
  induction rows generalizing set with
  | nil => rfl
  | cons row rest ih =>
      obtain ⟨named, human, known⟩ := sound row List.mem_cons_self
      have added : (set.addResume row.2).toOption.getD set
          = { set with resumes := set.resumes.insert row.1 row.2 } := by
        simp only [addResume, human, known, not_true_eq_false, if_false, named]
        rfl
      rw [List.foldl_cons, List.foldl_cons, added]
      exact ih { set with resumes := set.resumes.insert row.1 row.2 }
        fun other member => sound other (List.mem_cons_of_mem _ member)

/-- Every event was issued by a human, and every RESUME cites a STOP that is kept. -/
structure Sound (set : StopSet) : Prop where
  stops : ∀ (id : String) stop, set.stops[id]? = some stop → stop.issuer.isHuman = true
  resumes : ∀ (id : String) resume, set.resumes[id]? = some resume
    → resume.issuer.isHuman = true ∧ set.stops.contains resume.cites = true

theorem sound_empty : ({} : StopSet).Sound :=
  ⟨fun _ _ held => by simp at held, fun _ _ held => by simp at held⟩

/-- A set stays sound when a STOP is added. -/
theorem Sound.tryAddStop {set added : StopSet} {event : StopEvent} (sound : set.Sound)
    (ran : set.tryAddStop event = .ok added)
    : added.Sound := by
  unfold StopSet.tryAddStop at ran
  split at ran
  · next human =>
      obtain rfl := Except.ok.inj ran
      constructor
      · intro id stop held
        rcases Table.getElem?_insert_inv held with ⟨-, rfl⟩ | before
        · exact human
        · exact sound.stops id stop before
      · intro id resume held
        have ⟨issued, known⟩ := sound.resumes id resume held
        refine ⟨issued, ?_⟩
        rw [Std.ExtTreeMap.contains_insert, known, Bool.or_true]
  · cases ran

/-- A set stays sound when a RESUME is added, since it cites a STOP that is there. -/
theorem Sound.addResume {set added : StopSet} {event : ResumeEvent} (sound : set.Sound)
    (ran : set.addResume event = .ok added)
    : added.Sound := by
  unfold StopSet.addResume at ran
  split at ran
  · cases ran
  · next human =>
      split at ran
      · cases ran
      · next known =>
          obtain rfl := Except.ok.inj ran
          refine ⟨sound.stops, fun id resume held => ?_⟩
          rcases Table.getElem?_insert_inv held with ⟨-, rfl⟩ | before
          · exact ⟨not_not.mp human, not_not.mp known⟩
          · exact sound.resumes id resume before

/-- The filter of a merge drops nothing: a RESUME comes with the STOP it cites. -/
theorem merge_resumes (set : StopSet) {other : StopSet} (sound : other.Sound)
    : (set.merge other).resumes = set.resumes.addMissing other.resumes := by
  refine List.foldl_ext _ _ _ fun resumes row member => ?_
  have ⟨_, known⟩ := sound.resumes row.1 row.2 (Table.mem_list.mp member)
  rw [if_pos]
  rw [Std.ExtTreeMap.contains_iff_mem, ← Std.ExtTreeMap.isSome_getElem?_iff_mem] at known ⊢
  rw [Table.getElem?_addMissing, Option.isSome_or, known, Bool.or_true]

/-- Two sound sets merge into a sound one. -/
theorem Sound.merge {set other : StopSet} (sound : set.Sound) (otherSound : other.Sound)
    : (set.merge other).Sound := by
  have either {α : Type} {table added : Table α} {key : String} {row : α}
      (held : (table.addMissing added)[key]? = some row)
      : table[key]? = some row ∨ added[key]? = some row := by
    rw [Table.getElem?_addMissing, Option.or_eq_some_iff] at held
    exact held.imp id And.right
  have known {id : String}
      (there : set.stops.contains id = true ∨ other.stops.contains id = true)
      : (set.merge other).stops.contains id = true := by
    simp only [Std.ExtTreeMap.contains_iff_mem, ← Std.ExtTreeMap.isSome_getElem?_iff_mem] at there ⊢
    rw [StopSet.merge, Table.getElem?_addMissing, Option.isSome_or, Bool.or_eq_true]
    exact there
  constructor
  · intro id stop held
    rcases either held with found | found
    · exact sound.stops id stop found
    · exact otherSound.stops id stop found
  · intro id resume held
    rw [merge_resumes set otherSound] at held
    rcases either held with found | found
    · exact ⟨(sound.resumes id resume found).1, known (Or.inl (sound.resumes id resume found).2)⟩
    · exact ⟨(otherSound.resumes id resume found).1,
        known (Or.inr (otherSound.resumes id resume found).2)⟩

end StopSet

end VerticalAI.Contracts
