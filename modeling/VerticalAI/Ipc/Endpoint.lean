import Mathlib.Data.List.Induction
import Mathlib.Logic.Function.Basic

/-! Daemons that start on one endpoint of a Unix system. A daemon takes the lock of its state
directory, then looks at the path of the endpoint, asks the socket it finds there whether anyone
answers, removes it if nobody does, and binds its own; each of these is one call of the system,
and other daemons act in between.
-/

namespace VerticalAI.Ipc

/-- What is at the path of an endpoint. -/
inductive Node where
  | socket (maker : Nat)
  | other
  deriving DecidableEq

/-- How far a daemon has come. -/
inductive Phase where
  | starting
  | found
  | stale
  | clear
  | bound
  | listening
  deriving DecidableEq

/-- A running daemon: the state directory whose lock it has, and how far it has come. -/
structure Started where
  stateDir : String
  phase : Phase

/-- The path of an endpoint, and the daemons that use it. No daemon is numbered like an earlier
one.
-/
structure Endpoint where
  path : Option Node
  daemons : Nat → Option Started := fun _ => none
  next : Nat

/-- What a daemon does, and whether the system fails it; or what befalls it. -/
inductive Move where
  | start (stateDir : String)
  | look (daemon : Nat) (failed : Bool)
  | connect (daemon : Nat) (failed : Bool)
  | remove (daemon : Nat) (failed : Bool)
  | bind (daemon : Nat) (failed : Bool)
  | listen (daemon : Nat) (failed : Bool)
  | exit (daemon : Nat)
  | powerLoss (kept : Bool)

namespace Endpoint

/-- An endpoint that no daemon uses yet, with what was left at its path. -/
def left (path : Option Node) : Endpoint where
  path
  next :=
    match path with
    | some (.socket maker) => maker + 1
    | _ => 0

def phase (endpoint : Endpoint) (daemon : Nat) : Option Phase :=
  (endpoint.daemons daemon).map (·.phase)

/-- The state directory of a running daemon. -/
def dirOf (endpoint : Endpoint) (daemon : Nat) : Option String :=
  (endpoint.daemons daemon).map (·.stateDir)

def Locked (endpoint : Endpoint) (stateDir : String) : Prop :=
  ∃ daemon < endpoint.next, endpoint.dirOf daemon = some stateDir

instance (endpoint : Endpoint) (stateDir : String) : Decidable (endpoint.Locked stateDir) :=
  inferInstanceAs (Decidable (∃ daemon < endpoint.next, _))

/-- A daemon listens on the socket at the path. -/
def answers (endpoint : Endpoint) : Bool :=
  match endpoint.path with
  | some (.socket maker) => endpoint.phase maker = some .listening
  | _ => false

/-- The daemon has come this far. -/
def enter (endpoint : Endpoint) (daemon : Nat) (phase : Phase) : Endpoint :=
  { endpoint with
    daemons := Function.update endpoint.daemons daemon
      ((endpoint.daemons daemon).map fun started => { started with phase }) }

/-- The daemon is gone, and its lock with it; a socket that it made stays. -/
def drop (endpoint : Endpoint) (daemon : Nat) : Endpoint :=
  { endpoint with daemons := Function.update endpoint.daemons daemon none }

/-- One more daemon has the lock of its state directory. -/
def enlist (endpoint : Endpoint) (stateDir : String) : Endpoint :=
  { endpoint with
    daemons := Function.update endpoint.daemons endpoint.next (some ⟨stateDir, .starting⟩)
    next := endpoint.next + 1 }

/-- A second daemon on a locked state directory is refused before it gets here. -/
def start (endpoint : Endpoint) (stateDir : String) : Endpoint :=
  if endpoint.Locked stateDir then endpoint else endpoint.enlist stateDir

/-- `symlink_metadata`: what cannot be looked at counts as absent, and what is no socket is
refused.
-/
def look (endpoint : Endpoint) (daemon : Nat) (failed : Bool) : Endpoint :=
  if failed then endpoint.enter daemon .clear
  else
    match endpoint.path with
    | none => endpoint.enter daemon .clear
    | some (.socket _) => endpoint.enter daemon .found
    | some .other => endpoint.drop daemon

/-- `UnixStream::connect`: whatever keeps it from connecting, the socket is taken for a stale
one.
-/
def connect (endpoint : Endpoint) (daemon : Nat) (failed : Bool) : Endpoint :=
  if endpoint.answers && !failed then endpoint.drop daemon else endpoint.enter daemon .stale

/-- `remove_file`: whatever is at the path by now. -/
def remove (endpoint : Endpoint) (daemon : Nat) (failed : Bool) : Endpoint :=
  if failed || endpoint.path.isNone then endpoint.drop daemon
  else { endpoint with path := none }.enter daemon .clear

/-- The directory is checked and the socket made; a path that is taken is refused. -/
def bind (endpoint : Endpoint) (daemon : Nat) (failed : Bool) : Endpoint :=
  if failed || endpoint.path.isSome then endpoint.drop daemon
  else { endpoint with path := some (.socket daemon) }.enter daemon .bound

/-- From here on who connects is let in. -/
def listen (endpoint : Endpoint) (daemon : Nat) (failed : Bool) : Endpoint :=
  if failed then endpoint.drop daemon else endpoint.enter daemon .listening

/-- A daemon makes its moves in order; what is not its move now does not happen. -/
def step (endpoint : Endpoint) : Move → Endpoint
  | .start stateDir => endpoint.start stateDir
  | .look daemon failed =>
      if endpoint.phase daemon = some .starting then endpoint.look daemon failed else endpoint
  | .connect daemon failed =>
      if endpoint.phase daemon = some .found then endpoint.connect daemon failed else endpoint
  | .remove daemon failed =>
      if endpoint.phase daemon = some .stale then endpoint.remove daemon failed else endpoint
  | .bind daemon failed =>
      if endpoint.phase daemon = some .clear then endpoint.bind daemon failed else endpoint
  | .listen daemon failed =>
      if endpoint.phase daemon = some .bound then endpoint.listen daemon failed else endpoint
  | .exit daemon => endpoint.drop daemon
  | .powerLoss kept =>
      { endpoint with path := if kept then endpoint.path else none, daemons := fun _ => none }

def run (endpoint : Endpoint) (moves : List Move) : Endpoint := moves.foldl step endpoint

theorem run_concat (endpoint : Endpoint) (moves : List Move) (move : Move)
    : endpoint.run (moves ++ [move]) = (endpoint.run moves).step move :=
  List.foldl_append

-----------------------------------------------------------------------------------------
-- What a move does
-----------------------------------------------------------------------------------------

@[simp] theorem phase_enter (endpoint : Endpoint) (daemon other : Nat) (phase : Phase)
    : (endpoint.enter daemon phase).phase other
      = if other = daemon then (endpoint.phase daemon).map fun _ => phase
        else endpoint.phase other := by
  by_cases same : other = daemon <;> simp [Endpoint.enter, Endpoint.phase, same, Function.comp_def]

@[simp] theorem dirOf_enter (endpoint : Endpoint) (daemon other : Nat) (phase : Phase)
    : (endpoint.enter daemon phase).dirOf other = endpoint.dirOf other := by
  by_cases same : other = daemon <;> simp [Endpoint.enter, Endpoint.dirOf, same, Function.comp_def]

@[simp] theorem phase_drop (endpoint : Endpoint) (daemon other : Nat)
    : (endpoint.drop daemon).phase other
      = if other = daemon then none else endpoint.phase other := by
  by_cases same : other = daemon <;> simp [Endpoint.drop, Endpoint.phase, same]

@[simp] theorem dirOf_drop (endpoint : Endpoint) (daemon other : Nat)
    : (endpoint.drop daemon).dirOf other
      = if other = daemon then none else endpoint.dirOf other := by
  by_cases same : other = daemon <;> simp [Endpoint.drop, Endpoint.dirOf, same]

@[simp] theorem phase_enlist (endpoint : Endpoint) (stateDir : String) (other : Nat)
    : (endpoint.enlist stateDir).phase other
      = if other = endpoint.next then some .starting else endpoint.phase other := by
  by_cases same : other = endpoint.next <;> simp [Endpoint.enlist, Endpoint.phase, same]

@[simp] theorem dirOf_enlist (endpoint : Endpoint) (stateDir : String) (other : Nat)
    : (endpoint.enlist stateDir).dirOf other
      = if other = endpoint.next then some stateDir else endpoint.dirOf other := by
  by_cases same : other = endpoint.next <;> simp [Endpoint.enlist, Endpoint.dirOf, same]

@[simp] theorem phase_at (endpoint : Endpoint) (path : Option Node) (daemon : Nat)
    : { endpoint with path }.phase daemon = endpoint.phase daemon := rfl

@[simp] theorem dirOf_at (endpoint : Endpoint) (path : Option Node) (daemon : Nat)
    : { endpoint with path }.dirOf daemon = endpoint.dirOf daemon := rfl

/-- The daemon made the socket of its number. -/
def Made (endpoint : Endpoint) (daemon : Nat) : Prop :=
  endpoint.phase daemon = some .bound ∨ endpoint.phase daemon = some .listening

/-- What a move may do: nothing; start a daemon on a directory that is not locked; bring one on
without touching the path; remove what is at the path; bind it; end a daemon; end them all.
-/
inductive Effect (endpoint : Endpoint) : Move → Endpoint → Prop where
  | idle {move : Move} : Effect endpoint move endpoint
  | started {stateDir : String} (unlocked : ¬endpoint.Locked stateDir)
      : Effect endpoint (.start stateDir) (endpoint.enlist stateDir)
  | moved {move : Move} {daemon : Nat} {before after : Phase}
      (was : endpoint.phase daemon = some before)
      (made : after = .listening ∧ before = .bound
        ∨ after = .found ∧ (∃ maker, endpoint.path = some (.socket maker)) ∧ before = .starting
        ∨ after = .clear ∧ before = .starting
        ∨ after = .stale ∧ before = .found
          ∧ ∃ failed, move = .connect daemon failed ∧ (failed = true ∨ endpoint.answers = false))
      : Effect endpoint move (endpoint.enter daemon after)
  | removed {daemon : Nat} (was : endpoint.phase daemon = some .stale)
      : Effect endpoint (.remove daemon false) ({ endpoint with path := none }.enter daemon .clear)
  | bound {daemon : Nat} (was : endpoint.phase daemon = some .clear) (free : endpoint.path = none)
      : Effect endpoint (.bind daemon false)
          ({ endpoint with path := some (.socket daemon) }.enter daemon .bound)
  | dropped {move : Move} {daemon : Nat} : Effect endpoint move (endpoint.drop daemon)
  | lost {kept : Bool}
      : Effect endpoint (.powerLoss kept)
          { endpoint with path := if kept then endpoint.path else none, daemons := fun _ => none }

/-- Every move has one of the listed effects, by cases on the move. -/
theorem effect (endpoint : Endpoint) (move : Move) : Effect endpoint move (endpoint.step move) := by
  cases move with
  | start stateDir =>
      rw [Endpoint.step, Endpoint.start]
      split
      · exact .idle
      · next unlocked => exact .started unlocked
  | look daemon failed =>
      rw [Endpoint.step]
      split
      · next was =>
          rw [Endpoint.look]
          split
          · exact .moved was (.inr (.inr (.inl ⟨rfl, rfl⟩)))
          · split
            · exact .moved was (.inr (.inr (.inl ⟨rfl, rfl⟩)))
            · next maker there => exact .moved was (.inr (.inl ⟨rfl, ⟨maker, there⟩, rfl⟩))
            · exact .dropped
      · exact .idle
  | connect daemon failed =>
      rw [Endpoint.step]
      split
      · next was =>
          rw [Endpoint.connect]
          split
          · exact .dropped
          · next silent =>
              refine .moved was (.inr (.inr (.inr ⟨rfl, rfl, failed, rfl, ?_⟩)))
              cases failed with
              | true => exact .inl rfl
              | false => exact .inr (by simpa using silent)
      · exact .idle
  | remove daemon failed =>
      rw [Endpoint.step]
      split
      · next was =>
          rw [Endpoint.remove]
          split
          · exact .dropped
          · next there =>
              cases failed with
              | true => exact absurd rfl there
              | false => exact .removed was
      · exact .idle
  | bind daemon failed =>
      rw [Endpoint.step]
      split
      · next was =>
          rw [Endpoint.bind]
          split
          · exact .dropped
          · next free =>
              cases failed with
              | true => exact absurd rfl free
              | false => exact .bound was (by simpa using free)
      · exact .idle
  | listen daemon failed =>
      rw [Endpoint.step]
      split
      · next was =>
          rw [Endpoint.listen]
          split
          · exact .dropped
          · exact .moved was (.inl ⟨rfl, rfl⟩)
      · exact .idle
  | exit daemon => exact .dropped
  | powerLoss kept => exact .lost

end Endpoint
end VerticalAI.Ipc
