import VerticalAI.Foundation.History
import VerticalAI.Ipc.Server

/-! Runs of a daemon: requests of any number of connections, each taken up in one turn and finished
in a later one, in any order.
-/

namespace VerticalAI.Ipc
open VerticalAI.Foundation VerticalAI.Contracts VerticalAI.Kernel

-----------------------------------------------------------------------------------------
-- The daemon
-----------------------------------------------------------------------------------------

/-- A request whose nonce was taken and which waits for a lock. -/
structure Arrived where
  number : Nat
  request : Request
  presence : Option Presented
  now : UInt64

/-- It will be answered with a challenge. -/
def Arrived.asks (entry : Arrived) : Bool :=
  entry.presence.isNone && entry.request.method = "presence.challenge"

/-- One process: its challenges, its kernel and the requests under way. -/
structure Daemon where
  challenges : Challenges
  world : World
  arrived : Nat
  inFlight : List Arrived
  up : Bool

/-- What one thread does between two others: it reads the clock and takes the nonce that its
request presents, or it finishes that request. What the request finds outside, the nonce it is
given included, is part of the turn.
-/
inductive Turn where
  | arrive (request : Request) (now : UInt64)
  | finish (number : Nat) (nonce : String) (kernelNow : UInt64) (faults : List Fault)

/-- It finishes the request of this number. -/
def Turn.finishes : Turn → Nat → Bool
  | .arrive _ _, _ => false
  | .finish number _ _ _, other => number = other

namespace Daemon

/-- A daemon that begins to serve. -/
def start (world : World) : Daemon where
  challenges := {}
  world
  arrived := 0
  inFlight := []
  up := true

/-- The proof a request carries, its nonce spent whatever the method. -/
def take (daemon : Daemon) (request : Request) (now : UInt64) : Challenges × Option Presented :=
  match request.presence with
  | none => (daemon.challenges, none)
  | some proof =>
      let (challenges, nonce) := daemon.challenges.spend proof.nonce now
      (challenges, some ⟨proof, nonce⟩)

def arrive (daemon : Daemon) (request : Request) (now : UInt64) : Daemon :=
  let (challenges, presence) := daemon.take request now
  { daemon with
    challenges
    arrived := daemon.arrived + 1
    inFlight := daemon.inFlight ++ [⟨daemon.arrived, request, presence, now⟩] }

/-- The request under way with this number. -/
def entry (daemon : Daemon) (number : Nat) : Option Arrived :=
  if daemon.up then daemon.inFlight.find? (·.number = number) else none

/-- The nonce that a turn presents here. -/
def presents (daemon : Daemon) : Turn → Option String
  | .arrive request _ => if daemon.up then request.presence.map (·.nonce) else none
  | .finish _ _ _ _ => none

/-- The nonce that a turn issues here, with the time it issues it at. -/
def issues (daemon : Daemon) : Turn → Option (String × UInt64)
  | .arrive _ _ => none
  | .finish number nonce _ _ =>
      match daemon.entry number with
      | some entry => if entry.asks then some (nonce, entry.now) else none
      | none => none

variable [Libraries]

/-- Answer a request. Issuing a challenge touches no kernel state. -/
def dispatch (daemon : Daemon) (entry : Arrived) (nonce : String) (kernelNow : UInt64)
    (faults : List Fault)
    : Outcome RpcError Answer × Daemon :=
  if entry.presence.isSome && !takesPresence entry.request.method then
    (.failed (bad "this method does not take a presence proof"), daemon)
  else if entry.request.method = "presence.challenge" then
    let (challenges, nonce, expiry) := daemon.challenges.issue entry.now nonce
    (.done (.challenge nonce expiry), { daemon with challenges })
  else
    match serve entry.request entry.presence entry.now kernelNow daemon.world faults with
    | (.crashed, world, _) => (.crashed, { daemon with world, up := false })
    | (outcome, world, _) => (outcome, { daemon with world })

/-- The daemon without a request that was answered. -/
def without (daemon : Daemon) (number : Nat) : Daemon :=
  { daemon with inFlight := daemon.inFlight.filter (·.number ≠ number) }

def step (daemon : Daemon) (turn : Turn) : Daemon :=
  match turn with
  | .arrive request now => if daemon.up then daemon.arrive request now else daemon
  | .finish number nonce kernelNow faults =>
      match daemon.entry number with
      | some entry => ((daemon.without number).dispatch entry nonce kernelNow faults).2
      | none => daemon

def run (daemon : Daemon) (turns : List Turn) : Daemon := turns.foldl step daemon

theorem run_append (daemon : Daemon) (first second : List Turn)
    : daemon.run (first ++ second) = (daemon.run first).run second :=
  List.foldl_append

theorem run_concat (daemon : Daemon) (turns : List Turn) (turn : Turn)
    : daemon.run (turns ++ [turn]) = (daemon.run turns).step turn :=
  run_append daemon turns [turn]

-----------------------------------------------------------------------------------------
-- What a turn does
-----------------------------------------------------------------------------------------

omit [Libraries] in
theorem entry_mem {daemon : Daemon} {number : Nat} {found : Arrived}
    (under : daemon.entry number = some found)
    : found ∈ daemon.inFlight ∧ found.number = number := by
  unfold entry at under
  split at under
  · have named := List.find?_some under
    exact ⟨List.mem_of_find?_eq_some under, of_decide_eq_true named⟩
  · cases under

/-- What a request that is answered leaves of the challenges. -/
theorem dispatch_challenges (daemon : Daemon) (entry : Arrived) (nonce : String)
    (kernelNow : UInt64) (faults : List Fault)
    : (daemon.dispatch entry nonce kernelNow faults).2.challenges
      = if entry.asks then (daemon.challenges.issue entry.now nonce).1 else daemon.challenges := by
  unfold dispatch Arrived.asks
  by_cases challenge : entry.request.method = "presence.challenge"
  · cases carried : entry.presence with
    | none => simp [challenge]
    | some presented => simp [challenge, takesPresence]
  · simp only [challenge, decide_false, Bool.and_false, Bool.false_eq_true, if_false]
    split
    · rfl
    · split <;> rfl

/-- The challenges after a turn: it issued one, presented one, or neither. -/
theorem step_challenges (daemon : Daemon) (turn : Turn)
    : (∃ nonce now, daemon.issues turn = some (nonce, now)
        ∧ daemon.presents turn = none
        ∧ (daemon.step turn).challenges = (daemon.challenges.issue now nonce).1)
      ∨ (∃ nonce now, daemon.issues turn = none ∧ daemon.presents turn = some nonce
        ∧ (daemon.step turn).challenges = (daemon.challenges.spend nonce now).1)
      ∨ daemon.issues turn = none ∧ daemon.presents turn = none
        ∧ (daemon.step turn).challenges = daemon.challenges := by
  cases turn with
  | arrive request now =>
      by_cases up : daemon.up
      · cases carried : request.presence with
        | none =>
            exact .inr (.inr ⟨rfl, by simp [presents, carried], by simp [step, up, arrive, take, carried]⟩)
        | some proof =>
            exact .inr (.inl ⟨proof.nonce, now, rfl, by simp [presents, up, carried],
              by simp [step, up, arrive, take, carried]⟩)
      · exact .inr (.inr ⟨rfl, by simp [presents, up], by simp [step, up]⟩)
  | finish number nonce kernelNow faults =>
      cases under : daemon.entry number with
      | none => exact .inr (.inr ⟨by simp [issues, under], rfl, by simp [step, under]⟩)
      | some entry =>
          have left : (daemon.step (.finish number nonce kernelNow faults)).challenges
              = if entry.asks then (daemon.challenges.issue entry.now nonce).1
                else daemon.challenges := by
            rw [step, under]
            exact dispatch_challenges (daemon.without number) entry nonce kernelNow faults
          cases asked : entry.asks with
          | true =>
              refine .inl ⟨nonce, entry.now, by simp [issues, under, asked], rfl, ?_⟩
              rw [left, asked]
              rfl
          | false =>
              refine .inr (.inr ⟨by simp [issues, under, asked], rfl, ?_⟩)
              rw [left, asked]
              rfl

/-- Answering a request takes up none. -/
theorem dispatch_underway (daemon : Daemon) (entry : Arrived) (nonce : String)
    (kernelNow : UInt64) (faults : List Fault)
    : (daemon.dispatch entry nonce kernelNow faults).2.inFlight = daemon.inFlight
      ∧ (daemon.dispatch entry nonce kernelNow faults).2.arrived = daemon.arrived := by
  unfold dispatch
  split
  · exact ⟨rfl, rfl⟩
  · split
    · exact ⟨rfl, rfl⟩
    · split <;> exact ⟨rfl, rfl⟩

/-- What is under way after a turn was under way before, or arrived in it. -/
theorem mem_step_inFlight {daemon : Daemon} {turn : Turn} {entry : Arrived}
    (underway : entry ∈ (daemon.step turn).inFlight)
    : entry ∈ daemon.inFlight
      ∨ turn = .arrive entry.request entry.now ∧ daemon.up = true ∧ entry.number = daemon.arrived
        ∧ entry.presence = (daemon.take entry.request entry.now).2
        ∧ (daemon.step turn).arrived = daemon.arrived + 1 := by
  cases turn with
  | arrive request now =>
      by_cases up : daemon.up
      · simp only [step, up, if_true, arrive] at underway
        rcases List.mem_append.mp underway with earlier | new
        · exact .inl earlier
        · obtain rfl := List.mem_singleton.mp new
          exact .inr ⟨rfl, up, rfl, rfl, by simp [step, up, arrive]⟩
      · simp only [step, up] at underway
        exact .inl underway
  | finish number nonce kernelNow faults =>
      rw [step] at underway
      split at underway
      · rw [(dispatch_underway _ _ _ _ _).1] at underway
        exact .inl (List.mem_of_mem_filter underway)
      · exact .inl underway

/-- The count of requests that arrived never goes down. -/
theorem arrived_le_step (daemon : Daemon) (turn : Turn)
    : daemon.arrived ≤ (daemon.step turn).arrived := by
  cases turn with
  | arrive request now =>
      rw [step]
      split
      · exact Nat.le_succ daemon.arrived
      · exact le_rfl
  | finish number nonce kernelNow faults =>
      rw [step]
      split
      · next found _ =>
          exact (dispatch_underway (daemon.without number) found nonce kernelNow faults).2.ge
      · exact le_rfl

/-- Requests under way have numbers that were given out. -/
def Numbered (daemon : Daemon) : Prop := ∀ entry ∈ daemon.inFlight, entry.number < daemon.arrived

theorem Numbered.step {daemon : Daemon} (numbered : daemon.Numbered) (turn : Turn)
    : (daemon.step turn).Numbered := by
  intro entry underway
  rcases mem_step_inFlight underway with earlier | ⟨-, -, new, -, counted⟩
  · exact (numbered entry earlier).trans_le (arrived_le_step daemon turn)
  · omega

theorem world_arrive (daemon : Daemon) (request : Request) (now : UInt64)
    : (daemon.step (.arrive request now)).world = daemon.world := by
  rw [step]
  split <;> rfl

/-- A request that arrives is under way. -/
theorem entry_arrive {daemon : Daemon} (up : daemon.up = true) (numbered : daemon.Numbered)
    (request : Request) (now : UInt64)
    : (daemon.step (.arrive request now)).entry daemon.arrived
      = some ⟨daemon.arrived, request, (daemon.take request now).2, now⟩ := by
  have absent : daemon.inFlight.find? (·.number = daemon.arrived) = none := by
    rw [List.find?_eq_none]
    intro entry member
    rw [decide_eq_true_iff]
    exact (numbered entry member).ne
  simp [step, up, arrive, entry, absent]

/-- A request under way stays so until it is finished, or the daemon is down. -/
theorem entry_step {daemon : Daemon} {number : Nat} {found : Arrived} {turn : Turn}
    (under : daemon.entry number = some found) (other : turn.finishes number = false)
    (up : (daemon.step turn).up = true)
    : (daemon.step turn).entry number = some found := by
  have running : daemon.up = true := by
    unfold entry at under
    split at under
    · assumption
    · cases under
  rw [entry, if_pos running] at under
  rw [entry, if_pos up]
  cases turn with
  | arrive request now => simp [step, running, arrive, under]
  | finish finished nonce kernelNow faults =>
      have different : finished ≠ number := of_decide_eq_false other
      cases theirs : daemon.entry finished with
      | none =>
          simp only [step, theirs]
          exact under
      | some entry =>
          simp only [step, theirs]
          rw [(dispatch_underway _ _ _ _ _).1, without, List.find?_filter]
          rw [← under]
          congr 1
          funext entry
          by_cases same : entry.number = number
          · simp [same, different.symm]
          · simp [same]

-----------------------------------------------------------------------------------------
-- Runs
-----------------------------------------------------------------------------------------

/-- The run issued this nonce at this time. -/
def Issued (world : World) (turns : List Turn) (nonce : String) (time : UInt64) : Prop :=
  Occurred turns fun before turn => ((start world).run before).issues turn = some (nonce, time)

/-- A request of the run presented this nonce. -/
def WasPresented (world : World) (turns : List Turn) (nonce : String) : Prop :=
  Occurred turns fun before turn => ((start world).run before).presents turn = some nonce

/-- The run took up this request. -/
def Came (world : World) (turns : List Turn) (entry : Arrived) : Prop :=
  Occurred turns fun before turn =>
    turn = .arrive entry.request entry.now ∧ ((start world).run before).up = true
      ∧ entry.number = ((start world).run before).arrived
      ∧ entry.presence = (((start world).run before).take entry.request entry.now).2

/-- Every nonce is new when it is issued: it was neither issued nor presented before. -/
def FreshNonces (world : World) (turns : List Turn) : Prop :=
  Throughout turns fun before turn => ∀ nonce time,
    ((start world).run before).issues turn = some (nonce, time)
      → (∀ other, ¬Issued world before nonce other) ∧ ¬WasPresented world before nonce

variable {world : World} {turns : List Turn}

/-- What is open was issued, and was not presented since. -/
theorem open_issued (fresh : FreshNonces world turns) {nonce : String} {expiry : UInt64}
    (held : ((start world).run turns).challenges.open[nonce]? = some expiry)
    : (∃ time, Issued world turns nonce time ∧ expiry = time + challengeTtlMs)
      ∧ ¬WasPresented world turns nonce := by
  induction turns using List.reverseRecOn with
  | nil =>
      change (∅ : Table UInt64)[nonce]? = some expiry at held
      rw [Std.ExtTreeMap.getElem?_empty] at held
      cases held
  | append_singleton turns turn ih =>
      obtain ⟨earlier, now⟩ := Throughout.concat_iff.mp fresh
      rw [run_concat] at held
      have stays (stood : ((start world).run turns).challenges.open[nonce]? = some expiry)
          (other : ((start world).run turns).presents turn ≠ some nonce)
          : (∃ time, Issued world (turns ++ [turn]) nonce time ∧ expiry = time + challengeTtlMs)
            ∧ ¬WasPresented world (turns ++ [turn]) nonce := by
        obtain ⟨⟨time, issued, expires⟩, unpresented⟩ := ih earlier stood
        refine ⟨⟨time, issued.append [turn], expires⟩, fun presented => ?_⟩
        exact (Occurred.concat_iff.mp presented).elim unpresented other
      rcases step_challenges ((start world).run turns) turn with
        ⟨given, clock, issues, presents, left⟩ | ⟨given, clock, issues, presents, left⟩
          | ⟨issues, presents, left⟩
      · rw [left] at held
        rcases Challenges.getElem?_issue_inv held with ⟨rfl, rfl⟩ | stood
        · refine ⟨⟨clock, Occurred.last issues, rfl⟩, fun presented => ?_⟩
          rcases Occurred.concat_iff.mp presented with before | here
          · exact (now nonce _ issues).2 before
          · exact absurd (presents.symm.trans here) (by nofun)
        · exact stays stood (by rw [presents]; nofun)
      · rw [left] at held
        obtain ⟨different, stood⟩ := Challenges.getElem?_spend_inv held
        refine stays stood fun same => different ?_
        exact Option.some.inj (same.symm.trans presents)
      · rw [left] at held
        exact stays held (by rw [presents]; nofun)

/-- Every request under way was taken up, and has one of the numbers given out. -/
theorem underway_came {entry : Arrived} (underway : entry ∈ ((start world).run turns).inFlight)
    : Came world turns entry ∧ entry.number < ((start world).run turns).arrived := by
  induction turns using List.reverseRecOn with
  | nil => exact absurd underway List.not_mem_nil
  | append_singleton turns turn ih =>
      rw [run_concat] at underway ⊢
      rcases mem_step_inFlight underway with earlier | ⟨here, up, numbered, taken, counted⟩
      · obtain ⟨came, below⟩ := ih earlier
        exact ⟨came.append [turn], below.trans_le (arrived_le_step _ turn)⟩
      · exact ⟨Occurred.last ⟨here, up, numbered, taken⟩, by omega⟩

/-- In every run, requests under way have numbers below the count of those that arrived. -/
theorem numbered_run (world : World) (turns : List Turn) : ((start world).run turns).Numbered :=
  fun _ underway => (underway_came underway).2

/-- A number is finished that was given out and that no request under way has. -/
def Finished (daemon : Daemon) (number : Nat) : Prop :=
  number < daemon.arrived ∧ ∀ entry ∈ daemon.inFlight, entry.number ≠ number

omit [Libraries] in
/-- A request that is finished is no longer under way. -/
theorem Finished.entry_none {daemon : Daemon} {number : Nat} (finished : daemon.Finished number)
    : daemon.entry number = none := by
  cases under : daemon.entry number with
  | none => rfl
  | some entry =>
      obtain ⟨underway, numbered⟩ := entry_mem under
      exact absurd numbered (finished.2 entry underway)

/-- A request that is finished stays finished, since numbers are not given twice. -/
theorem Finished.step {daemon : Daemon} {number : Nat} (finished : daemon.Finished number)
    (turn : Turn)
    : (daemon.step turn).Finished number := by
  refine ⟨finished.1.trans_le (arrived_le_step daemon turn), fun entry underway => ?_⟩
  rcases mem_step_inFlight underway with earlier | ⟨-, -, numbered, -⟩
  · exact finished.2 entry earlier
  · exact numbered ▸ finished.1.ne'

/-- A request is never finished twice, by induction on the turns since. -/
theorem Finished.run {daemon : Daemon} {number : Nat} (finished : daemon.Finished number)
    (more : List Turn)
    : (daemon.run more).Finished number := by
  induction more generalizing daemon with
  | nil => exact finished
  | cons turn more ih => exact ih (finished.step turn)

theorem finished_of_finish {number : Nat} {entry : Arrived}
    (under : ((start world).run turns).entry number = some entry) (nonce : String)
    (kernelNow : UInt64) (faults : List Fault)
    : (((start world).run turns).step (.finish number nonce kernelNow faults)).Finished number := by
  obtain ⟨underway, numbered⟩ := entry_mem under
  have below := (underway_came underway).2
  let daemon := (start world).run turns
  have left := dispatch_underway (daemon.without number) entry nonce kernelNow faults
  rw [step, under]
  refine ⟨?_, fun other stays => ?_⟩
  · rw [left.2, ← numbered]
    exact below
  · rw [left.1] at stays
    obtain ⟨-, other_number⟩ := List.mem_filter.mp stays
    exact of_decide_eq_true other_number

end Daemon
end VerticalAI.Ipc
