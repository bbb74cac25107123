import VerticalAI.Foundation.History
import VerticalAI.Ipc.Endpoint

/-! A listening daemon keeps its endpoint, whatever other daemons do at the same time, unless
one over another state directory asked before it listened and removed its socket after.
-/

namespace VerticalAI.Correctness
open VerticalAI.Foundation VerticalAI.Ipc

-----------------------------------------------------------------------------------------
-- Locks and numbers
-----------------------------------------------------------------------------------------

/-- Daemons have numbers below the next one and state directories of their own; the maker of the
socket at the path has made it or is gone.
-/
structure Orderly (endpoint : Endpoint) : Prop where
  numbered : ∀ daemon, endpoint.next ≤ daemon → endpoint.daemons daemon = none
  locked : ∀ first second stateDir, endpoint.dirOf first = some stateDir
    → endpoint.dirOf second = some stateDir → first = second
  maker : ∀ maker, endpoint.path = some (.socket maker)
    → maker < endpoint.next ∧ (endpoint.phase maker = none ∨ endpoint.Made maker)

variable {endpoint after : Endpoint} {move : Move}

theorem not_made_of_gone {daemon : Nat} (gone : endpoint.phase daemon = none)
    : ¬endpoint.Made daemon := by
  simp [Endpoint.Made, gone]

/-- A daemon that made its socket, or is gone, is none that has still to make it. -/
theorem ne_of_early {daemon other : Nat} {phase : Phase}
    (past : endpoint.phase daemon = none ∨ endpoint.Made daemon)
    (was : endpoint.phase other = some phase) (early : phase ≠ .bound ∧ phase ≠ .listening)
    : daemon ≠ other := by
  rintro rfl
  rcases past with none | bound | listening
  · simp [was] at none
  · exact early.1 (Option.some.inj (was.symm.trans bound))
  · exact early.2 (Option.some.inj (was.symm.trans listening))

theorem orderly_left (path : Option Node) : Orderly (.left path) where
  numbered _ _ := rfl
  locked _ _ _ running _ := absurd running.symm (Option.some_ne_none _)
  maker maker there := by
    have named : path = some (.socket maker) := there
    rw [named]
    exact ⟨Nat.lt_succ_self maker, .inl rfl⟩

/-- A running daemon has a number below the next one. -/
theorem Orderly.lt_next (orderly : Orderly endpoint) {daemon : Nat} {phase : Phase}
    (running : endpoint.phase daemon = some phase)
    : daemon < endpoint.next := by
  by_contra high
  have none := orderly.numbered daemon (Nat.le_of_not_lt high)
  simp [Endpoint.phase, none] at running

theorem Orderly.dir_lt_next (orderly : Orderly endpoint) {daemon : Nat} {stateDir : String}
    (running : endpoint.dirOf daemon = some stateDir)
    : daemon < endpoint.next := by
  by_contra high
  have none := orderly.numbered daemon (Nat.le_of_not_lt high)
  simp [Endpoint.dirOf, none] at running

/-- Bringing a daemon on keeps order while what it makes of the path is its own. -/
theorem Orderly.enter (orderly : Orderly endpoint) {daemon : Nat} {before phase : Phase}
    (was : endpoint.phase daemon = some before)
    (kept : phase = .bound ∨ phase = .listening ∨ (before ≠ .bound ∧ before ≠ .listening))
    : Orderly (endpoint.enter daemon phase) where
  numbered other high := by
    have none := orderly.numbered other high
    by_cases same : other = daemon
    · subst same
      simp [Endpoint.enter, none]
    · simp [Endpoint.enter, same, none]
  locked first second stateDir := by
    simpa using orderly.locked first second stateDir
  maker maker there := by
    obtain ⟨low, gone | made⟩ := orderly.maker maker there
    · refine ⟨low, .inl ?_⟩
      have differs : maker ≠ daemon := by
        rintro rfl
        rw [was] at gone
        cases gone
      simp [differs, gone]
    · refine ⟨low, .inr ?_⟩
      by_cases same : maker = daemon
      · subst same
        rcases kept with bound | listening | early
        · exact .inl (by simp [was, bound])
        · exact .inr (by simp [was, listening])
        · exact absurd rfl (ne_of_early (.inr made) was early)
      · rcases made with bound | listening
        · exact .inl (by simp [same, bound])
        · exact .inr (by simp [same, listening])

theorem Orderly.effect (orderly : Orderly endpoint) (effect : endpoint.Effect move after)
    : Orderly after := by
  cases effect with
  | idle => exact orderly
  | @started stateDir unlocked =>
      refine ⟨fun other high => ?_, fun first second dir => ?_, fun maker there => ?_⟩
      · have high : endpoint.next + 1 ≤ other := high
        simp [Endpoint.enlist, Nat.ne_of_gt high, orderly.numbered other (Nat.le_of_succ_le high)]
      · have free (other : Nat) : endpoint.dirOf other ≠ some stateDir :=
          fun held => unlocked ⟨other, orderly.dir_lt_next held, held⟩
        rw [Endpoint.dirOf_enlist, Endpoint.dirOf_enlist]
        split <;> split
        · next one two => exact fun _ _ => one.trans two.symm
        · next one two => exact fun new held => absurd (held.trans new.symm) (free second)
        · next one two => exact fun held new => absurd (held.trans new.symm) (free first)
        · exact orderly.locked first second dir
      · obtain ⟨low, state⟩ := orderly.maker maker there
        refine ⟨Nat.lt_succ_of_lt low, ?_⟩
        simpa [Endpoint.Made, Nat.ne_of_lt low] using state
  | moved was made =>
      refine orderly.enter was ?_
      rcases made with ⟨rfl, rfl⟩ | ⟨rfl, -, rfl⟩ | ⟨rfl, rfl⟩ | ⟨rfl, rfl, -⟩ <;> simp
  | removed was =>
      have away : Orderly { endpoint with path := none } :=
        ⟨orderly.numbered, orderly.locked, fun _ there => by cases there⟩
      exact away.enter was (.inr (.inr (by simp)))
  | @bound daemon was free =>
      have entered := orderly.enter was (.inl rfl)
      refine ⟨entered.numbered, entered.locked, fun maker there => ?_⟩
      obtain rfl : daemon = maker := by
        have same : some (Node.socket daemon) = some (.socket maker) := there
        cases same
        rfl
      exact ⟨orderly.lt_next was, .inr (.inl (by simp [was]))⟩
  | @dropped _ daemon =>
      refine ⟨fun other high => ?_, fun first second dir => ?_, fun maker there => ?_⟩
      · by_cases same : other = daemon
        · simp [Endpoint.drop, same]
        · simp [Endpoint.drop, same, orderly.numbered other high]
      · rw [Endpoint.dirOf_drop, Endpoint.dirOf_drop]
        split <;> split
        · next one two => exact fun _ _ => one.trans two.symm
        · exact fun none _ => by cases none
        · exact fun _ none => by cases none
        · exact orderly.locked first second dir
      · obtain ⟨low, state⟩ := orderly.maker maker there
        refine ⟨low, ?_⟩
        by_cases same : maker = daemon
        · exact .inl (by simp [same])
        · simpa [Endpoint.Made, same] using state
  | @lost kept =>
      refine ⟨fun _ _ => rfl, fun _ _ _ none _ => absurd none.symm (Option.some_ne_none _),
        fun maker there => ?_⟩
      cases kept with
      | false => cases there
      | true => exact ⟨(orderly.maker maker there).1, .inl rfl⟩

theorem orderly_run (path : Option Node) (moves : List Move)
    : Orderly ((Endpoint.left path).run moves) := by
  induction moves using List.reverseRecOn with
  | nil => exact orderly_left path
  | append_singleton moves move ih =>
      rw [Endpoint.run_concat]
      exact ih.effect (Endpoint.effect _ move)

-----------------------------------------------------------------------------------------
-- Evictions
-----------------------------------------------------------------------------------------

section Evictions

variable (first : Endpoint)

/-- A daemon asked the socket it had found, and nobody answered. -/
def FoundSilent (other : Nat) (before : List Move) (move : Move) : Prop :=
  ∃ failed, move = .connect other failed ∧ (first.run before).phase other = some .found
    ∧ (failed = true ∨ (first.run before).answers = false)

/-- A daemon asked before this one listened, or the system failed it. -/
def AskedInVain (daemon other : Nat) (before : List Move) (move : Move) : Prop :=
  ∃ failed, move = .connect other failed ∧ (first.run before).phase other = some .found
    ∧ (failed = true ∨ (first.run before).phase daemon ≠ some .listening)

/-- A daemon over another state directory, which asked in vain, removes the socket of this one. -/
def Evicts (daemon : Nat) (before : List Move) (move : Move) : Prop :=
  ∃ other, move = .remove other false
    ∧ (first.run before).phase other = some .stale
    ∧ (first.run before).path = some (.socket daemon)
    ∧ (∃ mine theirs, (first.run before).dirOf daemon = some mine
      ∧ (first.run before).dirOf other = some theirs ∧ mine ≠ theirs)
    ∧ Occurred before (AskedInVain first daemon other)

end Evictions

/-- What a daemon takes for stale it found silent, by induction on the moves. -/
theorem found_silent (path : Option Node) (moves : List Move) {other : Nat}
    (stale : ((Endpoint.left path).run moves).phase other = some .stale)
    : Occurred moves (FoundSilent (.left path) other) := by
  induction moves using List.reverseRecOn with
  | nil => cases stale
  | append_singleton moves move ih =>
      rw [Endpoint.run_concat] at stale
      have effect := Endpoint.effect ((Endpoint.left path).run moves) move
      generalize ((Endpoint.left path).run moves).step move = last at effect stale
      cases effect with
      | idle => exact (ih stale).append [move]
      | started =>
          rw [Endpoint.phase_enlist] at stale
          split at stale
          · cases stale
          · exact (ih stale).append _
      | @moved _ daemon before phase was made =>
          rw [Endpoint.phase_enter] at stale
          split at stale
          · next same =>
              subst same
              rw [was] at stale
              cases stale
              rcases made with ⟨wrong, -⟩ | ⟨wrong, -⟩ | ⟨wrong, -⟩ | ⟨-, rfl, failed, rfl, silent⟩
              · cases wrong
              · cases wrong
              · cases wrong
              · exact .last ⟨failed, rfl, was, silent⟩
          · exact (ih stale).append _
      | removed was =>
          rw [Endpoint.phase_enter] at stale
          split at stale
          · simp [was] at stale
          · exact (ih stale).append _
      | bound was =>
          rw [Endpoint.phase_enter] at stale
          split at stale
          · simp [was] at stale
          · exact (ih stale).append _
      | dropped =>
          rw [Endpoint.phase_drop] at stale
          split at stale
          · cases stale
          · exact (ih stale).append _
      | lost => cases stale

/-- A daemon that made its socket either had done so before or has just bound it. -/
theorem made_before (effect : endpoint.Effect move after) {daemon : Nat} (made : after.Made daemon)
    : endpoint.Made daemon
      ∨ endpoint.path = none ∧ after.path = some (.socket daemon) := by
  cases effect with
  | idle => exact .inl made
  | started =>
      rw [Endpoint.Made, Endpoint.phase_enlist] at made
      split at made
      · simp at made
      · exact .inl made
  | @moved _ other before phase was how =>
      rw [Endpoint.Made, Endpoint.phase_enter] at made
      split at made
      · next same =>
          subst same
          rcases how with ⟨rfl, rfl⟩ | ⟨rfl, -⟩ | ⟨rfl, -⟩ | ⟨rfl, -⟩
          · exact .inl (.inl was)
          all_goals simp [was] at made
      · exact .inl made
  | removed was =>
      rw [Endpoint.Made, Endpoint.phase_enter] at made
      split at made
      · simp [was] at made
      · exact .inl made
  | @bound other was free =>
      by_cases same : daemon = other
      · exact .inr ⟨free, by rw [same]; rfl⟩
      · simp only [Endpoint.Made, Endpoint.phase_enter, if_neg same] at made
        exact .inl made
  | dropped =>
      rw [Endpoint.Made, Endpoint.phase_drop] at made
      split at made
      · simp at made
      · exact .inl made
  | lost => exact absurd made (not_made_of_gone rfl)

/-- While somebody runs, a move leaves the path, removes what is there or takes it when it is
free.
-/
theorem path_after (effect : endpoint.Effect move after)
    : after.path = endpoint.path
      ∨ (∃ other, move = .remove other false ∧ endpoint.phase other = some .stale
        ∧ after.phase other = some .clear)
      ∨ endpoint.path = none
      ∨ ∀ daemon, after.phase daemon = none := by
  cases effect with
  | idle | started | moved | dropped => exact .inl rfl
  | removed was => exact .inr (.inl ⟨_, rfl, was, by simp [was]⟩)
  | bound was free => exact .inr (.inr (.inl free))
  | lost => exact .inr (.inr (.inr fun _ => rfl))

/-- A running daemon has a state directory. -/
theorem exists_dirOf {daemon : Nat} {phase : Phase} (running : endpoint.phase daemon = some phase)
    : ∃ stateDir, endpoint.dirOf daemon = some stateDir := by
  obtain ⟨started, there, -⟩ := Option.map_eq_some_iff.mp running
  exact ⟨started.stateDir, by simp [Endpoint.dirOf, there]⟩

/-- Only one daemon runs over a state directory, so one that evicts another runs over its own. -/
theorem Orderly.dirs_differ (orderly : Orderly endpoint) {daemon other : Nat}
    (made : endpoint.Made daemon) (stale : endpoint.phase other = some .stale)
    : ∃ mine theirs, endpoint.dirOf daemon = some mine ∧ endpoint.dirOf other = some theirs
      ∧ mine ≠ theirs := by
  obtain ⟨mine, here⟩ := made.elim exists_dirOf exists_dirOf
  obtain ⟨theirs, there⟩ := exists_dirOf stale
  refine ⟨mine, theirs, here, there, ?_⟩
  rintro rfl
  exact absurd (orderly.locked _ _ _ here there) (ne_of_early (.inr made) stale (by simp))

/-- A daemon that made its socket has the endpoint until it is evicted, by induction on the
moves.
-/
theorem holds_or_evicted (path : Option Node) (moves : List Move) {daemon : Nat}
    (made : ((Endpoint.left path).run moves).Made daemon)
    : ((Endpoint.left path).run moves).path = some (.socket daemon)
      ∨ Occurred moves (Evicts (.left path) daemon) := by
  generalize size : moves.length = count
  induction count using Nat.strongRecOn generalizing moves with
  | ind count ih =>
      rcases List.eq_nil_or_concat' moves with rfl | ⟨moves, move, rfl⟩
      · exact absurd made (not_made_of_gone rfl)
      · have shorter : moves.length < count := by simp [← size]
        rw [Endpoint.run_concat] at made ⊢
        have effect := Endpoint.effect ((Endpoint.left path).run moves) move
        generalize ((Endpoint.left path).run moves).step move = last at effect made ⊢
        rcases made_before effect made with before | ⟨-, taken⟩
        · rcases ih _ shorter moves before rfl with there | evicted
          · rcases path_after effect with same | ⟨other, rfl, stale, clear⟩ | free | gone
            · exact .inl (same.trans there)
            · obtain ⟨asked, question, answered, rfl, failed, rfl, found, silent⟩ :=
                found_silent path moves stale
              have evicts (vain : failed = true
                  ∨ ((Endpoint.left path).run asked).phase daemon ≠ some .listening)
                  : Evicts (.left path) daemon (asked ++ .connect other failed :: answered)
                    (.remove other false) :=
                ⟨other, rfl, stale, there, (orderly_run path _).dirs_differ before stale,
                  asked, _, answered, rfl, failed, rfl, found, vain⟩
              by_cases listening : ((Endpoint.left path).run asked).phase daemon = some .listening
              · have earlier : asked.length < count := by
                  simp at shorter
                  omega
                rcases ih _ earlier asked (.inr listening) rfl with held | evicted
                · have answers : ((Endpoint.left path).run asked).answers = true := by
                    simp [Endpoint.answers, held, listening]
                  refine .inr (.last (evicts (.inl (silent.resolve_right ?_))))
                  simp [answers]
                · have still := evicted.append
                    (.connect other failed :: answered ++ [.remove other false])
                  rw [List.cons_append, ← List.cons_append, ← List.append_assoc] at still
                  exact .inr still
              · exact .inr (.last (evicts (.inr listening)))
            · exact absurd (there.symm.trans free) (Option.some_ne_none _)
            · exact absurd made (not_made_of_gone (gone daemon))
          · exact .inr (evicted.append [move])
        · exact .inl taken

/-- The socket of a daemon is gone for good. -/
structure Evicted (endpoint : Endpoint) (daemon : Nat) : Prop where
  away : endpoint.path ≠ some (.socket daemon)
  numbered : daemon < endpoint.next
  past : endpoint.phase daemon = none ∨ endpoint.Made daemon

/-- A daemon that was evicted binds no second time. -/
theorem Evicted.effect {daemon : Nat} (evicted : Evicted endpoint daemon)
    (effect : endpoint.Effect move after)
    : Evicted after daemon := by
  obtain ⟨away, numbered, past⟩ := evicted
  cases effect with
  | idle => exact ⟨away, numbered, past⟩
  | started =>
      refine ⟨away, Nat.lt_succ_of_lt numbered, ?_⟩
      simpa [Endpoint.Made, Nat.ne_of_lt numbered] using past
  | @moved _ other _ _ was how =>
      refine ⟨away, numbered, ?_⟩
      by_cases same : daemon = other
      · subst same
        rcases how with ⟨rfl, rfl⟩ | ⟨rfl, -, rfl⟩ | ⟨rfl, rfl⟩ | ⟨rfl, rfl, -⟩
        · exact .inr (.inr (by simp [was]))
        all_goals exact absurd rfl (ne_of_early past was (by simp))
      · simpa [Endpoint.Made, same] using past
  | removed was =>
      refine ⟨(Option.some_ne_none _).symm, numbered, ?_⟩
      simpa [Endpoint.Made, ne_of_early past was (by simp)] using past
  | bound was =>
      have differs := ne_of_early past was (by simp)
      refine ⟨fun same => differs ?_, numbered, ?_⟩
      · cases same
        rfl
      · simpa [Endpoint.Made, differs] using past
  | @dropped _ other =>
      refine ⟨away, numbered, ?_⟩
      by_cases same : daemon = other
      · exact .inl (by simp [same])
      · simpa [Endpoint.Made, same] using past
  | @lost kept =>
      refine ⟨?_, numbered, .inl rfl⟩
      cases kept with
      | false => exact fun none => by cases none
      | true => exact away

theorem evicted_of_occurred (path : Option Node) (moves : List Move) {daemon : Nat}
    (occurred : Occurred moves (Evicts (.left path) daemon))
    : Evicted ((Endpoint.left path).run moves) daemon := by
  induction moves using List.reverseRecOn with
  | nil => exact absurd occurred Occurred.not_nil
  | append_singleton moves move ih =>
      rw [Endpoint.run_concat]
      rcases Occurred.concat_iff.mp occurred with before | ⟨other, rfl, stale, there, -⟩
      · exact (ih before).effect (Endpoint.effect _ move)
      · obtain ⟨low, past⟩ := (orderly_run path moves).maker daemon there
        have differs := ne_of_early past stale (by simp)
        rw [Endpoint.step, if_pos stale, Endpoint.remove, there]
        refine ⟨(Option.some_ne_none _).symm, low, ?_⟩
        simpa [Endpoint.Made, differs] using past

/-- Whatever was at the path at first, and however any number of daemons start, fail and end
beside each other: a daemon that listens has the endpoint, exactly unless a daemon over another
state directory asked whether anyone answers before this one listened, or was failed by the
system when it asked, and removed the socket of this one after that.
-/
theorem listening_daemon_has_its_endpoint (path : Option Node) (moves : List Move) (daemon : Nat)
    (listening : ((Endpoint.left path).run moves).phase daemon = some .listening)
    : ((Endpoint.left path).run moves).path = some (.socket daemon)
      ↔ ¬Occurred moves (Evicts (.left path) daemon) := by
  constructor
  · intro there occurred
    exact (evicted_of_occurred path moves occurred).away there
  · intro never
    exact (holds_or_evicted path moves (.inr listening)).resolve_right never

/-- Two daemons find one stale socket; the slower one removes the socket of the faster one. -/
theorem listening_daemon_has_its_endpoint_race
    : let moves : List Move :=
        [.start "a", .start "b", .look 1 false, .look 2 false, .connect 1 false, .connect 2 false,
          .remove 1 false, .bind 1 false, .listen 1 false, .remove 2 false, .bind 2 false]
      let last := (Endpoint.left (some (.socket 0))).run moves
      last.path = some (.socket 2)
        ∧ (last.path = some (.socket 1)
          ↔ ¬Occurred moves (Evicts (.left (some (.socket 0))) 1)) :=
  ⟨by decide, listening_daemon_has_its_endpoint (some (.socket 0)) _ 1 (by decide)⟩

-----------------------------------------------------------------------------------------
-- One state directory
-----------------------------------------------------------------------------------------

/-- A running daemon was started on its state directory, by induction on the moves. -/
theorem started_of_dirOf (path : Option Node) (moves : List Move) {daemon : Nat} {stateDir : String}
    (running : ((Endpoint.left path).run moves).dirOf daemon = some stateDir)
    : Move.start stateDir ∈ moves := by
  induction moves using List.reverseRecOn with
  | nil => cases running
  | append_singleton moves move ih =>
      rw [Endpoint.run_concat] at running
      have effect := Endpoint.effect ((Endpoint.left path).run moves) move
      generalize ((Endpoint.left path).run moves).step move = last at effect running
      rw [List.mem_append, List.mem_singleton]
      cases effect with
      | idle => exact .inl (ih running)
      | started =>
          rw [Endpoint.dirOf_enlist] at running
          split at running
          · cases running
            exact .inr rfl
          · exact .inl (ih running)
      | moved | removed | bound =>
          rw [Endpoint.dirOf_enter] at running
          exact .inl (ih running)
      | dropped =>
          rw [Endpoint.dirOf_drop] at running
          split at running
          · cases running
          · exact .inl (ih running)
      | lost => cases running

/-- While what is at the path is no socket, no daemon gets as far as removing it. -/
structure Shut (endpoint : Endpoint) : Prop where
  other : endpoint.path = some .other
  waiting : ∀ daemon phase, endpoint.phase daemon = some phase → phase = .starting ∨ phase = .clear

theorem Shut.effect (shut : Shut endpoint) (effect : endpoint.Effect move after)
    (powered : move ≠ .powerLoss false)
    : Shut after := by
  obtain ⟨other, waiting⟩ := shut
  cases effect with
  | idle => exact ⟨other, waiting⟩
  | started =>
      refine ⟨other, fun daemon phase => ?_⟩
      rw [Endpoint.phase_enlist]
      split
      · exact fun new => .inl (Option.some.inj new).symm
      · exact waiting daemon phase
  | @moved _ moving before phase was how =>
      refine ⟨other, fun daemon later => ?_⟩
      rw [Endpoint.phase_enter]
      split
      · next same =>
          rw [was]
          rintro ⟨⟩
          rcases how with ⟨rfl, rfl⟩ | ⟨rfl, ⟨maker, there⟩, -⟩ | ⟨rfl, -⟩ | ⟨rfl, rfl, -⟩
          · exact absurd (waiting _ _ was) (by simp)
          · exact absurd (other.symm.trans there) (by simp)
          · exact .inr rfl
          · exact absurd (waiting _ _ was) (by simp)
      · exact waiting daemon later
  | removed was => exact absurd (waiting _ _ was) (by simp)
  | bound was free => exact absurd (other.symm.trans free) (Option.some_ne_none _)
  | dropped =>
      refine ⟨other, fun daemon phase => ?_⟩
      rw [Endpoint.phase_drop]
      split
      · exact fun none => by cases none
      · exact waiting daemon phase
  | @lost kept =>
      cases kept with
      | false => exact absurd rfl powered
      | true => exact ⟨other, fun _ _ none => by cases none⟩

/-- Daemons over one state directory never take the endpoint from each other, whatever the
system fails them at: one that has bound its socket has the endpoint as long as it runs. And
what stands at the path and is no socket is never removed by any daemon.
-/
theorem endpoint_of_one_state_directory (path : Option Node) (moves : List Move)
    : (∀ stateDir, (∀ other, Move.start other ∈ moves → other = stateDir) →
        ∀ daemon, ((Endpoint.left path).run moves).Made daemon
          → ((Endpoint.left path).run moves).path = some (.socket daemon))
      ∧ (path = some .other → Move.powerLoss false ∉ moves
        → ((Endpoint.left path).run moves).path = some .other) := by
  constructor
  · intro stateDir single daemon made
    rcases holds_or_evicted path moves made with there | occurred
    · exact there
    · obtain ⟨before, _, later, rfl, other, rfl, -, -, ⟨mine, theirs, here, there, differ⟩, -⟩ :=
        occurred
      have first := single mine (List.mem_append_left _ (started_of_dirOf path before here))
      have second := single theirs (List.mem_append_left _ (started_of_dirOf path before there))
      exact absurd (first.trans second.symm) differ
  · rintro rfl powered
    suffices shut : Shut ((Endpoint.left (some .other)).run moves) from shut.other
    induction moves using List.reverseRecOn with
    | nil => exact ⟨rfl, fun _ _ none => by cases none⟩
    | append_singleton moves move ih =>
        rw [List.mem_append, List.mem_singleton, not_or] at powered
        rw [Endpoint.run_concat]
        exact (ih powered.1).effect (Endpoint.effect _ move) (Ne.symm powered.2)

end VerticalAI.Correctness
