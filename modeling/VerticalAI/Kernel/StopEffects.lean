import VerticalAI.Foundation.JsonText
import VerticalAI.Kernel.RecordEffects

/-! What minting an id, a STOP and a RESUME do to the state, however they end. -/

namespace VerticalAI.Kernel
open VerticalAI.Foundation VerticalAI.Contracts VerticalAI.Store

/-- The id of a kind that this node mints with this number. -/
def mintedId (stem nodeId : String) (number : UInt64) : String := s!"{stem}-{nodeId}-{number}"

theorem toList_mintedId (stem nodeId : String) (number : UInt64)
    : (mintedId stem nodeId number).toList
      = (stem.toList ++ '-' :: nodeId.toList) ++ '-' :: Nat.toDigits 10 number.toNat := by
  simp [mintedId, toString, Nat.toList_repr]

/-- What follows the last dash is the number. -/
theorem mintedId_number {stem other nodeId otherNode : String} {number otherNumber : UInt64}
    (same : mintedId stem nodeId number = mintedId other otherNode otherNumber)
    : number = otherNumber := by
  have read (stem nodeId : String) (number : UInt64)
      : (mintedId stem nodeId number).toList.reverse.takeWhile Char.isDigit
        = (Nat.toDigits 10 number.toNat).reverse := by
    rw [toList_mintedId, List.reverse_append, List.reverse_cons, List.append_assoc]
    refine Json.takeWhile_accepted (fun char member => ?_) ?_
    · exact Json.isDigit_of_toDigits number.toNat char (List.mem_reverse.mp member)
    · intro char front
      simp only [List.cons_append, List.nil_append, List.head?_cons, Option.mem_some_iff] at front
      exact front ▸ rfl
  have digits
      : (Nat.toDigits 10 number.toNat).reverse = (Nat.toDigits 10 otherNumber.toNat).reverse := by
    rw [← read stem nodeId, ← read other otherNode, same]
  exact UInt64.toNat_inj.mp (Json.toDigits_injective (List.reverse_injective digits))

/-- The state after a number was drawn and stored. -/
def World.counted (world : World) : World :=
  Updates.apply (Update.setCounter (world.kernel.counter + 1))
    (Updates.apply Update.countUp world)

/-- The number after the next one. -/
theorem mintedId_counted (stem : String) (world : World)
    : mintedId stem world.counted.kernel.nodeId (world.counted.kernel.counter + 1)
      = mintedId stem world.kernel.nodeId (world.kernel.counter + 2) :=
  congrArg (mintedId stem world.kernel.nodeId) (UInt64.add_assoc world.kernel.counter 1 1)

/-- Minting gives an id with the next number once that number is stored. -/
theorem nextId_cases (stem : String) (world : World) (faults : List Fault)
    : (∃ rest,
        nextId stem world faults
          = (.done (mintedId stem world.kernel.nodeId (world.kernel.counter + 1)),
              world.counted, rest))
      ∨ (∃ error rest,
          nextId stem world faults
            = (.failed error, Updates.apply Update.countUp world, rest))
      ∨ ∃ rest,
          nextId stem world faults = (.crashed, Updates.apply Update.countUp world, rest) := by
  rcases faults with _ | ⟨_ | reason | _, rest⟩
  · exact Or.inl ⟨[], rfl⟩
  · exact Or.inl ⟨rest, rfl⟩
  · exact Or.inr (Or.inl ⟨_, rest, rfl⟩)
  · exact Or.inr (Or.inr ⟨rest, rfl⟩)

variable [Libraries]

theorem trail_countUp {areas : List Area} (member : .counter ∈ areas) (world : World)
    : Trail (Within areas) world (Updates.apply Update.countUp world) :=
  Trail.single ⟨member, trivial⟩

theorem trail_counted {areas : List Area} (member : .counter ∈ areas) (world : World)
    : Trail (Within areas) world world.counted :=
  (trail_countUp member world).trans (Trail.single ⟨member, rfl⟩)

/-- Both tables of the STOP record and the set in memory. -/
def World.stopRecord (world : World) : Table StopEvent × Table ResumeEvent × StopSet :=
  (world.disk.stops, world.disk.resumes, world.kernel.stops)

omit [Libraries] in
theorem stopRecord_apply (world : World) (update : Update) (elsewhere : update.area ≠ .stops)
    : World.stopRecord (Updates.apply update world) = world.stopRecord := by
  cases update <;> first | rfl | exact absurd rfl elsewhere

theorem stopRecord_frame {areas : List Area} (absent : .stops ∉ areas) {first last : World}
    (trail : Trail (Within areas) first last)
    : last.stopRecord = first.stopRecord :=
  frame stopRecord_apply absent trail

/-- The state with a STOP in its table and in memory. -/
def World.withStop (world : World) (event : StopEvent) : World :=
  Updates.apply
    (Update.setStops
      { world.kernel.stops with stops := world.kernel.stops.stops.insert event.id event })
    (Updates.apply (Update.putStop event) world)

/-- Nothing of the STOP set changed and no value was returned. -/
structure Refused {α : Type} (world : World) (outcome : Outcome KernelError α)
    (after : World) : Prop where
  quiet : Trail (Within [.counter, .record]) world after
  noValue : ∀ value, outcome ≠ .done value

/-- A STOP took hold, whether or not the record of it was written. -/
structure Stopped (ctx : Ctx) (scope : String) (world : World)
    (outcome : Outcome KernelError String) (after : World) (event : StopEvent) : Prop where
  issued : event = ⟨event.id, scope, ctx.principal, ctx.nowMs, []⟩
  human : event.issuer.isHuman = true
  minted : event.id = mintedId "stop" world.kernel.nodeId (world.kernel.counter + 1)
  logged : Trail (Within [.record]) (world.counted.withStop event) after
  recorded : ∀ entry ∈ after.disk.ledger, entry ∉ world.disk.ledger
    → entry.kind = "stop" ∧ entry.payloadHash = hashCanonical (.str event.id)
  value : ∀ id, outcome = .done id → id = event.id

/-- A STOP is refused before its row is written and its event recorded, or holds from then on. -/
theorem stop_effect (ctx : Ctx) (scope : String) (world : World) (faults : List Fault)
    : Refused world (stop ctx scope world faults).1 (stop ctx scope world faults).2.1
        ∧ (stop ctx scope world faults).2.1.disk.ledger = world.disk.ledger
      ∨ ∃ event,
          Stopped ctx scope world (stop ctx scope world faults).1
            (stop ctx scope world faults).2.1 event := by
  unfold stop
  by_cases human : ctx.principal.isHuman = true
  · rw [i1Presence_human human, Program.lift_ok, pure_bind]
    rcases nextId_cases "stop" world faults with
      ⟨rest, minted⟩ | ⟨error, rest, minted⟩ | ⟨rest, minted⟩
    · rw [Program.bind_done minted]
      generalize named : mintedId "stop" world.kernel.nodeId (world.kernel.counter + 1) = id
      generalize built : StopEvent.mk id scope ctx.principal ctx.nowMs [] = event
      have issuedBy : event.issuer.isHuman = true := built ▸ human
      rcases save_cases (.putStop event) world.counted rest
        with ⟨rest, saved⟩ | ⟨reason, rest, saved⟩ | ⟨rest, saved⟩
      · right
        have logged : Trail (Within [.record]) (world.counted.withStop event)
            (log "stop" ctx.nowMs (.str id) (world.counted.withStop event) rest).2.1 :=
          log_emits.trail (world.counted.withStop event) rest
        rw [Program.bind_done saved]
        simp only [kernel, Program.observe_bind_run, StopSet.tryAddStop, if_pos issuedBy,
          Program.perform_bind_run]
        change ∃ held, Stopped ctx scope world
          ((log "stop" ctx.nowMs (.str id) >>= fun _ => pure id)
            (world.counted.withStop event) rest).1
          ((log "stop" ctx.nowMs (.str id) >>= fun _ => pure id)
            (world.counted.withStop event) rest).2.1 held
        have minted : event.id
            = mintedId "stop" world.kernel.nodeId (world.kernel.counter + 1) :=
          built ▸ named.symm
        have recorded := log_gains "stop" ctx.nowMs (.str id) (world.counted.withStop event) rest
        have issued : event = ⟨event.id, scope, ctx.principal, ctx.nowMs, []⟩ := built ▸ rfl
        obtain rfl : id = event.id := built ▸ rfl
        rcases ran : log "stop" ctx.nowMs (.str event.id) (world.counted.withStop event) rest with
          ⟨_ | error | _, after, left⟩
        all_goals rw [ran] at logged recorded
        · rw [Program.bind_done ran]
          refine ⟨event, issued, issuedBy, minted, logged, recorded, fun value returned => ?_⟩
          cases returned
          rfl
        · rw [Program.bind_failed ran]
          exact ⟨event, issued, issuedBy, minted, logged, recorded, fun _ equal => by cases equal⟩
        · rw [Program.bind_crashed ran]
          exact ⟨event, issued, issuedBy, minted, logged, recorded, fun _ equal => by cases equal⟩
      · rw [Program.bind_failed saved]
        exact Or.inl ⟨⟨trail_counted (.head _) world, fun _ equal => by cases equal⟩, rfl⟩
      · rw [Program.bind_crashed saved]
        exact Or.inl ⟨⟨trail_counted (.head _) world, fun _ equal => by cases equal⟩, rfl⟩
    · rw [Program.bind_failed minted]
      exact Or.inl ⟨⟨trail_countUp (.head _) world, fun _ equal => by cases equal⟩, rfl⟩
    · rw [Program.bind_crashed minted]
      exact Or.inl ⟨⟨trail_countUp (.head _) world, fun _ equal => by cases equal⟩, rfl⟩
  · rw [i1Presence_machine (Bool.eq_false_iff.mpr human), Program.lift_error,
      Program.fail_bind_run]
    exact Or.inl ⟨⟨Trail.refl world, fun _ equal => by cases equal⟩, rfl⟩

/-- The state with a RESUME in its table and in memory. -/
def World.withResume (world : World) (event : ResumeEvent) : World :=
  Updates.apply
    (Update.setStops
      { world.kernel.stops with
        resumes := world.kernel.stops.resumes.insert event.id event })
    (Updates.apply (Update.putResume event) world)

/-- A RESUME wrote its row, after its record and before anything else. -/
structure Lifted (stopId : String) (world : World) (outcome : Outcome KernelError Unit)
    (after : World) (event : ResumeEvent) : Prop where
  cites : event.cites = stopId
  known : world.kernel.stops.hasStop stopId = true
  human : event.issuer.isHuman = true
  minted : event.id = mintedId "resume" world.kernel.nodeId (world.kernel.counter + 1)
  logged : ∃ middle,
    Trail (Within [.record]) world.counted middle ∧ after = middle.withResume event
  returned : outcome = .done ()

/-- A RESUME is refused before its row is written, or lifts the STOP it cites. -/
theorem resume_effect (ctx : Ctx) (stopId : String) (world : World) (faults : List Fault)
    : Refused world (resume ctx stopId world faults).1 (resume ctx stopId world faults).2.1
      ∨ ∃ event,
          Lifted stopId world (resume ctx stopId world faults).1
            (resume ctx stopId world faults).2.1 event := by
  unfold resume
  by_cases human : ctx.principal.isHuman = true
  · rw [i1Presence_human human, Program.lift_ok, pure_bind]
    simp only [kernel, Program.observe_bind_run]
    by_cases known : world.kernel.stops.hasStop stopId = true
    · simp only [known, Bool.not_true, Bool.false_eq_true, if_false]
      rcases nextId_cases "resume" world faults with
        ⟨rest, minted⟩ | ⟨error, rest, minted⟩ | ⟨rest, minted⟩
      · rw [Program.bind_done minted]
        generalize named : mintedId "resume" world.kernel.nodeId (world.kernel.counter + 1) = id
        generalize built : ResumeEvent.mk id stopId ctx.principal ctx.nowMs = event
        have issuedBy : event.issuer.isHuman = true := built ▸ human
        have logged : Trail (Within [.record]) world.counted
            (log "resume" ctx.nowMs (.str stopId) world.counted rest).2.1 :=
          log_emits.trail world.counted rest
        have quiet : Trail (Within [.counter, .record]) world
            (log "resume" ctx.nowMs (.str stopId) world.counted rest).2.1 :=
          (trail_counted (.head _) world).trans
            (logged.mono fun _ _ => Within.widen (by decide))
        rcases ran : log "resume" ctx.nowMs (.str stopId) world.counted rest with
          ⟨_ | error | _, middle, left⟩
        all_goals rw [ran] at logged quiet
        · rw [Program.bind_done ran]
          rcases save_cases (.putResume event) middle left
            with ⟨rest, saved⟩ | ⟨reason, rest, saved⟩ | ⟨rest, saved⟩
          · rw [Program.bind_done saved]
            have kept : middle.kernel.stops = world.kernel.stops :=
              congrArg (fun record => record.2.2) (stopRecord_frame (by decide) logged)
            have cited : (Updates.apply (Update.putResume event) middle).kernel.stops.stops.contains
                event.cites = true := by
              rw [← built]
              change middle.kernel.stops.hasStop stopId = true
              rw [kept]
              exact known
            simp only [Program.observe_bind_run, StopSet.addResume, issuedBy, cited,
              not_true_eq_false, if_false]
            exact Or.inr ⟨event, built ▸ rfl, known, issuedBy, built ▸ named.symm,
              ⟨middle, logged, rfl⟩, rfl⟩
          · rw [Program.bind_failed saved]
            exact Or.inl ⟨quiet, fun _ equal => by cases equal⟩
          · rw [Program.bind_crashed saved]
            exact Or.inl ⟨quiet, fun _ equal => by cases equal⟩
        · rw [Program.bind_failed ran]
          exact Or.inl ⟨quiet, fun _ equal => by cases equal⟩
        · rw [Program.bind_crashed ran]
          exact Or.inl ⟨quiet, fun _ equal => by cases equal⟩
      · rw [Program.bind_failed minted]
        exact Or.inl ⟨trail_countUp (.head _) world, fun _ equal => by cases equal⟩
      · rw [Program.bind_crashed minted]
        exact Or.inl ⟨trail_countUp (.head _) world, fun _ equal => by cases equal⟩
    · simp only [known, Bool.not_false, if_true, Program.fail_run]
      exact Or.inl ⟨Trail.refl world, fun _ equal => by cases equal⟩
  · rw [i1Presence_machine (Bool.eq_false_iff.mpr human), Program.lift_error,
      Program.fail_bind_run]
    exact Or.inl ⟨Trail.refl world, fun _ equal => by cases equal⟩

end VerticalAI.Kernel
