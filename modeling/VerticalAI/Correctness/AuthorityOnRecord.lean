import VerticalAI.Kernel.CallGuard
import VerticalAI.Kernel.StopEffects

/-! Authority is on the record before it exists: over every run of calls, failed writes, crashes
and reopenings, what a row or a file asserts is on the ledger of the same state directory.
-/

namespace VerticalAI.Correctness
open VerticalAI.Foundation VerticalAI.Contracts VerticalAI.Kernel

section Record

variable [Libraries]

/-- The file is named after an artefact that a release on the record lists, and lies in its
destination.
-/
def ReleaseOnRecord (disk : StateDir) (path : String) : Prop :=
  ∃ record : ReleaseRecord,
    Logged disk "artefact.released" record.toJson
    ∧ ∃ hash ∈ record.hashes, ∃ kind name,
        releaseFileName hash kind = .ok name ∧ path = joinPath record.destination name

/-- Every row and file that carries authority has its event on the ledger. -/
structure OnRecord (disk : StateDir) : Prop where
  approvals : ∀ (key : String) (approval : Approval), disk.approvals[key]? = some approval
    → Logged disk "approval.recorded" approval.toJson
  resumes : ∀ (key : String) (event : ResumeEvent), disk.resumes[key]? = some event
    → Logged disk "resume" (.str event.cites)
  hot : ∀ (subject : String) (module : ModuleManifest), disk.hot[subject]? = some module
    → Logged disk "module.promoted" (.str subject)
  steps : ∀ (id : String) (row : Task), disk.tasks[id]? = some row
    → ∀ i, row.DoneAt i → Logged disk "task.step" (stepRecord id i)
  exports : ∀ (path : String) (bytes : List UInt8), disk.exports[path]? = some bytes
    → ReleaseOnRecord disk path

theorem onRecord_empty : OnRecord {} := by
  have none {α : Type} {key : String} {row : α} (held : (∅ : Table α)[key]? = some row)
      : False := by
    rw [Std.ExtTreeMap.getElem?_empty] at held
    cases held
  exact ⟨fun _ _ held => (none held).elim, fun _ _ held => (none held).elim,
    fun _ _ held => (none held).elim, fun _ _ held => (none held).elim,
    fun _ _ held => (none held).elim⟩

/-- A task's steps were on the record, or the one that became done is. -/
theorem logged_of_authorised {start : StateDir} {call : Call} {world : World} {row : Task}
    (origin : OnRecord start) (grown : RecordGrown start world.disk)
    (authorised : Authorised start call world (.putTask row)) {i : Nat} (done : row.DoneAt i)
    : Logged world.disk "task.step" (stepRecord row.id i) := by
  rcases authorised with fresh | ⟨ctx, old, -, stored, progress⟩
  · exact absurd done (fresh i)
  · rw [progress.alike.id]
    rcases progress.done i done with earlier | ⟨step, -, logged, -⟩
    · exact grown _ _ (origin.steps old.id old stored i earlier)
    · exact logged

/-- An authorised update keeps everything on the record, by cases on the table. -/
theorem OnRecord.apply {start : StateDir} {call : Call} {world : World} {update : Update}
    (origin : OnRecord start) (grown : RecordGrown start world.disk)
    (held : OnRecord world.disk) (authorised : Authorised start call world update)
    : OnRecord (Updates.apply update world : World).disk := by
  constructor
  · intro key approval found
    rcases approvals_apply found with rfl | earlier
    · exact Logged.apply authorised _
    · exact (held.approvals key approval earlier).apply update
  · intro key event found
    rcases resumes_apply found with rfl | earlier
    · exact Logged.apply authorised _
    · exact (held.resumes key event earlier).apply update
  · intro subject module found
    rcases hot_apply found with rfl | earlier
    · exact authorised.2.2.1.apply _
    · exact (held.hot subject module earlier).apply update
  · intro id row found i done
    rcases tasks_apply found with ⟨rfl, rfl⟩ | earlier
    · exact (logged_of_authorised origin grown authorised done).apply _
    · exact (held.steps id row earlier i done).apply update
  · intro path bytes found
    rcases exports_apply found with rfl | earlier
    · obtain ⟨ctx, old, -, -, reg, destination, -, logged, artefact, member, name, named, placed⟩ :=
        authorised
      exact ⟨_, logged.apply _, artefact.hash, List.mem_map_of_mem member, artefact.kind, name,
        named, placed⟩
    · obtain ⟨record, logged, named⟩ := held.exports path bytes earlier
      exact ⟨record, logged.apply update, named⟩

/-- In every state a node reaches, whatever failed on the way and wherever power was lost, every
approval, RESUME, promoted module, finished step and released file is on the ledger.
-/
theorem authority_on_record {machine : Machine} (reachable : Reachable machine)
    : OnRecord machine.world.disk :=
  reachable.authorised_invariant onRecord_empty fun _ _ _ _ origin grown held authorised =>
    origin.apply grown held authorised

end Record

attribute [local instance] plainLibraries

section Run

private def humanCtx : Ctx where
  principal := .human "node:n1"
  clearance := ⟨.personal, true⟩
  partition := "local"
  nowMs := 5

/-- A node whose STOP was resumed, and that lost power in the next call. -/
private def resumedNode : Machine :=
  Machine.fresh.run [.open "state" "n1" false 0 [], .call (.stop humanCtx "node") [],
    .call (.resume humanCtx (mintedId "stop" "n1" 1)) [],
    .call (.stop humanCtx "business:acme") [.none, .crash]]

/-- The RESUME on file cites a STOP that the record says was resumed. -/
theorem authority_on_record_of_resume
    : ∃ event : ResumeEvent,
        resumedNode.world.disk.resumes[mintedId "resume" "n1" 2]? = some event
          ∧ Logged resumedNode.world.disk "resume" (.str event.cites) := by
  have reachable : Reachable resumedNode := ⟨_, rfl⟩
  exact ⟨_, rfl, (authority_on_record reachable).resumes (mintedId "resume" "n1" 2) _ rfl⟩

end Run

end VerticalAI.Correctness
