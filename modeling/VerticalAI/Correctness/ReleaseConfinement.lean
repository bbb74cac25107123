import VerticalAI.Kernel.TaskSteps

/-! A release stays under the export root: every directory and file it makes, from whatever
destination and register, and none at all where a name is refused.
-/

namespace VerticalAI.Correctness
open VerticalAI.Foundation VerticalAI.Contracts VerticalAI.Store VerticalAI.Kernel

/-- The path of the directory or file that an update makes. -/
def madePath : Update → Option String
  | .createDir path | .writeExport path _ => some path
  | _ => none

/-- What an update makes is at or beneath the root, with every directory on the way down from it. -/
def Confined (root : String) (_ : World) (update : Update) : Prop :=
  ∀ path, madePath update = some path
    → Path.Beneath root.toList path.toList
      ∧ ∀ directory, Path.OnTheWay directory path.toList
        → Path.Beneath root.toList directory ∨ Path.OnTheWay directory root.toList

/-- The destination or the name of one of the artefacts' files is refused. -/
def ReleaseRefused [Text.CharTables] (node : RealKernel) (toDir : String)
    (artefacts : List ArtefactRef) : Prop :=
  (∃ error, releaseDest node toDir = .error error)
    ∨ ∃ artefact ∈ artefacts, ∃ error, releaseFileName artefact.hash artefact.kind = .error error

theorem confined_of_beneath {root path : String} (beneath : Path.Beneath root.toList path.toList)
    {world : World} {update : Update} (made : ∀ other, madePath update = some other → other = path)
    : Confined root world update := by
  intro other same
  obtain rfl := made other same
  exact ⟨beneath, fun _ passed => beneath.onTheWay passed⟩

theorem exportRoot_named (node : RealKernel) : node.exportRoot.toList ≠ [] := by
  rw [RealKernel.exportRoot, joinPath, String.toList_ofList, Path.join]
  split
  · exact List.append_ne_nil_of_right_ne_nil _ (by decide)
  · exact List.append_ne_nil_of_right_ne_nil _ (List.cons_ne_nil _ _)

/-- A destination that is not refused is a path beneath the export root. -/
theorem releaseDest_beneath {node : RealKernel} {toDir dest : String}
    (resolved : releaseDest node toDir = .ok dest)
    : Path.Beneath node.exportRoot.toList dest.toList ∧ dest.toList ≠ [] := by
  unfold releaseDest at resolved
  dsimp only at resolved
  split at resolved
  · next accepted =>
      obtain rfl := Except.ok.inj resolved
      rw [joinPath, String.toList_ofList]
      have named := exportRoot_named node
      refine ⟨(Path.Beneath.refl _).join named fun component member => ?_, Path.join_ne_nil named _⟩
      have ordinary := List.all_eq_true.mp accepted.2 component member
      cases component with
      | curDir => exact Or.inl rfl
      | normal name => exact Or.inr ⟨name, rfl⟩
      | rootDir => cases ordinary
      | parentDir => cases ordinary
  · cases resolved

/-- A file name that is not refused leads to a path beneath its directory. -/
theorem releaseFileName_beneath [Text.CharTables] {root dest hash kind name : String}
    (beneath : Path.Beneath root.toList dest.toList) (named : dest.toList ≠ [])
    (accepted : releaseFileName hash kind = .ok name)
    : Path.Beneath root.toList (joinPath dest name).toList := by
  unfold releaseFileName at accepted
  dsimp only at accepted
  split at accepted
  · next plain single =>
      obtain rfl := Except.ok.inj accepted
      rw [joinPath, String.toList_ofList, String.toList_ofList]
      refine beneath.join named fun component member => Or.inr ⟨plain, ?_⟩
      rw [single] at member
      exact List.mem_singleton.mp member
  · cases accepted

/-- A refused name refuses the files of all artefacts, by induction on them. -/
theorem releaseFiles_refused [Text.CharTables] {artefacts : List ArtefactRef}
    (refused : ∃ artefact ∈ artefacts, ∃ error,
      releaseFileName artefact.hash artefact.kind = .error error)
    : ∃ error, releaseFiles artefacts = .error error := by
  induction artefacts with
  | nil => simp at refused
  | cons artefact rest ih =>
      unfold releaseFiles
      cases first : releaseFileName artefact.hash artefact.kind with
      | error error => exact ⟨error, rfl⟩
      | ok name =>
          obtain ⟨other, listed, error, named⟩ := refused
          rcases List.mem_cons.mp listed with rfl | listed
          · rw [first] at named
            cases named
          · obtain ⟨error, others⟩ := ih ⟨other, listed, error, named⟩
            rw [others]
            exact ⟨error, rfl⟩

section Releasing

variable [Libraries] {ctx : Ctx} {root taskId toDir : String} {register : RegisterId}

/-- What makes no path is confined. -/
theorem confined_within {areas : List Area} (absent : Area.exports ∉ areas) {world : World}
    {update : Update} (within : Within areas world update)
    : Confined root world update := by
  intro path made
  cases update with
  | createDir path => exact absurd within.1 absent
  | writeExport path bytes => exact absurd within.1 absent
  | _ => cases made

/-- Files with accepted names are written beneath the root, by induction on them. -/
theorem writeFiles_confined {dest : String} {files : List (String × String)}
    (beneath : ∀ file ∈ files, Path.Beneath root.toList (joinPath dest file.2).toList)
    : (writeFiles ctx dest files).Emits (Confined root) := by
  induction files with
  | nil => exact Program.emits_pure
  | cons file rest ih =>
      obtain ⟨hash, name⟩ := file
      obtain ⟨first, others⟩ := List.forall_mem_cons.mp beneath
      have stored (bytes : List UInt8)
          : (save (.writeExport (joinPath dest name) bytes)).Emits (Confined root) :=
        save_emits fun _ => confined_of_beneath first fun _ made => (Option.some.inj made).symm
      have written : (writeFile ctx dest hash name).Emits (Confined root) := by
        refine readArtefact_emits.bind fun bytes => ?_
        exact (stored []).bind fun _ => (stored bytes).bind fun _ => load_emits
      exact written.bind fun _ => ih others

/-- Every directory and file of a release is beneath the export root of the node. -/
theorem release_confined
    : (release ctx taskId register toDir).Satisfies (fun world => world.kernel.exportRoot = root)
        (Confined root) (fun _ _ => True) (fun _ _ => True) := by
  unfold release
  refine Program.Emits.reads_bind readRegister_emits (fun _ _ _ _ _ _ => trivial) fun reg => ?_
  have looked : (kernel id).Satisfies (fun world => world.kernel.exportRoot = root ∧ True)
      (Confined root) (fun node _ => node.exportRoot = root) (fun _ _ => True) :=
    Program.satisfies_observe fun _ holds => holds.1
  refine looked.bind fun node => Program.satisfies_of_fact (fun _ same => same) fun same => ?_
  refine Program.Emits.from_any ?_
  cases resolved : releaseDest node toDir with
  | error error => exact Program.emits_fail
  | ok dest =>
      cases named : releaseFiles reg.artefacts with
      | error error => exact Program.emits_fail
      | ok files =>
          obtain ⟨beneath, plain⟩ := releaseDest_beneath resolved
          have created {path : String} (within : Path.Beneath root.toList path.toList)
              : (privateDir path).Emits (Confined root) :=
            Program.Emits.bind (save_emits fun _ =>
              confined_of_beneath within fun _ made => (Option.some.inj made).symm) fun _ => load_emits
          rw [same] at beneath
          refine (log_emits.mono fun _ _ => confined_within (by decide)).bind fun _ => ?_
          refine (created (same ▸ Path.Beneath.refl _)).bind fun _ => (created beneath).bind fun _ => ?_
          refine writeFiles_confined fun file member => ?_
          obtain ⟨artefact, -, -, accepted⟩ := releaseFiles_mem named file member
          exact releaseFileName_beneath beneath plain accepted

/-- A release that is refused changes nothing. -/
theorem release_refused (ctx : Ctx) (taskId : String) {world : World} {reg : Register}
    (stored : world.disk.registers[register.text]? = some reg)
    (refused : ReleaseRefused world.kernel toDir reg.artefacts) (faults : List Fault)
    : (release ctx taskId register toDir world faults).2.1 = world := by
  unfold release
  rw [Program.bind_run]
  rcases read : readRegister ctx register world faults with ⟨found | error | _, middle, rest⟩
  all_goals obtain rfl := readRegister_emits.still_inv read
  · have same := (readRegister_done read).1
    obtain rfl := Option.some.inj (stored.symm.trans same)
    dsimp only
    rw [kernel, Program.observe_bind_run]
    rcases refused with ⟨error, no⟩ | some
    · rw [id, no]
      rfl
    · obtain ⟨error, no⟩ := releaseFiles_refused some
      rw [no]
      cases releaseDest (id middle.kernel) toDir <;> rfl
  · rfl
  · rfl

/-- Every directory and file of a Release step lies at or beneath the export root, and a step whose
destination or file names are refused changes nothing, the record included.
-/
theorem releases_stay_under_root (ctx : Ctx) (taskId toDir artefactType : String)
    (register : RegisterId)
    (world : World) (faults : List Fault)
    : Trail (Confined world.kernel.exportRoot) world
        (runStep ctx taskId (.release toDir) register artefactType world faults).2.1
      ∧ ∀ reg, world.disk.registers[register.text]? = some reg
        → ReleaseRefused world.kernel toDir reg.artefacts
        → (runStep ctx taskId (.release toDir) register artefactType world faults).2.1 = world := by
  constructor
  · have step : (runStep ctx taskId (.release toDir) register artefactType).Satisfies
        (fun state => state.kernel.exportRoot = world.kernel.exportRoot)
        (Confined world.kernel.exportRoot) (fun _ _ => True) (fun _ _ => True) :=
      release_confined.bind fun _ => Program.satisfies_pure fun _ _ => trivial
    exact step.trail rfl faults
  · intro reg stored refused
    have still := release_refused ctx taskId stored refused faults
    change ((release ctx taskId register toDir >>= fun _ => Pure.pure (StepStatus.done, 0)) world faults).2.1
      = world
    rw [Program.bind_run]
    rcases ran : release ctx taskId register toDir world faults with ⟨_ | _ | _, last, rest⟩
    all_goals
      rw [ran] at still
      exact still

end Releasing

attribute [local instance] shortLibraries

section Run

private def exporterCtx : Ctx where
  principal := .human "node:n1"
  clearance := ⟨.personal, true⟩
  partition := "local"
  nowMs := 5

/-- A node with a register. -/
private def filedWorld : World :=
  (Machine.fresh.run [.open "state" "n1" false 0 [],
    .call (.submitTask exporterCtx "write" Label.bottom) []]).world

/-- A release to a directory next to the exports is refused there. -/
theorem releases_stay_under_root_beside
    : (runStep exporterCtx "task-n1-2" (.release "../beside") ⟨"reg-n1-1"⟩ "note" filedWorld
        []).2.1 = filedWorld := by
  have held : filedWorld.disk.registers["reg-n1-1"]?.isSome = true := rfl
  obtain ⟨reg, stored⟩ := Option.isSome_iff_exists.mp held
  have refused : ReleaseRefused filedWorld.kernel "../beside" reg.artefacts := Or.inl ⟨_, rfl⟩
  exact (releases_stay_under_root exporterCtx "task-n1-2" "../beside" "note" ⟨"reg-n1-1"⟩ filedWorld
    []).2 reg stored refused

end Run

end VerticalAI.Correctness
