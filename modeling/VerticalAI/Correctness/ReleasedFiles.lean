import VerticalAI.Kernel.Releases

/-! What a finished release left behind: for which registers every artefact has a file of its own,
with exactly its bytes.
-/

namespace VerticalAI.Correctness
open VerticalAI.Foundation VerticalAI.Contracts VerticalAI.Store VerticalAI.Kernel

/-- The first twelve digits of an address. -/
def shortHash (hash : String) : List Char := (hash.toList.drop 7).take 12

section Files

variable [Libraries]

/-- Every artefact's file holds its bytes, and no file is shared by artefacts of different bytes. -/
structure LosesNothing (world last : World) (toDir : String) (artefacts : List ArtefactRef)
    : Prop where
  written : ∀ artefact ∈ artefacts, ∃ path bytes, ReleasedTo world.kernel toDir artefact path
    ∧ HasBytes world artefact.hash bytes ∧ last.disk.exports[path]? = some bytes
  apart : ∀ one ∈ artefacts, ∀ other ∈ artefacts, ∀ path bytes others,
    ReleasedTo world.kernel toDir one path → ReleasedTo world.kernel toDir other path
      → HasBytes world one.hash bytes → HasBytes world other.hash others → bytes = others

/-- Artefacts of one kind whose addresses begin alike are the same bytes. -/
def ToldApart (world : World) (artefacts : List ArtefactRef) : Prop :=
  ∀ one ∈ artefacts, ∀ other ∈ artefacts, one.kind = other.kind
    → shortHash one.hash = shortHash other.hash
    → ∀ bytes others, HasBytes world one.hash bytes → HasBytes world other.hash others → bytes = others

end Files

section Names

variable {hash other kind otherKind name : String}

theorem digits_of_valid (valid : validHash hash = true)
    : ∃ digits, hash.toList = "sha256:".toList ++ digits ∧ digits.length = 64
      ∧ ∀ digit ∈ digits, '0' ≤ digit ∧ digit ≤ '9' ∨ 'a' ≤ digit ∧ digit ≤ 'f' := by
  unfold validHash at valid
  split at valid
  · next digits stripped =>
      unfold Text.stripPrefix at stripped
      split at stripped
      · next starts =>
          obtain ⟨rest, built⟩ := List.isPrefixOf_iff_prefix.mp starts
          rw [← built, List.drop_left] at stripped
          obtain rfl := Option.some.inj stripped
          rw [Bool.and_eq_true, decide_eq_true_iff, List.all_eq_true] at valid
          refine ⟨rest, built.symm, valid.1, fun digit member => ?_⟩
          simpa only [Bool.or_eq_true, Bool.and_eq_true, decide_eq_true_eq] using valid.2 digit member
      · cases stripped
  · cases valid

theorem length_shortHash (valid : validHash hash = true) : (shortHash hash).length = 12 := by
  obtain ⟨digits, built, long, -⟩ := digits_of_valid valid
  rw [shortHash, List.length_take, List.length_drop, built, List.length_append, long]
  rfl

/-- A valid address gives its first twelve digits to the file name. -/
theorem shortHash_of_valid (valid : validHash hash = true)
    : (Text.takeBytes 12 (Text.trimStartMatches "sha256:".toList hash.toList)).getD "artefact".toList
      = shortHash hash := by
  obtain ⟨digits, built, long, lower⟩ := digits_of_valid valid
  have single : ∀ digit ∈ digits, digit.utf8Size = 1 := by
    intro digit member
    rw [Char.utf8Size_eq_one_iff]
    rcases lower digit member with ⟨-, below⟩ | ⟨-, below⟩
    · exact UInt32.le_trans below (by decide)
    · exact UInt32.le_trans below (by decide)
  have apart : Text.stripPrefix "sha256:".toList digits = none := by
    rw [Text.stripPrefix, if_neg]
    intro again
    obtain ⟨more, same⟩ := List.isPrefixOf_iff_prefix.mp again
    have member : 's' ∈ digits := by
      rw [← same]
      exact List.mem_append_left _ (by decide)
    exact absurd (lower 's' member) (by decide)
  rw [shortHash, built, Text.trimStartMatches_append (by decide) apart,
    Text.takeBytes_of_single single (by omega)]
  rfl

/-- Files of valid addresses have the same name exactly if kind and first digits agree. -/
theorem releaseFileName_eq_iff [Text.CharTables] (valid : validHash hash = true)
    (otherValid : validHash other = true) (named : releaseFileName hash kind = .ok name)
    : releaseFileName other otherKind = .ok name
      ↔ kind = otherKind ∧ shortHash hash = shortHash other := by
  have composed {hash kind name : String} (valid : validHash hash = true)
      (named : releaseFileName hash kind = .ok name)
      : name.toList = shortHash hash ++ '.' :: kind.toList := by
    unfold releaseFileName at named
    dsimp only at named
    rw [shortHash_of_valid valid] at named
    split at named
    · rw [← Except.ok.inj named, String.toList_ofList]
    · cases named
  constructor
  · intro otherNamed
    have same := (composed valid named).symm.trans (composed otherValid otherNamed)
    have long := (length_shortHash valid).trans (length_shortHash otherValid).symm
    obtain ⟨short, rest⟩ := List.append_inj same long
    exact ⟨String.toList_inj.mp (List.cons.inj rest).2, short⟩
  · rintro ⟨rfl, short⟩
    rw [← named]
    unfold releaseFileName
    dsimp only
    rw [shortHash_of_valid valid, shortHash_of_valid otherValid, short]

end Names

section Losses

variable [Libraries] {world last : World} {toDir : String} {artefacts : List ArtefactRef}

/-- Where nothing is lost, artefacts whose files have the same name are the same bytes. -/
theorem LosesNothing.toldApart (kept : LosesNothing world last toDir artefacts)
    : ToldApart world artefacts := by
  intro one member other otherMember kind short bytes others has otherHas
  obtain ⟨path, -, ⟨dest, name, resolved, named, rfl⟩, -, -⟩ := kept.written one member
  have otherNamed := (releaseFileName_eq_iff has.valid otherHas.valid named).mpr ⟨kind, short⟩
  exact kept.apart one member other otherMember (joinPath dest name) bytes others
    ⟨dest, name, resolved, named, rfl⟩ ⟨dest, name, resolved, otherNamed, rfl⟩ has otherHas

/-- A release that is done lost nothing exactly if the artefacts of its register are told apart by
kind and the first twelve digits of their addresses.
-/
theorem release_loses_nothing_iff {ctx : Ctx} {taskId artefactType : String} {register : RegisterId}
    {faults rest : List Fault} {tokens : UInt32} {reg : Register}
    (stored : world.disk.registers[register.text]? = some reg)
    (ran : runStep ctx taskId (.release toDir) register artefactType world faults
      = (.done (.done, tokens), last, rest))
    : LosesNothing world last toDir reg.artefacts ↔ ToldApart world reg.artefacts := by
  obtain ⟨_, _, _, released, ended⟩ := Program.bind_done_inv ran
  cases ended
  obtain ⟨_, dest, files, found, resolved, named, wrote⟩ := release_done released
  obtain rfl := Option.some.inj (stored.symm.trans found)
  refine ⟨LosesNothing.toldApart, fun apart => ⟨fun artefact member => ?_, ?_⟩⟩
  · obtain ⟨file, listed, hash, fileNamed⟩ := releaseFiles_covers named artefact member
    obtain ⟨other, otherListed, path, bytes, has, held⟩ := wrote.written file listed
    obtain ⟨twin, twinMember, twinHash, twinNamed⟩ := releaseFiles_mem named other otherListed
    obtain ⟨own, ownHas⟩ := wrote.readable file listed
    rw [hash] at ownHas
    rw [← twinHash] at has
    rw [← joinPath_injective path] at fileNamed held
    obtain ⟨kind, short⟩ := (releaseFileName_eq_iff ownHas.valid has.valid fileNamed).mp twinNamed
    obtain rfl := apart artefact member twin twinMember kind short own bytes ownHas has
    exact ⟨_, own, ⟨dest, other.2, resolved, fileNamed, rfl⟩, ownHas, held⟩
  · rintro one member other otherMember path bytes others ⟨dest, name, resolved, named, rfl⟩
      ⟨otherDest, otherName, otherResolved, otherNamed, path⟩ has otherHas
    obtain rfl := Except.ok.inj (resolved.symm.trans otherResolved)
    rw [← joinPath_injective path] at otherNamed
    obtain ⟨kind, short⟩ := (releaseFileName_eq_iff has.valid otherHas.valid named).mp otherNamed
    exact apart one member other otherMember kind short bytes others has otherHas

end Losses

section Drafts

private def firstDraft : List UInt8 := Challenge.utf8 "draft 11903517"

private def secondDraft : List UInt8 := Challenge.utf8 "draft 34969938"

/-- The SHA-256 digests of the two drafts under their task's subject, and elsewhere the first 32
bytes.
-/
private def draftDigest (bytes : List UInt8) : List UInt8 :=
  if bytes = Challenge.utf8 "task:task-n1-2" ++ 0 :: firstDraft then
    [0xa7, 0x6b, 0x40, 0x6d, 0xb6, 0xc5, 0xc0, 0x24, 0x58, 0x09, 0xe3, 0xa7, 0xaa, 0x03, 0x3f, 0x58,
      0x02, 0xee, 0xe1, 0x80, 0x4b, 0xac, 0x48, 0x4b, 0xe1, 0x65, 0x3d, 0xbf, 0x81, 0xae, 0x6d, 0xea]
  else if bytes = Challenge.utf8 "task:task-n1-2" ++ 0 :: secondDraft then
    [0xa7, 0x6b, 0x40, 0x6d, 0xb6, 0xc5, 0x89, 0x1d, 0x31, 0x9f, 0xbc, 0x71, 0x89, 0xcc, 0xae, 0x8d,
      0x24, 0x02, 0x3e, 0x51, 0x0f, 0xf7, 0x3b, 0x13, 0x55, 0x39, 0x2e, 0xc7, 0xad, 0x4b, 0x99, 0x9a]
  else (bytes ++ List.replicate 32 0).take 32

@[reducible] private def draftLibraries : Libraries := { plainLibraries with sha256 := draftDigest }

attribute [local instance] draftLibraries

private def draftsCtx : Ctx where
  principal := .human "node:n1"
  clearance := ⟨.personal, true⟩
  partition := "local"
  nowMs := 5

/-- A node with a task that releases, and both drafts as its artefacts, the second of this kind. -/
private def drafted (kind : String) : World :=
  let events : List Event :=
    [.open "state" "n1" false 0 [],
      .call (.createTask draftsCtx "write" "text" Label.bottom [.release "out"]) [],
      .call (.attachArtefact draftsCtx ⟨"reg-n1-1"⟩ "text" firstDraft) [],
      .call (.attachArtefact draftsCtx ⟨"reg-n1-1"⟩ kind secondDraft) []]
  (events.foldl Machine.step Machine.fresh).world

private def draftsReleased (kind : String)
    : Outcome KernelError (StepStatus × UInt32) × World × List Fault :=
  runStep draftsCtx "task-n1-2" (.release "out") ⟨"reg-n1-1"⟩ "text" (drafted kind) []

private def firstDraftHash : String :=
  "sha256:a76b406db6c5c0245809e3a7aa033f5802eee1804bac484be1653dbf81ae6dea"

private def secondDraftHash : String :=
  "sha256:a76b406db6c5891d319fbc7189ccae8d24023e510ff73b1355392ec7ad4b999a"

/-- The two artefacts, the second of this kind. -/
private def draftRefs (kind : String) : List ArtefactRef :=
  [⟨firstDraftHash, "text"⟩, ⟨secondDraftHash, kind⟩]

private theorem drafts_registered {kind : String} (known : kind = "text" ∨ kind = "md")
    : (drafted kind).disk.registers.list.map (fun row => (row.1, row.2.artefacts))
      = [("reg-n1-1", draftRefs kind)] := by
  rcases known with rfl | rfl <;> decide +kernel

private theorem drafts_released {kind : String} (known : kind = "text" ∨ kind = "md")
    : (draftsReleased kind).1 = .done (.done, 0) ∧ (draftsReleased kind).2.2 = [] := by
  rcases known with rfl | rfl <;> decide +kernel

private theorem drafts_read {kind : String} (known : kind = "text" ∨ kind = "md")
    : (getBlob firstDraftHash (drafted kind) []).1 = .done firstDraft
      ∧ (getBlob secondDraftHash (drafted kind) []).1 = .done secondDraft := by
  rcases known with rfl | rfl <;> decide +kernel

private theorem drafts_stored {kind : String} (known : kind = "text" ∨ kind = "md")
    : ∃ reg, (drafted kind).disk.registers["reg-n1-1"]? = some reg
      ∧ reg.artefacts = draftRefs kind := by
  have listed : ("reg-n1-1", draftRefs kind)
      ∈ (drafted kind).disk.registers.list.map (fun row => (row.1, row.2.artefacts)) := by
    rw [drafts_registered known]
    exact List.mem_singleton_self _
  obtain ⟨⟨key, reg⟩, member, same⟩ := List.mem_map.mp listed
  obtain ⟨rfl, artefacts⟩ := Prod.mk.inj same
  exact ⟨reg, Table.mem_list.mp member, artefacts⟩

/-- Artefacts of two kinds have a file each, however alike their digests begin. -/
private theorem drafts_toldApart : ToldApart (drafted "md") (draftRefs "md") := by
  intro one member other otherMember kind _ bytes others has otherHas
  have same : one.hash = other.hash := by
    simp only [draftRefs, List.mem_cons, List.not_mem_nil, or_false] at member otherMember
    rcases member with rfl | rfl <;> rcases otherMember with rfl | rfl
    · rfl
    · exact absurd kind (by decide)
    · exact absurd kind (by decide)
    · rfl
  rw [same] at has
  have read : Outcome.done bytes = .done others :=
    congrArg (·.1) ((has : getBlob other.hash _ [] = _).symm.trans otherHas)
  cases read
  rfl

/-- Two drafts of different kinds are released to a file each, and nothing is lost. -/
theorem drafts_of_two_kinds_lose_nothing
    : ∃ reg last, (drafted "md").disk.registers["reg-n1-1"]? = some reg
      ∧ reg.artefacts = draftRefs "md"
      ∧ LosesNothing (drafted "md") last "out" reg.artefacts := by
  obtain ⟨reg, stored, artefacts⟩ := drafts_stored (Or.inr rfl)
  have released := drafts_released (Or.inr rfl)
  rcases ran : draftsReleased "md" with ⟨outcome, last, rest⟩
  rw [ran] at released
  obtain ⟨rfl, rfl⟩ := released
  refine ⟨reg, last, stored, artefacts, (release_loses_nothing_iff stored ran).mpr ?_⟩
  rw [artefacts]
  exact drafts_toldApart

/-- Two drafts whose digests begin alike are released to one file: the step is done, and the first
draft is lost.
-/
theorem second_draft_replaces_first
    : (draftsReleased "text").1 = .done (.done, 0)
      ∧ ∃ reg, (drafted "text").disk.registers["reg-n1-1"]? = some reg
        ∧ ¬LosesNothing (drafted "text") (draftsReleased "text").2.1 "out" reg.artefacts := by
  obtain ⟨reg, stored, artefacts⟩ := drafts_stored (Or.inl rfl)
  obtain ⟨first, second⟩ := drafts_read (Or.inl rfl)
  refine ⟨(drafts_released (Or.inl rfl)).1, reg, stored, fun kept => ?_⟩
  have apart := kept.toldApart
  rw [artefacts] at apart
  have same := apart _ List.mem_cons_self _ (List.mem_cons_of_mem _ List.mem_cons_self) rfl
    (by decide) firstDraft secondDraft (hasBytes_of_done first) (hasBytes_of_done second)
  exact absurd same (by decide)

end Drafts

end VerticalAI.Correctness
