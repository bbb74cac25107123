import VerticalAI.Contracts.Module
import VerticalAI.Foundation.NormalPath

/-! What machine-evolved modules ship. The check reads paths as they are spelled: a validator or a
script gets in exactly under a spelling that leads to it without showing it.
-/

namespace VerticalAI.Correctness
open VerticalAI.Foundation VerticalAI.Foundation.Path VerticalAI.Contracts

/-- The file is in the directory of the validators. -/
def IsValidator (file : String) : Prop := LiesUnder "validators".toList (normalise file.toList)

/-- The name of the file ends in the extension of a script. -/
def IsScript (file : String) : Prop :=
  ∃ extension ∈ scriptExtensions,
    '.' :: extension.toList <:+ (fileName (normalise file.toList)).getD []

instance (file : String)
    : Decidable (IsValidator file) := inferInstanceAs (Decidable (LiesUnder _ _))

instance (file : String) : Decidable (IsScript file) :=
  inferInstanceAs (Decidable (∃ extension ∈ scriptExtensions, _ <:+ _))

/-- A machine-evolved module may ship the file. -/
def Lawful (file : String) : Prop := ¬IsValidator file ∧ ¬IsScript file

theorem validateFiles_ok_iff {files : List String}
    : ModuleManifest.validateFiles files = .ok ()
      ↔ ∀ file ∈ files,
          extensionOf file ∉ scriptExtensions ∧ ¬"validators/".toList <+: file.toList := by
  induction files with
  | nil => simp only [ModuleManifest.validateFiles, List.not_mem_nil, false_imp_iff, implies_true]
  | cons file rest ih =>
      rw [ModuleManifest.validateFiles, List.forall_mem_cons, ← ih]
      split_ifs with script validator
      · simp only [script, not_true_eq_false, false_and]
      · simp only [List.isPrefixOf_iff_prefix.mp validator, not_true_eq_false, and_false, false_and]
      · simp only [script, mt List.isPrefixOf_iff_prefix.mpr validator, not_false_eq_true, true_and]

/-- An accepted machine-evolved module shows neither a script nor a validator. -/
theorem shown_of_validate {manifest : ModuleManifest} (evolved : manifest.machineEvolved = true)
    (accepted : manifest.validate = .ok ())
    : ∀ file ∈ manifest.files,
        extensionOf file ∉ scriptExtensions ∧ ¬"validators/".toList <+: file.toList := by
  refine validateFiles_ok_iff.mp ?_
  rw [ModuleManifest.validate, if_pos evolved] at accepted
  cases checked : ModuleManifest.validateFiles manifest.files with
  | ok => rfl
  | error =>
      rw [checked] at accepted
      cases accepted

/-- A machine-evolved module of one file. -/
def oneFileModule (file : String) : ModuleManifest where
  name := "m"
  kind := .skill
  version := "1"
  machineEvolved := true
  files := [file]
  provenance := ⟨"sha256:m", [], "s", [], ∅⟩
  poolEpoch := none
  autonomyProfile := none
  tags := []

/-- It is accepted if it shows neither script nor validator. -/
theorem validate_oneFileModule {file : String} (extension : extensionOf file ∉ scriptExtensions)
    (directory : ¬"validators/".toList <+: file.toList)
    : (oneFileModule file).validate = .ok () := by
  have checked : ModuleManifest.validateFiles [file] = .ok () := by
    rw [validateFiles_ok_iff, List.forall_mem_singleton]
    exact ⟨extension, directory⟩
  have evolved : (oneFileModule file).machineEvolved = true := rfl
  rw [ModuleManifest.validate, if_pos evolved, oneFileModule, checked]
  rfl

/-- The extension is what follows a dot at the end of a path. -/
theorem extensionOf_of_suffix {file : String} {extension : List Char} (undotted : '.' ∉ extension)
    (ends : '.' :: extension <:+ file.toList.map Char.toLower)
    : extensionOf file = String.ofList extension := by
  obtain ⟨last, ⟨front, built⟩, lowered⟩ := List.suffix_map_iff.mp ends
  cases last with
  | nil => cases lowered
  | cons dot rest =>
      obtain ⟨dotted, rfl⟩ := List.cons.inj lowered
      obtain rfl := eq_of_toLower dotted.symm rfl
      have names : ∀ char ∈ rest.reverse, decide (char ≠ '.') = true := by
        intro char member
        refine decide_eq_true ?_
        rintro rfl
        exact undotted (List.mem_map.mpr ⟨'.', List.mem_reverse.mp member, rfl⟩)
      rw [extensionOf, ← built, List.reverse_append, List.reverse_cons, List.append_assoc,
        List.takeWhile_append_of_pos names, List.singleton_append, List.takeWhile_cons_of_neg
          (by decide), List.append_nil, List.reverse_reverse]

/-- The characters a path can go on with after the name of a file. -/
def afterNames : List Char := ['/', '\\', '.', ' ']

/-- A path that goes on after a name shows no script. -/
theorem extensionOf_of_afterNames {file : String} {mark : Char}
    (ends : file.toList.getLast? = some mark) (after : mark ∈ afterNames)
    : extensionOf file ∉ scriptExtensions := by
  obtain ⟨front, built⟩ := List.getLast?_eq_some_iff.mp ends
  rw [extensionOf, built, List.reverse_append, List.reverse_singleton, List.singleton_append]
  by_cases dot : mark = '.'
  · subst dot
    rw [List.takeWhile_cons_of_neg (by decide)]
    decide
  · have name : decide (mark ≠ '.') = true := decide_eq_true dot
    rw [List.takeWhile_cons, if_pos name, List.reverse_cons, List.map_append]
    intro member
    have finals : ∀ extension ∈ scriptExtensions,
        extension.toList.getLast? ∉ afterNames.map fun mark => some (Char.toLower mark) := by decide
    refine finals _ member (List.mem_map.mpr ⟨mark, after, ?_⟩)
    rw [String.toList_ofList, List.map_singleton, List.getLast?_concat]

/-- A script whose path ends in its extension shows it. -/
theorem extensionOf_of_isScript {file : String} (script : IsScript file) {last : Char}
    (ends : file.toList.getLast? = some last) (plain : last ∉ afterNames)
    : extensionOf file ∈ scriptExtensions := by
  obtain ⟨extension, known, suffix⟩ := script
  have keep : isTrailing last = false := by
    simp only [afterNames, List.mem_cons, not_or] at plain
    simp only [isTrailing, plain, decide_false, Bool.or_self]
  obtain ⟨name, inside, -, named⟩ := fileName_normalise ends
    (fun same => plain (same ▸ by decide)) (fun same => plain (same ▸ by decide)) keep
  rw [named, Option.getD_some] at suffix
  have letters : ∀ extension ∈ scriptExtensions,
      '/' ∉ '.' :: extension.toList ∧ '.' ∉ extension.toList := by decide
  obtain ⟨unseparated, undotted⟩ := letters extension known
  have lowered := suffix_of_unified unseparated (suffix.trans (inside.map Char.toLower))
  rw [extensionOf_of_suffix undotted lowered, String.ofList_toList]
  exact known

/-- A path whose text shows a script's extension leads to one, if it leads into a directory. -/
theorem isScript_of_extensionOf {file : String} (known : extensionOf file ∈ scriptExtensions)
    (validator : IsValidator file)
    : IsScript file := by
  let tail := (file.toList.reverse.takeWhile (· ≠ '.')).reverse
  let front := (file.toList.reverse.dropWhile (· ≠ '.')).reverse
  have cut : front ++ tail = file.toList := by
    rw [← List.reverse_append, List.takeWhile_append_dropWhile, List.reverse_reverse]
  have lowered : tail.map Char.toLower = (extensionOf file).toList := by
    rw [extensionOf, String.toList_ofList]
  have letters : ∀ extension ∈ scriptExtensions,
      '/' ∉ extension.toList ∧ '\\' ∉ extension.toList := by decide
  obtain ⟨unseparated, plain⟩ := letters _ known
  have kept : tail.map unify = tail := by
    refine (List.map_congr_left fun char member => ?_).trans (List.map_id _)
    have separates : char ≠ '\\' := by
      rintro rfl
      exact plain (lowered ▸ List.mem_map.mpr ⟨'\\', member, rfl⟩)
    rw [unify, if_neg separates, id]
  have whole : '/' ∉ tail := fun member =>
    unseparated (lowered ▸ List.mem_map.mpr ⟨'/', member, rfl⟩)
  rcases List.eq_nil_or_concat' front with nothing | ⟨before, dot, split⟩
  · -- Without a dot the path is a single name.
    rw [nothing, List.nil_append] at cut
    refine absurd validator (not_liesUnder_of_single ?_)
    rw [← cut, kept]
    exact whole
  · have dotted : dot = '.' := by
      have first : (file.toList.reverse.dropWhile (· ≠ '.')).head? = some dot := by
        rw [← List.reverse_reverse (file.toList.reverse.dropWhile _)]
        change front.reverse.head? = some dot
        rw [split, List.reverse_append]
        rfl
      have stops := List.head?_dropWhile_not (· ≠ '.') file.toList.reverse
      rw [first] at stops
      simpa using stops
    cases last : file.toList.getLast? with
    | none =>
        rw [List.getLast?_eq_none_iff] at last
        rw [last, split] at cut
        simp at cut
    | some mark =>
        have plain : mark ∉ afterNames := fun after => extensionOf_of_afterNames last after known
        have keep : isTrailing mark = false := by
          simp only [afterNames, List.mem_cons, not_or] at plain
          simp only [isTrailing, plain, decide_false, Bool.or_self]
        obtain ⟨name, -, most, named⟩ := fileName_normalise last
          (fun same => plain (same ▸ by decide)) (fun same => plain (same ▸ by decide)) keep
        have ends : '.' :: tail <:+ file.toList.map unify := by
          refine ⟨before.map unify, ?_⟩
          rw [← cut, split, dotted, List.map_append, List.map_append, kept, List.append_assoc]
          rfl
        have inside := (most ('.' :: tail) (by simp [whole]) ends).map Char.toLower
        refine ⟨extensionOf file, known, ?_⟩
        rw [named, Option.getD_some, ← lowered]
        exact inside

/-- The spelling shows what it leads to. Where it leads to a validator that is no script it begins
with `validators/`, and where it leads to a script nothing follows the name, unless it begins so.
-/
structure PlainlySpelled (file : String) : Prop where
  validator : IsValidator file → ¬IsScript file → "validators/".toList <+: file.toList
  script : IsScript file
    → "validators/".toList <+: file.toList
      ∨ ∀ last, file.toList.getLast? = some last → last ∉ afterNames

/-- Accepted machine-evolved modules ship no validator and no script under a spelling exactly if
it shows what it leads to.
-/
theorem lawful_iff_plainlySpelled (file : String)
    : (∀ manifest : ModuleManifest, manifest.machineEvolved = true → manifest.validate = .ok ()
        → file ∈ manifest.files → Lawful file)
      ↔ PlainlySpelled file := by
  constructor
  · intro lawful
    have hidden (extension : extensionOf file ∉ scriptExtensions)
        (directory : ¬"validators/".toList <+: file.toList)
        : Lawful file :=
      lawful (oneFileModule file) rfl (validate_oneFileModule extension directory)
        List.mem_cons_self
    refine ⟨fun validator plain => ?_, fun script => ?_⟩
    · by_contra unseen
      have extension : extensionOf file ∉ scriptExtensions :=
        fun known => plain (isScript_of_extensionOf known validator)
      exact (hidden extension unseen).1 validator
    · refine or_iff_not_imp_left.mpr fun directory mark ends after => ?_
      exact (hidden (extensionOf_of_afterNames ends after) directory).2 script
  · intro plain manifest evolved accepted member
    have ⟨extension, directory⟩ := shown_of_validate evolved accepted file member
    have scriptless : ¬IsScript file := by
      intro script
      have ends := (plain.script script).resolve_left directory
      cases last : file.toList.getLast? with
      | none =>
          obtain ⟨known, -, suffix⟩ := script
          rw [List.getLast?_eq_none_iff.mp last] at suffix
          exact List.cons_ne_nil _ _ (List.suffix_nil.mp suffix)
      | some char => exact extension (extensionOf_of_isScript script last (ends char last))
    exact ⟨fun validator => directory (plain.validator validator scriptless), scriptless⟩

/-- Six spellings, of three validators and three scripts. -/
def hiddenFiles : List String :=
  ["./validators/a.json", "Validators/a.json", "drafts/../validators\\a.json", "run.py.", "run.SH ",
    "run.js/."]

/-- A machine-evolved module that ships validators and scripts is accepted. -/
theorem hidden_files_accepted
    : { oneFileModule "" with files := hiddenFiles }.machineEvolved = true
      ∧ { oneFileModule "" with files := hiddenFiles }.validate = .ok ()
      ∧ ∀ file ∈ hiddenFiles, ¬Lawful file := by
  refine ⟨rfl, by decide +kernel, ?_⟩
  have found : ∀ file ∈ hiddenFiles, IsValidator file ∨ IsScript file := by decide +kernel
  intro file member lawful
  exact (found file member).elim lawful.1 lawful.2

end VerticalAI.Correctness
