import VerticalAI.Contracts.Storage

/-! Metadata documents of several nodes under any schedule of writes and merges: no last write is
lost, and exactly the documents that agree on their common keys settle.
-/

namespace VerticalAI.Correctness
open VerticalAI.Foundation VerticalAI.Contracts

-----------------------------------------------------------------------------------------
-- Schedules
-----------------------------------------------------------------------------------------

/-- One step of some nodes: one of them writes in its document, or takes another document in. -/
inductive DocStep (nodes : Nat) (α : Type) where
  | write (node : Fin nodes) (key : String) (value : α)
  | merge (into source : Fin nodes)

section Schedules

variable {nodes : Nat} {α : Type} [DecidableEq α] (name : Fin nodes → String)

/-- The documents after a step; there are none where the code panics. -/
def stepDocs (docs : Fin nodes → MetadataDoc α)
    : DocStep nodes α → Option (Fin nodes → MetadataDoc α)
  | .write node key value =>
      some (Function.update docs node ((docs node).write key value (name node)))
  | .merge into source => do
      let (merged, _) ← (docs into).merge (docs source)
      return Function.update docs into merged

/-- The documents after a schedule, starting empty. -/
def runDocs (schedule : List (DocStep nodes α)) : Option (Fin nodes → MetadataDoc α) :=
  schedule.foldlM (stepDocs name) fun _ => {}

/-- The last value that a node wrote to a key. -/
def lastWrite (node : Fin nodes) (key : String) (schedule : List (DocStep nodes α)) : Option α :=
  schedule.foldl (fun last step => match step with
    | .write writer written value => if writer = node ∧ written = key then some value else last
    | .merge _ _ => last) none

/-- A value is the one kept for a key or in a surfaced conflict for it. -/
def Holds (doc : MetadataDoc α) (key : String) (value : α) : Prop :=
  doc.writes[key]? = some value
    ∨ ∃ conflict ∈ doc.conflicts, conflict.key = key ∧ ∃ author, (author, value) ∈ conflict.values

/-- What a schedule keeps up: documents are authored, and every node's own document has what it
wrote last.
-/
structure OwnWrites (schedule : List (DocStep nodes α)) (docs : Fin nodes → MetadataDoc α)
    : Prop where
  signed : ∀ node, (docs node).Signed
  own : ∀ node key value, lastWrite node key schedule = some value
    → (docs node).writes[key]? = some value

theorem runDocs_snoc (schedule : List (DocStep nodes α)) (step : DocStep nodes α)
    : runDocs name (schedule ++ [step]) = (runDocs name schedule).bind (stepDocs name · step) := by
  rw [runDocs, List.foldlM_append, ← runDocs]
  simp only [List.foldlM_cons, List.foldlM_nil, bind_pure]
  rfl

omit [DecidableEq α] in
theorem lastWrite_snoc (node : Fin nodes) (key : String) (schedule : List (DocStep nodes α))
    (step : DocStep nodes α)
    : lastWrite node key (schedule ++ [step])
      = match step with
        | .write writer written value =>
            if writer = node ∧ written = key then some value else lastWrite node key schedule
        | .merge _ _ => lastWrite node key schedule := by
  rw [lastWrite, List.foldl_append, ← lastWrite]
  rfl

/-- A merge between documents of a run does not panic and keeps what was there. -/
theorem OwnWrites.merge {schedule : List (DocStep nodes α)} {docs : Fin nodes → MetadataDoc α}
    (kept : OwnWrites schedule docs) (into source : Fin nodes)
    : ∃ merged report,
        (docs into).merge (docs source) = some (merged, report)
        ∧ report.kept + report.conflictsSurfaced = (docs source).writes.size
        ∧ OwnWrites (schedule ++ [.merge into source]) (Function.update docs into merged) := by
  obtain ⟨merged, report, taken, clashes, ran, counted, takes, rfl⟩ :=
    MetadataDoc.merge_some (kept.signed into) (kept.signed source)
  refine ⟨_, report, ran, counted, ⟨fun node => ?_, fun node key value last => ?_⟩⟩
  · by_cases same : node = into
    · subst same
      rw [Function.update_self]
      exact takes.signed
    · rw [Function.update_of_ne same]
      exact kept.signed node
  · rw [lastWrite_snoc] at last
    have held := kept.own node key value last
    by_cases same : node = into
    · subst same
      rw [Function.update_self]
      exact takes.held key value held
    · rw [Function.update_of_ne same]
      exact held

/-- No step of a run panics, and each keeps the last writes in their documents. -/
theorem OwnWrites.step {schedule : List (DocStep nodes α)} {docs : Fin nodes → MetadataDoc α}
    (kept : OwnWrites schedule docs) (step : DocStep nodes α)
    : ∃ after, stepDocs name docs step = some after ∧ OwnWrites (schedule ++ [step]) after := by
  cases step with
  | write node key value =>
      refine ⟨_, rfl, ⟨fun other => ?_, fun other name held last => ?_⟩⟩
      · by_cases same : other = node
        · subst same
          rw [Function.update_self]
          exact (kept.signed other).write key value _
        · rw [Function.update_of_ne same]
          exact kept.signed other
      · rw [lastWrite_snoc] at last
        dsimp only at last
        by_cases same : other = node
        · subst same
          rw [Function.update_self]
          by_cases named : key = name
          · subst named
            rw [if_pos ⟨rfl, rfl⟩] at last
            exact last ▸ Std.ExtTreeMap.getElem?_insert_self
          · rw [if_neg fun both => named both.2] at last
            exact (Table.getElem?_insert_ne (Ne.symm named)).trans (kept.own other name held last)
        · rw [if_neg fun both => same both.1.symm] at last
          rw [Function.update_of_ne same]
          exact kept.own other name held last
  | merge into source =>
      obtain ⟨merged, report, ran, -, after⟩ := kept.merge into source
      refine ⟨_, ?_, after⟩
      simp only [stepDocs, ran, Option.bind_eq_bind, Option.bind_some, Option.pure_def]

/-- No schedule panics, and it keeps the last writes in their documents; by induction on its
steps.
-/
theorem runDocs_some (schedule : List (DocStep nodes α))
    : ∃ docs, runDocs name schedule = some docs ∧ OwnWrites schedule docs := by
  induction schedule using List.reverseRecOn with
  | nil =>
      refine ⟨fun _ => {}, rfl, ⟨fun _ => MetadataDoc.signed_empty, fun node key value last => ?_⟩⟩
      cases last
  | append_singleton schedule step ih =>
      obtain ⟨docs, ran, kept⟩ := ih
      obtain ⟨after, stepped, next⟩ := kept.step name step
      refine ⟨after, ?_, next⟩
      rw [runDocs_snoc, ran]
      exact stepped

/-- What a document holds it holds after a merge. -/
theorem Holds.merge {doc other merged : MetadataDoc α} {report : MergeReport} {key : String}
    {value : α} (holds : Holds doc key value) (signed : doc.Signed) (authored : other.Signed)
    (ran : doc.merge other = some (merged, report))
    : Holds merged key value := by
  obtain ⟨_, _, taken, clashes, ran', -, takes, rfl⟩ := MetadataDoc.merge_some signed authored
  rw [ran] at ran'
  obtain ⟨rfl, rfl⟩ := Prod.mk.inj (Option.some.inj ran')
  rcases holds with held | ⟨conflict, member, found⟩
  · exact Or.inl (takes.held key value held)
  · refine Or.inr ⟨conflict, ?_, found⟩
    exact MetadataDoc.mem_foldl_takeConflict.mpr (Or.inl (List.mem_append_left _ member))

/-- A merge takes every kept value of the other document in. -/
theorem holds_of_merge {doc other merged : MetadataDoc α} {report : MergeReport} {key : String}
    {value : α} (held : other.writes[key]? = some value) (signed : doc.Signed)
    (authored : other.Signed) (ran : doc.merge other = some (merged, report))
    : Holds merged key value := by
  obtain ⟨_, _, taken, clashes, ran', -, takes, rfl⟩ := MetadataDoc.merge_some signed authored
  rw [ran] at ran'
  obtain ⟨rfl, rfl⟩ := Prod.mk.inj (Option.some.inj ran')
  have listed := Table.mem_list.mpr held
  cases found : doc.writes[key]? with
  | none => exact Or.inl (takes.taken key value listed found)
  | some mine =>
      by_cases same : mine = value
      · exact Or.inl (takes.held key value (same ▸ found))
      · obtain ⟨author, otherAuthor, member⟩ := takes.surfaced key mine value listed found same
        refine Or.inr ⟨_, MetadataDoc.mem_foldl_takeConflict.mpr
          (Or.inl (List.mem_append_right _ member)), rfl, otherAuthor, ?_⟩
        exact .tail _ (List.mem_singleton_self _)

omit [DecidableEq α] in
/-- Merges write nothing, by induction on them. -/
theorem lastWrite_merges (node target : Fin nodes) (key : String)
    (schedule : List (DocStep nodes α))
    (sources : List (Fin nodes))
    : lastWrite node key (schedule ++ sources.map (.merge target)) = lastWrite node key schedule := by
  induction sources using List.reverseRecOn with
  | nil => rw [List.map_nil, List.append_nil]
  | append_singleton rest source ih =>
      rw [List.map_append, ← List.append_assoc, List.map_singleton, lastWrite_snoc]
      exact ih

/-- After merges into one document it holds the last writes of all whose documents were merged;
by induction on the merges.
-/
theorem gather_last_writes (schedule : List (DocStep nodes α)) (target : Fin nodes)
    (sources : List (Fin nodes))
    : ∃ docs, runDocs name (schedule ++ sources.map (.merge target)) = some docs
        ∧ ∀ node key value, node = target ∨ node ∈ sources
          → lastWrite node key schedule = some value → Holds (docs target) key value := by
  induction sources using List.reverseRecOn with
  | nil =>
      obtain ⟨docs, ran, kept⟩ := runDocs_some name schedule
      refine ⟨docs, by rw [List.map_nil, List.append_nil, ran], fun node key value named last => ?_⟩
      rcases named with rfl | member
      · exact Or.inl (kept.own node key value last)
      · cases member
  | append_singleton rest source ih =>
      obtain ⟨docs, ran, gathered⟩ := ih
      obtain ⟨_, ran', kept⟩ := runDocs_some name (schedule ++ rest.map (.merge target))
      obtain rfl := Option.some.inj (ran.symm.trans ran')
      obtain ⟨merged, report, took, -, -⟩ := kept.merge target source
      refine ⟨Function.update docs target merged, ?_, fun node key value named last => ?_⟩
      · rw [List.map_append, ← List.append_assoc, List.map_singleton, runDocs_snoc, ran]
        simp only [stepDocs, took, Option.bind_eq_bind, Option.bind_some, Option.pure_def]
      · rw [Function.update_self]
        by_cases early : node = target ∨ node ∈ rest
        · exact (gathered node key value early last).merge (kept.signed _) (kept.signed _) took
        · have same : node = source := by
            rcases named with same | member
            · exact absurd (Or.inl same) early
            · rcases List.mem_append.mp member with found | found
              · exact absurd (Or.inr found) early
              · exact List.mem_singleton.mp found
          subst same
          refine holds_of_merge (kept.own node key value ?_) (kept.signed _) (kept.signed _) took
          rw [lastWrite_merges]
          exact last

/-- No merge of a schedule panics and each reports every key of the other document; and when the
documents were merged into one, in any order, that one holds every last write.
-/
theorem merges_lose_no_last_write (schedule : List (DocStep nodes α))
    : (∀ before into source after, schedule = before ++ .merge into source :: after
        → ∃ docs merged report,
            runDocs name before = some docs
            ∧ (docs into).merge (docs source) = some (merged, report)
            ∧ report.kept + report.conflictsSurfaced = (docs source).writes.size)
      ∧ ∀ (target : Fin nodes) (sources : List (Fin nodes)),
        (∀ node, node ≠ target → node ∈ sources)
        → ∃ docs,
            runDocs name (schedule ++ sources.map (.merge target)) = some docs
            ∧ ∀ node key value, lastWrite node key schedule = some value
              → Holds (docs target) key value := by
  constructor
  · intro before into source after split
    obtain ⟨docs, ran, kept⟩ := runDocs_some name before
    obtain ⟨merged, report, took, counted, -⟩ := kept.merge into source
    exact ⟨docs, merged, report, ran, took, counted⟩
  · intro target sources all
    obtain ⟨docs, ran, gathered⟩ := gather_last_writes name schedule target sources
    refine ⟨docs, ran, fun node key value last => gathered node key value ?_ last⟩
    by_cases same : node = target
    · exact Or.inl same
    · exact Or.inr (all node same)

end Schedules

-----------------------------------------------------------------------------------------
-- Merging again
-----------------------------------------------------------------------------------------

section Settling

variable {α : Type} [DecidableEq α]

/-- The documents that writes and merges lead to. -/
inductive Built : MetadataDoc α → Prop where
  | empty : Built {}
  | write {doc : MetadataDoc α} (built : Built doc) (key : String) (value : α) (node : String)
      : Built (doc.write key value node)
  | merge {doc other merged : MetadataDoc α} {report : MergeReport} (built : Built doc)
      (otherBuilt : Built other) (ran : doc.merge other = some (merged, report))
      : Built merged

theorem Built.signed {doc : MetadataDoc α} (built : Built doc) : doc.Signed := by
  induction built with
  | empty => exact MetadataDoc.signed_empty
  | write _ key value node ih => exact ih.write key value node
  | merge _ _ ran ih otherIh =>
      obtain ⟨_, _, taken, _, ran', -, takes, rfl⟩ := MetadataDoc.merge_some ih otherIh
      rw [ran] at ran'
      obtain ⟨rfl, rfl⟩ := Prod.mk.inj (Option.some.inj ran')
      exact takes.signed

/-- Each of two nodes merges the other's document. -/
def exchangeRound (docs : MetadataDoc α × MetadataDoc α)
    : Option (MetadataDoc α × MetadataDoc α) := do
  let (first, _) ← docs.1.merge docs.2
  let (second, _) ← docs.2.merge first
  return (first, second)

/-- The documents of two nodes after so many rounds. -/
def exchange : Nat → MetadataDoc α × MetadataDoc α → Option (MetadataDoc α × MetadataDoc α)
  | 0, docs => some docs
  | rounds + 1, docs => (exchangeRound docs).bind (exchange rounds)

/-- A merge that leaves the document as it is. -/
def Unmoved (doc other : MetadataDoc α) : Prop := ∃ report, doc.merge other = some (doc, report)

/-- Merging a second time changes nothing, and exchanging documents comes to an end. -/
structure SyncSettles (first second : MetadataDoc α) : Prop where
  again : ∃ once report, first.merge second = some (once, report) ∧ Unmoved once second
  rounds : ∃ rounds last other, exchange rounds (first, second) = some (last, other)
    ∧ Unmoved last other ∧ Unmoved other last

/-- No key has different values in both. -/
def Agree (first second : MetadataDoc α) : Prop :=
  ∀ (key : String) mine theirs, first.writes[key]? = some mine → second.writes[key]? = some theirs
    → mine = theirs

/-- All that one document holds is in the other. -/
structure Covers (doc other : MetadataDoc α) : Prop where
  writes : ∀ (key : String) value, other.writes[key]? = some value → doc.writes[key]? = some value
  conflicts : ∀ conflict ∈ other.conflicts, conflict ∈ doc.conflicts

theorem Covers.unmoved {doc other : MetadataDoc α} (covers : Covers doc other)
    : Unmoved doc other :=
  MetadataDoc.merge_held covers.writes covers.conflicts

/-- Documents that agree are merged into one that holds both, and no more. -/
theorem Agree.merge {doc other : MetadataDoc α} (agree : Agree doc other) (signed : doc.Signed)
    (authored : other.Signed)
    : ∃ merged report, doc.merge other = some (merged, report) ∧ merged.Signed
        ∧ Covers merged doc ∧ Covers merged other
        ∧ ∀ cover : MetadataDoc α, Covers cover doc → Covers cover other → Covers cover merged := by
  obtain ⟨_, report, taken, clashes, ran, -, takes, rfl⟩ := MetadataDoc.merge_some signed authored
  have none : clashes = [] := by
    by_contra some
    obtain ⟨key, mine, value, listed, found, different⟩ := takes.differs some
    exact different (agree key mine value found (Table.mem_list.mp listed))
  refine ⟨_, report, ran, takes.signed, ⟨takes.held, ?_⟩, ⟨?_, ?_⟩, fun cover first second => ⟨?_, ?_⟩⟩
  · intro conflict member
    exact MetadataDoc.mem_foldl_takeConflict.mpr (Or.inl (List.mem_append_left _ member))
  · intro key value held
    cases found : doc.writes[key]? with
    | none => exact takes.taken key value (Table.mem_list.mpr held) found
    | some mine =>
        obtain rfl := agree key mine value found held
        exact takes.held key mine found
  · intro conflict member
    exact MetadataDoc.mem_foldl_takeConflict.mpr (Or.inr member)
  · intro key value held
    rcases takes.only key value held with found | ⟨-, listed⟩
    · exact first.writes key value found
    · exact second.writes key value (Table.mem_list.mp listed)
  · intro conflict member
    rcases MetadataDoc.mem_foldl_takeConflict.mp member with found | found
    · rw [none, List.append_nil] at found
      exact first.conflicts conflict found
    · exact second.conflicts conflict found

theorem length_le_foldl_takeConflict (conflicts others : List (Conflict α))
    : conflicts.length ≤ (others.foldl MetadataDoc.takeConflict conflicts).length := by
  induction others generalizing conflicts with
  | nil => exact Nat.le_refl _
  | cons first rest ih =>
      refine Nat.le_trans ?_ (ih _)
      unfold MetadataDoc.takeConflict
      split
      · exact Nat.le_refl _
      · rw [List.length_append]
        exact Nat.le_add_right _ _

/-- Documents that disagree on a key go on doing so, and each merge adds a conflict. -/
theorem merge_disagreeing {doc other merged : MetadataDoc α} {report : MergeReport} {key : String}
    {mine theirs : α} (held : doc.writes[key]? = some mine)
    (holds : other.writes[key]? = some theirs) (different : mine ≠ theirs) (signed : doc.Signed)
    (authored : other.Signed) (ran : doc.merge other = some (merged, report))
    : merged.writes[key]? = some mine ∧ merged.Signed
      ∧ doc.conflicts.length < merged.conflicts.length := by
  obtain ⟨_, _, taken, clashes, ran', -, takes, rfl⟩ := MetadataDoc.merge_some signed authored
  rw [ran] at ran'
  obtain ⟨rfl, rfl⟩ := Prod.mk.inj (Option.some.inj ran')
  refine ⟨takes.held key mine held, takes.signed, ?_⟩
  obtain ⟨author, otherAuthor, member⟩ :=
    takes.surfaced key mine theirs (Table.mem_list.mpr holds) held different
  have some := List.length_pos_of_mem member
  have longer := length_le_foldl_takeConflict (doc.conflicts ++ clashes) other.conflicts
  rw [List.length_append] at longer
  exact Nat.lt_of_lt_of_le (Nat.lt_add_of_pos_right some) longer

/-- A merge of documents that disagree does not leave the receiver as it is. -/
theorem Unmoved.agree {doc other : MetadataDoc α} (unmoved : Unmoved doc other)
    (signed : doc.Signed) (authored : other.Signed)
    : Agree doc other := by
  intro key mine theirs held holds
  by_contra different
  obtain ⟨report, ran⟩ := unmoved
  have grown := (merge_disagreeing held holds different signed authored ran).2.2
  exact Nat.lt_irrefl _ grown

/-- Synchronising two documents settles exactly when they agree on the keys they share. -/
theorem settles_iff_agree {first second : MetadataDoc α} (built : Built first)
    (otherBuilt : Built second)
    : SyncSettles first second ↔ Agree first second := by
  constructor
  · intro ⟨⟨once, report, ran, unmoved⟩, _⟩ key mine theirs held holds
    by_contra different
    have ⟨kept, named, _⟩ :=
      merge_disagreeing held holds different built.signed otherBuilt.signed ran
    exact different (unmoved.agree named otherBuilt.signed key mine theirs kept holds)
  · intro agree
    obtain ⟨once, report, ran, named, covers, coversOther, -⟩ :=
      agree.merge built.signed otherBuilt.signed
    have agreeBack : Agree second once := fun key mine theirs held holds =>
      Option.some.inj ((coversOther.writes key mine held).symm.trans holds)
    obtain ⟨back, backReport, ranBack, -, -, coversOnce, least⟩ :=
      agreeBack.merge otherBuilt.signed named
    have self : Covers once once := ⟨fun _ _ held => held, fun _ member => member⟩
    refine ⟨⟨once, report, ran, coversOther.unmoved⟩, 1, once, back, ?_,
      (least once coversOther self).unmoved, coversOnce.unmoved⟩
    simp only [exchange, exchangeRound, ran, ranBack, Option.bind_eq_bind, Option.bind_some,
      Option.pure_def]

/-- Two documents that agree settle. -/
theorem settles_iff_agree_of_equal_writes
    : SyncSettles (({} : MetadataDoc Nat).write "k" 1 "a") (({} : MetadataDoc Nat).write "k" 1 "b") := by
  refine (settles_iff_agree (Built.empty.write "k" 1 "a") (Built.empty.write "k" 1 "b")).mpr ?_
  intro key mine theirs held holds
  rcases Table.getElem?_insert_inv held with ⟨rfl, rfl⟩ | early
  · rcases Table.getElem?_insert_inv holds with ⟨-, rfl⟩ | early
    · rfl
    · simp at early
  · simp at early

/-- A conflict surfaced by one merge is surfaced again by the next. -/
theorem repeated_merge_repeats_conflict
    : ∃ first second : MetadataDoc Nat,
        Built first ∧ Built second ∧ ¬SyncSettles first second
        ∧ ∃ once report twice report',
            first.merge second = some (once, report) ∧ once.merge second = some (twice, report')
            ∧ once.conflicts = [⟨"k", [("a", 1), ("b", 2)]⟩]
            ∧ twice.conflicts = [⟨"k", [("a", 1), ("b", 2)]⟩, ⟨"k", [("a", 1), ("b", 2)]⟩] := by
  refine ⟨({} : MetadataDoc Nat).write "k" 1 "a", ({} : MetadataDoc Nat).write "k" 2 "b",
    Built.empty.write "k" 1 "a", Built.empty.write "k" 2 "b", ?_, _, _, _, _, rfl, rfl, rfl, rfl⟩
  intro ⟨⟨once, report, ran, unmoved⟩, _⟩
  have held (value : Nat) (node : String)
      : (({} : MetadataDoc Nat).write "k" value node).writes["k"]? = some value :=
    Std.ExtTreeMap.getElem?_insert_self
  have ⟨kept, named, _⟩ := merge_disagreeing (held 1 "a") (held 2 "b") (by decide)
    (Built.empty.write "k" 1 "a").signed (Built.empty.write "k" 2 "b").signed ran
  have agree := unmoved.agree named (Built.empty.write "k" 2 "b").signed
  exact absurd (agree "k" 1 2 kept (held 2 "b")) (by decide)

end Settling

end VerticalAI.Correctness
