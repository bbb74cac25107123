import VerticalAI.Contracts.Labels
import VerticalAI.Contracts.Principal

/-! Storage contracts: sealed payloads, and metadata documents that merge without silent loss. -/

namespace VerticalAI.Contracts
open VerticalAI.Foundation

-----------------------------------------------------------------------------------------
-- Payloads
-----------------------------------------------------------------------------------------

structure BlobEnvelope where
  hash : String
  keyId : String
  alg : String
  ciphertextLen : UInt64
  label : Label
  deriving DecidableEq

def BlobEnvelope.toJson (envelope : BlobEnvelope) : Json :=
  .obj [("hash", .str envelope.hash), ("key_id", .str envelope.keyId), ("alg", .str envelope.alg),
    ("ciphertext_len", .num envelope.ciphertextLen.toNat), ("label", envelope.label.toJson)]

theorem BlobEnvelope.toJson_injective {first second : BlobEnvelope}
    (same : first.toJson = second.toJson)
    : first = second := by
  cases first
  cases second
  simp only [toJson, Json.obj.injEq, List.cons.injEq, Prod.mk.injEq, Json.num.injEq,
    Json.str.injEq, true_and, and_true, UInt64.toNat_inj] at same
  obtain ⟨hash, keyId, alg, length, label⟩ := same
  rw [hash, keyId, alg, length, Label.toJson_injective label]

structure ShredEvent where
  keyId : String
  issuer : Principal
  hlcMs : UInt64
  deriving DecidableEq, Repr

def ShredEvent.toJson (event : ShredEvent) : Json :=
  .obj [("key_id", .str event.keyId), ("issuer", event.issuer.toJson),
    ("hlc_ms", .num event.hlcMs.toNat)]

inductive StorageError where
  | notFound
  | shredded
  deriving DecidableEq, Repr

def StorageError.text : StorageError → String
  | .notFound => "blob not found"
  | .shredded => "key shredded; ciphertext unreadable"

-----------------------------------------------------------------------------------------
-- Metadata documents
-----------------------------------------------------------------------------------------

/-- Values that different authors gave one key. -/
structure Conflict (α : Type) where
  key : String
  values : List (String × α)
  deriving DecidableEq, Repr

structure MergeReport where
  kept : Nat := 0
  conflictsSurfaced : Nat := 0
  deriving DecidableEq, Repr

structure MetadataDoc (α : Type) where
  writes : Table α := ∅
  authors : Table String := ∅
  conflicts : List (Conflict α) := []

namespace MetadataDoc

variable {α : Type} [DecidableEq α]

def write (doc : MetadataDoc α) (key : String) (value : α) (node : String) : MetadataDoc α :=
  { doc with writes := doc.writes.insert key value, authors := doc.authors.insert key node }

/-- Take one write of the other document: adopt it, find it present, or surface a conflict. There
is no result where a key has no author, which the code looks up without asking.
-/
def takeWrite (other : MetadataDoc α) (state : MetadataDoc α × MergeReport) (row : String × α)
    : Option (MetadataDoc α × MergeReport) :=
  let (doc, report) := state
  let (key, value) := row
  match doc.writes[key]? with
  | none => do
      let author ← other.authors[key]?
      return (doc.write key value author, { report with kept := report.kept + 1 })
  | some mine =>
      if mine = value then some (doc, { report with kept := report.kept + 1 })
      else do
        let author ← doc.authors[key]?
        let otherAuthor ← other.authors[key]?
        return ({ doc with conflicts := doc.conflicts ++ [⟨key, [(author, mine), (otherAuthor, value)]⟩] },
          { report with conflictsSurfaced := report.conflictsSurfaced + 1 })

def takeConflict (conflicts : List (Conflict α)) (conflict : Conflict α) : List (Conflict α) :=
  if conflict ∈ conflicts then conflicts else conflicts ++ [conflict]

/-- Every write of the other document is adopted, already present or recorded as a conflict, and
its conflicts are taken over. There is no result where the code panics.
-/
def merge (doc other : MetadataDoc α) : Option (MetadataDoc α × MergeReport) := do
  let (merged, report) ← other.writes.list.foldlM (takeWrite other) (doc, {})
  return ({ merged with conflicts := other.conflicts.foldl takeConflict merged.conflicts }, report)

-----------------------------------------------------------------------------------------
-- What a merge does
-----------------------------------------------------------------------------------------

/-- Every key has an author. -/
def Signed (doc : MetadataDoc α) : Prop :=
  ∀ (key : String) value, doc.writes[key]? = some value
    → ∃ author, doc.authors[key]? = some author

omit [DecidableEq α] in
theorem signed_empty : ({} : MetadataDoc α).Signed := by
  intro key value held
  simp at held

omit [DecidableEq α] in
/-- A document stays signed when a value is written, since the author is written with it. -/
theorem Signed.write {doc : MetadataDoc α} (signed : doc.Signed) (key : String) (value : α)
    (node : String)
    : (doc.write key value node).Signed := by
  intro other held found
  rcases Table.getElem?_insert_inv found with ⟨rfl, -⟩ | before
  · exact ⟨node, Std.ExtTreeMap.getElem?_insert_self⟩
  · by_cases same : other = key
    · subst same
      exact ⟨node, Std.ExtTreeMap.getElem?_insert_self⟩
    · obtain ⟨author, authored⟩ := signed other held before
      exact ⟨author, (Table.getElem?_insert_ne same).trans authored⟩

/-- What taking rows of another document does to one: what it held stays, what it lacked is
adopted, and where the values differ a conflict with both is added.
-/
structure Takes (doc : MetadataDoc α) (rows : List (String × α)) (after : MetadataDoc α)
    (clashes : List (Conflict α)) : Prop where
  held : ∀ (key : String) value, doc.writes[key]? = some value → after.writes[key]? = some value
  taken : ∀ (key : String) value, (key, value) ∈ rows → doc.writes[key]? = none
    → after.writes[key]? = some value
  only : ∀ (key : String) value, after.writes[key]? = some value
    → doc.writes[key]? = some value ∨ doc.writes[key]? = none ∧ (key, value) ∈ rows
  signed : after.Signed
  conflicts : after.conflicts = doc.conflicts ++ clashes
  surfaced : ∀ (key : String) mine value,
    (key, value) ∈ rows → doc.writes[key]? = some mine → mine ≠ value
    → ∃ author otherAuthor, ⟨key, [(author, mine), (otherAuthor, value)]⟩ ∈ clashes
  differs : clashes ≠ []
    → ∃ (key : String) (mine value : α), (key, value) ∈ rows ∧ doc.writes[key]? = some mine ∧ mine ≠ value

theorem takeWrite_some {doc other : MetadataDoc α} {key author : String} {value : α}
    (signed : doc.Signed) (authored : other.authors[key]? = some author) (report : MergeReport)
    : ∃ after counted clashes,
        takeWrite other (doc, report) (key, value) = some (after, counted)
        ∧ doc.Takes [(key, value)] after clashes
        ∧ counted.kept + counted.conflictsSurfaced = report.kept + report.conflictsSurfaced + 1 := by
  have single {name : String} {row : α} : (name, row) ∈ [(key, value)] ↔ name = key ∧ row = value := by
    rw [List.mem_singleton, Prod.mk.injEq]
  cases found : doc.writes[key]? with
  | none =>
      refine ⟨doc.write key value author, { report with kept := report.kept + 1 }, [], ?_, ?_,
        Nat.add_right_comm _ _ _⟩
      · simp [takeWrite, found, authored]
      · constructor
        case held =>
          intro name row there
          by_cases same : name = key
          · rw [same, found] at there
            cases there
          · exact (Table.getElem?_insert_ne same).trans there
        case taken =>
          intro name row listed absent
          obtain ⟨rfl, rfl⟩ := single.mp listed
          exact Std.ExtTreeMap.getElem?_insert_self
        case only =>
          intro name row there
          rcases Table.getElem?_insert_inv there with ⟨rfl, rfl⟩ | before
          · exact Or.inr ⟨found, single.mpr ⟨rfl, rfl⟩⟩
          · exact Or.inl before
        case signed => exact signed.write key value author
        case conflicts => exact (List.append_nil _).symm
        case surfaced =>
          intro name mine row listed there different
          obtain ⟨rfl, rfl⟩ := single.mp listed
          rw [found] at there
          cases there
        case differs => exact fun some => absurd rfl some
  | some mine =>
      have same {name : String} {row : α} (listed : (name, row) ∈ [(key, value)])
          (absent : doc.writes[name]? = none) : False := by
        rw [(single.mp listed).1, found] at absent
        cases absent
      by_cases equal : mine = value
      · refine ⟨doc, { report with kept := report.kept + 1 }, [], ?_, ?_, Nat.add_right_comm _ _ _⟩
        · simp [takeWrite, found, equal]
        · constructor
          case held => exact fun _ _ there => there
          case taken => exact fun _ _ listed absent => (same listed absent).elim
          case only => exact fun _ _ there => Or.inl there
          case signed => exact signed
          case conflicts => exact (List.append_nil _).symm
          case surfaced =>
            intro name held row listed there different
            obtain ⟨rfl, rfl⟩ := single.mp listed
            rw [found] at there
            exact absurd ((Option.some.inj there).symm.trans equal) different
          case differs => exact fun some => absurd rfl some
      · obtain ⟨mineAuthor, mineAuthored⟩ := signed key mine found
        refine ⟨{ doc with
            conflicts := doc.conflicts ++ [⟨key, [(mineAuthor, mine), (author, value)]⟩] },
          { report with conflictsSurfaced := report.conflictsSurfaced + 1 },
          [⟨key, [(mineAuthor, mine), (author, value)]⟩], ?_, ?_, rfl⟩
        · simp [takeWrite, found, equal, mineAuthored, authored]
        · constructor
          case held => exact fun _ _ there => there
          case taken => exact fun _ _ listed absent => (same listed absent).elim
          case only => exact fun _ _ there => Or.inl there
          case signed => exact signed
          case conflicts => rfl
          case surfaced =>
            intro name held row listed there different
            obtain ⟨rfl, rfl⟩ := single.mp listed
            rw [found] at there
            obtain rfl := Option.some.inj there
            exact ⟨mineAuthor, author, List.mem_singleton_self _⟩
          case differs => exact fun _ => ⟨key, mine, value, single.mpr ⟨rfl, rfl⟩, found, equal⟩

omit [DecidableEq α] in
/-- Taking rows one after another, with a key each. -/
theorem Takes.trans {doc middle after : MetadataDoc α} {first rest : List (String × α)}
    {clashes later : List (Conflict α)} (takes : doc.Takes first middle clashes)
    (next : middle.Takes rest after later)
    (apart : ∀ row ∈ first, ∀ other ∈ rest, row.1 ≠ other.1)
    : doc.Takes (first ++ rest) after (clashes ++ later) := by
  have before {key : String} {value held : α} (listed : (key, value) ∈ rest)
      (there : middle.writes[key]? = some held) : doc.writes[key]? = some held :=
    (takes.only key held there).elim id fun adopted =>
      absurd rfl (apart (key, held) adopted.2 (key, value) listed)
  constructor
  case held => exact fun key value there => next.held key value (takes.held key value there)
  case taken =>
    intro key value listed absent
    rcases List.mem_append.mp listed with early | late
    · exact next.held key value (takes.taken key value early absent)
    · refine next.taken key value late ?_
      cases there : middle.writes[key]? with
      | none => rfl
      | some held => rw [before late there] at absent; cases absent
  case only =>
    intro key value there
    rcases next.only key value there with early | ⟨absent, late⟩
    · exact (takes.only key value early).imp id fun adopted =>
        ⟨adopted.1, List.mem_append_left _ adopted.2⟩
    · refine Or.inr ⟨?_, List.mem_append_right _ late⟩
      cases found : doc.writes[key]? with
      | none => rfl
      | some held => rw [takes.held key held found] at absent; cases absent
  case signed => exact next.signed
  case conflicts => rw [next.conflicts, takes.conflicts, List.append_assoc]
  case surfaced =>
    intro key mine value listed there different
    rcases List.mem_append.mp listed with early | late
    · obtain ⟨author, other, member⟩ := takes.surfaced key mine value early there different
      exact ⟨author, other, List.mem_append_left _ member⟩
    · obtain ⟨author, other, member⟩ :=
        next.surfaced key mine value late (takes.held key mine there) different
      exact ⟨author, other, List.mem_append_right _ member⟩
  case differs =>
    intro some
    by_cases none : clashes = []
    · have later : later ≠ [] := fun empty => some (by rw [none, empty]; rfl)
      obtain ⟨key, mine, value, listed, there, different⟩ := next.differs later
      exact ⟨key, mine, value, List.mem_append_right _ listed, before listed there, different⟩
    · obtain ⟨key, mine, value, listed, there, different⟩ := takes.differs none
      exact ⟨key, mine, value, List.mem_append_left _ listed, there, different⟩

/-- Rows with a key each, all authored, are all taken; by induction on them. -/
theorem foldlM_takeWrite {doc other : MetadataDoc α} {rows : List (String × α)}
    (signed : doc.Signed) (authored : ∀ row ∈ rows, ∃ author, other.authors[row.1]? = some author)
    (apart : rows.Pairwise fun first second => first.1 ≠ second.1) (report : MergeReport)
    : ∃ after counted clashes,
        rows.foldlM (takeWrite other) (doc, report) = some (after, counted)
        ∧ doc.Takes rows after clashes
        ∧ counted.kept + counted.conflictsSurfaced
          = report.kept + report.conflictsSurfaced + rows.length := by
  induction rows generalizing doc report with
  | nil =>
      refine ⟨doc, report, [], rfl, ?_, rfl⟩
      exact ⟨fun _ _ there => there, fun _ _ listed => absurd listed List.not_mem_nil,
        fun _ _ there => Or.inl there, signed, (List.append_nil _).symm,
        fun _ _ _ listed => absurd listed List.not_mem_nil, fun some => absurd rfl some⟩
  | cons row rest ih =>
      obtain ⟨key, value⟩ := row
      obtain ⟨author, named⟩ := authored _ List.mem_cons_self
      have ⟨first, others⟩ := List.pairwise_cons.mp apart
      obtain ⟨middle, counted, clashes, taken, takes, count⟩ := takeWrite_some signed named report
      obtain ⟨after, last, later, folded, next, total⟩ :=
        ih takes.signed (fun row member => authored row (.tail _ member)) others counted
      refine ⟨after, last, clashes ++ later, ?_, takes.trans next ?_, ?_⟩
      · rw [List.foldlM_cons, taken]
        exact folded
      · intro row member other listed
        rw [List.mem_singleton.mp member]
        exact first other listed
      · rw [total, count, List.length_cons, Nat.add_assoc, Nat.add_comm 1]

/-- A conflict is taken once, however often it is reported. -/
theorem mem_takeConflict {conflicts : List (Conflict α)} {conflict member : Conflict α}
    : member ∈ takeConflict conflicts conflict ↔ member ∈ conflicts ∨ member = conflict := by
  unfold takeConflict
  split
  · next present => exact ⟨Or.inl, fun found => found.elim id fun same => same ▸ present⟩
  · rw [List.mem_append, List.mem_singleton]

/-- Taking conflicts over keeps all and adds those that were missing; by induction on them. -/
theorem mem_foldl_takeConflict {conflicts others : List (Conflict α)} {member : Conflict α}
    : member ∈ others.foldl takeConflict conflicts ↔ member ∈ conflicts ∨ member ∈ others := by
  induction others generalizing conflicts with
  | nil => simp
  | cons first rest ih => rw [List.foldl_cons, ih, mem_takeConflict, List.mem_cons, or_assoc]

/-- A merge with an authored document does not panic, and reports every one of its keys. -/
theorem merge_some {doc other : MetadataDoc α} (signed : doc.Signed) (authored : other.Signed)
    : ∃ merged report taken clashes,
        doc.merge other = some (merged, report)
        ∧ report.kept + report.conflictsSurfaced = other.writes.size
        ∧ doc.Takes other.writes.list taken clashes
        ∧ merged = { taken with
            conflicts := other.conflicts.foldl takeConflict (doc.conflicts ++ clashes) } := by
  obtain ⟨taken, report, clashes, folded, takes, counted⟩ :=
    foldlM_takeWrite signed (fun row member => authored _ _ (Table.mem_list.mp member))
      (Table.list_distinct other.writes) {}
  refine ⟨_, report, taken, clashes, ?_, ?_, takes, rfl⟩
  · rw [merge, folded, ← takes.conflicts]
    rfl
  · rw [counted, Std.ExtTreeMap.length_toList]
    exact Nat.zero_add _

/-- Rows that are held already change nothing, by induction on them. -/
theorem foldlM_takeWrite_held {doc other : MetadataDoc α} {rows : List (String × α)}
    (held : ∀ key value, (key, value) ∈ rows → doc.writes[key]? = some value) (report : MergeReport)
    : ∃ counted, rows.foldlM (takeWrite other) (doc, report) = some (doc, counted) := by
  induction rows generalizing report with
  | nil => exact ⟨report, rfl⟩
  | cons row rest ih =>
      obtain ⟨key, value⟩ := row
      have kept : takeWrite other (doc, report) (key, value)
          = some (doc, { report with kept := report.kept + 1 }) := by
        simp [takeWrite, held key value List.mem_cons_self]
      obtain ⟨counted, folded⟩ := ih (fun key value member => held key value (.tail _ member)) _
      exact ⟨counted, by rw [List.foldlM_cons, kept]; exact folded⟩

/-- Conflicts that are held already change nothing, by induction on them. -/
theorem foldl_takeConflict_held {conflicts others : List (Conflict α)}
    (held : ∀ conflict ∈ others, conflict ∈ conflicts)
    : others.foldl takeConflict conflicts = conflicts := by
  induction others with
  | nil => rfl
  | cons first rest ih =>
      rw [List.foldl_cons, takeConflict, if_pos (held first List.mem_cons_self)]
      exact ih fun conflict member => held conflict (.tail _ member)

/-- A document that holds what another one does is left alone by a merge with it. -/
theorem merge_held {doc other : MetadataDoc α}
    (writes : ∀ (key : String) value, other.writes[key]? = some value
      → doc.writes[key]? = some value)
    (conflicts : ∀ conflict ∈ other.conflicts, conflict ∈ doc.conflicts)
    : ∃ report, doc.merge other = some (doc, report) := by
  obtain ⟨report, folded⟩ : ∃ counted,
      other.writes.list.foldlM (takeWrite other) (doc, {}) = some (doc, counted) :=
    foldlM_takeWrite_held (fun key value member => writes key value (Table.mem_list.mp member)) {}
  refine ⟨report, ?_⟩
  have same := foldl_takeConflict_held conflicts
  simp only [merge, folded, Option.bind_eq_bind, Option.bind_some, same]
  rfl

end MetadataDoc

end VerticalAI.Contracts
