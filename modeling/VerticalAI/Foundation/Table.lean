import Mathlib.Data.List.Sort
import Std.Data.ExtTreeMap

/-! Tables of rows by key, listed in key order. -/

namespace VerticalAI.Foundation

/-- A table with one row a key. -/
abbrev Table (α : Type) := Std.ExtTreeMap String α compare

namespace Table

variable {α β : Type}

/-- Every row with its key, ordered by key. -/
abbrev list (table : Table α) : List (String × α) := table.toList

/-- A row is listed exactly if it stands under its key. -/
theorem mem_list {table : Table α} {key : String} {row : α}
    : (key, row) ∈ table.list ↔ table[key]? = some row :=
  Std.ExtTreeMap.mem_toList_iff_getElem?_eq_some

/-- Keys are listed in increasing order. -/
theorem list_increasing (table : Table α)
    : table.list.Pairwise (fun first second => compare first.1 second.1 = .lt) :=
  Std.ExtTreeMap.ordered_keys_toList

/-- No key is listed twice. -/
theorem list_distinct (table : Table α)
    : table.list.Pairwise (fun first second => first.1 ≠ second.1) :=
  (list_increasing table).imp fun before equal => by
    rw [equal, Std.ReflOrd.compare_self] at before
    cases before

/-- Looking a key up in the listing is looking it up in the table. -/
theorem find?_list (table : Table α) (key : String)
    : table.list.find? (·.1 = key) = table[key]?.map (key, ·) := by
  cases found : table.list.find? (·.1 = key) with
  | none =>
      rw [List.find?_eq_none] at found
      cases held : table[key]? with
      | none => rfl
      | some row => exact absurd (decide_eq_true rfl) (found (key, row) (mem_list.mpr held))
  | some entry =>
      have named := List.find?_some found
      obtain rfl : entry.1 = key := of_decide_eq_true named
      rw [mem_list.mp (List.mem_of_find?_eq_some found)]
      rfl

/-- Rows with increasing keys are the listing of the table that holds exactly them. -/
theorem list_eq {table : Table α} {rows : List (String × α)}
    (increasing : rows.Pairwise (fun first second => compare first.1 second.1 = .lt))
    (same : ∀ key row, (key, row) ∈ rows ↔ table[key]? = some row)
    : table.list = rows := by
  have distinct {rows : List (String × α)}
      (ordered : rows.Pairwise (fun first second => compare first.1 second.1 = .lt))
      : rows.Nodup :=
    ordered.imp (fun before equal => by
      rw [equal, Std.ReflOrd.compare_self] at before
      exact absurd before (by decide))
  have asymmetric : ∀ first second : String × α,
      first ∈ table.list → second ∈ rows → compare first.1 second.1 = .lt
      → compare second.1 first.1 = .lt → first = second :=
    fun _ _ _ _ before after => absurd after (Std.OrientedCmp.not_lt_of_lt before)
  refine List.Perm.eq_of_pairwise asymmetric (list_increasing table) increasing ?_
  rw [List.perm_ext_iff_of_nodup (distinct (list_increasing table)) (distinct increasing)]
  intro row
  obtain ⟨key, row⟩ := row
  rw [mem_list, same]

theorem getElem?_insert_ne {table : Table α} {key other : String} {row : α}
    (different : other ≠ key)
    : (table.insert key row)[other]? = table[other]? := by
  rw [Std.ExtTreeMap.getElem?_insert, if_neg]
  intro equal
  exact different (Std.LawfulEqCmp.eq_of_compare equal).symm

/-- A row found after a write is the one written or was there before. -/
theorem getElem?_insert_inv {table : Table α} {key other : String} {row found : α}
    (held : (table.insert key row)[other]? = some found)
    : (other = key ∧ found = row) ∨ table[other]? = some found := by
  by_cases same : other = key
  · subst same
    rw [Std.ExtTreeMap.getElem?_insert_self] at held
    exact Or.inl ⟨rfl, (Option.some.inj held).symm⟩
  · rw [getElem?_insert_ne same] at held
    exact Or.inr held

/-- After rows were written that agree on their keys, a row is one of them or was there before and
none of them has its key; by induction on the rows.
-/
theorem getElem?_foldl_insert {rows : List (String × α)}
    (agree : ∀ row ∈ rows, ∀ other ∈ rows, row.1 = other.1 → row = other) (table : Table α)
    {key : String} {row : α}
    : (rows.foldl (fun (built : Table α) row => built.insert row.1 row.2) table)[key]? = some row
      ↔ (key, row) ∈ rows ∨ (∀ other, (key, other) ∉ rows) ∧ table[key]? = some row := by
  induction rows generalizing table with
  | nil => simp
  | cons first rest ih =>
      obtain ⟨name, value⟩ := first
      rw [List.foldl_cons, ih fun one member other otherMember =>
        agree one (.tail _ member) other (.tail _ otherMember)]
      by_cases same : key = name
      · subst same
        have only {other : α} (member : (key, other) ∈ rest) : other = value :=
          congrArg Prod.snd (agree _ (.tail _ member) _ (.head _) rfl)
        simp only [Std.ExtTreeMap.getElem?_insert_self, List.mem_cons, Prod.mk.injEq, true_and,
          Option.some.injEq]
        constructor
        · rintro (member | ⟨-, rfl⟩)
          · exact Or.inl (Or.inr member)
          · exact Or.inl (Or.inl rfl)
        · rintro ((rfl | member) | ⟨absent, -⟩)
          · by_cases listed : (key, row) ∈ rest
            · exact Or.inl listed
            · exact Or.inr ⟨fun other member => listed (only member ▸ member), rfl⟩
          · exact Or.inl member
          · exact absurd (Or.inl rfl) (absent value)
      · simp only [getElem?_insert_ne same, List.mem_cons, Prod.mk.injEq, same, false_and, false_or]

theorem getElem?_erase_other {table : Table α} {key other : String} (different : other ≠ key)
    : (table.erase key)[other]? = table[other]? := by
  rw [Std.ExtTreeMap.getElem?_erase, if_neg]
  exact fun equal => different (Std.LawfulEqCmp.eq_of_compare equal).symm

theorem getElem?_erase_ne {table : Table α} {key other : String} {row : α}
    (different : key ≠ other) (held : table[other]? = some row)
    : (table.erase key)[other]? = some row :=
  (getElem?_erase_other (Ne.symm different)).trans held

/-- A row that is left after an erasure was there before. -/
theorem getElem?_erase_inv {table : Table α} {key other : String} {row : α}
    (left : (table.erase key)[other]? = some row)
    : table[other]? = some row := by
  rw [Std.ExtTreeMap.getElem?_erase] at left
  split at left
  · cases left
  · exact left

/-- After keys were erased the other rows are left, by induction on the keys. -/
theorem getElem?_foldl_erase (keys : List String) (table : Table α) {key : String} {row : α}
    : (keys.foldl (fun (left : Table α) key => left.erase key) table)[key]? = some row
      ↔ key ∉ keys ∧ table[key]? = some row := by
  induction keys generalizing table with
  | nil => simp
  | cons first rest ih =>
      rw [List.foldl_cons, ih, Std.ExtTreeMap.getElem?_erase]
      by_cases same : first = key
      · simp [same]
      · have apart : compare first key ≠ .eq := fun equal => same (Std.LawfulEqCmp.eq_of_compare equal)
        simp [apart, Ne.symm same]

/-- A row stands in the listing between the rows with smaller and those with larger keys. -/
private theorem list_around {table changed : Table α} {key : String}
    (elsewhere : ∀ name, name ≠ key → changed[name]? = table[name]?)
    : list changed
      = table.list.filter (fun row => compare row.1 key = .lt)
        ++ (changed[key]?.map (key, ·)).toList
        ++ table.list.filter (fun row => compare key row.1 = .lt) := by
  have keyed {row : String × α} (member : row ∈ (changed[key]?.map (key, ·)).toList)
      : row.1 = key := by
    simp only [Option.mem_toList, Option.map_eq_some_iff] at member
    obtain ⟨value, -, rfl⟩ := member
    rfl
  have single : (changed[key]?.map (key, ·)).toList.Pairwise
      (fun first second => compare first.1 second.1 = .lt) := by
    cases changed[key]? with
    | none => exact List.Pairwise.nil
    | some row => exact List.pairwise_singleton _ _
  refine list_eq ?_ ?_
  · rw [List.pairwise_append, List.pairwise_append]
    refine ⟨⟨(list_increasing table).filter _, single, ?_⟩,
      (list_increasing table).filter _, ?_⟩
    · intro first member second middle
      rw [keyed middle]
      exact of_decide_eq_true (List.mem_filter.mp member).2
    · intro first member second later
      have above : compare key second.1 = .lt := of_decide_eq_true (List.mem_filter.mp later).2
      rcases List.mem_append.mp member with smaller | middle
      · have below : compare first.1 key = .lt :=
          of_decide_eq_true (List.mem_filter.mp smaller).2
        exact Std.TransCmp.lt_trans below above
      · rw [keyed middle]
        exact above
  · intro name row
    simp only [List.mem_append, List.mem_filter, decide_eq_true_eq, mem_list,
      Option.mem_toList, Option.map_eq_some_iff, Prod.mk.injEq]
    by_cases same : name = key
    · subst same
      simp only [Std.ReflOrd.compare_self, reduceCtorEq, and_false, false_or, or_false,
        true_and, exists_eq_right]
    · have neither : ¬∃ value, changed[key]? = some value ∧ key = name ∧ value = row := by
        rintro ⟨_, _, equal, _⟩
        exact same equal.symm
      rw [elsewhere name same, or_iff_left neither, ← and_or_left]
      refine and_iff_left ?_
      cases order : compare name key with
      | lt => exact Or.inl rfl
      | eq => exact absurd (Std.LawfulEqCmp.eq_of_compare order) same
      | gt => exact Or.inr (Std.OrientedCmp.lt_of_gt order)

/-- Writing a row changes the listing in one place. -/
theorem list_insert (table : Table α) (key : String)
    : ∃ before after,
        table.list = before ++ (table[key]?.map (key, ·)).toList ++ after
        ∧ ∀ row, list (table.insert key row) = before ++ [(key, row)] ++ after := by
  refine ⟨_, _, list_around fun _ _ => rfl, fun row => ?_⟩
  have elsewhere : ∀ name, name ≠ key → (table.insert key row)[name]? = table[name]? :=
    fun _ different => getElem?_insert_ne different
  rw [list_around elsewhere, Std.ExtTreeMap.getElem?_insert_self, Option.map_some, Option.toList_some]

/-- Writing every listed row into an empty table gives the table back. -/
theorem foldl_insert_list (table : Table α)
    : table.list.foldl (fun (built : Table α) row => built.insert row.1 row.2) ∅ = table := by
  have distinct : table.list.Pairwise (fun first second => ¬compare first.1 second.1 = .eq) :=
    (list_increasing table).imp fun before equal => by
      rw [before] at equal
      cases equal
  have listed := @Std.ExtTreeMap.ofList_eq_foldl String α compare _ table.list
  rw [← listed]
  refine Std.ExtTreeMap.ext_getElem? fun key => ?_
  cases found : table[key]? with
  | some row =>
      exact Std.ExtTreeMap.getElem?_ofList_of_mem Std.ReflCmp.compare_self distinct
        (mem_list.mpr found)
  | none =>
      apply Std.ExtTreeMap.getElem?_ofList_of_contains_eq_false
      rw [Bool.eq_false_iff, ne_eq, List.contains_iff_mem, List.mem_map]
      rintro ⟨row, member, rfl⟩
      rw [mem_list.mp member] at found
      cases found

-----------------------------------------------------------------------------------------
-- Adding what is missing
-----------------------------------------------------------------------------------------

/-- A table with the rows of another one whose keys it lacks. -/
def addMissing (table other : Table α) : Table α :=
  other.list.foldl (fun built row => built.insertIfNew row.1 row.2) table

/-- No key has different rows in both. -/
def Compatible (table other : Table α) : Prop :=
  ∀ (key : String) row found, table[key]? = some row → other[key]? = some found → row = found

/-- The first row with a key stays, by induction on the rows. -/
private theorem getElem?_foldl_insertIfNew (rows : List (String × α)) (table : Table α)
    (key : String)
    : (rows.foldl (fun (built : Table α) row => built.insertIfNew row.1 row.2) table)[key]?
      = table[key]?.or ((rows.find? (·.1 = key)).map (·.2)) := by
  induction rows generalizing table with
  | nil => simp
  | cons row rest ih =>
      rw [List.foldl_cons, ih, Std.ExtTreeMap.getElem?_insertIfNew]
      by_cases same : row.1 = key
      · subst same
        by_cases present : row.1 ∈ table
        · simp [present]
        · simp [present]
      · have apart : compare row.1 key ≠ .eq := fun equal => same (Std.LawfulEqCmp.eq_of_compare equal)
        simp [apart, same]

/-- Of two tables the first one's row stands, where it has one. -/
theorem getElem?_addMissing (table other : Table α) (key : String)
    : (addMissing table other)[key]? = table[key]?.or other[key]? := by
  rw [addMissing, getElem?_foldl_insertIfNew, find?_list, Option.map_map]
  cases other[key]? <;> rfl

/-- Of compatible tables all rows are there. -/
theorem getElem?_addMissing_iff {table other : Table α} (compatible : Compatible table other)
    {key : String} {row : α}
    : (addMissing table other)[key]? = some row
      ↔ table[key]? = some row ∨ other[key]? = some row := by
  rw [getElem?_addMissing]
  cases found : table[key]? with
  | none => simp
  | some held =>
      rw [Option.some_or]
      constructor
      · exact Or.inl
      · rintro (same | there)
        · exact same
        · rw [compatible key held row found there]

/-- Tables that agree where both have a row can be added in either order. -/
theorem addMissing_comm {table other : Table α} (compatible : Compatible table other)
    : addMissing table other = addMissing other table := by
  refine Std.ExtTreeMap.ext_getElem? fun key => ?_
  rw [getElem?_addMissing, getElem?_addMissing]
  cases first : table[key]? with
  | none => rw [Option.none_or, Option.or_none]
  | some row =>
      cases second : other[key]? with
      | none => rfl
      | some found => rw [Option.some_or, Option.some_or, compatible key row found first second]

/-- Adding missing rows is associative. -/
theorem addMissing_assoc (first second third : Table α)
    : addMissing (addMissing first second) third = addMissing first (addMissing second third) := by
  refine Std.ExtTreeMap.ext_getElem? fun key => ?_
  rw [getElem?_addMissing, getElem?_addMissing, getElem?_addMissing, getElem?_addMissing,
    Option.or_assoc]

theorem addMissing_self (table : Table α) : addMissing table table = table := by
  refine Std.ExtTreeMap.ext_getElem? fun key => ?_
  rw [getElem?_addMissing, Option.or_self]

end Table

end VerticalAI.Foundation
