import VerticalAI.Foundation.Like
import VerticalAI.Foundation.Table
import VerticalAI.Foundation.Utf8

/-! The `kv` table of the metadata tier: single values by key, and families of them by prefix. -/

namespace VerticalAI.Store
open VerticalAI.Foundation

/-- The rows of `kv`. -/
abbrev KeyValues := Table String

namespace KeyValues

def kvGet (kv : KeyValues) (key : String) : Option String := kv[key]?

def kvSet (kv : KeyValues) (key value : String) : KeyValues := kv.insert key value

/-- What a new database holds. -/
def migrate (kv : KeyValues) : KeyValues := kv.kvSet "schema_version" "1"

/-- The pattern that keys with this prefix match. -/
def pattern (front : String) : List Char := Like.escaped front.toList ++ ['%']

/-- How many bytes a pattern may have. -/
def maxPattern : Nat := 50000

/-- The entries whose keys match the pattern of a prefix, ordered by key. -/
def matched (kv : KeyValues) (front : String) : List (String × String) :=
  kv.list.filter fun row => Like.like '\\' (pattern front) row.1.toList

/-- Every entry whose key matches the pattern of a prefix; the first row that is looked at refuses a
pattern that is too long.
-/
def kvListPrefix (kv : KeyValues) (front : String) : Except String (List (String × String)) :=
  if maxPattern < (Utf8.encode (pattern front)).length ∧ kv.list ≠ [] then
    .error "LIKE or GLOB pattern too complex"
  else .ok (kv.matched front)

/-- A key is listed under a prefix: it begins with it, up to the case of letters; under one with a zero
character it is the same up to there.
-/
def Lists (front key : String) : Prop :=
  if '\x00' ∈ front.toList then
    (Like.cString key.toList).map Like.fold = (Like.cString front.toList).map Like.fold
  else Like.Begins front.toList key.toList

variable {kv : KeyValues} {front key value : String} {rows : List (String × String)}

/-- A key that begins with the prefix is listed under it. -/
theorem lists_append (front rest : String) : Lists front (front ++ rest) := by
  unfold Lists
  rw [String.toList_append]
  split
  · next zero =>
      obtain ⟨first, more, built, plain⟩ := List.eq_append_cons_of_mem zero
      rw [built, List.append_assoc, Like.cString_append plain, Like.cString_append plain,
        List.cons_append, Like.cString_cons, Like.cString_cons, if_pos rfl, if_pos rfl]
  · rw [Like.Begins, List.map_append]
    exact List.prefix_append _ _

theorem mem_matched
    : (key, value) ∈ kv.matched front ↔ kv.kvGet key = some value ∧ Lists front key := by
  rw [matched, List.mem_filter, Table.mem_list, pattern, Like.like_escaped]
  rfl

/-- The entries listed are those whose keys are listed under the prefix. -/
theorem mem_kvListPrefix (listed : kv.kvListPrefix front = .ok rows)
    : (key, value) ∈ rows ↔ kv.kvGet key = some value ∧ Lists front key := by
  unfold kvListPrefix at listed
  split at listed
  · cases listed
  · obtain rfl := Except.ok.inj listed
    exact mem_matched

theorem kvListPrefix_increasing (listed : kv.kvListPrefix front = .ok rows)
    : rows.Pairwise fun first second => compare first.1 second.1 = .lt := by
  unfold kvListPrefix at listed
  split at listed
  · cases listed
  · obtain rfl := Except.ok.inj listed
    exact (Table.list_increasing kv).filter _

/-- A prefix is refused just if its pattern is too long and there is a row to look at. -/
theorem kvListPrefix_isOk
    : (∃ rows, kv.kvListPrefix front = .ok rows)
      ↔ (Utf8.encode (pattern front)).length ≤ maxPattern ∨ kv.list = [] := by
  unfold kvListPrefix
  split
  · next refused =>
      refine iff_of_false (fun ⟨_, listed⟩ => nomatch listed) ?_
      rintro (short | empty)
      · exact absurd refused.1 (not_lt.mpr short)
      · exact refused.2 empty
  · next listed =>
      rw [not_and_or, not_lt, not_not] at listed
      exact iff_of_true ⟨_, rfl⟩ listed

/-- A listing is the listing of the table with just those rows. -/
theorem kvListPrefix_eq (short : (Utf8.encode (pattern front)).length ≤ maxPattern)
    (increasing : rows.Pairwise fun first second => compare first.1 second.1 = .lt)
    (same : ∀ key value, (key, value) ∈ rows ↔ kv.kvGet key = some value ∧ Lists front key)
    : kv.kvListPrefix front = .ok rows := by
  let family : KeyValues := kv.filter fun key _ => Like.like '\\' (pattern front) key.toList
  have listed : family.list = kv.matched front := Std.ExtTreeMap.toList_filter
  rw [kvListPrefix, if_neg fun refused => absurd short (not_le.mpr refused.1), ← listed]
  refine congrArg _ (Table.list_eq increasing fun key value => ?_)
  rw [same, ← mem_matched, ← listed, Table.mem_list]

end KeyValues

/-- Keys with the same text in front are ordered as what follows it. -/
theorem compare_append {first second : String} (front : String)
    (before : compare first second = .lt)
    : compare (front ++ first) (front ++ second) = .lt := by
  have lt_iff (first second : String) : compare first second = .lt ↔ first < second := by
    change compareOfLessAndEq first second = .lt ↔ _
    unfold compareOfLessAndEq
    by_cases less : first < second
    · simp [less]
    · by_cases same : first = second <;> simp [less, same]
  rw [lt_iff, String.lt_iff] at before ⊢
  rw [String.toList_append, String.toList_append]
  exact List.append_left_lt before

end VerticalAI.Store
