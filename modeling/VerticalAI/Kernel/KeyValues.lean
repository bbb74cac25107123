import VerticalAI.Kernel.State
import VerticalAI.Store.KeyValues

/-! The families of the `kv` table: under which keys the kernel keeps its counter, the policies
version, the head of the ledger, the fences and the counters of arches, and as which texts.
-/

namespace VerticalAI.Kernel
open VerticalAI.Foundation VerticalAI.Contracts VerticalAI.Store

/-- What a key of the table names. -/
inductive KvKey where
  | schema
  | counter
  | policies
  | head
  | fence (resource : String)
  | stats (archId : String)
  deriving DecidableEq

def KvKey.text : KvKey → String
  | .schema => "schema_version"
  | .counter => "counter"
  | .policies => "policies_version"
  | .head => "ledger.head"
  | .fence resource => "fence:" ++ resource
  | .stats archId => "stats:" ++ archId

/-- The first characters of a key tell its family. -/
def KvKey.stem : KvKey → List Char
  | .schema => ['s', 'c', 'h', 'e', 'm', 'a']
  | .counter => ['c', 'o', 'u', 'n', 't', 'e']
  | .policies => ['p', 'o', 'l', 'i', 'c', 'i']
  | .head => ['l', 'e', 'd', 'g', 'e', 'r']
  | .fence _ => ['f', 'e', 'n', 'c', 'e', ':']
  | .stats _ => ['s', 't', 'a', 't', 's', ':']

theorem KvKey.take_text (name : KvKey) : name.text.toList.take 6 = name.stem := by
  cases name with
  | fence resource => rw [text, String.toList_append]; rfl
  | stats archId => rw [text, String.toList_append]; rfl
  | _ => rfl

/-- No two names share a key. -/
theorem KvKey.text_injective {first second : KvKey} (same : first.text = second.text)
    : first = second := by
  have stems : first.stem = second.stem := by rw [← take_text, ← take_text, same]
  cases first <;> cases second <;> first
    | rfl
    | simp [stem] at stems; done
    | simpa [text] using same

/-- A number in decimal digits. -/
def decimalText (value : UInt64) : String := String.ofList (Nat.toDigits 10 value.toNat)

theorem parseU64_decimalText (value : UInt64)
    : Text.parseU64 (decimalText value).toList = some value := by
  rw [decimalText, String.toList_ofList, Text.parseU64_toDigits]

def headText (head : LedgerHead) : String :=
  String.ofList (Json.obj [("seq", .num head.seq.toNat), ("hash", .str head.hash)]).render

def ArchStats.text (stats : ArchStats) : String :=
  String.ofList (Json.obj [("calls", .num stats.calls.toNat),
    ("tokens_in", .num stats.tokensIn.toNat), ("projected", .num stats.projected.toNat)]).render

/-- The text a state directory has under a name. -/
def KvKey.value (disk : StateDir) : KvKey → Option String
  | .schema => some "1"
  | .counter => disk.counter.map decimalText
  | .policies => disk.policiesVersion
  | .head => disk.head.map headText
  | .fence resource => disk.fences[resource]?.map decimalText
  | .stats archId => disk.stats[archId]?.map ArchStats.text

/-- The table holds the families of a state directory, and nothing else. -/
structure HoldsFamilies (kv : KeyValues) (disk : StateDir) : Prop where
  found : ∀ name : KvKey, kv.kvGet name.text = name.value disk
  named : ∀ key value, kv.kvGet key = some value → ∃ name : KvKey, key = name.text

/-- The `kv_set` that an update is, if it is one. -/
def Update.kvSet : Update → Option (KvKey × String)
  | .setCounter value => some (.counter, decimalText value)
  | .setFence resource fence => some (.fence resource, decimalText fence)
  | .setStats archId stats => some (.stats archId, stats.text)
  | .setPoliciesVersion version => some (.policies, version)
  | .setHead head => some (.head, headText head)
  | _ => none

def Update.onKv (update : Update) (kv : KeyValues) : KeyValues :=
  match update.kvSet with
  | some (name, value) => kv.kvSet name.text value
  | none => kv

/-- What an update leaves under a name: what it sets there, or what was there. -/
theorem Update.value_apply (update : Update) (world : World) (name : KvKey)
    : name.value (update.apply world).disk
      = match update.kvSet with
        | some (other, value) => if name = other then some value else name.value world.disk
        | none => name.value world.disk := by
  cases update with
  | setCounter value => cases name <;> rfl
  | setPoliciesVersion version => cases name <;> rfl
  | setHead head => cases name <;> rfl
  | setFence resource fence =>
      cases name with
      | fence other =>
          by_cases same : other = resource
          · simp [kvSet, same, KvKey.value, apply, World.onDisk]
          · simp [kvSet, same, KvKey.value, apply, World.onDisk, Table.getElem?_insert_ne same]
      | _ => rfl
  | setStats archId stats =>
      cases name with
      | stats other =>
          by_cases same : other = archId
          · simp [kvSet, same, KvKey.value, apply, World.onDisk]
          · simp [kvSet, same, KvKey.value, apply, World.onDisk, Table.getElem?_insert_ne same]
      | _ => rfl
  | _ => cases name <;> rfl

/-- Every update keeps the table in step. -/
theorem HoldsFamilies.apply {kv : KeyValues} {world : World}
    (holds : HoldsFamilies kv world.disk) (update : Update)
    : HoldsFamilies (update.onKv kv) (update.apply world).disk := by
  constructor
  · intro name
    rw [update.value_apply, Update.onKv]
    cases set : update.kvSet with
    | none => exact holds.found name
    | some row =>
        obtain ⟨other, value⟩ := row
        by_cases same : name = other
        · dsimp only
          rw [same, if_pos rfl]
          exact Std.ExtTreeMap.getElem?_insert_self
        · dsimp only
          rw [if_neg same, KeyValues.kvGet, KeyValues.kvSet,
            Table.getElem?_insert_ne fun text => same (KvKey.text_injective text)]
          exact holds.found name
  · intro key value stored
    rw [Update.onKv] at stored
    cases set : update.kvSet with
    | none =>
        rw [set] at stored
        exact holds.named key value stored
    | some row =>
        rw [set] at stored
        rcases Table.getElem?_insert_inv stored with ⟨rfl, -⟩ | before
        · exact ⟨row.1, rfl⟩
        · exact holds.named key value before

/-- A new database holds what an empty state directory has. -/
theorem holdsFamilies_new : HoldsFamilies (KeyValues.migrate ∅) {} := by
  constructor
  · intro name
    by_cases same : name = .schema
    · rw [same]
      exact Std.ExtTreeMap.getElem?_insert_self
    · have apart : name.text ≠ "schema_version" := fun text =>
        same (@KvKey.text_injective _ .schema text)
      rw [KeyValues.kvGet, KeyValues.migrate, KeyValues.kvSet, Table.getElem?_insert_ne apart]
      cases name with
      | schema => exact absurd rfl same
      | _ => rfl
  · intro key value stored
    rcases Table.getElem?_insert_inv stored with ⟨rfl, -⟩ | before
    · exact ⟨.schema, rfl⟩
    · cases before

/-- The fences that opening reads back: those whose key and value are as the kernel writes them. -/
def restoreFences (kv : KeyValues) : Except String LockHome := do
  let rows ← kv.kvListPrefix "fence:"
  return rows.foldl (fun home row =>
    match Text.stripPrefix "fence:".toList row.1.toList, Text.parseU64 row.2.toList with
    | some resource, some fence => home.restore (String.ofList resource) fence
    | _, _ => home) {}

/-- The counter that opening reads back. -/
def restoreCounter (kv : KeyValues) : UInt64 :=
  ((kv.kvGet "counter").bind fun value => Text.parseU64 value.toList).getD 0

/-- Only fences are listed under their prefix, whatever cases match it. -/
theorem HoldsFamilies.fences {kv : KeyValues} {disk : StateDir} (holds : HoldsFamilies kv disk)
    : kv.kvListPrefix "fence:"
      = .ok (disk.fences.list.map fun row => ("fence:" ++ row.1, decimalText row.2)) := by
  apply KeyValues.kvListPrefix_eq
  · decide
  · rw [List.pairwise_map]
    exact (Table.list_increasing disk.fences).imp fun before => compare_append "fence:" before
  · intro key value
    rw [List.mem_map]
    constructor
    · rintro ⟨⟨resource, fence⟩, member, same⟩
      cases same
      have stored := holds.found (.fence resource)
      rw [KvKey.value, Table.mem_list.mp member, Option.map_some] at stored
      exact ⟨stored, KeyValues.lists_append "fence:" resource⟩
    · rintro ⟨stored, listed⟩
      have begins : Like.Begins "fence:".toList key.toList := by
        rwa [KeyValues.Lists, if_neg (by decide)] at listed
      obtain ⟨name, rfl⟩ := holds.named key value stored
      have folded : "fence:".toList.map Like.fold = name.stem.map Like.fold := by
        rw [← name.take_text, List.map_take]
        exact List.prefix_iff_eq_take.mp begins
      cases name with
      | fence resource =>
          rw [holds.found (.fence resource), KvKey.value, Option.map_eq_some_iff] at stored
          obtain ⟨fence, kept, rfl⟩ := stored
          exact ⟨(resource, fence), Table.mem_list.mpr kept, rfl⟩
      | _ => exact absurd folded (by simp only [KvKey.stem]; decide)

/-- Opening reads back the fences as they were granted. -/
theorem HoldsFamilies.restoreFences {kv : KeyValues} {disk : StateDir}
    (holds : HoldsFamilies kv disk)
    : restoreFences kv
      = .ok (disk.fences.list.foldl (fun home row => home.restore row.1 row.2) {}) := by
  have read (home : LockHome) (row : String × UInt64)
      : (match Text.stripPrefix "fence:".toList ("fence:" ++ row.1).toList,
            Text.parseU64 (decimalText row.2).toList with
          | some resource, some fence => home.restore (String.ofList resource) fence
          | _, _ => home) = home.restore row.1 row.2 := by
    rw [String.toList_append, Text.stripPrefix_append, parseU64_decimalText]
    exact congrArg (home.restore · row.2) String.ofList_toList
  rw [Kernel.restoreFences, holds.fences]
  change Except.ok (List.foldl _ _ _) = _
  rw [List.foldl_map]
  simp only [read]

/-- And the counter. -/
theorem HoldsFamilies.restoreCounter {kv : KeyValues} {disk : StateDir}
    (holds : HoldsFamilies kv disk)
    : restoreCounter kv = disk.counter.getD 0 := by
  have found : kv.kvGet "counter" = disk.counter.map decimalText := holds.found .counter
  rw [Kernel.restoreCounter, found]
  cases disk.counter with
  | none => rfl
  | some value => simp [parseU64_decimalText]

end VerticalAI.Kernel
