import VerticalAI.Kernel.ApprovalHistory
import VerticalAI.Kernel.KeyValues

/-! The `kv` table holds what the kernel thinks it holds: prefixes list whole families, and
along every run the table of texts stands for the counter, the fences and the other families of
the node.
-/

namespace VerticalAI.Correctness
open VerticalAI.Foundation VerticalAI.Contracts VerticalAI.Store VerticalAI.Kernel

/-- Whatever a prefix is made of, wildcards, escapes and zero characters included: it is listed unless
its pattern is too long; what is listed under it, ordered by key, are just the entries whose keys begin
with it up to the case of ASCII letters, or that are the same up to the first zero character of one
that has any; so none that begins with it is missing.
-/
theorem prefix_listing_is_exact (kv : KeyValues) (front : String)
    : ((∃ rows, kv.kvListPrefix front = .ok rows)
        ↔ (Utf8.encode (KeyValues.pattern front)).length ≤ KeyValues.maxPattern ∨ kv.list = [])
      ∧ ∀ rows, kv.kvListPrefix front = .ok rows →
          (∀ key value, (key, value) ∈ rows
            ↔ kv.kvGet key = some value ∧ KeyValues.Lists front key)
          ∧ rows.Pairwise (fun first second => compare first.1 second.1 = .lt)
          ∧ ∀ rest value, kv.kvGet (front ++ rest) = some value → (front ++ rest, value) ∈ rows :=
  ⟨KeyValues.kvListPrefix_isOk, fun _ listed =>
    ⟨fun _ _ => KeyValues.mem_kvListPrefix listed, KeyValues.kvListPrefix_increasing listed,
      fun rest _ stored =>
        (KeyValues.mem_kvListPrefix listed).mpr ⟨stored, KeyValues.lists_append front rest⟩⟩⟩

/-- One update of a world, and of the table the `kv_set` that it is. -/
def KvStep (before after : World × KeyValues) : Prop :=
  ∃ update : Update, after = (update.apply before.1, update.onKv before.2)

/-- Updates one at a time, with the table beside them. -/
def KvFollows : World × KeyValues → World × KeyValues → Prop := Relation.ReflTransGen KvStep

/-- A table goes along with every trail of updates, by induction on it. -/
theorem kvFollows_of_trail {allowed : World → Update → Prop} {first last : World}
    (trail : Trail allowed first last) (kv : KeyValues)
    : ∃ after, KvFollows (first, kv) (last, after) := by
  induction trail with
  | refl => exact ⟨kv, .refl⟩
  | tail _ admits ih =>
      obtain ⟨update, -, rfl⟩ := admits
      obtain ⟨middle, follows⟩ := ih
      exact ⟨update.onKv middle, follows.tail ⟨update, rfl⟩⟩

/-- Updates keep the table in step, by induction on them. -/
theorem KvFollows.holds {before after : World × KeyValues} (follows : KvFollows before after)
    (holds : HoldsFamilies before.2 before.1.disk)
    : HoldsFamilies after.2 after.1.disk := by
  induction follows with
  | refl => exact holds
  | tail _ step ih =>
      obtain ⟨update, rfl⟩ := step
      exact ih.apply update

/-- Opening a database creates its tables again where they are missing. -/
theorem holdsFamilies_migrate {kv : KeyValues} {disk : StateDir} (holds : HoldsFamilies kv disk)
    : HoldsFamilies kv.migrate disk := by
  constructor
  · intro name
    by_cases same : name.text = "schema_version"
    · obtain rfl : name = .schema := KvKey.text_injective same
      exact Std.ExtTreeMap.getElem?_insert_self
    · rw [KeyValues.kvGet, KeyValues.migrate, KeyValues.kvSet, Table.getElem?_insert_ne same]
      exact holds.found name
  · intro key value stored
    rcases Table.getElem?_insert_inv stored with ⟨rfl, -⟩ | before
    · exact ⟨.schema, rfl⟩
    · exact holds.named key value before

section Runs

variable [Libraries]

/-- The table as an event finds it. -/
def kvBefore (machine : Machine) (event : Event) (kv : KeyValues) : KeyValues :=
  match event with
  | .open _ _ _ _ _ => if machine.up then kv else kv.migrate
  | _ => kv

/-- A table that a run leaves. -/
inductive KvRun : List Event → KeyValues → Prop
  | new : KvRun [] (KeyValues.migrate ∅)
  | step {events : List Event} {event : Event} {kv after : KeyValues} {last : World}
      (before : KvRun events kv)
      (follows : KvFollows
        ((nodeAfter events).world, kvBefore (nodeAfter events) event kv) (last, after))
      (leaves : (nodeAfter (events ++ [event])).world.disk = last.disk)
    : KvRun (events ++ [event]) after

theorem KvRun.exists (events : List Event) : ∃ kv, KvRun events kv := by
  induction events using List.reverseRecOn with
  | nil => exact ⟨_, .new⟩
  | append_singleton events event ih =>
      obtain ⟨kv, before⟩ := ih
      have leaves : (nodeAfter (events ++ [event])).world.disk
          = ((nodeAfter events).step event).world.disk := by
        rw [nodeAfter_concat]
      rcases (nodeAfter events).step_cases event with
        ⟨call, faults, rfl, up, stepped⟩ | ⟨last, trail, stepped⟩
      · obtain ⟨after, follows⟩ := kvFollows_of_trail
          ((invoke_emits call).trail (nodeAfter events).world faults) kv
        exact ⟨after, .step before follows (leaves.trans (congrArg World.disk stepped))⟩
      · obtain ⟨after, follows⟩ := kvFollows_of_trail trail (kvBefore (nodeAfter events) event kv)
        exact ⟨after, .step before follows (leaves.trans stepped)⟩

theorem KvRun.holds {events : List Event} {kv : KeyValues} (run : KvRun events kv)
    : HoldsFamilies kv (nodeAfter events).world.disk := by
  induction run with
  | new => exact holdsFamilies_new
  | @step events event kv after last _ follows leaves ih =>
      have begun : HoldsFamilies (kvBefore (nodeAfter events) event kv)
          (nodeAfter events).world.disk := by
        unfold kvBefore
        split
        · split
          · exact ih
          · exact holdsFamilies_migrate ih
        · exact ih
      rw [leaves]
      exact follows.holds begun

/-- Along every run, wherever calls fail or crash: there is a `kv` table that goes along with
it, and any that does holds just the families of the node, each under its own key; a process
that is opened on it reads back the fences that were granted and the counter.
-/
theorem kv_table_stands_for_families (events : List Event)
    : (∃ kv, KvRun events kv)
      ∧ ∀ kv, KvRun events kv →
          let disk := (nodeAfter events).world.disk
          HoldsFamilies kv disk
          ∧ restoreFences kv
            = .ok (disk.fences.list.foldl (fun home row => home.restore row.1 row.2) {})
          ∧ restoreCounter kv = disk.counter.getD 0 :=
  ⟨KvRun.exists events, fun _ run =>
    ⟨run.holds, run.holds.restoreFences, run.holds.restoreCounter⟩⟩

end Runs

end VerticalAI.Correctness
