import VerticalAI.Kernel.Rebuild

/-! What opening makes of the lease rows: the newest unexpired lease of each slot, the rows it
sweeps, and the fences it restores.
-/

namespace VerticalAI.Kernel
open VerticalAI.Foundation VerticalAI.Contracts VerticalAI.Store

/-- A later grant supersedes an earlier one, and of two at one time the one with the
higher fence.
-/
theorem Lease.supersedes_iff {first second : Lease}
    : Lease.supersedes first second = true
      ↔ second.grantedAtMs < first.grantedAtMs
        ∨ second.grantedAtMs = first.grantedAtMs ∧ second.fence ≤ first.fence := by
  unfold Lease.supersedes
  rw [Bool.or_eq_true, Bool.and_eq_true, decide_eq_true_eq, decide_eq_true_eq, decide_eq_true_eq]

/-- What supersedes a lease supersedes every lease that this one supersedes. -/
theorem Lease.supersedes_trans {first second third : Lease}
    (newer : Lease.supersedes first second = true) (older : Lease.supersedes second third = true)
    : Lease.supersedes first third = true := by
  rw [Lease.supersedes_iff] at *
  simp only [UInt64.lt_iff_toNat_lt, UInt64.le_iff_toNat_le, ← UInt64.toNat_inj] at *
  omega

/-- One of two leases is not older than the other. -/
theorem Lease.supersedes_of_not {first second : Lease}
    (older : ¬Lease.supersedes first second = true)
    : Lease.supersedes second first = true := by
  rw [Lease.supersedes_iff] at *
  simp only [UInt64.lt_iff_toNat_lt, UInt64.le_iff_toNat_le, ← UInt64.toNat_inj] at *
  omega

/-- The leases are for the same resource, in the same partition. -/
def SameSlot (first second : Lease) : Prop := first.OnSlot second.resource second.partition

instance (first second : Lease) : Decidable (SameSlot first second) :=
  inferInstanceAs (Decidable (first.OnSlot _ _))

theorem SameSlot.symm {first second : Lease} (same : SameSlot first second)
    : SameSlot second first :=
  ⟨same.1.symm, same.2.symm⟩

theorem SameSlot.trans {first second third : Lease} (head : SameSlot first second)
    (tail : SameSlot second third)
    : SameSlot first third :=
  ⟨head.1.trans tail.1, head.2.trans tail.2⟩

/-- What has been made of these rows. -/
structure Replayed (nowMs : UInt64) (rows : List (String × Lease)) (replay : LeaseReplay)
    : Prop where
  among : ∀ row ∈ replay.newest, row ∈ rows ∧ row.2.expired nowMs = false
  single : ∀ row ∈ replay.newest, ∀ other ∈ replay.newest, SameSlot row.2 other.2 → row = other
  covers : ∀ row ∈ rows, row.2.expired nowMs = false
    → ∃ kept ∈ replay.newest, SameSlot kept.2 row.2
      ∧ (kept = row ∨ Lease.supersedes kept.2 row.2 = true)
  stale : ∀ key ∈ replay.stale, ∃ lease, (key, lease) ∈ rows ∧ (key, lease) ∉ replay.newest
  swept : ∀ row ∈ rows, row ∈ replay.newest ∨ row.1 ∈ replay.stale

/-- Replaying no rows leaves only the home. -/
theorem replayed_nil (nowMs : UInt64) (home : LockHome) : Replayed nowMs [] { home } where
  among _ member := absurd member List.not_mem_nil
  single _ member := absurd member List.not_mem_nil
  covers _ member := absurd member List.not_mem_nil
  stale _ member := absurd member List.not_mem_nil
  swept _ member := absurd member List.not_mem_nil

namespace Replayed

variable {nowMs : UInt64} {rows : List (String × Lease)} {replay : LeaseReplay} {key : String}
  {lease : Lease} {home : LockHome}

/-- A row that is not kept is swept. -/
theorem skip {newest : List (String × Lease)} (replayed : Replayed nowMs rows replay)
    (fresh : ∀ row ∈ rows, row.1 ≠ key) (same : ∀ row, row ∈ newest ↔ row ∈ replay.newest)
    (covered : lease.expired nowMs = false
      → ∃ kept ∈ replay.newest, SameSlot kept.2 lease ∧ Lease.supersedes kept.2 lease = true)
    : Replayed nowMs (rows ++ [(key, lease)]) ⟨newest, replay.stale ++ [key], home⟩ where
  among row member := by
    obtain ⟨read, unexpired⟩ := replayed.among row ((same row).mp member)
    exact ⟨List.mem_append_left _ read, unexpired⟩
  single row member other otherMember :=
    replayed.single row ((same row).mp member) other ((same other).mp otherMember)
  covers row member unexpired := by
    rcases List.mem_append.mp member with earlier | last
    · obtain ⟨kept, present, rest⟩ := replayed.covers row earlier unexpired
      exact ⟨kept, (same kept).mpr present, rest⟩
    · obtain rfl := List.mem_singleton.mp last
      obtain ⟨kept, present, slot, newer⟩ := covered unexpired
      exact ⟨kept, (same kept).mpr present, slot, Or.inr newer⟩
  stale name member := by
    rcases List.mem_append.mp member with earlier | last
    · obtain ⟨old, read, absent⟩ := replayed.stale name earlier
      exact ⟨old, List.mem_append_left _ read, fun present => absent ((same _).mp present)⟩
    · obtain rfl := List.mem_singleton.mp last
      refine ⟨lease, List.mem_append_right _ (List.mem_singleton_self _), fun present => ?_⟩
      exact fresh _ (replayed.among _ ((same _).mp present)).1 rfl
  swept row member := by
    rcases List.mem_append.mp member with earlier | last
    · exact (replayed.swept row earlier).imp (same row).mpr (List.mem_append_left _)
    · obtain rfl := List.mem_singleton.mp last
      exact Or.inr (List.mem_append_right _ (List.mem_singleton_self _))

/-- A row that is kept takes the place of what was kept on its slot. -/
theorem keep {newest : List (String × Lease)} {stale : List String}
    (replayed : Replayed nowMs rows replay) (fresh : ∀ row ∈ rows, row.1 ≠ key)
    (unexpired : lease.expired nowMs = false)
    (members : ∀ row, row ∈ newest
      ↔ row ∈ replay.newest ∧ ¬SameSlot row.2 lease ∨ row = (key, lease))
    (newer : ∀ row ∈ replay.newest, SameSlot row.2 lease → Lease.supersedes lease row.2 = true)
    (gone : ∀ name, name ∈ stale
      ↔ name ∈ replay.stale ∨ ∃ old, (name, old) ∈ replay.newest ∧ SameSlot old lease)
    : Replayed nowMs (rows ++ [(key, lease)]) ⟨newest, stale, home⟩ where
  among row member := by
    rcases (members row).mp member with ⟨earlier, -⟩ | rfl
    · exact ⟨List.mem_append_left _ (replayed.among row earlier).1, (replayed.among row earlier).2⟩
    · exact ⟨List.mem_append_right _ (List.mem_singleton_self _), unexpired⟩
  single row member other otherMember slot := by
    rcases (members row).mp member with ⟨earlier, apart⟩ | rfl
    · rcases (members other).mp otherMember with ⟨otherEarlier, -⟩ | rfl
      · exact replayed.single row earlier other otherEarlier slot
      · exact absurd slot apart
    · rcases (members other).mp otherMember with ⟨-, apart⟩ | rfl
      · exact absurd slot.symm apart
      · rfl
  covers row member live := by
    rcases List.mem_append.mp member with earlier | last
    · obtain ⟨kept, present, slot, rest⟩ := replayed.covers row earlier live
      by_cases taken : SameSlot kept.2 lease
      · refine ⟨(key, lease), (members _).mpr (Or.inr rfl), taken.symm.trans slot, Or.inr ?_⟩
        have above := newer kept present taken
        rcases rest with rfl | older
        · exact above
        · exact Lease.supersedes_trans above older
      · exact ⟨kept, (members kept).mpr (Or.inl ⟨present, taken⟩), slot, rest⟩
    · obtain rfl := List.mem_singleton.mp last
      exact ⟨(key, lease), (members _).mpr (Or.inr rfl), ⟨rfl, rfl⟩, Or.inl rfl⟩
  stale name member := by
    rcases (gone name).mp member with earlier | ⟨old, present, slot⟩
    · obtain ⟨old, read, absent⟩ := replayed.stale name earlier
      refine ⟨old, List.mem_append_left _ read, fun present => ?_⟩
      rcases (members _).mp present with ⟨kept, -⟩ | same
      · exact absent kept
      · exact fresh _ read (congrArg Prod.fst same)
    · refine ⟨old, List.mem_append_left _ (replayed.among _ present).1, fun kept => ?_⟩
      rcases (members _).mp kept with ⟨-, apart⟩ | same
      · exact apart slot
      · exact fresh _ (replayed.among _ present).1 (congrArg Prod.fst same)
  swept row member := by
    rcases List.mem_append.mp member with earlier | last
    · rcases replayed.swept row earlier with kept | swept
      · by_cases taken : SameSlot row.2 lease
        · exact Or.inr ((gone row.1).mpr (Or.inr ⟨row.2, kept, taken⟩))
        · exact Or.inl ((members row).mpr (Or.inl ⟨kept, taken⟩))
      · exact Or.inr ((gone row.1).mpr (Or.inl swept))
    · obtain rfl := List.mem_singleton.mp last
      exact Or.inl ((members _).mpr (Or.inr rfl))

/-- One more row, by cases on whether it is expired and what was kept on its slot. -/
theorem read (replayed : Replayed nowMs rows replay) (fresh : ∀ row ∈ rows, row.1 ≠ key)
    : Replayed nowMs (rows ++ [(key, lease)]) (replay.read nowMs key lease) := by
  have slot (row : String × Lease)
      : (row.2.resource = lease.resource && row.2.partition = lease.partition) = true
        ↔ SameSlot row.2 lease := by
    rw [Bool.and_eq_true, decide_eq_true_eq, decide_eq_true_eq]
    exact Iff.rfl
  have others (row : String × Lease)
      : row ∈ replay.newest.filter (fun row =>
            !(row.2.resource = lease.resource && row.2.partition = lease.partition))
        ↔ row ∈ replay.newest ∧ ¬SameSlot row.2 lease := by
    rw [List.mem_filter, Bool.not_eq_true', ← Bool.not_eq_true, slot]
  unfold LeaseReplay.read
  dsimp only
  split
  · next expired =>
      exact replayed.skip fresh (fun _ => Iff.rfl) fun live => absurd expired (by simp [live])
  · next unexpired =>
      rw [Bool.not_eq_true] at unexpired
      split
      · next previousKey previous found =>
          have present := List.mem_of_find?_eq_some found
          have there := List.find?_some found
          have taken : SameSlot previous lease := (slot (previousKey, previous)).mp there
          have unique (row : String × Lease) (member : row ∈ replay.newest)
              (same : SameSlot row.2 lease)
              : row = (previousKey, previous) :=
            replayed.single row member _ present (same.trans taken.symm)
          split
          · next newer =>
              refine replayed.skip fresh (fun row => ?_) fun _ =>
                ⟨(previousKey, previous), present, taken, newer⟩
              rw [List.mem_append, others, List.mem_singleton]
              constructor
              · rintro (⟨member, -⟩ | rfl)
                · exact member
                · exact present
              · intro member
                by_cases same : SameSlot row.2 lease
                · exact Or.inr (unique row member same)
                · exact Or.inl ⟨member, same⟩
          · next older =>
              refine replayed.keep fresh unexpired (fun row => ?_) (fun row member same => ?_)
                fun name => ?_
              · rw [List.mem_append, others, List.mem_singleton]
              · rw [unique row member same]
                exact Lease.supersedes_of_not older
              · rw [List.mem_append, List.mem_singleton]
                refine or_congr_right ⟨fun same => ?_, fun ⟨old, member, same⟩ => ?_⟩
                · exact ⟨previous, same ▸ present, taken⟩
                · exact congrArg Prod.fst (unique (name, old) member same)
      · next missing =>
          rw [List.find?_eq_none] at missing
          have free (row : String × Lease) (member : row ∈ replay.newest)
              (same : SameSlot row.2 lease)
              : False :=
            missing row member ((slot row).mpr same)
          refine replayed.keep fresh unexpired (fun row => ?_)
            (fun row member same => (free row member same).elim) fun name => ?_
          · rw [List.mem_append, others, List.mem_singleton]
          · exact (or_iff_left fun ⟨old, member, same⟩ => free (name, old) member same).symm

end Replayed

/-- Reading all rows of a table with distinct keys, by induction on the rows. -/
private theorem replayed_foldl {nowMs : UInt64} {seen rows : List (String × Lease)}
    {replay : LeaseReplay} (replayed : Replayed nowMs seen replay)
    (distinct : (seen ++ rows).Pairwise fun first second => first.1 ≠ second.1)
    : Replayed nowMs (seen ++ rows)
        (rows.foldl (fun replay row => replay.read nowMs row.1 row.2) replay) := by
  induction rows generalizing seen replay with
  | nil =>
      rw [List.append_nil]
      exact replayed
  | cons row rest ih =>
      rw [← List.singleton_append, ← List.append_assoc] at distinct ⊢
      rw [List.singleton_append, List.foldl_cons]
      refine ih (replayed.read fun other member => ?_) distinct
      exact (List.pairwise_append.mp (List.pairwise_append.mp distinct).1).2.2 other member row
        (List.mem_singleton_self _)

theorem leaseReplay_replayed (disk : StateDir) (nowMs : UInt64)
    : Replayed nowMs disk.leases.list (disk.leaseReplay nowMs) := by
  let start : LeaseReplay :=
    { home := disk.fences.list.foldl (fun home row => home.restore row.1 row.2) {} }
  have replayed : Replayed nowMs ([] ++ disk.leases.list)
      (disk.leases.list.foldl (fun replay row => replay.read nowMs row.1 row.2) start) :=
    replayed_foldl (replayed_nil nowMs _) (Table.list_distinct disk.leases)
  exact replayed

-----------------------------------------------------------------------------------------
-- What is restored
-----------------------------------------------------------------------------------------

/-- Every lease row is filed under its id. -/
def LeasesKeyed (disk : StateDir) : Prop :=
  ∀ (key : String) (lease : Lease), disk.leases[key]? = some lease → lease.id = key

section Restored

variable {disk : StateDir} {nowMs : UInt64} {stateDir nodeId : String}
  {recoveredPartialLine : Bool}

theorem foldl_restore_leases (rows : List (String × Lease)) (locks : LockTable)
    : (rows.foldl (fun locks row => locks.restore row.2) locks).leases
      = rows.foldl (fun built row => built.insert row.2.id row.2) locks.leases := by
  induction rows generalizing locks with
  | nil => rfl
  | cons row rest ih => rw [List.foldl_cons, List.foldl_cons, ih, LockTable.restore]

/-- The counter is not behind any restored lease, nor behind where it was. -/
theorem foldl_restore_counter (rows : List (String × Lease)) (locks : LockTable)
    : locks.counter ≤ (rows.foldl (fun locks row => locks.restore row.2) locks).counter
      ∧ ∀ row ∈ rows, ∀ number, LockTable.leaseNumber row.2.id = some number
        → number ≤ (rows.foldl (fun locks row => locks.restore row.2) locks).counter := by
  induction rows generalizing locks with
  | nil => exact ⟨UInt64.le_refl _, fun _ member => absurd member List.not_mem_nil⟩
  | cons row rest ih =>
      obtain ⟨grown, ahead⟩ := ih (locks.restore row.2)
      have first : locks.counter ≤ (locks.restore row.2).counter := by
        unfold LockTable.restore
        dsimp only
        split
        · exact Counter.le_max_left _ _
        · exact UInt64.le_refl _
      rw [List.foldl_cons]
      refine ⟨UInt64.le_trans first grown, fun other member number numbered => ?_⟩
      cases member with
      | tail _ member => exact ahead other member number numbered
      | head =>
          refine UInt64.le_trans ?_ grown
          unfold LockTable.restore
          rw [numbered]
          exact Counter.le_max_right _ _

/-- What bounds the numbers of the leases that are restored, and the counter they are restored over,
bounds the result; by induction.
-/
theorem foldl_restore_counter_le {bound : Nat} {rows : List (String × Lease)} {locks : LockTable}
    (below : locks.counter.toNat ≤ bound)
    (rowsBelow : ∀ row ∈ rows, ∀ number, LockTable.leaseNumber row.2.id = some number
      → number.toNat ≤ bound)
    : (rows.foldl (fun locks row => locks.restore row.2) locks).counter.toNat ≤ bound := by
  induction rows generalizing locks with
  | nil => exact below
  | cons row rest ih =>
      refine ih ?_ fun next member => rowsBelow next (.tail _ member)
      unfold LockTable.restore
      dsimp only
      split
      · next number numbered =>
          rw [Counter.toNat_max]
          exact max_le below (rowsBelow row (.head _) number numbered)
      · exact below

/-- What bounds a home's fences and what is restored into it bounds the result, by induction. -/
theorem foldl_restore_le {α : Type} {resource : α → String} {fence : α → UInt64} {bound : Nat}
    {rows : List α} {home : LockHome} (below : ∀ name, (home.highest name).toNat ≤ bound)
    (rowsBelow : ∀ row ∈ rows, (fence row).toNat ≤ bound) (name : String)
    : ((rows.foldl (fun home row => home.restore (resource row) (fence row)) home).highest
        name).toNat ≤ bound := by
  induction rows generalizing home with
  | nil => exact below name
  | cons row rest ih =>
      refine ih (fun other => ?_) fun next member => rowsBelow next (.tail _ member)
      rw [LockHome.highest_restore]
      split
      · exact max_le (below _) (rowsBelow row (.head _))
      · exact below other

/-- Restoring lowers no fence, and reaches each restored one; by induction. -/
theorem le_foldl_restore {α : Type} (resource : α → String) (fence : α → UInt64)
    (rows : List α) (home : LockHome)
    : (∀ name, (home.highest name).toNat
          ≤ ((rows.foldl (fun home row => home.restore (resource row) (fence row)) home).highest
              name).toNat)
      ∧ ∀ row ∈ rows, (fence row).toNat
          ≤ ((rows.foldl (fun home row => home.restore (resource row) (fence row)) home).highest
              (resource row)).toNat := by
  induction rows generalizing home with
  | nil => exact ⟨fun _ => le_refl _, fun _ member => absurd member List.not_mem_nil⟩
  | cons row rest ih =>
      obtain ⟨grown, reached⟩ := ih (home.restore (resource row) (fence row))
      rw [List.foldl_cons]
      refine ⟨fun name => le_trans ?_ (grown name), fun next member => ?_⟩
      · rw [LockHome.highest_restore]
        split
        · next same => exact same ▸ le_max_left _ _
        · exact le_refl _
      · cases member with
        | tail _ member => exact reached next member
        | head =>
            refine le_trans ?_ (grown _)
            rw [LockHome.highest_restore, if_pos rfl]
            exact le_max_right _ _

variable [Libraries]

/-- The restored leases are the newest ones. -/
theorem rebuild_leases (keyed : LeasesKeyed disk) {id : String} {lease : Lease}
    : (disk.rebuild stateDir nodeId recoveredPartialLine nowMs).locks.leases[id]? = some lease
      ↔ (id, lease) ∈ (disk.leaseReplay nowMs).newest := by
  have replayed := leaseReplay_replayed disk nowMs
  have named : ∀ row ∈ (disk.leaseReplay nowMs).newest, row.2.id = row.1 := fun row member =>
    keyed row.1 row.2 (Table.mem_list.mp (replayed.among row member).1)
  have agree : ∀ row ∈ (disk.leaseReplay nowMs).newest,
      ∀ other ∈ (disk.leaseReplay nowMs).newest, row.1 = other.1 → row = other := by
    intro row member other otherMember same
    have stored := Table.mem_list.mp (replayed.among row member).1
    have otherStored := Table.mem_list.mp (replayed.among other otherMember).1
    rw [same, otherStored] at stored
    exact Prod.ext same (Option.some.inj stored).symm
  have built : (disk.rebuild stateDir nodeId recoveredPartialLine nowMs).locks.leases
      = (disk.leaseReplay nowMs).newest.foldl (fun built row => built.insert row.1 row.2) ∅ := by
    unfold StateDir.rebuild
    dsimp only
    rw [foldl_restore_leases]
    exact List.foldl_ext _ _ _ fun built row member => by rw [named row member]
  rw [built, Table.getElem?_foldl_insert agree, Std.ExtTreeMap.getElem?_empty]
  simp only [reduceCtorEq, and_false, or_false]

theorem rebuild_lockCounter {row : String × Lease} (kept : row ∈ (disk.leaseReplay nowMs).newest)
    {number : UInt64} (numbered : LockTable.leaseNumber row.2.id = some number)
    : number ≤ (disk.rebuild stateDir nodeId recoveredPartialLine nowMs).locks.counter :=
  (foldl_restore_counter (disk.leaseReplay nowMs).newest {}).2 row kept number numbered

/-- The restored fences are those of the record and those of the lease rows. -/
theorem rebuild_home
    : (disk.rebuild stateDir nodeId recoveredPartialLine nowMs).home
      = disk.leases.list.foldl (fun home row => home.restore row.2.resource row.2.fence)
          (disk.fences.list.foldl (fun home row => home.restore row.1 row.2) {}) := by
  have read (rows : List (String × Lease)) (replay : LeaseReplay)
      : (rows.foldl (fun replay row => replay.read nowMs row.1 row.2) replay).home
        = rows.foldl (fun home row => home.restore row.2.resource row.2.fence) replay.home := by
    induction rows generalizing replay with
    | nil => rfl
    | cons row rest ih =>
        rw [List.foldl_cons, List.foldl_cons, ih]
        congr 1
        unfold LeaseReplay.read
        dsimp only
        split
        · rfl
        · split
          · split <;> rfl
          · rfl
  exact read _ _

/-- A stored fence is reached again. -/
theorem rebuild_fence_le {resource : String} {fence : UInt64}
    (stored : disk.fences[resource]? = some fence)
    : fence.toNat
      ≤ ((disk.rebuild stateDir nodeId recoveredPartialLine nowMs).home.highest resource).toNat := by
  rw [rebuild_home]
  generalize homed : disk.fences.list.foldl
    (fun (home : LockHome) row => home.restore row.1 row.2) {} = home
  have restored : fence.toNat ≤ (home.highest resource).toNat := by
    rw [← homed]
    exact (le_foldl_restore Prod.fst Prod.snd disk.fences.list {}).2 (resource, fence)
      (Table.mem_list.mpr stored)
  refine restored.trans ?_
  exact (le_foldl_restore (fun row : String × Lease => row.2.resource) (fun row => row.2.fence)
    disk.leases.list home).1 resource

end Restored

end VerticalAI.Kernel
