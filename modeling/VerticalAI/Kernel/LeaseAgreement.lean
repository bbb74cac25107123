import VerticalAI.Kernel.Leases

/-! The leases of a process and the leases that opening would rebuild from the rows: the same ones,
unless a lease was granted whose filing left something behind that matters.
-/

namespace VerticalAI.Kernel
open VerticalAI.Foundation VerticalAI.Contracts VerticalAI.Store

/-- A row that this lease took the slot of and that opening would never prefer to it: the lease
expires no earlier, and the row is not as new.
-/
structure Lease.Outlasts (lease row : Lease) : Prop where
  slot : SameSlot row lease
  deadline : row.grantedAtMs + row.ttlMs ≤ lease.grantedAtMs + lease.ttlMs
  newer : Lease.supersedes row lease = false

theorem Lease.Outlasts.unexpired {lease row : Lease} (outlasts : Lease.Outlasts lease row)
    {nowMs : UInt64} (live : row.expired nowMs = false)
    : lease.expired nowMs = false := by
  have deadline := outlasts.deadline
  simp only [Lease.expired, decide_eq_false_iff_not, UInt64.lt_iff_toNat_lt,
    UInt64.le_iff_toNat_le] at live deadline ⊢
  omega

/-- The lock table's leases are rows of their own, one for each slot; every other row is outlasted
by one of them; and the id counter is not behind.
-/
structure LeasesAgree (rows : Table Lease) (locks : LockTable) : Prop where
  stored : ∀ (id : String) (lease : Lease), locks.leases[id]? = some lease → rows[id]? = some lease
  single : ∀ (id other : String) (lease rival : Lease),
    locks.leases[id]? = some lease → locks.leases[other]? = some rival → SameSlot lease rival
    → id = other
  covered : ∀ (key : String) (row : Lease), rows[key]? = some row
    → locks.leases[key]? = some row
      ∨ ∃ (id : String) (lease : Lease),
          locks.leases[id]? = some lease ∧ Lease.Outlasts lease row
  numbered : ∀ (id : String) (lease : Lease) (number : UInt64),
    locks.leases[id]? = some lease → LockTable.leaseNumber id = some number
    → number ≤ locks.counter

namespace LeasesAgree

section Rebuilt

variable {disk : StateDir} {locks : LockTable} {nowMs : UInt64} {id : String} {lease : Lease}

/-- A lease of the process is the newest row of its slot, until it expires. -/
theorem newest (agree : LeasesAgree disk.leases locks) (held : locks.leases[id]? = some lease)
    (unexpired : lease.expired nowMs = false)
    : (id, lease) ∈ (disk.leaseReplay nowMs).newest := by
  have replayed := leaseReplay_replayed disk nowMs
  have stored := agree.stored id lease held
  obtain ⟨⟨key, row⟩, present, slot, rest⟩ :=
    replayed.covers (id, lease) (Table.mem_list.mpr stored) unexpired
  rcases rest with same | supersedes
  · exact same ▸ present
  · have there := Table.mem_list.mp (replayed.among _ present).1
    rcases agree.covered key row there with kept | ⟨other, rival, kept, outlasts⟩
    · obtain rfl : key = id := agree.single key id row lease kept held slot
      rw [held] at kept
      exact Option.some.inj kept ▸ present
    · obtain rfl : other = id :=
        agree.single other id rival lease kept held (outlasts.slot.symm.trans slot)
      rw [held] at kept
      obtain rfl := Option.some.inj kept
      exact absurd supersedes (by simp [outlasts.newer])

/-- The newest unexpired rows are the process's leases. -/
theorem of_newest (agree : LeasesAgree disk.leases locks)
    (present : (id, lease) ∈ (disk.leaseReplay nowMs).newest)
    : locks.leases[id]? = some lease := by
  have replayed := leaseReplay_replayed disk nowMs
  obtain ⟨read, unexpired⟩ := replayed.among _ present
  rcases agree.covered id lease (Table.mem_list.mp read) with held | ⟨other, rival, held, outlasts⟩
  · exact held
  · have newest := agree.newest held (outlasts.unexpired unexpired)
    have same := replayed.single _ newest _ present outlasts.slot.symm
    cases same
    exact held

/-- The unexpired leases of the process are those that opening would rebuild. -/
theorem rebuilt [Libraries] (agree : LeasesAgree disk.leases locks) (keyed : LeasesKeyed disk)
    {stateDir nodeId : String} {recoveredPartialLine : Bool}
    : locks.leases[id]? = some lease ∧ lease.expired nowMs = false
      ↔ (disk.rebuild stateDir nodeId recoveredPartialLine nowMs).locks.leases[id]? = some lease
        ∧ lease.expired nowMs = false := by
  rw [rebuild_leases keyed]
  exact and_congr_left fun unexpired =>
    ⟨fun held => agree.newest held unexpired, fun present => agree.of_newest present⟩

end Rebuilt

section Steps

/-- A process that was opened holds the leases of the rows that were kept. -/
theorem opened [Libraries] {disk : StateDir} (keyed : LeasesKeyed disk) {stateDir nodeId : String}
    {recoveredPartialLine : Bool} {nowMs : UInt64}
    : LeasesAgree
        ((disk.leaseReplay nowMs).stale.foldl (fun rows key => rows.erase key) disk.leases)
        (disk.rebuild stateDir nodeId recoveredPartialLine nowMs).locks := by
  have replayed := leaseReplay_replayed disk nowMs
  refine ⟨fun id lease held => ?_, fun id other lease rival held rivalHeld slot => ?_,
    fun key row stored => ?_, fun id lease number held numbered => ?_⟩
  · have present := (rebuild_leases keyed).mp held
    have stored := Table.mem_list.mp (replayed.among _ present).1
    refine (Table.getElem?_foldl_erase _ _).mpr ⟨fun swept => ?_, stored⟩
    obtain ⟨old, read, absent⟩ := replayed.stale id swept
    rw [Table.mem_list, stored] at read
    exact absent (Option.some.inj read ▸ present)
  · have same := replayed.single _ ((rebuild_leases keyed).mp held) _
      ((rebuild_leases keyed).mp rivalHeld) slot
    exact congrArg Prod.fst same
  · obtain ⟨unswept, present⟩ := (Table.getElem?_foldl_erase _ _).mp stored
    rcases replayed.swept (key, row) (Table.mem_list.mpr present) with newest | swept
    · exact Or.inl ((rebuild_leases keyed).mpr newest)
    · exact absurd swept unswept
  · have present := (rebuild_leases keyed).mp held
    refine rebuild_lockCounter present ?_
    rw [keyed id lease (Table.mem_list.mp (replayed.among _ present).1)]
    exact numbered

variable {rows after : Table Lease} {table locks : LockTable} {home next : LockHome}
  {granted : Lease} {keys swept left : List String}

/-- A granted lease agrees with its row, if its number is a new one and each row of its slot that was
left is outlasted.
-/
theorem grant (agree : LeasesAgree rows table) (room : Counter.HasNext table.counter)
    (acquired : LockTable.Acquired table home granted locks next)
    (listed : ∀ key, key ∈ keys ↔ ∃ row, rows[key]? = some row
      ∧ row.OnSlot granted.resource granted.partition)
    (split : keys.filter (· ≠ granted.id) = swept ++ left)
    (settled : ∀ key ∈ left, ∀ row, rows[key]? = some row → Lease.Outlasts granted row)
    : LeasesAgree
        (swept.foldl (fun rows key => rows.erase key) (rows.insert granted.id granted)) locks := by
  obtain ⟨kept, leases, keptIff⟩ := acquired.leases
  have fresh {id : String} {lease : Lease} (held : table.leases[id]? = some lease)
      : id ≠ granted.id := by
    rintro rfl
    have number := agree.numbered _ lease _ held
      ((congrArg LockTable.leaseNumber acquired.id).trans (LockTable.leaseNumber_leaseId _))
    exact absurd (Counter.lt_succ room) (UInt64.not_lt.mpr number)
  have heldIff (id : String) (lease : Lease)
      : locks.leases[id]? = some lease
        ↔ id = granted.id ∧ lease = granted
          ∨ table.leases[id]? = some lease
            ∧ ¬lease.OnSlot granted.resource granted.partition := by
    rw [leases]
    by_cases same : id = granted.id
    · subst same
      rw [Std.ExtTreeMap.getElem?_insert_self, Option.some.injEq]
      constructor
      · exact fun equal => Or.inl ⟨rfl, equal.symm⟩
      · rintro (⟨-, equal⟩ | ⟨held, -⟩)
        · exact equal.symm
        · exact absurd rfl (fresh held)
    · rw [Table.getElem?_insert_ne same, keptIff]
      simp [same]
  refine ⟨fun id lease held => ?_, fun id other lease rival held rivalHeld slot => ?_,
    fun key row stored => ?_, fun id lease number held numbered => ?_⟩
  · rw [getElem?_filed rows split]
    rcases (heldIff id lease).mp held with named | ⟨earlier, elsewhere⟩
    · exact Or.inl named
    · have stored := agree.stored id lease earlier
      refine Or.inr ⟨fresh earlier, fun gone => ?_, stored⟩
      have member : id ∈ keys.filter (· ≠ granted.id) := split ▸ List.mem_append_left _ gone
      obtain ⟨row, present, on⟩ := (listed id).mp (List.mem_filter.mp member).1
      rw [stored] at present
      exact elsewhere (Option.some.inj present ▸ on)
  · rcases (heldIff id lease).mp held with ⟨rfl, rfl⟩ | ⟨earlier, elsewhere⟩
    · rcases (heldIff other rival).mp rivalHeld with ⟨rfl, -⟩ | ⟨-, apart⟩
      · rfl
      · exact absurd slot.symm apart
    · rcases (heldIff other rival).mp rivalHeld with ⟨-, rfl⟩ | ⟨rivalEarlier, -⟩
      · exact absurd slot elsewhere
      · exact agree.single id other lease rival earlier rivalEarlier slot
  · rcases (getElem?_filed rows split).mp stored with ⟨rfl, rfl⟩ | ⟨different, unswept, present⟩
    · exact Or.inl ((heldIff _ _).mpr (Or.inl ⟨rfl, rfl⟩))
    · by_cases on : row.OnSlot granted.resource granted.partition
      · have member : key ∈ keys.filter (· ≠ granted.id) :=
          List.mem_filter.mpr ⟨(listed key).mpr ⟨row, present, on⟩, decide_eq_true different⟩
        rw [split, List.mem_append] at member
        have outlasts := settled key (member.resolve_left unswept) row present
        exact Or.inr ⟨granted.id, granted, (heldIff _ _).mpr (Or.inl ⟨rfl, rfl⟩), outlasts⟩
      · rcases agree.covered key row present with held | ⟨id, lease, held, outlasts⟩
        · exact Or.inl ((heldIff key row).mpr (Or.inr ⟨held, on⟩))
        · have elsewhere : ¬lease.OnSlot granted.resource granted.partition := fun there =>
            on ⟨outlasts.slot.1.trans there.1, outlasts.slot.2.trans there.2⟩
          exact Or.inr ⟨id, lease, (heldIff id lease).mpr (Or.inr ⟨held, elsewhere⟩), outlasts⟩
  · rw [acquired.counter]
    rcases (heldIff id lease).mp held with ⟨rfl, -⟩ | ⟨earlier, -⟩
    · rw [acquired.id, LockTable.leaseNumber_leaseId] at numbered
      exact Option.some.inj numbered ▸ UInt64.le_refl _
    · exact Counter.le_succ_of_le room (agree.numbered id lease number earlier numbered)

end Steps

end LeasesAgree

end VerticalAI.Kernel
