import VerticalAI.Contracts.Principal
import VerticalAI.Foundation.Counter
import VerticalAI.Foundation.Text

/-! Leases on resources and the fences that order them. -/

namespace VerticalAI.Contracts
open VerticalAI.Foundation

structure Lease where
  id : String
  resource : String
  holder : Principal
  grantedAtMs : UInt64
  ttlMs : UInt64
  fence : UInt64
  partition : String
  deriving DecidableEq, Repr

/-- The sum is a `u64` and wraps. -/
def Lease.expired (lease : Lease) (nowMs : UInt64) : Bool :=
  lease.grantedAtMs + lease.ttlMs < nowMs

/-- The lease is for this resource, in this partition. -/
def Lease.OnSlot (lease : Lease) (resource partition : String) : Prop :=
  lease.resource = resource ∧ lease.partition = partition

instance (lease : Lease) (resource partition : String)
    : Decidable (lease.OnSlot resource partition) :=
  inferInstanceAs (Decidable (_ ∧ _))

/-- What is expired stays so. -/
theorem Lease.expired_mono {lease : Lease} {nowMs laterMs : UInt64} (later : nowMs ≤ laterMs)
    (expired : lease.expired nowMs = true)
    : lease.expired laterMs = true := by
  simp only [Lease.expired, decide_eq_true_eq, UInt64.lt_iff_toNat_lt, UInt64.le_iff_toNat_le]
    at expired later ⊢
  omega

inductive LockError where
  | held
  deriving DecidableEq, Repr

def LockError.text : LockError → String
  | .held => "resource is held by another principal"

/-- The fence issuer: the highest fence of each resource. -/
structure LockHome where
  next : Table UInt64 := ∅

namespace LockHome

def issueFence (home : LockHome) (resource : String) : UInt64 × LockHome :=
  let fence := home.next[resource]?.getD 0 + 1
  (fence, ⟨home.next.insert resource fence⟩)

/-- Reinstate the highest fence a restart must not reissue. -/
def restore (home : LockHome) (resource : String) (fence : UInt64) : LockHome :=
  ⟨home.next.insert resource (max (home.next[resource]?.getD 0) fence)⟩

/-- The highest fence known of a resource. -/
def highest (home : LockHome) (resource : String) : UInt64 := home.next[resource]?.getD 0

/-- Restoring a fence never lowers the one that was reached. -/
theorem highest_restore (home : LockHome) (resource : String) (fence : UInt64) (other : String)
    : ((home.restore resource fence).highest other).toNat
      = if other = resource then max (home.highest resource).toNat fence.toNat
        else (home.highest other).toNat := by
  unfold highest restore
  split
  · next same =>
      subst same
      rw [Std.ExtTreeMap.getElem?_insert_self, Option.getD_some, Counter.toNat_max]
  · next different => rw [Table.getElem?_insert_ne different]

/-- Issuing a fence counts up its own resource alone. -/
theorem highest_issueFence (home : LockHome) (resource other : String)
    : (home.issueFence resource).2.highest other
      = if other = resource then home.highest resource + 1 else home.highest other := by
  unfold highest issueFence
  dsimp only
  split
  · next same =>
      subst same
      rw [Std.ExtTreeMap.getElem?_insert_self]
      rfl
  · next different => rw [Table.getElem?_insert_ne different]

end LockHome

/-- `counter` numbers the leases it grants, and wraps past the last `u64`. -/
structure LockTable where
  leases : Table Lease := ∅
  counter : UInt64 := 0

namespace LockTable

def leaseId (number : UInt64) : String := s!"lease-{number}"

def acquire (table : LockTable) (resource : String) (holder : Principal)
    (nowMs ttlMs : UInt64) (partition : String) (home : LockHome)
    : Except LockError (Lease × LockTable × LockHome) :=
  let sameSlot (lease : Lease) := lease.resource = resource ∧ lease.partition = partition
  let existing := table.leases.list.find? fun row => sameSlot row.2
  if existing.any fun row => !row.2.expired nowMs && row.2.holder ≠ holder then .error .held
  else
    let kept := table.leases.filter fun _ lease => !decide (sameSlot lease)
    let counter := table.counter + 1
    let (fence, home) := home.issueFence resource
    let lease : Lease :=
      { id := leaseId counter, resource, holder, grantedAtMs := nowMs, ttlMs, fence, partition }
    .ok (lease, ⟨kept.insert lease.id lease, counter⟩, home)

/-- The number of a lease id this table could have minted. -/
def leaseNumber (id : String) : Option UInt64 :=
  (Text.stripPrefix "lease-".toList id.toList).bind Text.parseU64

/-- Reinstate a lease granted before a restart, keeping the id counter ahead of it. -/
def restore (table : LockTable) (lease : Lease) : LockTable where
  leases := table.leases.insert lease.id lease
  counter := match leaseNumber lease.id with
    | some number => max table.counter number
    | none => table.counter

def release (table : LockTable) (leaseId : String) : LockTable :=
  { table with leases := table.leases.erase leaseId }

def holderOf (table : LockTable) (resource partition : String) (nowMs : UInt64)
    : Option Principal :=
  (table.leases.list.find? fun row =>
    row.2.resource = resource && row.2.partition = partition && !row.2.expired nowMs).map
    (·.2.holder)

@[simp] theorem leaseNumber_leaseId (number : UInt64)
    : leaseNumber (leaseId number) = some number := by
  have spelled : (leaseId number).toList = "lease-".toList ++ Nat.toDigits 10 number.toNat := by
    simp [leaseId, toString, Nat.toList_repr]
  rw [leaseNumber, spelled, Text.stripPrefix_append, Option.bind_some, Text.parseU64_toDigits]

/-- Two numbers with one id are one number, since it is read back from the id. -/
theorem leaseId_injective {first second : UInt64} (same : leaseId first = leaseId second)
    : first = second := by
  have numbers := congrArg leaseNumber same
  rwa [leaseNumber_leaseId, leaseNumber_leaseId, Option.some.injEq] at numbers

/-- A lease was granted: it is new, it took the place of all on its slot, and its fence is the next
one.
-/
structure Acquired (table : LockTable) (home : LockHome) (lease : Lease) (after : LockTable)
    (next : LockHome) : Prop where
  id : lease.id = leaseId (table.counter + 1)
  fence : (lease.fence, next) = home.issueFence lease.resource
  counter : after.counter = table.counter + 1
  leases : ∃ kept : Table Lease, after.leases = kept.insert lease.id lease
    ∧ ∀ (id : String) (other : Lease), kept[id]? = some other
      ↔ table.leases[id]? = some other ∧ ¬other.OnSlot lease.resource lease.partition

/-- A lease that the table hands out was free to be handed out, and the table has it. -/
theorem acquire_ok {table after : LockTable} {resource partition : String} {holder : Principal}
    {nowMs ttlMs : UInt64} {home next : LockHome} {lease : Lease}
    (ran : table.acquire resource holder nowMs ttlMs partition home = .ok (lease, after, next))
    : Acquired table home lease after next
      ∧ lease.OnSlot resource partition ∧ lease.holder = holder
      ∧ lease.grantedAtMs = nowMs ∧ lease.ttlMs = ttlMs := by
  unfold acquire at ran
  dsimp only at ran
  split at ran
  · cases ran
  · cases ran
    refine ⟨⟨rfl, rfl, rfl, _, rfl, fun id other => ?_⟩, ⟨rfl, rfl⟩, rfl, rfl, rfl⟩
    rw [Std.ExtTreeMap.getElem?_filter', Option.filter_eq_some_iff, Bool.not_eq_true',
      decide_eq_false_iff_not]
    exact Iff.rfl

/-- A slot that somebody else holds is refused. -/
theorem acquire_held {table : LockTable} {resource partition : String} {holder : Principal}
    {nowMs ttlMs : UInt64} {home : LockHome} {id : String} {lease : Lease}
    (stored : table.leases[id]? = some lease) (placed : lease.OnSlot resource partition)
    (only : ∀ (id : String) (other : Lease), table.leases[id]? = some other
      → other.OnSlot resource partition → other = lease)
    (unexpired : lease.expired nowMs = false) (different : lease.holder ≠ holder)
    : table.acquire resource holder nowMs ttlMs partition home = .error .held := by
  unfold acquire
  dsimp only
  rw [if_pos]
  cases found : table.leases.list.find? fun row =>
      row.2.resource = resource ∧ row.2.partition = partition with
  | none =>
      rw [List.find?_eq_none] at found
      exact absurd (decide_eq_true placed) (found (id, lease) (Table.mem_list.mpr stored))
  | some row =>
      have there := List.find?_some found
      have same := only row.1 row.2 (Table.mem_list.mp (List.mem_of_find?_eq_some found))
        (of_decide_eq_true there)
      rw [Option.any_some, same, unexpired, Bool.not_false, Bool.true_and]
      exact decide_eq_true different

end LockTable

end VerticalAI.Contracts
