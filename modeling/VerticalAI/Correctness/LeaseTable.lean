import VerticalAI.Contracts.Locks

/-! A lock table by itself, on any machine times: over which calls it never grants a held
resource.
-/

namespace VerticalAI.Correctness
open VerticalAI.Contracts VerticalAI.Foundation

/-- A call to a lock table. -/
inductive LockCall where
  | acquire (resource : String) (holder : Principal) (nowMs ttlMs : UInt64) (partition : String)
  | release (leaseId : String)

/-- A lock table and the home that issues its fences. -/
structure LockState where
  table : LockTable := {}
  home : LockHome := {}

namespace LockState

/-- The lease that `acquire` finds on a slot. -/
def existing (state : LockState) (resource partition : String) : Option Lease :=
  (state.table.leases.list.find? fun row =>
    row.2.resource = resource ∧ row.2.partition = partition).map (·.2)

/-- A lease of the table is on the slot. -/
def Holds (state : LockState) (resource partition : String) (lease : Lease) : Prop :=
  ∃ id : String, state.table.leases[id]? = some lease ∧ lease.OnSlot resource partition

/-- No slot has two leases. -/
def Single (state : LockState) : Prop :=
  ∀ (first second : String) (one other : Lease), state.table.leases[first]? = some one
    → state.table.leases[second]? = some other → other.OnSlot one.resource one.partition
    → first = second

end LockState

/-- The end of a lease, over unbounded integers. -/
def leaseEnd (lease : Lease) : Nat := lease.grantedAtMs.toNat + lease.ttlMs.toNat

namespace LockCall

/-- The call, and whether it granted a lease. -/
def answer (call : LockCall) (state : LockState) : Bool × LockState :=
  match call with
  | .acquire resource holder nowMs ttlMs partition =>
      match state.table.acquire resource holder nowMs ttlMs partition state.home with
      | .ok (_, table, home) => (true, ⟨table, home⟩)
      | .error _ => (false, state)
  | .release leaseId => (false, { state with table := state.table.release leaseId })

/-- The sums the call takes, over unbounded integers. -/
def sums (call : LockCall) (state : LockState) : List Nat :=
  match call with
  | .acquire resource _ _ _ partition =>
      (state.existing resource partition).toList.map leaseEnd
        ++ if (call.answer state).1 then
            [state.table.counter.toNat + 1, (state.home.highest resource).toNat + 1]
          else []
  | .release _ => []

/-- No sum overflows. -/
def Fits (call : LockCall) (state : LockState) : Prop :=
  ∀ sum ∈ call.sums state, sum < UInt64.size

/-- The lease on the slot ends within a `u64`, and the table has a number left for a new one. -/
def InRange (call : LockCall) (state : LockState) : Prop :=
  match call with
  | .acquire resource holder nowMs _ partition =>
      (∀ lease, state.Holds resource partition lease → leaseEnd lease < UInt64.size)
        ∧ ((∃ lease, state.Holds resource partition lease ∧ lease.holder ≠ holder
              ∧ nowMs.toNat ≤ leaseEnd lease)
          ∨ Counter.HasNext state.table.counter)
  | .release _ => True

end LockCall

/-- Each call of a sequence with the state it meets. -/
def lockTrace (state : LockState) : List LockCall → List (LockState × LockCall)
  | [] => []
  | call :: rest => (state, call) :: lockTrace (call.answer state).2 rest

/-- The calls overflow nothing, leave at most one lease on a slot, and grant what another holds
only past its end.
-/
structure NeverGrantsHeld (calls : List LockCall) : Prop where
  fits : ∀ step ∈ lockTrace {} calls, step.2.Fits step.1
  single : ∀ step ∈ lockTrace {} calls, (step.2.answer step.1).2.Single
  exclusive : ∀ step ∈ lockTrace {} calls, ∀ resource holder nowMs ttlMs partition lease,
    step.2 = .acquire resource holder nowMs ttlMs partition → (step.2.answer step.1).1 = true
      → step.1.Holds resource partition lease → lease.holder ≠ holder → leaseEnd lease < nowMs.toNat

section OneCall

variable {state : LockState} {resource partition : String} {holder : Principal} {nowMs ttlMs : UInt64}

/-- What `acquire` finds is on the slot. -/
theorem LockState.existing_holds {lease : Lease}
    (found : state.existing resource partition = some lease)
    : state.Holds resource partition lease := by
  obtain ⟨row, first, rfl⟩ := Option.map_eq_some_iff.mp found
  have placed := List.find?_some first
  exact ⟨row.1, Table.mem_list.mp (List.mem_of_find?_eq_some first), of_decide_eq_true placed⟩

/-- A lease that is alone on its slot is the one that `acquire` finds. -/
theorem LockState.Single.existing (single : state.Single) {lease : Lease}
    (holds : state.Holds resource partition lease)
    : state.existing resource partition = some lease := by
  obtain ⟨id, stored, placed⟩ := holds
  cases found : state.existing resource partition with
  | none =>
      have none := List.find?_eq_none.mp (Option.map_eq_none_iff.mp found)
      exact absurd (decide_eq_true placed) (none (id, lease) (Table.mem_list.mpr stored))
  | some other =>
      obtain ⟨otherId, otherStored, otherPlaced⟩ := LockState.existing_holds found
      obtain ⟨rfl, rfl⟩ := placed
      obtain rfl := single id otherId lease other stored otherStored otherPlaced
      exact otherStored.symm.trans stored

/-- A lease whose end fits is expired past that end. -/
theorem expired_iff_of_fits {lease : Lease} (fits : leaseEnd lease < UInt64.size)
    : lease.expired nowMs = true ↔ leaseEnd lease < nowMs.toNat := by
  have sum : (lease.grantedAtMs + lease.ttlMs).toNat = leaseEnd lease := by
    rw [UInt64.toNat_add]
    exact Nat.mod_eq_of_lt fits
  rw [Lease.expired, decide_eq_true_iff, UInt64.lt_iff_toNat_lt, sum]

/-- An acquisition is refused exactly for a lease of another holder that is not expired. -/
theorem LockCall.refused_iff
    : (LockCall.answer (.acquire resource holder nowMs ttlMs partition) state).1 = false
      ↔ ∃ lease, state.existing resource partition = some lease ∧ lease.expired nowMs = false
        ∧ lease.holder ≠ holder := by
  simp only [LockCall.answer, LockTable.acquire, LockState.existing]
  cases state.table.leases.list.find? fun row =>
      decide (row.2.resource = resource ∧ row.2.partition = partition) with
  | none => simp
  | some row =>
      by_cases refused : row.2.expired nowMs = false ∧ row.2.holder ≠ holder
      · simp [refused]
      · simp [refused]

/-- What runs in range keep: no slot has two leases, and no fence is above the number of leases
granted.
-/
structure LockState.Sound (state : LockState) : Prop where
  single : state.Single
  fences : ∀ resource : String, (state.home.highest resource).toNat ≤ state.table.counter.toNat

theorem LockState.sound_empty : ({} : LockState).Sound := by
  refine ⟨fun first second one other stored => ?_, fun resource => Nat.le_refl 0⟩
  exact absurd stored (by simp)

/-- In range, an acquisition is refused exactly while another holder's lease has not ended. -/
theorem LockCall.InRange.refused_iff
    (inRange : LockCall.InRange (.acquire resource holder nowMs ttlMs partition) state)
    (single : state.Single)
    : (LockCall.answer (.acquire resource holder nowMs ttlMs partition) state).1 = false
      ↔ ∃ lease, state.Holds resource partition lease ∧ lease.holder ≠ holder
        ∧ nowMs.toNat ≤ leaseEnd lease := by
  rw [LockCall.refused_iff]
  refine exists_congr fun lease => ⟨fun ⟨found, unexpired, other⟩ => ?_, fun ⟨holds, other, within⟩ => ?_⟩
  · have holds := LockState.existing_holds found
    refine ⟨holds, other, Nat.not_lt.mp fun past => ?_⟩
    rw [(expired_iff_of_fits (inRange.1 lease holds)).mpr past] at unexpired
    cases unexpired
  · refine ⟨single.existing holds, Bool.eq_false_iff.mpr fun expired => ?_, other⟩
    exact Nat.not_lt.mpr within ((expired_iff_of_fits (inRange.1 lease holds)).mp expired)

/-- A lease granted in range has a number of its own. -/
theorem LockCall.InRange.numbered
    (inRange : LockCall.InRange (.acquire resource holder nowMs ttlMs partition) state)
    (single : state.Single)
    (granted : (LockCall.answer (.acquire resource holder nowMs ttlMs partition) state).1 = true)
    : Counter.HasNext state.table.counter := by
  refine inRange.2.resolve_left fun held => ?_
  rw [(inRange.refused_iff single).mpr held] at granted
  cases granted

/-- The lease granted takes the place of all others on its slot. -/
theorem LockState.Single.acquired {after : LockTable} {next : LockHome} {lease : Lease}
    (single : state.Single) (acquired : LockTable.Acquired state.table state.home lease after next)
    : LockState.Single ⟨after, next⟩ := by
  obtain ⟨kept, leases, keeps⟩ := acquired.leases
  intro first second one other stored otherStored placed
  simp only [leases] at stored otherStored
  rcases Table.getElem?_insert_inv stored with ⟨rfl, rfl⟩ | stored
  · rcases Table.getElem?_insert_inv otherStored with ⟨same, -⟩ | otherStored
    · exact same.symm
    · exact absurd placed ((keeps second other).mp otherStored).2
  · obtain ⟨stored, apart⟩ := (keeps first one).mp stored
    rcases Table.getElem?_insert_inv otherStored with ⟨-, rfl⟩ | otherStored
    · exact absurd ⟨placed.1.symm, placed.2.symm⟩ apart
    · exact single first second one other stored ((keeps second other).mp otherStored).1 placed

/-- A call in range keeps the table sound. -/
theorem LockCall.InRange.preserves {call : LockCall} (inRange : call.InRange state)
    (sound : state.Sound)
    : (call.answer state).2.Sound := by
  cases call with
  | acquire resource holder nowMs ttlMs partition =>
      have numbered := inRange.numbered sound.single
      rw [LockCall.answer] at numbered ⊢
      cases ran : state.table.acquire resource holder nowMs ttlMs partition state.home with
      | error refused => exact sound
      | ok granted =>
          obtain ⟨lease, after, next⟩ := granted
          rw [ran] at numbered
          obtain ⟨acquired, -⟩ := LockTable.acquire_ok ran
          refine ⟨sound.single.acquired acquired, fun other => ?_⟩
          change (next.highest other).toNat ≤ after.counter.toNat
          have next_eq : next = (state.home.issueFence lease.resource).2 :=
            congrArg Prod.snd acquired.fence
          have own := sound.fences lease.resource
          rw [next_eq, LockHome.highest_issueFence, acquired.counter,
            Counter.toNat_succ (numbered rfl)]
          split
          · exact (Counter.toNat_succ_le _).trans (Nat.succ_le_succ own)
          · exact Nat.le_succ_of_le (sound.fences other)
  | release leaseId =>
      refine ⟨fun first second one other stored otherStored => ?_, sound.fences⟩
      exact sound.single first second one other (Table.getElem?_erase_inv stored)
        (Table.getElem?_erase_inv otherStored)

/-- In a sound state, a call in range overflows nothing. -/
theorem LockCall.InRange.fits {call : LockCall} (inRange : call.InRange state) (sound : state.Sound)
    : call.Fits state := by
  cases call with
  | acquire resource holder nowMs ttlMs partition =>
      refine List.forall_mem_append.mpr ⟨fun sum member => ?_, fun sum member => ?_⟩
      · obtain ⟨lease, found, rfl⟩ := List.mem_map.mp member
        exact inRange.1 lease (LockState.existing_holds (Option.mem_toList.mp found))
      · split at member
        · next granted =>
            have numbered := inRange.numbered sound.single granted
            have fence := sound.fences resource
            unfold Counter.HasNext at numbered
            simp only [List.mem_cons, List.not_mem_nil, or_false] at member
            omega
        · exact absurd member List.not_mem_nil
  | release leaseId => exact fun sum none => absurd none List.not_mem_nil

/-- In a sound state, a call that overflows nothing is in range. -/
theorem LockCall.Fits.inRange {call : LockCall} (fits : call.Fits state) (single : state.Single)
    : call.InRange state := by
  cases call with
  | acquire resource holder nowMs ttlMs partition =>
      obtain ⟨ends, numbers⟩ := List.forall_mem_append.mp fits
      have inRange lease (holds : state.Holds resource partition lease)
          : leaseEnd lease < UInt64.size := by
        refine ends _ (List.mem_map_of_mem ?_)
        rw [single.existing holds]
        exact List.mem_singleton_self lease
      refine ⟨inRange, ?_⟩
      cases granted : (LockCall.answer (.acquire resource holder nowMs ttlMs partition) state).1 with
      | true =>
          rw [if_pos granted] at numbers
          exact Or.inr (numbers _ List.mem_cons_self)
      | false =>
          obtain ⟨lease, found, unexpired, other⟩ := LockCall.refused_iff.mp granted
          have holds := LockState.existing_holds found
          refine Or.inl ⟨lease, holds, other, Nat.not_lt.mp fun past => ?_⟩
          rw [(expired_iff_of_fits (inRange lease holds)).mpr past] at unexpired
          cases unexpired
  | release leaseId => trivial

end OneCall

/-- Calls in range meet sound states only, by induction on the calls. -/
theorem lockTrace_sound {state : LockState} {calls : List LockCall} (sound : state.Sound)
    (inRange : ∀ step ∈ lockTrace state calls, step.2.InRange step.1)
    : ∀ step ∈ lockTrace state calls, step.1.Sound := by
  induction calls generalizing state with
  | nil => exact fun _ none => absurd none List.not_mem_nil
  | cons call rest ih =>
      obtain ⟨first, others⟩ := List.forall_mem_cons.mp inRange
      exact List.forall_mem_cons.mpr ⟨sound, ih (LockCall.InRange.preserves first sound) others⟩

/-- Calls that keep every slot single meet single slots only, by induction on the calls. -/
theorem lockTrace_single {state : LockState} {calls : List LockCall} (initial : state.Single)
    (single : ∀ step ∈ lockTrace state calls, (step.2.answer step.1).2.Single)
    : ∀ step ∈ lockTrace state calls, step.1.Single := by
  induction calls generalizing state with
  | nil => exact fun _ none => absurd none List.not_mem_nil
  | cons call rest ih =>
      obtain ⟨first, others⟩ := List.forall_mem_cons.mp single
      exact List.forall_mem_cons.mpr ⟨initial, ih first others⟩

/-- From the empty table, no held resource is granted, and nothing overflows, exactly if every
call is in range of the state it meets.
-/
theorem neverGrantsHeld_iff (calls : List LockCall)
    : NeverGrantsHeld calls ↔ ∀ step ∈ lockTrace {} calls, step.2.InRange step.1 := by
  constructor
  · intro never step member
    have single := lockTrace_single LockState.sound_empty.single never.single
    exact (never.fits step member).inRange (single step member)
  · intro inRange
    have sound := lockTrace_sound LockState.sound_empty inRange
    refine ⟨fun step member => (inRange step member).fits (sound step member),
      fun step member => ((inRange step member).preserves (sound step member)).single, ?_⟩
    intro step member resource holder nowMs ttlMs partition lease called granted holds other
    have ranged := inRange step member
    rw [called] at ranged granted
    refine Nat.not_le.mp fun within => ?_
    rw [(ranged.refused_iff (sound step member).single).mpr ⟨lease, holds, other, within⟩] at granted
    cases granted

/-- A lease taken for the longest time at 5 ms is granted to another at 5 ms: its end wraps to 4
ms.
-/
theorem longest_lease_granted_again
    : ¬NeverGrantsHeld
        [.acquire "doc" (.machine "a" "l1") 5 18446744073709551615 "p1",
          .acquire "doc" (.machine "b" "l2") 5 1000 "p1"] := by
  intro never
  have past := never.exclusive _ (List.mem_cons_of_mem _ List.mem_cons_self) "doc" (.machine "b" "l2")
    5 1000 "p1" ⟨"lease-1", "doc", .machine "a" "l1", 5, 18446744073709551615, 1, "p1"⟩ rfl
    (by decide +kernel) ⟨"lease-1", by decide +kernel, rfl, rfl⟩ (by decide)
  exact absurd past (by decide)

end VerticalAI.Correctness
