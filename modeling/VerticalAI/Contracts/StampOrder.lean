import Mathlib.Data.String.Basic
import VerticalAI.Contracts.Ledger

/-! The order of stamps, and what a clock that is read next has to be ahead of. -/

namespace VerticalAI.Contracts

/-- The order derived for stamps: by wall time, then by counter, then by node. -/
def Hlc.Precedes (first second : Hlc) : Prop :=
  first.Before second
    ∨ first.wallMs = second.wallMs ∧ first.counter = second.counter ∧ first.node < second.node

namespace Hlc.Precedes

variable {first second third : Hlc}

theorem trans (earlier : first.Precedes second) (later : second.Precedes third)
    : first.Precedes third := by
  rcases earlier with before | ⟨wall, counter, node⟩
  · rcases later with after | ⟨wall, counter, -⟩
    · exact Or.inl (before.trans after)
    · rw [Hlc.Before, wall, counter] at before
      exact Or.inl before
  · rcases later with after | ⟨wall', counter', node'⟩
    · rw [Hlc.Before, ← wall, ← counter] at after
      exact Or.inl after
    · exact Or.inr ⟨wall.trans wall', counter.trans counter', node.trans node'⟩

theorem irrefl (stamp : Hlc) : ¬stamp.Precedes stamp := by
  rintro (before | ⟨-, -, node⟩)
  · exact Hlc.Before.irrefl stamp before
  · exact lt_irrefl _ node

theorem asymm (precedes : first.Precedes second) : ¬second.Precedes first :=
  fun back => irrefl first (precedes.trans back)

/-- Of two stamps that differ one comes first. -/
theorem total (not : ¬first.Precedes second) : second = first ∨ second.Precedes first := by
  rw [Hlc.Precedes, Hlc.before_iff] at not
  rw [Hlc.Precedes, Hlc.before_iff]
  by_cases wall : first.wallMs = second.wallMs
  · by_cases counter : first.counter = second.counter
    · rcases lt_trichotomy first.node second.node with before | same | after
      · exact absurd (Or.inr ⟨wall, counter, before⟩) not
      · left
        cases first
        cases second
        simp_all
      · exact Or.inr (Or.inr ⟨wall.symm, counter.symm, after⟩)
    · have apart : first.counter.toNat ≠ second.counter.toNat :=
        fun same => counter (UInt32.toNat_inj.mp same)
      have level : first.wallMs.toNat = second.wallMs.toNat := congrArg UInt64.toNat wall
      exact Or.inr (Or.inl (by omega))
  · have apart : first.wallMs.toNat ≠ second.wallMs.toNat :=
      fun same => wall (UInt64.toNat_inj.mp same)
    exact Or.inr (Or.inl (by omega))

end Hlc.Precedes

-----------------------------------------------------------------------------------------
-- Reading the clock
-----------------------------------------------------------------------------------------

namespace HlcClock

variable {clock : HlcClock} {wallMs : UInt64}

/-- A clock whose next stamp comes after the given one: it is not behind, or the wall time is
later.
-/
def AheadOf (clock : HlcClock) (wallMs : UInt64) (stamp : Hlc) : Prop :=
  ¬clock.last.Precedes stamp ∨ stamp.Precedes ⟨wallMs, 0, clock.node⟩

/-- A reading raises the counter by one at most. -/
theorem now_counter (clock : HlcClock) (wallMs : UInt64)
    : (clock.now wallMs).2.last.counter.toNat ≤ clock.last.counter.toNat + 1 := by
  unfold now
  dsimp only
  split
  · exact Nat.zero_le _
  · change (clock.last.counter + 1).toNat ≤ _
    rw [UInt32.toNat_add]
    exact Nat.mod_le _ _

/-- Unless the counter wraps, the stamp comes after every one the clock is ahead of. -/
theorem now_follows (fits : clock.last.counter.toNat + 1 < 2 ^ 32) {stamp : Hlc}
    (ahead : clock.AheadOf wallMs stamp)
    : stamp.Precedes (clock.now wallMs).1 := by
  have raised : (clock.last.counter + 1).toNat = clock.last.counter.toNat + 1 := by
    rw [UInt32.toNat_add]
    exact Nat.mod_eq_of_lt fits
  have next : clock.last.Precedes (clock.now wallMs).1 := by
    unfold now
    dsimp only
    split
    · next later => exact Or.inl (Or.inl later)
    · refine Or.inl (Or.inr ⟨rfl, ?_⟩)
      rw [UInt32.lt_iff_toNat_lt, raised]
      exact Nat.lt_succ_self _
  rcases ahead with notBehind | passed
  · rcases Hlc.Precedes.total notBehind with rfl | before
    · exact next
    · exact before.trans next
  · unfold now
    dsimp only
    split
    · exact passed
    · next notLater =>
        rw [UInt64.not_lt, UInt64.le_iff_toNat_le] at notLater
        refine Or.inl ?_
        rw [Hlc.before_iff]
        change _ ∨ _ ∧ _ < (clock.last.counter + 1).toNat
        rw [raised]
        rcases passed with before | ⟨wall, counter, -⟩
        · rw [Hlc.before_iff] at before
          change _ ∨ _ ∧ stamp.counter.toNat < 0 at before
          change _ < wallMs.toNat ∨ _ at before
          dsimp only
          omega
        · have level := congrArg UInt64.toNat wall
          have zero : stamp.counter.toNat = 0 := congrArg UInt32.toNat counter
          dsimp only at level ⊢
          omega

/-- A clock is ahead of the stamp it gave. -/
theorem aheadOf_now : (clock.now wallMs).2.AheadOf wallMs (clock.now wallMs).1 :=
  Or.inl (Hlc.Precedes.irrefl _)

end HlcClock

end VerticalAI.Contracts
