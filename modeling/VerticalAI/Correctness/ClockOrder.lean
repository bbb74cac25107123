import VerticalAI.Contracts.Ledger

/-! The hybrid logical clock as machine integers keep it: over which calls its stamps strictly
increase.
-/

namespace VerticalAI.Correctness
open VerticalAI.Contracts

/-- A call to a clock. -/
inductive ClockCall where
  | now (wallMs : UInt64)
  | receive (remote : Hlc) (wallMs maxSkewMs : UInt64)

namespace ClockCall

/-- What the call returns, and the clock after it. -/
def run (call : ClockCall) (clock : HlcClock) : Except ClockAnomaly Hlc × HlcClock :=
  match call with
  | .now wallMs => (.ok (clock.now wallMs).1, (clock.now wallMs).2)
  | .receive remote wallMs maxSkewMs => clock.receive remote wallMs maxSkewMs

/-- The sums the call takes, over unbounded integers, each with the size of the type it is kept
in.
-/
def sums (call : ClockCall) (clock : HlcClock) : List (Nat × Nat) :=
  match call with
  | .now wallMs =>
      if clock.last.wallMs < wallMs then [] else [(clock.last.counter.toNat + 1, UInt32.size)]
  | .receive remote wallMs maxSkewMs =>
      let latest := max (max wallMs clock.last.wallMs) remote.wallMs
      (wallMs.toNat + maxSkewMs.toNat, UInt64.size)
        :: if wallMs + maxSkewMs < remote.wallMs then []
          else if latest = clock.last.wallMs ∧ latest = remote.wallMs then
            [((max clock.last.counter remote.counter).toNat + 1, UInt32.size)]
          else if latest = clock.last.wallMs then [(clock.last.counter.toNat + 1, UInt32.size)]
          else if latest = remote.wallMs then [(remote.counter.toNat + 1, UInt32.size)]
          else []

/-- No sum overflows. -/
def Fits (call : ClockCall) (clock : HlcClock) : Prop :=
  ∀ sum ∈ call.sums clock, sum.1 < sum.2

/-- Wall time and skew stay within a `u64`, and no stamp that the new one has to follow at the
same wall time carries the last counter.
-/
def InRange (call : ClockCall) (clock : HlcClock) : Prop :=
  match call with
  | .now wallMs => wallMs ≤ clock.last.wallMs → clock.last.counter.toNat + 1 < UInt32.size
  | .receive remote wallMs maxSkewMs =>
      wallMs.toNat + maxSkewMs.toNat < UInt64.size
        ∧ (remote.wallMs.toNat ≤ wallMs.toNat + maxSkewMs.toNat
          → (wallMs ≤ clock.last.wallMs → remote.wallMs ≤ clock.last.wallMs
              → clock.last.counter.toNat + 1 < UInt32.size)
            ∧ (wallMs ≤ remote.wallMs → clock.last.wallMs ≤ remote.wallMs
              → remote.counter.toNat + 1 < UInt32.size))

end ClockCall

/-- Each call of a sequence with the clock it meets. -/
def clockTrace (clock : HlcClock) : List ClockCall → List (HlcClock × ClockCall)
  | [] => []
  | call :: rest => (clock, call) :: clockTrace (call.run clock).2 rest

/-- The stamps a sequence of calls returns. -/
def clockStamps (clock : HlcClock) : List ClockCall → List Hlc
  | [] => []
  | call :: rest => (call.run clock).1.toOption.toList ++ clockStamps (call.run clock).2 rest

/-- The calls overflow nothing, their stamps strictly increase, also past the remote ones they
take in, and what is refused changes nothing.
-/
structure StrictlyMonotone (clock : HlcClock) (calls : List ClockCall) : Prop where
  fits : ∀ step ∈ clockTrace clock calls, step.2.Fits step.1
  increasing : (clockStamps clock calls).Pairwise Hlc.Before
  received : ∀ step ∈ clockTrace clock calls, ∀ remote wallMs maxSkewMs stamp,
    step.2 = .receive remote wallMs maxSkewMs → (step.2.run step.1).1 = .ok stamp
      → remote.Before stamp
  refused : ∀ step ∈ clockTrace clock calls, ∀ anomaly, (step.2.run step.1).1 = .error anomaly
    → (step.2.run step.1).2 = step.1

section OneCall

variable {call : ClockCall} {clock : HlcClock}

/-- The sums fit exactly if wall time, skew and counters are in range. -/
theorem ClockCall.fits_iff : call.Fits clock ↔ call.InRange clock := by
  cases call with
  | now wallMs =>
      simp only [ClockCall.Fits, ClockCall.sums, ClockCall.InRange, UInt64.lt_iff_toNat_lt,
        UInt64.le_iff_toNat_le]
      split
      · next later => simp [Nat.not_le.mpr later]
      · next behind => simp [Nat.not_lt.mp behind]
  | receive remote wallMs maxSkewMs =>
      simp only [ClockCall.Fits, ClockCall.sums, ClockCall.InRange, List.forall_mem_cons]
      refine and_congr_right fun fits => ?_
      have sum : (wallMs + maxSkewMs).toNat = wallMs.toNat + maxSkewMs.toNat := by
        rw [UInt64.toNat_add]
        exact Nat.mod_eq_of_lt fits
      simp only [UInt64.lt_iff_toNat_lt, UInt64.le_iff_toNat_le, ← UInt64.toNat_inj, UInt64.toNat_max,
        UInt32.toNat_max, sum]
      split
      · simp; omega
      · split
        · simp; omega
        · split
          · simp; omega
          · split
            · simp; omega
            · simp; omega

/-- What one call in range does: a refusal changes nothing, and a stamp is the clock's next and
later than its last one and than any remote one.
-/
structure CallAdvances (call : ClockCall) (clock : HlcClock) : Prop where
  refused : ∀ anomaly, (call.run clock).1 = .error anomaly → (call.run clock).2 = clock
  kept : ∀ stamp, (call.run clock).1 = .ok stamp → (call.run clock).2.last = stamp
  later : ∀ stamp, (call.run clock).1 = .ok stamp → clock.last.Before stamp
  beyond : ∀ stamp remote wallMs maxSkewMs, (call.run clock).1 = .ok stamp
    → call = .receive remote wallMs maxSkewMs → remote.Before stamp

/-- By cases on the call, and on which of three wall times is the latest. -/
theorem ClockCall.InRange.advances (inRange : call.InRange clock) : CallAdvances call clock := by
  cases call with
  | now wallMs =>
      refine ⟨nofun, fun stamp ran => Except.ok.inj ran, fun stamp ran => ?_, fun _ _ _ _ _ => nofun⟩
      obtain rfl := Except.ok.inj ran
      rw [Hlc.before_iff]
      simp only [ClockCall.InRange, UInt64.le_iff_toNat_le] at inRange
      simp only [HlcClock.now, UInt64.lt_iff_toNat_lt]
      split
      · next ahead => exact Or.inl ahead
      · next behind =>
          have fits := inRange (Nat.not_lt.mp behind)
          refine Or.inr ⟨rfl, ?_⟩
          rw [UInt32.toNat_add, UInt32.toNat_one, Nat.mod_eq_of_lt fits]
          omega
  | receive remote wallMs maxSkewMs =>
      obtain ⟨fits, counters⟩ := inRange
      have sum : (wallMs + maxSkewMs).toNat = wallMs.toNat + maxSkewMs.toNat := by
        rw [UInt64.toNat_add]
        exact Nat.mod_eq_of_lt fits
      by_cases ahead : wallMs + maxSkewMs < remote.wallMs
      · have ran : ClockCall.run (.receive remote wallMs maxSkewMs) clock
            = (.error ⟨remote.node, remote.wallMs, wallMs⟩, clock) := if_pos ahead
        have none (stamp : Hlc)
            : (ClockCall.run (.receive remote wallMs maxSkewMs) clock).1 ≠ .ok stamp := by
          rw [ran]
          nofun
        exact ⟨fun _ _ => by rw [ran], fun stamp held => absurd held (none stamp),
          fun stamp held => absurd held (none stamp), fun stamp _ _ _ held => absurd held (none stamp)⟩
      · obtain ⟨last, ran, beyond⟩ : ∃ last : Hlc,
            ClockCall.run (.receive remote wallMs maxSkewMs) clock = (.ok last, { clock with last })
              ∧ clock.last.Before last ∧ remote.Before last := by
          refine ⟨_, if_neg ahead, ?_⟩
          rw [UInt64.lt_iff_toNat_lt, sum] at ahead
          obtain ⟨own, others⟩ := counters (Nat.not_lt.mp ahead)
          rw [UInt64.le_iff_toNat_le, UInt64.le_iff_toNat_le] at own others
          have size : UInt32.size = 2 ^ 32 := rfl
          rw [Hlc.before_iff, Hlc.before_iff]
          simp only [UInt64.toNat_max, ← UInt64.toNat_inj]
          split
          · simp only [UInt32.toNat_add, UInt32.toNat_max, UInt32.toNat_one]
            omega
          · split
            · simp only [UInt32.toNat_add, UInt32.toNat_one]
              omega
            · split
              · simp only [UInt32.toNat_add, UInt32.toNat_one]
                omega
              · omega
        have same {stamp : Hlc}
            (held : (ClockCall.run (.receive remote wallMs maxSkewMs) clock).1 = .ok stamp)
            : last = stamp := by
          rw [ran] at held
          exact Except.ok.inj held
        refine ⟨fun _ held => ?_, fun stamp held => ?_, fun stamp held => same held ▸ beyond.1,
          fun stamp _ _ _ held call => ?_⟩
        · rw [ran] at held
          cases held
        · rw [ran, same held]
        · cases call
          exact same held ▸ beyond.2

end OneCall

/-- Every step in range is one that advances. -/
theorem clockTrace_advances {clock : HlcClock} {calls : List ClockCall}
    (inRange : ∀ step ∈ clockTrace clock calls, step.2.InRange step.1)
    : ∀ step ∈ clockTrace clock calls, CallAdvances step.2 step.1 :=
  fun step member => (inRange step member).advances

/-- The stamps of calls in range are later than the last one before them, by induction on the
calls.
-/
theorem clockStamps_later {clock : HlcClock} {calls : List ClockCall}
    (inRange : ∀ step ∈ clockTrace clock calls, step.2.InRange step.1)
    : ∀ stamp ∈ clockStamps clock calls, clock.last.Before stamp := by
  induction calls generalizing clock with
  | nil => exact fun _ none => absurd none List.not_mem_nil
  | cons call rest ih =>
      obtain ⟨first, others⟩ := List.forall_mem_cons.mp inRange
      have advances := ClockCall.InRange.advances first
      have later := ih others
      intro stamp member
      rw [clockStamps] at member
      cases answered : (call.run clock).1 with
      | error anomaly =>
          rw [answered] at member
          rw [advances.refused anomaly answered] at member later
          exact later stamp member
      | ok given =>
          rw [answered] at member
          have gave := advances.later given answered
          rw [advances.kept given answered] at later
          rcases List.mem_cons.mp member with rfl | member
          · exact gave
          · exact gave.trans (later stamp member)

/-- The stamps of calls in range strictly increase, by induction on the calls. -/
theorem clockStamps_increasing {clock : HlcClock} {calls : List ClockCall}
    (inRange : ∀ step ∈ clockTrace clock calls, step.2.InRange step.1)
    : (clockStamps clock calls).Pairwise Hlc.Before := by
  induction calls generalizing clock with
  | nil => exact List.Pairwise.nil
  | cons call rest ih =>
      obtain ⟨first, others⟩ := List.forall_mem_cons.mp inRange
      have later := clockStamps_later others
      rw [clockStamps]
      cases answered : (call.run clock).1 with
      | error anomaly => exact ih others
      | ok given =>
          rw [(ClockCall.InRange.advances first).kept given answered] at later
          exact List.pairwise_cons.mpr ⟨later, ih others⟩

/-- A clock is strictly monotone over a sequence of calls, without any overflow, exactly if every
call is in range of the clock it meets.
-/
theorem strictlyMonotone_iff (clock : HlcClock) (calls : List ClockCall)
    : StrictlyMonotone clock calls ↔ ∀ step ∈ clockTrace clock calls, step.2.InRange step.1 := by
  constructor
  · exact fun monotone step member => ClockCall.fits_iff.mp (monotone.fits step member)
  · intro inRange
    have advances := clockTrace_advances inRange
    refine ⟨fun step member => ClockCall.fits_iff.mpr (inRange step member),
      clockStamps_increasing inRange, ?_, fun step member => (advances step member).refused⟩
    exact fun step member remote wallMs maxSkewMs stamp called answered =>
      (advances step member).beyond stamp remote wallMs maxSkewMs answered called

/-- A peer's stamp with the last counter at the present wall time sends the clock back behind it. -/
theorem clock_falls_behind_remote
    : ¬StrictlyMonotone (.new "n1") [.receive ⟨10, 4294967295, "n2"⟩ 10 1000] := by
  intro monotone
  have behind := monotone.received _ List.mem_cons_self _ _ _ ⟨10, 0, "n1"⟩ rfl rfl
  rw [Hlc.before_iff] at behind
  revert behind
  decide

end VerticalAI.Correctness
