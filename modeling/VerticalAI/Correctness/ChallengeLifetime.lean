import VerticalAI.Ipc.Daemon

/-! How long a presence challenge can be answered, whatever other connections do meanwhile. -/

namespace VerticalAI.Correctness
open VerticalAI.Foundation VerticalAI.Contracts VerticalAI.Kernel VerticalAI.Ipc

-----------------------------------------------------------------------------------------
-- Dropped challenges
-----------------------------------------------------------------------------------------

/-- The turn issues a challenge that this one is swept by, or has to make room for: of all that are
open it is the one closest to expiry.
-/
def Drops (daemon : Daemon) (turn : Turn) (nonce : String) (expiry : UInt64) : Prop :=
  ∃ other time, daemon.issues turn = some (other, time)
    ∧ (expiry ≤ time
      ∨ maxChallenges ≤ (daemon.challenges.unexpired time).size
        ∧ First (daemon.challenges.unexpired time) nonce expiry)

section Lifetime

variable [Libraries]

/-- A challenge that a turn neither issues nor presents stays open unless the turn drops it. -/
theorem stays_open_iff {daemon : Daemon} {turn : Turn} {nonce : String} {expiry : UInt64}
    (unissued : ∀ time, daemon.issues turn ≠ some (nonce, time))
    (unpresented : daemon.presents turn ≠ some nonce)
    : (daemon.step turn).challenges.open[nonce]? = some expiry
      ↔ daemon.challenges.open[nonce]? = some expiry ∧ ¬Drops daemon turn nonce expiry := by
  rcases daemon.step_challenges turn with
    ⟨other, time, issues, -, left⟩ | ⟨other, time, issues, presents, left⟩ | ⟨issues, -, left⟩
  · have different : nonce ≠ other := fun same => unissued time (same ▸ issues)
    have drops : Drops daemon turn nonce expiry
        ↔ expiry ≤ time ∨ maxChallenges ≤ (daemon.challenges.unexpired time).size
          ∧ First (daemon.challenges.unexpired time) nonce expiry := by
      simp only [Drops, issues, Option.some.injEq, Prod.mk.injEq, and_assoc, exists_and_left,
        exists_eq_left']
    rw [left, drops, not_or, UInt64.not_le]
    constructor
    · intro open'
      have stood := (Challenges.getElem?_issue_inv open').resolve_left fun same => different same.1
      exact ⟨stood, (Challenges.getElem?_issue_other stood different).mp open'⟩
    · rintro ⟨stood, kept⟩
      exact (Challenges.getElem?_issue_other stood different).mpr kept
  · have different : nonce ≠ other := fun same => unpresented (same ▸ presents)
    have kept : ¬Drops daemon turn nonce expiry := by
      rintro ⟨again, clock, issued, -⟩
      exact absurd (issues.symm.trans issued) nofun
    rw [left, Challenges.getElem?_spend_other different]
    exact (and_iff_left kept).symm
  · have kept : ¬Drops daemon turn nonce expiry := by
      rintro ⟨again, clock, issued, -⟩
      exact absurd (issues.symm.trans issued) nofun
    rw [left]
    exact (and_iff_left kept).symm

/-- A challenge is open with its expiry as long as none of the turns since drops it, by induction
on them.
-/
theorem open_iff {world : World} {before between : List Turn} {turn : Turn} {nonce : String}
    {time expiry : UInt64} (fresh : Daemon.FreshNonces world (before ++ turn :: between))
    (issued : ((Daemon.start world).run before).issues turn = some (nonce, time))
    (unpresented : ¬Occurred between fun first other =>
      ((Daemon.start world).run (before ++ turn :: first)).presents other = some nonce)
    : ((Daemon.start world).run (before ++ turn :: between)).challenges.open[nonce]? = some expiry
      ↔ expiry = time + challengeTtlMs ∧ ¬Occurred between fun first other =>
          Drops ((Daemon.start world).run (before ++ turn :: first)) other nonce
            (time + challengeTtlMs) := by
  induction between using List.reverseRecOn generalizing expiry with
  | nil =>
      rw [Daemon.run_concat]
      rcases ((Daemon.start world).run before).step_challenges turn with
        ⟨other, clock, issues, -, left⟩ | ⟨other, clock, issues, -, left⟩ | ⟨issues, -, left⟩
      · obtain ⟨rfl, rfl⟩ := Prod.mk.inj (Option.some.inj (issued.symm.trans issues))
        rw [left]
        change (Std.ExtTreeMap.insert _ nonce (time + challengeTtlMs))[nonce]? = _ ↔ _
        rw [Std.ExtTreeMap.getElem?_insert_self, Option.some.injEq, and_iff_left Occurred.not_nil]
        exact eq_comm
      · exact absurd (issued.symm.trans issues) nofun
      · exact absurd (issued.symm.trans issues) nofun
  | append_singleton between other ih =>
      rw [← List.cons_append, ← List.append_assoc] at fresh ⊢
      obtain ⟨earlier, now⟩ := Throughout.concat_iff.mp fresh
      rw [Occurred.concat_iff, not_or] at unpresented ⊢
      have issuedBefore : Daemon.Issued world (before ++ turn :: between) nonce time :=
        ⟨before, turn, between, rfl, issued⟩
      have unissued (again : UInt64)
          : ((Daemon.start world).run (before ++ turn :: between)).issues other
            ≠ some (nonce, again) :=
        fun twice => (now nonce again twice).1 time issuedBefore
      rw [Daemon.run_concat, stays_open_iff unissued unpresented.2, ih earlier unpresented.1]
      constructor
      · rintro ⟨⟨rfl, kept⟩, last⟩
        exact ⟨rfl, kept, last⟩
      · rintro ⟨rfl, kept, last⟩
        exact ⟨⟨rfl, kept⟩, last⟩

/-- A nonce that was issued and not presented since is accepted before its expiry unless some
challenge issued in between dropped it.
-/
theorem challenge_accepted_iff {world : World} {before between : List Turn} {turn : Turn}
    {nonce : String} {time now : UInt64}
    (fresh : Daemon.FreshNonces world (before ++ turn :: between))
    (issued : ((Daemon.start world).run before).issues turn = some (nonce, time))
    (unpresented : ¬Occurred between fun first other =>
      ((Daemon.start world).run (before ++ turn :: first)).presents other = some nonce)
    {request : Request} {proof : PresenceProof} (carries : request.presence = some proof)
    (names : proof.nonce = nonce) (early : now < time + challengeTtlMs)
    : (((Daemon.start world).run (before ++ turn :: between)).take request now).2
        = some ⟨proof, .ok ()⟩
      ↔ ¬Occurred between fun first other =>
          Drops ((Daemon.start world).run (before ++ turn :: first)) other nonce
            (time + challengeTtlMs) := by
  have taken : (((Daemon.start world).run (before ++ turn :: between)).take request now).2
        = some ⟨proof, .ok ()⟩
      ↔ (((Daemon.start world).run (before ++ turn :: between)).challenges.spend nonce now).2
        = .ok () := by
    simp only [Daemon.take, carries, names, Option.some.injEq, Presented.mk.injEq, true_and]
  rw [taken, Challenges.spend_ok_iff]
  constructor
  · rintro ⟨expiry, held, -⟩
    exact ((open_iff fresh issued unpresented).mp held).2
  · intro kept
    exact ⟨time + challengeTtlMs, (open_iff fresh issued unpresented).mpr ⟨rfl, kept⟩, early⟩

omit [Libraries] in
/-- A nonce without an open challenge is refused. -/
theorem take_gone {daemon : Daemon} {request : Request} {proof : PresenceProof} {now : UInt64}
    (carries : request.presence = some proof)
    (gone : daemon.challenges.open[proof.nonce]? = none)
    : (daemon.take request now).2
      = some ⟨proof, .error (invariant "I1: unknown or already used presence nonce")⟩ := by
  simp only [Daemon.take, carries, Challenges.spend, gone]

end Lifetime

-----------------------------------------------------------------------------------------
-- A flood of challenges
-----------------------------------------------------------------------------------------

attribute [local instance] plainLibraries

/-- A node that has done nothing yet. -/
private def idleNode : World where
  disk := {}
  kernel := { nodeId := "node", stateDir := "state", clock := HlcClock.new "node" }

private def challengeRequest : Request where
  method := "presence.challenge"
  params := ⟨fun _ => none, fun _ => none, .error "", .error ""⟩
  presence := none

/-- 32 hexadecimal digits. -/
private def floodNonce (i : Nat) : String :=
  Hex.encode (List.replicate 14 0 ++ [UInt8.ofNat (i / 256), UInt8.ofNat (i % 256)])

/-- One challenge, and all others a millisecond later. -/
private def floodTime : Nat → UInt64
  | 0 => 0
  | _ + 1 => 1

private def flood : Nat → List Turn
  | 0 => []
  | count + 1 =>
      flood count ++ [.arrive challengeRequest (floodTime count)]
        ++ [.finish count (floodNonce count) 0 []]

private def flooded : Nat → Challenges
  | 0 => {}
  | count + 1 => ((flooded count).issue (floodTime count) (floodNonce count)).1

private theorem floodNonce_injective {i j : Nat} (low : i < 65536) (also : j < 65536)
    (same : floodNonce i = floodNonce j)
    : i = j := by
  have bytes := List.append_cancel_left (Hex.encode_injective same)
  obtain ⟨high, rest⟩ := List.cons.inj bytes
  have highs := congrArg UInt8.toNat high
  have lows := congrArg UInt8.toNat (List.head_eq_of_cons_eq rest)
  simp only [UInt8.toNat_ofNat'] at highs lows
  omega

private theorem run_flood (count : Nat)
    : (Daemon.start idleNode).run (flood count) = ⟨flooded count, idleNode, count, [], true⟩ := by
  induction count with
  | zero => rfl
  | succ count ih =>
      rw [flood, Daemon.run_concat, Daemon.run_concat, ih]
      simp [Daemon.step, Daemon.arrive, Daemon.take, Daemon.entry, Daemon.without, Daemon.dispatch,
        challengeRequest, flooded]

/-- The daemon with a request for one more challenge under way. -/
private theorem run_asked (count : Nat)
    : (Daemon.start idleNode).run (flood count ++ [.arrive challengeRequest (floodTime count)])
      = ⟨flooded count, idleNode, count + 1,
          [⟨count, challengeRequest, none, floodTime count⟩], true⟩ := by
  rw [Daemon.run_concat, run_flood]
  rfl

private theorem issues_asked (count : Nat) (nonce : String)
    : ((Daemon.start idleNode).run
        (flood count ++ [.arrive challengeRequest (floodTime count)])).issues
          (.finish count nonce 0 [])
      = some (nonce, floodTime count) := by
  rw [run_asked]
  simp [Daemon.issues, Daemon.entry, Arrived.asks, challengeRequest]

private theorem flood_issued {count : Nat} {nonce : String} {time : UInt64}
    (issued : Daemon.Issued idleNode (flood count) nonce time)
    : ∃ i < count, nonce = floodNonce i := by
  induction count with
  | zero => exact absurd issued Occurred.not_nil
  | succ count ih =>
      rw [flood, Daemon.Issued, Occurred.concat_iff, Occurred.concat_iff] at issued
      rcases issued with (earlier | asked) | issues
      · obtain ⟨i, below, named⟩ := ih earlier
        exact ⟨i, below.trans (Nat.lt_succ_self count), named⟩
      · cases asked
      · rw [issues_asked] at issues
        exact ⟨count, Nat.lt_succ_self count, (Prod.mk.inj (Option.some.inj issues)).1.symm⟩

private theorem flood_unpresented (count : Nat) (nonce : String)
    : ¬Daemon.WasPresented idleNode (flood count) nonce := by
  induction count with
  | zero => exact Occurred.not_nil
  | succ count ih =>
      rw [flood, Daemon.WasPresented, Occurred.concat_iff, Occurred.concat_iff]
      rintro ((earlier | asked) | finished)
      · exact ih earlier
      · rw [run_flood] at asked
        cases asked
      · cases finished

private theorem flood_fresh {count : Nat} (low : count ≤ 65536)
    : Daemon.FreshNonces idleNode (flood count) := by
  induction count with
  | zero => exact Throughout.nil
  | succ count ih =>
      rw [flood, Daemon.FreshNonces, Throughout.concat_iff, Throughout.concat_iff]
      refine ⟨⟨ih (Nat.le_of_succ_le low), nofun⟩, fun nonce time issues => ?_⟩
      rw [issues_asked] at issues
      obtain ⟨rfl, -⟩ := Prod.mk.inj (Option.some.inj issues)
      constructor
      · intro other issued
        rcases Occurred.concat_iff.mp issued with earlier | asked
        · obtain ⟨i, below, named⟩ := flood_issued earlier
          have same := floodNonce_injective (by omega) (by omega) named
          omega
        · cases asked
      · intro presented
        rcases Occurred.concat_iff.mp presented with earlier | asked
        · exact flood_unpresented count _ earlier
        · rw [run_flood] at asked
          cases asked

private def floodExpiry (i : Nat) : UInt64 := floodTime i + challengeTtlMs

private theorem floodExpiry_succ (i : Nat) : floodExpiry (i + 1) = 1 + challengeTtlMs := rfl

private theorem floodTime_lt_expiry (i j : Nat) : floodTime i < floodExpiry j := by
  unfold floodExpiry
  cases i <;> cases j <;> simp only [floodTime] <;> decide

/-- What a flood leaves open: every nonce so far with its expiry. -/
private def HoldsFlood (count : Nat) (entries : Table UInt64) : Prop :=
  entries.size = count ∧ ∀ nonce expiry, entries[nonce]? = some expiry
    ↔ ∃ i < count, nonce = floodNonce i ∧ expiry = floodExpiry i

/-- None of it is swept. -/
private theorem unexpired_flood {count clock : Nat} {challenges : Challenges}
    (holds : HoldsFlood count challenges.open)
    : challenges.unexpired (floodTime clock) = challenges.open := by
  refine Std.ExtTreeMap.ext_getElem? fun nonce => ?_
  refine Option.ext fun expiry => ?_
  rw [Challenges.getElem?_unexpired, and_iff_left_iff_imp]
  intro held
  obtain ⟨i, -, -, rfl⟩ := (holds.2 nonce expiry).mp held
  exact floodTime_lt_expiry clock i

/-- Up to the bound nothing is dropped, by induction on the challenges. -/
private theorem flooded_holds {count : Nat} (low : count ≤ maxChallenges)
    : HoldsFlood count (flooded count).open := by
  induction count with
  | zero =>
      refine ⟨rfl, fun nonce expiry => ?_⟩
      change (∅ : Table UInt64)[nonce]? = _ ↔ _
      simp
  | succ count ih =>
      have before := ih (Nat.le_of_succ_le low)
      have room : ¬maxChallenges ≤ (flooded count).open.size := by
        rw [before.1]
        omega
      have left : (flooded (count + 1)).open
          = (flooded count).open.insert (floodNonce count) (floodExpiry count) := by
        change (makeRoom ((flooded count).unexpired (floodTime count))).insert _ _ = _
        rw [unexpired_flood before, makeRoom, if_neg room]
        rfl
      have new (expiry : UInt64) : (flooded count).open[floodNonce count]? ≠ some expiry := by
        intro held
        obtain ⟨i, below, named, -⟩ := (before.2 _ _).mp held
        have low : count < 1024 := low
        have same := floodNonce_injective (by omega) (by omega) named
        omega
      have absent : (flooded count).open.contains (floodNonce count) = false := by
        rw [← Bool.not_eq_true, Std.ExtTreeMap.contains_eq_isSome_getElem?, Option.isSome_iff_exists]
        rintro ⟨expiry, held⟩
        exact new expiry held
      rw [left]
      refine ⟨by rw [Std.ExtTreeMap.size_insert, absent, before.1]; rfl, fun nonce expiry => ?_⟩
      by_cases same : nonce = floodNonce count
      · subst same
        rw [Std.ExtTreeMap.getElem?_insert_self, Option.some.injEq]
        constructor
        · rintro rfl
          exact ⟨count, Nat.lt_succ_self count, rfl, rfl⟩
        · rintro ⟨i, below, named, rfl⟩
          have low : count < 1024 := low
          rw [floodNonce_injective (by omega) (by omega) named]
      · rw [Table.getElem?_insert_ne same, before.2]
        constructor
        · rintro ⟨i, below, named⟩
          exact ⟨i, below.trans (Nat.lt_succ_self count), named⟩
        · rintro ⟨i, below, rfl, expires⟩
          have other : i ≠ count := fun equal => same (equal ▸ rfl)
          exact ⟨i, by omega, rfl, expires⟩

/-- At the bound the first challenge is the one closest to expiry. -/
private theorem first_flood
    : First (flooded maxChallenges).open (floodNonce 0) (floodExpiry 0) := by
  intro other later held different
  obtain ⟨i, -, rfl, rfl⟩ := ((flooded_holds le_rfl).2 _ _).mp held
  cases i with
  | zero => exact absurd rfl different
  | succ i =>
      rw [floodExpiry_succ]
      exact .inl (by decide)

/-- One more challenge drops it. -/
private theorem first_dropped : (flooded (maxChallenges + 1)).open[floodNonce 0]? = none := by
  have full := flooded_holds le_rfl
  have held : (flooded maxChallenges).open[floodNonce 0]? = some (floodExpiry 0) :=
    (full.2 _ _).mpr ⟨0, by decide, rfl, rfl⟩
  have different : floodNonce 0 ≠ floodNonce maxChallenges := by
    intro same
    have equal := floodNonce_injective (by decide) (by decide) same
    cases equal
  cases stays : (flooded (maxChallenges + 1)).open[floodNonce 0]? with
  | none => rfl
  | some expiry =>
      have stood := (Challenges.getElem?_issue_inv stays).resolve_left fun same => different same.1
      obtain rfl := Option.some.inj (stood.symm.trans held)
      have kept := ((Challenges.getElem?_issue_other held different).mp stays).2
      rw [unexpired_flood full] at kept
      exact absurd ⟨full.1.ge, first_flood⟩ kept

private def answerProof : PresenceProof := ⟨"node:node", floodNonce 0, ""⟩

/-- A request for a STOP that answers the first challenge. -/
private def answerRequest : Request where
  method := "stop"
  params := ⟨fun _ => none, fun _ => none, .error "", .error ""⟩
  presence := some answerProof

private theorem answered_in_time : (5 : UInt64) < 0 + challengeTtlMs := by simp [challengeTtlMs]

/-- A challenge that was never presented is refused 5 ms after its issue. -/
theorem flooded_challenge_is_refused
    : Daemon.FreshNonces idleNode (flood (maxChallenges + 1))
      ∧ ((Daemon.start idleNode).run [.arrive challengeRequest 0]).issues (.finish 0 (floodNonce 0) 0 [])
        = some (floodNonce 0, 0)
      ∧ ¬Daemon.WasPresented idleNode (flood (maxChallenges + 1)) (floodNonce 0)
      ∧ (5 : UInt64) < 0 + challengeTtlMs
      ∧ (((Daemon.start idleNode).run (flood (maxChallenges + 1))).take answerRequest 5).2
        = some ⟨answerProof, .error (invariant "I1: unknown or already used presence nonce")⟩ := by
  refine ⟨flood_fresh (by decide), issues_asked 0 _, flood_unpresented _ _, answered_in_time, ?_⟩
  refine take_gone rfl ?_
  rw [run_flood]
  exact first_dropped

/-- The first challenge is accepted although another connection was issued one meanwhile. -/
theorem second_challenge_drops_none
    : (((Daemon.start idleNode).run (flood 2)).take answerRequest 5).2
        = some ⟨answerProof, .ok ()⟩ := by
  have fresh : Daemon.FreshNonces idleNode ([.arrive challengeRequest 0] ++ .finish 0 (floodNonce 0) 0 []
      :: ([.arrive challengeRequest 1] ++ [.finish 1 (floodNonce 1) 0 []])) :=
    flood_fresh (by decide : 2 ≤ 65536)
  have issued := issues_asked 0 (floodNonce 0)
  refine (challenge_accepted_iff fresh issued ?_ rfl rfl answered_in_time).mpr ?_
  · rw [Occurred.concat_iff, Occurred.single_iff]
    rintro (asked | finished)
    · simp only [Daemon.presents, challengeRequest, Option.map_none] at asked
      cases asked
    · cases finished
  · rw [Occurred.concat_iff, Occurred.single_iff]
    rintro (⟨other, time, asked, -⟩ | ⟨other, time, finished, drops⟩)
    · cases asked
    · have issues := issues_asked 1 (floodNonce 1)
      have same := issues.symm.trans finished
      obtain ⟨rfl, rfl⟩ := Prod.mk.inj (Option.some.inj same)
      have opened := run_asked 1
      rcases drops with swept | ⟨full, -⟩
      · exact absurd swept (UInt64.not_le.mpr (floodTime_lt_expiry 1 0))
      · change maxChallenges ≤ (((Daemon.start idleNode).run
          (flood 1 ++ [.arrive challengeRequest (floodTime 1)])).challenges.unexpired
            (floodTime 1)).size at full
        have one := flooded_holds (by decide : 1 ≤ maxChallenges)
        rw [opened, unexpired_flood one, one.1] at full
        exact absurd full (by decide)

end VerticalAI.Correctness
