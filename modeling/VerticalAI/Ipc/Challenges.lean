import Mathlib.Data.List.MinMax
import VerticalAI.Foundation.Table

/-! Presence challenges: nonces that a server issued and that were not presented since. -/

namespace VerticalAI.Ipc
open VerticalAI.Foundation

structure RpcError where
  code : Int32
  message : String
  deriving DecidableEq, Repr

/-- A kernel invariant, a STOP, a lock or a gate refused the call. -/
def eInvariant : Int32 := -32001

/-- The object the call names does not exist. -/
def eNotFound : Int32 := -32004

/-- A durable read or write failed. -/
def eStore : Int32 := -32005

def eMethod : Int32 := -32601

def eBadParams : Int32 := -32602

def bad (message : String) : RpcError := ⟨eBadParams, message⟩

def invariant (message : String) : RpcError := ⟨eInvariant, message⟩

def notFound (what : String) : RpcError := ⟨eNotFound, s!"not found: {what}"⟩

/-- How long a presence challenge stays answerable. -/
def challengeTtlMs : UInt64 := 60000

/-- How many challenges may be open. -/
def maxChallenges : Nat := 1024

/-- Outstanding presence nonces, each with its expiry. -/
structure Challenges where
  «open» : Table UInt64 := ∅

/-- The entry closest to expiry; of several the one listed first. -/
def oldest (entries : Table UInt64) : Option String :=
  (entries.list.argmin (·.2.toNat)).map (·.1)

/-- Past the bound the entry closest to expiry is dropped. -/
def makeRoom (entries : Table UInt64) : Table UInt64 :=
  if maxChallenges ≤ entries.size then
    match oldest entries with
    | some nonce => entries.erase nonce
    | none => entries
  else entries

namespace Challenges

/-- The challenges that are not expired. -/
def unexpired (challenges : Challenges) (now : UInt64) : Table UInt64 :=
  challenges.open.filter fun _ expiry => decide (now < expiry)

/-- Sweep what is expired, make room and put the new nonce in. -/
def issue (challenges : Challenges) (now : UInt64) (nonce : String)
    : Challenges × String × UInt64 :=
  let expiry := now + challengeTtlMs
  (⟨(makeRoom (challenges.unexpired now)).insert nonce expiry⟩, nonce, expiry)

/-- Take a nonce out, whatever is said of it then. -/
def spend (challenges : Challenges) (nonce : String) (now : UInt64)
    : Challenges × Except RpcError Unit :=
  match challenges.open[nonce]? with
  | none => (challenges, .error (invariant "I1: unknown or already used presence nonce"))
  | some expiry =>
      (⟨challenges.open.erase nonce⟩,
        if expiry ≤ now then .error (invariant "I1: presence challenge expired") else .ok ())

end Challenges

/-- This entry is the one closest to expiry, and of several the first one by name. -/
def First (entries : Table UInt64) (nonce : String) (expiry : UInt64) : Prop :=
  ∀ (other : String) (later : UInt64), entries[other]? = some later → other ≠ nonce
    → expiry < later ∨ expiry = later ∧ compare nonce other = .lt

/-- In an ordered list an element that does not come after another one has the lower index. -/
theorem idxOf_lt_of_not_after {α : Type} [DecidableEq α] {before : α → α → Prop} {elements : List α}
    (ordered : elements.Pairwise before) {first second : α} (member : first ∈ elements)
    (listed : second ∈ elements) (different : first ≠ second) (not_after : ¬before second first)
    : elements.idxOf first < elements.idxOf second := by
  by_contra not_lower
  rcases Nat.lt_or_eq_of_le (not_lt.mp not_lower) with higher | level
  · have swapped := List.pairwise_iff_getElem.mp ordered _ _ (List.idxOf_lt_length_of_mem listed)
      (List.idxOf_lt_length_of_mem member) higher
    rw [List.getElem_idxOf, List.getElem_idxOf] at swapped
    exact not_after swapped
  · exact different ((List.idxOf_inj listed).mp level).symm

/-- The oldest entry is the first one. -/
theorem oldest_eq_iff {entries : Table UInt64} {nonce : String} {expiry : UInt64}
    (held : entries[nonce]? = some expiry)
    : oldest entries = some nonce ↔ First entries nonce expiry := by
  have listed : (nonce, expiry) ∈ entries.list := Table.mem_list.mpr held
  have alone : ∀ row ∈ entries.list, row.1 = nonce → row = (nonce, expiry) := by
    rintro ⟨name, later⟩ member rfl
    rw [Option.some.inj ((Table.mem_list.mp member).symm.trans held)]
  constructor
  · intro chosen other later found different
    obtain ⟨row, least, named⟩ := Option.map_eq_some_iff.mp chosen
    obtain ⟨member, minimal, earliest⟩ := List.argmin_eq_some_iff.mp least
    obtain rfl := alone row member named
    have mentioned : (other, later) ∈ entries.list := Table.mem_list.mpr found
    have bounded : expiry.toNat ≤ later.toNat := minimal _ mentioned
    rcases Nat.lt_or_eq_of_le bounded with sooner | same
    · exact .inl (UInt64.lt_iff_toNat_lt.mpr sooner)
    · refine .inr ⟨UInt64.toNat_inj.mp same, ?_⟩
      cases order : compare nonce other with
      | lt => rfl
      | eq => exact absurd (Std.LawfulEqCmp.eq_of_compare order).symm different
      | gt =>
          have swapped : compare other nonce = .lt := Std.OrientedCmp.lt_of_gt order
          have lower := idxOf_lt_of_not_after entries.list_increasing mentioned listed
            (fun equal => different (congrArg Prod.fst equal))
            (Std.OrientedCmp.not_lt_of_lt swapped)
          exact absurd (earliest _ mentioned same.ge) (not_le.mpr lower)
  · intro first
    refine Option.map_eq_some_iff.mpr ⟨(nonce, expiry), ?_, rfl⟩
    refine List.argmin_eq_some_iff.mpr ⟨listed, ?_, ?_⟩
    · intro row member
      by_cases same : row.1 = nonce
      · rw [alone row member same]
      · rcases first row.1 row.2 (Table.mem_list.mp member) same with sooner | ⟨equal, -⟩
        · exact (UInt64.lt_iff_toNat_lt.mp sooner).le
        · exact (congrArg UInt64.toNat equal).le
    · intro row member later
      by_cases same : row.1 = nonce
      · rw [alone row member same]
      · rcases first row.1 row.2 (Table.mem_list.mp member) same with sooner | ⟨-, before⟩
        · exact absurd later (not_le.mpr (UInt64.lt_iff_toNat_lt.mp sooner))
        · have lower := idxOf_lt_of_not_after entries.list_increasing listed member
            (fun equal => same (congrArg Prod.fst equal).symm) (Std.OrientedCmp.not_lt_of_lt before)
          exact lower.le

/-- Room is made at the cost of the first entry only, and only at the bound. -/
theorem getElem?_makeRoom {entries : Table UInt64} {nonce : String} {expiry : UInt64}
    (held : entries[nonce]? = some expiry)
    : (makeRoom entries)[nonce]? = some expiry
      ↔ ¬(maxChallenges ≤ entries.size ∧ First entries nonce expiry) := by
  rw [← oldest_eq_iff held]
  unfold makeRoom
  split
  · next full =>
      cases chosen : oldest entries with
      | none => simp [held]
      | some other =>
          by_cases same : other = nonce
          · subst same
            simp [full]
          · simp [Table.getElem?_erase_other (Ne.symm same), held, same]
  · next room => simp [room, held]

/-- Making room puts nothing in. -/
theorem getElem?_makeRoom_inv {entries : Table UInt64} {nonce : String} {expiry : UInt64}
    (left : (makeRoom entries)[nonce]? = some expiry)
    : entries[nonce]? = some expiry := by
  unfold makeRoom at left
  split at left
  · split at left
    · exact Table.getElem?_erase_inv left
    · exact left
  · exact left

namespace Challenges

variable {challenges : Challenges} {nonce other : String} {expiry now : UInt64}

theorem getElem?_unexpired
    : (challenges.unexpired now)[nonce]? = some expiry
      ↔ challenges.open[nonce]? = some expiry ∧ now < expiry := by
  rw [unexpired, Std.ExtTreeMap.getElem?_filter', Option.filter_eq_some_iff, decide_eq_true_iff]

/-- What is open after a challenge was issued is that challenge, or was open before. -/
theorem getElem?_issue_inv
    (held : (challenges.issue now nonce).1.open[other]? = some expiry)
    : (other = nonce ∧ expiry = now + challengeTtlMs) ∨ challenges.open[other]? = some expiry := by
  rcases Table.getElem?_insert_inv held with same | left
  · exact .inl same
  · exact .inr (getElem?_unexpired.mp (getElem?_makeRoom_inv left)).1

/-- A challenge outlasts the issue of another one unless it is swept or has to make room. -/
theorem getElem?_issue_other (held : challenges.open[other]? = some expiry)
    (different : other ≠ nonce)
    : (challenges.issue now nonce).1.open[other]? = some expiry
      ↔ now < expiry
        ∧ ¬(maxChallenges ≤ (challenges.unexpired now).size
          ∧ First (challenges.unexpired now) other expiry) := by
  change ((makeRoom (challenges.unexpired now)).insert nonce _)[other]? = _ ↔ _
  rw [Table.getElem?_insert_ne different]
  by_cases swept : expiry ≤ now
  · refine ⟨fun left => ?_, fun stays => absurd stays.1 (UInt64.not_lt.mpr swept)⟩
    have unswept := (getElem?_unexpired.mp (getElem?_makeRoom_inv left)).2
    exact absurd unswept (UInt64.not_lt.mpr swept)
  · have unswept : now < expiry := UInt64.not_le.mp swept
    rw [getElem?_makeRoom (getElem?_unexpired.mpr ⟨held, unswept⟩)]
    exact ⟨fun stays => ⟨unswept, stays⟩, And.right⟩

/-- What is open after a nonce was spent was open before, and is another one. -/
theorem getElem?_spend_inv (held : (challenges.spend nonce now).1.open[other]? = some expiry)
    : other ≠ nonce ∧ challenges.open[other]? = some expiry := by
  unfold spend at held
  split at held
  · next absent =>
      refine ⟨?_, held⟩
      rintro rfl
      rw [absent] at held
      cases held
  · next known =>
      refine ⟨?_, Table.getElem?_erase_inv held⟩
      rintro rfl
      change (challenges.open.erase other)[other]? = _ at held
      rw [Std.ExtTreeMap.getElem?_erase_self] at held
      cases held

/-- Spending a nonce leaves every other one open. -/
theorem getElem?_spend_other (different : other ≠ nonce)
    : (challenges.spend nonce now).1.open[other]? = challenges.open[other]? := by
  unfold spend
  split
  · rfl
  · exact Table.getElem?_erase_other different

/-- A nonce is good exactly while its challenge is open and not expired. -/
theorem spend_ok_iff
    : (challenges.spend nonce now).2 = .ok ()
      ↔ ∃ expiry, challenges.open[nonce]? = some expiry ∧ now < expiry := by
  unfold spend
  cases challenges.open[nonce]? with
  | none => simp
  | some expiry =>
      by_cases expired : expiry ≤ now
      · simp [expired]
      · simp [expired, UInt64.not_le.mp expired]

end Challenges

end VerticalAI.Ipc
