import Mathlib.Data.List.Basic
import Mathlib.Data.List.Induction

/-! Chains of records in which each record names the hash of the one before it. A chain is
tied to a fixed start, and one hash in it fixes everything up to that hash.
-/

namespace VerticalAI.Foundation

/-- How records link: the hash a record names, the hash it carries, and the hash its content
has.
-/
structure HashChain (α η : Type) where
  prev : α → η
  hash : α → η
  digest : α → η

namespace HashChain

variable {α η : Type} (scheme : HashChain α η)

/-- From `start` on, every record names the hash before it and carries its own digest. -/
def Linked : η → List α → Prop
  | _, [] => True
  | start, record :: rest =>
      scheme.prev record = start
      ∧ scheme.digest record = scheme.hash record
      ∧ Linked (scheme.hash record) rest

/-- A hash commits to the record that carries it, and to no chain start. -/
structure Committing (genesis : η) : Prop where
  injective
    : ∀ first second,
        scheme.digest first = scheme.hash first
        → scheme.digest second = scheme.hash second
        → scheme.hash first = scheme.hash second
        → first = second
  fresh : ∀ record, scheme.digest record ≠ genesis

/-- The hash the next record has to name. -/
def headHash (genesis : η) (records : List α) : η :=
  (records.getLast?.map scheme.hash).getD genesis

variable {scheme} {start genesis : η}

@[simp] theorem headHash_nil : scheme.headHash genesis [] = genesis := rfl

/-- The head of a chain is the hash of its last record. -/
@[simp] theorem headHash_concat (records : List α) (record : α)
    : scheme.headHash genesis (records ++ [record]) = scheme.hash record := by
  simp only [headHash, List.getLast?_append, List.getLast?_singleton, Option.some_or,
    Option.map_some, Option.getD_some]

theorem headHash_cons (record : α) (rest : List α)
    : scheme.headHash genesis (record :: rest)
      = scheme.headHash (scheme.hash record) rest := by
  simp only [headHash, List.getLast?_cons]
  cases rest.getLast? <;> rfl

/-- A chain is linked exactly when both of its parts are, by induction on the first. -/
theorem linked_append {first second : List α}
    : scheme.Linked start (first ++ second)
      ↔ scheme.Linked start first
        ∧ scheme.Linked (scheme.headHash start first) second := by
  induction first generalizing start with
  | nil => simp only [List.nil_append, Linked, headHash_nil, true_and]
  | cons record rest ih =>
      simp only [List.cons_append, Linked, ih, headHash_cons, and_assoc]

/-- A chain links exactly if all but its last record does and the last names the hash
before it.
-/
theorem linked_concat {records : List α} {record : α}
    : scheme.Linked start (records ++ [record])
      ↔ scheme.Linked start records
        ∧ scheme.prev record = scheme.headHash start records
        ∧ scheme.digest record = scheme.hash record := by
  simp only [linked_append, Linked, and_true]

/-- Every record of a linked chain carries its own digest. -/
theorem Linked.digest_eq {records : List α} (linked : scheme.Linked start records)
    {record : α} (member : record ∈ records)
    : scheme.digest record = scheme.hash record := by
  obtain ⟨before, after, rfl⟩ := List.append_of_mem member
  obtain ⟨-, -, carried, -⟩ := linked_append.mp linked
  exact carried

/-- The record before an equal hash is the same in two chains from one start, so one common
hash fixes both chains up to it. By induction on the first chain from its end.
-/
theorem Committing.prefix_eq (committing : scheme.Committing genesis)
    {first second : List α} {record other : α}
    (linkedFirst : scheme.Linked genesis (first ++ [record]))
    (linkedSecond : scheme.Linked genesis (second ++ [other]))
    (same : scheme.hash record = scheme.hash other)
    : first ++ [record] = second ++ [other] := by
  induction first using List.reverseRecOn generalizing second record other with
  | nil =>
      obtain ⟨-, namesStart, carried⟩ := linked_concat.mp linkedFirst
      obtain ⟨linkedBefore, names, carriedOther⟩ := linked_concat.mp linkedSecond
      obtain rfl := committing.injective _ _ carried carriedOther same
      rcases List.eq_nil_or_concat' second with rfl | ⟨earlier, last, rfl⟩
      · rfl
      · obtain ⟨-, -, carriedLast⟩ := linked_concat.mp linkedBefore
        rw [headHash_concat, namesStart, headHash_nil, ← carriedLast] at names
        exact absurd names.symm (committing.fresh last)
  | append_singleton earlier last ih =>
      obtain ⟨linkedEarlier, names, carried⟩ := linked_concat.mp linkedFirst
      obtain ⟨linkedBefore, namesOther, carriedOther⟩ := linked_concat.mp linkedSecond
      obtain rfl := committing.injective _ _ carried carriedOther same
      rw [headHash_concat] at names
      rcases List.eq_nil_or_concat' second with rfl | ⟨earlierOther, lastOther, rfl⟩
      · obtain ⟨-, -, carriedLast⟩ := linked_concat.mp linkedEarlier
        rw [headHash_nil, names, ← carriedLast] at namesOther
        exact absurd namesOther (committing.fresh last)
      · rw [headHash_concat, names] at namesOther
        rw [ih linkedEarlier linkedBefore namesOther]

/-- Two chains from one start that carry the same hash at some positions agree up to there,
and the positions are the same.
-/
theorem Committing.take_eq (committing : scheme.Committing genesis)
    {first second : List α} (linkedFirst : scheme.Linked genesis first)
    (linkedSecond : scheme.Linked genesis second) {position otherPosition : Nat}
    {record other : α} (found : first[position]? = some record)
    (foundOther : second[otherPosition]? = some other)
    (same : scheme.hash record = scheme.hash other)
    : position = otherPosition ∧ first.take (position + 1) = second.take (position + 1) := by
  have prefixLinked {records : List α} (linked : scheme.Linked genesis records) (count : Nat)
      : scheme.Linked genesis (records.take count) := by
    rw [← List.take_append_drop count records] at linked
    exact (linked_append.mp linked).1
  have takeFirst : first.take (position + 1) = first.take position ++ [record] := by
    rw [List.take_add_one, found, Option.toList_some]
  have takeSecond
      : second.take (otherPosition + 1) = second.take otherPosition ++ [other] := by
    rw [List.take_add_one, foundOther, Option.toList_some]
  have equal := committing.prefix_eq
    (takeFirst ▸ prefixLinked linkedFirst (position + 1))
    (takeSecond ▸ prefixLinked linkedSecond (otherPosition + 1)) same
  have positions : position = otherPosition := by
    have lengths := congrArg List.length equal
    have bound := (List.getElem?_eq_some_iff.mp found).1
    have boundOther := (List.getElem?_eq_some_iff.mp foundOther).1
    simp only [List.length_append, List.length_take, List.length_singleton] at lengths
    omega
  subst positions
  exact ⟨rfl, by rw [takeFirst, takeSecond, equal]⟩

/-- No record of a linked chain names the hash of a later one. -/
theorem Committing.prev_ne_hash (committing : scheme.Committing genesis)
    {records : List α} {record later : α} (linked : scheme.Linked genesis records)
    (ordered : [record, later].Sublist records)
    : scheme.prev record ≠ scheme.hash later := by
  obtain ⟨front, back, rfl, inFront, inBack⟩ := List.cons_sublist_iff.mp ordered
  obtain ⟨before, middle, rfl⟩ := List.append_of_mem inFront
  obtain ⟨gap, after, rfl⟩ := List.append_of_mem (List.singleton_sublist.mp inBack)
  intro named
  have split := linked
  rw [List.append_assoc, linked_append] at split
  obtain ⟨linkedBefore, names, -⟩ := split
  rcases List.eq_nil_or_concat' before with rfl | ⟨earlier, last, rfl⟩
  · have carried := linked.digest_eq
      (List.mem_append_right _ (List.mem_append_right gap List.mem_cons_self))
    rw [headHash_nil, named, ← carried] at names
    exact committing.fresh later names
  · rw [headHash_concat, named] at names
    have foundLater : (earlier ++ [last] ++ record :: middle ++ (gap ++ later :: after))[
        (earlier ++ [last] ++ record :: middle ++ gap).length]? = some later := by
      rw [← List.append_assoc, List.getElem?_append_right (Nat.le_refl _), Nat.sub_self,
        List.getElem?_cons_zero]
    have foundLast : (earlier ++ [last] ++ record :: middle ++ (gap ++ later :: after))[
        earlier.length]? = some last := by
      rw [List.append_assoc, List.append_assoc, List.getElem?_append_right (Nat.le_refl _),
        Nat.sub_self, List.cons_append, List.getElem?_cons_zero]
    have positions := (committing.take_eq linked linked foundLater foundLast names).1
    simp only [List.length_append, List.length_cons, List.length_nil] at positions
    omega

end HashChain

end VerticalAI.Foundation
