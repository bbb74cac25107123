import Mathlib.Algebra.GroupWithZero.Nat
import VerticalAI.Foundation.Json

/-! What a parser reads where the text of a document stands: whole numbers within 64 bits, other numbers
as near as it comes to them, and the members of an object by their names.
-/

namespace VerticalAI.Foundation

/-- What a parser makes of the text of a number that is no whole one of 64 bits; none if it is out of
range.
-/
class DecimalReader where
  read : List Char → Option Decimal

namespace Json

/-- An object with one more member, its members sorted by their names; the later of two of one name stays.
-/
def insertMember (name : String) (value : Json)
    : List (String × Json) → List (String × Json)
  | [] => [(name, value)]
  | (other, old) :: rest =>
      if name < other then (name, value) :: (other, old) :: rest
      else if name = other then (name, value) :: rest
      else (other, old) :: insertMember name value rest

/-- A member behind all others is added at the end, by induction on them. -/
theorem insertMember_last {name : String} {value : Json} {members : List (String × Json)}
    (last : ∀ member ∈ members, member.1 < name)
    : insertMember name value members = members ++ [(name, value)] := by
  induction members with
  | nil => rfl
  | cons member rest ih =>
      obtain ⟨here, others⟩ := List.forall_mem_cons.mp last
      simp only [insertMember, if_neg (String.lt_asymm here), if_neg (Ne.symm (String.ne_of_lt here)),
        ih others, List.cons_append]

/-- The names of members stand in order. -/
def Sorted (members : List (String × Json)) : Prop := (members.map (·.1)).Pairwise (· < ·)

mutual

/-- A document of whole numbers of 64 bits, with the members of its objects in order, within so many
levels.
-/
def Plain (levels : Nat) : Json → Prop
  | .num value => value < 2 ^ 64
  | .neg value => value < 2 ^ 63
  | .float _ => False
  | .arr items =>
      match levels with
      | 0 => False
      | levels + 1 => PlainItems levels items
  | .obj members =>
      match levels with
      | 0 => False
      | levels + 1 => Sorted members ∧ PlainMembers levels members
  | _ => True

def PlainItems (levels : Nat) : List Json → Prop
  | [] => True
  | item :: rest => Plain levels item ∧ PlainItems levels rest

def PlainMembers (levels : Nat) : List (String × Json) → Prop
  | [] => True
  | (_, value) :: rest => Plain levels value ∧ PlainMembers levels rest

end

variable [DecimalReader]

mutual

/-- What is read of a document within so many levels of arrays and objects. -/
def reread (levels : Nat) : Json → Option Json
  | .null => some .null
  | .bool value => some (.bool value)
  | .num value =>
      if value < 2 ^ 64 then some (.num value)
      else (DecimalReader.read (render (.num value))).map .float
  | .neg value =>
      if value < 2 ^ 63 then some (.neg value)
      else (DecimalReader.read (render (.neg value))).map .float
  | .float value => (DecimalReader.read value.text).map .float
  | .str value => some (.str value)
  | .arr items =>
      match levels with
      | 0 => none
      | levels + 1 => (rereadItems levels items).map .arr
  | .obj members =>
      match levels with
      | 0 => none
      | levels + 1 => (rereadMembers levels [] members).map .obj

def rereadItems (levels : Nat) : List Json → Option (List Json)
  | [] => some []
  | item :: rest =>
      match reread levels item, rereadItems levels rest with
      | some item, some rest => some (item :: rest)
      | _, _ => none

/-- The members of an object, after those that were read before. -/
def rereadMembers (levels : Nat) (before : List (String × Json))
    : List (String × Json) → Option (List (String × Json))
  | [] => some before
  | (name, value) :: rest =>
      match reread levels value with
      | some value => rereadMembers levels (insertMember name value before) rest
      | none => none

end

mutual

/-- A plain document is read as it is, by recursion on it. -/
theorem reread_plain : {levels : Nat} → {document : Json} → Plain levels document
    → reread levels document = some document
  | _, .null, _ | _, .bool _, _ | _, .str _, _ => by rw [reread]
  | _, .num value, small => by
      have small : value < 2 ^ 64 := small
      rw [reread, if_pos small]
  | _, .neg value, small => by
      have small : value < 2 ^ 63 := small
      rw [reread, if_pos small]
  | _, .float _, plain => plain.elim
  | 0, .arr _, plain | 0, .obj _, plain => by cases plain
  | levels + 1, .arr items, plain => by
      have read : rereadItems levels items = some items := rereadItems_plain plain
      rw [reread, read]
      rfl
  | levels + 1, .obj members, plain => by
      obtain ⟨sorted, plain⟩ := plain
      rw [reread, rereadMembers_plain [] plain sorted]
      rfl

theorem rereadItems_plain : {levels : Nat} → {items : List Json} → PlainItems levels items
    → rereadItems levels items = some items
  | _, [], _ => rfl
  | _, _ :: _, plain => by rw [rereadItems, reread_plain plain.1, rereadItems_plain plain.2]

theorem rereadMembers_plain
    : {levels : Nat} → {members : List (String × Json)} → (before : List (String × Json))
      → PlainMembers levels members → Sorted (before ++ members)
      → rereadMembers levels before members = some (before ++ members)
  | _, [], before, _, _ => by rw [rereadMembers, List.append_nil]
  | _, (name, value) :: rest, before, plain, sorted => by
      have last : ∀ member ∈ before, member.1 < name := by
        rw [Sorted, List.map_append, List.pairwise_append] at sorted
        exact fun member within =>
          sorted.2.2 _ (List.mem_map_of_mem within) _ List.mem_cons_self
      rw [List.append_cons] at sorted ⊢
      rw [rereadMembers, reread_plain plain.1]
      dsimp only
      rw [insertMember_last last, rereadMembers_plain _ plain.2 sorted]

end

end Json

end VerticalAI.Foundation
