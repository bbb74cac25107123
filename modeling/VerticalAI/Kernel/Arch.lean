import Mathlib.Algebra.GroupWithZero.Nat
import Mathlib.Data.Finset.Basic
import Mathlib.Data.List.Sort
import VerticalAI.Contracts.Arch
import VerticalAI.Contracts.Register
import VerticalAI.Foundation.Text
import VerticalAI.Foundation.Utf8

/-! Arch adapters: lowering a register to a prompt, fitting the prompt into a budget, and raising
the answer into the register. Prompts are lists of characters.
-/

namespace VerticalAI.Kernel
open VerticalAI.Foundation VerticalAI.Contracts

/-- `ROLE:` -/
def roleTag : List Char := ['R', 'O', 'L', 'E', ':']

/-- `GOAL:` -/
def goalTag : List Char := ['G', 'O', 'A', 'L', ':']

/-- `CONSTRAINTS:` -/
def constraintsTag : List Char := ['C', 'O', 'N', 'S', 'T', 'R', 'A', 'I', 'N', 'T', 'S', ':']

/-- `EVIDENCE` -/
def evidenceTag : List Char := ['E', 'V', 'I', 'D', 'E', 'N', 'C', 'E']

/-- `DECISION:` -/
def decisionTag : List Char := ['D', 'E', 'C', 'I', 'S', 'I', 'O', 'N', ':']

/-- `OPEN:` -/
def openTag : List Char := ['O', 'P', 'E', 'N', ':']

/-- The dash that starts a constraint. -/
def bullet : List Char := ['-', ' ']

def roleLine (role : List Char) : List Char := roleTag ++ ' ' :: role

def goalLine (reg : Register) : List Char := goalTag ++ ' ' :: reg.goal.toList

/-- The heading and one bullet a constraint. -/
def constraintLines (reg : Register) : List (List Char) :=
  if reg.constraints = [] then []
  else constraintsTag :: reg.constraints.map fun constraint => bullet ++ constraint.toList

def evidenceLine (evidence : Evidence) : List Char :=
  evidenceTag ++ ' ' :: '(' :: evidence.origin.debug.toList ++ ')' :: ':' :: ' '
    :: evidence.content.toList

def decisionLine (decision : String) : List Char := decisionTag ++ ' ' :: decision.toList

def openLine (question : String) : List Char := openTag ++ ' ' :: question.toList

/-- What a prompt consists of, each piece to be ended by a line break. -/
def promptLines (reg : Register) (role : List Char) : List (List Char) :=
  roleLine role :: goalLine reg :: constraintLines reg ++ reg.evidence.map evidenceLine
    ++ reg.decisions.map decisionLine ++ reg.openQuestions.map openLine

/-- Lower a register into a prompt for a role. -/
def lower (reg : Register) (role : List Char) : List Char :=
  (promptLines reg role).flatMap (· ++ ['\n'])

/-- Take the answer of an arch into the register. -/
def raise (reg : Register) (role : String) (output : List Char) : Register :=
  let answer := String.ofList (Text.trim output)
  if role = "judge" then
    { reg with openQuestions := reg.openQuestions ++ ["judge: " ++ answer] }
  else { reg with decisions := reg.decisions ++ [role ++ ": " ++ answer] }

theorem raise_kept (reg : Register) (role : String) (output : List Char)
    : (raise reg role output).id = reg.id ∧ (raise reg role output).label = reg.label := by
  unfold raise
  dsimp only
  split <;> exact ⟨rfl, rfl⟩

/-- One indivisible piece of a lowered prompt. -/
structure PromptUnit where
  text : List Char
  lines : Nat
  rank : Nat
  deriving DecidableEq, Repr

/-- Priority of a prompt line: lower is kept first. -/
def rankOf (line : List Char) : Nat :=
  if roleTag.isPrefixOf line || goalTag.isPrefixOf line then 0
  else if decisionTag.isPrefixOf line then 1
  else if constraintsTag.isPrefixOf line then 2
  else if openTag.isPrefixOf line then 3
  else if evidenceTag.isPrefixOf line then 4
  else 5

def PromptUnit.ofLine (line : List Char) : PromptUnit := ⟨line, 1, rankOf line⟩

def PromptUnit.extend (unit : PromptUnit) (line : List Char) : PromptUnit :=
  { unit with text := unit.text ++ '\n' :: line, lines := unit.lines + 1 }

/-- Gather lines into units; a constraints heading stays open while bullets follow it. -/
def gather : Option PromptUnit → List (List Char) → List PromptUnit
  | heading, [] => heading.toList
  | some heading, line :: rest =>
      if bullet.isPrefixOf line then gather (some (heading.extend line)) rest
      else if rankOf line = 2 then heading :: gather (some (.ofLine line)) rest
      else heading :: .ofLine line :: gather none rest
  | none, line :: rest =>
      if rankOf line = 2 then gather (some (.ofLine line)) rest
      else .ofLine line :: gather none rest

def unitsOf (prompt : List Char) : List PromptUnit := gather none (Text.lines prompt)

/-- `[PROJECTED: n lines dropped]` -/
def marker (dropped : Nat) : List Char :=
  "[PROJECTED: ".toList ++ Nat.toDigits 10 dropped ++ " lines dropped]".toList

/-- The kept units in order, each ended by a line break, and the marker if there is one. -/
def render (units : List PromptUnit) (kept : Finset Nat) (markerLine : Option (List Char))
    : List Char :=
  (units.zipIdx.filter (fun entry => entry.2 ∈ kept)).flatMap (fun entry => entry.1.text ++ ['\n'])
    ++ markerLine.toList.flatMap (· ++ ['\n'])

/-- The number of lines in the units that were not kept. -/
def droppedLines (units : List PromptUnit) (kept : Finset Nat) : Nat :=
  ((units.zipIdx.filter (fun entry => entry.2 ∉ kept)).map (·.1.lines)).sum

/-- The places of the units that are never dropped. -/
def essential (units : List PromptUnit) : Finset Nat :=
  ((units.zipIdx.filter (fun entry => entry.1.rank = 0)).map (·.2)).toFinset

/-- The places of the other units, by rank and then by place. -/
def admissionOrder (units : List PromptUnit) : List Nat :=
  let others := units.zipIdx.filter (fun entry => entry.1.rank ≠ 0)
  let before (first second : PromptUnit × Nat) : Bool :=
    first.1.rank < second.1.rank || (first.1.rank = second.1.rank && first.2 ≤ second.2)
  (others.mergeSort before).map (·.2)

/-- Keep a unit if the prompt, with the widest marker, still fits. -/
def keepIfFits (units : List PromptUnit) (reserved : List Char) (budget : UInt32)
    (count : List Char → UInt32) (kept : Finset Nat) (place : Nat)
    : Finset Nat :=
  if budget < count (render units (insert place kept) (some reserved)) then kept
  else insert place kept

/-- Fit a prompt into a budget by leaving out whole units, last of all those of low rank, and
say how many lines were left out. There is no result if the role and goal do not fit.
-/
def project (prompt : List Char) (budget : UInt32) (count : List Char → UInt32)
    : Option (List Char) :=
  if count prompt ≤ budget then some prompt
  else
    let units := unitsOf prompt
    let reserved := marker (droppedLines units (essential units))
    if budget < count (render units (essential units) (some reserved)) then none
    else
      let kept :=
        (admissionOrder units).foldl (keepIfFits units reserved budget count) (essential units)
      let dropped := droppedLines units kept
      some (if dropped = 0 then render units kept none
        else render units kept (some (marker dropped)))

/-- An arch as the kernel reaches it. What `complete` answers may differ from call to call, so
it is told how many calls there were before.
-/
structure ArchAdapter where
  manifest : ArchManifest
  contextBudget : UInt32
  countTokens : List Char → UInt32
  complete : (calls : Nat) → (prompt : List Char) → (maxTokens : UInt32)
    → Except String (List Char)

/-- The adapter that answers with the role and the start of its prompt. -/
def mockAdapter (manifest : ArchManifest) (budget : UInt32) : ArchAdapter where
  manifest
  contextBudget := budget
  countTokens text := UInt32.ofNat ((Utf8.encode text).length / 4) + 1
  complete _ prompt _ :=
    let first := (Text.lines prompt).head?.getD []
    let role := Text.trimStartMatches (roleTag ++ [' ']) first
    .ok (role.map Char.toUpper ++ ':' :: ' ' :: prompt.take 200)

end VerticalAI.Kernel
