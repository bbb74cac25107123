import VerticalAI.Contracts.Labels

/-! Registers: what a task knows, as one labelled document. -/

namespace VerticalAI.Contracts
open VerticalAI.Foundation

structure RegisterId where
  text : String
  deriving DecidableEq, Repr

structure Evidence where
  content : String
  origin : Origin
  sourceHash : String
  deriving DecidableEq, Repr

structure ArtefactRef where
  hash : String
  kind : String
  deriving DecidableEq, Repr

structure Register where
  id : RegisterId
  taskId : String
  label : Label
  goal : String
  constraints : List String
  evidence : List Evidence
  decisions : List String
  openQuestions : List String
  artefacts : List ArtefactRef
  deriving DecidableEq

def Evidence.toJson (evidence : Evidence) : Json :=
  .obj [("content", .str evidence.content), ("origin", .str evidence.origin.name),
    ("source_hash", .str evidence.sourceHash)]

def ArtefactRef.toJson (artefact : ArtefactRef) : Json :=
  .obj [("hash", .str artefact.hash), ("kind", .str artefact.kind)]

def Register.toJson (reg : Register) : Json :=
  .obj [("id", .str reg.id.text), ("task_id", .str reg.taskId), ("label", reg.label.toJson),
    ("goal", .str reg.goal), ("constraints", .arr (reg.constraints.map .str)),
    ("evidence", .arr (reg.evidence.map Evidence.toJson)),
    ("decisions", .arr (reg.decisions.map .str)),
    ("open_questions", .arr (reg.openQuestions.map .str)),
    ("artefacts", .arr (reg.artefacts.map ArtefactRef.toJson))]

end VerticalAI.Contracts
