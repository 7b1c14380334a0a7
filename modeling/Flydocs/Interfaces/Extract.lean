import Flydocs.Interfaces.Base64
import Flydocs.Interfaces.Event

/-!
# Extraction requests and results

The DTOs of a pipeline run, with the fields the orchestrator reads and writes.
A float is taken as the rational it stands for, and `Group` is the type of an
extracted field group, which the orchestrator hands on without looking inside.
-/

namespace Flydocs

namespace Interfaces

/-! ## Request -/

structure FileInput where
  filename : String
  contentBase64 : Option String
  contentType : Option String
  expectedType : Option String
  deriving DecidableEq, Repr

def FileInput.decodedBytes (file : FileInput) :
    Except Failure (List UInt8) :=
  match file.contentBase64 with
  | none => .error (Base64.valueError
      "FileInput.content_base64 is not set (multipart mode)")
  | some content => Base64.b64decode content

structure StageToggles where
  splitter : Bool := false
  classifier : Bool := true
  fieldValidation : Bool := true
  visualAuthenticity : Bool := false
  contentAuthenticity : Bool := false
  judge : Bool := false
  judgeEscalation : Bool := false
  repair : Bool := false
  bboxRefine : Bool := false
  transform : Bool := false
  ruleEngine : Bool := false
  deriving DecidableEq, Repr

inductive TransformationScope where
  | task
  | request
  deriving DecidableEq, Repr

structure Transformation where
  scope : TransformationScope := .task
  deriving DecidableEq, Repr

structure VisualCheck where
  name : String
  description : String
  deriving DecidableEq, Repr

structure DocumentTypeSpec where
  id : String
  description : Option String := none
  visualChecks : List VisualCheck := []
  deriving DecidableEq, Repr

structure RuleSpec where
  id : String
  deriving DecidableEq, Repr

structure ExtractionOptions where
  model : Option String := none
  declaredMediaType : Option String := none
  stages : StageToggles := {}
  transformations : List Transformation := []
  deriving DecidableEq, Repr

structure ExtractionRequest where
  files : List FileInput
  documentTypes : List DocumentTypeSpec
  rules : List RuleSpec := []
  options : ExtractionOptions := {}
  deriving DecidableEq, Repr

/-! ## Result -/

inductive CheckStatus where
  | pass
  | fail
  | uncertain
  deriving DecidableEq, Repr

inductive ContentIntegrityStatus where
  | valid
  | invalid
  | uncertain
  deriving DecidableEq, Repr

structure VisualCheckResult where
  name : String
  passed : Bool
  confidence : Rat := 0
  notes : Option String := none
  deriving DecidableEq, Repr

structure ContentCoherenceCheck where
  name : String
  description : String
  status : CheckStatus
  evidence : Option String := none
  reasoning : Option String := none
  deriving DecidableEq, Repr

structure ContentAuthenticity where
  overallIntegrityStatus : ContentIntegrityStatus := .uncertain
  checks : List ContentCoherenceCheck := []
  deriving DecidableEq, Repr

structure DocumentAuthenticity where
  visual : List VisualCheckResult := []
  content : Option ContentAuthenticity := none
  deriving DecidableEq, Repr

structure ClassificationInfo where
  documentType : String
  matched : Bool := true
  confidence : Rat := 0
  description : Option String := none
  notes : Option String := none
  deriving DecidableEq, Repr

structure FileSummary where
  filename : String
  mediaType : String
  pageCount : Int
  bytes : Nat
  matchedType : Option String
  classification : Option ClassificationInfo
  deriving DecidableEq, Repr

structure Document (Group : Type*) where
  type : String
  sourceFile : Option String
  missing : Bool := false
  pages : List Int
  confidence : Rat
  description : Option String
  notes : Option String := none
  fieldGroups : List Group := []
  authenticity : DocumentAuthenticity := {}
  deriving DecidableEq, Repr

structure RuleResult where
  ruleId : String
  predicate : String
  output : String := ""
  summary : Option String := none
  notes : List String := []
  humanRevision : Option String := none
  deriving DecidableEq, Repr

inductive NodeStatus where
  | success
  | failed
  | skipped
  deriving DecidableEq, Repr

structure TraceEntry where
  node : String
  status : NodeStatus
  deriving DecidableEq, Repr

structure PipelineError where
  node : String
  code : String
  message : String
  deriving DecidableEq, Repr

structure EscalationInfo where
  triggered : Bool := false
  primaryModel : Option String := none
  escalationModel : Option String := none
  primaryFailRate : Rat := 0
  escalationFailRate : Rat := 0
  accepted : Bool := false
  deriving DecidableEq, Repr

structure RepairInfo where
  triggered : Bool := false
  model : Option String := none
  fieldsFlagged : Nat := 0
  fieldsRepaired : Nat := 0
  repairedFields : List String := []
  tasksSkipped : Nat := 0
  rowsChanged : List (String × Int) := []
  deriving DecidableEq, Repr

structure PipelineMeta where
  model : String
  trace : List TraceEntry := []
  errors : List PipelineError := []
  escalation : Option EscalationInfo := none
  repair : Option RepairInfo := none
  deriving DecidableEq, Repr

inductive ResultStatus where
  | success
  | partialSuccess
  deriving DecidableEq, Repr

structure ExtractionResult (Group : Type*) where
  status : ResultStatus := .success
  files : List FileSummary := []
  documents : List (Document Group) := []
  discoveredDocuments : List (Document Group) := []
  ruleResults : List RuleResult := []
  requestTransformations : List Group := []
  pipeline : PipelineMeta
  deriving DecidableEq, Repr

end Interfaces

end Flydocs
