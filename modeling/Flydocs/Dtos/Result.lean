import Flydocs.Dtos.Extracted
import Flydocs.Interfaces.Event

/-!
# Extraction results in full

The response of an extraction as it is stored, served and delivered, with
every attribute of its classes.  A number with bounds is a subtype or a
natural number; clock readings are microseconds.
-/

namespace Flydocs

open Foundation

namespace Dtos

structure VisualCheckResult where
  name : String
  passed : Bool
  confidence : UnitInterval := 0
  notes : Option String := none

structure DocumentAuthenticity where
  visual : List VisualCheckResult := []
  content : Option Interfaces.ContentAuthenticity := none

structure ClassificationInfo where
  documentType : String
  matched : Bool := true
  confidence : UnitInterval := 0
  description : Option String := none
  notes : Option String := none

structure FileSummary where
  filename : String
  mediaType : String
  pageCount : Int
  bytes : Int
  matchedType : Option String := none
  classification : Option ClassificationInfo := none

structure Document where
  type : String
  sourceFile : Option String := none
  missing : Bool := false
  pages : List Int := []
  confidence : UnitInterval := 0
  description : Option String := none
  notes : Option String := none
  fieldGroups : List ExtractedFieldGroup := []
  authenticity : DocumentAuthenticity := {}

structure TraceEntry where
  node : String
  startedAt : Int
  completedAt : Int
  latencyMs : Rat
  status : Interfaces.NodeStatus

structure EscalationInfo where
  triggered : Bool := false
  primaryModel : Option String := none
  escalationModel : Option String := none
  primaryFailRate : UnitInterval := 0
  escalationFailRate : UnitInterval := 0
  accepted : Bool := false

structure RepairInfo where
  triggered : Bool := false
  model : Option String := none
  fieldsFlagged : Nat := 0
  fieldsRepaired : Nat := 0
  repairedFields : List String := []
  tasksSkipped : Nat := 0
  rowsChanged : List (String × Int) := []

structure UsageBreakdown where
  totalInputTokens : Int := 0
  totalOutputTokens : Int := 0
  totalTokens : Int := 0
  totalCostUsd : Rat := 0
  totalRequests : Int := 0
  totalLatencyMs : Rat := 0
  recordCount : Int := 0
  cacheCreationTokens : Int := 0
  cacheReadTokens : Int := 0
  byAgent : List (String × JsonValue.Members) := []
  byModel : List (String × JsonValue.Members) := []

structure PipelineMeta where
  model : String
  latencyMs : Nat
  trace : List TraceEntry := []
  errors : List Interfaces.PipelineError := []
  escalation : Option EscalationInfo := none
  repair : Option RepairInfo := none
  usage : Option UsageBreakdown := none

structure ExtractionResult where
  id : String
  status : Interfaces.ResultStatus := .success
  files : List FileSummary := []
  documents : List Document := []
  discoveredDocuments : List Document := []
  ruleResults : List Interfaces.RuleResult := []
  requestTransformations : List ExtractedFieldGroup := []
  pipeline : PipelineMeta

/-! ## The resource and its events -/

structure BboxRefinementInfo where
  status : PostProcessingStatus
  startedAt : Option Int := none
  finishedAt : Option Int := none
  attempts : Int := 0
  error : Option Interfaces.ExtractionError := none

structure PostProcessing where
  bboxRefinement : Option BboxRefinementInfo := none

structure Extraction where
  id : String
  status : ExtractionStatus
  submittedAt : Int
  startedAt : Option Int := none
  finishedAt : Option Int := none
  attempts : Int := 0
  error : Option Interfaces.ExtractionError := none
  postProcessing : Option PostProcessing := none

structure EventEnvelope where
  eventId : String
  eventType : String
  version : String := "1.0.0"
  occurredAt : Int
  correlationId : Option String := none
  tenantId : Option String := none
  extraction : Extraction
  result : Option ExtractionResult := none
  metadata : JsonValue.Members := []

end Dtos

end Flydocs
