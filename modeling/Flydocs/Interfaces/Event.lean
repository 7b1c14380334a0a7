import Flydocs.Models.Extraction

/-!
# Public snapshots and event envelopes

`rowToExtraction` projects a row onto the resource the API, the bus and the
webhooks share.  `EventEnvelope` is what a webhook receives; the request
metadata and the tracing headers it also carries are copied from columns that
no transition writes and are left out, as are the random event id and the id
of the one extraction the model is about.
-/

namespace Flydocs

namespace Interfaces

structure ExtractionError where
  code : String
  message : String
  deriving DecidableEq, Repr

structure BboxRefinementInfo where
  status : PostProcessingStatus
  startedAt : Option Int
  finishedAt : Option Int
  attempts : Nat
  error : Option ExtractionError
  deriving DecidableEq, Repr

structure PostProcessing where
  bboxRefinement : Option BboxRefinementInfo
  deriving DecidableEq, Repr

structure Extraction where
  status : ExtractionStatus
  submittedAt : Int
  startedAt : Option Int
  finishedAt : Option Int
  attempts : Nat
  error : Option ExtractionError
  postProcessing : Option PostProcessing
  deriving DecidableEq, Repr

inductive EventType where
  | extractionSubmitted
  | extractionCompleted
  | extractionPostProcessingRequested
  | extractionPostProcessingCompleted
  deriving DecidableEq, Repr

structure EventEnvelope (Result : Type*) where
  eventType : EventType
  occurredAt : Int
  extraction : Interfaces.Extraction
  result : Option Result
  deriving DecidableEq, Repr

end Interfaces

namespace Projector

/-- `bool(text)`: neither `None` nor the empty string. -/
def truthy (text : Option String) : Bool :=
  match text with
  | none => false
  | some text => text != ""

def orDefault (text : Option String) (default : String) : String :=
  if truthy text then text.getD default else default

def extractionError (code message : Option String) :
    Option Interfaces.ExtractionError :=
  if truthy code || truthy message then
    some ⟨orDefault code "unknown", orDefault message ""⟩
  else none

def rowToExtraction {Json : Type*} (row : Extraction Json) :
    Interfaces.Extraction where
  status := row.status
  submittedAt := row.submittedAt
  startedAt := row.startedAt
  finishedAt := row.finishedAt
  attempts := row.attempts
  error := extractionError row.errorCode row.errorMessage
  postProcessing := row.postProcessingBboxStatus.map fun status =>
    { bboxRefinement := some
        { status := status
          startedAt := row.postProcessingBboxStartedAt
          finishedAt := row.postProcessingBboxFinishedAt
          attempts := row.postProcessingBboxAttempts
          error := extractionError row.postProcessingBboxErrorCode
            row.postProcessingBboxErrorMessage } }

end Projector

end Flydocs
