import Mathlib.Data.Option.Basic

/-!
# The `extractions` row

One row of the `extractions` table, restricted to the columns that the
lifecycle updates and the stale-row queries read or write.  The columns that
only the submit handler writes are represented by `callbackUrl`, the one the
workers consult; the JSON blobs are left abstract.  Clock readings are integers:
microseconds, the resolution of `datetime`.
-/

namespace Flydocs

def timedelta (seconds : Int) : Int := seconds * 1000000

inductive ExtractionStatus where
  | queued
  | running
  | succeeded
  | failed
  | cancelled
  deriving DecidableEq, Repr

namespace ExtractionStatus

def isTerminal : ExtractionStatus → Bool
  | queued | running => false
  | succeeded | failed | cancelled => true

end ExtractionStatus

inductive PostProcessingStatus where
  | pending
  | running
  | succeeded
  | failed
  deriving DecidableEq, Repr

namespace PostProcessingStatus

def isTerminal : PostProcessingStatus → Bool
  | pending | running => false
  | succeeded | failed => true

end PostProcessingStatus

structure Extraction (Json : Type*) where
  status : ExtractionStatus
  callbackUrl : Option String
  resultJson : Option Json
  errorCode : Option String
  errorMessage : Option String
  attempts : Nat
  submittedAt : Int
  startedAt : Option Int
  finishedAt : Option Int
  postProcessingBboxStatus : Option PostProcessingStatus
  postProcessingBboxAttempts : Nat
  postProcessingBboxStartedAt : Option Int
  postProcessingBboxFinishedAt : Option Int
  postProcessingBboxErrorCode : Option String
  postProcessingBboxErrorMessage : Option String
  deriving DecidableEq, Repr

namespace Extraction

def submitted {Json : Type*} (submittedAt : Int)
    (callbackUrl : Option String) : Extraction Json where
  status := .queued
  callbackUrl := callbackUrl
  resultJson := none
  errorCode := none
  errorMessage := none
  attempts := 0
  submittedAt := submittedAt
  startedAt := none
  finishedAt := none
  postProcessingBboxStatus := none
  postProcessingBboxAttempts := 0
  postProcessingBboxStartedAt := none
  postProcessingBboxFinishedAt := none
  postProcessingBboxErrorCode := none
  postProcessingBboxErrorMessage := none

end Extraction

end Flydocs
