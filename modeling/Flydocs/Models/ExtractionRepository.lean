import Flydocs.Foundation.ConditionalUpdate
import Flydocs.Models.Extraction

/-!
# The extraction repository

Every state-changing method of the repository is one conditional update of the
row whose id it is given; the stale-row queries are the selection predicates
of the reapers and of the queued-backlog poll, before `LIMIT`.  A comparison
with a null timestamp is not true, so it selects nothing.
-/

namespace Flydocs

open Foundation

namespace ExtractionRepository

variable {Json : Type*}

/-- SQL `column < cutoff` on a nullable timestamp. -/
def isBefore (column : Option Int) (cutoff : Int) : Bool :=
  match column with
  | none => false
  | some time => decide (time < cutoff)

@[simp] theorem isBefore_some (time cutoff : Int) :
    isBefore (some time) cutoff = decide (time < cutoff) := rfl

def staleCutoff (now : Int) (seconds : Int) : Int :=
  now - timedelta (max 0 seconds)

/-! ## Reaper helpers -/

def findStaleRunning (now : Int) (leaseSeconds : Int)
    (row : Extraction Json) : Bool :=
  decide (row.status = .running) &&
    isBefore row.startedAt (staleCutoff now leaseSeconds)

def findStaleQueued (now : Int) (olderThanSeconds : Int)
    (row : Extraction Json) : Bool :=
  decide (row.status = .queued) &&
    decide (row.startedAt.getD row.submittedAt <
      staleCutoff now olderThanSeconds)

def findStaleBboxRefining (now : Int) (leaseSeconds : Int)
    (row : Extraction Json) : Bool :=
  decide (row.postProcessingBboxStatus = some .running) &&
    isBefore row.postProcessingBboxStartedAt (staleCutoff now leaseSeconds)

def findPendingBboxRevive (now : Int)
    (pendingThresholdSeconds bboxLeaseSeconds : Int)
    (row : Extraction Json) : Bool :=
  decide (row.status = .succeeded) &&
    decide (row.postProcessingBboxStatus = some .pending) &&
    ((row.postProcessingBboxStartedAt.isNone &&
        isBefore row.finishedAt (staleCutoff now pendingThresholdSeconds)) ||
      (row.postProcessingBboxStartedAt.isSome &&
        isBefore row.postProcessingBboxStartedAt
          (staleCutoff now bboxLeaseSeconds)))

/-! ## Main lifecycle transitions -/

def markRunning (now : Int) (leaseSeconds : Int) :
    ConditionalUpdate (Extraction Json) where
  guard row :=
    decide (row.status = .queued) ||
      (decide (row.status = .running) &&
        isBefore row.startedAt (staleCutoff now leaseSeconds))
  values row :=
    { row with
      status := .running
      startedAt := some now
      attempts := row.attempts + 1 }

def markSucceeded (now : Int) (result : Json) (requestBboxRefinement : Bool) :
    ConditionalUpdate (Extraction Json) where
  guard row := decide (row.status = .running)
  values row :=
    { row with
      status := .succeeded
      finishedAt := some now
      resultJson := some result
      errorCode := none
      errorMessage := none
      postProcessingBboxStatus :=
        if requestBboxRefinement then some .pending
        else row.postProcessingBboxStatus }

def markFailed (now : Int) (code message : String) :
    ConditionalUpdate (Extraction Json) where
  guard row := decide (row.status = .running)
  values row :=
    { row with
      status := .failed
      finishedAt := some now
      errorCode := some code
      errorMessage := some message }

def markCancelled (now : Int) : ConditionalUpdate (Extraction Json) where
  guard row := decide (row.status = .queued)
  values row := { row with status := .cancelled, finishedAt := some now }

def requeueForRetry : ConditionalUpdate (Extraction Json) where
  guard row := decide (row.status = .running)
  values row := { row with status := .queued }

/-! ## Bbox-refinement leg -/

def claimBboxRefinement (now : Int) (leaseSeconds : Int) :
    ConditionalUpdate (Extraction Json) where
  guard row :=
    decide (row.status = .succeeded) &&
      (decide (row.postProcessingBboxStatus = some .pending) ||
        (decide (row.postProcessingBboxStatus = some .running) &&
          isBefore row.postProcessingBboxStartedAt
            (staleCutoff now leaseSeconds)))
  values row :=
    { row with
      postProcessingBboxStatus := some .running
      postProcessingBboxStartedAt := some now
      postProcessingBboxAttempts := row.postProcessingBboxAttempts + 1 }

/-- The precondition shared by the three updates that end a bbox claim. -/
def bboxRunning (row : Extraction Json) : Bool :=
  decide (row.status = .succeeded) &&
    decide (row.postProcessingBboxStatus = some .running)

def requeueBboxRefinement : ConditionalUpdate (Extraction Json) where
  guard := bboxRunning
  values row := { row with postProcessingBboxStatus := some .pending }

def completeBboxRefinement (now : Int) (result : Json) :
    ConditionalUpdate (Extraction Json) where
  guard := bboxRunning
  values row :=
    { row with
      resultJson := some result
      postProcessingBboxStatus := some .succeeded
      postProcessingBboxFinishedAt := some now
      postProcessingBboxErrorCode := none
      postProcessingBboxErrorMessage := none }

def failBboxRefinement (now : Int) (code message : String) :
    ConditionalUpdate (Extraction Json) where
  guard := bboxRunning
  values row :=
    { row with
      postProcessingBboxStatus := some .failed
      postProcessingBboxFinishedAt := some now
      postProcessingBboxErrorCode := some code
      postProcessingBboxErrorMessage := some message }

/-! ## Calls -/

inductive Call (Json : Type*) where
  | markRunning (leaseSeconds : Int)
  | markSucceeded (result : Json) (requestBboxRefinement : Bool)
  | markFailed (code message : String)
  | markCancelled
  | requeueForRetry
  | claimBboxRefinement (leaseSeconds : Int)
  | requeueBboxRefinement
  | completeBboxRefinement (result : Json)
  | failBboxRefinement (code message : String)
  deriving DecidableEq, Repr

def Call.update (now : Int) : Call Json → ConditionalUpdate (Extraction Json)
  | .markRunning leaseSeconds =>
      ExtractionRepository.markRunning now leaseSeconds
  | .markSucceeded result requestBboxRefinement =>
      ExtractionRepository.markSucceeded now result requestBboxRefinement
  | .markFailed code message => ExtractionRepository.markFailed now code message
  | .markCancelled => ExtractionRepository.markCancelled now
  | .requeueForRetry => ExtractionRepository.requeueForRetry
  | .claimBboxRefinement leaseSeconds =>
      ExtractionRepository.claimBboxRefinement now leaseSeconds
  | .requeueBboxRefinement => ExtractionRepository.requeueBboxRefinement
  | .completeBboxRefinement result =>
      ExtractionRepository.completeBboxRefinement now result
  | .failBboxRefinement code message =>
      ExtractionRepository.failBboxRefinement now code message

def Call.isMarkRunning : Call Json → Bool
  | .markRunning _ => true
  | _ => false

def Call.isClaimBboxRefinement : Call Json → Bool
  | .claimBboxRefinement _ => true
  | _ => false

end ExtractionRepository

end Flydocs
