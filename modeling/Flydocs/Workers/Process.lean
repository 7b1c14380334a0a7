import Flydocs.Interfaces.Event
import Flydocs.Models.ExtractionRepository
import Flydocs.Workers.RetryPolicy

/-!
# One `_process` task

Both workers handle an event in one `_process` task: read the row, claim it,
work, finalise, notify, and on an exception fail or requeue.  `Process` is
where such a task stands between two awaits, with the local variables it still
needs.  `Handled` lists everything one step of either task can do.
-/

namespace Flydocs

open Foundation ExtractionRepository

variable {Worker Json Result : Type*}

inductive Process (Json Result : Type*) where
  | received
  | loaded
  | executing (claimed : Extraction Json)
  | finalising (claimed : Extraction Json) (result : Result)
      (wantsBboxRefine : Bool)
  | notifying (claimed finalised : Extraction Json) (result : Result)
      (wantsBboxRefine : Bool)
  | notified (claimed finalised : Extraction Json) (wantsBboxRefine : Bool)
  | recovering (claimed : Extraction Json) (failure : Failure)
  | reporting (claimed failed : Extraction Json)
  deriving DecidableEq, Repr

inductive Action (Result : Type*) where
  | get
  | claim
  | execute (result : Result) (wantsBboxRefine : Bool)
  | finalise
  | notify
  | announce
  | recover (jitter : Int)
  | report
  | raise (failure : Failure)
  | crash
  deriving DecidableEq, Repr

namespace Process

def claimed : Process Json Result → Option (Extraction Json)
  | received | loaded => none
  | executing claimed | finalising claimed _ _ | notifying claimed _ _ _
  | notified claimed _ _ | recovering claimed _ | reporting claimed _ =>
      some claimed

/-- The terminal row this task has written and not yet told anyone about. -/
def owed : Process Json Result → Option (Extraction Json × Option Result)
  | notifying _ finalised result _ => some (finalised, some result)
  | reporting _ failed => some (failed, none)
  | received | loaded | executing _ | finalising _ _ _ | notified _ _ _
  | recovering _ _ => none

/-- Whether an exception raised now is caught by the task's own `except`. -/
def insideTry : Process Json Result → Bool
  | executing _ | finalising _ _ _ | notifying _ _ _ _ | notified _ _ _ => true
  | received | loaded | recovering _ _ | reporting _ _ => false

end Process

/-- The task ends or jumps to its `except` clause instead of going on. -/
def Action.stops : Action Result → Bool
  | raise _ | crash => true
  | get | claim | execute _ _ | finalise | notify | announce | recover _
  | report => false

/-! ## The two legs -/

inductive Leg where
  | main
  | bbox
  deriving DecidableEq, Repr

namespace Leg

def claimCall (settings : IDPSettings) : Leg → Call Json
  | main => .markRunning settings.jobRunLeaseS
  | bbox => .claimBboxRefinement settings.bboxRefineLeaseS

def finaliseCall (result : Json) (wantsBboxRefine : Bool) : Leg → Call Json
  | main => .markSucceeded result wantsBboxRefine
  | bbox => .completeBboxRefinement result

def failCall (code message : String) : Leg → Call Json
  | main => .markFailed code message
  | bbox => .failBboxRefinement code message

def requeueCall : Leg → Call Json
  | main => .requeueForRetry
  | bbox => .requeueBboxRefinement

def maxAttempts (settings : IDPSettings) : Leg → Int
  | main => settings.jobMaxAttempts
  | bbox => settings.bboxRefineMaxAttempts

def attempts (row : Extraction Json) : Leg → Nat
  | main => max 1 row.attempts
  | bbox => max 1 row.postProcessingBboxAttempts

def exhaustedCode : Leg → String
  | main => "extraction_failed"
  | bbox => "bbox_refine_failed"

def afterFailure (claimed failed : Extraction Json) :
    Leg → Option (Process Json Result)
  | main => some (.reporting claimed failed)
  | bbox => none

def completed : Leg → Interfaces.EventType
  | main => .extractionCompleted
  | bbox => .extractionPostProcessingCompleted

end Leg

/-! ## What a step leaves behind -/

inductive Observation (Worker Json Result : Type*) where
  | returned (time : Int) (worker : Worker) (call : Call Json)
      (row : Extraction Json)
  | backingOff (leg : Leg) (time : Int) (worker : Worker) (delay : Int)
  | delivered (leg : Leg) (worker : Worker) (url : String)
      (envelope : Interfaces.EventEnvelope Result)
  deriving DecidableEq, Repr

namespace Observation

def call : Observation Worker Json Result → Option (Call Json)
  | returned _ _ call _ => some call
  | backingOff _ _ _ _ | delivered _ _ _ _ => none

end Observation

/-- What one step of a task does: `next` is `none` when the task has ended. -/
structure Effect (Worker Json Result : Type*) where
  row : Extraction Json
  next : Option (Process Json Result)
  observed : List (Observation Worker Json Result) := []
  delayed : Option Int := none
  requested : Bool := false

namespace Effect

def goTo (row : Extraction Json) (next : Option (Process Json Result)) :
    Effect Worker Json Result where
  row := row
  next := next

def attempt (now : Int) (worker : Worker) (row : Extraction Json)
    (call : Call Json)
    (won : Extraction Json → Option (Process Json Result)) :
    Effect Worker Json Result :=
  match (call.update now).returning row with
  | none => goTo row none
  | some next =>
      { row := next
        next := won next
        observed := [.returned now worker call next] }

/-- Hand `envelope` to the webhook publisher unless `callback_url` is falsy. -/
def fireWebhook (leg : Leg) (worker : Worker) (row : Extraction Json)
    (callbackUrl : Option String)
    (envelope : Interfaces.EventEnvelope Result)
    (next : Option (Process Json Result)) : Effect Worker Json Result where
  row := row
  next := next
  observed :=
    if Projector.truthy callbackUrl then
      [.delivered leg worker (callbackUrl.getD "") envelope]
    else []

/-- The `except` clause of a worker: fail for good or requeue with backoff. -/
def recover (leg : Leg) (settings : IDPSettings) (now : Int)
    (worker : Worker) (row claimed : Extraction Json) (failure : Failure)
    (jitter : Int) : Option (Effect Worker Json Result) :=
  let attempts := leg.attempts claimed
  let permanent := failure.isPermanent
  let exhausted := decide (leg.maxAttempts settings ≤ attempts)
  if permanent || exhausted then
    let code := if permanent then "permanent_error" else leg.exhaustedCode
    some (.attempt now worker row (leg.failCall code failure.message)
      fun failed => leg.afterFailure claimed failed)
  else if settings.jitterAllowed attempts jitter then
    let delay := settings.backoffDelay attempts jitter
    match (leg.requeueCall.update now).returning row with
    | none => some (.goTo row none)
    | some requeued =>
        some
          { row := requeued
            next := none
            observed :=
              [.backingOff leg now worker delay,
                .returned now worker leg.requeueCall requeued]
            delayed := some delay }
  else none

end Effect

/-! ## Everything a step can do -/

/-- The main leg attaches a result to a succeeded extraction only. -/
def Leg.payload (finalised : Extraction Json) (result : Option Result) :
    Leg → Option Result
  | main => if finalised.status = .succeeded then result else none
  | bbox => result

def completionEnvelope (leg : Leg) (now : Int) (finalised : Extraction Json)
    (result : Option Result) : Interfaces.EventEnvelope Result where
  eventType := leg.completed
  occurredAt := now
  extraction := Projector.rowToExtraction finalised
  result := leg.payload finalised result

section Handled

variable (settings : IDPSettings) (modelDump : Result → Json) (leg : Leg)
  (now : Int) (worker : Worker) (row : Extraction Json)
  (process : Process Json Result)

inductive Handled :
    Action Result → Effect Worker Json Result → Prop
  | quiet {action next requested} :
      (∀ after ∈ next, after.claimed = process.claimed) →
      next.bind Process.owed = none →
      process.owed = none ∨ action.stops = true →
      Handled action { row := row, next := next, requested := requested }
  | claimed {next} :
      process = .loaded →
      ((leg.claimCall settings).update now).returning row = some next →
      Handled .claim
        { row := next
          next := some (.executing next)
          observed := [.returned now worker (leg.claimCall settings) next] }
  | finalised {claimed result wantsBboxRefine next} :
      process = .finalising claimed result wantsBboxRefine →
      ((leg.finaliseCall (modelDump result) wantsBboxRefine).update
        now).returning row = some next →
      Handled .finalise
        { row := next
          next := some (.notifying claimed next result wantsBboxRefine)
          observed :=
            [.returned now worker
              (leg.finaliseCall (modelDump result) wantsBboxRefine) next] }
  | failed {claimed failure code jitter next} :
      process = .recovering claimed failure →
      failure.isPermanent = true ∨
        leg.maxAttempts settings ≤ leg.attempts claimed →
      ((leg.failCall code failure.message).update now).returning row =
        some next →
      Handled (.recover jitter)
        { row := next
          next := leg.afterFailure claimed next
          observed :=
            [.returned now worker (leg.failCall code failure.message) next] }
  | requeued {claimed failure jitter next} :
      process = .recovering claimed failure →
      failure.isPermanent = false →
      (leg.attempts claimed : Int) < leg.maxAttempts settings →
      settings.jitterAllowed (leg.attempts claimed) jitter = true →
      (leg.requeueCall.update now).returning row = some next →
      Handled (.recover jitter)
        { row := next
          next := none
          observed :=
            [.backingOff leg now worker
                (settings.backoffDelay (leg.attempts claimed) jitter),
              .returned now worker leg.requeueCall next]
          delayed :=
            some (settings.backoffDelay (leg.attempts claimed) jitter) }
  | notified {action claimed finalised result next} :
      process.claimed = some claimed →
      process.owed = some (finalised, result) →
      action = .notify ∨ action = .report →
      (∀ after ∈ next, after.claimed = process.claimed) →
      next.bind Process.owed = none →
      Handled action
        (.fireWebhook leg worker row claimed.callbackUrl
          (completionEnvelope leg now finalised result) next)

end Handled

section

variable {settings : IDPSettings} {modelDump : Result → Json} {leg : Leg}
  {now : Int} {worker : Worker} {row : Extraction Json}
  {process : Process Json Result} {action : Action Result}

theorem Handled.ends (h : process.owed = none ∨ action.stops = true) :
    Handled settings modelDump leg now worker row process action
      (.goTo row none) :=
  .quiet (by simp) (by simp) h

theorem Handled.goesTo {next : Process Json Result}
    (howed : process.owed = none) (hclaimed : next.claimed = process.claimed)
    (hnext : next.owed = none) :
    Handled settings modelDump leg now worker row process action
      (.goTo row (some next)) :=
  .quiet (by simp [hclaimed]) (by simpa using hnext) (.inl howed)

theorem Handled.raised {failure : Failure} :
    Handled settings modelDump leg now worker row process (.raise failure)
      (.goTo row (process.claimed.map (.recovering · failure))) := by
  refine .quiet ?_ ?_ (.inr rfl)
  · intro after hafter
    cases hprocess : process.claimed with
    | none => simp [hprocess] at hafter
    | some row =>
        rw [hprocess] at hafter
        cases hafter
        rfl
  · cases process.claimed <;> rfl

theorem Handled.attempt {call : Call Json}
    {won : Extraction Json → Option (Process Json Result)}
    (howed : process.owed = none)
    (hwon : ∀ next, (call.update now).returning row = some next →
      Handled settings modelDump leg now worker row process action
        { row := next
          next := won next
          observed := [.returned now worker call next] }) :
    Handled settings modelDump leg now worker row process action
      (.attempt now worker row call won) := by
  unfold Effect.attempt
  cases hreturn : (call.update now).returning row with
  | none => exact .ends (.inl howed)
  | some next => exact hwon next hreturn

theorem Handled.writes {effect : Effect Worker Json Result}
    (h : Handled settings modelDump leg now worker row process action effect) :
    (effect.row = row ∧
        ∀ observation ∈ effect.observed, observation.call = none) ∨
      ∃ call notes, (call.update now).returning row = some effect.row ∧
        effect.observed = notes ++ [.returned now worker call effect.row] ∧
        ∀ observation ∈ notes, observation.call = none := by
  cases h with
  | quiet => exact .inl ⟨rfl, by simp⟩
  | claimed _ hreturn | finalised _ hreturn | failed _ _ hreturn =>
      exact .inr ⟨_, [], hreturn, rfl, by simp⟩
  | requeued _ _ _ _ hreturn =>
      refine .inr ⟨_, [_], hreturn, rfl, ?_⟩
      simp [Observation.call]
  | notified =>
      refine .inl ⟨rfl, ?_⟩
      simp only [Effect.fireWebhook]
      split <;> simp [Observation.call]

theorem recover_handled {claimed : Extraction Json} {failure : Failure}
    {jitter : Int} {effect : Effect Worker Json Result}
    (h : Effect.recover leg settings now worker row claimed failure jitter =
      some effect) :
    Handled settings modelDump leg now worker row
      (.recovering claimed failure) (.recover jitter) effect := by
  unfold Effect.recover at h
  simp only at h
  split at h
  next hterminal =>
    have hor : failure.isPermanent = true ∨
        leg.maxAttempts settings ≤ leg.attempts claimed := by
      simpa using hterminal
    cases h
    exact .attempt rfl fun failed hreturn => .failed rfl hor hreturn
  next hterminal =>
    have hretry : failure.isPermanent = false ∧
        (leg.attempts claimed : Int) < leg.maxAttempts settings := by
      simpa using hterminal
    split at h
    next hjitter =>
      split at h
      · cases h
        exact .ends (.inl rfl)
      next requeued hreturn =>
        cases h
        exact .requeued rfl hretry.1 hretry.2 hjitter hreturn
    · cases h

end

end Flydocs
