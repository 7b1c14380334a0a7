import Flydocs.Workers.Process

/-!
# The extraction worker

`ExtractionWorker._process`, one await at a time.  Reconstructing the request
and running the pipeline are the one step `execute`, whose outcome is a result
and whether the caller asked for bbox refinement; either may raise instead.
`modelDump` is the serialisation of a result for the row.
-/

namespace Flydocs

open ExtractionRepository Projector

variable {Worker Json Result : Type*}

namespace ExtractionWorker

/-- `_fire_webhook`: the result travels only with a succeeded extraction. -/
def fireWebhook (now : Int) (worker : Worker) (row : Extraction Json)
    (extraction : Interfaces.Extraction) (result : Option Result)
    (callbackUrl : Option String) (next : Option (Process Json Result)) :
    Effect Worker Json Result :=
  .fireWebhook .main worker row callbackUrl
    { eventType := .extractionCompleted
      occurredAt := now
      extraction := extraction
      result := if extraction.status = .succeeded then result else none }
    next

def recover (settings : IDPSettings) (now : Int) (worker : Worker)
    (row claimed : Extraction Json) (failure : Failure) (jitter : Int) :
    Option (Effect Worker Json Result) :=
  Effect.recover .main settings now worker row claimed failure jitter

def process (settings : IDPSettings) (modelDump : Result → Json) (now : Int)
    (worker : Worker) (row : Extraction Json) :
    Process Json Result → Action Result → Option (Effect Worker Json Result)
  | .received, .get =>
      some (.goTo row (if row.status.isTerminal then none else some .loaded))
  | .loaded, .claim =>
      some (.attempt now worker row (.markRunning settings.jobRunLeaseS)
        fun claimed => some (.executing claimed))
  | .executing claimed, .execute result wantsBboxRefine =>
      some (.goTo row (some (.finalising claimed result wantsBboxRefine)))
  | .finalising claimed result wantsBboxRefine, .finalise =>
      some (.attempt now worker row
        (.markSucceeded (modelDump result) wantsBboxRefine) fun finalised =>
          some (.notifying claimed finalised result wantsBboxRefine))
  | .notifying claimed finalised result wantsBboxRefine, .notify =>
      some (fireWebhook now worker row (rowToExtraction finalised)
        (some result) claimed.callbackUrl
        (some (.notified claimed finalised wantsBboxRefine)))
  | .notified _ _ wantsBboxRefine, .announce =>
      some { row := row, next := none, requested := wantsBboxRefine }
  | .recovering claimed failure, .recover jitter =>
      recover settings now worker row claimed failure jitter
  | .reporting claimed failed, .report =>
      some (fireWebhook now worker row (rowToExtraction failed) none
        claimed.callbackUrl none)
  | process, .raise failure =>
      if process.insideTry then
        some (.goTo row (process.claimed.map (.recovering · failure)))
      else none
  | _, .crash => some (.goTo row none)
  | _, _ => none

section

variable {settings : IDPSettings} {modelDump : Result → Json} {now : Int}
  {worker : Worker} {row : Extraction Json}

theorem process_handled {process : Process Json Result}
    {action : Action Result} {effect : Effect Worker Json Result}
    (h : ExtractionWorker.process settings modelDump now worker row process
      action = some effect) :
    Handled settings modelDump .main now worker row process action effect := by
  unfold ExtractionWorker.process at h
  split at h
  · cases h
    split
    · exact .ends (.inl rfl)
    · exact .goesTo rfl rfl rfl
  · cases h
    exact .attempt rfl fun next hreturn => .claimed rfl hreturn
  · cases h
    exact .goesTo rfl rfl rfl
  · cases h
    exact .attempt rfl fun next hreturn => .finalised rfl hreturn
  · cases h
    exact .notified rfl rfl (.inl rfl) (by simp [Process.claimed])
      (by simp [Process.owed])
  · cases h
    exact .quiet (by simp) (by simp) (.inl rfl)
  · exact recover_handled h
  · cases h
    exact .notified rfl rfl (.inr rfl) (by simp) (by simp)
  · split at h
    · cases h
      exact .raised
    · cases h
  · cases h
    exact .ends (.inr rfl)
  · cases h

end

end ExtractionWorker

end Flydocs
