import Flydocs.Workers.Process

/-!
# The bbox refinement worker

`BboxRefineWorker._process`, one await at a time.  It differs from the main
worker in three places: the row is claimed without looking at its status
first, the webhook carries the refined result whatever the main status says,
and a terminal failure is recorded without a webhook.
-/

namespace Flydocs

open ExtractionRepository Projector

variable {Worker Json Result : Type*}

namespace BboxRefineWorker

def fireWebhook (now : Int) (worker : Worker) (row : Extraction Json)
    (extraction : Interfaces.Extraction) (result : Option Result)
    (callbackUrl : Option String) (next : Option (Process Json Result)) :
    Effect Worker Json Result :=
  .fireWebhook .bbox worker row callbackUrl
    { eventType := .extractionPostProcessingCompleted
      occurredAt := now
      extraction := extraction
      result := result }
    next

def recover (settings : IDPSettings) (now : Int) (worker : Worker)
    (row claimed : Extraction Json) (failure : Failure) (jitter : Int) :
    Option (Effect Worker Json Result) :=
  Effect.recover .bbox settings now worker row claimed failure jitter

def process (settings : IDPSettings) (modelDump : Result → Json) (now : Int)
    (worker : Worker) (row : Extraction Json) :
    Process Json Result → Action Result → Option (Effect Worker Json Result)
  | .received, .get => some (.goTo row (some .loaded))
  | .loaded, .claim =>
      some (.attempt now worker row
        (.claimBboxRefinement settings.bboxRefineLeaseS)
        fun claimed => some (.executing claimed))
  | .executing claimed, .execute refined _ =>
      some (.goTo row (some (.finalising claimed refined false)))
  | .finalising claimed refined wantsBboxRefine, .finalise =>
      some (.attempt now worker row
        (.completeBboxRefinement (modelDump refined)) fun finalised =>
          some (.notifying claimed finalised refined wantsBboxRefine))
  | .notifying claimed finalised refined wantsBboxRefine, .notify =>
      some (fireWebhook now worker row (rowToExtraction finalised)
        (some refined) claimed.callbackUrl
        (some (.notified claimed finalised wantsBboxRefine)))
  | .notified _ _ _, .announce => some (.goTo row none)
  | .recovering claimed failure, .recover jitter =>
      recover settings now worker row claimed failure jitter
  | process, .raise failure =>
      if process.insideTry then
        some (.goTo row (process.claimed.map (.recovering · failure)))
      else none
  | _, .crash => some (.goTo row none)
  | _, _ => none

section

variable {settings : IDPSettings} {modelDump : Result → Json} {now : Int}
  {worker : Worker} {row : Extraction Json}

theorem process_handled {process : Process Json Result}
    {action : Action Result} {effect : Effect Worker Json Result}
    (h : BboxRefineWorker.process settings modelDump now worker row process
      action = some effect) :
    Handled settings modelDump .bbox now worker row process action effect := by
  unfold BboxRefineWorker.process at h
  split at h
  · cases h
    exact .goesTo rfl rfl rfl
  · cases h
    exact .attempt rfl fun next hreturn => .claimed rfl hreturn
  · cases h
    exact .goesTo rfl rfl rfl
  · cases h
    exact .attempt rfl fun next hreturn => .finalised rfl hreturn
  · cases h
    exact .notified rfl rfl (.inl rfl) (by simp [Process.claimed])
      (by simp [Process.owed])
  · cases h
    exact .ends (.inl rfl)
  · exact recover_handled h
  · split at h
    · cases h
      exact .raised
    · cases h
  · cases h
    exact .ends (.inr rfl)
  · cases h

end

end BboxRefineWorker

end Flydocs
