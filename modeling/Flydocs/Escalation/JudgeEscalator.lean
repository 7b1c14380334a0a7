import Flydocs.Dtos.Request
import Flydocs.Escalation.Judge
import Flydocs.Foundation.ObjectStore

/-!
# The judge escalation

Extraction and judge run once more with a stronger model, task by task, and the
second result is kept if it has fewer bad verdicts.  Groups are objects: where a
second extraction fails, the candidate refers to those of the task itself, and
the second judge writes into them.
-/

namespace Flydocs

open Foundation Dtos

/-- A task as the escalation sees it; its groups are references. -/
structure EscalationTask where
  taskId : String
  sliceBytes : List UInt8
  mediaType : String
  slicePages : Nat
  docSpec : DocumentTypeSpec
  extractedGroups : List Nat
  modelUsed : Option String := none

structure JudgeEscalator (Raised : Type) where
  extractor : MultimodalExtractor Raised
  judge : Judge Raised
  defaultThreshold : Rat
  defaultModel : Option String

namespace JudgeEscalator

/-! ## Counting -/

def isFailing (outcome : JudgeOutcome) : Bool :=
  outcome.status = .fail || outcome.flagForReview

def fieldsOf (groups : List ExtractedFieldGroup) : List ExtractedField :=
  groups.flatMap ExtractedFieldGroup.fields

/-- The fields with a bad verdict and all fields: the status of a verdict is
never empty, so no field is passed over. -/
def countFailures (perDocExtracted : List (List ExtractedFieldGroup)) :
    Nat × Nat :=
  let fields := perDocExtracted.flatMap fieldsOf
  (fields.countP fun field => isFailing field.judge, fields.length)

variable {Raised : Type} (self : JudgeEscalator Raised)
  (request : Dtos.ExtractionRequest)

/-! ## When it fires -/

def resolveThreshold : Rat :=
  let threshold :=
    match request.options.escalation with
    | some config => config.threshold
    | none => self.defaultThreshold
  max 0 (min 1 threshold)

def resolveModel : Option String :=
  match request.options.escalation with
  | some config => if config.model = "" then self.defaultModel else some config.model
  | none => self.defaultModel

def escalationModel (primaryModel : String) (primaryFail total : Nat) :
    Option String :=
  if self.resolveThreshold request ≤ 0 then none
  else
    match self.resolveModel request with
    | none | some "" => none
    | some model =>
        if model = primaryModel then none
        else if total = 0 then none
        else if (primaryFail / total : Rat) < self.resolveThreshold request then
          none
        else some model

/-! ## The second run -/

inductive ReExtraction where
  | skipped
  | extracted (groups : List ExtractedFieldGroup)
  | failed

def reExtract (model : String) (task : EscalationTask) : ReExtraction :=
  if task.sliceBytes = [] then .skipped
  else
    match self.extractor.extract {
      documentBytes := task.sliceBytes
      mediaType := task.mediaType
      pageCount := task.slicePages
      doc := task.docSpec
      intention := request.intention
      languageHint := request.options.languageHint
      model := some model } with
    | .ok (groups, _) => .extracted groups
    | .error _ => .failed

/-- A failed extraction copies the list of references, not the groups. -/
def candidate (model : String) (task : EscalationTask)
    (store : List ExtractedFieldGroup) :
    List Nat × List ExtractedFieldGroup :=
  match self.reExtract request model task with
  | .skipped => ([], store)
  | .extracted groups =>
      (ObjectStore.newReferences store groups, store ++ groups)
  | .failed => (task.extractedGroups, store)

def reExtractAll (model : String) :
    List EscalationTask → List ExtractedFieldGroup →
      List (List Nat) × List ExtractedFieldGroup
  | [], store => ([], store)
  | task :: tasks, store =>
      let (references, store) := self.candidate request model task store
      let (perDoc, store) := reExtractAll model tasks store
      (references :: perDoc, store)

/-- What the second judge attaches to groups of the task; a failure is logged. -/
def verdicts (model : String) (task : EscalationTask)
    (groups : List ExtractedFieldGroup) : Option JudgeOutput :=
  match self.judge.ask {
    documentBytes := task.sliceBytes
    mediaType := task.mediaType
    doc := task.docSpec
    extractedGroups := groups
    intention := request.intention
    model := some model } with
  | .ok output => output
  | .error _ => none

def reJudge (model : String) (store : List ExtractedFieldGroup)
    (entry : EscalationTask × List Nat) : List ExtractedFieldGroup :=
  match self.verdicts request model entry.1
    (ObjectStore.read store entry.2) with
  | some output =>
      ObjectStore.update (Judge.applyGroup output) entry.2 store
  | none => store

def reJudgeAll (model : String) (entries : List (EscalationTask × List Nat))
    (store : List ExtractedFieldGroup) : List ExtractedFieldGroup :=
  entries.foldl (self.reJudge request model) store

/-! ## The outcome -/

def escalationInfo (primaryModel model : String)
    (primaryFail newFail total : Nat) :
    Except PyError Interfaces.EscalationInfo :=
  let primaryRate : Rat := primaryFail / total
  let newRate : Rat := newFail / total
  if (0 ≤ primaryRate ∧ primaryRate ≤ 1) ∧ 0 ≤ newRate ∧ newRate ≤ 1 then
    .ok {
      triggered := true
      primaryModel := some primaryModel
      escalationModel := some model
      primaryFailRate := primaryRate
      escalationFailRate := newRate
      accepted := decide (newFail < primaryFail) }
  else .error .validationError

structure Escalated where
  info : Interfaces.EscalationInfo
  perDocExtracted : List (List Nat)

def readAll (store : List ExtractedFieldGroup) (perDoc : List (List Nat)) :
    List (List ExtractedFieldGroup) :=
  perDoc.map (ObjectStore.read store)

/-- The objects change even where the escalator raises. -/
def maybeEscalate (primaryModel : String) (tasks : List EscalationTask)
    (store : List ExtractedFieldGroup) :
    List ExtractedFieldGroup × Except PyError (Option Escalated) :=
  let (primaryFail, total) :=
    countFailures (readAll store (tasks.map EscalationTask.extractedGroups))
  match self.escalationModel request primaryModel primaryFail total with
  | none => (store, .ok none)
  | some model =>
      let (perDoc, store) := self.reExtractAll request model tasks store
      let store := self.reJudgeAll request model (tasks.zip perDoc) store
      let (newFail, _) := countFailures (readAll store perDoc)
      (store,
        (escalationInfo primaryModel model primaryFail newFail total).map
          fun info => some { info, perDocExtracted := perDoc })

end JudgeEscalator

/-! ## The step -/

/-- `validateField` grades the boxes of a field and of what it contains. -/
structure JudgeEscalationStep (Raised : Type) where
  escalator : JudgeEscalator Raised
  validateField : ExtractedField → ExtractedField

namespace JudgeEscalationStep

variable {Raised : Type} (self : JudgeEscalationStep Raised)

structure Outcome where
  store : List ExtractedFieldGroup
  tasks : List EscalationTask
  info : Option Interfaces.EscalationInfo := none
  raised : Option PyError := none

def validateGroup (group : ExtractedFieldGroup) : ExtractedFieldGroup :=
  { group with fields := group.fields.map self.validateField }

def validateGroups (tasks : List EscalationTask)
    (store : List ExtractedFieldGroup) : List ExtractedFieldGroup :=
  tasks.foldl (fun store task =>
    ObjectStore.update self.validateGroup task.extractedGroups store) store

def stepJudgeEscalation (request : Dtos.ExtractionRequest) (primaryModel : String)
    (tasks : List EscalationTask) (store : List ExtractedFieldGroup) : Outcome :=
  match self.escalator.maybeEscalate request primaryModel tasks store with
  | (store, .error raised) => { store, tasks, raised := some raised }
  | (store, .ok none) => { store, tasks }
  | (store, .ok (some escalated)) =>
      if escalated.info.accepted then
        let tasks := tasks.zipWith (fun task references =>
          { task with
            extractedGroups := references
            modelUsed := escalated.info.escalationModel })
          escalated.perDocExtracted
        { store := self.validateGroups tasks store
          tasks
          info := some escalated.info }
      else { store, tasks, info := some escalated.info }

end JudgeEscalationStep

end Flydocs
