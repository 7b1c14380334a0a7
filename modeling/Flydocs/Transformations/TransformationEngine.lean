import Flydocs.Transformations.LlmTransformer

/-!
# The transformation engine

The dispatch of one transformation, its two scopes, and the step of the pipeline
that walks the declared transformations.  An entry carries what the model
answers each of its calls: one for each task, or one for the request.
-/

namespace Flydocs

open Foundation Dtos Transformations

structure TransformTask where
  filename : Option String := none
  groups : List ExtractedFieldGroup

structure TransformEntry (Raised : Type) where
  spec : Transformation
  answer : Option Nat → LlmTransformer.Answer Raised

structure TransformState where
  tasks : List TransformTask
  outputs : List ExtractedFieldGroup := []
  applied : Nat := 0

structure TransformationEngine (Raised : Type) where
  text : TextRuntime
  llm : LlmTransformer Raised

namespace TransformationEngine

/-! ## Consolidation -/

/-- A row, labelled with its document unless that has no name. -/
def labelled (label : Option String) (row : ExtractedField) : ExtractedField :=
  match label with
  | none | some "" => row
  | some label => { row with source := some label }

def targetArrays (target : String) (groups : List ExtractedFieldGroup) :
    List ExtractedField :=
  ((groups.filter (·.name = target)).flatMap ExtractedFieldGroup.fields).filter
    isList

def consolidatedRows (target : String) (tasks : List TransformTask) :
    List ExtractedField :=
  tasks.flatMap fun task =>
    (targetArrays target task.groups).flatMap fun field =>
      (rowsOf field).map (labelled task.filename)

def arrayFieldName (target : String) (tasks : List TransformTask) : String :=
  let names := tasks.flatMap fun task =>
    (targetArrays target task.groups).map ExtractedField.name
  (names.find? (· ≠ "")).getD "rows"

def consolidateGroups (tasks : List TransformTask) (target : String) :
    Option ExtractedFieldGroup :=
  if consolidatedRows target tasks = [] then none
  else some {
    name := target
    fields :=
      [{ name := arrayFieldName target tasks
         value := .list (consolidatedRows target tasks) }] }

/-! ## Scopes -/

variable {Raised : Type} (self : TransformationEngine Raised)

def dispatch (spec : Transformation) (answer : LlmTransformer.Answer Raised)
    (outputGroup : Option String) (groups : List ExtractedFieldGroup) :
    Except Raised (List ExtractedFieldGroup × Option ExtractedFieldGroup) :=
  match spec with
  | .entityResolution spec =>
      EntityResolution.apply self.text spec outputGroup groups
  | .llm spec => self.llm.apply self.text spec answer outputGroup groups

/-- A failure is logged, and the groups of the task stay. -/
def applyToTask (entry : TransformEntry Raised) (index : Nat)
    (groups : List ExtractedFieldGroup) :
    List ExtractedFieldGroup × Option ExtractedFieldGroup :=
  match self.dispatch entry.spec (entry.answer (some index))
      entry.spec.base.outputGroup groups with
  | .ok result => result
  | .error _ => (groups, none)

/-- The output group of a request-scope transformation is the target if none
is named. -/
def requestOutputGroup (spec : Transformation) : Option String :=
  match spec.base.outputGroup with
  | none => some spec.base.targetGroup
  | some output => some output

def applyRequestScope (entry : TransformEntry Raised)
    (tasks : List TransformTask) :
    Except Raised (Option ExtractedFieldGroup) :=
  match consolidateGroups tasks entry.spec.base.targetGroup with
  | none => .ok none
  | some consolidated => do
      let (working, result) ← self.dispatch entry.spec (entry.answer none)
        (requestOutputGroup entry.spec) [consolidated]
      return if 1 < working.length then working.getLast? else result

/-! ## The step -/

def contributing (tasks : List TransformTask) : List TransformTask :=
  tasks.filter fun task => !task.groups.isEmpty

def taskResult (entry : TransformEntry Raised) (task : TransformTask)
    (index : Nat) :
    List ExtractedFieldGroup × Option ExtractedFieldGroup :=
  if task.groups = [] then (task.groups, none)
  else self.applyToTask entry index task.groups

def stepOne (entry : TransformEntry Raised) (state : TransformState) :
    Except Raised TransformState :=
  match entry.spec.base.scope with
  | .request => do
      let produced ←
        self.applyRequestScope entry (contributing state.tasks)
      return { state with
        outputs := state.outputs ++ produced.toList
        applied := state.applied + produced.toList.length }
  | .task =>
      let results := state.tasks.zipIdx.map fun (task, index) =>
        (task, self.taskResult entry task index)
      .ok { state with
        tasks := results.map fun (task, result) =>
          { task with groups := result.1 }
        applied := state.applied +
          (results.filter fun (_, result) => result.2.isSome).length }

def stepTransform (entries : List (TransformEntry Raised))
    (state : TransformState) : Except Raised TransformState :=
  entries.foldlM (fun state entry => self.stepOne entry state) state

end TransformationEngine

end Flydocs
