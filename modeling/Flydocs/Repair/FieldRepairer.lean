import Flydocs.Dtos.Request
import Flydocs.Escalation.Judge
import Flydocs.Pipeline.Context

/-!
# The field repairer

The fields that failed verification are extracted once more, task by task, with
the evidence against them; a candidate replaces its field when it comes back
clean.  `validate` is the field validator, which may raise.
-/

namespace Flydocs

open Foundation Dtos

structure FailingField where
  group : String
  field : String
  value : FieldValue
  evidence : String
  pages : List Int := []

def FailingField.key (failure : FailingField) : String × String :=
  (failure.group, failure.field)

structure RepairTask where
  taskId : String
  docSpec : DocumentTypeSpec
  sliceBytes : List UInt8
  slicePages : Int
  mediaType : String
  extractedGroups : List ExtractedFieldGroup

structure FieldRepairer (Raised : Type) where
  extractor : MultimodalExtractor Raised
  repairTemplate :
    Option (List (String × String) → Except Raised RenderedPrompt) := none
  judge : Judge Raised
  validate : List FieldGroup → List ExtractedFieldGroup →
    Except Raised (List ExtractedFieldGroup)
  reprValue : FieldValue → Except Raised String
  pdf : PdfLibrary
  defaultModel : Option String
  includeFlagged : Bool := true
  maxFailingFraction : Rat := 1 / 2

namespace FieldRepairer

/-! ## Pages -/

mutual

def pagesOf : ExtractedField → List Int
  | ⟨_, value, pages, _, _, _, _, _, _⟩ => pages ++ pagesOfValue value

def pagesOfValue : FieldValue → List Int
  | .list items => pagesOfAll items
  | _ => []

def pagesOfAll : List ExtractedField → List Int
  | [] => []
  | item :: items => pagesOf item ++ pagesOfAll items

end

def fieldPages (field : ExtractedField) : List Int :=
  Postprocess.sorted (pagesOf field)

mutual

def shiftPages (offset : Int) : ExtractedField → ExtractedField
  | ⟨name, value, pages, confidence, bbox, validation, judge, notes, source⟩ =>
      ⟨name, shiftValue offset value, pages.map (· + offset), confidence, bbox,
        validation, judge, notes, source⟩

def shiftValue (offset : Int) : FieldValue → FieldValue
  | .list items => .list (shiftAll offset items)
  | value => value

def shiftAll (offset : Int) : List ExtractedField → List ExtractedField
  | [] => []
  | item :: items => shiftPages offset item :: shiftAll offset items

end

/-! ## Failures -/

/-- The first text that is not empty. -/
def orText (first second : Option String) (default : String) : String :=
  match first with
  | some text => if text = "" then orSecond else text
  | none => orSecond
where
  orSecond : String :=
    match second with
    | some text => if text = "" then default else text
    | none => default

def judgeReasons (includeFlagged : Bool) (field : ExtractedField) :
    List String :=
  if field.judge.status = .fail ∨ (includeFlagged ∧ field.judge.flagForReview)
  then [orText field.judge.evidence field.judge.notes "judge rejected the value"]
  else []

def rowErrorMessages (rows : List ExtractedField) : List String :=
  rows.flatMap fun row => row.items.flatMap fun subField =>
    subField.validation.errors.map fun error =>
      subField.name ++ ": " ++ error.message

def validationReasons (field : ExtractedField) : List String :=
  if field.validation.valid then []
  else
    let messages :=
      match field.validation.errors.map FieldValidationError.message with
      | [] => rowErrorMessages field.items
      | messages => messages
    if messages = [] then ["failed validation"] else messages

def reasons (includeFlagged : Bool) (field : ExtractedField) : List String :=
  judgeReasons includeFlagged field ++ validationReasons field

def failureOf (includeFlagged : Bool) (group : String)
    (field : ExtractedField) : Option FailingField :=
  if reasons includeFlagged field = [] then none
  else some {
    group
    field := field.name
    value := field.value
    evidence := "; ".intercalate (reasons includeFlagged field)
    pages := fieldPages field }

def collectFailingFields (includeFlagged : Bool)
    (groups : List ExtractedFieldGroup) : List FailingField :=
  groups.flatMap fun group =>
    group.fields.filterMap (failureOf includeFlagged group.name)

/-! ## What a repair is asked -/

def subsetSpec (doc : DocumentTypeSpec) (failingKeys : List (String × String)) :
    DocumentTypeSpec :=
  { doc with
    fieldGroups := doc.fieldGroups.filterMap fun group =>
      let fields := group.fields.filter fun field =>
        (group.name, field.name) ∈ failingKeys
      if fields.isEmpty then none else some { group with fields } }

variable {Raised : Type} (self : FieldRepairer Raised)

def valueText : FieldValue → Except Raised String
  | .list rows =>
      .ok ("<array with " ++ toString rows.length ++ " row(s)>")
  | value => self.reprValue value

def failuresText (failures : List FailingField) : Except Raised String := do
  let lines ← failures.mapM fun failure => do
    let value ← self.valueText failure.value
    return "- ``" ++ failure.group ++ "." ++ failure.field ++
      "``: previous value " ++ value ++ " -- rejected because: " ++
      failure.evidence
  return "\n".intercalate lines

/-- Bytes, page count and page offset for the focused pass. -/
def repairSlice (task : RepairTask) (failures : List FailingField) :
    List UInt8 × Int × Int :=
  let full := (task.sliceBytes, task.slicePages, 0)
  if task.mediaType ≠ "application/pdf" then full
  else if failures.isEmpty || failures.any (·.pages.isEmpty) then full
  else
    let pages := Postprocess.sorted (failures.flatMap FailingField.pages)
    let start := max 1 (pages.headD 0 - 1)
    let finish := min task.slicePages (pages.getLastD 0 + 1)
    if task.slicePages ≤ finish - start + 1 then full
    else
      match slicePdf self.pdf task.sliceBytes start finish with
      | .ok sliced => (sliced, finish - start + 1, start - 1)
      | .error _ => full

def repairText (arguments : ExtractArguments) (prompt : RenderedPrompt) :
    String :=
  let text := self.extractor.retryText arguments prompt
  match arguments.languageHint with
  | none | some "" => text
  | some hint => text ++ "\n\nDocument language hint: " ++ hint

def extractRepair (arguments : ExtractArguments) (pageCount : Int)
    (failingFieldsText : String) : Except Raised (List ExtractedFieldGroup) :=
  match self.repairTemplate with
  | none => return []
  | some template => do
      let prompt ← template
        [("failing_fields_text", failingFieldsText),
          ("page_count", toString pageCount)]
      let modelId := self.extractor.modelId arguments
      self.extractor.buildAgent modelId prompt.system
      self.extractor.run arguments modelId prompt.system
        (self.repairText arguments prompt) "extract.repair"

/-- The candidates, extracted, validated and judged. -/
def repairedGroups (request : Dtos.ExtractionRequest) (model : Option String)
    (task : RepairTask) (failures : List FailingField) :
    Except Raised (List ExtractedFieldGroup) := do
  let subset := subsetSpec task.docSpec (failures.map FailingField.key)
  let (docBytes, pageCount, _) := self.repairSlice task failures
  let text ← self.failuresText failures
  let groups ← self.extractRepair {
    documentBytes := docBytes
    mediaType := task.mediaType
    pageCount := pageCount.toNat
    doc := subset
    intention := request.intention
    languageHint := request.options.languageHint
    model } pageCount text
  if groups.isEmpty then return []
  else
    let groups ← self.validate subset.fieldGroups groups
    if request.options.stages.judge then
      let answer ← self.judge.ask {
        documentBytes := docBytes
        mediaType := task.mediaType
        doc := subset
        extractedGroups := groups
        intention := request.intention
        model }
      return match answer with
        | some output => groups.map (Judge.applyGroup output)
        | none => groups
    else return groups

/-! ## What a repair replaces -/

def isClean (requireJudgePass : Bool) (field : ExtractedField) : Bool :=
  match field.value with
  | .null => false
  | _ =>
      field.validation.valid &&
        (if requireJudgePass then decide (field.judge.status = .pass)
          else decide (field.judge.status ≠ .fail)) &&
        !field.judge.flagForReview

def candidateFor (groups : List ExtractedFieldGroup) (key : String × String) :
    Option ExtractedField :=
  (lookupLast Prod.fst
    (groups.flatMap fun group => group.fields.map fun field =>
      ((group.name, field.name), field)) key).map Prod.snd

def keysOf (groups : List ExtractedFieldGroup) : List (String × String) :=
  groups.flatMap fun group => group.fields.map fun field =>
    (group.name, field.name)

/-- Fields of one key share the candidate, which is shifted for each of them. -/
def replacement (requireJudgePass : Bool) (failingKeys : List (String × String))
    (repaired groups : List ExtractedFieldGroup) (offset : Int)
    (key : String × String) : Option ExtractedField :=
  if key ∈ failingKeys then
    match candidateFor repaired key with
    | some candidate =>
        if isClean requireJudgePass candidate then
          some (shiftPages (offset * (keysOf groups).count key) candidate)
        else none
    | none => none
  else none

def asNumber : FieldValue → Option Rat
  | .bool flag => some (if flag then 1 else 0)
  | .int number => some number
  | .float number => some number
  | _ => none

mutual

/-- Equality of row signatures: names and values, at every depth. -/
def sameSignature : ExtractedField → ExtractedField → Bool
  | ⟨name, value, _, _, _, _, _, _, _⟩, other =>
      name = other.name && sameValue value other.value

def sameValue : FieldValue → FieldValue → Bool
  | .list items, .list others => sameAll items others
  | .null, .null => true
  | .str text, .str other => text = other
  | value, other =>
      match asNumber value, asNumber other with
      | some number, some otherNumber => number = otherNumber
      | _, _ => false

def sameAll : List ExtractedField → List ExtractedField → Bool
  | [], [] => true
  | item :: items, other :: others =>
      sameSignature item other && sameAll items others
  | _, _ => false

end

def changedRowCount (oldRows newRows : List ExtractedField) : Int :=
  (oldRows.zip newRows).countP (fun (old, new) => !sameSignature old new) +
    |(oldRows.length : Int) - newRows.length|

def isList (field : ExtractedField) : Bool :=
  match field.value with
  | .list _ => true
  | _ => false

def path (key : String × String) : String := key.1 ++ "." ++ key.2

structure Spliced where
  groups : List ExtractedFieldGroup
  accepted : List String
  rowsChanged : List (String × Int)

def decisions (replace : String × String → Option ExtractedField)
    (groups : List ExtractedFieldGroup) :
    List ((String × String) × ExtractedField × Option ExtractedField) :=
  groups.flatMap fun group => group.fields.map fun field =>
    ((group.name, field.name), field, replace (group.name, field.name))

def splice (replace : String × String → Option ExtractedField)
    (groups : List ExtractedFieldGroup) : Spliced where
  groups := groups.map fun group =>
    { group with
      fields := group.fields.map fun field =>
        (replace (group.name, field.name)).getD field }
  accepted := (decisions replace groups).filterMap fun (key, _, new) =>
    new.map fun _ => path key
  rowsChanged := (decisions replace groups).foldl
    (fun counts (key, old, new) =>
      match new with
      | some new =>
          let changed := changedRowCount old.items new.items
          if isList old && isList new && changed ≠ 0 then
            assign (path key) changed counts
          else counts
      | none => counts) []

/-! ## The run -/

/-- Whether so many fields fail that a repair is left to the escalation. -/
def isSkipped (task : RepairTask) (failures : List FailingField) : Bool :=
  let total := (task.extractedGroups.map fun group => group.fields.length).sum
  total ≠ 0 &&
    decide (self.maxFailingFraction < (failures.length / total : Rat))

structure TaskOutcome where
  groups : List ExtractedFieldGroup
  flagged : Nat := 0
  skipped : Nat := 0
  accepted : List String := []
  rowsChanged : List (String × Int) := []

def repairTask (request : Dtos.ExtractionRequest) (model : Option String)
    (task : RepairTask) : TaskOutcome :=
  let failures := collectFailingFields self.includeFlagged task.extractedGroups
  if failures.isEmpty then { groups := task.extractedGroups }
  else if self.isSkipped task failures then
    { groups := task.extractedGroups
      flagged := failures.length
      skipped := 1 }
  else
    match self.repairedGroups request model task failures with
    | .error _ =>
        { groups := task.extractedGroups, flagged := failures.length }
    | .ok repaired =>
        let (_, _, offset) := self.repairSlice task failures
        let spliced := splice
          (replacement request.options.stages.judge
            (failures.map FailingField.key) repaired task.extractedGroups offset)
          task.extractedGroups
        { groups := spliced.groups
          flagged := failures.length
          accepted := spliced.accepted
          rowsChanged := spliced.rowsChanged }

def repairModel (modelId : Option String) : Option String :=
  match self.defaultModel with
  | none | some "" => modelId
  | some model => some model

/-- The tasks in the order in which they finish. -/
def maybeRepair (request : Dtos.ExtractionRequest) (modelId : Option String)
    (tasks : List RepairTask) : List RepairTask × Option Interfaces.RepairInfo :=
  let model := self.repairModel modelId
  let outcomes := tasks.map (self.repairTask request model)
  let repaired := outcomes.flatMap TaskOutcome.accepted
  let flagged := (outcomes.map TaskOutcome.flagged).sum
  (tasks.zipWith (fun task outcome =>
      { task with extractedGroups := outcome.groups }) outcomes,
    if flagged = 0 then none
    else some {
      triggered := true
      model
      fieldsFlagged := flagged
      fieldsRepaired := repaired.length
      repairedFields := repaired.mergeSort fun first second =>
        decide (first ≤ second)
      tasksSkipped := (outcomes.map TaskOutcome.skipped).sum
      rowsChanged := (outcomes.flatMap TaskOutcome.rowsChanged).foldl
        (fun counts (path, changed) => assign path changed counts) [] })

/-- Its model always gives the one answer, and the pages of its documents are
single bytes. -/
def answering (answer : JsonValue) : FieldRepairer String where
  extractor := {
    template _ := .ok ⟨"", ""⟩
    model := "primary"
    anchor _ _ := none
    schemaPayload _ := ""
    buildAgent _ _ := .ok ()
    answer _ _ := .ok answer
    runtime := .ofJson
    ofPyError _ := "invalid" }
  repairTemplate := some fun _ => .ok ⟨"", ""⟩
  judge := {
    template _ := .ok ⟨"", ""⟩
    model := "primary"
    dump _ := .ok ""
    buildAgent _ _ := .ok ()
    answer _ := .ok [] }
  validate _ groups := .ok groups
  reprValue _ := .ok ""
  pdf := { Page := UInt8, readPages := .ok, writePages := .ok }
  defaultModel := none

def emptyHanded : FieldRepairer String := answering (.obj [])

end FieldRepairer

end Flydocs
