import Flydocs.Extraction.Extractor

/-!
# The judge

Verdicts are attached to the extracted fields by name, in place; where a verdict
has items, the cells of the rows get theirs in the same way.
-/

namespace Flydocs

open Foundation Dtos

structure RawJudgeField where
  name : String
  status : JudgeStatus := .uncertain
  confidence : UnitInterval := 0
  evidence : String := ""
  notes : String := ""
  flagForReview : Bool := false
  items : Option (List RawJudgeField) := none

structure RawJudgeGroup where
  name : String
  fields : List RawJudgeField := []

abbrev JudgeOutput := List RawJudgeGroup

def RawJudgeField.outcome (raw : RawJudgeField) : JudgeOutcome where
  status := raw.status
  confidence := raw.confidence
  evidence := some raw.evidence
  notes := some raw.notes
  flagForReview := raw.flagForReview

/-- `dump` is `json.dumps` of the groups, and `answer` what the model says,
validated against the output model. -/
structure Judge (Raised : Type) where
  template : List (String × String) → Except Raised RenderedPrompt
  model : String
  dump : List ExtractedFieldGroup → Except Raised String
  buildAgent : String → String → Except Raised Unit
  answer : AgentCall → Except Raised JudgeOutput

namespace Judge

/-! ## Verdicts -/

mutual

def applyRaw (raw : RawJudgeField) : ExtractedField → ExtractedField
  | ⟨name, value, pages, confidence, bbox, validation, _, notes, source⟩ =>
      ⟨name, applyValue (raw.items.getD []) value, pages, confidence, bbox,
        validation, raw.outcome, notes, source⟩

def applyValue (items : List RawJudgeField) : FieldValue → FieldValue
  | .list rows => .list (applyRows items rows)
  | value => value

def applyRows (items : List RawJudgeField) :
    List ExtractedField → List ExtractedField
  | [] => []
  | row :: rows => applyRow items row :: applyRows items rows

def applyRow (items : List RawJudgeField) : ExtractedField → ExtractedField
  | ⟨name, value, pages, confidence, bbox, validation, judge, notes, source⟩ =>
      ⟨name, applyRowValue items value, pages, confidence, bbox, validation,
        judge, notes, source⟩

def applyRowValue (items : List RawJudgeField) : FieldValue → FieldValue
  | .list cells => .list (applyCells items cells)
  | value => value

def applyCells (items : List RawJudgeField) :
    List ExtractedField → List ExtractedField
  | [] => []
  | cell :: cells =>
      (match lookupLast RawJudgeField.name items cell.name with
        | some raw => applyRaw raw cell
        | none => cell) :: applyCells items cells

end

theorem judge_applyRaw (raw : RawJudgeField) (field : ExtractedField) :
    (applyRaw raw field).judge = raw.outcome := by
  cases field
  rfl

def rawFor (output : JudgeOutput) (group : ExtractedFieldGroup)
    (field : ExtractedField) : Option RawJudgeField :=
  (lookupLast RawJudgeGroup.name output group.name).bind fun answered =>
    lookupLast RawJudgeField.name answered.fields field.name

def applyField (output : JudgeOutput) (group : ExtractedFieldGroup)
    (field : ExtractedField) : ExtractedField :=
  match rawFor output group field with
  | some raw => applyRaw raw field
  | none => field

def applyGroup (output : JudgeOutput) (group : ExtractedFieldGroup) :
    ExtractedFieldGroup :=
  { group with fields := group.fields.map (applyField output group) }

/-! ## The call -/

variable {Raised : Type} (self : Judge Raised)

structure Arguments where
  documentBytes : List UInt8
  mediaType : String
  doc : DocumentTypeSpec
  extractedGroups : List ExtractedFieldGroup
  intention : String
  model : Option String := none

/-- The answer that `judge` attaches to the groups, none if there are none. -/
def ask (arguments : Arguments) : Except Raised (Option JudgeOutput) := do
  if arguments.extractedGroups = [] then return none
  else
    let extractedFieldsJson ← self.dump arguments.extractedGroups
    let prompt ← self.template
      [("intention", arguments.intention),
        ("documentType", arguments.doc.id),
        ("extracted_fields_json", extractedFieldsJson)]
    let model := MultimodalExtractor.modelOr arguments.model self.model
    self.buildAgent model prompt.system
    let output ← self.answer
      { model
        instructions := prompt.system
        content :=
          [.text prompt.user,
            .binary arguments.documentBytes arguments.mediaType]
        op := "judge" }
    return some output

end Judge

end Flydocs
