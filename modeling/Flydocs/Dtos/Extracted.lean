import Mathlib.Algebra.Order.Ring.Rat
import Flydocs.Dtos.Field

/-!
# Extracted fields

The response side of a schema: what is attached to each value that the service
extracts.  The bounds that the model classes check are fields of the structures.
-/

namespace Flydocs

open Foundation

namespace Dtos

inductive ValidationRule where
  | type
  | pattern
  | format
  | enum
  | minimum
  | maximum
  | validator
  deriving DecidableEq, Repr

inductive JudgeStatus where
  | pass
  | fail
  | uncertain
  deriving DecidableEq, Repr

inductive BboxQuality where
  | good
  | poor
  | suspicious
  | invalid
  deriving DecidableEq, Repr

inductive BboxSource where
  | llm
  | pdfText
  | ocr
  deriving DecidableEq, Repr

def UnitInterval := { value : Rat // 0 ≤ value ∧ value ≤ 1 }
  deriving DecidableEq

namespace UnitInterval

instance : Zero UnitInterval := ⟨0, by decide⟩

def clamp (value : Rat) : UnitInterval :=
  ⟨max 0 (min 1 value), le_max_left _ _, by simp⟩

@[simp] theorem clamp_zero : clamp 0 = 0 := by decide

end UnitInterval

structure BoundingBox where
  xmin : UnitInterval
  ymin : UnitInterval
  xmax : UnitInterval
  ymax : UnitInterval
  quality : Option BboxQuality := none
  qualityScore : UnitInterval := 0
  source : Option BboxSource := none
  refinementConfidence : Option UnitInterval := none
  corners : xmin.val < xmax.val ∧ ymin.val < ymax.val

structure FieldValidationError where
  rule : ValidationRule
  message : String
  deriving DecidableEq, Repr

structure FieldValidation where
  valid : Bool := true
  errors : List FieldValidationError := []
  deriving DecidableEq, Repr

structure JudgeOutcome where
  status : JudgeStatus := .uncertain
  confidence : UnitInterval := 0
  evidence : Option String := none
  notes : Option String := none
  flagForReview : Bool := false
  deriving DecidableEq

mutual

inductive FieldValue where
  | null
  | str (text : String)
  | int (number : Int)
  | float (number : Rat)
  | bool (flag : Bool)
  | list (items : List ExtractedField)

structure ExtractedField where
  name : String
  value : FieldValue
  pages : List Int := []
  confidence : UnitInterval := 0
  bbox : Option BoundingBox := none
  validation : FieldValidation := {}
  judge : JudgeOutcome := {}
  notes : Option String := none
  source : Option String := none

end

/-- The rows of an array, the cells of a row or the members of an object. -/
def ExtractedField.items (field : ExtractedField) : List ExtractedField :=
  match field.value with
  | .list items => items
  | _ => []

structure ExtractedFieldGroup where
  name : String
  fields : List ExtractedField

end Dtos

end Flydocs
