import Flydocs.Dtos.Extracted
import Flydocs.Foundation.Dictionary

/-!
# The field validator

Binds every extracted field to a declared one by name and attaches the verdict
of its constraints.  The checks of one value are a parameter.
-/

namespace Flydocs

open Foundation Dtos

structure FieldValidator where
  runConstraints : Field → FieldValue → List FieldValidationError

namespace FieldValidator

variable (self : FieldValidator)

/-! ## Lookups -/

def groupFor (specGroups : List FieldGroup) (name : String) :
    Option FieldGroup :=
  lookupLast FieldGroup.name specGroups name

def specFor (group : FieldGroup) (name : String) : Option Field :=
  lookupLast Field.name group.fields name

def subSpecs (spec : Field) : List Field :=
  (spec.items.bind Field.fields).getD []

def subSpecFor (spec : Field) (name : String) : Option Field :=
  lookupLast Field.name (subSpecs spec) name

/-! ## Verdicts -/

/-- Errors of validators with severity `warning` leave the field valid. -/
def hardErrors (errors : List FieldValidationError) :
    List FieldValidationError :=
  errors.filter fun error => !error.message.endsWith "[warning]"

def verdict (spec : Field) (field : ExtractedField) : FieldValidation :=
  let errors := self.runConstraints spec field.value
  { valid := (hardErrors errors).isEmpty, errors }

def validateCell (spec : Field) (cell : ExtractedField) : ExtractedField :=
  match subSpecFor spec cell.name with
  | some subSpec => { cell with validation := self.verdict subSpec cell }
  | none => cell

def cellValid (spec : Field) (cell : ExtractedField) : Bool :=
  match subSpecFor spec cell.name with
  | some subSpec => (self.verdict subSpec cell).valid
  | none => true

def validateRow (spec : Field) (row : ExtractedField) : ExtractedField :=
  match row.value with
  | .list cells => { row with value := .list (cells.map (self.validateCell spec)) }
  | _ => row

def rowValid (spec : Field) (row : ExtractedField) : Bool :=
  match row.value with
  | .list cells => cells.all (self.cellValid spec)
  | _ => true

def validateArray (spec : Field) (field : ExtractedField) : ExtractedField :=
  match field.value with
  | .list rows =>
      { field with
        value := .list (rows.map (self.validateRow spec))
        validation := { valid := rows.all (self.rowValid spec) } }
  | _ => { field with validation := {} }

def validateField (spec : Field) (field : ExtractedField) : ExtractedField :=
  if spec.type = .array then self.validateArray spec field
  else { field with validation := self.verdict spec field }

def validateGroup (specGroup : FieldGroup) (group : ExtractedFieldGroup) :
    ExtractedFieldGroup :=
  { group with
    fields := group.fields.map fun field =>
      match specFor specGroup field.name with
      | some spec => self.validateField spec field
      | none => field }

def validate (specGroups : List FieldGroup)
    (extractedGroups : List ExtractedFieldGroup) : List ExtractedFieldGroup :=
  if specGroups = [] ∨ extractedGroups = [] then extractedGroups
  else
    extractedGroups.map fun group =>
      match groupFor specGroups group.name with
      | some specGroup => self.validateGroup specGroup group
      | none => group

end FieldValidator

end Flydocs
