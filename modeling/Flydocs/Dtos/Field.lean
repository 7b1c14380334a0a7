import Flydocs.Foundation.JsonValue
import Flydocs.Interfaces.Extract

/-!
# Request schemas

The schema a caller submits: recursive fields, the groups that bundle them and
the document types that declare the groups.  `Field.WellFormed` is what the
constraints and the validator of the model class reject the complement of.
-/

namespace Flydocs

open Foundation

namespace Dtos

inductive FieldType where
  | string
  | number
  | integer
  | boolean
  | array
  | object
  deriving DecidableEq, Repr

inductive StandardFormat where
  | date
  | dateTime
  | time
  | email
  | uri
  | uuid
  | currency
  deriving DecidableEq, Repr

inductive ValidatorType where
  | email
  | uri
  | url
  | domain
  | slug
  | ipv4
  | ipv6
  | date
  | datetime
  | time
  | iso8601
  | uuid
  | json
  | hexColor
  | iban
  | bic
  | creditCard
  | currencyCode
  | amount
  | phoneE164
  | countryCode
  | languageCode
  | postalCode
  | latitude
  | longitude
  | nif
  | nie
  | cif
  | vatId
  | ssn
  | passportNumber
  deriving DecidableEq, Repr

inductive ValidatorSeverity where
  | error
  | warning
  deriving DecidableEq, Repr

structure ValidatorSpec where
  name : ValidatorType
  params : JsonValue.Members := []
  severity : ValidatorSeverity := .error
  deriving DecidableEq, Repr

structure Field where
  name : String
  description : Option String := none
  type : FieldType := .string
  required : Bool := false
  pattern : Option String := none
  format : Option StandardFormat := none
  enum : Option (List JsonValue) := none
  minimum : Option Rat := none
  maximum : Option Rat := none
  items : Option Field := none
  fields : Option (List Field) := none
  validators : List ValidatorSpec := []
  deriving Repr, Inhabited

structure FieldGroup where
  name : String
  description : Option String := none
  fields : List Field
  deriving Repr

structure DocumentTypeSpec extends Interfaces.DocumentTypeSpec where
  country : Option String := none
  fieldGroups : List FieldGroup
  deriving Repr

/-! ## What the model classes accept -/

namespace Field

def checkConstraints (field : Field) : Bool :=
  (match field.minimum, field.maximum with
    | some minimum, some maximum => decide (minimum ≤ maximum)
    | _, _ => true) &&
  match field.type with
  | .array => field.items.isSome && field.fields.isNone
  | .object =>
      (match field.fields with
        | some (_ :: _) => true
        | _ => false) && field.items.isNone
  | _ => field.items.isNone && field.fields.isNone

inductive WellFormed : Field → Prop
  | intro {field : Field} : field.name ≠ "" → field.checkConstraints = true →
      (∀ row, field.items = some row → WellFormed row) →
      (∀ members, field.fields = some members →
        ∀ member ∈ members, WellFormed member) → WellFormed field

end Field

def FieldGroup.WellFormed (group : FieldGroup) : Prop :=
  group.name ≠ "" ∧ group.fields ≠ [] ∧
    ∀ field ∈ group.fields, field.WellFormed

def VisualCheck.WellFormed (check : Interfaces.VisualCheck) : Prop :=
  check.name ≠ ""

def DocumentTypeSpec.WellFormed (spec : DocumentTypeSpec) : Prop :=
  spec.id ≠ "" ∧ spec.fieldGroups ≠ [] ∧
    (∀ group ∈ spec.fieldGroups, group.WellFormed) ∧
    ∀ check ∈ spec.visualChecks, VisualCheck.WellFormed check

end Dtos

end Flydocs
