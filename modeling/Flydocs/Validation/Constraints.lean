import Flydocs.Foundation.PythonDate
import Flydocs.Validation.FieldValidator
import Flydocs.Validation.ValidatorRegistry

/-!
# The constraints of a field

`FieldValidator._run_constraints` and the checks below it.  Every check that
fails is one error; an exception that a check does not handle ends the run.
-/

namespace Flydocs

open Foundation Dtos JsonValue

namespace Constraints

/-! ## Names -/

def typeValue : FieldType → String
  | .string => "string"
  | .number => "number"
  | .integer => "integer"
  | .boolean => "boolean"
  | .array => "array"
  | .object => "object"

def formatValue : StandardFormat → String
  | .date => "date"
  | .dateTime => "date-time"
  | .time => "time"
  | .email => "email"
  | .uri => "uri"
  | .uuid => "uuid"
  | .currency => "currency"

def validatorValue : ValidatorType → String
  | .email => "email"
  | .uri => "uri"
  | .url => "url"
  | .domain => "domain"
  | .slug => "slug"
  | .ipv4 => "ipv4"
  | .ipv6 => "ipv6"
  | .date => "date"
  | .datetime => "datetime"
  | .time => "time"
  | .iso8601 => "iso_8601"
  | .uuid => "uuid"
  | .json => "json"
  | .hexColor => "hex_color"
  | .iban => "iban"
  | .bic => "bic"
  | .creditCard => "credit_card"
  | .currencyCode => "currency_code"
  | .amount => "amount"
  | .phoneE164 => "phone_e164"
  | .countryCode => "country_code"
  | .languageCode => "language_code"
  | .postalCode => "postal_code"
  | .latitude => "latitude"
  | .longitude => "longitude"
  | .nif => "nif"
  | .nie => "nie"
  | .cif => "cif"
  | .vatId => "vat_id"
  | .ssn => "ssn"
  | .passportNumber => "passport_number"

def className : FieldValue → String
  | .null => "NoneType"
  | .str _ => "str"
  | .int _ => "int"
  | .float _ => "float"
  | .bool _ => "bool"
  | .list _ => "list"

/-! ## Checks -/

abbrev Check := Except PyException (Option FieldValidationError)

def failed (rule : ValidationRule) (message : String) :
    Option FieldValidationError := some { rule, message }

def hasType (type : FieldType) (value : FieldValue) : Bool :=
  match type, value with
  | .string, .str _ => true
  | .number, .int _ | .number, .float _ => true
  | .integer, .int _ => true
  | .boolean, .bool _ => true
  | .array, _ | .object, _ => true
  | _, _ => false

def validateType (type : FieldType) (value : FieldValue) :
    Option FieldValidationError :=
  if hasType type value then none
  else failed .type
    ("Expected " ++ typeValue type ++ ", got " ++ className value)

variable (library : PythonLibrary)

def validatePattern (pattern : String) (value : FieldValue) : Check :=
  match library.compile pattern with
  | .error (.reError text) =>
      .ok (failed .pattern
        ("Invalid regex " ++ library.reprText pattern ++ ": " ++ text))
  | .error .other => .error .other
  | .ok fullmatch => do
      if fullmatch (← library.str value) then return none
      else
        return failed .pattern ("Value " ++ (← library.repr value) ++
          " does not match pattern " ++ library.reprText pattern)

def emailShape : ValidatorRegistry.Shape :=
  let part := Regex.plus (.char (· ≠ '@'))
  ValidatorRegistry.concat [part, ValidatorRegistry.literal "@", part,
    ValidatorRegistry.literal ".", part]

/-- The text of the error that the parser of a format raises, if it does. -/
def formatFailure (format : StandardFormat) (raw : String) : Option String :=
  match format with
  | .date =>
      match PythonDate.strptime library.digit library.isPrintable raw with
      | .ok _ => none
      | .error text => some text
  | .dateTime =>
      match library.datetimeFromIso raw with
      | .ok () => none
      | .error text => some text
  | .email =>
      if ValidatorRegistry.fullmatch emailShape raw then none
      else some "invalid email format"
  | .uri =>
      match library.urlparse raw with
      | .ok parsed =>
          if parsed.scheme = "" ∨ parsed.netloc = "" then
            some "missing scheme or host"
          else none
      | .error text => some text
  | .uuid =>
      match library.uuid raw with
      | .ok () => none
      | .error text => some text
  | .time | .currency => none

def validateFormat (format : StandardFormat) (value : FieldValue) : Check := do
  let raw ← library.str value
  match formatFailure library format raw with
  | none => return none
  | some text =>
      return failed .format ("Value " ++ (← library.repr value) ++
        " does not match format '" ++ formatValue format ++ "': " ++ text)

def asNumber : JsonValue → Option Rat
  | .bool flag => some (if flag then 1 else 0)
  | .int number => some number
  | .float number => some number
  | _ => none

/-- `value == json`; extracted fields equal nothing that JSON has. -/
def equalsJson (value : FieldValue) (json : JsonValue) : Bool :=
  match value, json with
  | .null, .null => true
  | .str text, .str other => text = other
  | .list [], .arr [] => true
  | .bool flag, other => asNumber other = some (if flag then 1 else 0)
  | .int number, other => asNumber other = some (number : Rat)
  | .float number, other => asNumber other = some number
  | _, _ => false

def validateEnum (enum : List JsonValue) (value : FieldValue) : Check :=
  if enum.any (equalsJson value) then .ok none
  else do
    let shown ← library.repr value
    return failed .enum ("Value " ++ shown ++ " is not one of " ++
      (← library.reprJson (.arr enum)))

/-- A number on the wrong side of a bound, or no number at all. -/
def validateBound (rule : ValidationRule) (outside : PyFloat → Bool)
    (complaint : String) (value : FieldValue) : Check :=
  match library.floatOf value with
  | .ok number =>
      if outside number then do
        return failed rule ("Value " ++ (← library.str value) ++ complaint)
      else .ok none
  | .error .typeError | .error (.valueError _) => do
      return failed rule ((← library.repr value) ++ " is not a number")
  | .error failure => .error failure

def validateMinimum (minimum : Rat) : FieldValue → Check :=
  validateBound library .minimum (fun number => number.lt (.finite minimum))
    (" is below minimum " ++ library.floatText minimum)

def validateMaximum (maximum : Rat) : FieldValue → Check :=
  validateBound library .maximum (fun number => (PyFloat.finite maximum).lt number)
    (" exceeds maximum " ++ library.floatText maximum)

def suffix : ValidatorSeverity → String
  | .warning => " [warning]"
  | .error => ""

def validateSpec (spec : ValidatorSpec) (value : FieldValue) : Check := do
  match ← ValidatorRegistry.runValidator library spec.name value spec.params with
  | none => return none
  | some message =>
      return failed .validator
        (validatorValue spec.name ++ ": " ++ message ++ suffix spec.severity)

/-! ## The run -/

def ifDeclared {Bound : Type} (bound : Option Bound) (check : Bound → Check) :
    Check :=
  match bound with
  | none => .ok none
  | some bound => check bound

def constraintChecks (spec : Field) (value : FieldValue) : List Check :=
  [ifDeclared spec.pattern fun pattern => validatePattern library pattern value,
    ifDeclared spec.format fun format => validateFormat library format value,
    ifDeclared spec.enum fun enum => validateEnum library enum value,
    ifDeclared spec.minimum fun minimum => validateMinimum library minimum value,
    ifDeclared spec.maximum fun maximum => validateMaximum library maximum value]

/-- The checks that follow the one of the type, in their order. -/
def checks (spec : Field) (value : FieldValue) : List Check :=
  constraintChecks library spec value ++
    spec.validators.map fun validator => validateSpec library validator value

def runConstraints (spec : Field) (value : FieldValue) :
    Except PyException (List FieldValidationError) :=
  match value with
  | .null => .ok []
  | value =>
      match validateType spec.type value with
      | some failure => .ok [failure]
      | none => do
          let outcomes ← (checks library spec value).mapM id
          return outcomes.filterMap id

end Constraints

end Flydocs
