import Flydocs.Dtos.Request
import Flydocs.Foundation.Codec

/-!
# JSON dumps of the request models

`model_dump(mode="json")` and `model_validate` of every model class that the
submit handler stores.  On scalar types both are parameters that undo each
other; the codecs of the classes are put together from them.
-/

namespace Flydocs

open Foundation

namespace Dtos

/-! ## Scalars -/

structure Scalar (Value : Type*) where
  dump : Value → JsonValue
  validate : JsonValue → Option Value
  validate_dump (value : Value) : validate (dump value) = some value
  dump_ne_null (value : Value) : dump value ≠ .null

/-- The codecs of the scalar types, and the id a new transformation gets. -/
structure Scalars where
  str : Scalar String
  bool : Scalar Bool
  int : Scalar Int
  float : Scalar Rat
  uuid4 : String

namespace Scalar

variable {Value : Type*}

def codec (scalar : Scalar Value) : Codec Value where
  dump := scalar.dump
  validate := scalar.validate
  valid _ := True
  validate_dump := fun _ => scalar.validate_dump _

def nullable (scalar : Scalar Value) : Codec (Option Value) :=
  scalar.codec.nullable fun value _ => scalar.dump_ne_null value

@[simp] theorem codec_validate_dump (scalar : Scalar Value) (value : Value) :
    scalar.codec.validate (scalar.codec.dump value) = some value :=
  scalar.validate_dump value

@[simp] theorem nullable_validate_dump (scalar : Scalar Value)
    (value : Option Value) :
    scalar.nullable.validate (scalar.nullable.dump value) = some value :=
  scalar.nullable.validate_dump fun _ _ => trivial

@[simp] theorem list_validate_dump (scalar : Scalar Value)
    (values : List Value) :
    scalar.codec.list.validate (scalar.codec.list.dump values) =
      some values :=
  scalar.codec.list.validate_dump fun _ _ => trivial

end Scalar

/-- The scalars as JSON has them; an integer is read where a float is due. -/
def Scalars.json : Scalars where
  str :=
    { dump := .str
      validate
        | .str text => some text
        | _ => none
      validate_dump := fun _ => rfl
      dump_ne_null := JsonValue.str_ne_null }
  bool :=
    { dump := .bool
      validate
        | .bool flag => some flag
        | _ => none
      validate_dump := fun _ => rfl
      dump_ne_null := JsonValue.bool_ne_null }
  int :=
    { dump := .int
      validate
        | .int number => some number
        | _ => none
      validate_dump := fun _ => rfl
      dump_ne_null := JsonValue.int_ne_null }
  float :=
    { dump := .float
      validate
        | .float number => some number
        | .int number => some number
        | _ => none
      validate_dump := fun _ => rfl
      dump_ne_null := JsonValue.float_ne_null }
  uuid4 := "00000000-0000-4000-8000-000000000000"

/-! ## Enumerations -/

def FieldType.value : FieldType → String
  | string => "string"
  | number => "number"
  | integer => "integer"
  | boolean => "boolean"
  | array => "array"
  | object => "object"

def StandardFormat.value : StandardFormat → String
  | date => "date"
  | dateTime => "date-time"
  | time => "time"
  | email => "email"
  | uri => "uri"
  | uuid => "uuid"
  | currency => "currency"

def ValidatorType.value : ValidatorType → String
  | email => "email"
  | uri => "uri"
  | url => "url"
  | domain => "domain"
  | slug => "slug"
  | ipv4 => "ipv4"
  | ipv6 => "ipv6"
  | date => "date"
  | datetime => "datetime"
  | time => "time"
  | iso8601 => "iso_8601"
  | uuid => "uuid"
  | json => "json"
  | hexColor => "hex_color"
  | iban => "iban"
  | bic => "bic"
  | creditCard => "credit_card"
  | currencyCode => "currency_code"
  | amount => "amount"
  | phoneE164 => "phone_e164"
  | countryCode => "country_code"
  | languageCode => "language_code"
  | postalCode => "postal_code"
  | latitude => "latitude"
  | longitude => "longitude"
  | nif => "nif"
  | nie => "nie"
  | cif => "cif"
  | vatId => "vat_id"
  | ssn => "ssn"
  | passportNumber => "passport_number"

def ValidatorSeverity.value : ValidatorSeverity → String
  | error => "error"
  | warning => "warning"

def OnViolation.value : OnViolation → String
  | repair => "repair"
  | warn => "warn"

def scopeValue : Interfaces.TransformationScope → String
  | .task => "task"
  | .request => "request"

def FieldType.codec : Codec FieldType :=
  .enumeration [.string, .number, .integer, .boolean, .array, .object]
    FieldType.value (by intro type; cases type <;> decide)

def StandardFormat.codec : Codec StandardFormat :=
  .enumeration [.date, .dateTime, .time, .email, .uri, .uuid, .currency]
    StandardFormat.value (by intro format; cases format <;> decide)

def StandardFormat.nullable : Codec (Option StandardFormat) :=
  StandardFormat.codec.nullable fun _ _ h => nomatch h

def ValidatorType.codec : Codec ValidatorType :=
  .enumeration
    [.email, .uri, .url, .domain, .slug, .ipv4, .ipv6, .date, .datetime, .time,
      .iso8601, .uuid, .json, .hexColor, .iban, .bic, .creditCard,
      .currencyCode, .amount, .phoneE164, .countryCode, .languageCode,
      .postalCode, .latitude, .longitude, .nif, .nie, .cif, .vatId, .ssn,
      .passportNumber]
    ValidatorType.value (by intro name; cases name <;> decide)

def ValidatorSeverity.codec : Codec ValidatorSeverity :=
  .enumeration [.error, .warning] ValidatorSeverity.value
    (by intro severity; cases severity <;> decide)

def OnViolation.codec : Codec OnViolation :=
  .enumeration [.repair, .warn] OnViolation.value
    (by intro action; cases action <;> decide)

def scopeCodec : Codec Interfaces.TransformationScope :=
  .enumeration [.task, .request] scopeValue
    (by intro scope; cases scope <;> decide)

@[simp] theorem FieldType.codec_valid (type : FieldType) :
    FieldType.codec.valid type := trivial

@[simp] theorem StandardFormat.nullable_valid (format : Option StandardFormat) :
    StandardFormat.nullable.valid format := fun _ _ => trivial

@[simp] theorem ValidatorType.codec_valid (name : ValidatorType) :
    ValidatorType.codec.valid name := trivial

@[simp] theorem ValidatorSeverity.codec_valid (severity : ValidatorSeverity) :
    ValidatorSeverity.codec.valid severity := trivial

@[simp] theorem OnViolation.codec_valid (action : OnViolation) :
    OnViolation.codec.valid action := trivial

@[simp] theorem scopeCodec_valid (scope : Interfaces.TransformationScope) :
    scopeCodec.valid scope := trivial

/-! ## `Any` and `dict[str, Any]` -/

def anyCodec : Codec JsonValue where
  dump := id
  validate := some
  valid _ := True
  validate_dump := fun _ => rfl

def dictCodec : Codec JsonValue.Members where
  dump := .obj
  validate
    | .obj members => some members
    | _ => none
  valid _ := True
  validate_dump := fun _ => rfl

def anyListCodec : Codec (Option (List JsonValue)) :=
  anyCodec.list.nullable fun _ _ h => nomatch h

@[simp] theorem dictCodec_valid (members : JsonValue.Members) :
    dictCodec.valid members := trivial

@[simp] theorem anyListCodec_valid (values : Option (List JsonValue)) :
    anyListCodec.valid values := fun _ _ _ _ => trivial

end Dtos

end Flydocs
