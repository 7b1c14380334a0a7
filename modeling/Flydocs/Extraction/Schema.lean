import Flydocs.Dtos.Codecs
import Flydocs.Dtos.Extracted
import Flydocs.Foundation.AliasedModel
import Flydocs.Foundation.PythonNumber
import Flydocs.Foundation.PythonText

/-!
# The output model of a document type

`build_extraction_output_model` and the models below it: what the answer of the
extraction agent is validated against, and the coercion of the values in it.
`Runtime` is what the code takes from its libraries.
-/

namespace Flydocs

open Foundation Dtos

inductive PyError where
  | valueError
  | typeError
  | overflowError
  | validationError
  deriving DecidableEq, Repr

/-- The scalar validators, `str` of what is not a string, `float` and `int` of
a text, `str.isdigit`, and the validation of a list as extracted fields. -/
structure Runtime where
  scalars : Scalars
  str : JsonValue → String
  float : String → Option Rat
  isDigit : String → Bool
  int : String → Option Int
  fields : List JsonValue → Option (List ExtractedField)

/-- Values as JSON has them, with no text read as a float. -/
def Runtime.ofJson : Runtime where
  scalars := .json
  str _ := ""
  float _ := none
  isDigit text := !text.isEmpty && text.all Char.isDigit
  int text := text.toInt?
  fields items := if items.isEmpty then some [] else none

namespace Schema

/-! ## Attribute names -/

def isWord (char : Char) : Bool := char.isAlphanum || char = '_'

def safeAttr (fallback name : String) : String :=
  let cleaned := PythonText.stripWhile (· = '_')
    (name.toList.map fun char => if isWord char then char else '_')
  match cleaned with
  | [] => fallback
  | first :: rest =>
      if first.isDigit then
        fallback ++ "_" ++ String.ofList (first :: rest)
      else String.ofList (first :: rest)

def freshen (used : List String) : Nat → String → String
  | 0, attr => attr
  | tries + 1, attr =>
      if attr ∈ used then freshen used tries (attr ++ "_") else attr

def attrs (fallback : String) (used : List String) : List String → List String
  | [] => []
  | name :: names =>
      let attr := freshen used used.length (safeAttr fallback name)
      attr :: attrs fallback (attr :: used) names

example : attrs "f" [] ["net total", "net_total", "7"] =
    ["net_total", "net_total_", "f_7"] := by decide

/-- The attribute name that pydantic takes as the configuration of a class, so
that no field is made of it. -/
def configName : String := "model_config"

/-- The attribute names that pydantic refuses: those of its own methods, and
`model_post_init`, with which the first instance is what raises. -/
def refusedNames : List String :=
  ["Config", "model_dump", "model_dump_json", "model_post_init",
    "model_validate", "model_validate_json", "model_validate_strings"]

def refuses (fallback : String) (names : List String) : Bool :=
  (attrs fallback [] names).any (· ∈ refusedNames)

/-- The loop of the three builders below. -/
def fieldsOf {Item : Type} (fallback : String) (name : Item → String)
    (model : Item → AliasedModel) (items : List Item) : List AliasedField :=
  ((attrs fallback [] (items.map name)).zip items).map fun (attr, item) =>
    { attr
      name := name item
      read := (model item).validate
      default := (model item).defaults }

/-- `create_model`, for attribute names that it does not refuse. -/
def createModel (fields : List AliasedField) : AliasedModel :=
  fields.filter (·.attr ≠ configName)

/-! ## Models -/

structure RawBBox where
  page : Int := 1
  xmin : Rat := 0
  ymin : Rat := 0
  xmax : Rat := 0
  ymax : Rat := 0

variable (runtime : Runtime)

def RawBBox.validate : JsonValue → Option RawBBox
  | .obj members => do
      let scalars := runtime.scalars
      let page ← scalars.int.codec.withDefault 1 "page" members
      let xmin ← scalars.float.codec.withDefault 0 "xmin" members
      let ymin ← scalars.float.codec.withDefault 0 "ymin" members
      let xmax ← scalars.float.codec.withDefault 0 "xmax" members
      let ymax ← scalars.float.codec.withDefault 0 "ymax" members
      some { page, xmin, ymin, xmax, ymax }
  | _ => none

def RawBBox.dump (box : RawBBox) : JsonValue :=
  .obj [("page", .int box.page), ("xmin", .float box.xmin),
    ("ymin", .float box.ymin), ("xmax", .float box.xmax),
    ("ymax", .float box.ymax)]

def readNullable {Value : Type} (scalar : Scalar Value)
    (dump : Value → JsonValue) (check : Value → Bool := fun _ => true) :
    JsonValue → Option JsonValue
  | .null => some .null
  | json => (scalar.validate json).bind fun value =>
      if check value then some (dump value) else none

def readList (read : JsonValue → Option JsonValue) :
    JsonValue → Option JsonValue
  | .arr items => (items.mapM read).map .arr
  | _ => none

def pythonType : FieldType → JsonValue → Option JsonValue
  | .string => readNullable runtime.scalars.str .str
  | .number => readNullable runtime.scalars.float .float
  | .integer => readNullable runtime.scalars.int .int
  | .boolean => readNullable runtime.scalars.bool .bool
  | .array | .object => some

def confidenceField : AliasedField :=
  .plain "confidence"
    (fun json => (runtime.scalars.float.validate json).bind fun value =>
      if 0 ≤ value ∧ value ≤ 1 then some (.float value) else none)
    (.float 0)

def notesField : AliasedField :=
  .plain "notes" (readNullable runtime.scalars.str .str) .null

def scalarFieldModel (type : FieldType) : AliasedModel :=
  [.plain "value" (pythonType runtime type) .null,
    confidenceField runtime,
    .plain "page" (readNullable runtime.scalars.int .int (1 ≤ ·)) .null,
    .plain "bbox" (fun json => (RawBBox.validate runtime json).map RawBBox.dump)
      (RawBBox.dump {}),
    notesField runtime]

/-- The columns of a row: the members of an object, or the one item. -/
def itemsSpecs (spec : Field) : List Field :=
  match spec.items with
  | none => []
  | some row =>
      match row.type, row.fields with
      | .object, some (first :: rest) => first :: rest
      | _, _ => [row]

def rowFields (items : List Field) : List AliasedField :=
  fieldsOf "f" Field.name (fun item => scalarFieldModel runtime item.type) items

def rowModel (items : List Field) : AliasedModel :=
  createModel (rowFields runtime items)

def arrayFieldModel (spec : Field) : AliasedModel :=
  [.plain "rows" (readList (rowModel runtime (itemsSpecs spec)).validate)
      (.arr []),
    .plain "pages"
      (readList fun json => (runtime.scalars.int.validate json).map .int)
      (.arr []),
    confidenceField runtime,
    notesField runtime]

def fieldModel (spec : Field) : AliasedModel :=
  if spec.type = .array then arrayFieldModel runtime spec
  else scalarFieldModel runtime spec.type

def groupFields (specs : List Field) : List AliasedField :=
  fieldsOf "f" Field.name (fieldModel runtime) specs

def buildFieldGroupModel (specs : List Field) : AliasedModel :=
  createModel (groupFields runtime specs)

def outputFields (doc : DocumentTypeSpec) : List AliasedField :=
  fieldsOf "g" FieldGroup.name
    (fun group => buildFieldGroupModel runtime group.fields) doc.fieldGroups

def refusesOutput (doc : DocumentTypeSpec) : Bool :=
  refuses "g" (doc.fieldGroups.map FieldGroup.name) ||
  doc.fieldGroups.any fun group =>
    refuses "f" (group.fields.map Field.name) ||
    group.fields.any fun spec =>
      spec.type = .array && refuses "f" ((itemsSpecs spec).map Field.name)

def buildExtractionOutputModel (doc : DocumentTypeSpec) :
    Except PyError AliasedModel :=
  if refusesOutput doc then .error .valueError
  else .ok (createModel (outputFields runtime doc))

/-! ## Coercion -/

def toFloat : JsonValue → Except PyError Rat
  | .bool flag => .ok (if flag then 1 else 0)
  | .int number =>
      match PythonNumber.floatOfInt number with
      | some value => .ok value
      | none => .error .overflowError
  | .float number => .ok number
  | .str text =>
      match runtime.float text with
      | some value => .ok value
      | none => .error .valueError
  | .null | .arr _ | .obj _ => .error .typeError

def truthy : JsonValue → Bool
  | .null => false
  | .bool flag => flag
  | .int number => number ≠ 0
  | .float number => number ≠ 0
  | .str text => text ≠ ""
  | .arr items => !items.isEmpty
  | .obj members => !members.isEmpty

/-- The body of an `except (ValueError, TypeError)` that yields a default. -/
def orDefault {Value : Type} (default : Value) :
    Except PyError Value → Except PyError Value
  | .error .valueError | .error .typeError | .error .validationError =>
      .ok default
  | outcome => outcome

def coerceScalar (type : FieldType) (raw : JsonValue) :
    Except PyError JsonValue :=
  if raw = .null ∨ raw = .str "" then .ok .null
  else
    match type with
    | .string =>
        .ok (match raw with
          | .str text => .str text
          | _ => .str (runtime.str raw))
    | .number => orDefault .null ((toFloat runtime raw).map .float)
    | .integer =>
        orDefault .null ((toFloat runtime raw).map fun number =>
          .int (PythonNumber.truncate number))
    | .boolean =>
        .ok (match raw with
          | .str text =>
              .bool ((PythonText.strip text).toLower ∈
                ["true", "yes", "1", "t", "y"])
          | _ => .bool (truthy raw))
    | .array | .object => .ok raw

def clampBbox (json : JsonValue) : Option BoundingBox := do
  let box ← RawBBox.validate runtime json
  let xmin := UnitInterval.clamp box.xmin
  let ymin := UnitInterval.clamp box.ymin
  let xmax := UnitInterval.clamp box.xmax
  let ymax := UnitInterval.clamp box.ymax
  if corners : xmin.val < xmax.val ∧ ymin.val < ymax.val then
    some { xmin, ymin, xmax, ymax, corners }
  else none

end Schema

end Flydocs
