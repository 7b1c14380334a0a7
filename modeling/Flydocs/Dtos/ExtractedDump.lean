import Flydocs.Dtos.Codecs
import Flydocs.Dtos.Result

/-!
# Codecs of extracted fields

`model_dump(mode="json")` of a field and `model_validate` of what was dumped.
The value of a field is a union, which is told apart by the kind of its JSON.
-/

namespace Flydocs

open Foundation

namespace Dtos

/-- Beside the scalars, how a `datetime` prints, and what a new event gets. -/
structure ResultScalars extends Scalars where
  datetime : Scalar Int
  newEventId : String
  utcnow : Int

/-- The scalars as JSON has them; of the instants the epoch is spelled out. -/
def ResultScalars.json : ResultScalars where
  toScalars := .json
  datetime :=
    { dump microseconds :=
        if microseconds = 0 then .str "1970-01-01T00:00:00Z"
        else .int microseconds
      validate
        | .str "1970-01-01T00:00:00Z" => some 0
        | .int microseconds => some microseconds
        | _ => none
      validate_dump := by
        intro microseconds
        by_cases hepoch : microseconds = 0 <;> simp [hepoch]
      dump_ne_null := by
        intro microseconds
        by_cases hepoch : microseconds = 0 <;> simp [hepoch] }
  newEventId := "00000000-0000-4000-8000-000000000000"
  utcnow := 0

instance Scalar.lossless_codec {Value : Type*} (scalar : Scalar Value) :
    scalar.codec.Lossless :=
  ⟨fun _ => trivial⟩

instance Scalar.lossless_nullable {Value : Type*} (scalar : Scalar Value) :
    scalar.nullable.Lossless :=
  ⟨fun _ _ _ => trivial⟩

instance lossless_dictCodec : dictCodec.Lossless :=
  ⟨fun _ => trivial⟩

section Enumerations

def ValidationRule.codec : Codec ValidationRule :=
  .enumeration
    [.type, .pattern, .format, .enum, .minimum, .maximum, .validator]
    (fun
      | .type => "type"
      | .pattern => "pattern"
      | .format => "format"
      | .enum => "enum"
      | .minimum => "minimum"
      | .maximum => "maximum"
      | .validator => "validator")
    (by intro rule; cases rule <;> decide)

def JudgeStatus.codec : Codec JudgeStatus :=
  .enumeration [.pass, .fail, .uncertain]
    (fun
      | .pass => "pass"
      | .fail => "fail"
      | .uncertain => "uncertain")
    (by intro status; cases status <;> decide)

def BboxQuality.codec : Codec BboxQuality :=
  .enumeration [.good, .poor, .suspicious, .invalid]
    (fun
      | .good => "good"
      | .poor => "poor"
      | .suspicious => "suspicious"
      | .invalid => "invalid")
    (by intro quality; cases quality <;> decide)

def BboxSource.codec : Codec BboxSource :=
  .enumeration [.llm, .pdfText, .ocr]
    (fun
      | .llm => "llm"
      | .pdfText => "pdf_text"
      | .ocr => "ocr")
    (by intro source; cases source <;> decide)

instance lossless_validationRule : ValidationRule.codec.Lossless :=
  ⟨fun _ => trivial⟩

instance lossless_judgeStatus : JudgeStatus.codec.Lossless :=
  ⟨fun _ => trivial⟩

instance lossless_bboxQuality : BboxQuality.codec.Lossless :=
  ⟨fun _ => trivial⟩

instance lossless_bboxSource : BboxSource.codec.Lossless :=
  ⟨fun _ => trivial⟩

def qualityCodec : Codec (Option BboxQuality) :=
  BboxQuality.codec.nullable fun _ _ h => nomatch h

def sourceCodec : Codec (Option BboxSource) :=
  BboxSource.codec.nullable fun _ _ h => nomatch h

instance lossless_quality : qualityCodec.Lossless :=
  ⟨fun _ _ _ => trivial⟩

instance lossless_source : sourceCodec.Lossless :=
  ⟨fun _ _ _ => trivial⟩

end Enumerations

variable (scalars : ResultScalars)

/-! ## Scalars with bounds -/

def UnitInterval.codec : Codec UnitInterval :=
  scalars.float.codec.checked fun value => 0 ≤ value ∧ value ≤ 1

instance lossless_unitInterval : (UnitInterval.codec scalars).Lossless :=
  Codec.lossless_checked _ _

theorem UnitInterval.dump_ne_null (value : UnitInterval) :
    (UnitInterval.codec scalars).dump value ≠ .null :=
  scalars.float.dump_ne_null value.1

def UnitInterval.nullable : Codec (Option UnitInterval) :=
  (UnitInterval.codec scalars).nullable fun value _ =>
    UnitInterval.dump_ne_null scalars value

instance lossless_unitInterval_nullable :
    (UnitInterval.nullable scalars).Lossless :=
  Codec.lossless_nullable _ _

def pagesCodec : Codec (List Int) := scalars.int.codec.list

instance lossless_pages : (pagesCodec scalars).Lossless :=
  Codec.lossless_list _

/-! ## Fields -/

def BoundingBox.codec : Codec BoundingBox where
  dump box := .obj
    [("xmin", (UnitInterval.codec scalars).dump box.xmin),
      ("ymin", (UnitInterval.codec scalars).dump box.ymin),
      ("xmax", (UnitInterval.codec scalars).dump box.xmax),
      ("ymax", (UnitInterval.codec scalars).dump box.ymax),
      ("quality", qualityCodec.dump box.quality),
      ("quality_score", (UnitInterval.codec scalars).dump box.qualityScore),
      ("source", sourceCodec.dump box.source),
      ("refinement_confidence",
        (UnitInterval.nullable scalars).dump box.refinementConfidence)]
  validate := Codec.closedObject
    ["xmin", "ymin", "xmax", "ymax", "quality", "quality_score", "source",
      "refinement_confidence"]
    fun members => do
      let unit := UnitInterval.codec scalars
      let xmin ← unit.required "xmin" members
      let ymin ← unit.required "ymin" members
      let xmax ← unit.required "xmax" members
      let ymax ← unit.required "ymax" members
      let quality ← qualityCodec.withDefault none "quality" members
      let qualityScore ← unit.withDefault 0 "quality_score" members
      let source ← sourceCodec.withDefault none "source" members
      let refinementConfidence ←
        (UnitInterval.nullable scalars).withDefault none
          "refinement_confidence" members
      if corners : xmin.val < xmax.val ∧ ymin.val < ymax.val then
        some { xmin, ymin, xmax, ymax, quality, qualityScore, source,
               refinementConfidence, corners }
      else none
  valid _ := True
  validate_dump := by
    intro box _
    rw [Codec.closedObject_obj (by simp [JsonValue.onlyKeys])]
    simp [Codec.required, Codec.withDefault, box.corners.1, box.corners.2]

def boxCodec : Codec (Option BoundingBox) :=
  (BoundingBox.codec scalars).nullable fun _ _ h => nomatch h

instance lossless_box : (boxCodec scalars).Lossless :=
  ⟨fun _ _ _ => trivial⟩

def FieldValidationError.codec : Codec FieldValidationError where
  dump error := .obj
    [("rule", ValidationRule.codec.dump error.rule),
      ("message", scalars.str.codec.dump error.message)]
  validate := Codec.closedObject ["rule", "message"] fun members => do
    let rule ← ValidationRule.codec.required "rule" members
    let message ← scalars.str.codec.required "message" members
    some { rule, message }
  valid _ := True
  validate_dump := by
    intro error _
    rw [Codec.closedObject_obj (by simp [JsonValue.onlyKeys])]
    simp [Codec.required]

instance lossless_fieldValidationError :
    (FieldValidationError.codec scalars).Lossless :=
  ⟨fun _ => trivial⟩

def FieldValidation.codec : Codec FieldValidation where
  dump validation := .obj
    [("valid", scalars.bool.codec.dump validation.valid),
      ("errors",
        (FieldValidationError.codec scalars).list.dump validation.errors)]
  validate := Codec.closedObject ["valid", "errors"] fun members => do
    let valid ← scalars.bool.codec.withDefault true "valid" members
    let errors ←
      (FieldValidationError.codec scalars).list.withDefault [] "errors" members
    some { valid, errors }
  valid _ := True
  validate_dump := by
    intro validation _
    rw [Codec.closedObject_obj (by simp [JsonValue.onlyKeys])]
    simp [Codec.withDefault]

instance lossless_fieldValidation :
    (FieldValidation.codec scalars).Lossless :=
  ⟨fun _ => trivial⟩

def JudgeOutcome.codec : Codec JudgeOutcome where
  dump outcome := .obj
    [("status", JudgeStatus.codec.dump outcome.status),
      ("confidence", (UnitInterval.codec scalars).dump outcome.confidence),
      ("evidence", scalars.str.nullable.dump outcome.evidence),
      ("notes", scalars.str.nullable.dump outcome.notes),
      ("flag_for_review", scalars.bool.codec.dump outcome.flagForReview)]
  validate := Codec.closedObject
    ["status", "confidence", "evidence", "notes", "flag_for_review"]
    fun members => do
      let status ← JudgeStatus.codec.withDefault .uncertain "status" members
      let confidence ←
        (UnitInterval.codec scalars).withDefault 0 "confidence" members
      let evidence ← scalars.str.nullable.withDefault none "evidence" members
      let notes ← scalars.str.nullable.withDefault none "notes" members
      let flagForReview ←
        scalars.bool.codec.withDefault false "flag_for_review" members
      some { status, confidence, evidence, notes, flagForReview }
  valid _ := True
  validate_dump := by
    intro outcome _
    rw [Codec.closedObject_obj (by simp [JsonValue.onlyKeys])]
    simp [Codec.withDefault]

instance lossless_judgeOutcome : (JudgeOutcome.codec scalars).Lossless :=
  ⟨fun _ => trivial⟩

namespace ExtractedField

def keys : List String :=
  ["name", "value", "pages", "confidence", "bbox", "validation", "judge",
    "notes", "source"]

mutual

def dump : ExtractedField → JsonValue
  | ⟨name, value, pages, confidence, bbox, validation, judge, notes, source⟩ =>
      .obj
        [("name", scalars.str.codec.dump name),
          ("value", dumpValue value),
          ("pages", (pagesCodec scalars).dump pages),
          ("confidence", (UnitInterval.codec scalars).dump confidence),
          ("bbox", (boxCodec scalars).dump bbox),
          ("validation", (FieldValidation.codec scalars).dump validation),
          ("judge", (JudgeOutcome.codec scalars).dump judge),
          ("notes", scalars.str.nullable.dump notes),
          ("source", scalars.str.nullable.dump source)]

def dumpValue : FieldValue → JsonValue
  | .null => .null
  | .str text => .str text
  | .int number => .int number
  | .float number => .float number
  | .bool flag => .bool flag
  | .list items => .arr (dumpAll items)

def dumpAll : List ExtractedField → List JsonValue
  | [] => []
  | item :: items => dump item :: dumpAll items

end

mutual

def validate (json : JsonValue) : Option ExtractedField :=
  match json with
  | .obj members =>
      if JsonValue.onlyKeys keys members then do
        let name ← scalars.str.codec.required "name" members
        let value ←
          match _h : JsonValue.lookup "value" members with
          | none => some .null
          | some json => validateValue json
        let pages ← (pagesCodec scalars).withDefault [] "pages" members
        let confidence ←
          (UnitInterval.codec scalars).withDefault 0 "confidence" members
        let bbox ← (boxCodec scalars).withDefault none "bbox" members
        let validation ←
          (FieldValidation.codec scalars).withDefault {} "validation" members
        let judge ← (JudgeOutcome.codec scalars).withDefault {} "judge" members
        let notes ← scalars.str.nullable.withDefault none "notes" members
        let source ← scalars.str.nullable.withDefault none "source" members
        some { name, value, pages, confidence, bbox, validation, judge, notes,
               source }
      else none
  | _ => none
termination_by sizeOf json
decreasing_by
  have hlt := JsonValue.sizeOf_lt_of_lookup _h
  simp only [JsonValue.obj.sizeOf_spec]
  omega

def validateValue (json : JsonValue) : Option FieldValue :=
  match json with
  | .null => some .null
  | .str text => some (.str text)
  | .int number => some (.int number)
  | .float number => some (.float number)
  | .bool flag => some (.bool flag)
  | .arr items => (validateAll items).map .list
  | .obj _ => none
termination_by sizeOf json

def validateAll (items : List JsonValue) : Option (List ExtractedField) :=
  match items with
  | [] => some []
  | json :: rest => do
      let item ← validate json
      let items ← validateAll rest
      some (item :: items)
termination_by sizeOf items

end

mutual

theorem validate_dump : ∀ field : ExtractedField,
    validate scalars (dump scalars field) = some field
  | ⟨name, value, pages, confidence, bbox, validation, judge, notes,
      source⟩ => by
      have hvalue := validateValue_dumpValue value
      rw [dump, validate, if_pos (by simp [JsonValue.onlyKeys, keys])]
      simp [Codec.required, Codec.withDefault, hvalue]

theorem validateValue_dumpValue : ∀ value : FieldValue,
    validateValue scalars (dumpValue scalars value) = some value
  | .null | .str _ | .int _ | .float _ | .bool _ => by
      simp [dumpValue, validateValue]
  | .list items => by
      have hitems := validateAll_dumpAll items
      simp [dumpValue, validateValue, hitems]

theorem validateAll_dumpAll : ∀ items : List ExtractedField,
    validateAll scalars (dumpAll scalars items) = some items
  | [] => by simp [dumpAll, validateAll]
  | item :: items => by
      have hhead := validate_dump item
      have htail := validateAll_dumpAll items
      simp [dumpAll, validateAll, hhead, htail]

end

def codec : Codec ExtractedField where
  dump := dump scalars
  validate := validate scalars
  valid _ := True
  validate_dump := fun _ => validate_dump scalars _

end ExtractedField

instance lossless_extractedField :
    (ExtractedField.codec scalars).Lossless :=
  ⟨fun _ => trivial⟩

end Dtos

end Flydocs
