import Flydocs.Extraction.Extractor
import Flydocs.Foundation.PythonFloat
import Flydocs.Transformations.EntityResolution

/-!
# The LLM transformer

Rows are serialised for the model, its answer is built back into rows, and a
declared invariant is enforced on them.  Everything but the call itself runs
outside of any handler.
-/

namespace Flydocs

open Foundation Dtos Transformations JsonValue

namespace LlmTransformer

variable (text : TextRuntime)

/-! ## Serialisation -/

def rowIdKey : String := "_row_id"
def provenanceKey : String := "_provenance"
def sourceRowsKey : String := "_source_rows"

def reservedKeys : List String := [rowIdKey, provenanceKey, sourceRowsKey]

def toJson : FieldValue → Option JsonValue
  | .null => some .null
  | .str value => some (.str value)
  | .int value => some (.int value)
  | .float value => some (.float value)
  | .bool value => some (.bool value)
  | .list [] => some (.arr [])
  | .list (_ :: _) => none

def rounded (confidence : UnitInterval) : JsonValue :=
  .float (PythonNumber.roundTo 3 confidence.val)

def subMeta (sub : ExtractedField) : JsonValue :=
  .obj (("confidence", rounded sub.confidence) ::
    (match sub.judge.evidence with
      | none | some "" => []
      | some evidence => [("evidence", .str evidence)]))

def fieldMeta (subs : List ExtractedField) : Members :=
  subs.foldl (fun entries sub => assign sub.name (subMeta sub) entries) []

def provenance (row : ExtractedField) : JsonValue :=
  let fields := fieldMeta (rowsOf row)
  .obj (
    (match row.source with
      | none | some "" => []
      | some source => [("source_document", .str source)]) ++
    (if row.pages = [] then [] else [("pages", .arr (row.pages.map .int))]) ++
    [("confidence", rounded row.confidence)] ++
    if fields = [] then [] else [("fields", .obj fields)])

/-- The dictionary of a row, before it is dumped. -/
def rowEntries (includeProvenance : Bool) (index : Nat) (row : ExtractedField) :
    List (String × Option JsonValue) :=
  let values := (rowsOf row).foldl
    (fun entries sub => assign sub.name (toJson sub.value) entries) []
  let identified :=
    assign rowIdKey (some (.str ("r" ++ toString (index + 1)))) values
  if includeProvenance then
    assign provenanceKey (some (provenance row)) identified
  else identified

def dumpRow (entries : List (String × Option JsonValue)) :
    Except PyError JsonValue :=
  match entries.mapM fun entry => entry.2.map fun json => (entry.1, json) with
  | some members => .ok (.obj members)
  | none => .error .typeError

def serialiseRows (includeProvenance : Bool) (rows : List ExtractedField) :
    Except PyError (List JsonValue) :=
  (rows.zipIdx.map fun (row, index) =>
    rowEntries includeProvenance index row).mapM dumpRow

/-! ## Identity tokens -/

def normTokens (value : String) : List String :=
  let folded := String.ofList
    ((text.nfkd value).toList.filter fun char => !text.combining char)
  ((text.words (text.lower folded)).filter fun token =>
    3 ≤ token.length || text.isDigit token).eraseDups

def valueTokens : FieldValue → List String
  | .str value =>
      if PythonText.strip value = "" then [] else normTokens text value
  | _ => []

def rowTokens (row : ExtractedField) : List String :=
  ((rowsOf row).flatMap fun sub => valueTokens text sub.value).eraseDups

/-- Some of the tokens is carried by at most half of the inputs. -/
def distinctive (inputs : List (List String)) (tokens : List String) : Bool :=
  tokens.any fun token =>
    let frequency := (inputs.filter (token ∈ ·)).length
    0 < frequency && frequency ≤ max 1 (inputs.length / 2)

def isGrounded (row : ExtractedField) (inputs : List (List String)) : Bool :=
  inputs = [] || rowTokens text row = [] || distinctive inputs (rowTokens text row)

def outputTokens (output : Members) : List String :=
  (output.flatMap fun (name, value) =>
    if name ∈ reservedKeys then []
    else
      match value with
      | .str value => valueTokens text (.str value)
      | _ => []).eraseDups

def identityContributors (tokens : List String) (rows : List ExtractedField)
    (inputs : List (List String)) : List ExtractedField :=
  if tokens = [] ∨ inputs = [] then []
  else
    ((rows.zip inputs).filter fun (_, input) =>
      distinctive inputs (tokens.filter (· ∈ input))).map Prod.fst

/-! ## Provenance -/

def unionPages (rows : List ExtractedField) : List Int :=
  Postprocess.sorted (rows.flatMap ExtractedField.pages)

def meanConfidence (rows : List ExtractedField) : UnitInterval :=
  if rows = [] then 0
  else .clamp (PythonNumber.roundTo 4
    ((rows.map fun row => row.confidence.val).sum / rows.length))

/-- A field with a box before one without, then the higher confidence. -/
def betterGrounded (sub best : ExtractedField) : Bool :=
  match sub.bbox, best.bbox with
  | some _, none => true
  | none, some _ => false
  | _, _ => decide (best.confidence.val < sub.confidence.val)

def provenanceSub (contributors : List ExtractedField)
    (fallback : ExtractedField) (name : String) : Option ExtractedField :=
  let sources := if contributors = [] then [fallback] else contributors
  (sources.flatMap rowsOf).foldl (fun best sub =>
    if sub.name = name then
      match best with
      | none => some sub
      | some current => if betterGrounded sub current then some sub else best
    else best) none

/-! ## Rebuilding -/

/-- What the values under `_source_rows` iterate over. -/
def citedIds (output : Members) : Except PyError (List JsonValue) :=
  match lookup sourceRowsKey output with
  | none => .ok []
  | some (.str cited) => .ok (if cited = "" then [] else [.str cited])
  | some json => Postprocess.elements json

/-- `c in by_id`: lists and dictionaries cannot be hashed. -/
def citedRow (rows : List ExtractedField) :
    JsonValue → Except PyError (Option ExtractedField)
  | .arr _ | .obj _ => .error .typeError
  | .str id =>
      .ok ((rows.zipIdx.find? fun (_, index) =>
        "r" ++ toString (index + 1) = id).map Prod.fst)
  | _ => .ok none

def citedRows (rows : List ExtractedField) (output : Members) :
    Except PyError (List ExtractedField) := do
  let ids ← citedIds output
  let cited ← ids.mapM (citedRow rows)
  return cited.filterMap id

/-- Where no row of the answer cites, as many rows as before stand for them. -/
def positionalOk (rows : List ExtractedField) (outputs : List Members) : Bool :=
  let batchHasCitations := outputs.any fun output =>
    Schema.truthy ((lookup sourceRowsKey output).getD .null)
  !batchHasCitations && outputs.length = rows.length

def contributorsOf (rows : List ExtractedField) (outputs : List Members)
    (index : Nat) (output : Members) :
    Except PyError (List ExtractedField) := do
  let cited ← citedRows rows output
  if cited ≠ [] then return cited
  else if positionalOk rows outputs then return (rows[index]?).toList
  else
    return identityContributors (outputTokens text output) rows
      (rows.map (rowTokens text))

def rebuildCell (contributors : List ExtractedField) (fallback : ExtractedField)
    (pages : List Int) (confidence : UnitInterval) (bbox : Option BoundingBox)
    (name : String) (value : JsonValue) : Except PyError ExtractedField := do
  let value ← Postprocess.fieldValue text.toRuntime value
  match provenanceSub contributors fallback name with
  | some source =>
      return { name, value
               pages := source.pages
               confidence := source.confidence
               bbox := source.bbox
               judge := source.judge
               notes := source.notes }
  | none => return { name, value, pages, confidence, bbox }

def data (output : Members) : Members :=
  output.filter fun member => member.1 ∉ reservedKeys

def flagUngroundedRow (flag : Bool) (rows : List ExtractedField)
    (row : ExtractedField) : ExtractedField :=
  if flag && !isGrounded text row (rows.map (rowTokens text)) then
    { row with confidence := 0, notes := some "unmatched to source" }
  else row

def rebuildRow (template : ExtractedField) (rows : List ExtractedField)
    (outputs : List Members) (flagUngrounded : Bool) (index : Nat)
    (output : Members) : Except PyError ExtractedField := do
  let contributors ← contributorsOf text rows outputs index output
  let source := contributors.headD template
  let pages :=
    if contributors = [] then template.pages else unionPages contributors
  let confidence :=
    if contributors = [] then template.confidence
    else meanConfidence contributors
  let cells ← (data output).mapM fun (name, value) =>
    rebuildCell text contributors template pages confidence source.bbox name
      value
  return flagUngroundedRow text flagUngrounded rows
    { name := "row_" ++ toString (index + 1)
      value := .list cells
      pages
      confidence
      bbox := source.bbox }

def rebuildRows (template : ExtractedField) (rows : List ExtractedField)
    (outputs : List Members) (flagUngrounded : Bool) :
    Except PyError (List ExtractedField) :=
  outputs.zipIdx.mapM fun (output, index) =>
    rebuildRow text template rows outputs flagUngrounded index output

/-! ## The invariant -/

/-- How shares are read, added and compared. -/
structure ShareArithmetic where
  Share : Type
  /-- `float(value)`, or `0.0` where that is a type or a value error. -/
  ofValue : FieldValue → Except PyError Share
  zero : Share
  /-- The sum, rounded to six decimals. -/
  total : List Share → Share
  limit : PartsOfWholeInvariant → Share
  within : Share → Share → Bool
  exceeds : Share → Share → Bool
  overflows : ∀ {value raised}, ofValue value = .error raised →
    raised = .overflowError
  not_exceeds : ∀ {share bound}, within share bound = true →
    exceeds share bound = false

/-- `float(value)`, or `0.0` for a value or a text that is no number. -/
def shareValue : FieldValue → Except PyError Rat
  | .bool flag => .ok (if flag then 1 else 0)
  | .int number =>
      match PythonNumber.floatOfInt number with
      | some share => .ok share
      | none => .error .overflowError
  | .float number => .ok number
  | .str value => .ok ((text.float value).getD 0)
  | .null | .list _ => .ok 0

theorem overflows_shareValue {value : FieldValue} {raised : PyError}
    (h : shareValue text value = .error raised) : raised = .overflowError := by
  cases value with
  | int number =>
      simp only [shareValue] at h
      split at h
      · cases h
      · cases h
        rfl
  | _ => cases h

theorem not_lt_of_decide_le {share bound : Rat}
    (h : decide (share ≤ bound) = true) : decide (bound < share) = false :=
  decide_eq_false (of_decide_eq_true h).not_gt

@[reducible] def ShareArithmetic.exact : ShareArithmetic where
  Share := Rat
  ofValue := shareValue text
  zero := 0
  total shares := PythonNumber.roundTo 6 shares.sum
  limit invariant := invariant.total + invariant.tolerance
  within share bound := decide (share ≤ bound)
  exceeds share bound := decide (bound < share)
  overflows := overflows_shareValue text
  not_exceeds := not_lt_of_decide_le

section

variable (parse : String → Option Float)

/-- `shareValue` in doubles, where a text may also be an infinity or no number,
and a number may be past the largest double. -/
def floatShare : FieldValue → Except PyError Float
  | .bool flag => .ok (if flag then 1 else 0)
  | .int number =>
      match PythonNumber.floatOfInt number with
      | some share => .ok (PythonFloat.ofRat share)
      | none => .error .overflowError
  | .float number => .ok (PythonFloat.ofRat number)
  | .str value => .ok ((parse value).getD 0)
  | .null | .list _ => .ok 0

theorem overflows_floatShare {value : FieldValue} {raised : PyError}
    (h : floatShare parse value = .error raised) :
    raised = .overflowError := by
  cases value with
  | int number =>
      simp only [floatShare] at h
      split at h
      · cases h
      · cases h
        rfl
  | _ => cases h

theorem not_lt_of_decide_le_float {share bound : Float}
    (h : decide (share ≤ bound) = true) : decide (bound < share) = false :=
  decide_eq_false (PythonFloat.not_lt_of_le (of_decide_eq_true h))

/-- Shares as the code computes them; every operation rounds. -/
@[reducible] def ShareArithmetic.double : ShareArithmetic where
  Share := Float
  ofValue := floatShare parse
  zero := 0
  total shares := PythonFloat.roundTo 6 (PythonFloat.sum shares)
  limit invariant :=
    PythonFloat.ofRat invariant.total + PythonFloat.ofRat invariant.tolerance
  within share bound := decide (share ≤ bound)
  exceeds share bound := decide (bound < share)
  overflows := overflows_floatShare parse
  not_exceeds := not_lt_of_decide_le_float

end

section

variable (shares : ShareArithmetic)

def rowShare (shareField : String) (row : ExtractedField) :
    Except PyError shares.Share :=
  match (rowsOf row).find? (·.name = shareField) with
  | some sub => shares.ofValue sub.value
  | none => .ok shares.zero

def sumShares (shareField : String) (rows : List ExtractedField) :
    Except PyError shares.Share := do
  let values ← rows.mapM (rowShare shares shareField)
  return shares.total values

end

structure VictimKey where
  unmatched : Nat
  confidence : Rat
  tokens : Nat
  joined : String

def VictimKey.lt (first second : VictimKey) : Bool :=
  if first.unmatched ≠ second.unmatched then first.unmatched < second.unmatched
  else if first.confidence ≠ second.confidence then
    first.confidence < second.confidence
  else if first.tokens ≠ second.tokens then first.tokens < second.tokens
  else first.joined < second.joined

def victimKey (row : ExtractedField) : VictimKey where
  unmatched := if row.notes = some "unmatched to source" then 0 else 1
  confidence := row.confidence.val
  tokens := (rowTokens text row).length
  joined := " ".intercalate
    ((rowTokens text row).insertionSort (· ≤ ·))

/-- The position of the first row with the least key.  `kept.remove` takes out
that row: an earlier one that equals it would have the same key. -/
def victimIndex (rows : List ExtractedField) : Nat :=
  let keys := rows.map (victimKey text)
  (keys.findIdx? fun key => keys.all fun other => !other.lt key).getD 0

/-- The loop that drops victims; it runs at most once for each row. -/
def dropVictims (shares : ShareArithmetic) (shareField : String)
    (limit : shares.Share) :
    Nat → List ExtractedField → Except PyError (List ExtractedField)
  | 0, rows => .ok rows
  | fuel + 1, rows => do
      let current ← sumShares shares shareField rows
      if shares.exceeds current limit ∧ 1 < rows.length then
        dropVictims shares shareField limit fuel
          (rows.eraseIdx (victimIndex text rows))
      else return rows

def enforceInvariant (shares : ShareArithmetic)
    (invariant : PartsOfWholeInvariant) (rows : List ExtractedField) :
    Except PyError (List ExtractedField) := do
  let current ← sumShares shares invariant.shareField rows
  if shares.within current (shares.limit invariant) then return rows
  else
    match invariant.onViolation with
    | .warn => return rows
    | .repair =>
        dropVictims text shares invariant.shareField (shares.limit invariant)
          rows.length rows

/-! ## The call -/

def transformOutput : JsonValue → Option (List Members)
  | .obj members =>
      match lookup "rows" members with
      | none => some []
      | some (.arr rows) => rows.mapM fun
          | .obj row => some row
          | _ => none
      | some _ => none
  | _ => none

def producedRows (spec : LlmTransformation) (template : ExtractedField)
    (rows : List ExtractedField) (outputs : List Members) :
    Except PyError (List ExtractedField) := do
  let produced ←
    rebuildRows text template rows outputs spec.invariant.isSome
  match spec.invariant with
  | none => return produced
  | some invariant => enforceInvariant text (.exact text) invariant produced

end LlmTransformer

/-- `template` renders the intention, the target group and the rows. -/
structure LlmTransformer (Raised : Type) where
  template : String → String → List JsonValue → RenderedPrompt
  model : String
  buildAgent : String → String → Except Raised Unit
  ofPyError : PyError → Raised

namespace LlmTransformer

variable {Raised : Type} (self : LlmTransformer Raised) (text : TextRuntime)

abbrev Answer (Raised : Type) := RenderedPrompt → Except Raised JsonValue

def liftError {Value : Type} (outcome : Except PyError Value) :
    Except Raised Value :=
  match outcome with
  | .ok value => .ok value
  | .error raised => .error (self.ofPyError raised)

def transform (spec : LlmTransformation) (answer : Answer Raised)
    (rows : List ExtractedField) :
    Except Raised (Option (List ExtractedField)) := do
  match rows with
  | [] => return none
  | template :: _ =>
      let serialised ← self.liftError (serialiseRows spec.includeProvenance rows)
      let prompt := self.template spec.intention spec.targetGroup serialised
      self.buildAgent self.model prompt.system
      match answer prompt with
      | .error _ => return none
      | .ok json =>
          match transformOutput json with
          | none => return none
          | some outputs =>
              let produced ←
                self.liftError (producedRows text spec template rows outputs)
              return some produced

def apply (spec : LlmTransformation) (answer : Answer Raised)
    (outputGroup : Option String) (groups : List ExtractedFieldGroup) :
    Except Raised (List ExtractedFieldGroup × Option ExtractedFieldGroup) :=
  applyWith (self.transform text spec answer) spec.targetGroup outputGroup
    groups

end LlmTransformer

end Flydocs
