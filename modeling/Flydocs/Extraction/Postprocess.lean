import Mathlib.Data.List.Sort
import Flydocs.Extraction.Schema
import Flydocs.Foundation.PickEach
import Flydocs.Foundation.Traverse

/-!
# Post-processing

`normalise_doc`: from the dump of the output model to extracted groups, with
values coerced and boxes clamped, in the order of the declaration.
-/

namespace Flydocs

open Foundation Dtos JsonValue

namespace Postprocess

variable (runtime : Runtime)

/-! ## Small helpers -/

def get (key : String) (payload : Members) : JsonValue :=
  (lookup key payload).getD .null

def orEmpty : JsonValue → Members
  | .obj members => members
  | _ => []

def elements (json : JsonValue) : Except PyError (List JsonValue) :=
  if Schema.truthy json then
    match json with
    | .arr items => .ok items
    | .str text => .ok (text.toList.map fun char => .str (String.ofList [char]))
    | .obj members => .ok (members.map fun member => .str member.1)
    | _ => .error .typeError
  else .ok []

def clamp01 (raw : JsonValue) : Except PyError UnitInterval :=
  Schema.orDefault 0 ((Schema.toFloat runtime raw).map UnitInterval.clamp)

def intOrNone : JsonValue → Except PyError (Option Int)
  | .int number => .ok (if 1 ≤ number then some number else none)
  | .str text =>
      if runtime.isDigit text then
        match runtime.int text with
        | some number => .ok (if 1 ≤ number then some number else none)
        | none => .error .valueError
      else .ok none
  | _ => .ok none

def maybeStr : JsonValue → Option String
  | .str text =>
      if PythonText.strip text = "" then none else some (PythonText.strip text)
  | _ => none

def sorted (pages : List Int) : List Int :=
  pages.eraseDups.insertionSort (· ≤ ·)

theorem mem_sorted {pages : List Int} {page : Int} :
    page ∈ sorted pages ↔ page ∈ pages := by
  simp [sorted]

theorem pairwise_sorted (pages : List Int) : (sorted pages).Pairwise (· < ·) := by
  have hnodup : (sorted pages).Nodup :=
    (List.perm_insertionSort _ _).nodup_iff.mpr (nodup_eraseDups pages)
  refine ((List.pairwise_insertionSort _ _).and hnodup).imp ?_
  rintro first second ⟨hle, hne⟩
  omega

theorem sorted_eq_self_iff {pages : List Int} :
    sorted pages = pages ↔ pages.Pairwise (· < ·) := by
  constructor
  · intro h
    exact h ▸ pairwise_sorted pages
  · intro h
    have hnodup : pages.Nodup := h.imp (fun hlt => hlt.ne)
    rw [sorted, eraseDups_of_nodup hnodup]
    exact (h.imp (fun hlt => hlt.le)).insertionSort_eq

/-- The value of an extracted field, as its model class validates it. -/
def fieldValue : JsonValue → Except PyError FieldValue
  | .null => .ok .null
  | .bool flag => .ok (.bool flag)
  | .int number => .ok (.int number)
  | .float number => .ok (.float number)
  | .str text => .ok (.str text)
  | .arr items =>
      match runtime.fields items with
      | some fields => .ok (.list fields)
      | none => .error .validationError
  | .obj _ => .error .validationError

def pageNumber : JsonValue → Option Int
  | .int number => if 1 ≤ number then some number else none
  | .bool true => some 1
  | _ => none

/-! ## Fields -/

abbrev rowItems : Field → List Field := Schema.itemsSpecs

def scalarFromPayload (spec : Field) (payload : Members) :
    Except PyError ExtractedField := do
  let value ← Schema.coerceScalar runtime spec.type (get "value" payload)
  let confidence ← clamp01 runtime
    ((lookup "confidence" payload).getD (.float 0))
  let page ← intOrNone runtime (get "page" payload)
  let page := if value = .null then none else page
  let bbox :=
    if value = .null then none
    else Schema.clampBbox runtime (get "bbox" payload)
  let validated ← fieldValue runtime value
  return {
    name := spec.name
    value := validated
    pages := page.toList
    confidence
    bbox
    notes := maybeStr (get "notes" payload) }

def cellFromRow (row : Members) (item : Field) :
    Except PyError ExtractedField :=
  match lookup item.name row with
  | some (.obj payload) => scalarFromPayload runtime item payload
  | _ => .ok { name := item.name, value := .null }

/-- The loop over the rows.  The pages collected so far go into every row. -/
def rowsFromPayload (items : List Field) (index : Nat) (pageSet : List Int) :
    List JsonValue → Except PyError (List ExtractedField × List Int)
  | [] => .ok ([], pageSet)
  | .obj row :: rows => do
      let cells ← items.mapM (cellFromRow runtime row)
      let pageSet := pageSet ++ cells.flatMap ExtractedField.pages
      let (fields, pages) ← rowsFromPayload items (index + 1) pageSet rows
      return ({
        name := "row_" ++ toString (index + 1)
        value := .list cells
        pages := sorted pageSet } :: fields, pages)
  | _ :: rows => rowsFromPayload items (index + 1) pageSet rows

theorem validation_of_rowsFromPayload {items : List Field} {index : Nat}
    {pageSet pages : List Int} {rows : List JsonValue}
    {fields : List ExtractedField}
    (h : rowsFromPayload runtime items index pageSet rows =
      .ok (fields, pages)) : ∀ row ∈ fields, row.validation = {} := by
  fun_induction rowsFromPayload runtime items index pageSet rows
    generalizing fields pages with
  | case1 => cases h; simp
  | case2 index pageSet row rows ih =>
      simp only [bind_eq_ok_iff] at h
      obtain ⟨cells, -, ⟨rest, restPages⟩, hrest, h⟩ := h
      cases h
      rintro field (_ | ⟨_, hfield⟩)
      · rfl
      · exact ih cells hrest field hfield
  | case3 index pageSet other rows _ ih => exact ih h

def arrayFromPayload (spec : Field) (payload : Members) :
    Except PyError ExtractedField := do
  let rows ← elements (get "rows" payload)
  let (fields, pageSet) ←
    rowsFromPayload runtime (rowItems spec) 0 [] rows
  let pages ← elements (get "pages" payload)
  let confidence ← clamp01 runtime
    ((lookup "confidence" payload).getD (.float 0))
  return {
    name := spec.name
    value := .list fields
    pages := sorted (pages.filterMap pageNumber ++ pageSet)
    confidence
    notes := maybeStr (get "notes" payload) }

def fieldFromPayload (spec : Field) (payload : Members) :
    Except PyError ExtractedField :=
  if spec.type = .array then arrayFromPayload runtime spec payload
  else scalarFromPayload runtime spec payload

/-! ## Groups -/

def groupFromOutput (output : Members) (group : FieldGroup) :
    Except PyError ExtractedFieldGroup := do
  let payload := orEmpty (get group.name output)
  let fields ← group.fields.mapM fun spec =>
    fieldFromPayload runtime spec (orEmpty (get spec.name payload))
  return { name := group.name, fields }

def normaliseDoc (output : Members) (doc : DocumentTypeSpec) :
    Except PyError (List ExtractedFieldGroup) :=
  doc.fieldGroups.mapM (groupFromOutput runtime output)

/-- The answer of the agent, validated against the output model and then
normalised.  The model is built before the agent is asked. -/
def normalised (doc : DocumentTypeSpec) (payload : JsonValue) :
    Except PyError (List ExtractedFieldGroup) := do
  let model ← Schema.buildExtractionOutputModel runtime doc
  match model.validate payload with
  | some (.obj output) => normaliseDoc runtime output doc
  | _ => throw .validationError

theorem normalised_eq_ok_iff {doc : DocumentTypeSpec} {payload : JsonValue}
    {groups : List ExtractedFieldGroup} :
    normalised runtime doc payload = .ok groups ↔
      Schema.refusesOutput doc = false ∧ ∃ output,
        (Schema.createModel (Schema.outputFields runtime doc)).validate
          payload = some (.obj output) ∧
        normaliseDoc runtime output doc = .ok groups := by
  unfold normalised Schema.buildExtractionOutputModel
  cases Schema.refusesOutput doc with
  | true => simp [bind, Except.bind]
  | false =>
      simp only [Bool.false_eq_true, if_false, bind, Except.bind, true_and]
      split
      · rename_i output houtput
        simp [houtput]
      · rename_i hother
        simp only [throw, throwThe, MonadExceptOf.throw, reduceCtorEq,
          false_iff]
        rintro ⟨output, houtput, -⟩
        exact hother output houtput

end Postprocess

end Flydocs
