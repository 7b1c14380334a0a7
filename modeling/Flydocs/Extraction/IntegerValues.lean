import Flydocs.Extraction.Shape
import Flydocs.Foundation.ExactFloat

/-!
# Integer values

The value of an integer field is an integer when the output model has accepted
it, and is converted to a float and back before it reaches the extracted field.
-/

namespace Flydocs

open Foundation Dtos JsonValue

namespace Postprocess

def Keeps (number : Int) (outcome : Except PyError ExtractedField) : Prop :=
  ∃ field, outcome = .ok field ∧ field.value = .int number

variable (runtime : Runtime)

theorem coerceScalar_integer (number : Int) :
    Schema.coerceScalar runtime .integer (.int number) =
      match PythonNumber.floatOfInt number with
      | some value => .ok (.int (PythonNumber.truncate value))
      | none => .error .overflowError := by
  simp only [Schema.coerceScalar, reduceCtorEq, or_self, if_false,
    Schema.toFloat]
  cases PythonNumber.floatOfInt number <;> rfl

theorem coerceScalar_integer_iff {number : Int} :
    Schema.coerceScalar runtime .integer (.int number) = .ok (.int number) ↔
      PythonNumber.IsFloat number := by
  rw [coerceScalar_integer, ← PythonNumber.truncate_floatOfInt_iff]
  cases PythonNumber.floatOfInt number <;> simp

variable {runtime}

theorem fieldValue_eq_int_iff {value : JsonValue} {number : Int} :
    fieldValue runtime value = .ok (.int number) ↔ value = .int number := by
  cases value with
  | arr items =>
      simp only [fieldValue]
      cases runtime.fields items <;> simp
  | _ => simp [fieldValue]

variable {spec : Field} {payload : Members} {number : Int}

theorem keeps_scalarFromPayload_iff (hinteger : spec.type = .integer)
    (hplain : Plain payload) (hvalue : get "value" payload = .int number) :
    Keeps number (scalarFromPayload runtime spec payload) ↔
      PythonNumber.IsFloat number := by
  rw [← coerceScalar_integer_iff runtime]
  constructor
  · rintro ⟨field, hfield, hkept⟩
    obtain ⟨-, value, hcoerced, hread⟩ := value_of_scalarFromPayload hfield
    rw [hkept, fieldValue_eq_int_iff] at hread
    rwa [hinteger, hvalue, hread] at hcoerced
  · intro hcoerced
    rw [← hinteger, ← hvalue] at hcoerced
    obtain ⟨field, hfield, -, hkept⟩ := exists_scalarFromPayload hplain
      (hcoerced.trans (congrArg _ hvalue)) rfl
    exact ⟨field, hfield, hkept⟩

theorem keeps_cellFromRow_iff (hinteger : spec.type = .integer)
    {row : Members} (hrow : PlainRow row)
    (hvalue : cellValue row spec = .int number) :
    Keeps number (cellFromRow runtime row spec) ↔
      PythonNumber.IsFloat number := by
  unfold cellValue at hvalue
  unfold cellFromRow
  rcases hrow spec.name with hnull | ⟨cell, hcell, hplain⟩
  · rw [hnull] at hvalue
    cases hvalue
  · have hlookup : lookup spec.name row = some (.obj cell) := by
      cases hlookup : lookup spec.name row with
      | none => simp [get, hlookup] at hcell
      | some json => simpa [get, hlookup] using hcell
    rw [hcell] at hvalue
    rw [hlookup]
    exact keeps_scalarFromPayload_iff hinteger hplain hvalue

/-- An accepted integer reaches the extracted field, or the cell of its row,
exactly when a float holds it. -/
theorem integer_kept_iff (runtime : Runtime) {spec : Field}
    (hinteger : spec.type = .integer) (number : Int) :
    (∀ answer payload,
      (Schema.fieldModel runtime spec).validate answer =
          some (.obj payload) →
        get "value" payload = .int number →
          (Keeps number (fieldFromPayload runtime spec payload) ↔
            PythonNumber.IsFloat number)) ∧
    ∀ (parent : Field) answer payload,
      (Schema.fieldModel runtime parent).validate answer =
          some (.obj payload) →
        ∀ row ∈ rowMembers payload, cellValue row spec = .int number →
          (Keeps number (cellFromRow runtime row spec) ↔
            PythonNumber.IsFloat number) := by
  constructor
  · intro answer payload haccepted hvalue
    have harray : spec.type ≠ .array := by simp [hinteger]
    rw [Schema.fieldModel, if_neg harray] at haccepted
    obtain ⟨_, hdumped, hplain, -⟩ := plain_of_validate haccepted
    cases hdumped
    rw [fieldFromPayload, if_neg harray]
    exact keeps_scalarFromPayload_iff hinteger hplain hvalue
  · intro parent answer payload haccepted row hrow hvalue
    exact keeps_cellFromRow_iff hinteger
      (plainRow_of_mem (tabular_of_validate haccepted) hrow) hvalue

def numberSpec : Field where
  name := "number"
  type := .integer

def numberAnswer (number : Int) : JsonValue := .obj [("value", .int number)]

def numberPayload (number : Int) : Members :=
  [("value", .int number), ("confidence", .float 0), ("page", .null),
    ("bbox", Schema.RawBBox.dump {}), ("notes", .null)]

theorem accepted_number (number : Int) :
    (Schema.fieldModel .ofJson numberSpec).validate (numberAnswer number) =
      some (.obj (numberPayload number)) := by
  rfl

def documentsSpec : Field where
  name := "documents"
  type := .array
  items := some { name := "document", type := .object,
                  fields := some [numberSpec] }

def documentRow (number : Int) : Members :=
  [("number", .obj (numberPayload number))]

theorem accepted_documents (number : Int) :
    (Schema.fieldModel .ofJson documentsSpec).validate
        (.obj [("rows", .arr [.obj [("number", numberAnswer number)]])]) =
      some (.obj [("rows", .arr [.obj (documentRow number)]),
        ("pages", .arr []), ("confidence", .float 0), ("notes", .null)]) := by
  rfl

theorem integer_kept_document_number :
    Keeps 20240131 (fieldFromPayload .ofJson numberSpec
        (numberPayload 20240131)) ∧
      Keeps 20240131 (cellFromRow .ofJson (documentRow 20240131)
        numberSpec) := by
  obtain ⟨htop, hrow⟩ := integer_kept_iff .ofJson
    (show numberSpec.type = .integer from rfl) 20240131
  have hfloat : PythonNumber.IsFloat 20240131 :=
    PythonNumber.isFloat_of_lt (by decide)
  exact ⟨(htop _ _ (accepted_number 20240131) rfl).mpr hfloat,
    (hrow _ _ _ (accepted_documents 20240131) _
      (List.mem_singleton.mpr rfl) rfl).mpr hfloat⟩

/-- `2 ^ 53 + 1` is read as `2 ^ 53`. -/
theorem not_integer_kept :
    ¬ ∀ (runtime : Runtime) (spec : Field), spec.type = .integer →
      ∀ (number : Int) answer payload,
        (Schema.fieldModel runtime spec).validate answer =
            some (.obj payload) →
          get "value" payload = .int number →
            Keeps number (fieldFromPayload runtime spec payload) := by
  intro h
  have hkeeps := h .ofJson numberSpec rfl 9007199254740993 _ _
    (accepted_number _) rfl
  have hplain : Plain (numberPayload 9007199254740993) :=
    ⟨⟨0, rfl⟩, .inl rfl⟩
  obtain ⟨hsignificant, -⟩ := (keeps_scalarFromPayload_iff rfl hplain rfl).mp
    hkeeps
  rw [← PythonNumber.roundToFloat_eq_self_iff] at hsignificant
  revert hsignificant
  decide

end Postprocess

end Flydocs
