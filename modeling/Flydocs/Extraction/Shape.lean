import Flydocs.Extraction.FieldKeys

/-!
# The shape of an extraction

What is extracted mirrors what is declared: rows below arrays, members below
objects.  The members of an object are not read from an object, so that shape is
lost, and so is the run, unless the answer has it already.
-/

namespace Flydocs

open Foundation Dtos JsonValue

namespace Postprocess

/-! ## Shapes -/

/-- A field below which all that is declared stands in its order. -/
inductive Mirrors : Field → ExtractedField → Prop where
  | scalar {spec : Field} {field : ExtractedField}
      (harray : spec.type ≠ .array) (hobject : spec.type ≠ .object)
      (hname : field.name = spec.name)
      (hvalue : ∀ items, field.value ≠ .list items) : Mirrors spec field
  | array {spec : Field} {field : ExtractedField}
      (harray : spec.type = .array) (hname : field.name = spec.name)
      (hvalue : field.value = .null ∨ ∃ rows, field.value = .list rows)
      (hrows : ∀ row ∈ field.items,
        List.Forall₂ Mirrors (rowItems spec) row.items) : Mirrors spec field
  | object {spec : Field} {field : ExtractedField}
      (hobject : spec.type = .object) (hname : field.name = spec.name)
      (hvalue : ∃ members, field.value = .list members)
      (hmembers : List.Forall₂ Mirrors (spec.fields.getD []) field.items) :
      Mirrors spec field

def rowMembers (payload : Members) : List Members :=
  (FieldKeys.rowsOf payload).map orEmpty

variable (runtime : Runtime)

/-- The field has its shape, and an array has all the rows of its own answer. -/
structure Reflects (spec : Field) (own : Members) (field : ExtractedField) :
    Prop where
  mirrors : Mirrors spec field
  rows : spec.type = .array → List.Forall₂ (fun row extracted =>
    (rowItems spec).mapM (cellFromRow runtime row) = .ok extracted.items)
    (rowMembers own) field.items

/-- A value that reads as what is declared: numbers have a float, and what is
declared with rows or members is a list of extracted fields that has them. -/
def Readable (spec : Field) (raw : JsonValue) : Prop :=
  match spec.type with
  | .string | .boolean => True
  | .number | .integer => ∀ number, raw = .int number →
      (PythonNumber.floatOfInt number).isSome = true
  | .array => raw = .null ∨ raw = .str "" ∨ ∃ items rows, raw = .arr items ∧
      runtime.fields items = some rows ∧
      ∀ row ∈ rows, List.Forall₂ Mirrors (rowItems spec) row.items
  | .object => ∃ items members, raw = .arr items ∧
      runtime.fields items = some members ∧
      List.Forall₂ Mirrors (spec.fields.getD []) members

def cellValue (row : Members) (item : Field) : JsonValue :=
  get "value" (orEmpty (get item.name row))

/-- What is read for a field is readable, and its rows read like its own. -/
def Answers (spec : Field) (payload own : Members) : Prop :=
  if spec.type = .array then
    (∀ row ∈ rowMembers payload, ∀ item ∈ rowItems spec,
      Readable runtime item (cellValue row item)) ∧
    List.Forall₂ (fun kept row =>
      (rowItems spec).mapM (cellFromRow runtime kept) =
        (rowItems spec).mapM (cellFromRow runtime row))
      (rowMembers payload) (rowMembers own)
  else Readable runtime spec (get "value" payload)

/-! ## Payloads -/

structure Plain (payload : Members) : Prop where
  confidence : ∃ confidence,
    (lookup "confidence" payload).getD (.float 0) = .float confidence
  page : get "page" payload = .null ∨
    ∃ number, get "page" payload = .int number

def PlainRow (row : Members) : Prop :=
  ∀ name, get name row = .null ∨ ∃ cell, get name row = .obj cell ∧ Plain cell

structure Tabular (payload : Members) : Prop extends Plain payload where
  rows : get "rows" payload = .null ∨ ∃ rows, get "rows" payload = .arr rows
  pages : get "pages" payload = .null ∨ ∃ pages, get "pages" payload = .arr pages
  members : ∀ row ∈ FieldKeys.rowsOf payload, ∃ members, row = .obj members ∧
    PlainRow members

section

variable {runtime : Runtime}

theorem eq_default_or_read {field : AliasedField} {given : Option JsonValue}
    {answer : JsonValue} (h : field.answer given = some answer) :
    answer = field.default ∨ ∃ json, field.read json = some answer := by
  cases given with
  | none =>
      cases h
      exact .inl rfl
  | some json => exact .inr ⟨json, h⟩

theorem float_of_confidence {given : Option JsonValue} {answer : JsonValue}
    (h : (Schema.confidenceField runtime).answer given = some answer) :
    ∃ confidence, answer = .float confidence := by
  rcases eq_default_or_read h with hdefault | ⟨json, hread⟩
  · exact ⟨0, hdefault⟩
  · obtain ⟨value, -, hvalue⟩ := Option.bind_eq_some_iff.mp hread
    split at hvalue
    · cases hvalue
      exact ⟨value, rfl⟩
    · cases hvalue

theorem int_of_readNullable {check : Int → Bool} {json answer : JsonValue}
    (h : Schema.readNullable runtime.scalars.int .int check json =
      some answer) :
    answer = .null ∨ ∃ number, answer = .int number := by
  unfold Schema.readNullable at h
  split at h
  · cases h
    exact .inl rfl
  · obtain ⟨value, -, hvalue⟩ := Option.bind_eq_some_iff.mp h
    split at hvalue
    · cases hvalue
      exact .inr ⟨value, rfl⟩
    · cases hvalue

theorem plain_of_validate {type : FieldType} {json dumped : JsonValue}
    (h : (Schema.scalarFieldModel runtime type).validate json = some dumped) :
    ∃ payload, dumped = .obj payload ∧ Plain payload ∧
      lookup "rows" payload = none ∧ lookup "pages" payload = none := by
  obtain ⟨members, rfl⟩ := AliasedModel.exists_of_validate h
  obtain ⟨answers, hanswers, rfl⟩ := AliasedModel.validate_eq_some_iff.mp h
  simp only [Schema.scalarFieldModel, List.forall₂_cons_left_iff,
    List.forall₂_nil_left_iff] at hanswers
  obtain ⟨value, _, -, ⟨confidence, _, hconfidence, ⟨page, _, hpage,
    ⟨bbox, _, -, ⟨notes, _, -, rfl, rfl⟩, rfl⟩, rfl⟩, rfl⟩, rfl⟩ := hanswers
  obtain ⟨confidence, rfl⟩ := float_of_confidence hconfidence
  refine ⟨_, rfl, ⟨⟨confidence, rfl⟩, ?_⟩, rfl, rfl⟩
  change page = .null ∨ ∃ number, page = .int number
  rcases eq_default_or_read hpage with hdefault | ⟨given, hread⟩
  · exact .inl hdefault
  · exact int_of_readNullable hread

theorem exists_item_of_answer {Item : Type} {fallback : String}
    {name : Item → String} {model : Item → AliasedModel} {items : List Item}
    {given : Members} {answers : List JsonValue}
    (h : List.Forall₂ (fun field answer =>
      field.answer (field.given given) = some answer)
      (Schema.createModel (Schema.fieldsOf fallback name model items)) answers)
    {answer : JsonValue} (hmem : answer ∈ answers) :
    ∃ item ∈ items, ∃ json, (model item).validate json = some answer := by
  obtain ⟨field, hfield, hanswer⟩ := exists_of_forall₂ h hmem
  obtain ⟨item, hentry⟩ :=
    FieldKeys.exists_entry (List.mem_of_mem_filter hfield)
  obtain ⟨-, hread, hdefault, -⟩ := FieldKeys.entry_fieldsOf _ _ _ _ hentry
  exact ⟨item, (List.of_mem_zip hentry).2, _,
    FieldKeys.validate_of_answer hread hdefault hanswer⟩

theorem cells_of_validate {items : List Field} {json row : JsonValue}
    (h : (Schema.rowModel runtime items).validate json = some row) :
    ∃ members, row = .obj members ∧ PlainRow members := by
  obtain ⟨given, rfl⟩ := AliasedModel.exists_of_validate h
  obtain ⟨answers, hanswers, rfl⟩ := AliasedModel.validate_eq_some_iff.mp h
  refine ⟨_, rfl, fun name => ?_⟩
  unfold get
  rw [lookup_ofItems]
  cases hlast : lookupLast Prod.fst
      ((Schema.rowModel runtime items).names.zip answers) name with
  | none => exact .inl rfl
  | some entry =>
      have hmem := List.of_mem_zip (mem_of_lookupLast hlast)
      obtain ⟨item, -, given, hcell⟩ := exists_item_of_answer hanswers hmem.2
      obtain ⟨payload, hpayload, hplain, -, -⟩ := plain_of_validate hcell
      exact .inr ⟨payload, hpayload, hplain⟩

theorem tabular_of_validate {spec : Field} {json dumped : JsonValue}
    (h : (Schema.fieldModel runtime spec).validate json = some dumped) :
    Tabular (orEmpty dumped) := by
  unfold Schema.fieldModel at h
  split at h
  · obtain ⟨members, rfl⟩ := AliasedModel.exists_of_validate h
    obtain ⟨items, rows, rfl, hlookup, hrows⟩ := FieldKeys.rows_of_validate h
    obtain ⟨answers, hanswers, hdump⟩ := AliasedModel.validate_eq_some_iff.mp h
    simp only [Schema.arrayFieldModel, List.forall₂_cons_left_iff,
      List.forall₂_nil_left_iff] at hanswers
    obtain ⟨first, _, -, ⟨pages, _, hpages, ⟨confidence, _, hconfidence,
      ⟨notes, _, -, rfl, rfl⟩, rfl⟩, rfl⟩, rfl⟩ := hanswers
    obtain ⟨confidence, rfl⟩ := float_of_confidence hconfidence
    obtain rfl := JsonValue.obj.inj hdump
    obtain rfl := Option.some.inj hlookup
    have hlist : ∃ items, pages = .arr items := by
      rcases eq_default_or_read hpages with hdefault | ⟨json, hread⟩
      · exact ⟨[], hdefault⟩
      · cases json with
        | arr items =>
            obtain ⟨items, -, hitems⟩ := Option.map_eq_some_iff.mp hread
            exact ⟨items, hitems.symm⟩
        | _ => cases hread
    obtain ⟨items, rfl⟩ := hlist
    refine ⟨⟨⟨confidence, rfl⟩, .inl rfl⟩, .inr ⟨rows, rfl⟩, .inr ⟨items, rfl⟩, ?_⟩
    intro row hrow
    obtain ⟨given, -, hgiven⟩ := exists_of_forall₂ hrows hrow
    exact cells_of_validate hgiven
  · obtain ⟨payload, rfl, hplain, hrows, hpages⟩ := plain_of_validate h
    refine ⟨hplain, .inl ?_, .inl ?_, ?_⟩
    · simp [orEmpty, get, hrows]
    · simp [orEmpty, get, hpages]
    · simp [orEmpty, FieldKeys.rowsOf, hrows]

/-! ## One field -/

theorem orDefault_eq_ok_iff {Value : Type} {default : Value}
    {outcome : Except PyError Value} :
    (∃ value, Schema.orDefault default outcome = .ok value) ↔
      outcome ≠ .error .overflowError := by
  cases outcome with
  | ok value => simp [Schema.orDefault]
  | error failure => cases failure <;> simp [Schema.orDefault]

theorem toFloat_overflow_iff {raw : JsonValue} :
    Schema.toFloat runtime raw = .error .overflowError ↔
      ∃ number, raw = .int number ∧ PythonNumber.floatOfInt number = none := by
  cases raw with
  | int number =>
      simp only [Schema.toFloat]
      cases hfloat : PythonNumber.floatOfInt number <;> simp [hfloat]
  | str text =>
      simp only [Schema.toFloat]
      cases runtime.float text <;> simp
  | _ => simp [Schema.toFloat]

theorem exists_number_iff {raw : JsonValue} {convert : Rat → JsonValue} :
    (∃ value, Schema.orDefault .null
      ((Schema.toFloat runtime raw).map convert) = .ok value) ↔
      ∀ number, raw = .int number →
        (PythonNumber.floatOfInt number).isSome = true := by
  have hmap : (Schema.toFloat runtime raw).map convert =
      .error .overflowError ↔
      Schema.toFloat runtime raw = .error .overflowError := by
    cases Schema.toFloat runtime raw <;> simp [Except.map]
  rw [orDefault_eq_ok_iff, ne_eq, hmap, toFloat_overflow_iff]
  simp [Option.isSome_iff_ne_none]

theorem exists_coerceScalar_iff {spec : Field} (harray : spec.type ≠ .array)
    (hobject : spec.type ≠ .object) {raw : JsonValue} :
    (∃ value, Schema.coerceScalar runtime spec.type raw = .ok value) ↔
      Readable runtime spec raw := by
  unfold Schema.coerceScalar Readable
  by_cases hempty : raw = .null ∨ raw = .str ""
  · rcases hempty with rfl | rfl <;> cases htype : spec.type <;> simp_all
  · simp only [if_neg hempty]
    cases htype : spec.type with
    | string => simp
    | boolean => simp
    | number => exact exists_number_iff
    | integer => exact exists_number_iff
    | array => exact absurd htype harray
    | object => exact absurd htype hobject

theorem fieldValue_of_coerceScalar {type : FieldType} (harray : type ≠ .array)
    (hobject : type ≠ .object) {raw value : JsonValue}
    (h : Schema.coerceScalar runtime type raw = .ok value) :
    ∃ final, fieldValue runtime value = .ok final ∧
      ∀ items, final ≠ .list items := by
  have hnumber {convert : Rat → JsonValue}
      (hconvert : ∀ number, ∃ final,
        fieldValue runtime (convert number) = .ok final ∧
          ∀ items, final ≠ .list items)
      (hvalue : Schema.orDefault .null
        ((Schema.toFloat runtime raw).map convert) = .ok value) :
      ∃ final, fieldValue runtime value = .ok final ∧
        ∀ items, final ≠ .list items := by
    cases hfloat : Schema.toFloat runtime raw with
    | ok number =>
        rw [hfloat] at hvalue
        cases hvalue
        exact hconvert number
    | error failure =>
        rw [hfloat] at hvalue
        cases failure <;> cases hvalue <;>
          exact ⟨.null, rfl, fun items hitems => by cases hitems⟩
  unfold Schema.coerceScalar at h
  split at h
  · cases h
    exact ⟨.null, rfl, fun items hitems => by cases hitems⟩
  · cases type with
    | string =>
        cases h
        split <;> exact ⟨.str _, rfl, fun items hitems => by cases hitems⟩
    | boolean =>
        cases h
        split <;> exact ⟨.bool _, rfl, fun items hitems => by cases hitems⟩
    | number =>
        exact hnumber (fun number => ⟨.float number, rfl, fun items hitems => by
          cases hitems⟩) h
    | integer =>
        exact hnumber (fun number => ⟨.int _, rfl, fun items hitems => by
          cases hitems⟩) h
    | array => exact absurd rfl harray
    | object => exact absurd rfl hobject

theorem Mirrors.congr {spec : Field} {field other : ExtractedField}
    (hname : field.name = other.name) (hvalue : field.value = other.value)
    (h : Mirrors spec field) : Mirrors spec other := by
  have hitems : field.items = other.items := by
    rw [ExtractedField.items, hvalue, ExtractedField.items]
  cases h with
  | scalar harray hobject hfield hscalar =>
      exact .scalar harray hobject (hname ▸ hfield) (hvalue ▸ hscalar)
  | array harray hfield hlist hrows =>
      exact .array harray (hname ▸ hfield) (hvalue ▸ hlist) (hitems ▸ hrows)
  | object hobject hfield hlist hmembers =>
      exact .object hobject (hname ▸ hfield) (hvalue ▸ hlist)
        (hitems ▸ hmembers)

def ReadAs (runtime : Runtime) (spec : Field) (raw : JsonValue)
    (final : FieldValue) : Prop :=
  (∃ value, Schema.coerceScalar runtime spec.type raw = .ok value ∧
    fieldValue runtime value = .ok final) ∧
  Mirrors spec { name := spec.name, value := final }

theorem coerceScalar_of_raw {type : FieldType}
    (htype : type = .array ∨ type = .object) {raw : JsonValue} :
    Schema.coerceScalar runtime type raw =
      .ok (if raw = .null ∨ raw = .str "" then .null else raw) := by
  unfold Schema.coerceScalar
  split
  · rfl
  · rcases htype with rfl | rfl <;> rfl

theorem fieldValue_eq_list_iff {value : JsonValue}
    {members : List ExtractedField} :
    fieldValue runtime value = .ok (.list members) ↔
      ∃ items, value = .arr items ∧ runtime.fields items = some members := by
  cases value with
  | arr items =>
      simp only [fieldValue]
      cases hfields : runtime.fields items <;> simp [hfields]
  | _ => simp [fieldValue]

theorem fieldValue_eq_null_iff {value : JsonValue} :
    fieldValue runtime value = .ok .null ↔ value = .null := by
  cases value with
  | arr items =>
      simp only [fieldValue]
      cases runtime.fields items <;> simp
  | _ => simp [fieldValue]

theorem mirrors_array_iff {spec : Field} (harray : spec.type = .array)
    {final : FieldValue} :
    Mirrors spec { name := spec.name, value := final } ↔
      final = .null ∨ ∃ rows, final = .list rows ∧
        ∀ row ∈ rows, List.Forall₂ Mirrors (rowItems spec) row.items := by
  constructor
  · intro h
    cases h with
    | scalar hnot => exact absurd harray hnot
    | array _ _ hvalue hrows =>
        rcases hvalue with hvalue | ⟨rows, hvalue⟩
        · exact .inl hvalue
        · obtain rfl : final = .list rows := hvalue
          exact .inr ⟨rows, rfl, hrows⟩
    | object hobject => simp [harray] at hobject
  · rintro (rfl | ⟨rows, rfl, hrows⟩)
    · exact .array harray rfl (.inl rfl) fun row hrow => by cases hrow
    · exact .array harray rfl (.inr ⟨rows, rfl⟩) hrows

theorem mirrors_object_iff {spec : Field} (hobject : spec.type = .object)
    {final : FieldValue} :
    Mirrors spec { name := spec.name, value := final } ↔
      ∃ members, final = .list members ∧
        List.Forall₂ Mirrors (spec.fields.getD []) members := by
  constructor
  · intro h
    cases h with
    | scalar _ hnot => exact absurd hobject hnot
    | array harray => simp [hobject] at harray
    | object _ _ hvalue hmembers =>
        obtain ⟨members, hvalue⟩ := hvalue
        obtain rfl : final = .list members := hvalue
        exact ⟨members, rfl, hmembers⟩
  · rintro ⟨members, rfl, hmembers⟩
    exact .object hobject rfl ⟨members, rfl⟩ hmembers

theorem readAs_array_iff {spec : Field} (harray : spec.type = .array)
    {raw : JsonValue} :
    (∃ final, ReadAs runtime spec raw final) ↔ Readable runtime spec raw := by
  simp only [ReadAs, Readable, harray, coerceScalar_of_raw (.inl rfl),
    Except.ok.injEq, exists_eq_left', mirrors_array_iff harray]
  constructor
  · rintro ⟨final, hfinal, rfl | ⟨rows, rfl, hrows⟩⟩
    · have hnull := fieldValue_eq_null_iff.mp hfinal
      grind
    · obtain ⟨items, hitems, hfields⟩ := fieldValue_eq_list_iff.mp hfinal
      split at hitems
      · cases hitems
      · exact .inr (.inr ⟨items, rows, hitems, hfields, hrows⟩)
  · rintro (rfl | rfl | ⟨items, rows, rfl, hfields, hrows⟩)
    · exact ⟨.null, rfl, .inl rfl⟩
    · exact ⟨.null, rfl, .inl rfl⟩
    · exact ⟨.list rows, fieldValue_eq_list_iff.mpr ⟨items, by simp, hfields⟩,
        .inr ⟨rows, rfl, hrows⟩⟩

theorem readAs_object_iff {spec : Field} (hobject : spec.type = .object)
    {raw : JsonValue} :
    (∃ final, ReadAs runtime spec raw final) ↔ Readable runtime spec raw := by
  simp only [ReadAs, Readable, hobject, coerceScalar_of_raw (.inr rfl),
    Except.ok.injEq, exists_eq_left', mirrors_object_iff hobject]
  constructor
  · rintro ⟨final, hfinal, members, rfl, hmembers⟩
    obtain ⟨items, hitems, hfields⟩ := fieldValue_eq_list_iff.mp hfinal
    split at hitems
    · cases hitems
    · exact ⟨items, members, hitems, hfields, hmembers⟩
  · rintro ⟨items, members, rfl, hfields, hmembers⟩
    exact ⟨.list members, fieldValue_eq_list_iff.mpr ⟨items, by simp, hfields⟩,
      members, rfl, hmembers⟩

theorem readAs_iff {spec : Field} {raw : JsonValue} :
    (∃ final, ReadAs runtime spec raw final) ↔ Readable runtime spec raw := by
  by_cases harray : spec.type = .array
  · exact readAs_array_iff harray
  · by_cases hobject : spec.type = .object
    · exact readAs_object_iff hobject
    · rw [← exists_coerceScalar_iff harray hobject]
      constructor
      · rintro ⟨final, ⟨value, hvalue, -⟩, -⟩
        exact ⟨value, hvalue⟩
      · rintro ⟨value, hvalue⟩
        obtain ⟨final, hfinal, hscalar⟩ :=
          fieldValue_of_coerceScalar harray hobject hvalue
        exact ⟨final, ⟨value, hvalue, hfinal⟩,
          .scalar harray hobject rfl hscalar⟩

theorem exists_scalarFromPayload {spec : Field} {payload : Members}
    (hplain : Plain payload) {value : JsonValue} {final : FieldValue}
    (hvalue : Schema.coerceScalar runtime spec.type (get "value" payload) =
      .ok value) (hfinal : fieldValue runtime value = .ok final) :
    ∃ field, scalarFromPayload runtime spec payload = .ok field ∧
      field.name = spec.name ∧ field.value = final := by
  obtain ⟨confidence, hconfidence⟩ := hplain.confidence
  have hpage : ∃ page, intOrNone runtime (get "page" payload) = .ok page := by
    rcases hplain.page with hpage | ⟨number, hpage⟩
    · exact ⟨none, by rw [hpage]; rfl⟩
    · exact ⟨_, by rw [hpage]; rfl⟩
  obtain ⟨page, hpage⟩ := hpage
  simp only [scalarFromPayload, bind_eq_ok_iff, pure, Except.pure]
  exact ⟨_, ⟨value, hvalue, _, by rw [hconfidence]; rfl, page, hpage, final,
    hfinal, rfl⟩, rfl, rfl⟩

theorem value_of_scalarFromPayload {spec : Field} {payload : Members}
    {field : ExtractedField}
    (h : scalarFromPayload runtime spec payload = .ok field) :
    field.name = spec.name ∧ ∃ value,
      Schema.coerceScalar runtime spec.type (get "value" payload) =
        .ok value ∧ fieldValue runtime value = .ok field.value := by
  simp only [scalarFromPayload, bind_eq_ok_iff, pure, Except.pure] at h
  obtain ⟨value, hvalue, _, -, _, -, final, hfinal, h⟩ := h
  cases h
  exact ⟨rfl, value, hvalue, hfinal⟩

/-- A scalar payload is read, and keeps its shape, exactly when it can be. -/
theorem scalarFromPayload_iff {spec : Field} {payload : Members}
    (hplain : Plain payload) :
    (∃ field, scalarFromPayload runtime spec payload = .ok field ∧
      Mirrors spec field) ↔ Readable runtime spec (get "value" payload) := by
  rw [← readAs_iff]
  constructor
  · rintro ⟨field, hfield, hmirrors⟩
    obtain ⟨hname, hread⟩ := value_of_scalarFromPayload hfield
    exact ⟨field.value, hread, hmirrors.congr hname rfl⟩
  · rintro ⟨final, ⟨value, hvalue, hfinal⟩, hmirrors⟩
    obtain ⟨field, hfield, hname, hvalue⟩ :=
      exists_scalarFromPayload hplain hvalue hfinal
    exact ⟨field, hfield, hmirrors.congr hname.symm hvalue.symm⟩

theorem mirrors_null_iff {spec : Field} :
    Mirrors spec { name := spec.name, value := .null } ↔
      Readable runtime spec .null := by
  rw [← readAs_iff]
  have hcoerced : Schema.coerceScalar runtime spec.type .null = .ok .null := by
    simp [Schema.coerceScalar]
  constructor
  · intro h
    exact ⟨.null, ⟨.null, hcoerced, rfl⟩, h⟩
  · rintro ⟨final, ⟨value, hvalue, hfinal⟩, h⟩
    rw [hcoerced] at hvalue
    cases hvalue
    cases hfinal
    exact h

/-! ## Rows -/

theorem cellFromRow_iff {row : Members} (hrow : PlainRow row) {item : Field} :
    (∃ cell, cellFromRow runtime row item = .ok cell ∧ Mirrors item cell) ↔
      Readable runtime item (cellValue row item) := by
  have hget : get item.name row = (lookup item.name row).getD .null := rfl
  have hempty : get "value" (orEmpty .null) = .null := rfl
  unfold cellFromRow cellValue
  cases hlookup : lookup item.name row with
  | none =>
      rw [hget, hlookup, Option.getD_none, hempty]
      simpa using mirrors_null_iff
  | some json =>
      rcases hrow item.name with hnull | ⟨cell, hcell, hplain⟩
      · rw [hget, hlookup] at hnull
        obtain rfl : json = .null := hnull
        rw [hget, hlookup, Option.getD_some, hempty]
        simpa using mirrors_null_iff
      · rw [hget, hlookup] at hcell
        obtain rfl : json = .obj cell := hcell
        rw [hget, hlookup]
        exact scalarFromPayload_iff hplain

theorem cells_iff {items : List Field} {row : Members} (hrow : PlainRow row) :
    (∃ cells, items.mapM (cellFromRow runtime row) = .ok cells ∧
      List.Forall₂ Mirrors items cells) ↔
      ∀ item ∈ items, Readable runtime item (cellValue row item) := by
  rw [exists_mapM_forall₂_iff]
  exact forall₂_congr fun item _ => cellFromRow_iff hrow

theorem exists_rowsFromPayload {items : List Field} {rows : List JsonValue}
    (hrows : ∀ row ∈ rows, ∃ members, row = .obj members ∧
      ∃ cells, items.mapM (cellFromRow runtime members) = .ok cells)
    (index : Nat) (pageSet : List Int) :
    ∃ result, rowsFromPayload runtime items index pageSet rows =
      .ok result := by
  induction rows generalizing index pageSet with
  | nil => exact ⟨_, rfl⟩
  | cons row rows ih =>
      obtain ⟨members, rfl, cells, hcells⟩ := hrows row (by simp)
      obtain ⟨result, hresult⟩ := ih (fun other hother =>
        hrows other (by simp [hother])) (index + 1)
        (pageSet ++ cells.flatMap ExtractedField.pages)
      simp only [rowsFromPayload, bind_eq_ok_iff]
      exact ⟨_, cells, hcells, result, hresult, rfl⟩

theorem elements_rows {payload : Members} (htabular : Tabular payload) :
    elements (get "rows" payload) = .ok (FieldKeys.rowsOf payload) := by
  have hget : get "rows" payload = (lookup "rows" payload).getD .null := rfl
  unfold FieldKeys.rowsOf
  rcases htabular.rows with hnull | ⟨rows, hrows⟩
  · rw [hnull]
    cases hlookup : lookup "rows" payload with
    | none => rfl
    | some json =>
        rw [hget, hlookup] at hnull
        obtain rfl : json = .null := hnull
        rfl
  · rw [hrows, FieldKeys.elements_arr]
    cases hlookup : lookup "rows" payload with
    | none =>
        rw [hget, hlookup] at hrows
        cases hrows
    | some json =>
        rw [hget, hlookup] at hrows
        obtain rfl : json = .arr rows := hrows
        rfl

theorem arrayFromPayload_rows {spec : Field} {payload : Members}
    (htabular : Tabular payload) {field : ExtractedField}
    (h : arrayFromPayload runtime spec payload = .ok field) :
    (∃ rows, field.value = .list rows) ∧ field.name = spec.name ∧
      List.Forall₂ (fun row extracted =>
        (rowItems spec).mapM (cellFromRow runtime row) = .ok extracted.items)
        (rowMembers payload) field.items := by
  have hname : field.name = spec.name := by
    simp only [arrayFromPayload, bind_eq_ok_iff] at h
    obtain ⟨_, -, _, -, _, -, _, -, h⟩ := h
    cases h
    rfl
  obtain ⟨rows, fields, pages, helements, hfields, hvalue⟩ :=
    FieldKeys.arrayFromPayload_eq_ok h
  rw [elements_rows htabular, Except.ok.injEq] at helements
  subst helements
  refine ⟨⟨fields, hvalue⟩, hname, ?_⟩
  have hrows := FieldKeys.rowsFromPayload_eq_ok (fun row hrow => by
    obtain ⟨members, hmembers, -⟩ := htabular.members row hrow
    exact ⟨members, hmembers⟩) hfields
  rw [ExtractedField.items, hvalue, rowMembers, List.forall₂_map_left_iff]
  refine hrows.imp ?_
  rintro row extracted ⟨members, cells, rfl, hcells, hread⟩
  rw [ExtractedField.items, hcells]
  exact hread

theorem plainRow_of_mem {payload row : Members} (htabular : Tabular payload)
    (hrow : row ∈ rowMembers payload) : PlainRow row := by
  obtain ⟨json, hjson, rfl⟩ := List.mem_map.mp hrow
  obtain ⟨members, rfl, hplain⟩ := htabular.members json hjson
  exact hplain

theorem exists_arrayFromPayload {spec : Field} {payload : Members}
    (htabular : Tabular payload)
    (h : ∀ row ∈ rowMembers payload, ∃ cells,
      (rowItems spec).mapM (cellFromRow runtime row) = .ok cells) :
    ∃ field, arrayFromPayload runtime spec payload = .ok field := by
  obtain ⟨⟨fields, pageSet⟩, hfields⟩ := exists_rowsFromPayload
    (fun row hrow => by
      obtain ⟨members, rfl, -⟩ := htabular.members row hrow
      exact ⟨members, rfl, h members (List.mem_map.mpr ⟨_, hrow, rfl⟩)⟩) 0 []
  obtain ⟨confidence, hconfidence⟩ := htabular.confidence
  have hpages : ∃ pages, elements (get "pages" payload) = .ok pages := by
    rcases htabular.pages with hnull | ⟨pages, hpages⟩
    · exact ⟨[], by rw [hnull]; rfl⟩
    · exact ⟨pages, by rw [hpages, FieldKeys.elements_arr]⟩
  obtain ⟨pages, hpages⟩ := hpages
  simp only [arrayFromPayload, bind_eq_ok_iff]
  exact ⟨_, _, elements_rows htabular, _, hfields, pages, hpages, _, by
    rw [hconfidence]
    rfl, rfl⟩

theorem mirrors_rows {spec : Field} (harray : spec.type = .array)
    {field : ExtractedField} (h : Mirrors spec field) :
    ∀ row ∈ field.items, List.Forall₂ Mirrors (rowItems spec) row.items := by
  cases h with
  | scalar hnot => exact absurd harray hnot
  | array _ _ _ hrows => exact hrows
  | object hobject => simp [harray] at hobject

theorem arrayFromPayload_iff {spec : Field} (harray : spec.type = .array)
    {payload own : Members} (htabular : Tabular payload) :
    (∃ field, arrayFromPayload runtime spec payload = .ok field ∧
      Reflects runtime spec own field) ↔ Answers runtime spec payload own := by
  rw [Answers, if_pos harray]
  constructor
  · rintro ⟨field, hfield, hreflects⟩
    obtain ⟨-, -, hrows⟩ := arrayFromPayload_rows htabular hfield
    constructor
    · intro row hrow
      obtain ⟨extracted, hmem, hcells⟩ :=
        exists_of_forall₂ hrows.flip hrow
      exact (cells_iff (plainRow_of_mem htabular hrow)).mp
        ⟨extracted.items, hcells,
          mirrors_rows harray hreflects.mirrors extracted hmem⟩
    · exact FieldKeys.forall₂_comp hrows (hreflects.rows harray).flip
        fun kept extracted row hkept hrow => hkept.trans hrow.symm
  · rintro ⟨hreadable, hown⟩
    have hcells : ∀ row ∈ rowMembers payload, ∃ cells,
        (rowItems spec).mapM (cellFromRow runtime row) = .ok cells ∧
          List.Forall₂ Mirrors (rowItems spec) cells :=
      fun row hrow => (cells_iff (plainRow_of_mem htabular hrow)).mpr
        (hreadable row hrow)
    obtain ⟨field, hfield⟩ := exists_arrayFromPayload htabular
      fun row hrow => (hcells row hrow).imp fun cells h => h.1
    obtain ⟨hlist, hname, hrows⟩ := arrayFromPayload_rows htabular hfield
    refine ⟨field, hfield, ?_, fun _ => ?_⟩
    · refine .array harray hname (.inr hlist) fun extracted hmem => ?_
      obtain ⟨row, hrow, hread⟩ := exists_of_forall₂ hrows hmem
      obtain ⟨cells, hcells, hmirrors⟩ := hcells row hrow
      rw [hread, Except.ok.injEq] at hcells
      rwa [hcells]
    · exact FieldKeys.forall₂_comp hown.flip hrows
        fun row kept extracted hsame hkept => hsame ▸ hkept

/-! ## All fields -/

theorem fieldFromPayload_iff {spec : Field} {payload own : Members}
    (htabular : Tabular payload) :
    (∃ field, fieldFromPayload runtime spec payload = .ok field ∧
      Reflects runtime spec own field) ↔ Answers runtime spec payload own := by
  unfold fieldFromPayload
  by_cases harray : spec.type = .array
  · simp only [if_pos harray]
    exact arrayFromPayload_iff harray htabular
  · simp only [if_neg harray]
    rw [Answers, if_neg harray, ← scalarFromPayload_iff htabular.toPlain]
    refine exists_congr fun field => and_congr_right fun _ => ?_
    exact ⟨Reflects.mirrors, fun h => ⟨h, fun h => absurd h harray⟩⟩

def fieldPayload (output : Members) (group : FieldGroup) (spec : Field) :
    Members :=
  orEmpty (get spec.name (orEmpty (get group.name output)))

end

end Postprocess

end Flydocs
