import Flydocs.Extraction.FieldKeys
import Flydocs.Validation.Positions
import Flydocs.Validation.Run

/-!
# Validation at depth

The validator descends into the rows of a declared array that are objects, and
no further: items that are no objects, members and nested arrays keep what they
came with, and no row is ever marked for what is in it.
-/

namespace Flydocs

open Foundation Dtos JsonValue

namespace FieldValidator

open Positions

variable (self : FieldValidator)

def Violates (spec : Field) (value : FieldValue) : Prop :=
  hardErrors (self.runConstraints spec value) ≠ []

/-! ## Coverage -/

/-- Below a field everything is checked against its own declaration, and what is
violated invalidates all that encloses it. -/
def CoveredBelow (spec : Field) (field validated : ExtractedField) : Prop :=
  ∀ path subSpec sub, path ≠ [] → specAt spec field path = some subSpec →
    itemAt field path = some sub →
    (∃ checked, itemAt validated path = some checked ∧
      checked.validation.errors = self.runConstraints subSpec sub.value) ∧
    (self.Violates subSpec sub.value → ∀ outer, outer <+: path →
      ∃ encloser, itemAt validated outer = some encloser ∧
        encloser.validation.valid = false)

def Covered (specGroups : List FieldGroup)
    (groups validated : List ExtractedFieldGroup) : Prop :=
  ∀ group index spec field, declaredAt specGroups groups group index = some spec →
    fieldAt groups group index = some field →
    ∃ result, fieldAt validated group index = some result ∧
      self.CoveredBelow spec field result

/-! ## What carries the coverage -/

def RecordsOwn (bound : Option Field) (field : ExtractedField) (path : List Nat)
    (subSpec : Field) (sub : ExtractedField) : Prop :=
  match bound.bind fun bound => checkedAt bound field path with
  | some column =>
      self.runConstraints column sub.value = self.runConstraints subSpec sub.value
  | none => sub.validation.errors = self.runConstraints subSpec sub.value

def TopInvalid (bound : Option Field) (field : ExtractedField) : Prop :=
  match bound with
  | none => field.validation.valid = false
  | some spec =>
      if spec.type = .array then
        ∃ row ∈ field.items, ∃ cell ∈ row.items, ∃ column,
          subSpecFor spec cell.name = some column ∧
            self.Violates column cell.value
      else self.Violates spec field.value

def ItemInvalid (bound : Option Field) (field : ExtractedField) (path : List Nat)
    (item : ExtractedField) : Prop :=
  match bound.bind fun bound => checkedAt bound field path with
  | some column => self.Violates column item.value
  | none => item.validation.valid = false

/-- A violation below an array is never carried to the row that it is in. -/
def Carries (bound : Option Field) (spec : Field) (field : ExtractedField)
    (path : List Nat) (subSpec : Field) (sub : ExtractedField) : Prop :=
  self.RecordsOwn bound field path subSpec sub ∧
    (self.Violates subSpec sub.value →
      spec.type ≠ .array ∧ self.TopInvalid bound field ∧
        ∀ outer encloser, outer ≠ [] → outer <+: path →
          itemAt field outer = some encloser →
          self.ItemInvalid bound field outer encloser)

section

variable {self : FieldValidator} {bound : Option Field} {spec : Field}
  {field : ExtractedField}

theorem valid_verdict_eq_false_iff {item : ExtractedField} :
    (self.verdict spec item).valid = false ↔ self.Violates spec item.value := by
  simp [verdict, Violates]

theorem cellValid_eq_false_iff {cell : ExtractedField} :
    self.cellValid spec cell = false ↔ ∃ column,
      subSpecFor spec cell.name = some column ∧
        self.Violates column cell.value := by
  unfold cellValid
  cases subSpecFor spec cell.name with
  | none => simp
  | some column => simp [valid_verdict_eq_false_iff]

theorem valid_validateBound_eq_false_iff :
    (validateBound self bound field).validation.valid = false ↔
      self.TopInvalid bound field := by
  cases bound with
  | none => exact Iff.rfl
  | some spec =>
      unfold validateBound validateField TopInvalid
      by_cases harray : spec.type = .array
      · simp only [if_pos harray, valid_validateArray, List.all_eq_false,
          rowValid_eq_all, Bool.not_eq_true, cellValid_eq_false_iff]
      · simp only [if_neg harray]
        exact valid_verdict_eq_false_iff

theorem recordsOwn_iff {path : List Nat} {subSpec : Field} {sub : ExtractedField}
    (hpath : path ≠ []) (hsub : itemAt field path = some sub) :
    (∃ checked, itemAt (validateBound self bound field) path = some checked ∧
      checked.validation.errors = self.runConstraints subSpec sub.value) ↔
      self.RecordsOwn bound field path subSpec sub := by
  obtain ⟨validated, hvalidated, hverdict⟩ :=
    @itemAt_validateBound self bound _ _ _ hpath hsub
  rw [hvalidated]
  simp only [Option.some.injEq, exists_eq_left', hverdict, verdictAt, RecordsOwn]
  cases bound.bind fun bound => checkedAt bound field path <;> exact Iff.rfl

theorem itemInvalid_iff {path : List Nat} {item : ExtractedField}
    (hpath : path ≠ []) (hitem : itemAt field path = some item) :
    (∃ encloser, itemAt (validateBound self bound field) path = some encloser ∧
      encloser.validation.valid = false) ↔
      self.ItemInvalid bound field path item := by
  obtain ⟨validated, hvalidated, hverdict⟩ :=
    @itemAt_validateBound self bound _ _ _ hpath hitem
  rw [hvalidated]
  simp only [Option.some.injEq, exists_eq_left', hverdict, verdictAt,
    ItemInvalid]
  cases bound.bind fun bound => checkedAt bound field path with
  | none => exact Iff.rfl
  | some column => exact valid_verdict_eq_false_iff

theorem exists_itemAt_above {outer path : List Nat} {sub : ExtractedField}
    (houter : outer <+: path) (hsub : itemAt field path = some sub) :
    ∃ encloser, itemAt field outer = some encloser := by
  induction outer generalizing field path with
  | nil => exact ⟨field, rfl⟩
  | cons index outer ih =>
      obtain ⟨rest, rfl⟩ := houter
      simp only [List.cons_append, itemAt, Option.bind_eq_some_iff] at hsub ⊢
      obtain ⟨item, hitem, hsub⟩ := hsub
      obtain ⟨encloser, hencloser⟩ := ih ⟨rest, rfl⟩ hsub
      exact ⟨encloser, item, hitem, hencloser⟩

theorem not_itemInvalid_row {index : Nat} {row : ExtractedField}
    (hrow : row.validation.valid = true) :
    ¬ self.ItemInvalid bound field [index] row := by
  have hchecked : (bound.bind fun bound => checkedAt bound field [index]) =
      none := by
    cases bound <;> rfl
  simp [ItemInvalid, hchecked, hrow]

theorem coveredBelow_iff (hrows : spec.type = .array →
      ∀ row ∈ field.items, row.validation.valid = true) :
    self.CoveredBelow spec field (validateBound self bound field) ↔
      ∀ path subSpec sub, path ≠ [] → specAt spec field path = some subSpec →
        itemAt field path = some sub →
        self.Carries bound spec field path subSpec sub := by
  unfold CoveredBelow Carries
  refine forall_congr' fun path => forall₂_congr fun subSpec sub =>
    forall₃_congr fun hpath _ hsub => ?_
  refine and_congr (recordsOwn_iff hpath hsub)
    (imp_congr_right fun _ => ?_)
  constructor
  · intro hinvalid
    have hitems (outer : List Nat) (encloser : ExtractedField)
        (hne : outer ≠ []) (houter : outer <+: path)
        (hencloser : itemAt field outer = some encloser) :
        self.ItemInvalid bound field outer encloser :=
      (itemInvalid_iff hne hencloser).mp (hinvalid outer houter)
    refine ⟨fun harray => ?_, ?_, hitems⟩
    · obtain ⟨index, rest, rfl⟩ := List.exists_cons_of_ne_nil hpath
      obtain ⟨row, hrow, -⟩ := Option.bind_eq_some_iff.mp hsub
      have hmem := hrows harray row (List.mem_of_getElem? hrow)
      exact not_itemInvalid_row hmem (hitems [index] row (by simp) (by simp)
        (by simp [itemAt, hrow]))
    · obtain ⟨encloser, hencloser, hvalid⟩ := hinvalid [] List.nil_prefix
      cases hencloser
      exact valid_validateBound_eq_false_iff.mp hvalid
  · rintro ⟨-, htop, hitems⟩ outer houter
    by_cases hne : outer = []
    · subst hne
      exact ⟨_, rfl, valid_validateBound_eq_false_iff.mpr htop⟩
    · obtain ⟨encloser, hencloser⟩ := exists_itemAt_above houter hsub
      exact (itemInvalid_iff hne hencloser).mpr
        (hitems outer encloser hne houter hencloser)

end

/-! ## Normalised extractions -/

section

variable {runtime : Runtime}

theorem rows_of_fieldFromPayload {spec : Field} {payload : Members}
    {field : ExtractedField} (harray : spec.type = .array)
    (h : Postprocess.fieldFromPayload runtime spec payload = .ok field) :
    ∀ row ∈ field.items, row.validation = {} := by
  rw [Postprocess.fieldFromPayload, if_pos harray] at h
  simp only [Postprocess.arrayFromPayload, bind_eq_ok_iff] at h
  obtain ⟨_, -, ⟨fields, pages⟩, hfields, _, -, _, -, h⟩ := h
  cases h
  exact Postprocess.validation_of_rowsFromPayload runtime hfields

theorem own_of_getElem {Item : Type} {name : Item → String}
    {declared : List Item} {index : Nat} {item : Item}
    (h : declared[index]? = some item) :
    own name declared index (name item) = some item := by
  simp [own, h]

theorem getElem_of_mapM {Item Result : Type} {Error : Type}
    {step : Item → Except Error Result} {items : List Item}
    {results : List Result} (h : items.mapM step = .ok results) {index : Nat}
    {result : Result} (hresult : results[index]? = some result) :
    ∃ item, items[index]? = some item ∧ step item = .ok result := by
  obtain ⟨hlt, rfl⟩ := List.getElem?_eq_some_iff.mp hresult
  have hsteps := mapM_eq_ok_iff.mp h
  have hindex : index < items.length := hsteps.length_eq ▸ hlt
  exact ⟨items[index], List.getElem?_eq_getElem hindex, hsteps.get hindex hlt⟩

theorem exists_payload {doc : DocumentTypeSpec} {output : Members}
    {groups : List ExtractedFieldGroup}
    (h : Postprocess.normaliseDoc runtime output doc = .ok groups)
    {group index : Nat} {spec : Field} {field : ExtractedField}
    (hspec : declaredAt doc.fieldGroups groups group index = some spec)
    (hfield : fieldAt groups group index = some field) :
    ∃ payload, Postprocess.fieldFromPayload runtime spec payload =
      .ok field := by
  obtain ⟨extracted, hextracted, hfield⟩ := Option.bind_eq_some_iff.mp hfield
  obtain ⟨specGroup, hspecGroup, hgroup⟩ := getElem_of_mapM h hextracted
  simp only [Postprocess.groupFromOutput, bind_eq_ok_iff] at hgroup
  obtain ⟨fields, hfields, hgroup⟩ := hgroup
  cases hgroup
  obtain ⟨declared, hdeclared, hpayload⟩ := getElem_of_mapM hfields hfield
  have hname := FieldKeys.fieldFromPayload_name hpayload
  simp only [declaredAt, hextracted, Option.bind_some, hfield,
    own_of_getElem hspecGroup, hname, own_of_getElem hdeclared,
    Option.some.injEq] at hspec
  exact ⟨_, hspec ▸ hpayload⟩

end

/--
A run covers what was read for a document exactly when every item below a field
carries the findings of its own constraints.
-/
theorem covered_iff (self : FieldValidator) (runtime : Runtime)
    (doc : DocumentTypeSpec) (output : Members)
    (groups : List ExtractedFieldGroup)
    (h : Postprocess.normaliseDoc runtime output doc = .ok groups) :
    self.Covered doc.fieldGroups groups (self.validate doc.fieldGroups groups) ↔
      ∀ group index spec field,
        declaredAt doc.fieldGroups groups group index = some spec →
        fieldAt groups group index = some field →
        ∀ path subSpec sub, path ≠ [] → specAt spec field path = some subSpec →
          itemAt field path = some sub →
          self.Carries (boundAt doc.fieldGroups groups group index) spec field
            path subSpec sub := by
  unfold Covered
  refine forall₂_congr fun group index => forall₂_congr fun spec field =>
    forall₂_congr fun hspec hfield => ?_
  obtain ⟨payload, hpayload⟩ := exists_payload h hspec hfield
  have hrows (harray : spec.type = .array) (row : ExtractedField)
      (hrow : row ∈ field.items) : row.validation.valid = true := by
    rw [rows_of_fieldFromPayload harray hpayload row hrow]
  rw [fieldAt_validate, hfield]
  simp only [Option.map_some, Option.some.injEq, exists_eq_left']
  exact coveredBelow_iff hrows

def tagsDoc : DocumentTypeSpec where
  id := "article"
  fieldGroups := [{
    name := "labels"
    fields := [{
      name := "tags"
      type := .array
      items := some { name := "tag", pattern := some "[a-z]+" } }] }]

def tagsOutput : Members :=
  [("labels", .obj [("tags", .obj [
    ("rows", .arr [.obj [("tag", .obj [("value", .str "B7")])]])])])]

def tagsGroups : List ExtractedFieldGroup :=
  [{
    name := "labels"
    fields := [{
      name := "tags"
      value := .list [{
        name := "row_1"
        value := .list [{ name := "tag", value := .str "B7" }] }] }] }]

theorem normaliseDoc_tags :
    Postprocess.normaliseDoc .ofJson tagsOutput tagsDoc = .ok tagsGroups := rfl

theorem tagsDoc_wellFormed : tagsDoc.WellFormed := by
  refine ⟨by decide, by simp [tagsDoc], ?_, by simp [tagsDoc]⟩
  intro group hgroup
  cases List.mem_singleton.mp hgroup
  refine ⟨by decide, by simp, fun spec hspec => ?_⟩
  cases List.mem_singleton.mp hspec
  refine .intro (by decide) rfl (fun row hrow => ?_) (by simp)
  cases hrow
  exact .intro (by decide) rfl (by simp) (by simp)

theorem covered_iff_tags :
    ¬ (Constraints.fieldValidator .ascii).Covered tagsDoc.fieldGroups tagsGroups
      ((Constraints.fieldValidator .ascii).validate tagsDoc.fieldGroups
        tagsGroups) := by
  rw [covered_iff _ .ofJson tagsDoc tagsOutput tagsGroups normaliseDoc_tags]
  intro h
  obtain ⟨hrecords, -⟩ := h 0 0 _ _ rfl rfl [0, 0] _ _ (by simp) rfl rfl
  cases hrecords

theorem not_covered :
    ¬ ∀ (library : PythonLibrary) (runtime : Runtime) (doc : DocumentTypeSpec)
      (output : Members) (groups : List ExtractedFieldGroup), doc.WellFormed →
      Postprocess.normaliseDoc runtime output doc = .ok groups →
      (Constraints.fieldValidator library).Covered doc.fieldGroups groups
        ((Constraints.fieldValidator library).validate doc.fieldGroups
          groups) := by
  intro h
  obtain ⟨result, hresult, hbelow⟩ := h .ascii .ofJson tagsDoc tagsOutput
    tagsGroups tagsDoc_wellFormed normaliseDoc_tags 0 0 _ _ rfl rfl
  cases hresult
  obtain ⟨⟨checked, hchecked, herrors⟩, -⟩ :=
    hbelow [0, 0] _ _ (by simp) rfl rfl
  cases hchecked
  cases herrors

end FieldValidator

end Flydocs
