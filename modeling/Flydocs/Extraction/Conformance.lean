import Flydocs.Dtos.FieldTree
import Flydocs.Extraction.RetryMerge
import Flydocs.Extraction.Shape

/-!
# Groups that conform to a document type

Extraction returns the declared groups with the declared fields, in order: an
array has rows with the declared columns, and a scalar has a value of its type
or none.  This holds of a retry and of a merge as well.
-/

namespace Flydocs

open Foundation Dtos JsonValue

/-! ## Values of a type -/

/-- The values of a scalar of the type; what is no scalar has any value. -/
def Admits : FieldType → FieldValue → Prop
  | _, .null => True
  | .string, .str _ => True
  | .number, .float _ => True
  | .integer, .int _ => True
  | .boolean, .bool _ => True
  | .array, _ => True
  | .object, _ => True
  | _, _ => False

structure CellConforms (item : Field) (cell : ExtractedField) : Prop where
  name_eq : cell.name = item.name
  admits : Admits item.type cell.value

def RowConforms (items : List Field) (row : ExtractedField) : Prop :=
  ∃ cells, row.value = .list cells ∧ List.Forall₂ CellConforms items cells

structure FieldConforms (spec : Field) (field : ExtractedField) : Prop where
  name_eq : field.name = spec.name
  rows : spec.type = .array → ∃ rows, field.value = .list rows ∧
    ∀ row ∈ rows, RowConforms (Postprocess.rowItems spec) row
  scalar : spec.type ≠ .array → Admits spec.type field.value

structure GroupConforms (spec : FieldGroup) (group : ExtractedFieldGroup) :
    Prop where
  name_eq : group.name = spec.name
  fields : List.Forall₂ FieldConforms spec.fields group.fields

def Conforms (doc : DocumentTypeSpec) (groups : List ExtractedFieldGroup) :
    Prop :=
  List.Forall₂ GroupConforms doc.fieldGroups groups

/-! ## Only what was read counts -/

theorem admits_mapItems {type : FieldType} {value : FieldValue}
    {change : ExtractedField → ExtractedField} :
    Admits type (value.mapItems change) ↔ Admits type value := by
  cases value with
  | list items => cases type <;> rfl
  | _ => rfl

theorem CellConforms.of_asRead {item : Field} {cell other : ExtractedField}
    (h : CellConforms item cell) (hread : other.asRead = cell.asRead) :
    CellConforms item other where
  name_eq := (ExtractedField.name_eq_of_asRead hread).trans h.name_eq
  admits := by
    have hvalue := congrArg ExtractedField.value hread
    rw [ExtractedField.value_asRead, ExtractedField.value_asRead] at hvalue
    rw [← admits_mapItems, hvalue, admits_mapItems]
    exact h.admits

theorem exists_list_of_asRead {field other : ExtractedField}
    {items : List ExtractedField} (h : field.value = .list items)
    (hread : other.asRead = field.asRead) :
    ∃ others, other.value = .list others ∧
      others.map ExtractedField.asRead = items.map ExtractedField.asRead := by
  have hvalue := congrArg ExtractedField.value hread
  rw [ExtractedField.value_asRead, ExtractedField.value_asRead, h] at hvalue
  cases hother : other.value with
  | list others =>
      rw [hother] at hvalue
      exact ⟨others, rfl, by simpa [FieldValue.mapItems] using hvalue⟩
  | _ =>
      rw [hother] at hvalue
      cases hvalue

theorem forall₂_of_asRead {Spec : Type*} (Good : Spec → ExtractedField → Prop)
    (hgood : ∀ spec field other, Good spec field →
      other.asRead = field.asRead → Good spec other)
    {specs : List Spec} {fields others : List ExtractedField}
    (h : List.Forall₂ Good specs fields)
    (hread : others.map ExtractedField.asRead =
      fields.map ExtractedField.asRead) : List.Forall₂ Good specs others := by
  induction h generalizing others with
  | nil =>
      rw [List.map_nil, List.map_eq_nil_iff] at hread
      rw [hread]
      exact .nil
  | cons hfirst _ ih =>
      obtain ⟨other, others, rfl, hother, hothers⟩ :=
        List.map_eq_cons_iff.mp hread
      exact .cons (hgood _ _ _ hfirst hother) (ih hothers)

theorem RowConforms.of_asRead {items : List Field} {row other : ExtractedField}
    (h : RowConforms items row) (hread : other.asRead = row.asRead) :
    RowConforms items other := by
  obtain ⟨cells, hcells, hconforms⟩ := h
  obtain ⟨others, hothers, hsame⟩ := exists_list_of_asRead hcells hread
  exact ⟨others, hothers, forall₂_of_asRead CellConforms
    (fun _ _ _ => CellConforms.of_asRead) hconforms hsame⟩

theorem FieldConforms.of_asRead {spec : Field} {field other : ExtractedField}
    (h : FieldConforms spec field) (hread : other.asRead = field.asRead) :
    FieldConforms spec other where
  name_eq := (ExtractedField.name_eq_of_asRead hread).trans h.name_eq
  rows harray := by
    obtain ⟨rows, hrows, hconforms⟩ := h.rows harray
    obtain ⟨others, hothers, hsame⟩ := exists_list_of_asRead hrows hread
    refine ⟨others, hothers, fun row hrow => ?_⟩
    obtain ⟨before, hbefore, heq⟩ := List.mem_map.mp
      (hsame ▸ List.mem_map_of_mem hrow)
    exact (hconforms before hbefore).of_asRead heq.symm
  scalar hscalar := by
    have hvalue := congrArg ExtractedField.value hread
    rw [ExtractedField.value_asRead, ExtractedField.value_asRead] at hvalue
    rw [← admits_mapItems, hvalue, admits_mapItems]
    exact h.scalar hscalar

theorem Conforms.of_asRead {doc : DocumentTypeSpec}
    {groups others : List ExtractedFieldGroup} (h : Conforms doc groups)
    (hread : others.map ExtractedFieldGroup.asRead =
      groups.map ExtractedFieldGroup.asRead) : Conforms doc others := by
  unfold Conforms at h ⊢
  generalize doc.fieldGroups = specs at h ⊢
  induction h generalizing others with
  | nil =>
      rw [List.map_nil, List.map_eq_nil_iff] at hread
      rw [hread]
      exact .nil
  | cons hfirst _ ih =>
      obtain ⟨other, others, rfl, hother, hothers⟩ :=
        List.map_eq_cons_iff.mp hread
      refine .cons ⟨?_, ?_⟩ (ih hothers)
      · exact (congrArg ExtractedFieldGroup.name hother).trans hfirst.name_eq
      · exact forall₂_of_asRead FieldConforms
          (fun _ _ _ => FieldConforms.of_asRead) hfirst.fields
          (congrArg ExtractedFieldGroup.fields hother)

namespace Postprocess

variable {runtime : Runtime}

theorem admits_null (type : FieldType) : Admits type .null := by
  cases type <;> trivial

theorem fieldValue_null {value : FieldValue}
    (h : fieldValue runtime .null = .ok value) : value = .null := by
  cases h
  rfl

theorem eq_of_orDefault {convert : Rat → JsonValue} {raw value : JsonValue}
    (h : Schema.orDefault .null ((Schema.toFloat runtime raw).map convert) =
      .ok value) : value = .null ∨ ∃ number, value = convert number := by
  cases hfloat : Schema.toFloat runtime raw with
  | ok number =>
      rw [hfloat] at h
      cases h
      exact .inr ⟨number, rfl⟩
  | error raised =>
      rw [hfloat] at h
      cases raised <;> cases h <;> exact .inl rfl

theorem admits_of_coerceScalar {type : FieldType} {raw value : JsonValue}
    {final : FieldValue}
    (hcoerce : Schema.coerceScalar runtime type raw = .ok value)
    (hfinal : fieldValue runtime value = .ok final) : Admits type final := by
  unfold Schema.coerceScalar at hcoerce
  split at hcoerce
  · cases hcoerce
    rw [fieldValue_null hfinal]
    exact admits_null type
  · cases type with
    | string =>
        simp only [Except.ok.injEq] at hcoerce
        subst hcoerce
        split at hfinal <;> cases hfinal <;> trivial
    | number =>
        rcases eq_of_orDefault hcoerce with rfl | ⟨number, rfl⟩ <;>
          cases hfinal <;> trivial
    | integer =>
        rcases eq_of_orDefault hcoerce with rfl | ⟨number, rfl⟩ <;>
          cases hfinal <;> trivial
    | boolean =>
        simp only [Except.ok.injEq] at hcoerce
        subst hcoerce
        split at hfinal <;> cases hfinal <;> trivial
    | array => cases final <;> trivial
    | object => cases final <;> trivial

theorem admits_of_scalarFromPayload {spec : Field} {payload : Members}
    {field : ExtractedField}
    (h : scalarFromPayload runtime spec payload = .ok field) :
    field.name = spec.name ∧ Admits spec.type field.value := by
  obtain ⟨hname, value, hcoerce, hfinal⟩ := value_of_scalarFromPayload h
  exact ⟨hname, admits_of_coerceScalar hcoerce hfinal⟩

theorem conforms_cellFromRow {row : Members} {item : Field}
    {cell : ExtractedField} (h : cellFromRow runtime row item = .ok cell) :
    CellConforms item cell := by
  unfold cellFromRow at h
  split at h
  · obtain ⟨hname, hadmits⟩ := admits_of_scalarFromPayload h
    exact ⟨hname, hadmits⟩
  · cases h
    exact ⟨rfl, admits_null item.type⟩

theorem conforms_rowsFromPayload {items : List Field} {index : Nat}
    {pageSet pages : List Int} {rows : List JsonValue}
    {fields : List ExtractedField}
    (h : rowsFromPayload runtime items index pageSet rows =
      .ok (fields, pages)) : ∀ row ∈ fields, RowConforms items row := by
  fun_induction rowsFromPayload runtime items index pageSet rows
    generalizing fields pages with
  | case1 => cases h; simp
  | case2 index pageSet row rows ih =>
      simp only [bind_eq_ok_iff] at h
      obtain ⟨cells, hcells, ⟨rest, restPages⟩, hrest, h⟩ := h
      cases h
      rintro field (_ | ⟨_, hfield⟩)
      · exact ⟨cells, rfl, (mapM_eq_ok_iff.mp hcells).imp fun _ _ =>
          conforms_cellFromRow⟩
      · exact ih cells hrest field hfield
  | case3 index pageSet other rows _ ih => exact ih h

theorem conforms_fieldFromPayload {spec : Field} {payload : Members}
    {field : ExtractedField}
    (h : fieldFromPayload runtime spec payload = .ok field) :
    FieldConforms spec field := by
  have hname := FieldKeys.fieldFromPayload_name h
  unfold fieldFromPayload at h
  split at h
  next harray =>
    obtain ⟨rows, fields, pages, -, hrows, hvalue⟩ :=
      FieldKeys.arrayFromPayload_eq_ok h
    exact ⟨hname, fun _ => ⟨fields, hvalue, conforms_rowsFromPayload hrows⟩,
      fun hscalar => absurd harray hscalar⟩
  next harray =>
    exact ⟨hname, fun h' => absurd h' harray,
      fun _ => (admits_of_scalarFromPayload h).2⟩

theorem conforms_of_normalised {doc : DocumentTypeSpec} {payload : JsonValue}
    {groups : List ExtractedFieldGroup}
    (h : normalised runtime doc payload = .ok groups) :
    Conforms doc groups := by
  obtain ⟨-, output, -, h⟩ := (normalised_eq_ok_iff runtime).mp h
  refine (mapM_eq_ok_iff.mp h).imp fun spec group hgroup => ?_
  simp only [groupFromOutput, bind_eq_ok_iff] at hgroup
  obtain ⟨fields, hfields, hgroup⟩ := hgroup
  cases hgroup
  exact ⟨rfl, (mapM_eq_ok_iff.mp hfields).imp fun _ _ =>
    conforms_fieldFromPayload⟩

end Postprocess

/-! ## Replacing fields -/

section

variable {doc : DocumentTypeSpec} {groups : List ExtractedFieldGroup}

theorem Conforms.fields (h : Conforms doc groups) :
    List.Forall₂ FieldConforms (declaredFields doc) (allFields groups) := by
  unfold Conforms at h
  unfold declaredFields allFields
  generalize doc.fieldGroups = specs at h
  induction h with
  | nil => exact .nil
  | cons hfirst _ ih => exact List.rel_append hfirst.fields ih

theorem Conforms.field (h : Conforms doc groups)
    (hdistinct : ((declaredFields doc).map Field.name).Nodup) {spec : Field}
    (hspec : spec ∈ declaredFields doc) {field : ExtractedField}
    (hfield : field ∈ allFields groups) (hname : field.name = spec.name) :
    FieldConforms spec field := by
  obtain ⟨other, hother, hconforms⟩ := exists_of_forall₂ h.fields hfield
  obtain rfl : other = spec := List.inj_on_of_nodup_map hdistinct hother hspec
    (hconforms.name_eq.symm.trans hname)
  exact hconforms

theorem Conforms.replace (h : Conforms doc groups)
    {change : ExtractedFieldGroup → ExtractedFieldGroup}
    (hname : ∀ group, (change group).name = group.name)
    (replace : ExtractedFieldGroup → ExtractedField → ExtractedField)
    (hfields : ∀ group,
      (change group).fields = group.fields.map (replace group))
    (hreplace : ∀ group, ∀ spec ∈ declaredFields doc, ∀ field,
      FieldConforms spec field → FieldConforms spec (replace group field)) :
    Conforms doc (groups.map change) := by
  have hspecs : ∀ specGroup ∈ doc.fieldGroups, ∀ spec ∈ specGroup.fields,
      spec ∈ declaredFields doc := fun specGroup hgroup spec hspec =>
    List.mem_flatMap.mpr ⟨specGroup, hgroup, hspec⟩
  unfold Conforms at h ⊢
  generalize doc.fieldGroups = specGroups at h hspecs
  induction h with
  | nil => exact .nil
  | @cons specGroup group specGroups groups hfirst _ ih =>
      rw [List.forall_mem_cons] at hspecs
      refine .cons ⟨(hname group).trans hfirst.name_eq, ?_⟩ (ih hspecs.2)
      rw [hfields, List.forall₂_map_right_iff]
      have hdeclared := hspecs.1
      have hpairs := hfirst.fields
      generalize specGroup.fields = specs at hdeclared hpairs
      generalize group.fields = fields at hpairs
      induction hpairs with
      | nil => exact .nil
      | cons hfield _ ihfields =>
          rw [List.forall_mem_cons] at hdeclared
          exact .cons (hreplace group _ hdeclared.1 _ hfield)
            (ihfields hdeclared.2)

end

namespace MultimodalExtractor

variable {Raised : Type} {self : MultimodalExtractor Raised}
  {arguments : ExtractArguments} {groups : List ExtractedFieldGroup}

theorem conforms_mergeField {doc : DocumentTypeSpec}
    {retry : List ExtractedFieldGroup} (hretry : Conforms doc retry)
    (hdistinct : ((declaredFields doc).map Field.name).Nodup)
    {retryGroup : ExtractedFieldGroup} (hgroup : retryGroup ∈ retry)
    (emptyArrays : List String) {spec : Field}
    (hspec : spec ∈ declaredFields doc) {field : ExtractedField}
    (hfield : FieldConforms spec field) :
    FieldConforms spec (mergeField retryGroup emptyArrays field) := by
  unfold mergeField
  split
  next retried hretried =>
    split
    · have hmem : retried ∈ allFields retry := List.mem_flatMap.mpr
        ⟨retryGroup, hgroup, mem_of_lookupLast hretried⟩
      exact hretry.field hdistinct hspec hmem
        ((key_of_lookupLast hretried).trans hfield.name_eq)
    · exact hfield
  next => exact hfield

theorem conforms_mergeAfterRetry {doc : DocumentTypeSpec}
    {retry : List ExtractedFieldGroup} (horiginal : Conforms doc groups)
    (hretry : Conforms doc retry)
    (hdistinct : ((declaredFields doc).map Field.name).Nodup)
    (emptyArrays : List String) :
    Conforms doc (mergeAfterRetry groups retry emptyArrays) := by
  refine horiginal.replace (fun group => ?_)
    (fun group field =>
      (lookupLast ExtractedFieldGroup.name retry group.name).elim field
        (mergeField · emptyArrays field))
    (fun group => ?_) fun group spec hspec field hfield => ?_
  · split <;> rfl
  · cases lookupLast ExtractedFieldGroup.name retry group.name with
    | none => simp
    | some retryGroup => rfl
  · cases hlookup : lookupLast ExtractedFieldGroup.name retry group.name with
    | none => exact hfield
    | some retryGroup =>
        exact conforms_mergeField hretry hdistinct
          (mem_of_lookupLast hlookup) emptyArrays hspec hfield

theorem conforms_run {model instructions userText op : String}
    (h : self.run arguments model instructions userText op = .ok groups) :
    Conforms arguments.doc groups := by
  obtain ⟨json, hjson⟩ := exists_normalised_of_run h
  exact Postprocess.conforms_of_normalised hjson

theorem conforms_extract {modelUsed : String}
    (hdistinct : ((declaredFields arguments.doc).map Field.name).Nodup)
    (h : self.extract arguments = .ok (groups, modelUsed)) :
    Conforms arguments.doc groups := by
  simp only [extract, bind_eq_ok_iff] at h
  obtain ⟨⟨first, firstModel⟩, hfirst, h⟩ := h
  obtain ⟨json, hjson⟩ := exists_normalised_of_extractOnce hfirst
  have hconforms := Postprocess.conforms_of_normalised hjson
  split at h
  · cases h
    exact hconforms
  · split at h
    · cases h
      exact hconforms
    · split at h
      · cases h
        exact hconforms
      · simp only [bind_eq_ok_iff] at h
        obtain ⟨⟨retry, retryModel⟩, hretry, h⟩ := h
        cases h
        simp only [extractRetryArrays, bind_eq_ok_iff] at hretry
        obtain ⟨_, _, _, _, result, hresult, hretry⟩ := hretry
        cases hretry
        exact conforms_mergeAfterRetry hconforms (conforms_run hresult)
          hdistinct _

end MultimodalExtractor

end Flydocs
