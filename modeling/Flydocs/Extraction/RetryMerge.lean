import Flydocs.Extraction.ArrayRetry
import Flydocs.Extraction.FieldKeys
import Flydocs.Extraction.FreshGroups

/-!
# The merge after a retry

The names of the empty arrays choose what is replaced, and the names of a group
and of a field what replaces it.  Where no two fields share a name, nothing but
an empty array is given up, and only for the same field of the second pass.
-/

namespace Flydocs

open Foundation Dtos

def declaredFields (doc : DocumentTypeSpec) : List Field :=
  doc.fieldGroups.flatMap FieldGroup.fields

def allFields (groups : List ExtractedFieldGroup) : List ExtractedField :=
  groups.flatMap ExtractedFieldGroup.fields

def ReadsSpec (spec : Field) (field : ExtractedField) : Prop :=
  field.name = spec.name ∧
    (spec.type = .array → ∃ rows, field.value = .list rows)

def ReadsGroup (spec : FieldGroup) (group : ExtractedFieldGroup) : Prop :=
  group.name = spec.name ∧ List.Forall₂ ReadsSpec spec.fields group.fields

namespace Postprocess

variable {runtime : Runtime}

theorem readsSpec_of_fieldFromPayload {spec : Field}
    {payload : JsonValue.Members} {field : ExtractedField}
    (h : fieldFromPayload runtime spec payload = .ok field) :
    ReadsSpec spec field := by
  refine ⟨FieldKeys.fieldFromPayload_name h, fun harray => ?_⟩
  rw [fieldFromPayload, if_pos harray] at h
  obtain ⟨_, rows, _, -, -, hvalue⟩ := FieldKeys.arrayFromPayload_eq_ok h
  exact ⟨rows, hvalue⟩

theorem readsGroups_of_normalised {doc : DocumentTypeSpec} {payload : JsonValue}
    {groups : List ExtractedFieldGroup}
    (h : normalised runtime doc payload = .ok groups) :
    List.Forall₂ ReadsGroup doc.fieldGroups groups := by
  obtain ⟨-, output, -, h⟩ := (normalised_eq_ok_iff runtime).mp h
  refine (mapM_eq_ok_iff.mp h).imp fun spec group hgroup => ?_
  simp only [groupFromOutput, bind_eq_ok_iff] at hgroup
  obtain ⟨fields, hfields, hgroup⟩ := hgroup
  cases hgroup
  exact ⟨rfl, (mapM_eq_ok_iff.mp hfields).imp fun _ _ =>
    readsSpec_of_fieldFromPayload⟩

end Postprocess

namespace MultimodalExtractor

/-! ## Names -/

theorem mem_arrayFieldNames_iff {doc : DocumentTypeSpec} {name : String} :
    name ∈ arrayFieldNames doc ↔
      ∃ spec ∈ declaredFields doc, spec.type = .array ∧ spec.name = name := by
  simp only [arrayFieldNames, declaredFields, List.mem_flatMap, List.mem_map,
    List.mem_filter, decide_eq_true_eq]
  constructor
  · rintro ⟨group, hgroup, spec, ⟨hspec, harray⟩, hname⟩
    exact ⟨spec, ⟨group, hgroup, hspec⟩, harray, hname⟩
  · rintro ⟨spec, ⟨group, hgroup, hspec⟩, harray, hname⟩
    exact ⟨group, hgroup, spec, ⟨hspec, harray⟩, hname⟩

def EmptyArray (doc : DocumentTypeSpec) (field : ExtractedField) : Prop :=
  field.name ∈ arrayFieldNames doc ∧ field.value = .list []

variable {doc : DocumentTypeSpec} {groups retry : List ExtractedFieldGroup}

theorem readsSpecs (h : List.Forall₂ ReadsGroup doc.fieldGroups groups) :
    List.Forall₂ ReadsSpec (declaredFields doc) (allFields groups) := by
  unfold declaredFields allFields
  generalize doc.fieldGroups = specs at h
  induction h with
  | nil => exact .nil
  | cons hfirst _ ih => exact List.rel_append hfirst.2 ih

theorem names_of_readsSpecs {specs : List Field} {fields : List ExtractedField}
    (h : List.Forall₂ ReadsSpec specs fields) :
    fields.map ExtractedField.name = specs.map Field.name := by
  induction h with
  | nil => rfl
  | cons hfirst _ ih => rw [List.map_cons, List.map_cons, ih, hfirst.1]

theorem names_of_groups (h : List.Forall₂ ReadsGroup doc.fieldGroups groups) :
    groups.map ExtractedFieldGroup.name =
      doc.fieldGroups.map FieldGroup.name := by
  rw [← List.forall₂_eq_eq_eq, List.forall₂_map_left_iff,
    List.forall₂_map_right_iff]
  exact h.flip.imp fun _ _ hgroup => hgroup.1

theorem eq_of_name (h : List.Forall₂ ReadsGroup doc.fieldGroups groups)
    (hdistinct : ((declaredFields doc).map Field.name).Nodup)
    {field other : ExtractedField} (hfield : field ∈ allFields groups)
    (hother : other ∈ allFields groups) (hname : field.name = other.name) :
    field = other := by
  rw [← names_of_readsSpecs (readsSpecs h)] at hdistinct
  exact List.inj_on_of_nodup_map hdistinct hfield hother hname

theorem rows_of_name (h : List.Forall₂ ReadsGroup doc.fieldGroups groups)
    (hdistinct : ((declaredFields doc).map Field.name).Nodup)
    {field : ExtractedField} (hfield : field ∈ allFields groups)
    (hname : field.name ∈ arrayFieldNames doc) :
    ∃ rows, field.value = .list rows := by
  obtain ⟨spec, hspec, hfieldName, hrows⟩ :=
    exists_of_forall₂ (readsSpecs h) hfield
  obtain ⟨other, hother, harray, hotherName⟩ := mem_arrayFieldNames_iff.mp hname
  obtain rfl : spec = other := List.inj_on_of_nodup_map hdistinct hspec hother
    (hfieldName.symm.trans hotherName.symm)
  exact hrows harray

theorem mem_allFields_iff {field : ExtractedField} :
    field ∈ allFields groups ↔ ∃ group ∈ groups, field ∈ group.fields :=
  List.mem_flatMap

theorem mem_suspiciousEmptyArrays_iff
    (h : List.Forall₂ ReadsGroup doc.fieldGroups groups)
    (hdistinct : ((declaredFields doc).map Field.name).Nodup)
    (hempty : AllArraysEmpty doc groups) {field : ExtractedField}
    (hfield : field ∈ allFields groups) :
    field.name ∈ suspiciousEmptyArrays doc groups ↔ EmptyArray doc field := by
  have hquiet : ¬ (arrayFields doc groups).any isFilled = true := by
    rw [List.any_eq_true]
    rintro ⟨filled, hmem, hfilled⟩
    obtain ⟨group, hgroup, hfilledMem, hname⟩ := mem_arrayFields_iff.mp hmem
    obtain ⟨first, rest, hvalue⟩ := (isFilled_iff filled).mp hfilled
    exact hempty.2 group hgroup filled hfilledMem hname first rest hvalue
  have hsome : arrayFieldNames doc ≠ [] := by
    obtain ⟨_, _, _, _, hname, _⟩ := hempty.1
    exact List.ne_nil_of_mem hname
  rw [suspiciousEmptyArrays, if_neg hsome, if_neg hquiet]
  simp only [List.mem_map, List.mem_filter, isEmptyList_iff]
  constructor
  · rintro ⟨other, ⟨hother, hvalue⟩, hname⟩
    obtain ⟨group, hgroup, hmem, harray⟩ := mem_arrayFields_iff.mp hother
    obtain rfl : other = field := eq_of_name h hdistinct
      (mem_allFields_iff.mpr ⟨group, hgroup, hmem⟩) hfield hname
    exact ⟨harray, hvalue⟩
  · rintro ⟨hname, hvalue⟩
    obtain ⟨group, hgroup, hmem⟩ := mem_allFields_iff.mp hfield
    exact ⟨field, ⟨mem_arrayFields_iff.mpr ⟨group, hgroup, hmem, hname⟩,
      hvalue⟩, rfl⟩

/-! ## The merge -/

/-- What becomes of a field: it stays, or it is an empty array and gives way to
the field of its name in a group of the same name. -/
structure Kept (doc : DocumentTypeSpec) (retry : List ExtractedFieldGroup)
    (group : ExtractedFieldGroup) (field kept : ExtractedField) : Prop where
  name : kept.name = field.name
  identical : ¬ EmptyArray doc field → kept = field
  replaced : kept ≠ field →
    ∃ retryGroup ∈ retry, retryGroup.name = group.name ∧
      kept ∈ retryGroup.fields

/-- The empty array gives way, even to one that is empty as well. -/
def Replaced (doc : DocumentTypeSpec) (retry : List ExtractedFieldGroup)
    (group : ExtractedFieldGroup) (field kept : ExtractedField) : Prop :=
  EmptyArray doc field →
    ∃ retryGroup ∈ retry, retryGroup.name = group.name ∧
      kept ∈ retryGroup.fields ∧ kept.name = field.name

def SameOutline
    (relation : ExtractedFieldGroup → ExtractedField → ExtractedField → Prop)
    (groups merged : List ExtractedFieldGroup) : Prop :=
  List.Forall₂ (fun group mergedGroup =>
    mergedGroup.name = group.name ∧
      List.Forall₂ (relation group) group.fields mergedGroup.fields)
    groups merged

theorem mergeField_name (retryGroup : ExtractedFieldGroup)
    (emptyArrays : List String) (field : ExtractedField) :
    (mergeField retryGroup emptyArrays field).name = field.name := by
  unfold mergeField
  split
  · rename_i retried hretried
    split
    · exact key_of_lookupLast hretried
    · rfl
  · rfl

theorem kept_mergeField {retryGroup group : ExtractedFieldGroup}
    {emptyArrays : List String} {field : ExtractedField}
    (hempty : field.name ∈ emptyArrays ↔ EmptyArray doc field)
    (hretry : retryGroup ∈ retry) (hname : retryGroup.name = group.name) :
    Kept doc retry group field (mergeField retryGroup emptyArrays field) := by
  refine ⟨mergeField_name _ _ _, fun hnot => ?_, fun hne => ?_⟩
  · rw [← hempty] at hnot
    unfold mergeField
    split
    · rw [if_neg hnot]
    · rfl
  · unfold mergeField at hne ⊢
    split at hne
    · rename_i retried hretried
      split at hne
      · rename_i hmem
        simp only [if_pos hmem]
        exact ⟨retryGroup, hretry, hname, mem_of_lookupLast hretried⟩
      · exact absurd rfl hne
    · exact absurd rfl hne

theorem replaced_mergeField {retryGroup group : ExtractedFieldGroup}
    {emptyArrays : List String} {field : ExtractedField}
    (hempty : EmptyArray doc field → field.name ∈ emptyArrays)
    (hretry : retryGroup ∈ retry) (hname : retryGroup.name = group.name)
    (hfield : field.name ∈ retryGroup.fields.map ExtractedField.name) :
    Replaced doc retry group field
      (mergeField retryGroup emptyArrays field) := by
  intro harray
  refine ⟨retryGroup, hretry, hname, ?_, mergeField_name _ _ _⟩
  obtain ⟨retried, hretried⟩ := exists_lookupLast_iff.mpr hfield
  rw [mergeField, hretried]
  simp only [if_pos (hempty harray)]
  exact mem_of_lookupLast hretried

theorem sameOutline_mergeAfterRetry
    {relation : ExtractedFieldGroup → ExtractedField → ExtractedField → Prop}
    {emptyArrays : List String}
    (hkept : ∀ group ∈ groups, ∀ field ∈ group.fields,
      lookupLast ExtractedFieldGroup.name retry group.name = none →
        relation group field field)
    (hmerged : ∀ group ∈ groups, ∀ field ∈ group.fields, ∀ retryGroup,
      lookupLast ExtractedFieldGroup.name retry group.name = some retryGroup →
        relation group field (mergeField retryGroup emptyArrays field)) :
    SameOutline relation groups (mergeAfterRetry groups retry emptyArrays) := by
  unfold SameOutline mergeAfterRetry
  rw [List.forall₂_map_right_iff, List.forall₂_same]
  intro group hgroup
  cases hlookup : lookupLast ExtractedFieldGroup.name retry group.name with
  | none =>
      refine ⟨rfl, List.forall₂_same.mpr fun field hfield => ?_⟩
      exact hkept group hgroup field hfield hlookup
  | some retryGroup =>
      refine ⟨rfl, ?_⟩
      rw [List.forall₂_map_right_iff, List.forall₂_same]
      exact fun field hfield =>
        hmerged group hgroup field hfield retryGroup hlookup

theorem kept_mergeAfterRetry
    (h : List.Forall₂ ReadsGroup doc.fieldGroups groups)
    (hdistinct : ((declaredFields doc).map Field.name).Nodup)
    (hempty : AllArraysEmpty doc groups) :
    SameOutline (Kept doc retry) groups
      (mergeAfterRetry groups retry (suspiciousEmptyArrays doc groups)) := by
  refine sameOutline_mergeAfterRetry ?_ ?_
  · intro group _ field _ _
    exact ⟨rfl, fun _ => rfl, fun hne => absurd rfl hne⟩
  · intro group hgroup field hfield retryGroup hlookup
    exact kept_mergeField (mem_suspiciousEmptyArrays_iff h hdistinct hempty
      (mem_allFields_iff.mpr ⟨group, hgroup, hfield⟩))
      (mem_of_lookupLast hlookup) (key_of_lookupLast hlookup)

theorem exists_retryGroup
    (h : List.Forall₂ ReadsGroup doc.fieldGroups groups)
    (hretry : List.Forall₂ ReadsGroup doc.fieldGroups retry)
    (hgroups : (doc.fieldGroups.map FieldGroup.name).Nodup)
    {group : ExtractedFieldGroup} (hgroup : group ∈ groups) :
    ∃ retryGroup,
      lookupLast ExtractedFieldGroup.name retry group.name = some retryGroup ∧
      retryGroup.fields.map ExtractedField.name =
        group.fields.map ExtractedField.name := by
  obtain ⟨spec, hspec, hname, hfields⟩ := exists_of_forall₂ h hgroup
  obtain ⟨retryGroup, hmem, hretryName, hretryFields⟩ :=
    exists_of_forall₂ hretry.flip hspec
  rw [← names_of_groups hretry] at hgroups
  refine ⟨retryGroup, ?_, ?_⟩
  · rw [hname, ← hretryName]
    exact lookupLast_of_nodup hgroups hmem
  · rw [names_of_readsSpecs hfields, names_of_readsSpecs hretryFields]

/-- Where the groups have distinct names too, the field that an empty array
gives way to is always found. -/
theorem replaced_mergeAfterRetry
    (h : List.Forall₂ ReadsGroup doc.fieldGroups groups)
    (hretry : List.Forall₂ ReadsGroup doc.fieldGroups retry)
    (hdistinct : ((declaredFields doc).map Field.name).Nodup)
    (hgroups : (doc.fieldGroups.map FieldGroup.name).Nodup)
    (hempty : AllArraysEmpty doc groups) :
    SameOutline (Replaced doc retry) groups
      (mergeAfterRetry groups retry (suspiciousEmptyArrays doc groups)) := by
  refine sameOutline_mergeAfterRetry ?_ ?_
  · intro group hgroup _ _ hnone
    obtain ⟨_, hsome, _⟩ := exists_retryGroup h hretry hgroups hgroup
    rw [hnone] at hsome
    cases hsome
  · intro group hgroup field hfield retryGroup hlookup
    obtain ⟨other, hsome, hnames⟩ :=
      exists_retryGroup h hretry hgroups hgroup
    obtain rfl : retryGroup = other :=
      Option.some.inj (hlookup.symm.trans hsome)
    exact replaced_mergeField (mem_suspiciousEmptyArrays_iff h hdistinct
      hempty (mem_allFields_iff.mpr ⟨group, hgroup, hfield⟩)).mpr
      (mem_of_lookupLast hlookup) (key_of_lookupLast hlookup)
      (hnames ▸ List.mem_map_of_mem hfield)

variable {Raised : Type} {self : MultimodalExtractor Raised}
  {arguments : ExtractArguments}

/--
After a retry `extract` returns the first pass with its groups and fields in
their order, in which only empty arrays have given way, to what the second pass
read for the same field; and there was nothing but empty arrays then.
-/
theorem retry_merge_loses_nothing
    (hdistinct : ((declaredFields arguments.doc).map Field.name).Nodup)
    {modelUsed retryModel : String}
    (hfirst : self.extractOnce arguments "extract" = .ok (groups, modelUsed))
    {template : List (String × String) → Except Raised RenderedPrompt}
    (hretries : RetriesArrays self arguments groups template)
    (hretry : self.extractRetryArrays arguments template
      (suspiciousEmptyArrays arguments.doc groups) = .ok (retry, retryModel)) :
    ∃ merged, self.extract arguments = .ok (merged, retryModel) ∧
      (∀ group ∈ groups, ∀ field ∈ group.fields,
        field.name ∈ arrayFieldNames arguments.doc → field.value = .list []) ∧
      SameOutline (Kept arguments.doc retry) groups merged ∧
      ((arguments.doc.fieldGroups.map FieldGroup.name).Nodup →
        SameOutline (Replaced arguments.doc retry) groups merged) := by
  obtain ⟨json, hjson⟩ := exists_normalised_of_extractOnce hfirst
  have hgroups := Postprocess.readsGroups_of_normalised hjson
  obtain ⟨_, retryJson, _, -, -, -, hretryJson, hsame⟩ :=
    (extractRetryArrays_eq_ok_iff self arguments).mp hretry
  rw [Prod.mk.injEq] at hsame
  rw [hsame.1] at hretryJson
  refine ⟨_, by rw [extract_of_retried hfirst hretries, hretry]; rfl, ?_,
    kept_mergeAfterRetry hgroups hdistinct hretries.2.2, fun hnames =>
      replaced_mergeAfterRetry hgroups
        (Postprocess.readsGroups_of_normalised hretryJson) hdistinct hnames
        hretries.2.2⟩
  intro group hgroup field hfield hname
  obtain ⟨rows, hrows⟩ := rows_of_name hgroups hdistinct
    (mem_allFields_iff.mpr ⟨group, hgroup, hfield⟩) hname
  cases rows with
  | nil => exact hrows
  | cons first rest =>
      exact absurd hrows (hretries.2.2.2 group hgroup field hfield hname first
        rest)

/-! ## A retry that finds a line -/

def findingLines : MultimodalExtractor String where
  template _ := .ok ⟨"", ""⟩
  retryArraysTemplate := some fun _ => .ok ⟨"", ""⟩
  model := "primary"
  anchor _ _ := none
  schemaPayload _ := ""
  buildAgent _ _ := .ok ()
  answer _ call :=
    if call.op = "extract.retry_arrays" then
      .ok (.obj [("totals", .obj [("lines", .obj [("rows", .arr
        [.obj [("net", .obj [("value", .str "10")])]])])])])
    else .ok (.obj [])
  runtime := .ofJson
  ofPyError _ := "invalid"

def oneLine : List ExtractedFieldGroup :=
  [{ name := "totals"
     fields :=
      [{ name := "lines"
         value := .list
          [{ name := "row_1"
             value := .list [{ name := "net", value := .str "10" }] }] }] }]

theorem retry_merge_loses_nothing_lines :
    ∃ merged, findingLines.extract threePages = .ok (merged, "primary") ∧
      SameOutline (Kept linesDoc oneLine) noLines merged ∧
      SameOutline (Replaced linesDoc oneLine) noLines merged := by
  have hretries : RetriesArrays findingLines threePages noLines
      fun _ => .ok ⟨"", ""⟩ := by
    refine ⟨rfl, by decide, suspiciousEmptyArrays_ne_nil_iff.mp ?_⟩
    decide
  obtain ⟨merged, hmerged, -, hkept, hreplaced⟩ :=
    @retry_merge_loses_nothing noLines oneLine String findingLines threePages
      (by decide) "primary" "primary" rfl _ hretries rfl
  exact ⟨merged, hmerged, hkept, hreplaced (by decide)⟩

end MultimodalExtractor

end Flydocs
