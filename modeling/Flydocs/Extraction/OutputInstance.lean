import Flydocs.Extraction.Shape

/-!
# Instances of the output model

What the agent answers, field by field, and when its normalisation returns what
mirrors the declaration.
-/

namespace Flydocs

open Foundation Dtos JsonValue

/-- What each field of each group holds in an instance of the output model. -/
structure OutputInstance (runtime : Runtime) (doc : DocumentTypeSpec) where
  answers : List (List JsonValue)
  validated : List.Forall₂ (fun group answers =>
    List.Forall₂ (fun spec answer => ∃ json,
      (Schema.fieldModel runtime spec).validate json = some answer)
      group.fields answers) doc.fieldGroups answers

namespace OutputInstance

variable {runtime : Runtime} {doc : DocumentTypeSpec}

def modelDump (output : OutputInstance runtime doc) : Members :=
  ofItems ((doc.fieldGroups.zip output.answers).map fun (group, answers) =>
    (group.name, .obj (ofItems ((group.fields.map Field.name).zip answers))))

def Reflected (output : OutputInstance runtime doc)
    (groups : List ExtractedFieldGroup) : Prop :=
  List.Forall₂ (fun (group, answers) extracted =>
    extracted.name = group.name ∧
    List.Forall₂ (fun (spec, own) field =>
      Postprocess.Reflects runtime spec (Postprocess.orEmpty own) field)
      (group.fields.zip answers) extracted.fields)
    (doc.fieldGroups.zip output.answers) groups

theorem forall₂_validate {Item : Type} {fallback : String}
    {name : Item → String} {model : Item → AliasedModel} {items : List Item}
    (hattrs : FieldKeys.Unreserved fallback (items.map name)) {given : Members}
    {answers : List JsonValue}
    (h : List.Forall₂ (fun field answer =>
      field.answer (field.given given) = some answer)
      (Schema.createModel (Schema.fieldsOf fallback name model items)) answers) :
    List.Forall₂ (fun item answer => ∃ json,
      (model item).validate json = some answer) items answers := by
  rw [FieldKeys.createModel_eq_self hattrs] at h
  rw [List.forall₂_iff_get] at h ⊢
  obtain ⟨hlength, hanswers⟩ := h
  rw [FieldKeys.length_fieldsOf] at hlength
  refine ⟨hlength, ?_⟩
  intro index hindex hlt
  have hmodel : index < (Schema.fieldsOf fallback name model items).length := by
    simpa using hindex
  have hentry := FieldKeys.entry_fieldsOf fallback name model items
    (List.mem_iff_getElem.mpr ⟨index, by simpa using hindex, by
      rw [List.getElem_zip]⟩ :
      ((Schema.fieldsOf fallback name model items)[index], items[index]) ∈ _)
  exact ⟨_, FieldKeys.validate_of_answer hentry.2.1 hentry.2.2.1
    (hanswers index hmodel hlt)⟩

theorem exists_fields_of_groups {groups : List FieldGroup}
    (hattrs : ∀ group ∈ groups,
      FieldKeys.Unreserved "f" (group.fields.map Field.name))
    {answers : List JsonValue}
    (h : List.Forall₂ (fun group answer => ∃ json,
      (Schema.buildFieldGroupModel runtime group.fields).validate json =
        some answer) groups answers) :
    ∃ fields : List (List JsonValue),
      List.Forall₂ (fun group answers => List.Forall₂ (fun spec answer =>
        ∃ json, (Schema.fieldModel runtime spec).validate json = some answer)
        group.fields answers) groups fields ∧
      (groups.map FieldGroup.name).zip answers =
        (groups.zip fields).map fun (group, answers) =>
          (group.name, JsonValue.obj
            (ofItems ((group.fields.map Field.name).zip answers))) := by
  induction h with
  | nil => exact ⟨[], .nil, rfl⟩
  | @cons group answer groups answers hfirst _ ih =>
      obtain ⟨json, hjson⟩ := hfirst
      obtain ⟨given, rfl⟩ := AliasedModel.exists_of_validate hjson
      obtain ⟨first, hanswers, rfl⟩ := AliasedModel.validate_eq_some_iff.mp hjson
      obtain ⟨rest, hrest, hzip⟩ := ih fun other hother =>
        hattrs other (List.mem_cons_of_mem _ hother)
      have hown := hattrs group List.mem_cons_self
      have hnames : (Schema.buildFieldGroupModel runtime group.fields).names =
          group.fields.map Field.name := FieldKeys.names_createModel hown
      refine ⟨first :: rest, .cons (forall₂_validate hown hanswers) hrest, ?_⟩
      rw [List.map_cons, List.zip_cons_cons, hzip, List.zip_cons_cons,
        List.map_cons, AliasedModel.dump, hnames]

/-- What a payload is validated to is the dump of an instance, unless a name of
the document type is one that pydantic takes for itself. -/
theorem exists_of_validate
    (hgroups : FieldKeys.Unreserved "g" (doc.fieldGroups.map FieldGroup.name))
    (hfields : ∀ group ∈ doc.fieldGroups,
      FieldKeys.Unreserved "f" (group.fields.map Field.name))
    {payload : JsonValue} {dumped : Members}
    (h : (Schema.createModel (Schema.outputFields runtime doc)).validate
      payload = some (.obj dumped)) :
    ∃ output : OutputInstance runtime doc, output.modelDump = dumped := by
  obtain ⟨given, rfl⟩ := AliasedModel.exists_of_validate h
  obtain ⟨answers, hanswers, hdump⟩ := AliasedModel.validate_eq_some_iff.mp h
  obtain ⟨fields, hvalidated, hzip⟩ := exists_fields_of_groups hfields
    (forall₂_validate hgroups hanswers)
  have hnames : (Schema.createModel (Schema.outputFields runtime doc)).names =
      doc.fieldGroups.map FieldGroup.name := FieldKeys.names_createModel hgroups
  rw [AliasedModel.dump, hnames, hzip, JsonValue.obj.injEq] at hdump
  exact ⟨⟨fields, hvalidated⟩, hdump⟩

theorem tabular_nil : Postprocess.Tabular [] where
  confidence := ⟨0, rfl⟩
  page := .inl rfl
  rows := .inl rfl
  pages := .inl rfl
  members := fun row hrow => by cases hrow

theorem tabular_of_mem (output : OutputInstance runtime doc)
    {entry : FieldGroup × List JsonValue}
    (hentry : entry ∈ doc.fieldGroups.zip output.answers) {answer : JsonValue}
    (hanswer : answer ∈ entry.2) :
    Postprocess.Tabular (Postprocess.orEmpty answer) := by
  have hgroup := (List.forall₂_iff_zip.mp output.validated).2 hentry
  obtain ⟨spec, -, json, hjson⟩ := exists_of_forall₂ hgroup hanswer
  exact Postprocess.tabular_of_validate hjson

theorem tabular_fieldPayload (output : OutputInstance runtime doc)
    (group : FieldGroup) (spec : Field) :
    Postprocess.Tabular
      (Postprocess.fieldPayload output.modelDump group spec) := by
  unfold Postprocess.fieldPayload Postprocess.get modelDump
  rw [lookup_ofItems]
  cases hgroup : lookupLast Prod.fst ((doc.fieldGroups.zip output.answers).map
      fun (group, answers) =>
        (group.name, JsonValue.obj
          (ofItems ((group.fields.map Field.name).zip answers)))) group.name with
  | none => exact tabular_nil
  | some found =>
      obtain ⟨entry, hentry, rfl⟩ := List.mem_map.mp (mem_of_lookupLast hgroup)
      simp only [Option.map_some, Option.getD_some, Postprocess.orEmpty]
      rw [lookup_ofItems]
      cases hfield : lookupLast Prod.fst
          ((entry.1.fields.map Field.name).zip entry.2) spec.name with
      | none => exact tabular_nil
      | some answer =>
          exact output.tabular_of_mem hentry
            (List.of_mem_zip (mem_of_lookupLast hfield)).2

theorem groupFromOutput_reflects_iff (output : OutputInstance runtime doc)
    {entry : FieldGroup × List JsonValue}
    (hentry : entry ∈ doc.fieldGroups.zip output.answers) :
    (∃ extracted, Postprocess.groupFromOutput runtime output.modelDump entry.1 =
        .ok extracted ∧ extracted.name = entry.1.name ∧
      List.Forall₂ (fun (spec, own) field =>
        Postprocess.Reflects runtime spec (Postprocess.orEmpty own) field)
        (entry.1.fields.zip entry.2) extracted.fields) ↔
    ∀ field ∈ entry.1.fields.zip entry.2,
      Postprocess.Answers runtime field.1
        (Postprocess.fieldPayload output.modelDump entry.1 field.1)
        (Postprocess.orEmpty field.2) := by
  have hlength := ((List.forall₂_iff_zip.mp output.validated).2
    hentry).length_eq
  have hread := mapM_zip_left hlength.le fun spec =>
    Postprocess.fieldFromPayload runtime spec
      (Postprocess.fieldPayload output.modelDump entry.1 spec)
  have hgroups := @exists_mapM_forall₂_iff _ PyError _ (fun field =>
    Postprocess.fieldFromPayload runtime field.1
      (Postprocess.fieldPayload output.modelDump entry.1 field.1))
    (fun (spec, own) field =>
      Postprocess.Reflects runtime spec (Postprocess.orEmpty own) field)
    (entry.1.fields.zip entry.2)
  have hfield : ∀ field ∈ entry.1.fields.zip entry.2,
      ((∃ result, Postprocess.fieldFromPayload runtime field.1
          (Postprocess.fieldPayload output.modelDump entry.1 field.1) =
            .ok result ∧
        Postprocess.Reflects runtime field.1 (Postprocess.orEmpty field.2)
          result) ↔
      Postprocess.Answers runtime field.1
        (Postprocess.fieldPayload output.modelDump entry.1 field.1)
        (Postprocess.orEmpty field.2)) :=
    fun field _ =>
      Postprocess.fieldFromPayload_iff (output.tabular_fieldPayload _ _)
  rw [← forall₂_congr hfield, ← hgroups]
  constructor
  · rintro ⟨extracted, hextracted, -, hreflects⟩
    simp only [Postprocess.groupFromOutput, bind_eq_ok_iff, pure,
      Except.pure] at hextracted
    obtain ⟨fields, hmap, hextracted⟩ := hextracted
    cases hextracted
    exact ⟨fields, hread.symm.trans hmap, hreflects⟩
  · rintro ⟨fields, hmap, hreflects⟩
    refine ⟨{ name := entry.1.name, fields }, ?_, rfl, hreflects⟩
    simp only [Postprocess.groupFromOutput, bind_eq_ok_iff, pure, Except.pure]
    exact ⟨fields, hread.trans hmap, rfl⟩

/--
The normalisation returns what mirrors the declaration exactly when all that is
read for the declared fields answers them.
-/
theorem normaliseDoc_reflected_iff (output : OutputInstance runtime doc) :
    (∃ groups,
      Postprocess.normaliseDoc runtime output.modelDump doc = .ok groups ∧
      output.Reflected groups) ↔
    ∀ entry ∈ doc.fieldGroups.zip output.answers,
      ∀ field ∈ entry.1.fields.zip entry.2,
        Postprocess.Answers runtime field.1
          (Postprocess.fieldPayload output.modelDump entry.1 field.1)
          (Postprocess.orEmpty field.2) := by
  unfold Postprocess.normaliseDoc Reflected
  rw [mapM_zip_left output.validated.length_eq.le, exists_mapM_forall₂_iff]
  exact forall₂_congr fun entry hentry =>
    output.groupFromOutput_reflects_iff hentry

end OutputInstance

def supplierDoc : DocumentTypeSpec where
  id := "invoice"
  fieldGroups := [{
    name := "parties"
    fields := [{
      name := "supplier"
      type := .object
      fields := some [{ name := "name" }] }] }]

def supplierOutput : OutputInstance .ofJson supplierDoc where
  answers := [[.obj [
    ("value", .obj [("name", .obj [("value", .str "Acme")])]),
    ("confidence", .float 0), ("page", .null),
    ("bbox", Schema.RawBBox.dump {}), ("notes", .null)]]]
  validated := .cons (.cons ⟨.obj [
    ("value", .obj [("name", .obj [("value", .str "Acme")])])], rfl⟩ .nil) .nil

theorem supplierDoc_wellFormed : supplierDoc.WellFormed := by
  refine ⟨by decide, by simp [supplierDoc], ?_, by simp [supplierDoc]⟩
  intro group hgroup
  cases List.mem_singleton.mp hgroup
  refine ⟨by decide, by simp, fun spec hspec => ?_⟩
  cases List.mem_singleton.mp hspec
  refine .intro (by decide) rfl (by simp) fun members hmembers member hmember => ?_
  cases hmembers
  cases List.mem_singleton.mp hmember
  exact .intro (by decide) rfl (by simp) (by simp)

theorem not_reflected :
    ¬ ∀ (runtime : Runtime) (doc : DocumentTypeSpec)
      (output : OutputInstance runtime doc), doc.WellFormed →
      ∃ groups, Postprocess.normaliseDoc runtime output.modelDump doc =
        .ok groups ∧ output.Reflected groups := by
  intro h
  obtain ⟨groups, hgroups, -⟩ :=
    h .ofJson supplierDoc supplierOutput supplierDoc_wellFormed
  have hraises : Postprocess.normaliseDoc .ofJson supplierOutput.modelDump
      supplierDoc = .error .validationError := rfl
  rw [hraises] at hgroups
  cases hgroups

end Flydocs
