import Flydocs.Extraction.Postprocess
import Flydocs.Validation.FieldValidator

/-!
# The keys of extracted fields

The output model, the post-processing and the field validator each find a group,
a field or a column by its name.  `KeptApart` says that every one finds its own;
`Unambiguous` is the condition on the declared names.
-/

namespace Flydocs

open Foundation Dtos JsonValue

namespace FieldKeys

/-! ## What every field is read from -/

/-- How a field picks its payload out of the members of an object. -/
abbrev Pick := AliasedField → List String → Members → Option JsonValue

/-- Under both keys, where the model has the field. -/
def kept : Pick := fun field _ members =>
  if field.attr = Schema.configName then none else field.given members

def membersOf : Option JsonValue → Members
  | some (.obj members) => members
  | _ => []

def rowsOf (members : Members) : List JsonValue :=
  match lookup "rows" members with
  | some (.arr rows) => rows
  | _ => []

section

variable (runtime : Runtime) (pick : Pick)

def ReadsCell (names : List String) (row : Members)
    (column : AliasedField × Field) (cell : ExtractedField) : Prop :=
  ∃ dumped, column.1.answer (pick column.1 names row) = some dumped ∧
    Postprocess.scalarFromPayload runtime column.2
      (Postprocess.orEmpty dumped) = .ok cell

def ReadsRow (columns : List Field) (given : JsonValue)
    (row : ExtractedField) : Prop :=
  ∃ members cells, given = .obj members ∧ row.value = .list cells ∧
    List.Forall₂ (ReadsCell runtime pick (columns.map Field.name) members)
      ((Schema.rowFields runtime columns).zip columns) cells

def ReadsField (names : List String) (payload : Members)
    (entry : AliasedField × Field) (field : ExtractedField) : Prop :=
  (∃ dumped, entry.1.answer (pick entry.1 names payload) = some dumped ∧
    Postprocess.fieldFromPayload runtime entry.2
      (Postprocess.orEmpty dumped) = .ok field) ∧
  (entry.2.type = .array → ∃ rows, field.value = .list rows ∧
    List.Forall₂ (ReadsRow runtime pick (Postprocess.rowItems entry.2))
      (rowsOf (membersOf (pick entry.1 names payload))) rows)

def ReadsGroup (names : List String) (payload : Members)
    (entry : AliasedField × FieldGroup) (group : ExtractedFieldGroup) : Prop :=
  group.name = entry.2.name ∧
    List.Forall₂
      (ReadsField runtime pick (entry.2.fields.map Field.name)
        (membersOf (pick entry.1 names payload)))
      ((Schema.groupFields runtime entry.2.fields).zip entry.2.fields)
      group.fields

def Reads (doc : DocumentTypeSpec) (payload : Members)
    (groups : List ExtractedFieldGroup) : Prop :=
  List.Forall₂
    (ReadsGroup runtime pick (doc.fieldGroups.map FieldGroup.name) payload)
    ((Schema.outputFields runtime doc).zip doc.fieldGroups) groups

end

/-! ## Fields kept apart -/

/-- The dictionaries of the field validator bind every declared group, field
and column to itself. -/
def BoundToOwn (doc : DocumentTypeSpec) : Prop :=
  ∀ groupIndex group, doc.fieldGroups[groupIndex]? = some group →
    position FieldGroup.name doc.fieldGroups group.name = some groupIndex ∧
    ∀ fieldIndex spec, group.fields[fieldIndex]? = some spec →
      position Field.name group.fields spec.name = some fieldIndex ∧
      (spec.type = .array →
        ∀ columnIndex column,
          (Postprocess.rowItems spec)[columnIndex]? = some column →
          position Field.name (FieldValidator.subSpecs spec) column.name =
            some columnIndex)

/-- Some answer to the field is accepted, with rows where it is an array. -/
def Answerable (runtime : Runtime) (doc : DocumentTypeSpec)
    (group : FieldGroup) (spec : Field) : Prop :=
  ∃ members groups, (spec.type = .array → rowsOf members ≠ []) ∧
    Postprocess.normalised runtime doc
      (.obj [(group.name, .obj [(spec.name, .obj members)])]) = .ok groups

structure KeptApart (runtime : Runtime) (doc : DocumentTypeSpec) : Prop where
  answerable : ∀ group ∈ doc.fieldGroups, ∀ spec ∈ group.fields,
    Answerable runtime doc group spec
  values : ∀ payload groups,
    Postprocess.normalised runtime doc (.obj payload) = .ok groups →
    Reads runtime AliasedField.own doc payload groups
  specs : BoundToOwn doc

/-! ## The condition -/

/-- No attribute name is the declared name of another one. -/
def NoClash (fallback : String) (names : List String) : Prop :=
  ∀ entry ∈ (Schema.attrs fallback [] names).zip names,
    entry.1 ∈ names → entry.1 = entry.2

instance (fallback : String) (names : List String) :
    Decidable (NoClash fallback names) :=
  inferInstanceAs (Decidable (∀ entry ∈ _, _))

/-- Pydantic reserves none of the attribute names. -/
def Unreserved (fallback : String) (names : List String) : Prop :=
  ∀ attr ∈ Schema.attrs fallback [] names,
    attr ≠ Schema.configName ∧ attr ∉ Schema.refusedNames

instance (fallback : String) (names : List String) :
    Decidable (Unreserved fallback names) :=
  inferInstanceAs (Decidable (∀ attr ∈ _, _))

structure Unambiguous (doc : DocumentTypeSpec) : Prop where
  groupNames : (doc.fieldGroups.map FieldGroup.name).Nodup
  groupKeys : NoClash "g" (doc.fieldGroups.map FieldGroup.name)
  groupAttrs : Unreserved "g" (doc.fieldGroups.map FieldGroup.name)
  fieldKeys : ∀ group ∈ doc.fieldGroups,
    NoClash "f" (group.fields.map Field.name)
  fieldAttrs : ∀ group ∈ doc.fieldGroups,
    Unreserved "f" (group.fields.map Field.name)
  columns : ∀ group ∈ doc.fieldGroups, ∀ spec ∈ group.fields,
    spec.type = .array → ∃ row columns, spec.items = some row ∧
      row.type = .object ∧ row.fields = some columns ∧
      (columns.map Field.name).Nodup ∧
      NoClash "f" (columns.map Field.name) ∧
      Unreserved "f" (columns.map Field.name)

/-! ## Models built from a list -/

section

variable {Item : Type} (fallback : String) (name : Item → String)
  (model : Item → AliasedModel) (items : List Item)

theorem length_attrs (used names : List String) :
    (Schema.attrs fallback used names).length = names.length := by
  induction names generalizing used with
  | nil => rfl
  | cons name names ih => simp [Schema.attrs, ih]

@[simp] theorem length_fieldsOf :
    (Schema.fieldsOf fallback name model items).length = items.length := by
  simp [Schema.fieldsOf, length_attrs]

@[simp] theorem names_fieldsOf :
    AliasedModel.names (Schema.fieldsOf fallback name model items) =
      items.map name := by
  have hsnd : ((Schema.attrs fallback [] (items.map name)).zip items).map
      Prod.snd = items := by
    rw [List.map_snd_zip]
    simp [length_attrs]
  calc AliasedModel.names (Schema.fieldsOf fallback name model items)
      = (((Schema.attrs fallback [] (items.map name)).zip items).map
          Prod.snd).map name := by
        simp only [AliasedModel.names, Schema.fieldsOf, List.map_map]
        rfl
    _ = items.map name := by rw [hsnd]

theorem entry_fieldsOf {entry : AliasedField × Item}
    (h : entry ∈ (Schema.fieldsOf fallback name model items).zip items) :
    entry.1.name = name entry.2 ∧
      entry.1.read = (model entry.2).validate ∧
      entry.1.default = (model entry.2).defaults ∧
      (entry.1.attr, name entry.2) ∈
        (Schema.attrs fallback [] (items.map name)).zip (items.map name) := by
  unfold Schema.fieldsOf at h
  obtain ⟨index, hindex, rfl⟩ := List.getElem_of_mem h
  simp only [List.length_zip, List.length_map, length_attrs] at hindex
  simp only [List.getElem_zip, List.getElem_map, true_and]
  have hlt : index < ((Schema.attrs fallback [] (items.map name)).zip
      (items.map name)).length := by
    simp only [List.length_zip, length_attrs, List.length_map]
    omega
  rw [List.mem_iff_getElem]
  exact ⟨index, hlt, by simp⟩

theorem noClash_iff :
    NoClash fallback (items.map name) ↔
      ∀ field ∈ Schema.fieldsOf fallback name model items,
        ¬ field.Clashes (items.map name) := by
  have hkeys : (Schema.attrs fallback [] (items.map name)).zip (items.map name) =
      (Schema.fieldsOf fallback name model items).map
        fun field => (field.attr, field.name) := by
    simp only [Schema.fieldsOf, List.map_map, List.zip_map_right]
    rfl
  rw [NoClash, hkeys]
  simp only [List.forall_mem_map, AliasedField.Clashes, not_and, not_not]

end

theorem exists_entry_of_item {Item : Type} {fallback : String}
    {name : Item → String} {model : Item → AliasedModel} {items : List Item}
    {item : Item} (h : item ∈ items) :
    ∃ field, (field, item) ∈
      (Schema.fieldsOf fallback name model items).zip items := by
  obtain ⟨index, hindex, rfl⟩ := List.getElem_of_mem h
  have hlt : index < (Schema.fieldsOf fallback name model items).length := by
    simpa using hindex
  refine ⟨(Schema.fieldsOf fallback name model items)[index], ?_⟩
  rw [List.mem_iff_getElem]
  exact ⟨index, by simpa using hindex, by simp⟩

theorem exists_entry {Item : Type} {fallback : String} {name : Item → String}
    {model : Item → AliasedModel} {items : List Item} {field : AliasedField}
    (h : field ∈ Schema.fieldsOf fallback name model items) :
    ∃ item, (field, item) ∈
      (Schema.fieldsOf fallback name model items).zip items := by
  obtain ⟨index, hindex, rfl⟩ := List.getElem_of_mem h
  have hlt : index < items.length := by simpa using hindex
  refine ⟨items[index], ?_⟩
  rw [List.mem_iff_getElem]
  exact ⟨index, by simpa using hlt, by simp⟩

theorem attrs_fieldsOf {Item : Type} (fallback : String)
    (name : Item → String) (model : Item → AliasedModel) (items : List Item) :
    (Schema.fieldsOf fallback name model items).map AliasedField.attr =
      Schema.attrs fallback [] (items.map name) := by
  have hfst : ((Schema.attrs fallback [] (items.map name)).zip items).map
      Prod.fst = Schema.attrs fallback [] (items.map name) := by
    rw [List.map_fst_zip]
    simp [length_attrs]
  rw [← hfst, Schema.fieldsOf, List.map_map]
  rfl

theorem unreserved_of_fields {Item : Type} {fallback : String}
    {name : Item → String} {model : Item → AliasedModel} {items : List Item}
    (hconfig : ∀ field ∈ Schema.fieldsOf fallback name model items,
      field.attr ≠ Schema.configName)
    (hrefused : ∀ attr ∈ Schema.attrs fallback [] (items.map name),
      attr ∉ Schema.refusedNames) :
    Unreserved fallback (items.map name) := by
  intro attr hattr
  refine ⟨?_, hrefused attr hattr⟩
  rw [← attrs_fieldsOf fallback name model items] at hattr
  obtain ⟨field, hfield, rfl⟩ := List.mem_map.mp hattr
  exact hconfig field hfield

section

variable {Item : Type} {fallback : String} {name : Item → String}
  {model : Item → AliasedModel} {items : List Item}

theorem createModel_eq_self (h : Unreserved fallback (items.map name)) :
    Schema.createModel (Schema.fieldsOf fallback name model items) =
      Schema.fieldsOf fallback name model items := by
  refine List.filter_eq_self.mpr fun field hfield => decide_eq_true ?_
  refine (h field.attr ?_).1
  rw [← attrs_fieldsOf fallback name model items]
  exact List.mem_map_of_mem hfield

theorem names_createModel (h : Unreserved fallback (items.map name)) :
    (Schema.createModel
      (Schema.fieldsOf fallback name model items)).names =
      items.map name := by
  rw [createModel_eq_self h, names_fieldsOf]

end

theorem not_refusesOutput_iff {doc : DocumentTypeSpec} :
    Schema.refusesOutput doc = false ↔
      (∀ attr ∈ Schema.attrs "g" [] (doc.fieldGroups.map FieldGroup.name),
        attr ∉ Schema.refusedNames) ∧
      (∀ group ∈ doc.fieldGroups,
        ∀ attr ∈ Schema.attrs "f" [] (group.fields.map Field.name),
          attr ∉ Schema.refusedNames) ∧
      ∀ group ∈ doc.fieldGroups, ∀ spec ∈ group.fields, spec.type = .array →
        ∀ attr ∈ Schema.attrs "f" []
          ((Postprocess.rowItems spec).map Field.name),
          attr ∉ Schema.refusedNames := by
  simp only [Schema.refusesOutput, Schema.refuses, Bool.or_eq_false_iff,
    List.any_eq_false, Bool.and_eq_true, decide_eq_true_eq, not_and,
    Bool.not_eq_true, List.any_eq_true]
  grind

section

variable {Item : Type} {fallback : String} {name : Item → String}
  {model : Item → AliasedModel} {items : List Item} {payload : Members}

/-- Where the names are distinct, the dump holds the answer of every entry under
the name of its item, except of one that the model has no field for. -/
theorem lookup_createModel (names : List String)
    (hnodup : (items.map name).Nodup) {dumped : JsonValue}
    (h : (Schema.createModel
      (Schema.fieldsOf fallback name model items)).validate (.obj payload) =
        some dumped) :
    ∃ members, dumped = .obj members ∧
      ∀ entry ∈ (Schema.fieldsOf fallback name model items).zip items,
        ∃ answer, entry.1.answer (kept entry.1 names payload) = some answer ∧
          (lookup (name entry.2) members = some answer ∨
            lookup (name entry.2) members = none ∧
              kept entry.1 names payload = none) := by
  have hnames : (AliasedModel.names
      (Schema.fieldsOf fallback name model items)).Nodup := by
    rwa [names_fieldsOf]
  have hsub : (Schema.createModel
      (Schema.fieldsOf fallback name model items)).Sublist
        (Schema.fieldsOf fallback name model items) := List.filter_sublist
  obtain ⟨members, rfl, hlookups⟩ := AliasedModel.lookup_of_validate
    ((hsub.map AliasedField.name).nodup hnames) h
  refine ⟨members, rfl, ?_⟩
  intro entry hentry
  have hfield := (List.of_mem_zip hentry).1
  rw [← (entry_fieldsOf _ _ _ _ hentry).1]
  by_cases hconfig : entry.1.attr = Schema.configName
  · have hkept : kept entry.1 names payload = none := if_pos hconfig
    refine ⟨entry.1.default, by rw [hkept]; rfl, .inr ⟨?_, hkept⟩⟩
    refine AliasedModel.lookup_eq_none_of_validate h ?_
    intro hmem
    obtain ⟨other, hother, hname⟩ := List.mem_map.mp hmem
    have hsame : other = entry.1 :=
      List.inj_on_of_nodup_map hnames (hsub.subset hother) hfield hname
    rw [Schema.createModel, List.mem_filter, hsame] at hother
    exact of_decide_eq_true hother.2 hconfig
  · have hkept : kept entry.1 names payload = entry.1.given payload :=
      if_neg hconfig
    obtain ⟨answer, hanswer, hlookup⟩ := hlookups entry.1
      (List.mem_filter.mpr ⟨hfield, decide_eq_true hconfig⟩)
    exact ⟨answer, by rw [hkept]; exact hanswer, .inl hlookup⟩

theorem exists_members_createModel (payload : Members) (names : List String)
    (property : Item → JsonValue → Prop)
    (hnull : ∀ item ∈ items, property item .null)
    (hnodup : (items.map name).Nodup)
    (h : ∀ entry ∈ (Schema.fieldsOf fallback name model items).zip items,
      ∃ answer, entry.1.answer (kept entry.1 names payload) = some answer ∧
        property entry.2 answer) :
    ∃ members, (Schema.createModel
        (Schema.fieldsOf fallback name model items)).validate
        (.obj payload) = some (.obj members) ∧
      ∀ item ∈ items, property item ((lookup (name item) members).getD .null) := by
  obtain ⟨dumped, hdumped⟩ := AliasedModel.exists_validate_eq_some
    (Schema.createModel (Schema.fieldsOf fallback name model items)) (by
      intro field hfield
      rw [Schema.createModel, List.mem_filter] at hfield
      obtain ⟨item, hentry⟩ := exists_entry hfield.1
      obtain ⟨answer, hanswer, -⟩ := h _ hentry
      rw [kept, if_neg (of_decide_eq_true hfield.2)] at hanswer
      exact ⟨answer, hanswer⟩)
  obtain ⟨members, rfl, hlookups⟩ := lookup_createModel names hnodup hdumped
  refine ⟨members, hdumped, ?_⟩
  intro item hitem
  obtain ⟨field, hentry⟩ := exists_entry_of_item hitem
  obtain ⟨answer, hanswer, hproperty⟩ := h _ hentry
  obtain ⟨answer', hanswer', hlookup | ⟨hlookup, -⟩⟩ := hlookups _ hentry
  · rw [hanswer, Option.some.injEq] at hanswer'
    subst hanswer'
    rw [hlookup]
    exact hproperty
  · rw [hlookup]
    exact hnull item hitem

end

/-! ## The code reads under both keys -/

structure Distinct (doc : DocumentTypeSpec) : Prop where
  groups : (doc.fieldGroups.map FieldGroup.name).Nodup
  fields : ∀ group ∈ doc.fieldGroups, (group.fields.map Field.name).Nodup
  columns : ∀ group ∈ doc.fieldGroups, ∀ spec ∈ group.fields,
    spec.type = .array → ((Postprocess.rowItems spec).map Field.name).Nodup

def Agrees (pick : Pick) (fields : List AliasedField) (names : List String) :
    Prop :=
  ∀ field ∈ fields, pick field names = kept field names

structure AgreesOn (runtime : Runtime) (pick : Pick) (doc : DocumentTypeSpec) :
    Prop where
  groups : Agrees pick (Schema.outputFields runtime doc)
    (doc.fieldGroups.map FieldGroup.name)
  fields : ∀ group ∈ doc.fieldGroups,
    Agrees pick (Schema.groupFields runtime group.fields)
      (group.fields.map Field.name)
  columns : ∀ group ∈ doc.fieldGroups, ∀ spec ∈ group.fields,
    spec.type = .array →
      Agrees pick (Schema.rowFields runtime (Postprocess.rowItems spec))
        ((Postprocess.rowItems spec).map Field.name)

theorem exists_of_mem_right {First Second : Type*}
    {relation : First → Second → Prop} {firsts : List First}
    {seconds : List Second} (h : List.Forall₂ relation firsts seconds)
    {second : Second} (hmem : second ∈ seconds) :
    ∃ first ∈ firsts, relation first second := by
  induction h with
  | nil => simp at hmem
  | cons hfirst _ ih =>
      rcases List.mem_cons.mp hmem with rfl | hrest
      · exact ⟨_, by simp, hfirst⟩
      · obtain ⟨first, hfirsts, hrelation⟩ := ih hrest
        exact ⟨first, by simp [hfirsts], hrelation⟩

theorem forall₂_comp {First Second Third : Type*}
    {before : First → Second → Prop} {after : Second → Third → Prop}
    {both : First → Third → Prop} {firsts : List First}
    {seconds : List Second} {thirds : List Third}
    (hbefore : List.Forall₂ before firsts seconds)
    (hafter : List.Forall₂ after seconds thirds)
    (himp : ∀ first second third, before first second → after second third →
      both first third) : List.Forall₂ both firsts thirds := by
  induction hbefore generalizing thirds with
  | nil =>
      cases hafter
      exact .nil
  | cons hfirst _ ih =>
      cases hafter with
      | cons hsecond hrest =>
          exact .cons (himp _ _ _ hfirst hsecond) (ih hrest)

theorem forall₂_zip {First Second Third : Type*} {models : List First}
    {items : List Second} {results : List Third}
    {relation : Second → Third → Prop}
    {reads : First × Second → Third → Prop}
    (hlength : models.length = items.length)
    (h : List.Forall₂ relation items results)
    (himp : ∀ entry ∈ models.zip items, ∀ result ∈ results,
      relation entry.2 result → reads entry result) :
    List.Forall₂ reads (models.zip items) results := by
  induction h generalizing models with
  | nil => simp
  | cons hfirst hrest ih =>
      cases models with
      | nil => simp at hlength
      | cons model models =>
          refine .cons (himp _ (by simp) _ (by simp) hfirst) (ih ?_ ?_)
          · simpa using hlength
          · intro entry hentry result hresult
            exact himp entry (by simp [hentry]) result (by simp [hresult])

theorem validate_of_answer {field : AliasedField} {model : AliasedModel}
    (hread : field.read = model.validate)
    (hdefault : field.default = model.defaults) {given : Option JsonValue}
    {dumped : JsonValue} (h : field.answer given = some dumped) :
    model.validate (.obj (membersOf given)) = some dumped := by
  cases given with
  | none =>
      simp only [AliasedField.answer, hdefault] at h
      rw [← h]
      exact model.validate_empty
  | some json =>
      simp only [AliasedField.answer, hread] at h
      obtain ⟨members, rfl⟩ := AliasedModel.exists_of_validate h
      exact h

section

variable {runtime : Runtime}

theorem elements_arr (items : List JsonValue) :
    Postprocess.elements (.arr items) = .ok items := by
  cases items <;> rfl

theorem rows_of_validate {spec : Field} {members : Members}
    {dumped : JsonValue}
    (h : (Schema.arrayFieldModel runtime spec).validate (.obj members) =
      some dumped) :
    ∃ items rows, dumped = .obj items ∧
      lookup "rows" items = some (.arr rows) ∧
      List.Forall₂ (fun given row =>
        (Schema.rowModel runtime (Schema.itemsSpecs spec)).validate given =
          some row) (rowsOf members) rows := by
  have hnodup : (Schema.arrayFieldModel runtime spec).names.Nodup := by
    simp only [AliasedModel.names, Schema.arrayFieldModel, List.map_cons,
      List.map_nil, AliasedField.plain, Schema.confidenceField,
      Schema.notesField]
    decide
  obtain ⟨items, rfl, hitems⟩ := AliasedModel.lookup_of_validate hnodup h
  obtain ⟨answer, hanswer, hlookup⟩ := hitems _ List.mem_cons_self
  simp only [AliasedField.plain, AliasedField.given, Option.or_self] at hanswer
  refine ⟨items, ?_⟩
  cases hrows : lookup "rows" members with
  | none =>
      simp only [hrows, AliasedField.answer, Option.some.injEq] at hanswer
      refine ⟨[], rfl, ?_, ?_⟩
      · rw [hanswer]
        exact hlookup
      · simp [rowsOf, hrows]
  | some json =>
      simp only [hrows, AliasedField.answer] at hanswer
      cases json with
      | arr given =>
          simp only [Schema.readList, Option.map_eq_some_iff] at hanswer
          obtain ⟨rows, hmap, rfl⟩ := hanswer
          refine ⟨rows, rfl, hlookup, ?_⟩
          simp only [rowsOf, hrows]
          exact mapM_eq_some_iff.mp hmap
      | _ => simp [Schema.readList] at hanswer

theorem clamp01_zero (runtime : Runtime) :
    Postprocess.clamp01 runtime (.float 0) = .ok 0 := by
  have hfloat : Schema.toFloat runtime (.float 0) = .ok 0 := rfl
  simp [Postprocess.clamp01, hfloat, Schema.orDefault, Except.map]

theorem kept_nil (field : AliasedField) (names : List String) :
    kept field names [] = none := by
  unfold kept
  split <;> rfl

theorem kept_singleton (field : AliasedField) (names : List String)
    (key : String) (json : JsonValue) :
    kept field names [(key, json)] =
      if field.attr ≠ Schema.configName ∧ (key = field.name ∨ key = field.attr)
      then some json else none := by
  by_cases hconfig : field.attr = Schema.configName <;>
    simp [kept, hconfig, AliasedField.given_singleton]

/-! ### Nothing is read like the defaults -/

theorem scalarFromPayload_defaults (spec : Field) :
    Postprocess.scalarFromPayload runtime spec (Postprocess.orEmpty
      (Schema.scalarFieldModel runtime spec.type).defaults) =
        .ok { name := spec.name, value := .null } := by
  have hdefaults : (Schema.scalarFieldModel runtime spec.type).defaults =
      .obj [("value", .null), ("confidence", .float 0), ("page", .null),
        ("bbox", Schema.RawBBox.dump {}), ("notes", .null)] := rfl
  simp [hdefaults, Postprocess.orEmpty, Postprocess.scalarFromPayload,
    Postprocess.get, Schema.coerceScalar, clamp01_zero, Postprocess.intOrNone,
    Postprocess.fieldValue, Postprocess.maybeStr, bind, Except.bind, pure,
    Except.pure]

theorem fieldFromPayload_nil (spec : Field) :
    Postprocess.fieldFromPayload runtime spec [] = .ok
      { name := spec.name
        value := if spec.type = .array then .list [] else .null } := by
  by_cases harray : spec.type = .array
  · simp [Postprocess.fieldFromPayload, harray, Postprocess.arrayFromPayload,
      Postprocess.get, Postprocess.elements, Schema.truthy,
      Postprocess.rowsFromPayload, clamp01_zero, Postprocess.maybeStr,
      Postprocess.sorted, bind, Except.bind, pure, Except.pure]
  · simp [Postprocess.fieldFromPayload, harray, Postprocess.scalarFromPayload,
      Postprocess.get, Schema.coerceScalar, clamp01_zero, Postprocess.intOrNone,
      Postprocess.fieldValue, Postprocess.maybeStr, bind, Except.bind, pure,
      Except.pure]

theorem fieldFromPayload_defaults (spec : Field) :
    Postprocess.fieldFromPayload runtime spec
        (Postprocess.orEmpty (Schema.fieldModel runtime spec).defaults) =
      Postprocess.fieldFromPayload runtime spec [] := by
  rw [fieldFromPayload_nil]
  by_cases harray : spec.type = .array
  · have hdefaults : (Schema.arrayFieldModel runtime spec).defaults =
        .obj [("rows", .arr []), ("pages", .arr []), ("confidence", .float 0),
          ("notes", .null)] := rfl
    simp [Schema.fieldModel, hdefaults, Postprocess.orEmpty,
      Postprocess.fieldFromPayload, harray, Postprocess.arrayFromPayload,
      Postprocess.get, elements_arr, Postprocess.rowsFromPayload, clamp01_zero,
      Postprocess.maybeStr, Postprocess.sorted, bind, Except.bind, pure,
      Except.pure]
  · rw [Schema.fieldModel, if_neg harray, Postprocess.fieldFromPayload,
      if_neg harray, if_neg harray]
    exact scalarFromPayload_defaults spec

theorem rowsFromPayload_eq_ok {items : List Field} {rows : List JsonValue}
    {index : Nat} {pageSet pages : List Int} {fields : List ExtractedField}
    (hrows : ∀ row ∈ rows, ∃ members, row = .obj members)
    (h : Postprocess.rowsFromPayload runtime items index pageSet rows =
      .ok (fields, pages)) :
    List.Forall₂ (fun row field => ∃ members cells, row = .obj members ∧
      field.value = .list cells ∧
      items.mapM (Postprocess.cellFromRow runtime members) = .ok cells)
      rows fields := by
  induction rows generalizing index pageSet fields with
  | nil =>
      simp only [Postprocess.rowsFromPayload, Except.ok.injEq,
        Prod.mk.injEq] at h
      rw [← h.1]
      exact .nil
  | cons row rows ih =>
      obtain ⟨members, rfl⟩ := hrows row (by simp)
      simp only [Postprocess.rowsFromPayload] at h
      cases hcells : items.mapM (Postprocess.cellFromRow runtime members) with
      | error raised => simp [hcells, bind, Except.bind] at h
      | ok cells =>
          simp only [hcells, bind, Except.bind] at h
          split at h
          · cases h
          · rename_i rest hrest
            cases h
            refine .cons ⟨members, cells, rfl, rfl, hcells⟩ (ih ?_ hrest)
            intro other hother
            exact hrows other (by simp [hother])

theorem arrayFromPayload_eq_ok {spec : Field} {payload : Members}
    {field : ExtractedField}
    (h : Postprocess.arrayFromPayload runtime spec payload = .ok field) :
    ∃ rows fields pages,
      Postprocess.elements (Postprocess.get "rows" payload) = .ok rows ∧
      Postprocess.rowsFromPayload runtime (Postprocess.rowItems spec) 0 []
        rows = .ok (fields, pages) ∧ field.value = .list fields := by
  simp only [Postprocess.arrayFromPayload, bind_eq_ok_iff] at h
  obtain ⟨rows, hrows, ⟨fields, pages⟩, hfields, _, -, _, -, h⟩ := h
  cases h
  exact ⟨rows, fields, pages, hrows, hfields, rfl⟩

variable {pick : Pick}

theorem readsRow_of_agrees {columns : List Field}
    (hnodup : (columns.map Field.name).Nodup)
    (hagrees : Agrees pick (Schema.rowFields runtime columns)
      (columns.map Field.name)) {given : JsonValue}
    {members : Members} {cells : List ExtractedField} {row : ExtractedField}
    (hvalidate : (Schema.rowModel runtime columns).validate given =
      some (.obj members))
    (hcells : columns.mapM (Postprocess.cellFromRow runtime members) =
      .ok cells) (hvalue : row.value = .list cells) :
    ReadsRow runtime pick columns given row := by
  obtain ⟨payload, rfl⟩ := AliasedModel.exists_of_validate hvalidate
  refine ⟨payload, cells, rfl, hvalue, ?_⟩
  obtain ⟨items, hitems, hlookups⟩ :=
    lookup_createModel (columns.map Field.name) hnodup hvalidate
  cases hitems
  refine forall₂_zip (by simp [Schema.rowFields]) (mapM_eq_ok_iff.mp hcells) ?_
  intro entry hentry cell _ hcell
  obtain ⟨-, hread, hdefault, -⟩ := entry_fieldsOf _ _ _ _ hentry
  obtain ⟨answer, hanswer, hlookup | ⟨hlookup, hkept⟩⟩ := hlookups entry hentry
  · obtain ⟨leaf, rfl⟩ := AliasedModel.obj_of_validate
      (validate_of_answer hread hdefault hanswer)
    simp only [Postprocess.cellFromRow, hlookup] at hcell
    rw [← hagrees _ (List.of_mem_zip hentry).1] at hanswer
    exact ⟨.obj leaf, hanswer, hcell⟩
  · simp only [Postprocess.cellFromRow, hlookup] at hcell
    rw [hkept] at hanswer
    obtain rfl : entry.1.default = answer := Option.some.inj hanswer
    refine ⟨entry.1.default, ?_, ?_⟩
    · rw [hagrees _ (List.of_mem_zip hentry).1, hkept]
      rfl
    · rw [hdefault, scalarFromPayload_defaults]
      exact hcell

theorem readsField_of_agrees {names : List String} {payload : Members}
    {entry : AliasedField × Field} {dumped : JsonValue} {field : ExtractedField}
    (hread : entry.1.read = (Schema.fieldModel runtime entry.2).validate)
    (hdefault : entry.1.default = (Schema.fieldModel runtime entry.2).defaults)
    (hcolumns : entry.2.type = .array →
      ((Postprocess.rowItems entry.2).map Field.name).Nodup ∧
      Agrees pick (Schema.rowFields runtime (Postprocess.rowItems entry.2))
        ((Postprocess.rowItems entry.2).map Field.name))
    (hanswer : entry.1.answer (pick entry.1 names payload) = some dumped)
    (hfield : Postprocess.fieldFromPayload runtime entry.2
      (Postprocess.orEmpty dumped) = .ok field) :
    ReadsField runtime pick names payload entry field := by
  refine ⟨⟨dumped, hanswer, hfield⟩, ?_⟩
  intro harray
  obtain ⟨hnodup, hagrees⟩ := hcolumns harray
  have hvalidate := validate_of_answer hread hdefault hanswer
  rw [Schema.fieldModel, if_pos harray] at hvalidate
  obtain ⟨items, rows, rfl, hlookup, hrows⟩ := rows_of_validate hvalidate
  rw [Postprocess.fieldFromPayload, if_pos harray] at hfield
  obtain ⟨dumps, fields, pages, hdumps, hfields, hvalue⟩ :=
    arrayFromPayload_eq_ok hfield
  simp only [Postprocess.get, Postprocess.orEmpty, hlookup, Option.getD_some,
    elements_arr, Except.ok.injEq] at hdumps
  subst hdumps
  refine ⟨fields, hvalue, ?_⟩
  have hobjects : ∀ row ∈ rows, ∃ members, row = .obj members := by
    intro row hrow
    obtain ⟨given, -, hgiven⟩ := exists_of_mem_right hrows hrow
    exact AliasedModel.obj_of_validate hgiven
  have hrow := rowsFromPayload_eq_ok hobjects hfields
  refine forall₂_comp hrows hrow ?_
  rintro given row extracted hgiven ⟨members, cells, rfl, hcells, hmap⟩
  exact readsRow_of_agrees hnodup hagrees hgiven hmap hcells

theorem readsGroup_of_agrees {names : List String}
    {payload inner : Members} {entry : AliasedField × FieldGroup}
    {dumped : JsonValue} {fields : List ExtractedField}
    (hread : entry.1.read =
      (Schema.buildFieldGroupModel runtime entry.2.fields).validate)
    (hdefault : entry.1.default =
      (Schema.buildFieldGroupModel runtime entry.2.fields).defaults)
    (hdistinct : (entry.2.fields.map Field.name).Nodup)
    (hagrees : Agrees pick (Schema.groupFields runtime entry.2.fields)
      (entry.2.fields.map Field.name))
    (hcolumns : ∀ spec ∈ entry.2.fields, spec.type = .array →
      ((Postprocess.rowItems spec).map Field.name).Nodup ∧
      Agrees pick (Schema.rowFields runtime (Postprocess.rowItems spec))
        ((Postprocess.rowItems spec).map Field.name))
    (hanswer : entry.1.answer (pick entry.1 names payload) = some dumped)
    (hinner : inner = Postprocess.orEmpty dumped ∨
      inner = [] ∧ pick entry.1 names payload = none)
    (hfields : entry.2.fields.mapM (fun spec =>
      Postprocess.fieldFromPayload runtime spec
        (Postprocess.orEmpty (Postprocess.get spec.name inner))) =
          .ok fields) :
    ReadsGroup runtime pick names payload entry
      { name := entry.2.name, fields } := by
  obtain ⟨items, rfl, hlookups⟩ :=
    lookup_createModel (entry.2.fields.map Field.name) hdistinct
      (validate_of_answer hread hdefault hanswer)
  refine ⟨rfl, ?_⟩
  refine forall₂_zip (by simp [Schema.groupFields])
    (mapM_eq_ok_iff.mp hfields) ?_
  intro leaf hleaf field _ hfield
  obtain ⟨-, hread, hdefault, -⟩ := entry_fieldsOf _ _ _ _ hleaf
  have hmem := List.of_mem_zip hleaf
  obtain ⟨answer, hanswer, hlookup⟩ := hlookups leaf hleaf
  refine readsField_of_agrees hread hdefault (hcolumns _ hmem.2)
    (by rw [hagrees _ hmem.1]; exact hanswer) ?_
  rw [← hfield]
  have hnothing : kept leaf.1 (entry.2.fields.map Field.name)
        (membersOf (pick entry.1 names payload)) = none →
      Postprocess.fieldFromPayload runtime leaf.2
        (Postprocess.orEmpty answer) =
      Postprocess.fieldFromPayload runtime leaf.2 [] := by
    intro hkept
    rw [hkept] at hanswer
    rw [← Option.some.inj hanswer, hdefault, fieldFromPayload_defaults]
  rcases hinner with rfl | ⟨rfl, hpick⟩
  · rcases hlookup with hlookup | ⟨hlookup, hkept⟩
    · simp [Postprocess.get, Postprocess.orEmpty, hlookup]
    · rw [hnothing hkept]
      simp [Postprocess.get, Postprocess.orEmpty, hlookup]
  · exact hnothing (by rw [hpick]; exact kept_nil _ _)

theorem reads_of_agrees {doc : DocumentTypeSpec} (hdistinct : Distinct doc)
    (hagrees : AgreesOn runtime pick doc) {payload : Members}
    {groups : List ExtractedFieldGroup}
    (h : Postprocess.normalised runtime doc (.obj payload) = .ok groups) :
    Reads runtime pick doc payload groups := by
  obtain ⟨-, output, hvalidate, hnormalised⟩ :=
    (Postprocess.normalised_eq_ok_iff runtime).mp h
  obtain ⟨items, hitems, hlookups⟩ := lookup_createModel
    (doc.fieldGroups.map FieldGroup.name) hdistinct.groups hvalidate
  cases hitems
  refine forall₂_zip (by simp [Schema.outputFields])
    (mapM_eq_ok_iff.mp hnormalised) ?_
  intro entry hentry group _ hgroup
  obtain ⟨-, hread, hdefault, -⟩ := entry_fieldsOf _ _ _ _ hentry
  have hmem := List.of_mem_zip hentry
  obtain ⟨answer, hanswer, hlookup⟩ := hlookups entry hentry
  rw [← hagrees.groups _ hmem.1] at hanswer hlookup
  simp only [Postprocess.groupFromOutput, bind_eq_ok_iff] at hgroup
  obtain ⟨fields, hfields, hgroup⟩ := hgroup
  cases hgroup
  refine readsGroup_of_agrees hread hdefault (hdistinct.fields _ hmem.2)
    (hagrees.fields _ hmem.2)
    (fun spec hspec harray =>
      ⟨hdistinct.columns _ hmem.2 spec hspec harray,
        hagrees.columns _ hmem.2 spec hspec harray⟩) hanswer ?_ hfields
  rcases hlookup with hlookup | ⟨hlookup, hpick⟩
  · exact .inl (by simp [Postprocess.get, hlookup])
  · exact .inr ⟨by simp [Postprocess.get, Postprocess.orEmpty, hlookup], hpick⟩

end

/-! ## Unambiguous keys suffice -/

theorem agreesOn_kept (runtime : Runtime) (doc : DocumentTypeSpec) :
    AgreesOn runtime kept doc where
  groups := fun _ _ => rfl
  fields := fun _ _ _ _ => rfl
  columns := fun _ _ _ _ _ _ _ => rfl

theorem agrees_own {Item : Type} {fallback : String} {name : Item → String}
    {model : Item → AliasedModel} {items : List Item}
    (h : NoClash fallback (items.map name))
    (hattrs : Unreserved fallback (items.map name)) :
    Agrees AliasedField.own (Schema.fieldsOf fallback name model items)
      (items.map name) := by
  intro field hfield
  funext members
  obtain ⟨item, hentry⟩ := exists_entry hfield
  have hattr := (List.of_mem_zip (entry_fieldsOf _ _ _ _ hentry).2.2.2).1
  rw [kept, if_neg (hattrs _ hattr).1]
  exact AliasedField.own_eq_given ((noClash_iff _ _ _ _).mp h field hfield)
    members

theorem rowItems_of_object {spec row : Field} {columns : List Field}
    (hitems : spec.items = some row) (hobject : row.type = .object)
    (hcolumns : row.fields = some columns) (hne : columns ≠ []) :
    Postprocess.rowItems spec = columns ∧
      FieldValidator.subSpecs spec = columns := by
  obtain ⟨first, rest, rfl⟩ := List.exists_cons_of_ne_nil hne
  simp [Postprocess.rowItems, Schema.itemsSpecs, FieldValidator.subSpecs,
    hitems, hobject, hcolumns]

theorem fields_of_object {field : Field} (h : field.WellFormed)
    (hobject : field.type = .object) :
    ∃ columns, field.fields = some columns ∧ columns ≠ [] := by
  cases h with
  | intro _ hcheck _ _ =>
      simp only [Field.checkConstraints, hobject, Bool.and_eq_true] at hcheck
      cases hfields : field.fields with
      | none => simp [hfields] at hcheck
      | some columns =>
          cases columns with
          | nil => simp [hfields] at hcheck
          | cons first rest => exact ⟨_, rfl, by simp⟩

theorem items_of_array {field : Field} (h : field.WellFormed)
    (harray : field.type = .array) :
    ∃ row, field.items = some row ∧ row.WellFormed := by
  cases h with
  | intro _ hcheck hitems _ =>
      simp only [Field.checkConstraints, harray, Bool.and_eq_true,
        Option.isSome_iff_exists] at hcheck
      obtain ⟨row, hrow⟩ := hcheck.2.1
      exact ⟨row, hrow, hitems row hrow⟩

section

variable {runtime : Runtime} {doc : DocumentTypeSpec}

theorem wellFormed_of_mem (hformed : doc.WellFormed) {group : FieldGroup}
    (hgroup : group ∈ doc.fieldGroups) {spec : Field}
    (hspec : spec ∈ group.fields) : spec.WellFormed :=
  (hformed.2.2.1 group hgroup).2.2 spec hspec

theorem columns_of_unambiguous (hformed : doc.WellFormed)
    (h : Unambiguous doc) {group : FieldGroup}
    (hgroup : group ∈ doc.fieldGroups) {spec : Field}
    (hspec : spec ∈ group.fields) (harray : spec.type = .array) :
    FieldValidator.subSpecs spec = Postprocess.rowItems spec ∧
      ((Postprocess.rowItems spec).map Field.name).Nodup ∧
      NoClash "f" ((Postprocess.rowItems spec).map Field.name) ∧
      Unreserved "f" ((Postprocess.rowItems spec).map Field.name) := by
  obtain ⟨row, columns, hitems, hobject, hcolumns, hnames⟩ :=
    h.columns group hgroup spec hspec harray
  obtain ⟨row', hitems', hrow⟩ :=
    items_of_array (wellFormed_of_mem hformed hgroup hspec) harray
  rw [hitems, Option.some.injEq] at hitems'
  subst hitems'
  obtain ⟨columns', hcolumns', hne⟩ := fields_of_object hrow hobject
  rw [hcolumns, Option.some.injEq] at hcolumns'
  subst hcolumns'
  obtain ⟨hrows, hsubs⟩ := rowItems_of_object hitems hobject hcolumns hne
  rw [hrows, hsubs]
  exact ⟨rfl, hnames⟩

theorem distinct_of_unambiguous (hformed : doc.WellFormed)
    (hfields : ∀ group ∈ doc.fieldGroups, (group.fields.map Field.name).Nodup)
    (h : Unambiguous doc) : Distinct doc where
  groups := h.groupNames
  fields := hfields
  columns := fun _ hgroup _ hspec harray =>
    (columns_of_unambiguous hformed h hgroup hspec harray).2.1

theorem reads_of_unambiguous (hformed : doc.WellFormed)
    (hfields : ∀ group ∈ doc.fieldGroups, (group.fields.map Field.name).Nodup)
    (h : Unambiguous doc) {payload : Members}
    {groups : List ExtractedFieldGroup}
    (hgroups : Postprocess.normalised runtime doc (.obj payload) =
      .ok groups) :
    Reads runtime AliasedField.own doc payload groups := by
  refine reads_of_agrees (distinct_of_unambiguous hformed hfields h) ?_ hgroups
  exact {
    groups := agrees_own h.groupKeys h.groupAttrs
    fields := fun group hgroup =>
      agrees_own (h.fieldKeys group hgroup) (h.fieldAttrs group hgroup)
    columns := fun group hgroup spec hspec harray =>
      have hcolumns := columns_of_unambiguous hformed h hgroup hspec harray
      agrees_own hcolumns.2.2.1 hcolumns.2.2.2 }

theorem boundToOwn_of_unambiguous (hformed : doc.WellFormed)
    (hfields : ∀ group ∈ doc.fieldGroups, (group.fields.map Field.name).Nodup)
    (h : Unambiguous doc) : BoundToOwn doc := by
  intro groupIndex group hgroup
  refine ⟨position_self_iff.mpr h.groupNames _ _ hgroup, ?_⟩
  intro fieldIndex spec hspec
  have hgroupMem := List.mem_of_getElem? hgroup
  refine ⟨position_self_iff.mpr (hfields group hgroupMem) _ _ hspec, ?_⟩
  intro harray columnIndex column hcolumn
  obtain ⟨hsubs, hnodup, -⟩ := columns_of_unambiguous hformed h hgroupMem
    (List.mem_of_getElem? hspec) harray
  rw [hsubs]
  exact position_self_iff.mpr hnodup _ _ hcolumn

end

/-! ## Every field is validated against its own spec -/

theorem fieldFromPayload_name {runtime : Runtime} {spec : Field}
    {payload : Members} {field : ExtractedField}
    (h : Postprocess.fieldFromPayload runtime spec payload = .ok field) :
    field.name = spec.name := by
  rw [Postprocess.fieldFromPayload] at h
  split at h
  · simp only [Postprocess.arrayFromPayload, bind_eq_ok_iff] at h
    obtain ⟨_, -, _, -, _, -, _, -, h⟩ := h
    cases h
    rfl
  · simp only [Postprocess.scalarFromPayload, bind_eq_ok_iff] at h
    obtain ⟨_, -, _, -, _, -, _, -, h⟩ := h
    cases h
    rfl

theorem map_eq_zipWith {First Second Third : Type*} {firsts : List First}
    {seconds : List Second} {update : Second → Third}
    {join : First → Second → Third}
    (h : List.Forall₂ (fun first second => update second = join first second)
      firsts seconds) :
    seconds.map update = List.zipWith join firsts seconds := by
  induction h with
  | nil => rfl
  | cons hfirst _ ih => simp [hfirst, ih]

theorem validateGroup_of_own (self : FieldValidator) {spec : FieldGroup}
    {group : ExtractedFieldGroup}
    (hown : ∀ index field, spec.fields[index]? = some field →
      position Field.name spec.fields field.name = some index)
    (hnames : List.Forall₂ (fun (field : Field) (extracted : ExtractedField) =>
      extracted.name = field.name) spec.fields group.fields) :
    self.validateGroup spec group =
      { group with
        fields := List.zipWith self.validateField spec.fields group.fields } := by
  rw [FieldValidator.validateGroup]
  congr 1
  refine map_eq_zipWith ?_
  rw [List.forall₂_iff_get]
  refine ⟨hnames.length_eq, ?_⟩
  intro index hindex hlt
  have hname := hnames.get hindex hlt
  have hposition := hown index _ (List.getElem?_eq_getElem hindex)
  simp only [List.get_eq_getElem] at hname ⊢
  rw [hname, FieldValidator.specFor, lookupLast_eq_getElem, hposition]
  simp [List.getElem?_eq_getElem hindex]

theorem validate_of_boundToOwn (self : FieldValidator) {runtime : Runtime}
    {doc : DocumentTypeSpec} (hbound : BoundToOwn doc) {output : Members}
    {groups : List ExtractedFieldGroup}
    (h : Postprocess.normaliseDoc runtime output doc = .ok groups) :
    self.validate doc.fieldGroups groups =
      List.zipWith (fun spec group =>
        { group with
          fields := List.zipWith self.validateField spec.fields group.fields })
        doc.fieldGroups groups := by
  have hread := mapM_eq_ok_iff.mp h
  rw [FieldValidator.validate]
  split
  · rename_i hempty
    have hnil : groups = [] := by
      rcases hempty with hempty | hempty
      · have hlength := hread.length_eq
        rw [hempty] at hlength
        exact List.length_eq_zero_iff.mp hlength.symm
      · exact hempty
    simp [hnil]
  · refine map_eq_zipWith ?_
    rw [List.forall₂_iff_get]
    refine ⟨hread.length_eq, ?_⟩
    intro index hindex hlt
    have hgroup := hread.get hindex hlt
    simp only [Postprocess.groupFromOutput, bind_eq_ok_iff] at hgroup
    obtain ⟨fields, hfields, hgroup⟩ := hgroup
    obtain ⟨hposition, hinner⟩ :=
      hbound index _ (List.getElem?_eq_getElem hindex)
    have hgroupFor : FieldValidator.groupFor doc.fieldGroups
        doc.fieldGroups[index].name = some doc.fieldGroups[index] := by
      rw [FieldValidator.groupFor, lookupLast_eq_getElem, hposition]
      simp
    simp only [List.get_eq_getElem] at hgroup ⊢
    rw [← Except.ok.inj hgroup]
    simp only [hgroupFor]
    exact validateGroup_of_own self
      (fun fieldIndex spec hspec => (hinner fieldIndex spec hspec).1)
      ((mapM_eq_ok_iff.mp hfields).imp fun _ _ => fieldFromPayload_name)

end FieldKeys

end Flydocs
