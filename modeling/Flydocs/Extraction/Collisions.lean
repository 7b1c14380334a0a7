import Flydocs.Extraction.FieldKeys
import Flydocs.Validation.RequestValidator

/-!
# Colliding keys

An attribute name that is also a declared name lets one group, field or column
take the payload of another.  A payload with a single note, put under such a
key, tells the two apart.
-/

namespace Flydocs

open Foundation Dtos JsonValue

namespace FieldKeys

/-! ## Noted payloads -/

section

variable (runtime : Runtime)

def noteMembers : Bool → Members
  | false => []
  | true => [("notes", runtime.scalars.str.dump "x")]

def noteDump : Bool → JsonValue
  | false => .null
  | true => .str "x"

def noteText : Bool → Option String
  | false => none
  | true => some "x"

def scalarDump (noted : Bool) : Members :=
  [("value", .null), ("confidence", .float 0), ("page", .null),
    ("bbox", Schema.RawBBox.dump {}), ("notes", noteDump noted)]

def arrayDump (rows : List JsonValue) (noted : Bool) : Members :=
  [("rows", .arr rows), ("pages", .arr []), ("confidence", .float 0),
    ("notes", noteDump noted)]

theorem readNullable_dump {Value : Type} (scalar : Scalar Value)
    (dump : Value → JsonValue) (value : Value) :
    Schema.readNullable scalar dump (fun _ => true) (scalar.dump value) =
      some (dump value) := by
  unfold Schema.readNullable
  split
  · rename_i hnull
    exact absurd hnull (scalar.dump_ne_null value)
  · simp [scalar.validate_dump]

theorem scalarFieldModel_validate_note (type : FieldType) (noted : Bool) :
    (Schema.scalarFieldModel runtime type).validate
      (.obj (noteMembers runtime noted)) = some (.obj (scalarDump noted)) := by
  refine AliasedModel.validate_eq_some_iff.mpr
    ⟨[.null, .float 0, .null, Schema.RawBBox.dump {}, noteDump noted], ?_, ?_⟩
  · cases noted <;>
      simp [Schema.scalarFieldModel, noteMembers, noteDump, AliasedField.plain,
        AliasedField.given, AliasedField.answer, Schema.confidenceField,
        Schema.notesField, readNullable_dump]
  · cases noted <;> rfl

theorem arrayFieldModel_validate_note (spec : Field) (noted : Bool) :
    (Schema.arrayFieldModel runtime spec).validate
      (.obj (noteMembers runtime noted)) =
        some (.obj (arrayDump [] noted)) := by
  refine AliasedModel.validate_eq_some_iff.mpr
    ⟨[.arr [], .arr [], .float 0, noteDump noted], ?_, ?_⟩
  · cases noted <;>
      simp [Schema.arrayFieldModel, noteMembers, noteDump, AliasedField.plain,
        AliasedField.given, AliasedField.answer, Schema.confidenceField,
        Schema.notesField, readNullable_dump]
  · cases noted <;> rfl

theorem maybeStr_noteDump (noted : Bool) :
    Postprocess.maybeStr (noteDump noted) = noteText noted := by
  cases noted <;> decide

theorem scalarFromPayload_note (spec : Field) (noted : Bool) :
    Postprocess.scalarFromPayload runtime spec (scalarDump noted) =
      .ok { name := spec.name, value := .null, notes := noteText noted } := by
  simp [Postprocess.scalarFromPayload, scalarDump, Postprocess.get,
    Schema.coerceScalar, clamp01_zero, Postprocess.intOrNone,
    Postprocess.fieldValue, maybeStr_noteDump, bind, Except.bind, pure,
    Except.pure]

theorem arrayFromPayload_note (spec : Field) (noted : Bool) :
    Postprocess.arrayFromPayload runtime spec (arrayDump [] noted) =
      .ok { name := spec.name, value := .list [], notes := noteText noted } := by
  simp [Postprocess.arrayFromPayload, arrayDump, Postprocess.get,
    elements_arr, Postprocess.rowsFromPayload, clamp01_zero, maybeStr_noteDump,
    bind, Except.bind, pure, Except.pure, Postprocess.sorted]

theorem answer_note {field : AliasedField} {model : AliasedModel}
    (hread : field.read = model.validate)
    (hdefault : field.default = model.defaults) {dump : Bool → Members}
    (hmodel : ∀ noted, model.validate (.obj (noteMembers runtime noted)) =
      some (.obj (dump noted))) {given : Option JsonValue} {noted : Bool}
    (hgiven : given = if noted then some (.obj (noteMembers runtime true))
      else none) : field.answer given = some (.obj (dump noted)) := by
  subst hgiven
  cases noted with
  | false =>
      have hempty : some model.defaults = some (.obj (dump false)) := by
        rw [← model.validate_empty]
        exact hmodel false
      simp only [Bool.false_eq_true, if_false, AliasedField.answer, hdefault]
      exact hempty
  | true =>
      simp only [if_true, AliasedField.answer, hread]
      exact hmodel true

end

section

variable {runtime : Runtime} {pick : Pick} {names : List String}
  {payload : Members}

theorem notes_of_readsField {entry : AliasedField × Field}
    (hread : entry.1.read = (Schema.fieldModel runtime entry.2).validate)
    (hdefault : entry.1.default = (Schema.fieldModel runtime entry.2).defaults)
    {noted : Bool}
    (hpick : pick entry.1 names payload =
      if noted then some (.obj (noteMembers runtime true)) else none)
    {field : ExtractedField}
    (h : ReadsField runtime pick names payload entry field) :
    field.notes = noteText noted := by
  obtain ⟨⟨dumped, hanswer, hfield⟩, -⟩ := h
  by_cases harray : entry.2.type = .array
  · rw [Schema.fieldModel, if_pos harray] at hread hdefault
    rw [answer_note runtime hread hdefault
      (arrayFieldModel_validate_note runtime entry.2) hpick] at hanswer
    cases hanswer
    rw [Postprocess.fieldFromPayload, if_pos harray, Postprocess.orEmpty,
      arrayFromPayload_note] at hfield
    cases hfield
    rfl
  · rw [Schema.fieldModel, if_neg harray] at hread hdefault
    rw [answer_note runtime hread hdefault
      (scalarFieldModel_validate_note runtime entry.2.type) hpick] at hanswer
    cases hanswer
    rw [Postprocess.fieldFromPayload, if_neg harray, Postprocess.orEmpty,
      scalarFromPayload_note] at hfield
    cases hfield
    rfl

theorem notes_of_readsCell {column : AliasedField × Field}
    (hread : column.1.read =
      (Schema.scalarFieldModel runtime column.2.type).validate)
    (hdefault : column.1.default =
      (Schema.scalarFieldModel runtime column.2.type).defaults)
    (noted : Bool)
    (hpick : pick column.1 names payload =
      if noted then some (.obj (noteMembers runtime true)) else none)
    {cell : ExtractedField}
    (h : ReadsCell runtime pick names payload column cell) :
    cell.notes = noteText noted := by
  obtain ⟨dumped, hanswer, hcell⟩ := h
  rw [answer_note runtime hread hdefault
    (scalarFieldModel_validate_note runtime column.2.type) hpick] at hanswer
  cases hanswer
  rw [Postprocess.orEmpty, scalarFromPayload_note] at hcell
  cases hcell
  rfl

/-! ## Noted payloads are accepted -/

def Accepts (runtime : Runtime) (names : List String) (members : Members)
    (entry : AliasedField × Field) : Prop :=
  ∃ dumped field, entry.1.answer (kept entry.1 names members) = some dumped ∧
    Postprocess.fieldFromPayload runtime entry.2
      (Postprocess.orEmpty dumped) = .ok field

theorem accepts_note {entry : AliasedField × Field}
    (hread : entry.1.read = (Schema.fieldModel runtime entry.2).validate)
    (hdefault : entry.1.default = (Schema.fieldModel runtime entry.2).defaults)
    {names : List String} {members : Members} (noted : Bool)
    (hkept : kept entry.1 names members =
      if noted then some (.obj (noteMembers runtime true)) else none) :
    Accepts runtime names members entry := by
  by_cases harray : entry.2.type = .array
  · rw [Schema.fieldModel, if_pos harray] at hread hdefault
    exact ⟨_, _, answer_note runtime hread hdefault
      (arrayFieldModel_validate_note runtime entry.2) hkept,
      (if_pos harray).trans (arrayFromPayload_note runtime entry.2 noted)⟩
  · rw [Schema.fieldModel, if_neg harray] at hread hdefault
    exact ⟨_, _, answer_note runtime hread hdefault
      (scalarFieldModel_validate_note runtime entry.2.type) hkept,
      (if_neg harray).trans (scalarFromPayload_note runtime entry.2 noted)⟩

theorem exists_field_nil (runtime : Runtime) (spec : Field) :
    ∃ field, Postprocess.fieldFromPayload runtime spec [] = .ok field :=
  ⟨_, fieldFromPayload_nil spec⟩

theorem exists_groupFromOutput {runtime : Runtime} {group : FieldGroup}
    {output : Members} (items : Members)
    (hitems : Postprocess.orEmpty (Postprocess.get group.name output) = items)
    (hfields : ∀ spec ∈ group.fields, ∃ field,
      Postprocess.fieldFromPayload runtime spec
        (Postprocess.orEmpty (Postprocess.get spec.name items)) = .ok field) :
    ∃ extracted, Postprocess.groupFromOutput runtime output group =
      .ok extracted := by
  obtain ⟨fields, hmap⟩ := exists_mapM_eq_ok_iff.mpr hfields
  simp only [Postprocess.groupFromOutput, hitems, bind_eq_ok_iff]
  exact ⟨_, fields, hmap, rfl⟩

theorem exists_group {entry : AliasedField × FieldGroup}
    (hread : entry.1.read =
      (Schema.buildFieldGroupModel runtime entry.2.fields).validate)
    (hdefault : entry.1.default =
      (Schema.buildFieldGroupModel runtime entry.2.fields).defaults)
    (hdistinct : (entry.2.fields.map Field.name).Nodup)
    {given : Option JsonValue}
    (hgiven : ∀ json, given = some json → ∃ members, json = .obj members)
    (haccepts : ∀ inner ∈
      (Schema.groupFields runtime entry.2.fields).zip entry.2.fields,
      Accepts runtime (entry.2.fields.map Field.name) (membersOf given)
        inner) :
    ∃ dumped, entry.1.answer given = some dumped ∧
      ∀ output, Postprocess.get entry.2.name output = dumped →
        ∃ group, Postprocess.groupFromOutput runtime output entry.2 =
          .ok group := by
  obtain ⟨items, hitems, hfields⟩ := exists_members_createModel _
    (entry.2.fields.map Field.name)
    (fun spec answer => ∃ field, Postprocess.fieldFromPayload runtime spec
      (Postprocess.orEmpty answer) = .ok field)
    (fun spec _ => exists_field_nil runtime spec) hdistinct
    fun inner hinner => by
      obtain ⟨answer, field, hanswer, hfield⟩ := haccepts inner hinner
      exact ⟨answer, hanswer, field, hfield⟩
  refine ⟨.obj items, ?_, ?_⟩
  · cases given with
    | none =>
        rw [AliasedField.answer, hdefault]
        exact (AliasedModel.validate_empty _).symm.trans hitems
    | some json =>
        obtain ⟨members, rfl⟩ := hgiven json rfl
        rw [AliasedField.answer, hread]
        exact hitems
  · intro output houtput
    exact exists_groupFromOutput _ (by rw [houtput]; rfl) hfields

theorem exists_normalised {doc : DocumentTypeSpec}
    (hbuilt : Schema.refusesOutput doc = false)
    (hgroups : (doc.fieldGroups.map FieldGroup.name).Nodup)
    (hfields : ∀ group ∈ doc.fieldGroups, (group.fields.map Field.name).Nodup)
    {members : Members}
    (hkept : ∀ entry ∈ (Schema.outputFields runtime doc).zip doc.fieldGroups,
      (∀ json, kept entry.1 (doc.fieldGroups.map FieldGroup.name) members =
        some json → ∃ inner, json = .obj inner) ∧
      ∀ inner ∈ (Schema.groupFields runtime entry.2.fields).zip entry.2.fields,
        Accepts runtime (entry.2.fields.map Field.name)
          (membersOf (kept entry.1 (doc.fieldGroups.map FieldGroup.name)
            members)) inner) :
    ∃ groups, Postprocess.normalised runtime doc (.obj members) =
      .ok groups := by
  obtain ⟨output, houtput, hok⟩ := exists_members_createModel members
    (doc.fieldGroups.map FieldGroup.name)
    (fun (group : FieldGroup) answer => ∀ output,
      Postprocess.get group.name output = answer →
        ∃ extracted, Postprocess.groupFromOutput runtime output group =
          .ok extracted)
    (fun group _ output houtput =>
      exists_groupFromOutput [] (by rw [houtput]; rfl)
        fun spec _ => exists_field_nil runtime spec)
    hgroups
    (fun entry hentry => by
      obtain ⟨-, hread, hdefault, -⟩ := entry_fieldsOf _ _ _ _ hentry
      exact exists_group hread hdefault
        (hfields _ (List.of_mem_zip hentry).2)
        (hkept entry hentry).1 (hkept entry hentry).2)
  obtain ⟨extracted, hextracted⟩ := exists_mapM_eq_ok_iff.mpr
    fun group hgroup => hok group hgroup output rfl
  exact ⟨extracted, (Postprocess.normalised_eq_ok_iff runtime).mpr
    ⟨hbuilt, output, houtput, hextracted⟩⟩

end

/-! ## Clashes are seen -/

theorem exists_both {First Second : Type*}
    {relation other : First → Second → Prop} {firsts : List First}
    {seconds : List Second} (h : List.Forall₂ relation firsts seconds)
    (hother : List.Forall₂ other firsts seconds) {first : First}
    (hmem : first ∈ firsts) :
    ∃ second, relation first second ∧ other first second := by
  obtain ⟨index, hindex, rfl⟩ := List.getElem_of_mem hmem
  have hlt : index < seconds.length := h.length_eq ▸ hindex
  exact ⟨seconds[index], h.get hindex hlt, hother.get hindex hlt⟩

section

variable {runtime : Runtime} {doc : DocumentTypeSpec}

abbrev noteAt (runtime : Runtime) (groupKey fieldKey : String) : Members :=
  [(groupKey, .obj [(fieldKey, .obj (noteMembers runtime true))])]

theorem exists_normalised_singleton
    (hbuilt : Schema.refusesOutput doc = false) (hdistinct : Distinct doc)
    (groupKey fieldKey : String) {content : JsonValue}
    (haccepts : ∀ group ∈ doc.fieldGroups, ∀ inner ∈
      (Schema.groupFields runtime group.fields).zip group.fields,
      ∀ members, kept inner.1 (group.fields.map Field.name) members =
          some content →
        Accepts runtime (group.fields.map Field.name) members inner) :
    ∃ groups, Postprocess.normalised runtime doc
      (.obj [(groupKey, .obj [(fieldKey, content)])]) = .ok groups := by
  refine exists_normalised hbuilt hdistinct.groups hdistinct.fields ?_
  intro entry hentry
  rw [kept_singleton]
  refine ⟨?_, ?_⟩
  · intro json hjson
    split at hjson
    · exact ⟨_, (Option.some.inj hjson).symm⟩
    · cases hjson
  · intro inner hinner
    obtain ⟨-, hread, hdefault, -⟩ := entry_fieldsOf _ _ _ _ hinner
    split
    · have hpick := kept_singleton inner.1 (entry.2.fields.map Field.name)
        fieldKey content
      by_cases hsecond : inner.1.attr ≠ Schema.configName ∧
          (fieldKey = inner.1.name ∨ fieldKey = inner.1.attr)
      · rw [if_pos hsecond] at hpick
        exact haccepts _ (List.of_mem_zip hentry).2 inner hinner _ hpick
      · rw [if_neg hsecond] at hpick
        exact accepts_note hread hdefault false hpick
    · exact accepts_note hread hdefault false (kept_nil _ _)

theorem exists_normalised_noteAt (runtime : Runtime)
    (hbuilt : Schema.refusesOutput doc = false) (hdistinct : Distinct doc)
    (groupKey fieldKey : String) :
    ∃ groups, Postprocess.normalised runtime doc
      (.obj (noteAt runtime groupKey fieldKey)) = .ok groups := by
  refine exists_normalised_singleton hbuilt hdistinct groupKey fieldKey ?_
  intro group _ inner hinner members hkept
  obtain ⟨-, hread, hdefault, -⟩ := entry_fieldsOf _ _ _ _ hinner
  exact accepts_note hread hdefault true hkept

theorem noteText_injective {first second : Bool}
    (h : noteText first = noteText second) : first = second := by
  cases first <;> cases second <;> simp_all [noteText]

/-- A field that is kept apart picks a note under its own keys or not at all. -/
theorem picks_same (hdistinct : Distinct doc) (h : KeptApart runtime doc)
    {members : Members} {groups : List ExtractedFieldGroup}
    (hok : Postprocess.normalised runtime doc (.obj members) = .ok groups)
    {entry : AliasedField × FieldGroup}
    (hentry : entry ∈ (Schema.outputFields runtime doc).zip doc.fieldGroups)
    {inner : AliasedField × Field}
    (hinner : inner ∈
      (Schema.groupFields runtime entry.2.fields).zip entry.2.fields)
    (taken owned : Bool)
    (htaken : kept inner.1 (entry.2.fields.map Field.name)
      (membersOf (kept entry.1 (doc.fieldGroups.map FieldGroup.name) members)) =
      if taken then some (.obj (noteMembers runtime true)) else none)
    (howned : inner.1.own (entry.2.fields.map Field.name)
      (membersOf (entry.1.own (doc.fieldGroups.map FieldGroup.name) members)) =
      if owned then some (.obj (noteMembers runtime true)) else none) :
    taken = owned := by
  obtain ⟨-, hread, hdefault, -⟩ := entry_fieldsOf _ _ _ _ hinner
  have hkept := reads_of_agrees hdistinct (agreesOn_kept runtime doc) hok
  obtain ⟨group, hgroup, hgroup'⟩ :=
    exists_both hkept (h.values members groups hok) hentry
  obtain ⟨field, hfield, hfield'⟩ := exists_both hgroup.2 hgroup'.2 hinner
  have hnotes := notes_of_readsField hread hdefault htaken hfield
  have hnotes' := notes_of_readsField hread hdefault howned hfield'
  exact noteText_injective (hnotes.symm.trans hnotes')

theorem exists_inner (runtime : Runtime) (hformed : doc.WellFormed)
    {group : FieldGroup} (hgroup : group ∈ doc.fieldGroups) :
    ∃ inner, inner ∈ (Schema.groupFields runtime group.fields).zip
      group.fields := by
  obtain ⟨spec, hspec⟩ := List.exists_mem_of_ne_nil _
    (hformed.2.2.1 group hgroup).2.1
  obtain ⟨field, hfield⟩ := exists_entry_of_item hspec
  exact ⟨(field, spec), hfield⟩

theorem ne_configName_group (hformed : doc.WellFormed)
    (hbuilt : Schema.refusesOutput doc = false) (hdistinct : Distinct doc)
    (h : KeptApart runtime doc) {field : AliasedField}
    (hfield : field ∈ Schema.outputFields runtime doc) :
    field.attr ≠ Schema.configName := by
  intro hconfig
  obtain ⟨group, hentry⟩ := exists_entry hfield
  obtain ⟨inner, hinner⟩ :=
    exists_inner runtime hformed (List.of_mem_zip hentry).2
  obtain ⟨groups, hok⟩ := exists_normalised_noteAt runtime hbuilt hdistinct
    field.name inner.1.name
  have hsame := picks_same hdistinct h hok hentry hinner false true
    (by simp [kept_singleton, hconfig, membersOf, kept_nil])
    (by simp [AliasedField.own, membersOf])
  simp at hsame

theorem ne_configName_field (hbuilt : Schema.refusesOutput doc = false)
    (hdistinct : Distinct doc) (h : KeptApart runtime doc)
    {group : FieldGroup} (hgroup : group ∈ doc.fieldGroups)
    {field : AliasedField}
    (hfield : field ∈ Schema.groupFields runtime group.fields) :
    field.attr ≠ Schema.configName := by
  intro hconfig
  obtain ⟨spec, hinner⟩ := exists_entry hfield
  obtain ⟨entry, hentry⟩ : ∃ entry, (entry, group) ∈
      (Schema.outputFields runtime doc).zip doc.fieldGroups :=
    exists_entry_of_item hgroup
  obtain ⟨groups, hok⟩ := exists_normalised_noteAt runtime hbuilt hdistinct
    entry.name field.name
  have hsame := picks_same hdistinct h hok hentry hinner false true
    (by simp [kept, hconfig]) (by simp [AliasedField.own, membersOf])
  simp at hsame

theorem noClash_groups (hformed : doc.WellFormed)
    (hbuilt : Schema.refusesOutput doc = false) (hdistinct : Distinct doc)
    (h : KeptApart runtime doc) :
    NoClash "g" (doc.fieldGroups.map FieldGroup.name) := by
  rw [noClash_iff "g" FieldGroup.name
    (fun group => Schema.buildFieldGroupModel runtime group.fields)]
  intro field hfield hclash
  have hconfig := ne_configName_group hformed hbuilt hdistinct h hfield
  obtain ⟨group, hentry⟩ := exists_entry hfield
  obtain ⟨inner, hinner⟩ :=
    exists_inner runtime hformed (List.of_mem_zip hentry).2
  have hinnerConfig := ne_configName_field hbuilt hdistinct h
    (List.of_mem_zip hentry).2 (List.of_mem_zip hinner).1
  obtain ⟨groups, hok⟩ := exists_normalised_noteAt runtime hbuilt hdistinct
    field.attr inner.1.name
  have hsame := picks_same hdistinct h hok hentry hinner true false
    (by simp [kept_singleton, membersOf, hconfig, hinnerConfig])
    (by
      rw [AliasedField.own_of_clashes hclash]
      simp [membersOf, AliasedField.own])
  simp at hsame

theorem noClash_fields (hformed : doc.WellFormed)
    (hbuilt : Schema.refusesOutput doc = false) (hdistinct : Distinct doc)
    (h : KeptApart runtime doc) {group : FieldGroup}
    (hgroup : group ∈ doc.fieldGroups) :
    NoClash "f" (group.fields.map Field.name) := by
  rw [noClash_iff "f" Field.name (Schema.fieldModel runtime)]
  intro field hfield hclash
  have hconfig := ne_configName_field hbuilt hdistinct h hgroup hfield
  obtain ⟨spec, hinner⟩ := exists_entry hfield
  obtain ⟨entry, hentry⟩ : ∃ entry, (entry, group) ∈
      (Schema.outputFields runtime doc).zip doc.fieldGroups :=
    exists_entry_of_item hgroup
  have hentryConfig := ne_configName_group hformed hbuilt hdistinct h
    (List.of_mem_zip hentry).1
  obtain ⟨groups, hok⟩ := exists_normalised_noteAt runtime hbuilt hdistinct
    entry.name field.attr
  have hsame := picks_same hdistinct h hok hentry hinner true false
    (by simp [kept_singleton, membersOf, hconfig, hentryConfig])
    (by simp [AliasedField.own, membersOf, hclash.1, hclash.2])
  simp at hsame

/-! ## Clashes of columns -/

abbrev rowsAt (runtime : Runtime) (columnKey : String) : Members :=
  [("rows", .arr [.obj [(columnKey, .obj (noteMembers runtime true))]])]

theorem scalarFieldModel_validate_rowsAt (type : FieldType)
    (columnKey : String) :
    (Schema.scalarFieldModel runtime type).validate
      (.obj (rowsAt runtime columnKey)) = some (.obj (scalarDump false)) := by
  refine AliasedModel.validate_eq_some_iff.mpr
    ⟨[.null, .float 0, .null, Schema.RawBBox.dump {}, .null], ?_, rfl⟩
  simp [Schema.scalarFieldModel, AliasedField.plain, AliasedField.given,
    AliasedField.answer, Schema.confidenceField, Schema.notesField]

theorem arrayFieldModel_validate_rowsAt {spec : Field} {columnKey : String}
    {row : JsonValue}
    (hrow : (Schema.rowModel runtime (Schema.itemsSpecs spec)).validate
      (.obj [(columnKey, .obj (noteMembers runtime true))]) = some row) :
    (Schema.arrayFieldModel runtime spec).validate
      (.obj (rowsAt runtime columnKey)) =
        some (.obj (arrayDump [row] false)) := by
  refine AliasedModel.validate_eq_some_iff.mpr
    ⟨[.arr [row], .arr [], .float 0, .null], ?_, rfl⟩
  simp [Schema.arrayFieldModel, AliasedField.plain, AliasedField.given,
    AliasedField.answer, Schema.confidenceField, Schema.notesField,
    Schema.readList, hrow]

theorem lookup_singleton (key : String) (json : JsonValue) :
    lookup key [(key, json)] = some json := by
  rw [lookup_cons, if_pos rfl]

theorem cellFromRow_getD (row : Members) (column : Field) :
    Postprocess.cellFromRow runtime
        [(column.name, (lookup column.name row).getD .null)] column =
      Postprocess.cellFromRow runtime row column := by
  unfold Postprocess.cellFromRow
  rw [lookup_singleton]
  cases lookup column.name row <;> rfl

theorem exists_row (runtime : Runtime) (columns : List Field)
    (hnodup : (columns.map Field.name).Nodup) (columnKey : String) :
    ∃ members cells, (Schema.rowModel runtime columns).validate
      (.obj [(columnKey, .obj (noteMembers runtime true))]) =
        some (.obj members) ∧
      columns.mapM (Postprocess.cellFromRow runtime members) = .ok cells := by
  have hcell : ∀ entry ∈ (Schema.rowFields runtime columns).zip columns,
      ∃ answer, entry.1.answer (kept entry.1 (columns.map Field.name)
          [(columnKey, .obj (noteMembers runtime true))]) = some answer ∧
        ∃ cell, Postprocess.cellFromRow runtime [(entry.2.name, answer)]
          entry.2 = .ok cell := by
    intro entry hentry
    obtain ⟨-, hread, hdefault, -⟩ := entry_fieldsOf _ _ _ _ hentry
    obtain ⟨noted, hnoted⟩ : ∃ noted : Bool, kept entry.1
        (columns.map Field.name)
        [(columnKey, .obj (noteMembers runtime true))] =
          if noted then some (.obj (noteMembers runtime true)) else none := by
      rw [kept_singleton]
      split
      · exact ⟨true, rfl⟩
      · exact ⟨false, rfl⟩
    refine ⟨_, answer_note runtime hread hdefault
      (scalarFieldModel_validate_note runtime entry.2.type) hnoted, ?_⟩
    simp only [Postprocess.cellFromRow, lookup_singleton]
    exact ⟨_, scalarFromPayload_note runtime entry.2 noted⟩
  obtain ⟨members, hmembers, hread⟩ := exists_members_createModel _
    (columns.map Field.name)
    (fun column answer => ∃ cell, Postprocess.cellFromRow runtime
      [(column.name, answer)] column = .ok cell)
    (fun column _ => ⟨_, by
      simp only [Postprocess.cellFromRow, lookup_singleton]
      rfl⟩) hnodup hcell
  obtain ⟨cells, hmap⟩ := exists_mapM_eq_ok_iff.mpr fun column hcolumn => by
    obtain ⟨cell, hcell⟩ := hread column hcolumn
    rw [cellFromRow_getD] at hcell
    exact ⟨cell, hcell⟩
  exact ⟨members, cells, hmembers, hmap⟩

theorem accepts_rowsAt {entry : AliasedField × Field}
    (hread : entry.1.read = (Schema.fieldModel runtime entry.2).validate)
    (hcolumns : entry.2.type = .array →
      ((Postprocess.rowItems entry.2).map Field.name).Nodup)
    {names : List String} {members : Members} (columnKey : String)
    (hkept : kept entry.1 names members =
      some (.obj (rowsAt runtime columnKey))) :
    Accepts runtime names members entry := by
  rw [Accepts, hkept]
  simp only [AliasedField.answer, hread]
  by_cases harray : entry.2.type = .array
  · obtain ⟨row, cells, hrow, hcells⟩ :=
      exists_row runtime _ (hcolumns harray) columnKey
    have hfield : ∃ field, Postprocess.arrayFromPayload runtime entry.2
        (arrayDump [.obj row] false) = .ok field := by
      simp [Postprocess.arrayFromPayload, arrayDump, Postprocess.get,
        elements_arr, Postprocess.rowsFromPayload, hcells, clamp01_zero, bind,
        Except.bind, pure, Except.pure]
    obtain ⟨field, hfield⟩ := hfield
    simp only [Schema.fieldModel, if_pos harray,
      Postprocess.fieldFromPayload]
    exact ⟨_, field, arrayFieldModel_validate_rowsAt hrow, hfield⟩
  · simp only [Schema.fieldModel, if_neg harray,
      Postprocess.fieldFromPayload]
    exact ⟨_, _, scalarFieldModel_validate_rowsAt entry.2.type columnKey,
      scalarFromPayload_note runtime entry.2 false⟩

theorem exists_normalised_rowsAt (runtime : Runtime)
    (hbuilt : Schema.refusesOutput doc = false)
    (hdistinct : Distinct doc) (groupKey fieldKey columnKey : String) :
    ∃ groups, Postprocess.normalised runtime doc (.obj
      [(groupKey, .obj [(fieldKey, .obj (rowsAt runtime columnKey))])]) =
        .ok groups := by
  refine exists_normalised_singleton hbuilt hdistinct groupKey fieldKey ?_
  intro group hgroup inner hinner members hkept
  obtain ⟨-, hread, -, -⟩ := entry_fieldsOf _ _ _ _ hinner
  exact accepts_rowsAt hread
    (hdistinct.columns _ hgroup _ (List.of_mem_zip hinner).2) columnKey hkept

theorem exists_cells (hformed : doc.WellFormed)
    (hbuilt : Schema.refusesOutput doc = false) (hdistinct : Distinct doc)
    (h : KeptApart runtime doc) {group : FieldGroup}
    (hgroup : group ∈ doc.fieldGroups) {spec : Field}
    (hspec : spec ∈ group.fields) (harray : spec.type = .array)
    (columnKey : String) :
    ∃ cells : List ExtractedField, ∀ pick ∈ [kept, AliasedField.own],
      List.Forall₂
        (ReadsCell runtime pick ((Postprocess.rowItems spec).map Field.name)
          [(columnKey, .obj (noteMembers runtime true))])
        ((Schema.rowFields runtime (Postprocess.rowItems spec)).zip
          (Postprocess.rowItems spec)) cells := by
  obtain ⟨entry, hentry⟩ : ∃ entry, (entry, group) ∈
      (Schema.outputFields runtime doc).zip doc.fieldGroups :=
    exists_entry_of_item hgroup
  obtain ⟨inner, hinner⟩ : ∃ inner, (inner, spec) ∈
      (Schema.groupFields runtime group.fields).zip group.fields :=
    exists_entry_of_item hspec
  have hentryConfig := ne_configName_group hformed hbuilt hdistinct h
    (List.of_mem_zip hentry).1
  have hinnerConfig := ne_configName_field hbuilt hdistinct h hgroup
    (List.of_mem_zip hinner).1
  obtain ⟨groups, hok⟩ := exists_normalised_rowsAt runtime hbuilt
    hdistinct entry.name inner.name columnKey
  have hkept := reads_of_agrees hdistinct (agreesOn_kept runtime doc) hok
  obtain ⟨extracted, hgroup', hgroup''⟩ :=
    exists_both hkept (h.values _ groups hok) hentry
  obtain ⟨array, hfield', hfield''⟩ := exists_both hgroup'.2 hgroup''.2 hinner
  obtain ⟨rows, hvalue, hrows⟩ := hfield'.2 harray
  obtain ⟨rows', hvalue', hrows'⟩ := hfield''.2 harray
  rw [hvalue, FieldValue.list.injEq] at hvalue'
  subst hvalue'
  simp only [kept_singleton, ne_eq, hentryConfig, hinnerConfig,
    not_false_eq_true, true_or, and_self, if_true, membersOf, rowsOf,
    AliasedField.own, lookup_cons, Option.some_or] at hrows hrows'
  obtain ⟨row, hrow, hrow'⟩ := exists_both hrows hrows' (List.mem_singleton_self _)
  obtain ⟨members, cells, hmembers, hvalue, hcells⟩ := hrow
  obtain ⟨members', cells', hmembers', hvalue', hcells'⟩ := hrow'
  cases hmembers
  cases hmembers'
  rw [hvalue, FieldValue.list.injEq] at hvalue'
  subst hvalue'
  exact ⟨cells, by simp [hcells, hcells']⟩

theorem cells_same (hformed : doc.WellFormed)
    (hbuilt : Schema.refusesOutput doc = false) (hdistinct : Distinct doc)
    (h : KeptApart runtime doc) {group : FieldGroup}
    (hgroup : group ∈ doc.fieldGroups) {spec : Field}
    (hspec : spec ∈ group.fields) (harray : spec.type = .array)
    {column : AliasedField × Field}
    (hcolumn : column ∈ (Schema.rowFields runtime
      (Postprocess.rowItems spec)).zip (Postprocess.rowItems spec))
    (columnKey : String) (taken owned : Bool)
    (htaken : kept column.1 ((Postprocess.rowItems spec).map Field.name)
      [(columnKey, .obj (noteMembers runtime true))] =
      if taken then some (.obj (noteMembers runtime true)) else none)
    (howned : column.1.own ((Postprocess.rowItems spec).map Field.name)
      [(columnKey, .obj (noteMembers runtime true))] =
      if owned then some (.obj (noteMembers runtime true)) else none) :
    taken = owned := by
  obtain ⟨cells, hcells⟩ := exists_cells hformed hbuilt hdistinct h hgroup
    hspec harray columnKey
  obtain ⟨cell, hcell, hcell'⟩ := exists_both (hcells kept (by simp))
    (hcells AliasedField.own (by simp)) hcolumn
  obtain ⟨-, hread, hdefault, -⟩ := entry_fieldsOf _ _ _ _ hcolumn
  have hnotes := notes_of_readsCell hread hdefault taken htaken hcell
  have hnotes' := notes_of_readsCell hread hdefault owned howned hcell'
  exact noteText_injective (hnotes.symm.trans hnotes')

theorem ne_configName_column (hformed : doc.WellFormed)
    (hbuilt : Schema.refusesOutput doc = false) (hdistinct : Distinct doc)
    (h : KeptApart runtime doc) {group : FieldGroup}
    (hgroup : group ∈ doc.fieldGroups) {spec : Field}
    (hspec : spec ∈ group.fields) (harray : spec.type = .array)
    {field : AliasedField}
    (hfield : field ∈ Schema.rowFields runtime (Postprocess.rowItems spec)) :
    field.attr ≠ Schema.configName := by
  intro hconfig
  obtain ⟨column, hcolumn⟩ := exists_entry hfield
  have hsame := cells_same hformed hbuilt hdistinct h hgroup hspec harray
    hcolumn field.name false true (by simp [kept, hconfig])
    (by simp [AliasedField.own])
  simp at hsame

theorem noClash_columns (hformed : doc.WellFormed)
    (hbuilt : Schema.refusesOutput doc = false) (hdistinct : Distinct doc)
    (h : KeptApart runtime doc) {group : FieldGroup}
    (hgroup : group ∈ doc.fieldGroups) {spec : Field}
    (hspec : spec ∈ group.fields) (harray : spec.type = .array) :
    NoClash "f" ((Postprocess.rowItems spec).map Field.name) := by
  rw [noClash_iff "f" Field.name
    (fun item => Schema.scalarFieldModel runtime item.type)]
  intro field hfield hclash
  have hconfig := ne_configName_column hformed hbuilt hdistinct h hgroup hspec
    harray hfield
  obtain ⟨column, hcolumn⟩ := exists_entry hfield
  have hsame := cells_same hformed hbuilt hdistinct h hgroup hspec harray
    hcolumn field.attr true false (by simp [kept_singleton, hconfig])
    (by simp [AliasedField.own_of_clashes hclash])
  simp at hsame

/-! ## What an accepted request leaves open -/

theorem fields_none_of_not_object {field : Field} (h : field.WellFormed)
    (hobject : field.type ≠ .object) : field.fields = none := by
  cases h with
  | intro _ hcheck _ _ =>
      simp only [Field.checkConstraints, Bool.and_eq_true] at hcheck
      revert hobject hcheck
      cases field.type <;> simp

theorem object_of_boundToOwn (hformed : doc.WellFormed) (h : BoundToOwn doc)
    {group : FieldGroup} (hgroup : group ∈ doc.fieldGroups) {spec : Field}
    (hspec : spec ∈ group.fields) (harray : spec.type = .array) :
    ∃ row columns, spec.items = some row ∧ row.type = .object ∧
      row.fields = some columns ∧ Postprocess.rowItems spec = columns ∧
      (columns.map Field.name).Nodup := by
  obtain ⟨groupIndex, hgroupIndex⟩ := List.getElem?_of_mem hgroup
  obtain ⟨fieldIndex, hfieldIndex⟩ := List.getElem?_of_mem hspec
  have hbound := ((h groupIndex group hgroupIndex).2 fieldIndex spec
    hfieldIndex).2 harray
  obtain ⟨row, hitems, hrow⟩ :=
    items_of_array (wellFormed_of_mem hformed hgroup hspec) harray
  by_cases hobject : row.type = .object
  · obtain ⟨columns, hcolumns, hne⟩ := fields_of_object hrow hobject
    obtain ⟨hrows, hsubs⟩ := rowItems_of_object hitems hobject hcolumns hne
    rw [hrows, hsubs] at hbound
    exact ⟨row, columns, hitems, hobject, hcolumns, hrows,
      position_self_iff.mp hbound⟩
  · have hfirst := hbound 0 row (by
      simp [Postprocess.rowItems, Schema.itemsSpecs, hitems, hobject])
    simp [FieldValidator.subSpecs, hitems,
      fields_none_of_not_object hrow hobject, position, lookupLast] at hfirst

theorem not_refusesOutput_of_answerable (hformed : doc.WellFormed)
    (h : ∀ group ∈ doc.fieldGroups, ∀ spec ∈ group.fields,
      Answerable runtime doc group spec) :
    Schema.refusesOutput doc = false := by
  obtain ⟨group, hgroup⟩ := List.exists_mem_of_ne_nil _ hformed.2.1
  obtain ⟨spec, hspec⟩ := List.exists_mem_of_ne_nil _
    (hformed.2.2.1 group hgroup).2.1
  obtain ⟨members, groups, -, hok⟩ := h group hgroup spec hspec
  exact ((Postprocess.normalised_eq_ok_iff runtime).mp hok).1

theorem unambiguous_of_keptApart (hformed : doc.WellFormed)
    (hfields : ∀ group ∈ doc.fieldGroups, (group.fields.map Field.name).Nodup)
    (h : KeptApart runtime doc) : Unambiguous doc := by
  have hgroups : (doc.fieldGroups.map FieldGroup.name).Nodup :=
    position_self_iff.mp fun index group hgroup =>
      (h.specs index group hgroup).1
  have hdistinct : Distinct doc := by
    refine ⟨hgroups, hfields, ?_⟩
    intro group hgroup spec hspec harray
    obtain ⟨row, columns, -, -, -, hrows, hnodup⟩ :=
      object_of_boundToOwn hformed h.specs hgroup hspec harray
    rw [hrows]
    exact hnodup
  have hbuilt := not_refusesOutput_of_answerable hformed h.answerable
  obtain ⟨hgroupAttrs, hfieldAttrs, hcolumnAttrs⟩ :=
    not_refusesOutput_iff.mp hbuilt
  exact {
    groupNames := hgroups
    groupKeys := noClash_groups hformed hbuilt hdistinct h
    groupAttrs := unreserved_of_fields
      (fun _ => ne_configName_group hformed hbuilt hdistinct h) hgroupAttrs
    fieldKeys := fun _ hgroup =>
      noClash_fields hformed hbuilt hdistinct h hgroup
    fieldAttrs := fun group hgroup => unreserved_of_fields
      (fun _ => ne_configName_field hbuilt hdistinct h hgroup)
      (hfieldAttrs group hgroup)
    columns := by
      intro group hgroup spec hspec harray
      obtain ⟨row, columns, hitems, hobject, hcolumns, hrows, hnodup⟩ :=
        object_of_boundToOwn hformed h.specs hgroup hspec harray
      have hclash := noClash_columns hformed hbuilt hdistinct h hgroup hspec
        harray
      have hattrs : Unreserved "f" ((Postprocess.rowItems spec).map Field.name) :=
        unreserved_of_fields
          (fun _ => ne_configName_column hformed hbuilt hdistinct h hgroup
            hspec harray) (hcolumnAttrs group hgroup spec hspec harray)
      rw [hrows] at hclash hattrs
      exact ⟨row, columns, hitems, hobject, hcolumns, hnodup, hclash, hattrs⟩ }

theorem keptApart_of_unambiguous (hformed : doc.WellFormed)
    (hfields : ∀ group ∈ doc.fieldGroups, (group.fields.map Field.name).Nodup)
    (h : Unambiguous doc) : KeptApart runtime doc where
  answerable := by
    intro group hgroup spec hspec
    have hbuilt : Schema.refusesOutput doc = false :=
      not_refusesOutput_iff.mpr ⟨fun attr hattr => (h.groupAttrs attr hattr).2,
        fun group hgroup attr hattr => (h.fieldAttrs group hgroup attr hattr).2,
        fun group hgroup spec hspec harray attr hattr =>
          ((columns_of_unambiguous hformed h hgroup hspec harray).2.2.2 attr
            hattr).2⟩
    obtain ⟨groups, hok⟩ := exists_normalised_rowsAt runtime
      hbuilt (distinct_of_unambiguous hformed hfields h) group.name spec.name ""
    exact ⟨rowsAt runtime "", groups, fun _ => by simp [rowsOf], hok⟩
  values := fun _ _ => reads_of_unambiguous hformed hfields h
  specs := boundToOwn_of_unambiguous hformed hfields h

end

theorem nodup_of_duplicateNames (validator : RequestValidator)
    {docType path : String} {seen names : List String}
    (h : ∀ issue ∈ validator.duplicateNames docType path seen names,
      issue.severity ≠ .error) :
    names.Nodup ∧ ∀ name ∈ names, name ∉ seen := by
  induction names generalizing seen with
  | nil => simp
  | cons name names ih =>
      simp only [RequestValidator.duplicateNames, List.mem_append] at h
      obtain ⟨hnodup, hunseen⟩ := ih fun issue hissue => h issue (.inr hissue)
      have hname : name ∉ seen := by
        intro hseen
        exact h _ (.inl (by rw [if_pos hseen]; exact List.mem_singleton_self _))
          rfl
      refine ⟨List.nodup_cons.mpr ⟨?_, hnodup⟩, ?_⟩
      · intro hmem
        exact hunseen name hmem (by simp)
      · intro other hother
        rcases List.mem_cons.mp hother with rfl | hrest
        · exact hname
        · intro hseen
          exact hunseen other hrest (by simp [hseen])

theorem nodup_fieldNames_of_accepted {validator : RequestValidator}
    {request : ExtractionRequest} {sync : Bool}
    (haccepted : (validator.validate request sync).hasErrors = false)
    {doc : DocumentTypeSpec} (hdoc : doc ∈ request.documentTypes)
    (hgroups : doc.fieldGroups ≠ []) :
    (RequestValidator.fieldNames doc).Nodup := by
  obtain ⟨index, hindex⟩ := List.getElem?_of_mem hdoc
  have hsilent : ∀ issue ∈ (validator.validate request sync).issues,
      issue.severity ≠ .error := by
    intro issue hissue herror
    simp only [ValidationReport.hasErrors, List.any_eq_false,
      decide_eq_true_eq] at haccepted
    exact haccepted issue hissue herror
  have hnames : ∀ issue ∈ validator.duplicateNames doc.id
      ("document_types[" ++ toString index ++ "]" ++ ".id") []
      (RequestValidator.fieldNames doc), issue.severity ≠ .error := by
    intro issue hissue
    refine hsilent issue ?_
    simp only [RequestValidator.validate, List.mem_append]
    refine .inl (.inl (.inl (.inr ?_)))
    rw [RequestValidator.checkDocumentTypes, List.mem_append]
    refine .inl (List.mem_flatMap.mpr
      ⟨(doc, index), List.mem_zipIdx_iff_getElem?.mpr hindex, ?_⟩)
    simp only [RequestValidator.checkDocumentType, if_neg hgroups,
      List.mem_append]
    exact .inr hissue
  exact (nodup_of_duplicateNames validator hnames).1

theorem nodup_fields_of_accepted {validator : RequestValidator}
    {request : ExtractionRequest} {sync : Bool}
    (haccepted : (validator.validate request sync).hasErrors = false)
    {doc : DocumentTypeSpec} (hdoc : doc ∈ request.documentTypes)
    {group : FieldGroup} (hgroup : group ∈ doc.fieldGroups) :
    (group.fields.map Field.name).Nodup := by
  have hnodup := nodup_fieldNames_of_accepted haccepted hdoc
    (List.ne_nil_of_mem hgroup)
  rw [RequestValidator.fieldNames, List.nodup_flatMap] at hnodup
  exact hnodup.1 group hgroup

/--
The names that the validator leaves unchecked: in an accepted request all fields
are kept apart exactly when no declared name is ambiguous.
-/
theorem keptApart_iff (runtime : Runtime) (validator : RequestValidator)
    {request : ExtractionRequest} (sync : Bool)
    (hformed : request.WellFormed)
    (haccepted : (validator.validate request sync).hasErrors = false) :
    (∀ doc ∈ request.documentTypes, KeptApart runtime doc) ↔
      ∀ doc ∈ request.documentTypes, Unambiguous doc := by
  refine forall₂_congr fun doc hdoc => ?_
  have hdocFormed := hformed.documentTypes doc hdoc
  have hfields : ∀ group ∈ doc.fieldGroups,
      (group.fields.map Field.name).Nodup :=
    fun group hgroup => nodup_fields_of_accepted haccepted hdoc hgroup
  exact ⟨unambiguous_of_keptApart hdocFormed hfields,
    keptApart_of_unambiguous hdocFormed hfields⟩

/-! ## A group declared twice -/

def groupsRequest (groups : List (String × String)) : ExtractionRequest where
  files := [⟨"invoice.pdf", some "JVBERg==", none, none⟩]
  documentTypes :=
    [{ id := "invoice",
       fieldGroups := groups.map fun (name, field) =>
         { name, fields := [{ name := field, type := .number }] } }]

theorem groupsRequest_wellFormed {groups : List (String × String)}
    (hne : groups ≠ [])
    (hnames : ∀ group ∈ groups, group.1 ≠ "" ∧ group.2 ≠ "") :
    (groupsRequest groups).WellFormed where
  files_ne_nil := by simp [groupsRequest]
  files := by
    intro file hfile
    cases List.mem_singleton.mp hfile
    exact ⟨by decide, some "JVBERg==", by decide⟩
  documentTypes_ne_nil := by simp [groupsRequest]
  documentTypes := by
    intro spec hspec
    cases List.mem_singleton.mp hspec
    refine ⟨by simp, by simpa using hne, ?_, by simp⟩
    intro group hgroup
    obtain ⟨⟨name, field⟩, hmem, rfl⟩ := List.mem_map.mp hgroup
    refine ⟨(hnames _ hmem).1, by simp, fun spec hspec => ?_⟩
    cases List.mem_singleton.mp hspec
    exact .intro (hnames _ hmem).2 rfl (by simp) (by simp)
  rules := by simp [groupsRequest]
  options := ⟨by simp [groupsRequest], by simp [groupsRequest],
    by simp [groupsRequest]⟩

theorem keptApart_iff_totals_lines :
    (∀ doc ∈ (groupsRequest [("totals", "net"), ("lines", "vat")]).documentTypes,
      KeptApart Runtime.ofJson doc) ↔
    ∀ doc ∈ (groupsRequest [("totals", "net"), ("lines", "vat")]).documentTypes,
      Unambiguous doc :=
  keptApart_iff Runtime.ofJson ⟨fun _ => true, .peeling⟩ false
    (groupsRequest_wellFormed (by simp) (by simp)) (by decide)

def totalsTwice : ExtractionRequest :=
  groupsRequest [("totals", "net"), ("totals", "gross")]

/-- No field of the output model has the name of the configuration. -/
example : ∀ doc ∈ (groupsRequest [("model config", "net")]).documentTypes,
    (Postprocess.normalised Runtime.ofJson doc
      (.obj (noteAt Runtime.ofJson "model config" "net"))).toOption.map
        (List.map fun group => group.fields.map ExtractedField.notes) =
      some [[none]] := by
  decide

/-- The second group of the name takes both payloads. -/
example : ∀ doc ∈ totalsTwice.documentTypes,
    (Postprocess.normalised Runtime.ofJson doc
      (.obj (noteAt Runtime.ofJson "totals" "net"))).toOption.map
        (List.map fun group => group.fields.map ExtractedField.notes) =
      some [[none], [none]] := by
  decide

theorem not_keptApart :
    ¬ ∀ (runtime : Runtime) (validator : RequestValidator)
      (request : ExtractionRequest) (sync : Bool), request.WellFormed →
      (validator.validate request sync).hasErrors = false →
      ∀ doc ∈ request.documentTypes, KeptApart runtime doc := by
  intro h
  have hkept := h Runtime.ofJson ⟨fun _ => true, .peeling⟩ totalsTwice false
    (groupsRequest_wellFormed (by simp) (by simp)) (by decide) _
    (List.mem_singleton_self _)
  have hbound := (hkept.specs 0 _ rfl).1
  revert hbound
  decide

end FieldKeys

end Flydocs
