import Flydocs.Extraction.FieldKeys

/-!
# The entries that specs are read from

A field of the output model is read from the entry under its declared name and,
where there is none, from the entry under its attribute name.  Attribute names
are distinct from each other, but one of them may be the declared name of
another field; `ByOwnKeys` says nothing of that field.
-/

namespace Flydocs

open Foundation Dtos JsonValue

/-! ## Attribute names are distinct -/

namespace Schema

def candidate (attr : String) (count : Nat) : String :=
  attr ++ String.ofList (List.replicate count '_')

theorem candidate_succ (attr : String) (count : Nat) :
    candidate attr (count + 1) = candidate (attr ++ "_") count := by
  rw [← String.toList_inj]
  simp [candidate, List.replicate_succ]

theorem candidate_injective (attr : String) :
    Function.Injective (candidate attr) := by
  intro first second h
  have hlength := congrArg String.length h
  simpa [candidate] using hlength

theorem candidate_mem {used : List String} {tries : Nat} {attr : String}
    (h : freshen used tries attr ∈ used) :
    ∀ count ≤ tries, candidate attr count ∈ used := by
  induction tries generalizing attr with
  | zero =>
      intro count hcount
      obtain rfl : count = 0 := Nat.le_zero.mp hcount
      simpa [candidate, freshen] using h
  | succ tries ih =>
      rw [freshen] at h
      split at h
      · rename_i hattr
        intro count hcount
        cases count with
        | zero => simpa [candidate] using hattr
        | succ count =>
            rw [candidate_succ]
            exact ih h count (by omega)
      · rename_i hattr
        exact absurd h hattr

/-- One try for each used name is enough. -/
theorem freshen_not_mem (used : List String) (attr : String) :
    freshen used used.length attr ∉ used := by
  intro h
  have hnodup : ((List.range (used.length + 1)).map (candidate attr)).Nodup :=
    List.nodup_range.map (candidate_injective attr)
  have hsub : (List.range (used.length + 1)).map (candidate attr) ⊆ used := by
    intro name hname
    obtain ⟨count, hcount, rfl⟩ := List.mem_map.mp hname
    exact candidate_mem h count (by simpa [Nat.lt_succ_iff] using hcount)
  have hle := (List.subperm_of_subset hnodup hsub).length_le
  simp at hle

theorem nodup_attrs (fallback : String) (used names : List String) :
    (attrs fallback used names).Nodup ∧
      ∀ attr ∈ attrs fallback used names, attr ∉ used := by
  induction names generalizing used with
  | nil => simp [attrs]
  | cons name names ih =>
      have hfresh := freshen_not_mem used (safeAttr fallback name)
      obtain ⟨hnodup, hunused⟩ :=
        ih (freshen used used.length (safeAttr fallback name) :: used)
      simp only [attrs, List.nodup_cons, List.forall_mem_cons]
      refine ⟨⟨fun hmem => ?_, hnodup⟩, hfresh, fun attr hattr hused => ?_⟩
      · exact hunused _ hmem List.mem_cons_self
      · exact hunused attr hattr (List.mem_cons_of_mem _ hused)

end Schema

namespace FieldKeys

/-! ## Keys of one model -/

/-- Two fields share no key, unless the attribute name of one of them is a
declared name. -/
def KeysApart (model : AliasedModel) : Prop :=
  model.Pairwise fun first second =>
    first.name ≠ second.name ∧ first.attr ≠ second.attr ∧
      (¬ first.Clashes model.names → first.attr ≠ second.name) ∧
      (¬ second.Clashes model.names → second.attr ≠ first.name)

theorem keysApart_of_nodup {model : AliasedModel}
    (hnames : model.names.Nodup)
    (hattrs : (model.map AliasedField.attr).Nodup) : KeysApart model := by
  have hapart : ∀ first ∈ model, ∀ second ∈ model,
      first.name ≠ second.name → ¬ first.Clashes model.names →
        first.attr ≠ second.name := by
    intro first hfirst second hsecond hne hclash hsame
    refine hclash ⟨?_, fun hown => hne (hown.symm.trans hsame)⟩
    rw [hsame]
    exact List.mem_map_of_mem hsecond
  have hname := List.pairwise_map.mp hnames
  have hattr := List.pairwise_map.mp hattrs
  refine ((hname.and hattr).imp_of_mem ?_)
  rintro first second hfirst hsecond ⟨hne, hneAttr⟩
  exact ⟨hne, hneAttr, hapart first hfirst second hsecond hne,
    hapart second hsecond first hfirst hne.symm⟩

theorem keysApart_createModel {Item : Type} (fallback : String)
    {name : Item → String} (model : Item → AliasedModel) {items : List Item}
    (hnodup : (items.map name).Nodup) :
    KeysApart (Schema.createModel
      (Schema.fieldsOf fallback name model items)) := by
  have hsub : (Schema.createModel
      (Schema.fieldsOf fallback name model items)).Sublist
        (Schema.fieldsOf fallback name model items) := List.filter_sublist
  have hnames : (AliasedModel.names
      (Schema.fieldsOf fallback name model items)).Nodup := by
    rwa [names_fieldsOf]
  have hattrs : ((Schema.fieldsOf fallback name model items).map
      AliasedField.attr).Nodup := by
    rw [attrs_fieldsOf]
    exact (Schema.nodup_attrs _ _ _).1
  exact keysApart_of_nodup ((hsub.map AliasedField.name).nodup hnames)
    ((hsub.map AliasedField.attr).nodup hattrs)

structure ModelsApart (runtime : Runtime) (doc : DocumentTypeSpec) : Prop where
  groups : ∀ model, Schema.buildExtractionOutputModel runtime doc = .ok model →
    KeysApart model
  fields : ∀ group ∈ doc.fieldGroups,
    KeysApart (Schema.buildFieldGroupModel runtime group.fields)
  columns : ∀ group ∈ doc.fieldGroups, ∀ spec ∈ group.fields,
    spec.type = .array →
      KeysApart (Schema.rowModel runtime (Postprocess.rowItems spec))

/-! ## Specs read under their own keys -/

/-- The entry under the declared name, if there is one; otherwise, for an
attribute name that is not another declared name, the entry under it.  Of the
attribute name that pydantic takes for itself it says nothing. -/
structure ByOwnKeys (pick : Pick) : Prop where
  declared : ∀ field names members entry, field.attr ≠ Schema.configName →
    lookup field.name members = some entry →
      pick field names members = some entry
  fallback : ∀ field names members, field.attr ≠ Schema.configName →
    ¬ field.Clashes names → lookup field.name members = none →
      pick field names members = lookup field.attr members

theorem byOwnKeys_kept : ByOwnKeys kept where
  declared := by
    intro field names members entry hconfig h
    simp [kept, hconfig, AliasedField.given, h]
  fallback := by
    intro field names members hconfig _ h
    simp [kept, hconfig, AliasedField.given, h]

theorem reads_own_entries (runtime : Runtime) {doc : DocumentTypeSpec}
    (hdistinct : Distinct doc) :
    ModelsApart runtime doc ∧
      ∀ payload groups,
        Postprocess.normalised runtime doc (.obj payload) = .ok groups →
          ∃ pick, ByOwnKeys pick ∧ Reads runtime pick doc payload groups := by
  refine ⟨?_, fun payload groups hgroups => ⟨kept, byOwnKeys_kept,
    reads_of_agrees hdistinct (agreesOn_kept runtime doc) hgroups⟩⟩
  exact {
    groups := by
      intro model hmodel
      rw [Schema.buildExtractionOutputModel] at hmodel
      split at hmodel
      · cases hmodel
      · cases hmodel
        exact keysApart_createModel _ _ hdistinct.groups
    fields := fun group hgroup =>
      keysApart_createModel _ _ (hdistinct.fields group hgroup)
    columns := fun group hgroup spec hspec harray => keysApart_createModel _ _
      (hdistinct.columns group hgroup spec hspec harray) }

/-! ### A value under the attribute name -/

def receiptDoc : DocumentTypeSpec where
  id := "receipt"
  fieldGroups := [{ name := "totals", fields := [{ name := "net total" }] }]

theorem receiptDoc_wellFormed : receiptDoc.WellFormed := by
  refine ⟨by decide, by simp [receiptDoc], ?_, by simp [receiptDoc]⟩
  intro group hgroup
  cases List.mem_singleton.mp hgroup
  refine ⟨by decide, by simp, fun spec hspec => ?_⟩
  cases List.mem_singleton.mp hspec
  exact .intro (by decide) rfl (by simp) (by simp)

theorem receiptDoc_distinct : Distinct receiptDoc where
  groups := by decide
  fields := by
    intro group hgroup
    cases List.mem_singleton.mp hgroup
    decide
  columns := by
    intro group hgroup spec hspec harray
    cases List.mem_singleton.mp hgroup
    cases List.mem_singleton.mp hspec
    cases harray

def receiptPayload (key : String) : Members :=
  [("totals", .obj [(key, .obj [("value", .str "12.50")])])]

def netTotal : ExtractedField where
  name := "net total"
  value := .str "12.50"

theorem normalised_attr :
    Postprocess.normalised .ofJson receiptDoc
        (.obj (receiptPayload "net_total")) =
      .ok [{ name := "totals", fields := [netTotal] }] := by
  rfl

theorem reads_own_entries_receipt :
    ModelsApart .ofJson receiptDoc ∧
      ∃ pick, ByOwnKeys pick ∧
        Reads .ofJson pick receiptDoc (receiptPayload "net_total")
          [{ name := "totals", fields := [netTotal] }] :=
  have h := reads_own_entries .ofJson receiptDoc_distinct
  ⟨h.1, h.2 _ _ normalised_attr⟩

def declaredName : Pick := fun field _ members => lookup field.name members

theorem not_reads_declaredName :
    ¬ ∀ (runtime : Runtime) (doc : DocumentTypeSpec), doc.WellFormed →
      Distinct doc → ∀ payload groups,
        Postprocess.normalised runtime doc (.obj payload) = .ok groups →
          Reads runtime declaredName doc payload groups := by
  intro h
  have hreads := h .ofJson receiptDoc receiptDoc_wellFormed receiptDoc_distinct
    _ _ normalised_attr
  cases hreads with
  | cons hgroup _ =>
      cases hgroup.2 with
      | cons hfield _ =>
          obtain ⟨⟨dumped, hanswer, hread⟩, -⟩ := hfield
          obtain rfl := Option.some.inj hanswer
          have hvalue := congrArg ExtractedField.value (Except.ok.inj hread)
          cases hvalue

end FieldKeys

end Flydocs
