import Flydocs.Transformations.Chaining
import Flydocs.Transformations.FixedPoint

/-!
# Rows that merge with nothing

Every cluster is rebuilt, the ones of a single row too.  The canonical row takes
over the name, the sub-fields, the pages, the confidence and the box, and has
the defaults of all else that a row may carry.
-/

namespace Flydocs

open Foundation Dtos Transformations

namespace EntityResolution

variable (text : TextRuntime) (spec : EntityResolutionTransformation)

/-! ## What is expected of the output -/

def DistinctNames (row : ExtractedField) : Prop :=
  ((rowsOf row).map ExtractedField.name).Nodup

/-- Rows that end alone come out as they went in, and the output has the order
of the rows that the clusters start with. -/
structure Preserved (rows output : List ExtractedField) : Prop where
  canonical : output = (rowClusters text spec rows).map (canonicalise text)
  order : ((rowClusters text spec rows).filterMap List.head?).Sublist rows
  alone : ∀ (index : Nat) (row : ExtractedField),
    (rowClusters text spec rows)[index]? = some [row] →
    output[index]? = some row

/-- A row with sub-fields has its pages in order and nothing but the defaults of
what a canonical row leaves out. -/
structure Plain (row : ExtractedField) : Prop where
  pages : row.pages.Pairwise (· < ·)
  validation : row.validation = {}
  judge : row.judge = {}
  notes : row.notes = none
  source : row.source = none

section

variable {text : TextRuntime} {spec : EntityResolutionTransformation}

/-! ## A cluster of one row -/

theorem canonicalise_singleton {row : ExtractedField}
    (hnames : DistinctNames row) (hlist : isList row = true) :
    canonicalise text [row] =
      { name := row.name, value := row.value
        pages := Postprocess.sorted row.pages
        confidence := row.confidence, bbox := row.bbox } := by
  cases hvalue : row.value with
  | list subs =>
      have hrow : rowsOf row = subs := by rw [rowsOf, hvalue]
      have hsubs : mergeSubs text subs = subs :=
        mergeSubs_of_nodup (hrow ▸ hnames)
      simp only [canonicalise, hvalue, List.flatMap_singleton, hrow, hsubs,
        mergePages, maxConfidence_singleton]
  | _ => simp [isList, hvalue] at hlist

theorem canonicalise_singleton_iff {row : ExtractedField}
    (hnames : DistinctNames row) :
    canonicalise text [row] = row ↔ (isList row = true → Plain row) := by
  by_cases hlist : isList row = true
  · rw [canonicalise_singleton hnames hlist]
    constructor
    · intro h _
      exact ⟨Postprocess.sorted_eq_self_iff.mp (congrArg ExtractedField.pages h),
        (congrArg ExtractedField.validation h).symm,
        (congrArg ExtractedField.judge h).symm,
        (congrArg ExtractedField.notes h).symm,
        (congrArg ExtractedField.source h).symm⟩
    · intro h
      obtain ⟨hpages, hvalidation, hjudge, hnotes, hsource⟩ := h hlist
      cases row
      cases hvalidation
      cases hjudge
      cases hnotes
      cases hsource
      simp only [Postprocess.sorted_eq_self_iff.mpr hpages]
  · refine iff_of_true ?_ fun h => absurd h hlist
    cases hvalue : row.value with
    | list subs => simp [isList, hvalue] at hlist
    | _ => simp only [canonicalise, hvalue]

theorem preserved_dedupeRows_iff {rows : List ExtractedField}
    (hnames : ∀ row ∈ rows, DistinctNames row) :
    Preserved text spec rows (dedupeRows text spec rows) ↔
      ∀ row, [row] ∈ rowClusters text spec rows →
        isList row = true → Plain row := by
  have hrow : ∀ row, [row] ∈ rowClusters text spec rows →
      (canonicalise text [row] = row ↔ (isList row = true → Plain row)) := by
    intro row hrow
    rw [rowClusters_eq] at hrow
    have hsublist := LeaderClusters.cluster_sublist hrow
    exact canonicalise_singleton_iff
      (hnames row (hsublist.subset (List.mem_singleton_self row)))
  have horder : ((rowClusters text spec rows).filterMap List.head?).Sublist
      rows := by
    rw [rowClusters_eq]
    exact LeaderClusters.leaders_sublist rows
  have hindex : ∀ (index : Nat) (row : ExtractedField),
      (rowClusters text spec rows)[index]? = some [row] →
      (dedupeRows text spec rows)[index]? = some (canonicalise text [row]) := by
    intro index row hcluster
    rw [dedupeRows, List.getElem?_map]
    exact congrArg (Option.map (canonicalise text)) hcluster
  constructor
  · intro h row hmem
    obtain ⟨index, hcluster⟩ := List.mem_iff_getElem?.mp hmem
    refine (hrow row hmem).mp (Option.some.inj ?_)
    rw [← hindex index row hcluster, h.alone index row hcluster]
  · intro h
    refine ⟨rfl, horder, fun index row hcluster => ?_⟩
    have hmem := List.mem_of_getElem? hcluster
    rw [hindex index row hcluster, (hrow row hmem).mpr (h row hmem)]

end

end EntityResolution

namespace TransformationEngine

open EntityResolution

variable {Raised : Type} (self : TransformationEngine Raised)

/-! ## The two scopes -/

def producedRows : Option ExtractedFieldGroup → List ExtractedField
  | none => []
  | some group => ((findArrayField group).map rowsOf).getD []

def requestRows (entry : TransformEntry Raised) (tasks : List TransformTask) :
    List ExtractedField :=
  match self.applyRequestScope entry tasks with
  | .ok produced => producedRows produced
  | .error _ => []

inductive Resolves (entry : TransformEntry Raised) :
    List ExtractedField → List ExtractedField → Prop
  | task (index : Nat) (groups : List ExtractedFieldGroup) :
      Resolves entry (targetRows groups entry.spec.base.targetGroup)
        (producedRows (self.applyToTask entry index groups).2)
  | inPlace (index : Nat) (groups : List ExtractedFieldGroup)
      (houtput : entry.spec.base.outputGroup = none) :
      Resolves entry (targetRows groups entry.spec.base.targetGroup)
        (targetRows (self.applyToTask entry index groups).1
          entry.spec.base.targetGroup)
  | request (tasks : List TransformTask) :
      Resolves entry (consolidatedRows entry.spec.base.targetGroup tasks)
        (self.requestRows entry tasks)

section

variable {entry : TransformEntry Raised} {spec : EntityResolutionTransformation}

theorem producedRows_putRows {groups : List ExtractedFieldGroup}
    {group : ExtractedFieldGroup} {field : ExtractedField}
    (target : String) (outputGroup : Option String)
    (rows : List ExtractedField) (hfield : findArrayField group = some field) :
    producedRows
      (some (putRows target outputGroup groups group field rows).2) = rows := by
  have hreplaced : producedRows (some (replaceArray rows group)) = rows := by
    rw [producedRows, findArrayField_replaceArray rows hfield]
    rfl
  unfold putRows
  split
  · exact hreplaced
  · exact hreplaced
  · rfl

theorem dispatch_cases (hspec : entry.spec = .entityResolution spec)
    (call : Option Nat) (outputGroup : Option String)
    (groups : List ExtractedFieldGroup) :
    targetRows groups entry.spec.base.targetGroup = [] ∧
        self.dispatch entry.spec (entry.answer call) outputGroup groups =
          .ok (groups, none) ∨
      ∃ group field, findGroup groups entry.spec.base.targetGroup = some group ∧
        findArrayField group = some field ∧
        self.dispatch entry.spec (entry.answer call) outputGroup groups =
          let put := putRows entry.spec.base.targetGroup outputGroup groups group
            field (dedupeRows self.text spec
              (targetRows groups entry.spec.base.targetGroup))
          .ok (put.1, some put.2) := by
  have hproduce : ∀ rows, self.produce entry call rows =
      .ok (some (dedupeRows self.text spec rows)) := by
    intro rows
    rw [produce, hspec]
  rw [dispatch_eq_applyWith]
  obtain ⟨hrows, happly⟩ | ⟨group, field, hgroup, hfield, happly⟩ :=
    applyWith_cases (self.produce entry call) entry.spec.base.targetGroup
      outputGroup groups
  · exact .inl ⟨hrows, happly⟩
  · rw [hproduce] at happly
    exact .inr ⟨group, field, hgroup, hfield, happly⟩

theorem requestRows_eq (hspec : entry.spec = .entityResolution spec)
    (tasks : List TransformTask) :
    self.requestRows entry tasks = dedupeRows self.text spec
      (consolidatedRows entry.spec.base.targetGroup tasks) := by
  rw [requestRows, applyRequestScope]
  cases hconsolidated :
      consolidateGroups tasks entry.spec.base.targetGroup with
  | none =>
      rw [consolidateGroups_eq_none_iff.mp hconsolidated]
      rfl
  | some consolidated =>
      have hrows := targetRows_consolidated hconsolidated
      obtain ⟨hempty, hdispatch⟩ | ⟨group, field, -, hfield, hdispatch⟩ :=
        dispatch_cases self hspec none (requestOutputGroup entry.spec)
          [consolidated]
      · simp only [hdispatch, bind, Except.bind, pure, Except.pure]
        rw [← hrows, hempty]
        rfl
      · simp only [hdispatch, bind, Except.bind, pure, Except.pure,
          returned_putRows]
        rw [producedRows_putRows _ _ _ hfield, hrows]

theorem resolves_eq (hspec : entry.spec = .entityResolution spec)
    {rows output : List ExtractedField} (h : self.Resolves entry rows output) :
    output = dedupeRows self.text spec rows := by
  cases h with
  | task index groups =>
      rw [applyToTask]
      obtain ⟨hempty, hdispatch⟩ | ⟨group, field, -, hfield, hdispatch⟩ :=
        dispatch_cases self hspec (some index)
          entry.spec.base.outputGroup groups
      · rw [hdispatch, hempty]
        rfl
      · rw [hdispatch]
        exact producedRows_putRows _ _ _ hfield
  | inPlace index groups houtput =>
      rw [applyToTask]
      obtain ⟨hempty, hdispatch⟩ | ⟨group, field, hgroup, hfield, hdispatch⟩ :=
        dispatch_cases self hspec (some index)
          entry.spec.base.outputGroup groups
      · rw [hdispatch, hempty]
        rfl
      · rw [hdispatch, houtput]
        exact targetRows_putRows _ hgroup hfield
  | request tasks => exact requestRows_eq self hspec tasks

/--
In either scope, the rows that end alone in their clusters come out as they went
in, and all in their order, exactly when those of them that have sub-fields are
plain.
-/
theorem preserved_iff (hspec : entry.spec = .entityResolution spec)
    {rows output : List ExtractedField} (h : self.Resolves entry rows output)
    (hnames : ∀ row ∈ rows, DistinctNames row) :
    Preserved self.text spec rows output ↔
      ∀ row, [row] ∈ rowClusters self.text spec rows →
        isList row = true → Plain row := by
  rw [resolves_eq self hspec h]
  exact preserved_dedupeRows_iff hnames

end

/-! ## The deed a row comes from -/

def mergePersonas : TransformEntry String where
  spec := .entityResolution personas
  answer _ _ := .error "unused"

def deedTask : TransformTask where
  filename := some "deed.pdf"
  groups :=
    [{ name := "personas"
       fields :=
         [{ name := "personas", value := .list [person "12L" "Ana Gil"] }] }]

theorem distinctNames_deed :
    ∀ row ∈ consolidatedRows "personas" [deedTask], DistinctNames row := by
  intro row hrow
  have hrows : consolidatedRows "personas" [deedTask] =
      [{ person "12L" "Ana Gil" with source := some "deed.pdf" }] := rfl
  rw [hrows, List.mem_singleton] at hrow
  subst hrow
  change ["dni", "nombre"].Nodup
  decide

theorem preserved_iff_deed :
    Preserved silentEngine.text personas
        (consolidatedRows "personas" [deedTask])
        (silentEngine.requestRows mergePersonas [deedTask]) ↔
      ∀ row, [row] ∈ rowClusters silentEngine.text personas
        (consolidatedRows "personas" [deedTask]) →
        isList row = true → Plain row := by
  have hspec : mergePersonas.spec = .entityResolution personas := rfl
  exact preserved_iff silentEngine hspec (.request [deedTask])
    distinctNames_deed

/-- The row is alone, and what comes out does not name the deed any more. -/
theorem not_preserved :
    ¬ ∀ (Raised : Type) (self : TransformationEngine Raised)
      (entry : TransformEntry Raised) (spec : EntityResolutionTransformation)
      (rows output : List ExtractedField),
      entry.spec = .entityResolution spec → self.Resolves entry rows output →
      (∀ row ∈ rows, DistinctNames row) →
      Preserved self.text spec rows output := by
  intro h
  have hdeed := h String silentEngine mergePersonas personas _ _ rfl
    (.request [deedTask]) distinctNames_deed
  have halone := hdeed.alone 0
    { person "12L" "Ana Gil" with source := some "deed.pdf" } rfl
  have hsource := congrArg (Option.map ExtractedField.source) halone
  have hnone : (silentEngine.requestRows mergePersonas [deedTask])[0]?.map
      ExtractedField.source = some none := rfl
  rw [hnone] at hsource
  cases hsource

end TransformationEngine

end Flydocs
