import Flydocs.Extraction.RetryMerge
import Flydocs.Foundation.Grouping
import Flydocs.Rules.Levels

/-!
# What a level of rules is told about the documents

The engine collects the fields and the visual checks that the active rules have
as parents, and writes one row for each of them that it finds.  So the rows
about a parent are what its document type holds under its name, in order, and
nothing is told that no active rule asks for.
-/

namespace Flydocs

open Foundation Dtos RequestValidator

namespace RuleEngine

/-! ## The rows -/

inductive SerialisedValue where
  | leaf (value : FieldValue)
  | rows (rows : List (String × List (String × FieldValue)))

def serialiseFieldValue (field : ExtractedField) : SerialisedValue :=
  match field.value with
  | .list rows => .rows (rows.map fun row =>
      (row.name, row.items.map fun sub => (sub.name, sub.value)))
  | value => .leaf value

inductive DocumentRow where
  | field (documentType fieldGroup fieldName : String)
      (value : SerialisedValue) (validation : FieldValidation)
      (judge : JudgeOutcome)
  | validator (documentType validatorName : String) (validatorPassed : Bool)
      (validatorConfidence : Rat) (validatorNotes : Option String)

def DocumentRow.documentType : DocumentRow → String
  | .field documentType _ _ _ _ _ => documentType
  | .validator documentType _ _ _ _ => documentType

def fieldRow (documentType : String) (group : ExtractedFieldGroup)
    (field : ExtractedField) : DocumentRow :=
  .field documentType group.name field.name (serialiseFieldValue field)
    field.validation field.judge

def validatorRow (documentType : String)
    (validator : Interfaces.VisualCheckResult) : DocumentRow :=
  .validator documentType validator.name validator.passed validator.confidence
    validator.notes

/-- `deps[document_type]`; of the two sets only membership is ever read. -/
structure Wanted where
  fields : List String := []
  validators : List String := []

abbrev Dependencies := List (String × Wanted)

def wantedAt (deps : Dependencies) (documentType : String) : Wanted :=
  (deps.lookup documentType).getD {}

def addParent (deps : Dependencies) : RuleParent → Dependencies
  | .field documentType fields =>
      let want := wantedAt deps documentType
      assign documentType { want with fields := want.fields ++ fields } deps
  | .validator documentType validator =>
      let want := wantedAt deps documentType
      assign documentType
        { want with validators := want.validators ++ [validator] } deps
  | .rule _ => deps

def dependencies (active : List RuleSpec) : Dependencies :=
  active.foldl (fun deps rule => rule.parents.foldl addParent deps) []

def documentRows (documentType : String) (want : Wanted)
    (groups : List ExtractedFieldGroup)
    (visual : List Interfaces.VisualCheckResult) : List DocumentRow :=
  (groups.flatMap fun group =>
    (group.fields.filter fun field => field.name ∈ want.fields).map
      (fieldRow documentType group)) ++
  (visual.filter fun validator => validator.name ∈ want.validators).map
    (validatorRow documentType)

def buildDocumentsContext (active : List RuleSpec)
    (docs : List DocumentTypeSpec)
    (extractedByDoc : List (String × List ExtractedFieldGroup))
    (visualByDoc : List (String × List Interfaces.VisualCheckResult)) :
    List DocumentRow :=
  (dependencies active).flatMap fun (documentType, want) =>
    match docIndex docs documentType with
    | none => []
    | some _ => documentRows documentType want
        (listAt extractedByDoc documentType) (listAt visualByDoc documentType)

/-! ## What is asked for -/

def AsksField (documentType name : String) : RuleParent → Prop
  | .field declared fields => declared = documentType ∧ name ∈ fields
  | _ => False

def AsksValidator (documentType name : String) : RuleParent → Prop
  | .validator declared validator =>
      declared = documentType ∧ validator = name
  | _ => False

def DocumentRow.AskedBy (parent : RuleParent) : DocumentRow → Prop
  | .field documentType _ name _ _ _ => AsksField documentType name parent
  | .validator documentType name _ _ _ => AsksValidator documentType name parent

theorem nodup_addParent {deps : Dependencies}
    (h : (deps.map Prod.fst).Nodup) (parent : RuleParent) :
    ((addParent deps parent).map Prod.fst).Nodup := by
  cases parent with
  | field documentType fields => exact nodup_assign h
  | validator documentType validator => exact nodup_assign h
  | rule parent => exact h

@[simp] theorem wantedAt_assign (deps : Dependencies) (declared : String)
    (want : Wanted) (documentType : String) :
    wantedAt (assign declared want deps) documentType =
      if declared = documentType then want else wantedAt deps documentType := by
  rw [wantedAt, lookup_assign_eq]
  split <;> rfl

theorem mem_fields_addParent {deps : Dependencies} {parent : RuleParent}
    {documentType name : String} :
    name ∈ (wantedAt (addParent deps parent) documentType).fields ↔
      name ∈ (wantedAt deps documentType).fields ∨
        AsksField documentType name parent := by
  cases parent with
  | field declared _ | validator declared _ =>
      by_cases hdeclared : declared = documentType
      · subst hdeclared
        simp [addParent, AsksField]
      · simp [addParent, AsksField, hdeclared]
  | rule parent => simp [addParent, AsksField]

theorem mem_validators_addParent {deps : Dependencies} {parent : RuleParent}
    {documentType name : String} :
    name ∈ (wantedAt (addParent deps parent) documentType).validators ↔
      name ∈ (wantedAt deps documentType).validators ∨
        AsksValidator documentType name parent := by
  cases parent with
  | field declared _ | validator declared _ =>
      by_cases hdeclared : declared = documentType
      · subst hdeclared
        simp [addParent, AsksValidator, eq_comm]
      · simp [addParent, AsksValidator, hdeclared]
  | rule parent => simp [addParent, AsksValidator]

theorem dependencies_eq_foldl (active : List RuleSpec) :
    dependencies active =
      (active.flatMap fun rule => rule.parents).foldl addParent [] :=
  List.foldl_flatMap.symm

theorem nodup_dependencies (active : List RuleSpec) :
    ((dependencies active).map Prod.fst).Nodup := by
  rw [dependencies_eq_foldl]
  exact List.foldlRecOn _ _
    (motive := fun deps : Dependencies => (deps.map Prod.fst).Nodup)
    List.nodup_nil fun deps hdeps parent _ => nodup_addParent hdeps parent

theorem mem_foldl_addParent {asks : RuleParent → Prop}
    (isWanted : Dependencies → Prop)
    (hadds : ∀ deps parent,
      isWanted (addParent deps parent) ↔ isWanted deps ∨ asks parent)
    (parents : List RuleParent) (deps : Dependencies) :
    isWanted (parents.foldl addParent deps) ↔
      isWanted deps ∨ ∃ parent ∈ parents, asks parent := by
  induction parents generalizing deps with
  | nil => simp
  | cons parent parents ih =>
      rw [List.foldl_cons, ih, hadds, List.exists_mem_cons_iff, or_assoc]

theorem mem_fields_dependencies {active : List RuleSpec}
    {documentType name : String} :
    name ∈ (wantedAt (dependencies active) documentType).fields ↔
      ∃ rule ∈ active, ∃ parent ∈ rule.parents,
        AsksField documentType name parent := by
  rw [dependencies_eq_foldl, mem_foldl_addParent
    (fun deps => name ∈ (wantedAt deps documentType).fields)
    fun deps parent => mem_fields_addParent]
  simp only [wantedAt, List.lookup_nil, Option.getD_none, List.not_mem_nil,
    false_or, List.mem_flatMap]
  grind

theorem mem_validators_dependencies {active : List RuleSpec}
    {documentType name : String} :
    name ∈ (wantedAt (dependencies active) documentType).validators ↔
      ∃ rule ∈ active, ∃ parent ∈ rule.parents,
        AsksValidator documentType name parent := by
  rw [dependencies_eq_foldl, mem_foldl_addParent
    (fun deps => name ∈ (wantedAt deps documentType).validators)
    fun deps parent => mem_validators_addParent]
  simp only [wantedAt, List.lookup_nil, Option.getD_none, List.not_mem_nil,
    false_or, List.mem_flatMap]
  grind

/-! ## What is told -/

def isField (documentType name : String) : DocumentRow → Bool
  | .field declared _ fieldName _ _ _ =>
      decide (declared = documentType ∧ fieldName = name)
  | _ => false

def isValidator (documentType name : String) : DocumentRow → Bool
  | .validator declared validatorName _ _ _ =>
      decide (declared = documentType ∧ validatorName = name)
  | _ => false

def fieldRowsOf (documentType name : String)
    (groups : List ExtractedFieldGroup) : List DocumentRow :=
  groups.flatMap fun group =>
    (group.fields.filter fun field => field.name = name).map
      (fieldRow documentType group)

def validatorRowsOf (documentType name : String)
    (visual : List Interfaces.VisualCheckResult) : List DocumentRow :=
  (visual.filter fun validator => validator.name = name).map
    (validatorRow documentType)

section

variable {documentType name : String} {want : Wanted}
  {groups : List ExtractedFieldGroup}
  {visual : List Interfaces.VisualCheckResult}

theorem filter_isField_documentRows (hwanted : name ∈ want.fields) :
    (documentRows documentType want groups visual).filter
        (isField documentType name) =
      fieldRowsOf documentType name groups := by
  have hvalidators : ((visual.filter fun validator =>
      validator.name ∈ want.validators).map
        (validatorRow documentType)).filter (isField documentType name) = [] := by
    simp [List.filter_map, validatorRow, isField, Function.comp_def]
  rw [documentRows, List.filter_append, hvalidators, List.append_nil,
    List.filter_flatMap]
  refine List.flatMap_congr fun group _ => ?_
  rw [List.filter_map, List.filter_filter]
  refine congrArg _ (List.filter_congr fun field _ => ?_)
  rw [Bool.eq_iff_iff]
  simp only [Function.comp_apply, fieldRow, isField, true_and,
    Bool.and_eq_true, decide_eq_true_eq, and_iff_left_iff_imp]
  rintro rfl
  exact hwanted

theorem filter_isValidator_documentRows (hwanted : name ∈ want.validators) :
    (documentRows documentType want groups visual).filter
        (isValidator documentType name) =
      validatorRowsOf documentType name visual := by
  have hfields : (groups.flatMap fun group =>
      (group.fields.filter fun field => field.name ∈ want.fields).map
        (fieldRow documentType group)).filter
          (isValidator documentType name) = [] := by
    simp [List.filter_flatMap, List.filter_map, fieldRow, isValidator,
      Function.comp_def]
  rw [documentRows, List.filter_append, hfields, List.nil_append,
    List.filter_map, List.filter_filter]
  refine congrArg _ (List.filter_congr fun validator _ => ?_)
  rw [Bool.eq_iff_iff]
  simp only [Function.comp_apply, validatorRow, isValidator, true_and,
    Bool.and_eq_true, decide_eq_true_eq, and_iff_left_iff_imp]
  rintro rfl
  exact hwanted

theorem mem_documentRows_cases {row : DocumentRow}
    (h : row ∈ documentRows documentType want groups visual) :
    (∃ group ∈ groups, ∃ field ∈ group.fields,
      field.name ∈ want.fields ∧ row = fieldRow documentType group field) ∨
    ∃ validator ∈ visual, validator.name ∈ want.validators ∧
      row = validatorRow documentType validator := by
  rcases List.mem_append.mp h with hfield | hvalidator
  · obtain ⟨group, hgroup, hrow⟩ := List.mem_flatMap.mp hfield
    obtain ⟨field, hfilter, rfl⟩ := List.mem_map.mp hrow
    obtain ⟨hmem, hname⟩ := List.mem_filter.mp hfilter
    exact .inl ⟨group, hgroup, field, hmem, of_decide_eq_true hname, rfl⟩
  · obtain ⟨validator, hfilter, rfl⟩ := List.mem_map.mp hvalidator
    obtain ⟨hmem, hname⟩ := List.mem_filter.mp hfilter
    exact .inr ⟨validator, hmem, of_decide_eq_true hname, rfl⟩

end

section

variable {active : List RuleSpec} {docs : List DocumentTypeSpec}
  {extractedByDoc : List (String × List ExtractedFieldGroup)}
  {visualByDoc : List (String × List Interfaces.VisualCheckResult)}
  {documentType name : String}

theorem filter_buildDocumentsContext {want : Wanted}
    (hlookup : (dependencies active).lookup documentType = some want)
    (hdeclared : (docIndex docs documentType).isSome = true)
    {asks : DocumentRow → Bool}
    (hasks : ∀ row, asks row = true →
      row.documentType = documentType) :
    (buildDocumentsContext active docs extractedByDoc visualByDoc).filter
        asks =
      (documentRows documentType want (listAt extractedByDoc documentType)
        (listAt visualByDoc documentType)).filter asks := by
  unfold buildDocumentsContext
  rw [filter_flatMap_of_lookup (nodup_dependencies active) hlookup]
  · obtain ⟨spec, hspec⟩ := Option.isSome_iff_exists.mp hdeclared
    simp only [hspec]
  · rintro ⟨other, wantOther⟩ hother
    simp only
    cases docIndex docs other with
    | none => rfl
    | some spec =>
        refine List.filter_eq_nil_iff.mpr fun row hrow hrowAsked => ?_
        rw [← hasks row hrowAsked] at hother
        rcases mem_documentRows_cases hrow with
          ⟨group, -, field, -, -, rfl⟩ | ⟨validator, -, -, rfl⟩
        · exact hother rfl
        · exact hother rfl

theorem filter_isField_buildDocumentsContext
    (hasked : ∃ rule ∈ active, ∃ parent ∈ rule.parents,
      AsksField documentType name parent)
    (hdeclared : (docIndex docs documentType).isSome = true) :
    (buildDocumentsContext active docs extractedByDoc visualByDoc).filter
        (isField documentType name) =
      fieldRowsOf documentType name (listAt extractedByDoc documentType) := by
  have hwanted := mem_fields_dependencies.mpr hasked
  unfold wantedAt at hwanted
  cases hlookup : (dependencies active).lookup documentType with
  | none => simp [hlookup] at hwanted
  | some want =>
      rw [hlookup, Option.getD_some] at hwanted
      rw [filter_buildDocumentsContext hlookup hdeclared,
        filter_isField_documentRows hwanted]
      intro row hrow
      cases row with
      | field => exact (of_decide_eq_true hrow).1
      | validator => cases hrow

theorem filter_isValidator_buildDocumentsContext
    (hasked : ∃ rule ∈ active, ∃ parent ∈ rule.parents,
      AsksValidator documentType name parent)
    (hdeclared : (docIndex docs documentType).isSome = true) :
    (buildDocumentsContext active docs extractedByDoc visualByDoc).filter
        (isValidator documentType name) =
      validatorRowsOf documentType name (listAt visualByDoc documentType) := by
  have hwanted := mem_validators_dependencies.mpr hasked
  unfold wantedAt at hwanted
  cases hlookup : (dependencies active).lookup documentType with
  | none => simp [hlookup] at hwanted
  | some want =>
      rw [hlookup, Option.getD_some] at hwanted
      rw [filter_buildDocumentsContext hlookup hdeclared,
        filter_isValidator_documentRows hwanted]
      intro row hrow
      cases row with
      | field => cases hrow
      | validator => exact (of_decide_eq_true hrow).1

theorem askedBy_of_mem_buildDocumentsContext {row : DocumentRow}
    (h : row ∈ buildDocumentsContext active docs extractedByDoc visualByDoc) :
    ∃ rule ∈ active, ∃ parent ∈ rule.parents, row.AskedBy parent := by
  obtain ⟨⟨type, want⟩, hentry, hrow⟩ := List.mem_flatMap.mp h
  have hwanted : wantedAt (dependencies active) type = want := by
    rw [wantedAt, lookup_of_nodup (nodup_dependencies active) hentry]
    rfl
  simp only at hrow
  cases hspec : docIndex docs type with
  | none => simp [hspec] at hrow
  | some spec =>
      rw [hspec] at hrow
      rcases mem_documentRows_cases hrow with
        ⟨group, -, field, -, hname, rfl⟩ | ⟨validator, -, hname, rfl⟩
      · rw [← hwanted] at hname
        exact mem_fields_dependencies.mp hname
      · rw [← hwanted] at hname
        exact mem_validators_dependencies.mp hname

end

/-! ## Active rules -/

theorem mem_rules_of_mem_levelCalls {self : RuleEngine}
    {rules : List RuleSpec} {graph : DependencyGraph String}
    {rounds level : Nat} {done : List String}
    {results : List Interfaces.RuleResult} {call : LevelCall}
    (h : call ∈ self.levelCalls rules graph rounds level done results)
    {rule : RuleSpec} (hrule : rule ∈ call.active) : rule ∈ rules := by
  have hactive : ∀ ready : List String,
      rule ∈ ready.filterMap (ruleById rules) → rule ∈ rules := by
    intro ready hready
    obtain ⟨id, -, hid⟩ := List.mem_filterMap.mp hready
    exact mem_of_lookupLast hid
  induction rounds generalizing level done results with
  | zero => cases h
  | succ rounds ih =>
      simp only [levelCalls] at h
      split at h
      · cases h
      · split at h
        · cases List.mem_singleton.mp h
          exact hactive _ hrule
        · rcases List.mem_cons.mp h with rfl | hlater
          · exact hactive _ hrule
          · exact ih hlater

theorem mem_rules_of_mem_calls {self : RuleEngine} {rules : List RuleSpec}
    {call : LevelCall} (h : call ∈ self.calls rules) {rule : RuleSpec}
    (hrule : rule ∈ call.active) : rule ∈ rules := by
  simp only [calls] at h
  split at h
  · cases h
  · exact mem_rules_of_mem_levelCalls h hrule

end RuleEngine

end Flydocs
