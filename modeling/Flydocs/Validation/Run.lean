import Flydocs.Foundation.Traverse
import Flydocs.Validation.Constraints

/-!
# A run of the field validator

The loops of `FieldValidator` with checks that may raise.  A run returns exactly
when all the checks that it makes return, and then it returns what the validator
does whose checks have those findings.
-/

namespace Flydocs

open Foundation Dtos

def Constraints.fieldValidator (library : PythonLibrary) : FieldValidator where
  runConstraints spec value :=
    match runConstraints library spec value with
    | .ok errors => errors
    | .error _ => []

namespace ValidationRun

variable (library : PythonLibrary)

/-! ## The loops -/

def verdict (spec : Field) (field : ExtractedField) :
    Except PyException FieldValidation := do
  let errors ← Constraints.runConstraints library spec field.value
  return { valid := (FieldValidator.hardErrors errors).isEmpty, errors }

def validateCell (spec : Field) (cell : ExtractedField) :
    Except PyException ExtractedField :=
  match FieldValidator.subSpecFor spec cell.name with
  | some subSpec => do
      return { cell with validation := (← verdict library subSpec cell) }
  | none => .ok cell

def validateRow (spec : Field) (row : ExtractedField) :
    Except PyException ExtractedField :=
  match row.value with
  | .list cells => do
      return { row with value := .list (← cells.mapM (validateCell library spec)) }
  | _ => .ok row

def allValid (spec : Field) (rows : List ExtractedField) : Bool :=
  rows.all fun row => row.items.all fun cell =>
    (FieldValidator.subSpecFor spec cell.name).isNone || cell.validation.valid

def validateArray (spec : Field) (field : ExtractedField) :
    Except PyException ExtractedField :=
  match field.value with
  | .list rows => do
      let rows ← rows.mapM (validateRow library spec)
      return { field with
        value := .list rows, validation := { valid := allValid spec rows } }
  | _ => .ok { field with validation := {} }

def validateField (spec : Field) (field : ExtractedField) :
    Except PyException ExtractedField :=
  if spec.type = .array then validateArray library spec field
  else do return { field with validation := (← verdict library spec field) }

def validateGroup (specGroup : FieldGroup) (group : ExtractedFieldGroup) :
    Except PyException ExtractedFieldGroup := do
  let fields ← group.fields.mapM fun field =>
    match FieldValidator.specFor specGroup field.name with
    | some spec => validateField library spec field
    | none => .ok field
  return { group with fields }

def validate (specGroups : List FieldGroup)
    (extractedGroups : List ExtractedFieldGroup) :
    Except PyException (List ExtractedFieldGroup) :=
  if specGroups = [] ∨ extractedGroups = [] then .ok extractedGroups
  else
    extractedGroups.mapM fun group =>
      match FieldValidator.groupFor specGroups group.name with
      | some specGroup => validateGroup library specGroup group
      | none => .ok group

/-! ## The checks that are made -/

def Returns (reached : List (Field × FieldValue)) : Prop :=
  ∀ entry ∈ reached, ∃ errors,
    Constraints.runConstraints library entry.1 entry.2 = .ok errors

def reachedInCell (spec : Field) (cell : ExtractedField) :
    List (Field × FieldValue) :=
  ((FieldValidator.subSpecFor spec cell.name).map fun subSpec =>
    (subSpec, cell.value)).toList

def reachedInField (spec : Field) (field : ExtractedField) :
    List (Field × FieldValue) :=
  if spec.type = .array then
    field.items.flatMap fun row => row.items.flatMap (reachedInCell spec)
  else [(spec, field.value)]

def reachedInGroup (specGroup : FieldGroup) (group : ExtractedFieldGroup) :
    List (Field × FieldValue) :=
  group.fields.flatMap fun field =>
    match FieldValidator.specFor specGroup field.name with
    | some spec => reachedInField spec field
    | none => []

/-- Every value that is checked, with the spec that it is checked against. -/
def reached (specGroups : List FieldGroup)
    (extractedGroups : List ExtractedFieldGroup) : List (Field × FieldValue) :=
  extractedGroups.flatMap fun group =>
    match FieldValidator.groupFor specGroups group.name with
    | some specGroup => reachedInGroup specGroup group
    | none => []

section

variable {library : PythonLibrary}

theorem verdict_eq_ok_iff {spec : Field} {field : ExtractedField}
    {validation : FieldValidation} :
    verdict library spec field = .ok validation ↔
      Returns library [(spec, field.value)] ∧
      validation = (Constraints.fieldValidator library).verdict spec field := by
  unfold verdict Returns FieldValidator.verdict Constraints.fieldValidator
  rw [bind_eq_ok_iff]
  simp only [List.forall_mem_singleton]
  constructor
  · rintro ⟨errors, herrors, hvalidation⟩
    cases hvalidation
    exact ⟨⟨errors, herrors⟩, by simp only [herrors]⟩
  · rintro ⟨⟨errors, herrors⟩, rfl⟩
    exact ⟨errors, herrors, by simp only [herrors]; rfl⟩

theorem validateCell_eq_ok_iff {spec : Field} {cell validated : ExtractedField} :
    validateCell library spec cell = .ok validated ↔
      Returns library (reachedInCell spec cell) ∧
      validated =
        (Constraints.fieldValidator library).validateCell spec cell := by
  unfold validateCell reachedInCell FieldValidator.validateCell
  cases FieldValidator.subSpecFor spec cell.name with
  | none => simp [Returns, eq_comm]
  | some subSpec =>
      simp only [bind_eq_ok_iff, verdict_eq_ok_iff, Option.map_some,
        Option.toList_some]
      constructor
      · rintro ⟨validation, ⟨hreturns, rfl⟩, hvalidated⟩
        cases hvalidated
        exact ⟨hreturns, rfl⟩
      · rintro ⟨hreturns, rfl⟩
        exact ⟨_, ⟨hreturns, rfl⟩, rfl⟩

theorem returns_flatMap_iff {Item : Type} {items : List Item}
    {reach : Item → List (Field × FieldValue)} :
    Returns library (items.flatMap reach) ↔
      ∀ item ∈ items, Returns library (reach item) := by
  simp only [Returns, List.forall_mem_flatMap]

theorem validateRow_eq_ok_iff {spec : Field} {row validated : ExtractedField} :
    validateRow library spec row = .ok validated ↔
      Returns library (row.items.flatMap (reachedInCell spec)) ∧
      validated = (Constraints.fieldValidator library).validateRow spec row := by
  unfold validateRow FieldValidator.validateRow
  cases hvalue : row.value with
  | list cells =>
      have hitems : row.items = cells := by simp [ExtractedField.items, hvalue]
      simp only [hitems, bind_eq_ok_iff, returns_flatMap_iff,
        mapM_eq_ok_iff_map fun cell _ result => validateCell_eq_ok_iff]
      constructor
      · rintro ⟨_, ⟨hreturns, rfl⟩, hvalidated⟩
        cases hvalidated
        exact ⟨hreturns, rfl⟩
      · rintro ⟨hreturns, rfl⟩
        exact ⟨_, ⟨hreturns, rfl⟩, rfl⟩
  | _ => simp [ExtractedField.items, hvalue, Returns, eq_comm]

theorem allValid_map_validateRow (self : FieldValidator) (spec : Field)
    (rows : List ExtractedField) :
    allValid spec (rows.map (self.validateRow spec)) =
      rows.all (self.rowValid spec) := by
  have hcell (cell : ExtractedField) :
      ((FieldValidator.subSpecFor spec
          (self.validateCell spec cell).name).isNone ||
        (self.validateCell spec cell).validation.valid) =
        self.cellValid spec cell := by
    unfold FieldValidator.validateCell FieldValidator.cellValid
    cases hspec : FieldValidator.subSpecFor spec cell.name with
    | none => simp [hspec]
    | some subSpec => simp [hspec]
  unfold allValid
  rw [List.all_map]
  congr 1
  funext row
  unfold FieldValidator.validateRow FieldValidator.rowValid
  cases hvalue : row.value with
  | list cells =>
      simp only [Function.comp_apply, hvalue, ExtractedField.items, List.all_map]
      congr 1
      funext cell
      exact hcell cell
  | _ => simp [hvalue, ExtractedField.items]

theorem validateField_eq_ok_iff {spec : Field}
    {field validated : ExtractedField} :
    validateField library spec field = .ok validated ↔
      Returns library (reachedInField spec field) ∧
      validated =
        (Constraints.fieldValidator library).validateField spec field := by
  unfold validateField reachedInField FieldValidator.validateField
  split
  · unfold validateArray FieldValidator.validateArray
    cases hvalue : field.value with
    | list rows =>
        have hitems : field.items = rows := by
          simp [ExtractedField.items, hvalue]
        simp only [hitems, bind_eq_ok_iff,
          mapM_eq_ok_iff_map fun row _ result => validateRow_eq_ok_iff]
        rw [returns_flatMap_iff]
        constructor
        · rintro ⟨_, ⟨hreturns, rfl⟩, hvalidated⟩
          cases hvalidated
          rw [allValid_map_validateRow]
          exact ⟨hreturns, rfl⟩
        · rintro ⟨hreturns, rfl⟩
          refine ⟨_, ⟨hreturns, rfl⟩, ?_⟩
          rw [allValid_map_validateRow]
          rfl
    | _ => simp [ExtractedField.items, hvalue, Returns, eq_comm]
  · simp only [bind_eq_ok_iff, verdict_eq_ok_iff]
    constructor
    · rintro ⟨validation, ⟨hreturns, rfl⟩, hvalidated⟩
      cases hvalidated
      exact ⟨hreturns, rfl⟩
    · rintro ⟨hreturns, rfl⟩
      exact ⟨_, ⟨hreturns, rfl⟩, rfl⟩

theorem validateGroup_eq_ok_iff {specGroup : FieldGroup}
    {group validated : ExtractedFieldGroup} :
    validateGroup library specGroup group = .ok validated ↔
      Returns library (reachedInGroup specGroup group) ∧
      validated =
        (Constraints.fieldValidator library).validateGroup specGroup group := by
  have hfield (field result : ExtractedField) :
      (match FieldValidator.specFor specGroup field.name with
        | some spec => validateField library spec field
        | none => .ok field) = .ok result ↔
      Returns library
        (match FieldValidator.specFor specGroup field.name with
          | some spec => reachedInField spec field
          | none => []) ∧
      result =
        match FieldValidator.specFor specGroup field.name with
        | some spec =>
            (Constraints.fieldValidator library).validateField spec field
        | none => field := by
    cases FieldValidator.specFor specGroup field.name with
    | some spec => exact validateField_eq_ok_iff
    | none => simp [Returns, eq_comm]
  unfold validateGroup reachedInGroup FieldValidator.validateGroup
  simp only [bind_eq_ok_iff, returns_flatMap_iff,
    mapM_eq_ok_iff_map fun field _ result => hfield field result]
  constructor
  · rintro ⟨_, ⟨hreturns, rfl⟩, hvalidated⟩
    cases hvalidated
    exact ⟨hreturns, rfl⟩
  · rintro ⟨hreturns, rfl⟩
    exact ⟨_, ⟨hreturns, rfl⟩, rfl⟩

theorem validate_eq_ok_iff {specGroups : List FieldGroup}
    {extractedGroups validated : List ExtractedFieldGroup} :
    validate library specGroups extractedGroups = .ok validated ↔
      Returns library (reached specGroups extractedGroups) ∧
      validated = (Constraints.fieldValidator library).validate specGroups
        extractedGroups := by
  have hgroup (group result : ExtractedFieldGroup) :
      (match FieldValidator.groupFor specGroups group.name with
        | some specGroup => validateGroup library specGroup group
        | none => .ok group) = .ok result ↔
      Returns library
        (match FieldValidator.groupFor specGroups group.name with
          | some specGroup => reachedInGroup specGroup group
          | none => []) ∧
      result =
        match FieldValidator.groupFor specGroups group.name with
        | some specGroup =>
            (Constraints.fieldValidator library).validateGroup specGroup group
        | none => group := by
    cases FieldValidator.groupFor specGroups group.name with
    | some specGroup => exact validateGroup_eq_ok_iff
    | none => simp [Returns, eq_comm]
  unfold validate reached FieldValidator.validate
  by_cases hempty : specGroups = [] ∨ extractedGroups = []
  · have hreached : Returns library (extractedGroups.flatMap fun group =>
        match FieldValidator.groupFor specGroups group.name with
        | some specGroup => reachedInGroup specGroup group
        | none => []) := by
      rcases hempty with rfl | rfl
      · simp [Returns, FieldValidator.groupFor, lookupLast]
      · simp [Returns]
    rw [if_pos hempty, if_pos hempty]
    exact ⟨fun h => ⟨hreached, (Except.ok.inj h).symm⟩, fun h => by rw [h.2]⟩
  · rw [if_neg hempty, if_neg hempty, returns_flatMap_iff]
    exact mapM_eq_ok_iff_map fun group _ result => hgroup group result

end

end ValidationRun

end Flydocs
