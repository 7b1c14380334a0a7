import Flydocs.Extraction.Postprocess
import Flydocs.Validation.FieldValidator

/-!
# Positions in an extraction

A position is a group, a field of it and a path of indices below the field.  A
run of the field validator keeps the positions, and puts verdicts on the fields
that are declared and on the cells of declared rows; everything else keeps the
verdict that it came with.
-/

namespace Flydocs

open Foundation Dtos

namespace Positions

/-! ## What is extracted -/

def fieldAt (groups : List ExtractedFieldGroup) (group index : Nat) :
    Option ExtractedField :=
  groups[group]?.bind fun group => group.fields[index]?

def itemAt (field : ExtractedField) : List Nat → Option ExtractedField
  | [] => some field
  | index :: path => field.items[index]?.bind fun item => itemAt item path

/-! ## What is declared -/

/-- The item that is declared in this place, and else the last of the name. -/
def own {Item : Type} (name : Item → String) (declared : List Item)
    (index : Nat) (key : String) : Option Item :=
  (declared[index]?.filter fun item => name item = key).or
    (lookupLast name declared key)

def declaredAt (specGroups : List FieldGroup)
    (groups : List ExtractedFieldGroup) (group index : Nat) : Option Field :=
  groups[group]?.bind fun extracted =>
    (own FieldGroup.name specGroups group extracted.name).bind fun specGroup =>
      extracted.fields[index]?.bind fun field =>
        own Field.name specGroup.fields index field.name

/-- The rows of an array are the objects that its items declare, if they do; the
cells of a row belong to the columns, or are the one item that the row is. -/
def specAt (spec : Field) (field : ExtractedField) : List Nat → Option Field
  | [] => some spec
  | index :: path =>
      match spec.type, path with
      | .array, [] => spec.items.filter fun items => items.type = .object
      | .array, column :: path =>
          (field.items[index]?.bind fun row => row.items[column]?).bind fun cell =>
            (own Field.name (Schema.itemsSpecs spec) column cell.name).bind
              fun column => specAt column cell path
      | .object, path =>
          field.items[index]?.bind fun member =>
            (own Field.name (spec.fields.getD []) index member.name).bind
              fun spec => specAt spec member path
      | _, _ => none

/-! ## What is checked -/

/-- The declared field that the validator binds an extracted one to. -/
def boundAt (specGroups : List FieldGroup) (groups : List ExtractedFieldGroup)
    (group index : Nat) : Option Field :=
  groups[group]?.bind fun extracted =>
    (FieldValidator.groupFor specGroups extracted.name).bind fun specGroup =>
      extracted.fields[index]?.bind fun field =>
        FieldValidator.specFor specGroup field.name

def checkedAt (bound : Field) (field : ExtractedField) : List Nat → Option Field
  | [row, column] =>
      if bound.type = .array then
        (itemAt field [row, column]).bind fun cell =>
          FieldValidator.subSpecFor bound cell.name
      else none
  | _ => none

/-! ## What a run does -/

def validateBound (self : FieldValidator) (bound : Option Field)
    (field : ExtractedField) : ExtractedField :=
  match bound with
  | some spec => self.validateField spec field
  | none => field

@[simp] theorem validateBound_none (self : FieldValidator) :
    validateBound self none = id := rfl

theorem fieldAt_validate (self : FieldValidator) (specGroups : List FieldGroup)
    (groups : List ExtractedFieldGroup) (group index : Nat) :
    fieldAt (self.validate specGroups groups) group index =
      (fieldAt groups group index).map
        (validateBound self (boundAt specGroups groups group index)) := by
  unfold FieldValidator.validate
  split
  · rename_i hempty
    have hunbound : boundAt specGroups groups group index = none := by
      rcases hempty with rfl | rfl
      · simp [boundAt, FieldValidator.groupFor, lookupLast]
      · simp [boundAt]
    simp [hunbound]
  · unfold fieldAt boundAt
    rw [List.getElem?_map]
    cases groups[group]? with
    | none => rfl
    | some extracted =>
        simp only [Option.map_some, Option.bind_some]
        cases FieldValidator.groupFor specGroups extracted.name with
        | none => simp
        | some specGroup =>
            simp only [FieldValidator.validateGroup, List.getElem?_map,
              Option.bind_some]
            cases extracted.fields[index]? with
            | none => rfl
            | some field => rfl

theorem itemAt_congr {first second : ExtractedField}
    (h : first.value = second.value) {path : List Nat} (hpath : path ≠ []) :
    itemAt first path = itemAt second path := by
  cases path with
  | nil => exact absurd rfl hpath
  | cons index path => simp only [itemAt, ExtractedField.items, h]

theorem items_validateRow (self : FieldValidator) (spec : Field)
    (row : ExtractedField) :
    (self.validateRow spec row).items =
      row.items.map (self.validateCell spec) := by
  unfold FieldValidator.validateRow ExtractedField.items
  cases hvalue : row.value <;> simp [hvalue]

theorem items_validateArray (self : FieldValidator) (spec : Field)
    (field : ExtractedField) :
    (self.validateArray spec field).items =
      field.items.map (self.validateRow spec) := by
  unfold FieldValidator.validateArray ExtractedField.items
  cases field.value <;> simp

theorem value_validateCell (self : FieldValidator) (spec : Field)
    (cell : ExtractedField) :
    (self.validateCell spec cell).value = cell.value := by
  unfold FieldValidator.validateCell
  split <;> rfl

theorem validation_validateRow (self : FieldValidator) (spec : Field)
    (row : ExtractedField) :
    (self.validateRow spec row).validation = row.validation := by
  unfold FieldValidator.validateRow
  split <;> rfl

theorem rowValid_eq_all (self : FieldValidator) (spec : Field)
    (row : ExtractedField) :
    self.rowValid spec row = row.items.all (self.cellValid spec) := by
  unfold FieldValidator.rowValid ExtractedField.items
  cases row.value <;> rfl

theorem valid_validateArray (self : FieldValidator) (spec : Field)
    (field : ExtractedField) :
    (self.validateArray spec field).validation.valid =
      field.items.all (self.rowValid spec) := by
  unfold FieldValidator.validateArray ExtractedField.items
  cases field.value <;> rfl

/-- The verdict below a field is that of the constraints which are run there, or
else the one that was there. -/
def verdictAt (self : FieldValidator) (bound : Option Field)
    (field : ExtractedField) (path : List Nat) (item : ExtractedField) :
    FieldValidation :=
  match bound.bind fun bound => checkedAt bound field path with
  | some spec => self.verdict spec item
  | none => item.validation

theorem itemAt_validateArray {self : FieldValidator} {spec : Field}
    {field item : ExtractedField} {path : List Nat} (hpath : path ≠ [])
    (harray : spec.type = .array) (h : itemAt field path = some item) :
    ∃ validated, itemAt (self.validateArray spec field) path = some validated ∧
      validated.validation = verdictAt self (some spec) field path item := by
  match path, hpath with
  | [index], _ =>
      simp only [itemAt, Option.bind_fun_some] at h
      refine ⟨self.validateRow spec item, ?_, ?_⟩
      · simp [itemAt, items_validateArray, h]
      · simp [validation_validateRow, verdictAt, checkedAt]
  | [index, column], _ =>
      have hitem := h
      simp only [itemAt, Option.bind_fun_some, Option.bind_eq_some_iff] at h
      obtain ⟨row, hrow, hcell⟩ := h
      refine ⟨self.validateCell spec item, ?_, ?_⟩
      · simp [itemAt, items_validateArray, items_validateRow, hrow, hcell]
      · simp only [verdictAt, Option.bind_some, checkedAt, if_pos harray, hitem,
          FieldValidator.validateCell]
        cases FieldValidator.subSpecFor spec item.name <;> rfl
  | index :: column :: deeper :: path, _ =>
      simp only [itemAt, Option.bind_eq_some_iff] at h
      obtain ⟨row, hrow, cell, hcell, hitem⟩ := h
      refine ⟨item, ?_, by simp [verdictAt, checkedAt]⟩
      have hbelow := itemAt_congr (value_validateCell self spec cell)
        (List.cons_ne_nil deeper path)
      rw [itemAt, items_validateArray, List.getElem?_map, hrow]
      simp only [Option.map_some, Option.bind_some]
      rw [itemAt, items_validateRow, List.getElem?_map, hcell]
      simp only [Option.map_some, Option.bind_some, hbelow]
      simpa only [itemAt, Option.bind_eq_some_iff] using hitem

theorem itemAt_validateBound {self : FieldValidator} {bound : Option Field}
    {field item : ExtractedField} {path : List Nat} (hpath : path ≠ [])
    (h : itemAt field path = some item) :
    ∃ validated, itemAt (validateBound self bound field) path =
        some validated ∧
      validated.validation = verdictAt self bound field path item := by
  cases bound with
  | none => exact ⟨item, h, rfl⟩
  | some spec =>
      unfold validateBound FieldValidator.validateField
      by_cases harray : spec.type = .array
      · simpa only [if_pos harray] using itemAt_validateArray hpath harray h
      · refine ⟨item, ?_, ?_⟩
        · have hvalue : ({ field with
              validation := self.verdict spec field } : ExtractedField).value =
              field.value := rfl
          simp only [if_neg harray]
          rw [itemAt_congr hvalue hpath]
          exact h
        · have hchecked : checkedAt spec field path = none := by
            unfold checkedAt
            split
            · exact if_neg harray
            · rfl
          simp [verdictAt, hchecked]

end Positions

end Flydocs
