import Flydocs.Bbox.BboxValidator
import Flydocs.Bbox.Conservative
import Flydocs.Escalation.RowVerdicts
import Flydocs.Extraction.Conformance
import Flydocs.Repair.Splice
import Flydocs.Validation.Run

/-!
# Graders keep what was read

The judge, the field validator, the bbox refiner and the shift of the pages of
a repaired field write beside the values of the fields, never into them.
-/

namespace Flydocs

open Foundation Dtos

/-! ## The judge -/

namespace Judge

theorem value_applyRaw (raw : RawJudgeField) (field : ExtractedField) :
    (applyRaw raw field).value =
      field.value.mapItems (applyRow (raw.items.getD [])) := by
  obtain ⟨name, value, pages, confidence, bbox, validation, judge, notes,
    source⟩ := field
  cases value <;>
    simp only [applyRaw, applyValue, applyRows_eq_map, FieldValue.mapItems]

theorem value_applyRow (items : List RawJudgeField) (field : ExtractedField) :
    (applyRow items field).value = field.value.mapItems (applyCell items) := by
  obtain ⟨name, value, pages, confidence, bbox, validation, judge, notes,
    source⟩ := field
  cases value <;>
    simp only [applyRow, applyRowValue, applyCells_eq_map, FieldValue.mapItems]

theorem asRead_apply (field : ExtractedField) :
    (∀ raw, (applyRaw raw field).asRead = field.asRead) ∧
      ∀ items, (applyRow items field).asRead = field.asRead := by
  induction field using ExtractedField.tree_induction with
  | step field ih =>
      constructor
      · intro raw
        refine ExtractedField.asRead_eq_of_mapItems ?_
          (value_applyRaw raw field) fun row hrow => (ih row hrow).2 _
        cases field
        rfl
      · intro items
        refine ExtractedField.asRead_eq_of_mapItems ?_
          (value_applyRow items field) fun cell hcell => ?_
        · cases field
          rfl
        · unfold applyCell
          split
          · exact (ih cell hcell).1 _
          · rfl

theorem asRead_applyGroup (output : JudgeOutput) (group : ExtractedFieldGroup) :
    (applyGroup output group).asRead = group.asRead := by
  refine ExtractedFieldGroup.asRead_map_fields fun field => ?_
  unfold applyField
  split
  · exact (asRead_apply field).1 _
  · rfl

end Judge

/-! ## The field validator -/

namespace FieldValidator

variable (self : FieldValidator)

theorem asRead_validateCell (spec : Field) (cell : ExtractedField) :
    (self.validateCell spec cell).asRead = cell.asRead := by
  unfold validateCell
  split
  · exact ExtractedField.asRead_eq_of_value_eq rfl rfl
  · rfl

theorem asRead_validateRow (spec : Field) (row : ExtractedField) :
    (self.validateRow spec row).asRead = row.asRead := by
  unfold validateRow
  split
  next cells hcells =>
    refine ExtractedField.asRead_eq_of_mapItems rfl (?_ : _ =
      row.value.mapItems (self.validateCell spec)) fun cell _ =>
        self.asRead_validateCell spec cell
    rw [hcells]
    rfl
  next => rfl

theorem asRead_validateField (spec : Field) (field : ExtractedField) :
    (self.validateField spec field).asRead = field.asRead := by
  unfold validateField validateArray
  split
  · split
    next rows hrows =>
      refine ExtractedField.asRead_eq_of_mapItems rfl (?_ : _ =
        field.value.mapItems (self.validateRow spec)) fun row _ =>
          self.asRead_validateRow spec row
      rw [hrows]
      rfl
    next => exact ExtractedField.asRead_eq_of_value_eq rfl rfl
  · exact ExtractedField.asRead_eq_of_value_eq rfl rfl

theorem asRead_validate (specGroups : List FieldGroup)
    (groups : List ExtractedFieldGroup) :
    (self.validate specGroups groups).map ExtractedFieldGroup.asRead =
      groups.map ExtractedFieldGroup.asRead := by
  unfold validate
  split
  · rfl
  · rw [List.map_map]
    refine List.map_congr_left fun group _ => ?_
    simp only [Function.comp_apply]
    split
    · refine ExtractedFieldGroup.asRead_map_fields fun field => ?_
      split
      · exact self.asRead_validateField _ field
      · rfl
    · rfl

end FieldValidator

/-! ## Repaired fields -/

namespace FieldRepairer

theorem shiftAll_eq (offset : Int) (items : List ExtractedField) :
    shiftAll offset items = items.map (shiftPages offset) := by
  induction items with
  | nil => rfl
  | cons item items ih => rw [shiftAll, ih, List.map_cons]

theorem asRead_shiftPages (offset : Int) (field : ExtractedField) :
    (shiftPages offset field).asRead = field.asRead := by
  induction field using ExtractedField.tree_induction with
  | step field ih =>
      refine ExtractedField.asRead_eq_of_mapItems (name_shiftPages offset field)
        ?_ ih
      obtain ⟨name, value, pages, confidence, bbox, validation, judge, notes,
        source⟩ := field
      cases value <;>
        simp only [shiftPages, shiftValue, shiftAll_eq, FieldValue.mapItems]

end FieldRepairer

/-! ## The bbox refiner -/

namespace Bbox

theorem eraseAll_eq (items : List ExtractedField) :
    eraseAll items = items.map eraseBoxes := by
  induction items with
  | nil => rfl
  | cons item items ih => rw [eraseAll, ih, List.map_cons]

theorem asRead_eraseBoxes (field : ExtractedField) :
    (eraseBoxes field).asRead = field.asRead := by
  induction field using ExtractedField.tree_induction with
  | step field ih =>
      have hname : (eraseBoxes field).name = field.name := by
        obtain ⟨name, value, pages, confidence, bbox, validation, judge, notes,
          source⟩ := field
        cases value <;> simp only [eraseBoxes]
      refine ExtractedField.asRead_eq_of_mapItems hname ?_ ih
      obtain ⟨name, value, pages, confidence, bbox, validation, judge, notes,
        source⟩ := field
      cases value <;> simp only [eraseBoxes, eraseAll_eq, FieldValue.mapItems]

theorem asRead_eraseGroups (groups : List ExtractedFieldGroup) :
    (eraseGroups groups).map ExtractedFieldGroup.asRead =
      groups.map ExtractedFieldGroup.asRead := by
  unfold eraseGroups
  rw [List.map_map]
  refine List.map_congr_left fun group _ => ?_
  simp only [Function.comp_apply, eraseAll_eq]
  exact ExtractedFieldGroup.asRead_map_fields asRead_eraseBoxes

theorem BboxRefiner.asRead_refine {Failure : Type}
    (refiner : BboxRefiner Failure) (groups : List ExtractedFieldGroup) :
    (refiner.refine groups).1.map ExtractedFieldGroup.asRead =
      groups.map ExtractedFieldGroup.asRead := by
  have herased : eraseGroups (refiner.refine groups).1 =
      eraseGroups groups := by
    obtain ⟨hsame, -⟩ | ⟨_, _, _, -, herased, -, -⟩ :=
      refiner.refine_cases groups
    · rw [hsame]
    · exact herased
  rw [← asRead_eraseGroups, herased, asRead_eraseGroups]

end Bbox

end Flydocs
