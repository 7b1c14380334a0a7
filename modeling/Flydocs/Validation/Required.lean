import Flydocs.Validation.Positions
import Flydocs.Validation.Run

/-!
# Required fields

No check is made of a null value, whether the field is required or not, so a run
leaves every null that it visits valid and without errors.
-/

namespace Flydocs

open Foundation Dtos

namespace ValidationRun

open Positions

/-- Nulls of required fields end with an error, and no other null gets one. -/
def EnforcesRequired (specGroups : List FieldGroup)
    (groups validated : List ExtractedFieldGroup) : Prop :=
  ∀ group index spec field, declaredAt specGroups groups group index = some spec →
    fieldAt groups group index = some field →
    ∀ path subSpec sub, specAt spec field path = some subSpec →
      itemAt field path = some sub → sub.value = .null →
      ∃ result final, fieldAt validated group index = some result ∧
        itemAt result path = some final ∧
        if subSpec.required then
          final.validation.errors ≠ [] ∧ final.validation.valid = false
        else ∀ error ∈ final.validation.errors, error ∈ sub.validation.errors

def Visited (bound : Option Field) (field : ExtractedField) (path : List Nat) :
    Prop :=
  ∃ spec, bound = some spec ∧
    (path = [] ∨ (checkedAt spec field path).isSome = true)

section

variable {library : PythonLibrary} {bound : Option Field}
  {field sub : ExtractedField} {path : List Nat}

theorem verdict_of_null (hnull : sub.value = .null) (spec : Field) :
    (Constraints.fieldValidator library).verdict spec sub = {} := by
  rw [FieldValidator.verdict, hnull]
  rfl

theorem validateField_of_null (hnull : field.value = .null) (spec : Field) :
    ((Constraints.fieldValidator library).validateField spec field).validation =
      {} := by
  unfold FieldValidator.validateField FieldValidator.validateArray
  split
  · simp [hnull]
  · exact verdict_of_null hnull spec

theorem exists_final_of_null (hsub : itemAt field path = some sub)
    (hnull : sub.value = .null) :
    ∃ final, itemAt (validateBound (Constraints.fieldValidator library) bound
        field) path = some final ∧
      (Visited bound field path → final.validation = {}) ∧
      (¬ Visited bound field path → final.validation = sub.validation) := by
  by_cases hpath : path = []
  · subst hpath
    cases hsub
    refine ⟨_, rfl, ?_, ?_⟩
    · rintro ⟨spec, rfl, -⟩
      exact validateField_of_null hnull spec
    · intro hvisited
      cases bound with
      | none => rfl
      | some spec => exact absurd ⟨spec, rfl, .inl rfl⟩ hvisited
  · obtain ⟨final, hfinal, hverdict⟩ := @itemAt_validateBound
      (Constraints.fieldValidator library) bound _ _ _ hpath hsub
    refine ⟨final, hfinal, ?_, ?_⟩
    · rintro ⟨spec, rfl, hempty | hchecked⟩
      · exact absurd hempty hpath
      · obtain ⟨column, hcolumn⟩ := Option.isSome_iff_exists.mp hchecked
        rw [hverdict, verdictAt, Option.bind_some, hcolumn]
        exact verdict_of_null hnull column
    · intro hvisited
      have hunchecked :
          (bound.bind fun bound => checkedAt bound field path) = none := by
        rw [Option.eq_none_iff_forall_ne_some]
        intro column hcolumn
        obtain ⟨spec, hspec, hcolumn⟩ := Option.bind_eq_some_iff.mp hcolumn
        exact hvisited ⟨spec, hspec, .inr (by simp [hcolumn])⟩
      simpa [verdictAt, hunchecked] using hverdict

end

/--
A run that returns enforces the required fields exactly when every null of one
is out of its reach and came with an error.
-/
theorem enforcesRequired_iff (library : PythonLibrary)
    (specGroups : List FieldGroup) (groups validated : List ExtractedFieldGroup)
    (h : validate library specGroups groups = .ok validated) :
    EnforcesRequired specGroups groups validated ↔
      ∀ group index spec field,
        declaredAt specGroups groups group index = some spec →
        fieldAt groups group index = some field →
        ∀ path subSpec sub, specAt spec field path = some subSpec →
          itemAt field path = some sub → sub.value = .null →
          subSpec.required = true →
          ¬ Visited (boundAt specGroups groups group index) field path ∧
            sub.validation.errors ≠ [] ∧ sub.validation.valid = false := by
  obtain ⟨-, rfl⟩ := validate_eq_ok_iff.mp h
  unfold EnforcesRequired
  refine forall₂_congr fun group index => forall₂_congr fun spec field =>
    forall₂_congr fun _ hfield => forall_congr' fun path =>
    forall₂_congr fun subSpec sub => forall₃_congr fun _ hsub hnull => ?_
  obtain ⟨final, hfinal, hvisited, hunvisited⟩ := @exists_final_of_null library
    (boundAt specGroups groups group index) _ _ _ hsub hnull
  rw [fieldAt_validate, hfield]
  simp only [Option.map_some, Option.some.injEq, exists_and_left,
    exists_eq_left', hfinal]
  by_cases hreach : Visited (boundAt specGroups groups group index) field path
  · simp [hvisited hreach, hreach]
  · cases subSpec.required <;> simp [hunvisited hreach, hreach]

def numberSpec : List FieldGroup :=
  [{ name := "invoice", fields := [{ name := "number", required := true }] }]

def numberMissing : List ExtractedFieldGroup :=
  [{ name := "invoice", fields := [{ name := "number", value := .null }] }]

theorem enforcesRequired_iff_number :
    ¬ EnforcesRequired numberSpec numberMissing numberMissing := by
  rw [enforcesRequired_iff .ascii _ _ _ rfl]
  intro h
  exact (h 0 0 _ _ rfl rfl [] _ _ rfl rfl rfl rfl).1 ⟨_, rfl, .inl rfl⟩

theorem not_enforcesRequired :
    ¬ ∀ library specGroups groups validated,
      validate library specGroups groups = .ok validated →
      EnforcesRequired specGroups groups validated := by
  intro h
  have hvalidated : validate .ascii numberSpec numberMissing =
      .ok numberMissing := rfl
  obtain ⟨result, final, hresult, hfinal, hinvalid⟩ := h _ _ _ _ hvalidated
    0 0 _ _ rfl rfl [] _ _ rfl rfl rfl
  cases hresult
  cases hfinal
  cases hinvalid.2

end ValidationRun

end Flydocs
