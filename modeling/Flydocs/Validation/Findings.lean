import Flydocs.Validation.Run

/-!
# Findings

Which check a recorded error comes from.  The severity of a check is the one of
its validator, and `error` for the type and the constraints.
-/

namespace Flydocs

open Foundation Dtos

namespace Constraints

variable (library : PythonLibrary)

inductive Fails (spec : Field) (value : FieldValue) :
    ValidatorSeverity → FieldValidationError → Prop
  | type {error} : value ≠ .null → validateType spec.type value = some error →
      Fails spec value .error error
  | constraint {error} : value ≠ .null → hasType spec.type value = true →
      .ok (some error) ∈ constraintChecks library spec value →
      Fails spec value .error error
  | validator {validator error} : value ≠ .null →
      hasType spec.type value = true → validator ∈ spec.validators →
      validateSpec library validator value = .ok (some error) →
      Fails spec value validator.severity error

section

variable {library : PythonLibrary} {spec : Field} {value : FieldValue}
  {error : FieldValidationError}

theorem runConstraints_of_type (hnull : value ≠ .null)
    (htype : hasType spec.type value = true) :
    runConstraints library spec value = do
      let outcomes ← (checks library spec value).mapM id
      return outcomes.filterMap id := by
  have hvalid : validateType spec.type value = none := by
    simp [validateType, htype]
  unfold runConstraints
  split
  · exact absurd rfl hnull
  · rw [hvalid]

theorem exists_outcome {errors : List FieldValidationError}
    (h : runConstraints library spec value = .ok errors) (hnull : value ≠ .null)
    (htype : hasType spec.type value = true) {check : Check}
    (hmem : check ∈ checks library spec value) :
    ∃ outcome, check = .ok outcome := by
  rw [runConstraints_of_type hnull htype, bind_eq_ok_iff] at h
  obtain ⟨outcomes, houtcomes, -⟩ := h
  exact exists_mapM_eq_ok_iff.mp ⟨outcomes, houtcomes⟩ check hmem

theorem mem_outcomes_iff {outcomes : List (Option FieldValidationError)}
    {made : List Check} (h : made.mapM id = .ok outcomes) :
    error ∈ outcomes.filterMap id ↔ .ok (some error) ∈ made := by
  have hmade : made = outcomes.map .ok := by
    have hsteps := mapM_eq_ok_iff.mp h
    rw [← List.forall₂_eq_eq_eq, List.forall₂_map_right_iff]
    exact hsteps
  rw [hmade]
  simp

theorem mem_errors_iff {errors : List FieldValidationError}
    (h : runConstraints library spec value = .ok errors) :
    error ∈ errors ↔ ∃ severity, Fails library spec value severity error := by
  by_cases hnull : value = .null
  · subst hnull
    cases h
    simp only [List.not_mem_nil, false_iff, not_exists]
    rintro severity (⟨h, -⟩ | ⟨h, -, -⟩ | ⟨h, -, -, -⟩) <;> exact h rfl
  cases htype : hasType spec.type value with
  | false =>
      have hinvalid : ∃ failure, validateType spec.type value = some failure := by
        simp [validateType, htype, failed]
      obtain ⟨failure, hfailure⟩ := hinvalid
      have herrors : errors = [failure] := by
        unfold runConstraints at h
        split at h
        · exact absurd rfl hnull
        · rw [hfailure] at h
          exact (Except.ok.inj h).symm
      rw [herrors, List.mem_singleton]
      constructor
      · rintro rfl
        exact ⟨.error, .type hnull hfailure⟩
      · rintro ⟨_, ⟨-, hother⟩ | ⟨-, hother, -⟩ | ⟨-, hother, -, -⟩⟩
        · exact Option.some.inj (hother.symm.trans hfailure)
        · rw [htype] at hother
          cases hother
        · rw [htype] at hother
          cases hother
  | true =>
      rw [runConstraints_of_type hnull htype, bind_eq_ok_iff] at h
      obtain ⟨outcomes, houtcomes, h⟩ := h
      cases h
      rw [mem_outcomes_iff houtcomes, checks, List.mem_append, List.mem_map]
      constructor
      · rintro (hmem | ⟨validator, hmem, hfails⟩)
        · exact ⟨.error, .constraint hnull htype hmem⟩
        · exact ⟨validator.severity, .validator hnull htype hmem hfails⟩
      · rintro ⟨_, ⟨-, hother⟩ | ⟨-, -, hmem⟩ | ⟨-, -, hmem, hfails⟩⟩
        · simp [validateType, htype] at hother
        · exact .inl hmem
        · exact .inr ⟨_, hmem, hfails⟩

/-! ## What the errors say -/

theorem ifDeclared_eq_some_iff {Bound : Type} {bound : Option Bound}
    {check : Bound → Check} :
    ifDeclared bound check = .ok (some error) ↔
      ∃ declared, bound = some declared ∧ check declared = .ok (some error) := by
  cases bound <;> simp [ifDeclared]

theorem mem_constraintChecks_iff :
    .ok (some error) ∈ constraintChecks library spec value ↔
      (∃ pattern, spec.pattern = some pattern ∧
        validatePattern library pattern value = .ok (some error)) ∨
      (∃ format, spec.format = some format ∧
        validateFormat library format value = .ok (some error)) ∨
      (∃ enum, spec.enum = some enum ∧
        validateEnum library enum value = .ok (some error)) ∨
      (∃ minimum, spec.minimum = some minimum ∧
        validateMinimum library minimum value = .ok (some error)) ∨
      ∃ maximum, spec.maximum = some maximum ∧
        validateMaximum library maximum value = .ok (some error) := by
  simp only [constraintChecks, List.mem_cons, List.not_mem_nil, or_false,
    @eq_comm Check (.ok (some error)), ifDeclared_eq_some_iff]

theorem of_validatePattern {pattern : String}
    (h : validatePattern library pattern value = .ok (some error)) :
    error.rule = .pattern ∧
      ((∃ text complaint, library.compile pattern = .error (.reError text) ∧
        error.message = complaint ++ ": " ++ text) ∨
      ∃ complaint, error.message = complaint ++ library.reprText pattern) := by
  unfold validatePattern at h
  split at h
  · rename_i text hcompile
    cases h
    exact ⟨rfl, .inl ⟨text, _, hcompile, rfl⟩⟩
  · cases h
  · obtain ⟨raw, -, h⟩ := bind_eq_ok_iff.mp h
    split at h
    · cases h
    · obtain ⟨shown, -, h⟩ := bind_eq_ok_iff.mp h
      cases h
      exact ⟨rfl, .inr ⟨_, rfl⟩⟩

theorem of_validateFormat {format : StandardFormat}
    (h : validateFormat library format value = .ok (some error)) :
    error.rule = .format ∧ ∃ raw text complaint, library.str value = .ok raw ∧
      formatFailure library format raw = some text ∧
      error.message = complaint ++ ": " ++ text := by
  obtain ⟨raw, hraw, h⟩ := bind_eq_ok_iff.mp h
  split at h
  · cases h
  · rename_i text htext
    obtain ⟨shown, -, h⟩ := bind_eq_ok_iff.mp h
    cases h
    refine ⟨rfl, raw, text, "Value " ++ shown ++ " does not match format '" ++
      formatValue format ++ "'", hraw, htext, ?_⟩
    simp [String.append_assoc]

theorem formatFailure_of_validateFormat {format : StandardFormat} {raw : String}
    (h : validateFormat library format value = .ok none)
    (hraw : library.str value = .ok raw) :
    formatFailure library format raw = none := by
  rw [validateFormat, hraw] at h
  cases hfailure : formatFailure library format raw with
  | none => rfl
  | some text =>
      simp only [bind, Except.bind, hfailure] at h
      split at h <;> cases h

theorem of_validateEnum {enum : List JsonValue}
    (h : validateEnum library enum value = .ok (some error)) :
    error.rule = .enum ∧ ∃ text complaint,
      library.reprJson (.arr enum) = .ok text ∧
      error.message = complaint ++ text := by
  unfold validateEnum at h
  split at h
  · cases h
  · obtain ⟨shown, -, h⟩ := bind_eq_ok_iff.mp h
    obtain ⟨text, htext, h⟩ := bind_eq_ok_iff.mp h
    cases h
    exact ⟨rfl, text, _, htext, rfl⟩

theorem of_validateBound {rule : ValidationRule} {outside : PyFloat → Bool}
    {complaint : String}
    (h : validateBound library rule outside complaint value =
      .ok (some error)) :
    error.rule = rule ∧ ((∃ shown, error.message = shown ++ complaint) ∨
      ∃ shown, error.message = shown ++ " is not a number") := by
  unfold validateBound at h
  split at h
  · split at h
    · obtain ⟨shown, -, h⟩ := bind_eq_ok_iff.mp h
      cases h
      exact ⟨rfl, .inl ⟨_, rfl⟩⟩
    · cases h
  all_goals
    first
      | obtain ⟨shown, -, h⟩ := bind_eq_ok_iff.mp h
        cases h
        exact ⟨rfl, .inr ⟨_, rfl⟩⟩
      | cases h

theorem of_validateSpec {validator : ValidatorSpec}
    (h : validateSpec library validator value = .ok (some error)) :
    error.rule = .validator ∧ ∃ message, ValidatorRegistry.runValidator library
        validator.name value validator.params = .ok (some message) ∧
      error.message = validatorValue validator.name ++ ": " ++ message ++
        suffix validator.severity := by
  obtain ⟨finding, hfinding, h⟩ := bind_eq_ok_iff.mp h
  split at h
  · cases h
  · cases h
    exact ⟨rfl, _, hfinding, rfl⟩

theorem format_of_fails {severity : ValidatorSeverity}
    (h : Fails library spec value severity error) (hrule : error.rule = .format) :
    value ≠ .null ∧ hasType spec.type value = true ∧
      ∃ format, spec.format = some format ∧
        validateFormat library format value = .ok (some error) := by
  obtain ⟨-, hfails⟩ | ⟨hnull, htype, hmem⟩ | ⟨-, -, -, hfails⟩ := h
  · unfold validateType at hfails
    split at hfails <;> cases hfails
    cases hrule
  · rcases mem_constraintChecks_iff.mp hmem with ⟨_, -, hfails⟩ | hformat |
      ⟨_, -, hfails⟩ | ⟨_, -, hfails⟩ | ⟨_, -, hfails⟩
    · exact absurd (hrule.symm.trans (of_validatePattern hfails).1) (by decide)
    · exact ⟨hnull, htype, hformat⟩
    · exact absurd (hrule.symm.trans (of_validateEnum hfails).1) (by decide)
    · exact absurd (hrule.symm.trans (of_validateBound hfails).1) (by decide)
    · exact absurd (hrule.symm.trans (of_validateBound hfails).1) (by decide)
  · exact absurd (hrule.symm.trans (of_validateSpec hfails).1) (by decide)

end

end Constraints

end Flydocs
