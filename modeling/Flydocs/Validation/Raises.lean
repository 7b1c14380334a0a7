import Flydocs.Validation.Run
import Flydocs.Validation.Totality

/-!
# When the field validation returns

A check raises on integers that are too long or too large, on urls that cannot
be parsed, on documents nested too deeply for the JSON parser, on patterns that
the compiler gives up on, and on a country that is not a text.
-/

namespace Flydocs

open Foundation Dtos JsonValue

namespace ValidatorRegistry

def CountryText (params : Members) : Prop :=
  ∀ json, lookup "country" params = some json → Schema.truthy json = true →
    ∃ country, json = .str country

def Safe (library : PythonLibrary) (type : ValidatorType) (value : FieldValue)
    (params : Members) : Prop :=
  match type with
  | .uri | .url => ∀ text, needStr value = .ok text →
      ∃ parsed, library.urlparse text = .ok parsed
  | .ipv4 | .ipv6 | .date | .datetime | .time | .iso8601 | .uuid | .creditCard
  | .phoneE164 => library.Printable value
  | .json => (∃ items, value = .list items) ∨
      ∃ text, library.str value = .ok text ∧ library.loads text ≠ .other
  | .amount | .latitude | .longitude => library.NumberSafe value
  | .postalCode | .vatId =>
      (∃ text, needStr value = .ok text) → CountryText params
  | _ => True

variable {library : PythonLibrary} {value : FieldValue}

theorem succeeds_checkUri_iff (params : Members) :
    Succeeds (checkUri library value params) ↔ ∀ text,
      needStr value = .ok text → ∃ parsed, library.urlparse text = .ok parsed := by
  rw [checkUri, succeeds_withText_iff]
  refine forall_congr' fun text => forall_congr' fun htext => ?_
  cases hparse : library.urlparse text with
  | error failure => simp
  | ok parsed =>
      simp only [Except.ok.injEq, exists_eq', iff_true]
      split
      · exact succeeds_complain_iff.mpr (printable_of_needStr htext)
      · exact succeeds_ok _

theorem succeeds_checkJson_iff (params : Members) :
    Succeeds (checkJson library value params) ↔
      (∃ items, value = .list items) ∨
      ∃ text, library.str value = .ok text ∧ library.loads text ≠ .other := by
  by_cases hlist : ∃ items, value = .list items
  · obtain ⟨items, rfl⟩ := hlist
    exact iff_of_true (succeeds_ok _) (.inl ⟨items, rfl⟩)
  · simp only [hlist, false_or]
    unfold checkJson
    split
    · exact absurd ⟨_, rfl⟩ hlist
    · by_cases hprintable : library.Printable value
      · obtain ⟨text, htext⟩ := PythonLibrary.exists_str_iff.mpr hprintable
        simp only [htext, Except.ok.injEq, exists_eq_left']
        cases hloads : library.loads text with
        | ok => simp
        | invalid => simpa using succeeds_complain_iff.mpr hprintable
        | other => simp
      · rw [PythonLibrary.str_of_not_printable hprintable]
        refine iff_of_false (mt succeeds_complain_iff.mp hprintable) ?_
        rintro ⟨text, htext, -⟩
        cases htext

theorem succeeds_checkAmount_iff (params : Members) :
    Succeeds (checkAmount library value params) ↔ library.NumberSafe value := by
  refine succeeds_withFloat_iff fun number hnumber => ?_
  have hprintable := PythonLibrary.printable_of_floatOf hnumber
  split
  · exact succeeds_complain_iff.mpr hprintable
  · split
    · exact succeeds_complain_iff.mpr hprintable
    · exact succeeds_ok _

theorem succeeds_checkCoordinate_iff (name : String) (bound : Rat)
    (range : String) (params : Members) :
    Succeeds (checkCoordinate library name bound range value params) ↔
      library.NumberSafe value := by
  refine succeeds_withFloat_iff fun number _ => ?_
  split <;> exact succeeds_ok _

theorem succeeds_checkPhoneE164_iff (params : Members) :
    Succeeds (checkPhoneE164 library value params) ↔
      library.Printable value := by
  rw [checkPhoneE164, succeeds_bind_iff, ← PythonLibrary.exists_str_iff]
  refine exists_congr fun raw => and_iff_left_of_imp fun hraw => ?_
  simp only
  split
  · exact succeeds_pure _
  · exact succeeds_complain_iff.mpr (PythonLibrary.exists_str_iff.mp ⟨raw, hraw⟩)

theorem succeeds_countryOf_iff {params : Members} {default : String} :
    Succeeds (countryOf library params default) ↔ CountryText params := by
  unfold countryOf CountryText
  cases hlookup : lookup "country" params with
  | none => simp
  | some json =>
      cases htruthy : Schema.truthy json with
      | false => simp [htruthy]
      | true => cases json <;> simp [htruthy]

theorem succeeds_checkPostalCode_iff (params : Members) :
    Succeeds (checkPostalCode library value params) ↔
      ((∃ text, needStr value = .ok text) → CountryText params) := by
  rw [checkPostalCode, succeeds_withText_iff, forall_exists_index]
  refine forall_congr' fun text => forall_congr' fun htext => ?_
  refine (succeeds_bind_iff_left fun country => ?_).trans succeeds_countryOf_iff
  exact succeeds_verdict (printable_of_needStr htext)

theorem succeeds_checkVatId_iff (params : Members) :
    Succeeds (checkVatId library value params) ↔
      ((∃ text, needStr value = .ok text) → CountryText params) := by
  rw [checkVatId, succeeds_withText_iff, forall_exists_index]
  refine forall_congr' fun text => forall_congr' fun htext => ?_
  refine (succeeds_bind_iff_left fun country => ?_).trans succeeds_countryOf_iff
  exact succeeds_verdict (printable_of_needStr htext)

theorem succeeds_runValidator_iff (type : ValidatorType) (params : Members) :
    Succeeds (runValidator library type value params) ↔
      Safe library type value params := by
  cases type with
  | uri | url => exact succeeds_checkUri_iff params
  | ipv4 | ipv6 | uuid => exact succeeds_checkParsed_iff _ _ params
  | date | datetime | time | iso8601 => exact succeeds_checkIso_iff _ _ params
  | json => exact succeeds_checkJson_iff params
  | creditCard => exact succeeds_checkCreditCard_iff params
  | phoneE164 => exact succeeds_checkPhoneE164_iff params
  | amount => exact succeeds_checkAmount_iff params
  | latitude | longitude => exact succeeds_checkCoordinate_iff _ _ _ params
  | postalCode => exact succeeds_checkPostalCode_iff params
  | vatId => exact succeeds_checkVatId_iff params
  | domain => exact iff_of_true (succeeds_checkDomain params) trivial
  | currencyCode =>
      exact iff_of_true (succeeds_checkCurrencyCode params) trivial
  | iban => exact iff_of_true (succeeds_checkIban params) trivial
  | nif => exact iff_of_true (succeeds_checkNif params) trivial
  | nie => exact iff_of_true (succeeds_checkNie params) trivial
  | cif => exact iff_of_true (succeeds_checkCif params) trivial
  | email | slug | hexColor | bic | countryCode | languageCode | ssn
  | passportNumber =>
      exact iff_of_true (succeeds_checkShape _ _ _ params) trivial

end ValidatorRegistry

namespace Constraints

/-! ## One value -/

structure Checkable (library : PythonLibrary) (spec : Field)
    (value : FieldValue) : Prop where
  pattern : ∀ pattern, spec.pattern = some pattern →
    match library.compile pattern with
    | .ok _ => library.Printable value
    | .error (.reError _) => True
    | .error .other => False
  format : ∀ format, spec.format = some format → library.Printable value
  enum : ∀ enum, spec.enum = some enum →
    enum.any (equalsJson value) = true ∨
      library.Printable value ∧ ∃ text, library.reprJson (.arr enum) = .ok text
  minimum : ∀ minimum, spec.minimum = some minimum → library.NumberSafe value
  maximum : ∀ maximum, spec.maximum = some maximum → library.NumberSafe value
  validators : ∀ validator ∈ spec.validators, ValidatorRegistry.Safe library
    validator.name value validator.params

/-- Null and values of another type are not checked further. -/
def Safe (library : PythonLibrary) (spec : Field) (value : FieldValue) : Prop :=
  value = .null ∨ hasType spec.type value = false ∨
    Checkable library spec value

section

variable {library : PythonLibrary} {value : FieldValue}

theorem succeeds_validatePattern_iff {pattern : String} :
    Succeeds (validatePattern library pattern value) ↔
      match library.compile pattern with
      | .ok _ => library.Printable value
      | .error (.reError _) => True
      | .error .other => False := by
  unfold validatePattern
  split
  · rename_i hcompile
    simp [hcompile]
  · rename_i hcompile
    simp [hcompile]
  · rename_i fullmatch hcompile
    simp only [hcompile]
    rw [succeeds_bind_iff, ← PythonLibrary.exists_str_iff]
    refine exists_congr fun text => and_iff_left_of_imp fun htext => ?_
    split
    · exact succeeds_pure _
    · exact succeeds_bind (PythonLibrary.exists_repr_iff.mpr
        (PythonLibrary.exists_str_iff.mp ⟨text, htext⟩))
        fun shown _ => succeeds_pure _

theorem succeeds_validateFormat_iff {format : StandardFormat} :
    Succeeds (validateFormat library format value) ↔
      library.Printable value := by
  rw [validateFormat, succeeds_bind_iff, ← PythonLibrary.exists_str_iff]
  refine exists_congr fun raw => and_iff_left_of_imp fun hraw => ?_
  split
  · exact succeeds_pure _
  · exact succeeds_bind (PythonLibrary.exists_repr_iff.mpr
      (PythonLibrary.exists_str_iff.mp ⟨raw, hraw⟩)) fun shown _ =>
        succeeds_pure _

theorem succeeds_validateEnum_iff {enum : List JsonValue} :
    Succeeds (validateEnum library enum value) ↔
      enum.any (equalsJson value) = true ∨ library.Printable value ∧
        ∃ text, library.reprJson (.arr enum) = .ok text := by
  unfold validateEnum
  split
  · rename_i hmember
    simp [hmember]
  · rename_i hmember
    rw [succeeds_bind_iff, ← PythonLibrary.exists_repr_iff]
    simp only [hmember, Bool.false_eq_true, false_or, succeeds_bind_iff,
      succeeds_pure, and_true, exists_and_right]

theorem succeeds_validateBound_iff {rule : ValidationRule}
    {outside : PyFloat → Bool} {complaint : String} :
    Succeeds (validateBound library rule outside complaint value) ↔
      library.NumberSafe value := by
  unfold validateBound
  have hreport : Succeeds (do
      return failed rule ((← library.repr value) ++ " is not a number")) ↔
      library.Printable value := by
    rw [succeeds_bind_iff_left fun shown => succeeds_pure _]
    exact PythonLibrary.exists_repr_iff
  rcases library.floatOf_cases value with ⟨number, hnumber, hsafe⟩ |
    ⟨hfailure | ⟨text, hfailure⟩, hsafe⟩ | ⟨hoverflow, hunsafe⟩
  · simp only [hnumber, hsafe, iff_true]
    split
    · rw [succeeds_bind_iff_left fun shown => succeeds_pure _]
      exact PythonLibrary.exists_str_iff.mpr
        (PythonLibrary.printable_of_floatOf hnumber)
    · exact succeeds_ok _
  · simpa only [hfailure, hsafe] using hreport
  · simpa only [hfailure, hsafe] using hreport
  · simp [hoverflow, hunsafe]

theorem succeeds_validateSpec_iff {spec : ValidatorSpec} :
    Succeeds (validateSpec library spec value) ↔
      ValidatorRegistry.Safe library spec.name value spec.params := by
  rw [← ValidatorRegistry.succeeds_runValidator_iff, validateSpec]
  refine succeeds_bind_iff_left fun finding => ?_
  split <;> exact succeeds_pure _

theorem succeeds_ifDeclared_iff {Bound : Type} {bound : Option Bound}
    {check : Bound → Check} :
    Succeeds (ifDeclared bound check) ↔
      ∀ declared, bound = some declared → Succeeds (check declared) := by
  cases bound <;> simp [ifDeclared]

theorem checkable_iff {spec : Field} :
    (∀ check ∈ checks library spec value, Succeeds check) ↔
      Checkable library spec value := by
  simp only [checks, constraintChecks, List.forall_mem_append, List.forall_mem_cons,
    List.forall_mem_map, List.not_mem_nil, false_imp_iff, forall_true_iff,
    and_true, succeeds_ifDeclared_iff, succeeds_validatePattern_iff,
    succeeds_validateFormat_iff, succeeds_validateEnum_iff,
    succeeds_validateSpec_iff, validateMinimum, validateMaximum,
    succeeds_validateBound_iff]
  constructor
  · rintro ⟨⟨hpattern, hformat, henum, hminimum, hmaximum⟩, hvalidators⟩
    exact ⟨hpattern, hformat, henum, hminimum, hmaximum, hvalidators⟩
  · rintro ⟨hpattern, hformat, henum, hminimum, hmaximum, hvalidators⟩
    exact ⟨⟨hpattern, hformat, henum, hminimum, hmaximum⟩, hvalidators⟩

theorem succeeds_runConstraints_iff {spec : Field} :
    Succeeds (runConstraints library spec value) ↔
      Safe library spec value := by
  unfold runConstraints Safe
  split
  · simp
  · rename_i hnull
    have hnull : value ≠ .null := hnull
    unfold validateType
    cases htype : hasType spec.type value with
    | false => simp [failed]
    | true =>
        simp only [if_true, hnull, false_or, Bool.true_eq_false]
        rw [succeeds_bind_iff_left fun outcomes => succeeds_pure _,
          succeeds_mapM_iff, ← checkable_iff]
        rfl

end

end Constraints

namespace ValidationRun

/--
Every registered validator and every run of the field validator return exactly
where what they check has what the checks need.
-/
theorem returns_iff (library : PythonLibrary) :
    (∀ type value params,
      (∃ finding, ValidatorRegistry.runValidator library type value params =
        .ok finding) ↔ ValidatorRegistry.Safe library type value params) ∧
    ∀ specGroups extractedGroups,
      (∃ validated, validate library specGroups extractedGroups =
        .ok validated) ↔
      ∀ entry ∈ reached specGroups extractedGroups,
        Constraints.Safe library entry.1 entry.2 := by
  constructor
  · intro type value params
    exact ValidatorRegistry.succeeds_runValidator_iff type params
  · intro specGroups extractedGroups
    simp only [validate_eq_ok_iff, exists_and_left, exists_eq, and_true]
    exact forall₂_congr fun entry _ => Constraints.succeeds_runConstraints_iff

/-- A host in a bracket that is never closed. -/
theorem not_returns :
    ¬ ((∀ library type value params, ∃ finding,
        ValidatorRegistry.runValidator library type value params =
          .ok finding) ∧
      ∀ library specGroups extractedGroups, ∃ validated,
        validate library specGroups extractedGroups = .ok validated) := by
  rintro ⟨-, h⟩
  obtain ⟨validated, hvalidated⟩ := h .ascii
    [{
      name := "links"
      fields := [{ name := "site", validators := [{ name := .uri }] }] }]
    [{
      name := "links"
      fields := [{ name := "site", value := .str "http://[" }] }]
  cases hvalidated

end ValidationRun

end Flydocs
