import Flydocs.Foundation.DateGrammar
import Flydocs.Validation.Findings
import Flydocs.Validation.Marked
import Flydocs.Validation.Positions

/-!
# Severities

The severity of a failed check is written into its message and read back from
it.  Only the complaint about a date can quote the end of a text as it is, and
with it the mark of a warning.
-/

namespace Flydocs

open Foundation Dtos

/-! ## The last character of what is quoted -/

theorem endsOff_of_isDigit {char : Char} (hchar : char.isDigit = false)
    {text : List Char} (h : text.getLast?.any Char.isDigit = true) :
    endsOff char text = true := by
  unfold endsOff
  cases hlast : text.getLast? with
  | none => simp [hlast] at h
  | some last =>
      simp only [hlast, Option.any_some, decide_eq_true_eq] at h ⊢
      rintro rfl
      simp [hchar] at h

theorem natText_endsOff {char : Char} (hchar : char.isDigit = false)
    (number : Nat) : endsOff char (toString number).toList = true := by
  refine endsOff_of_isDigit hchar ?_
  rw [Nat.toString_eq_repr, Nat.repr_eq_ofList_toDigits, String.toList_ofList]
  have hne : Nat.toDigits 10 number ≠ [] :=
    List.ne_nil_of_length_pos Nat.length_toDigits_pos
  rw [List.getLast?_eq_getLast_of_ne_nil hne, Option.any_some]
  exact Nat.isDigit_of_mem_toDigits (by omega) (by omega)
    (List.getLast_mem hne)

theorem intText_endsOff {char : Char} (hchar : char.isDigit = false)
    (number : Int) : endsOff char (toString number).toList = true := by
  cases number with
  | ofNat number => exact natText_endsOff hchar number
  | negSucc number =>
      have hsign : toString (Int.negSucc number) =
          "-" ++ toString (number + 1) := rfl
      rw [hsign, String.toList_append]
      exact endsOff_append (natText_endsOff hchar (number + 1))

theorem intercalate_endsOff {char : Char} {separator : String}
    {texts : List String} (hne : texts ≠ [])
    (h : ∀ text ∈ texts, endsOff char text.toList = true) :
    endsOff char (separator.intercalate texts).toList = true := by
  induction texts with
  | nil => exact absurd rfl hne
  | cons text texts ih =>
      by_cases hrest : texts = []
      · subst hrest
        rw [String.intercalate_singleton]
        exact h text (by simp)
      · rw [String.intercalate_cons_of_ne_nil hrest, String.toList_append]
        exact endsOff_append
          (ih hrest fun other hother => h other (by simp [hother]))

namespace PythonLibrary

variable {library : PythonLibrary}

theorem reprText_endsOff {char : Char} (hsingle : char ≠ '\'')
    (hdouble : char ≠ '"') (text : String) :
    endsOff char (library.reprText text).toList = true := by
  unfold reprText PythonText.repr endsOff
  simp only [String.toList_ofList, List.getLast?_append, List.getLast?_singleton,
    Option.some_or, Option.any_some]
  split <;> simp [hsingle.symm, hdouble.symm]

/-- No value of a document is shown with a `g` at its end. -/
theorem reprJson_endsOff (hlibrary : library.Documented) {json : JsonValue}
    {text : String} (h : library.reprJson json = .ok text) :
    endsOff 'g' text.toList = true := by
  cases json with
  | null =>
      cases h
      rfl
  | bool flag =>
      cases h
      cases flag <;> rfl
  | int number =>
      simp only [reprJson, intRepr] at h
      split at h
      · cases h
        exact intText_endsOff rfl number
      · cases h
  | float number =>
      cases h
      exact endsOff_of_isDigit rfl (hlibrary.floatText number)
  | str text =>
      cases h
      exact reprText_endsOff (by decide) (by decide) text
  | arr items =>
      obtain ⟨shown, -, h⟩ := bind_eq_ok_iff.mp h
      cases h
      rw [String.toList_append]
      exact endsOff_append rfl
  | obj members =>
      obtain ⟨shown, -, h⟩ := bind_eq_ok_iff.mp h
      cases h
      rw [String.toList_append]
      exact endsOff_append rfl

theorem of_reprItems {items : List JsonValue} {texts : List String}
    (h : library.reprItems items = .ok texts) :
    ∀ text ∈ texts, ∃ item, library.reprJson item = .ok text := by
  induction items generalizing texts with
  | nil =>
      cases h
      simp
  | cons item items ih =>
      obtain ⟨first, hfirst, h⟩ := bind_eq_ok_iff.mp h
      obtain ⟨rest, hrest, h⟩ := bind_eq_ok_iff.mp h
      cases h
      rintro text (_ | ⟨_, htext⟩)
      · exact ⟨item, hfirst⟩
      · exact ih hrest text htext

theorem not_marked_reprList (hlibrary : library.Documented)
    {items : List JsonValue} {text before : String}
    (h : library.reprJson (.arr items) = .ok text) :
    ¬ Marked (before ++ text) := by
  obtain ⟨texts, htexts, h⟩ := bind_eq_ok_iff.mp h
  cases h
  have hbracket : (before ++ ("[" ++ ", ".intercalate texts ++ "]")).toList =
      (before ++ "[").toList ++ (", ".intercalate texts).toList ++ [']'] := by
    simp
  rw [Marked, hbracket]
  refine not_marked_bracket ?_
  by_cases hempty : texts = []
  · subst hempty
    rw [String.intercalate_nil, String.toList_append]
    simp [endsOff]
  · refine endsOff_append (intercalate_endsOff hempty fun text htext => ?_)
    obtain ⟨item, hitem⟩ := of_reprItems htexts text htext
    exact reprJson_endsOff hlibrary hitem

end PythonLibrary

namespace Constraints

/-! ## Marked errors -/

/-- What follows a date is quoted in the complaint about it, and is marked. -/
def Slips (library : PythonLibrary) (spec : Field) (value : FieldValue) : Prop :=
  value ≠ .null ∧ hasType spec.type value = true ∧ spec.format = some .date ∧
    ∃ raw date rest, library.str value = .ok raw ∧
      PythonDate.matchDate library.digit raw.toList = some (date, rest) ∧
      "[warning]".toList <:+ rest

section

variable {library : PythonLibrary} {spec : Field} {value : FieldValue}
  {error : FieldValidationError}

theorem not_marked_type (h : validateType spec.type value = some error) :
    ¬ Marked error.message := by
  unfold validateType at h
  split at h
  · cases h
  · cases h
    refine not_marked_append ?_
    cases value <;> simp [className, endsOff]

theorem not_marked_pattern (hlibrary : library.Documented) {pattern : String}
    (h : validatePattern library pattern value = .ok (some error)) :
    ¬ Marked error.message := by
  obtain ⟨-, ⟨text, complaint, hcompile, hmessage⟩ | ⟨complaint, hmessage⟩⟩ :=
    of_validatePattern h
  · rw [hmessage, marked_colon_iff]
    exact hlibrary.compile pattern text hcompile
  · rw [hmessage]
    exact not_marked_append
      (PythonLibrary.reprText_endsOff (by decide) (by decide) pattern)

theorem not_marked_enum (hlibrary : library.Documented) {enum : List JsonValue}
    (h : validateEnum library enum value = .ok (some error)) :
    ¬ Marked error.message := by
  obtain ⟨-, text, complaint, htext, hmessage⟩ := of_validateEnum h
  rw [hmessage]
  exact PythonLibrary.not_marked_reprList hlibrary htext

theorem not_marked_bound {rule : ValidationRule} {outside : PyFloat → Bool}
    {complaint : String} (hcomplaint : endsOff ']' complaint.toList = true)
    (h : validateBound library rule outside complaint value =
      .ok (some error)) : ¬ Marked error.message := by
  obtain ⟨-, ⟨shown, hmessage⟩ | ⟨shown, hmessage⟩⟩ := of_validateBound h
  · rw [hmessage]
    exact not_marked_append hcomplaint
  · rw [hmessage]
    exact not_marked_append_ofList rfl

theorem marked_strptime_iff {raw text : String}
    (h : PythonDate.strptime library.digit library.isPrintable raw =
      .error text) :
    Marked text ↔ ∃ date rest,
      PythonDate.matchDate library.digit raw.toList = some (date, rest) ∧
        "[warning]".toList <:+ rest := by
  unfold PythonDate.strptime at h
  cases hmatch : PythonDate.matchDate library.digit raw.toList with
  | none =>
      rw [hmatch] at h
      cases h
      simp only [reduceCtorEq, false_and, exists_const, iff_false]
      exact not_marked_append_ofList rfl
  | some entry =>
      obtain ⟨⟨year, month, day⟩, rest⟩ := entry
      rw [hmatch] at h
      have hread : (∃ date rest', some ((year, month, day), rest) =
          some (date, rest') ∧ "[warning]".toList <:+ rest') ↔
          "[warning]".toList <:+ rest := by
        simp
      rw [hread]
      simp only at h
      split_ifs at h with hrest hday hyear
      · cases h
        have hsplit : "unconverted data remains: " =
            "unconverted data remains" ++ ": " := rfl
        rw [hsplit, marked_colon_iff, Marked, @String.toList_ofList rest]
      all_goals
        cases h
        have hempty := not_not.mp hrest
        subst hempty
        refine iff_of_false ?_ (by simp)
        exact not_marked_ofList rfl

theorem marked_format_iff (hlibrary : library.Documented)
    {format : StandardFormat}
    (h : validateFormat library format value = .ok (some error)) :
    Marked error.message ↔ format = .date ∧ ∃ raw date rest,
      library.str value = .ok raw ∧
      PythonDate.matchDate library.digit raw.toList = some (date, rest) ∧
      "[warning]".toList <:+ rest := by
  obtain ⟨-, raw, text, complaint, hraw, hfailure, hmessage⟩ :=
    of_validateFormat h
  rw [hmessage, marked_colon_iff]
  simp only [hraw, Except.ok.injEq, exists_eq_left', exists_and_left]
  unfold formatFailure at hfailure
  cases format with
  | date =>
      simp only at hfailure
      split at hfailure
      · cases hfailure
      · rename_i failure
        cases hfailure
        simpa using marked_strptime_iff failure
  | dateTime =>
      simp only at hfailure
      split at hfailure
      · cases hfailure
      · rename_i failure
        cases hfailure
        simpa using hlibrary.datetimeFromIso raw text failure
  | time | currency => cases hfailure
  | email =>
      simp only at hfailure
      split at hfailure <;> cases hfailure
      simpa using not_marked_ofList rfl
  | uri =>
      simp only at hfailure
      split at hfailure
      · split at hfailure <;> cases hfailure
        simpa using not_marked_ofList rfl
      · rename_i failure
        cases hfailure
        simpa using hlibrary.urlparse raw text failure
  | uuid =>
      simp only at hfailure
      split at hfailure
      · cases hfailure
      · rename_i failure
        cases hfailure
        simpa using hlibrary.uuid raw text failure

theorem slips_of_fails (hlibrary : library.Documented)
    (h : Fails library spec value .error error) (hmarked : Marked error.message) :
    Slips library spec value := by
  generalize hseverity : ValidatorSeverity.error = severity at h
  obtain ⟨-, hfails⟩ | ⟨hnull, htype, hmem⟩ | ⟨-, -, -, hfails⟩ := h
  · exact absurd hmarked (not_marked_type hfails)
  · rcases mem_constraintChecks_iff.mp hmem with ⟨_, -, hfails⟩ |
      ⟨format, hformat, hfails⟩ | ⟨_, -, hfails⟩ | ⟨minimum, -, hfails⟩ |
      ⟨maximum, -, hfails⟩
    · exact absurd hmarked (not_marked_pattern hlibrary hfails)
    · obtain ⟨rfl, hread⟩ := (marked_format_iff hlibrary hfails).mp hmarked
      exact ⟨hnull, htype, hformat, hread⟩
    · exact absurd hmarked (not_marked_enum hlibrary hfails)
    · refine absurd hmarked (not_marked_bound ?_ hfails)
      rw [String.toList_append]
      exact endsOff_append (endsOff_of_isDigit rfl (hlibrary.floatText minimum))
    · refine absurd hmarked (not_marked_bound ?_ hfails)
      rw [String.toList_append]
      exact endsOff_append (endsOff_of_isDigit rfl (hlibrary.floatText maximum))
  · obtain ⟨-, message, hmessage, herror⟩ := of_validateSpec hfails
    rw [herror, ← hseverity, suffix, String.append_empty, marked_colon_iff]
      at hmarked
    exact absurd hmarked (ValidatorRegistry.unmarked_runValidator hlibrary _ _
      message hmessage)

theorem exists_fails_of_slips (hlibrary : library.Documented)
    {errors : List FieldValidationError}
    (h : runConstraints library spec value = .ok errors)
    (hslips : Slips library spec value) :
    ∃ error, Fails library spec value .error error ∧ Marked error.message := by
  obtain ⟨hnull, htype, hformat, raw, date, rest, hraw, hread, hmark⟩ := hslips
  have hmem : validateFormat library .date value ∈ checks library spec value := by
    simp [checks, constraintChecks, hformat, ifDeclared]
  obtain ⟨outcome, houtcome⟩ := exists_outcome h hnull htype hmem
  cases outcome with
  | none =>
      have hfailure := formatFailure_of_validateFormat houtcome hraw
      have hrest : rest ≠ [] := List.ne_nil_of_length_pos
        (lt_of_lt_of_le (by decide) hmark.length_le)
      simp [formatFailure, PythonDate.strptime, hread, hrest] at hfailure
  | some error =>
      exact ⟨error, .constraint hnull htype
        (mem_constraintChecks_iff.mpr (.inr (.inl ⟨_, hformat, houtcome⟩))),
        (marked_format_iff hlibrary houtcome).mpr
          ⟨rfl, raw, date, rest, hraw, hread, hmark⟩⟩

theorem marked_of_warning
    (h : Fails library spec value .warning error) : Marked error.message := by
  generalize hseverity : ValidatorSeverity.warning = severity at h
  obtain ⟨-, -⟩ | ⟨-, -, -⟩ | ⟨-, -, -, hfails⟩ := h
  · cases hseverity
  · cases hseverity
  · obtain ⟨-, message, -, herror⟩ := of_validateSpec hfails
    rw [herror, ← hseverity]
    exact marked_append

end

/-- Each failed check is taken for a warning or not as its severity says. -/
def ReadAsMeant (library : PythonLibrary) (spec : Field) (value : FieldValue) :
    Prop :=
  ∀ severity error, Fails library spec value severity error →
    (error.message.endsWith "[warning]" = true ↔ severity = .warning)

section

variable {library : PythonLibrary} {spec : Field} {value : FieldValue}
  {errors : List FieldValidationError}

theorem readAsMeant_iff (hlibrary : library.Documented)
    (h : runConstraints library spec value = .ok errors) :
    ReadAsMeant library spec value ↔ ¬ Slips library spec value := by
  constructor
  · intro hmeant hslips
    obtain ⟨error, hfails, hmarked⟩ := exists_fails_of_slips hlibrary h hslips
    cases (hmeant _ error hfails).mp (endsWith_iff_marked.mpr hmarked)
  · intro hslips severity error hfails
    rw [endsWith_iff_marked]
    cases severity with
    | error =>
        simp only [reduceCtorEq, iff_false]
        exact fun hmarked => hslips (slips_of_fails hlibrary hfails hmarked)
    | warning => exact iff_of_true (marked_of_warning hfails) rfl

theorem hardErrors_ne_nil_iff (hmeant : ReadAsMeant library spec value)
    (h : runConstraints library spec value = .ok errors) :
    FieldValidator.hardErrors errors ≠ [] ↔
      ∃ error, Fails library spec value .error error := by
  rw [FieldValidator.hardErrors, ← List.isEmpty_eq_false_iff]
  simp only [List.isEmpty_eq_false_iff_exists_mem, List.mem_filter,
    Bool.not_eq_true', mem_errors_iff h]
  constructor
  · rintro ⟨error, ⟨severity, hfails⟩, hhard⟩
    cases severity with
    | error => exact ⟨error, hfails⟩
    | warning =>
        rw [(hmeant _ error hfails).mpr rfl] at hhard
        cases hhard
  · rintro ⟨error, hfails⟩
    refine ⟨error, ⟨_, hfails⟩, Bool.eq_false_iff.mpr fun hmarked => ?_⟩
    cases (hmeant _ error hfails).mp hmarked

end

end Constraints

namespace ValidationRun

open Constraints Positions

structure DecidedBySeverity (library : PythonLibrary)
    (reached : List (Field × FieldValue)) (valid : Bool) : Prop where
  valid_iff : valid = false ↔ ∃ entry ∈ reached, ∃ error,
    Fails library entry.1 entry.2 .error error
  meant : ∀ entry ∈ reached, ReadAsMeant library entry.1 entry.2

section

variable {library : PythonLibrary} {spec : Field} {field : ExtractedField}

theorem decidedBySeverity_iff (hlibrary : library.Documented)
    {reached : List (Field × FieldValue)} (hreturns : Returns library reached)
    {valid : Bool}
    (hvalid : valid = false ↔ ∃ entry ∈ reached, FieldValidator.hardErrors
      ((fieldValidator library).runConstraints entry.1 entry.2) ≠ []) :
    DecidedBySeverity library reached valid ↔
      ∀ entry ∈ reached, ¬ Slips library entry.1 entry.2 := by
  have hmeant (entry : Field × FieldValue) (hentry : entry ∈ reached) :
      ReadAsMeant library entry.1 entry.2 ↔
        ¬ Slips library entry.1 entry.2 := by
    obtain ⟨errors, herrors⟩ := hreturns entry hentry
    exact readAsMeant_iff hlibrary herrors
  constructor
  · intro hdecided entry hentry
    exact (hmeant entry hentry).mp (hdecided.meant entry hentry)
  · intro hslips
    have hread (entry : Field × FieldValue) (hentry : entry ∈ reached) :
        ReadAsMeant library entry.1 entry.2 :=
      (hmeant entry hentry).mpr (hslips entry hentry)
    refine ⟨hvalid.trans (exists_congr fun entry => and_congr_right
      fun hentry => ?_), hread⟩
    obtain ⟨errors, herrors⟩ := hreturns entry hentry
    rw [← hardErrors_ne_nil_iff (hread entry hentry) herrors]
    simp only [fieldValidator, herrors]

theorem cellValid_eq_false_iff (self : FieldValidator) (cell : ExtractedField) :
    self.cellValid spec cell = false ↔ ∃ entry ∈ reachedInCell spec cell,
      FieldValidator.hardErrors (self.runConstraints entry.1 entry.2) ≠ [] := by
  unfold FieldValidator.cellValid reachedInCell FieldValidator.verdict
  cases FieldValidator.subSpecFor spec cell.name <;> simp

theorem valid_validateField_iff (self : FieldValidator) :
    (self.validateField spec field).validation.valid = false ↔
      ∃ entry ∈ reachedInField spec field,
        FieldValidator.hardErrors (self.runConstraints entry.1 entry.2) ≠ [] := by
  unfold FieldValidator.validateField reachedInField
  split
  · simp only [valid_validateArray, rowValid_eq_all, List.all_eq_false,
      Bool.not_eq_true, cellValid_eq_false_iff, List.mem_flatMap]
    constructor
    · rintro ⟨row, hrow, cell, hcell, entry, hentry, hhard⟩
      exact ⟨entry, ⟨row, hrow, cell, hcell, hentry⟩, hhard⟩
    · rintro ⟨entry, ⟨row, hrow, cell, hcell, hentry⟩, hhard⟩
      exact ⟨row, hrow, cell, hcell, entry, hentry, hhard⟩
  · simp [FieldValidator.verdict]

end

/--
The verdict on a value, and on all that is checked for a field, is decided by the
severities exactly when nothing that follows a date carries the mark.
-/
theorem decided_iff (library : PythonLibrary) (hlibrary : library.Documented) :
    (∀ spec field validation, verdict library spec field = .ok validation →
      (DecidedBySeverity library [(spec, field.value)] validation.valid ↔
        ¬ Slips library spec field.value)) ∧
    ∀ spec field validated, validateField library spec field = .ok validated →
      (DecidedBySeverity library (reachedInField spec field)
          validated.validation.valid ↔
        ∀ entry ∈ reachedInField spec field,
          ¬ Slips library entry.1 entry.2) := by
  constructor
  · intro spec field validation h
    obtain ⟨hreturns, rfl⟩ := verdict_eq_ok_iff.mp h
    rw [decidedBySeverity_iff hlibrary hreturns (by
      simp [FieldValidator.verdict])]
    simp
  · intro spec field validated h
    obtain ⟨hreturns, rfl⟩ := validateField_eq_ok_iff.mp h
    exact decidedBySeverity_iff hlibrary hreturns (valid_validateField_iff _)

theorem ascii_documented : PythonLibrary.ascii.Documented where
  floatText _ := by simp [PythonLibrary.ascii]
  upper char hascii letter hletter := by
    rw [List.mem_singleton.mp hletter]
    simp only [PythonLibrary.isAscii, decide_eq_false_iff_not, not_lt] at hascii
    rw [Bool.eq_false_iff]
    intro hlower
    have hcode := (PythonLibrary.isLower_iff.mp hlower).2
    omega
  compile pattern text h := by
    simp only [PythonLibrary.ascii] at h
    split at h <;> cases h
    exact not_marked_ofList rfl
  datetimeFromIso raw text h := by
    cases h
    exact not_marked_ofList rfl
  urlparse raw text h := by
    simp only [PythonLibrary.ascii] at h
    split at h <;> cases h
    exact not_marked_ofList rfl
  uuid raw text h := by
    cases h
    exact not_marked_ofList rfl

def issuedSpec : Field := { name := "issued", format := some .date }

theorem decided_iff_issued :
    DecidedBySeverity .ascii [(issuedSpec, .str "2024-01-05")] true := by
  refine ((decided_iff .ascii ascii_documented).1 issuedSpec
    { name := "issued", value := .str "2024-01-05" } {} rfl).mpr ?_
  rintro ⟨-, -, -, raw, date, rest, hraw, hread, hmark⟩
  cases hraw
  cases hread
  simp at hmark

def markedDay : ExtractedField :=
  { name := "issued", value := .str "2024-01-05[warning]" }

theorem not_decided :
    ¬ ∀ (library : PythonLibrary), library.Documented →
      ∀ spec field validation, verdict library spec field = .ok validation →
        DecidedBySeverity library [(spec, field.value)] validation.valid := by
  intro h
  have hslips : Slips .ascii issuedSpec markedDay.value :=
    ⟨by simp [markedDay], rfl, rfl, "2024-01-05[warning]", (2024, 1, 5),
      "[warning]".toList, rfl, rfl, List.suffix_rfl⟩
  obtain ⟨errors, herrors⟩ : ∃ errors,
      runConstraints .ascii issuedSpec markedDay.value = .ok errors := ⟨_, rfl⟩
  obtain ⟨validation, hvalidation⟩ : ∃ validation,
      verdict .ascii issuedSpec markedDay = .ok validation := ⟨_, rfl⟩
  have hdecided := h .ascii ascii_documented issuedSpec markedDay validation
    hvalidation
  exact (readAsMeant_iff ascii_documented herrors).mp
    (hdecided.meant _ (List.mem_singleton_self _)) hslips

end ValidationRun

end Flydocs
