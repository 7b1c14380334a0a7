import Mathlib.Data.Set.Basic
import Flydocs.Foundation.DateGrammar
import Flydocs.Validation.Findings

/-!
# Declared formats

A date may be spelled more loosely than it is documented, and times and
currencies are not checked at all.  A text of another type than the declared one
gets the error of the type, and none of the format.
-/

namespace Flydocs

open Foundation Dtos

namespace Constraints

def IsTwoDigits (digits : List Char) (bound : Nat) : Prop :=
  digits.length = 2 ∧ (∀ char ∈ digits, char.isDigit = true) ∧
    PythonDate.number digits < bound

def IsTime (text : String) : Prop :=
  ∃ hour minute : List Char, IsTwoDigits hour 24 ∧ IsTwoDigits minute 60 ∧
    (text.toList = hour ++ ':' :: minute ∨
      ∃ second : List Char, IsTwoDigits second 60 ∧
        text.toList = hour ++ ':' :: (minute ++ ':' :: second))

variable (library : PythonLibrary)

/-- The language of a format.  The currency codes are those of the standard; a
format without a grammar of its own has the language of its parser. -/
def InLanguage (currencies : Set String) (format : StandardFormat)
    (text : String) : Prop :=
  match format with
  | .date => PythonDate.IsoDate text
  | .time => IsTime text
  | .currency => text ∈ currencies
  | .dateTime => library.datetimeFromIso text = .ok ()
  | .email => ValidatorRegistry.fullmatch emailShape text = true
  | .uri => ∃ parsed, library.urlparse text = .ok parsed ∧
      parsed.scheme ≠ "" ∧ parsed.netloc ≠ ""
  | .uuid => library.uuid text = .ok ()

def ParsesExactly (currencies : Set String) (format : StandardFormat)
    (text : String) : Prop :=
  match format with
  | .date => ¬ PythonDate.LooseDate library.digit text
  | .time => IsTime text
  | .currency => text ∈ currencies
  | .dateTime | .email | .uri | .uuid => True

def Exact (currencies : Set String) (type : FieldType) (format : StandardFormat)
    (text : String) : Prop :=
  match type with
  | .string | .array | .object =>
      ParsesExactly library currencies format text
  | .number | .integer | .boolean =>
      InLanguage library currencies format text

section

variable {library : PythonLibrary} {currencies : Set String}

theorem digitTable : PythonDate.DigitTable library.digit where
  ascii char h := by
    have hbounds := PythonDate.toNat_of_isDigit h
    have hascii : PythonLibrary.isAscii char = true := by
      simpa [PythonLibrary.isAscii] using by omega
    simp only [PythonLibrary.digit, hascii, h, if_true, Option.map_some,
      PythonDate.asciiValue, Option.some.injEq, Fin.ofNat]
    omega
  hyphen := rfl
  blank := rfl

theorem formatFailure_eq_none_iff {format : StandardFormat} {text : String} :
    formatFailure library format text = none ↔
      match format with
      | .date => PythonDate.IsoDate text ∨
          PythonDate.LooseDate library.digit text
      | .time | .currency => True
      | .dateTime | .email | .uri | .uuid =>
          InLanguage library currencies format text := by
  unfold formatFailure
  cases format with
  | date =>
      rw [← @PythonDate.strptime_accepts_iff _ digitTable library.isPrintable]
      cases PythonDate.strptime library.digit library.isPrintable text <;> simp
  | dateTime =>
      simp only [InLanguage]
      cases library.datetimeFromIso text <;> simp
  | time | currency => simp
  | email => simp [InLanguage]
  | uri =>
      simp only [InLanguage]
      cases library.urlparse text with
      | error failure => simp
      | ok parsed => simp
  | uuid =>
      simp only [InLanguage]
      cases library.uuid text <;> simp

theorem validateFormat_str {format : StandardFormat} {text : String} :
    (∃ error, validateFormat library format (.str text) = .ok (some error)) ↔
      formatFailure library format text ≠ none := by
  unfold validateFormat PythonLibrary.str PythonLibrary.repr
  simp only [bind, Except.bind]
  cases formatFailure library format text <;>
    simp [failed, pure, Except.pure]

theorem format_error_iff {spec : Field} {format : StandardFormat} {text : String}
    {errors : List FieldValidationError} (hformat : spec.format = some format)
    (h : runConstraints library spec (.str text) = .ok errors) :
    (∀ error ∈ errors, error.rule ≠ .format) ↔
      (hasType spec.type (.str text) = true →
        formatFailure library format text = none) := by
  constructor
  · intro hnone htype
    by_contra hfailure
    obtain ⟨error, herror⟩ := validateFormat_str.mpr hfailure
    refine hnone error ((mem_errors_iff h).mpr ⟨.error, ?_⟩)
      (of_validateFormat herror).1
    exact .constraint (by simp) htype
      (mem_constraintChecks_iff.mpr (.inr (.inl ⟨format, hformat, herror⟩)))
  · intro hnone error herror hrule
    obtain ⟨severity, hfails⟩ := (mem_errors_iff h).mp herror
    obtain ⟨-, htype, format', hformat', hfails⟩ := format_of_fails hfails hrule
    obtain rfl : format = format' := Option.some.inj (hformat.symm.trans hformat')
    exact validateFormat_str.mp ⟨error, hfails⟩ (hnone htype)

theorem parsesExactly_iff {format : StandardFormat} {text : String} :
    (formatFailure library format text = none ↔
      InLanguage library currencies format text) ↔
      ParsesExactly library currencies format text := by
  rw [@formatFailure_eq_none_iff library currencies]
  cases format with
  | date =>
      have hdisjoint := @PythonDate.not_looseDate_of_isoDate library.digit text
      simp only [InLanguage, ParsesExactly]
      tauto
  | time | currency => simp [InLanguage, ParsesExactly]
  | dateTime | email | uri | uuid => simp [ParsesExactly]

theorem exact_iff {type : FieldType} {format : StandardFormat} {text : String} :
    ((hasType type (.str text) = true →
        formatFailure library format text = none) ↔
      InLanguage library currencies format text) ↔
      Exact library currencies type format text := by
  cases type with
  | string | array | object =>
      simpa [hasType, Exact] using parsesExactly_iff
  | number | integer | boolean => simp [hasType, Exact]

end

/--
The verdict on a text has no error of the format exactly where the text is in
its language, unless a date is spelled loosely, the format is not checked, or
the type is not that of a text.
-/
theorem formats_exact_iff (library : PythonLibrary) (currencies : Set String)
    (spec : Field) (format : StandardFormat) (field : ExtractedField)
    (text : String) (validation : FieldValidation)
    (hformat : spec.format = some format) (htext : field.value = .str text)
    (h : ValidationRun.verdict library spec field = .ok validation) :
    ((∀ error ∈ validation.errors, error.rule ≠ .format) ↔
        InLanguage library currencies format text) ↔
      Exact library currencies spec.type format text := by
  obtain ⟨errors, herrors, h⟩ := bind_eq_ok_iff.mp h
  cases h
  rw [htext] at herrors
  simp only [format_error_iff hformat herrors]
  exact exact_iff

theorem formats_exact_iff_email :
    InLanguage .ascii ∅ .email "a@b.c" :=
  ((formats_exact_iff .ascii ∅ { name := "contact", format := some .email }
    .email { name := "contact", value := .str "a@b.c" } "a@b.c" {} rfl rfl
    rfl).mpr trivial).mp (by simp)

/-- A month and a day of one digit. -/
theorem not_formats_exact :
    ¬ ∀ (library : PythonLibrary) (currencies : Set String) (spec : Field)
      (format : StandardFormat) (field : ExtractedField) (text : String)
      (validation : FieldValidation), spec.format = some format →
      field.value = .str text →
      ValidationRun.verdict library spec field = .ok validation →
      ((∀ error ∈ validation.errors, error.rule ≠ .format) ↔
        InLanguage library currencies format text) := by
  intro h
  have hexact := h .ascii ∅ { name := "issued", format := some .date } .date
    { name := "issued", value := .str "2024-1-5" } "2024-1-5" {} rfl rfl rfl
  obtain ⟨year, month, day, htext, hyear, hmonth, hday, -⟩ :=
    hexact.mp (by simp)
  have hlength := congrArg List.length htext
  rw [List.length_append, List.length_cons, List.length_append,
    List.length_cons, hyear, hmonth, hday] at hlength
  cases hlength

end Constraints

end Flydocs
