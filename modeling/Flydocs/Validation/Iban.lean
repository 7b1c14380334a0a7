import Mathlib.Tactic.NormNum.Prime
import Flydocs.Foundation.MixedRadix
import Flydocs.Validation.Totality

/-!
# The checksum of an IBAN

The country and the check digits move to the end, and a letter stands for two
digits, so the checksum is the remainder of a number in mixed bases.  No single
error keeps that remainder.
-/

namespace Flydocs

open Foundation Dtos JsonValue

namespace ValidatorRegistry

variable (library : PythonLibrary)

def candidate (text : String) : String :=
  library.upperText
    (String.ofList (text.toList.filter fun char => !PythonText.isSpace char))

def place (char : Char) : MixedRadix.Place :=
  if upperClass char then ⟨100, char.toNat - 55⟩ else ⟨10, char.toNat - 48⟩

def rearranged (letters : List Char) : List Char :=
  letters.drop 4 ++ letters.take 4

def ibanNumber (letters : List Char) : Nat :=
  MixedRadix.number ((rearranged letters).map place)

/-- One digit or one letter for another, or two neighbouring digits that trade
places. -/
inductive SingleError : List Char → List Char → Prop
  | digit {first second : Char} (before after : List Char)
      (hfirst : digitClass first = true) (hsecond : digitClass second = true)
      (hne : first ≠ second) :
      SingleError (before ++ first :: after) (before ++ second :: after)
  | letter {first second : Char} (before after : List Char)
      (hfirst : upperClass first = true) (hsecond : upperClass second = true)
      (hne : first ≠ second) :
      SingleError (before ++ first :: after) (before ++ second :: after)
  | swap {first second : Char} (before after : List Char)
      (hfirst : digitClass first = true) (hsecond : digitClass second = true)
      (hne : first ≠ second) :
      SingleError (before ++ first :: second :: after)
        (before ++ second :: first :: after)

variable {library : PythonLibrary}

/-! ## ASCII -/

theorem isAscii_of_upperClass {char : Char} (h : upperClass char = true) :
    PythonLibrary.isAscii char = true :=
  (@isAlphabetic_of_upperClass .ascii char h).2.1

theorem digitClass_of_isDecimal {char : Char}
    (hascii : PythonLibrary.isAscii char = true)
    (h : library.isDecimal char = true) : digitClass char = true := by
  rw [PythonLibrary.isDecimal, PythonLibrary.digit, if_pos hascii] at h
  by_contra hdigit
  rw [digitClass] at hdigit
  simp [hdigit] at h

theorem isAscii_toUpper {char : Char}
    (h : PythonLibrary.isAscii char = true) :
    PythonLibrary.isAscii char.toUpper = true :=
  of_isAscii (fun char => PythonLibrary.isAscii char.toUpper = true)
    (by decide) h

theorem isAscii_candidate {text : String}
    (h : ∀ char ∈ text.toList, PythonLibrary.isAscii char = true) :
    ∀ char ∈ (candidate library text).toList,
      PythonLibrary.isAscii char = true := by
  intro char hchar
  simp only [candidate, PythonLibrary.upperText, String.toList_ofList,
    List.mem_flatMap, List.mem_filter] at hchar
  obtain ⟨given, ⟨hgiven, -⟩, hchar⟩ := hchar
  rw [PythonLibrary.upperChar, if_pos (h given hgiven),
    List.mem_singleton] at hchar
  rw [hchar]
  exact isAscii_toUpper (h given hgiven)

/-! ## Digits -/

theorem upperClass_bounds {char : Char} (h : upperClass char = true) :
    10 ≤ char.toNat - 55 ∧ char.toNat - 55 < 36 ∧ 65 ≤ char.toNat := by
  obtain ⟨hlow, hhigh⟩ := upperClass_iff.mp h
  omega

theorem digitClass_bounds {char : Char} (h : digitClass char = true) :
    48 ≤ char.toNat ∧ char.toNat ≤ 57 := by
  simp only [digitClass, Char.isDigit, Bool.and_eq_true,
    decide_eq_true_eq] at h
  exact ⟨h.1, h.2⟩

theorem not_upperClass_of_digitClass {char : Char}
    (h : digitClass char = true) : upperClass char = false := by
  by_contra hupper
  have hlow := upperClass_bounds (Bool.of_not_eq_false hupper)
  have hhigh := digitClass_bounds h
  omega

theorem place_of_upperClass {char : Char} (h : upperClass char = true) :
    place char = ⟨100, char.toNat - 55⟩ := if_pos h

theorem place_of_digitClass {char : Char} (h : digitClass char = true) :
    place char = ⟨10, char.toNat - 48⟩ := by
  rw [place, not_upperClass_of_digitClass h]
  rfl

theorem digit_of_digitClass {char : Char} (h : digitClass char = true) :
    ((library.digit char).getD 0).val = char.toNat - 48 := by
  have hbounds := digitClass_bounds h
  rw [PythonLibrary.digit, if_pos (isAscii_of_isDigit h),
    if_pos (show char.isDigit = true from h),
    Option.getD_some, Fin.val_ofNat, Nat.mod_eq_of_lt (by omega)]

theorem digit_ofNat {value : Nat} (h : value < 10) :
    digitClass (Char.ofNat (48 + value)) = true ∧
      (Char.ofNat (48 + value)).toNat - 48 = value := by
  revert value
  decide

theorem toString_of_two_digits {number : Nat} (hlow : 10 ≤ number)
    (hhigh : number < 36) :
    (toString number).toList =
      [Char.ofNat (48 + number / 10), Char.ofNat (48 + number % 10)] := by
  have hall : ∀ number < 36, 10 ≤ number → (toString number).toList =
      [Char.ofNat (48 + number / 10), Char.ofNat (48 + number % 10)] := by
    decide
  exact hall number hhigh hlow

/-! ## The number -/

def appendDigit (library : PythonLibrary) (number : Nat) (char : Char) : Nat :=
  10 * number + ((library.digit char).getD 0).val

theorem appendDigit_ofNat {value : Nat} (h : value < 10) (number : Nat) :
    appendDigit library number (Char.ofNat (48 + value)) =
      10 * number + value := by
  obtain ⟨hdigit, hvalue⟩ := digit_ofNat h
  rw [appendDigit, digit_of_digitClass hdigit, hvalue]

theorem foldl_ibanDigits {char : Char} {digits : List Char}
    (hchar : upperClass char = true ∨ digitClass char = true)
    (hdigits : ibanDigits library char = .ok digits) (number : Nat) :
    digits.foldl (appendDigit library) number =
      number * (place char).base + (place char).value := by
  rcases hchar with hupper | hdigit
  · obtain ⟨hletter, hascii, halpha⟩ := @isAlphabetic_of_upperClass library _ hupper
    obtain ⟨hlow, hhigh, -⟩ := upperClass_bounds hupper
    have hupperCase : char.isUpper = true → char.toUpper = char :=
      of_isAscii (fun char => char.isUpper = true → char.toUpper = char)
        (by decide) hascii
    rw [ibanDigits, if_pos hletter, PythonLibrary.intBase36,
      if_pos (by simp [hascii, halpha]), hupperCase hupper] at hdigits
    cases hdigits
    rw [toString_of_two_digits hlow hhigh, List.foldl_cons, List.foldl_cons,
      List.foldl_nil, appendDigit_ofNat (by omega), appendDigit_ofNat (by omega),
      place_of_upperClass hupper]
    simp only
    omega
  · have hletter : library.isAlphabetic char = false := by
      rw [PythonLibrary.isAlphabetic, if_pos (isAscii_of_isDigit hdigit)]
      exact of_isAscii (fun char => char.isDigit = true → char.isAlpha = false)
        (by decide) (isAscii_of_isDigit hdigit) hdigit
    rw [ibanDigits, if_neg (by simp [hletter])] at hdigits
    cases hdigits
    rw [List.foldl_cons, List.foldl_nil, appendDigit,
      digit_of_digitClass hdigit, place_of_digitClass hdigit]
    simp only
    omega

theorem foldl_flatten_ibanDigits {letters : List Char}
    {numeric : List (List Char)}
    (hletters : ∀ char ∈ letters,
      upperClass char = true ∨ digitClass char = true)
    (h : letters.mapM (ibanDigits library) = .ok numeric) :
    numeric.flatten.foldl (appendDigit library) 0 =
      MixedRadix.number (letters.map place) := by
  have hrun : ∀ number, numeric.flatten.foldl (appendDigit library) number =
      (letters.map place).foldl
        (fun total place => total * place.base + place.value) number := by
    rw [mapM_eq_ok_iff] at h
    induction h with
    | nil => exact fun _ => rfl
    | @cons char digits letters numeric hfirst _ ih =>
        intro number
        rw [List.flatten_cons, List.foldl_append,
          foldl_ibanDigits (hletters char (by simp)) hfirst, List.map_cons,
          List.foldl_cons]
        exact ih (fun other hother => hletters other (by simp [hother])) _
  exact hrun 0

theorem intOfDigits_eq {digits : List Char} {number : Nat}
    (h : library.intOfDigits digits = .ok number) :
    number = digits.foldl (appendDigit library) 0 := by
  unfold PythonLibrary.intOfDigits at h
  split at h
  · cases h
  · split at h
    · split at h
      · exact (Except.ok.inj h).symm
      · cases h
    · cases h

/-! ## The verdict -/

theorem filter_dropWhile (blank : Char → Bool) (text : List Char) :
    (text.dropWhile blank).filter (fun char => !blank char) =
      text.filter fun char => !blank char := by
  induction text with
  | nil => rfl
  | cons char text ih =>
      cases hblank : blank char with
      | true => simpa [hblank] using ih
      | false => simp [hblank]

theorem candidate_strip (text : String) :
    candidate library (PythonText.strip text) = candidate library text := by
  have hfilter : ((PythonText.strip text).toList.filter
      fun char => !PythonText.isSpace char) =
        text.toList.filter fun char => !PythonText.isSpace char := by
    rw [PythonText.strip, String.toList_ofList, PythonText.stripWhile,
      PythonText.rstripWhile, PythonText.lstripWhile, List.rdropWhile,
      List.filter_reverse, filter_dropWhile, List.filter_reverse,
      List.reverse_reverse, filter_dropWhile]
  rw [candidate, hfilter, candidate]

theorem mem_iban_ascii {text : String}
    (hascii : ∀ char ∈ text.toList, PythonLibrary.isAscii char = true)
    (hshape : fullmatch (ibanShape library) text = true) :
    text.toList.length ≤ 34 ∧ ∀ char ∈ text.toList,
      upperClass char = true ∨ digitClass char = true := by
  obtain ⟨-, hlength, hletters⟩ := mem_iban hshape
  exact ⟨hlength, fun char hchar => (hletters char hchar).imp_right
    (digitClass_of_isDecimal (hascii char hchar))⟩

theorem not_fullmatch_nil : fullmatch (ibanShape library) "" = false := by
  by_contra h
  have hlow := (mem_iban (Bool.of_not_eq_false h)).1
  simp at hlow

theorem strip_ne_of_fullmatch {text : String}
    (hshape : fullmatch (ibanShape library) (candidate library text) = true) :
    PythonText.strip text ≠ "" := by
  intro hblank
  have hempty : candidate library text = "" := by
    rw [← candidate_strip, hblank]
    rfl
  rw [hempty, not_fullmatch_nil] at hshape
  cases hshape

theorem checkIban_of_fullmatch {text : String}
    (hascii : ∀ char ∈ (candidate library text).toList,
      PythonLibrary.isAscii char = true)
    (hshape : fullmatch (ibanShape library) (candidate library text) = true)
    (params : Members) :
    checkIban library (.str text) params =
      if ibanNumber (candidate library text).toList % 97 = 1 then .ok none
      else complain library (.str text) " fails the IBAN checksum" := by
  obtain ⟨numeric, number, hnumeric, hnumber⟩ := exists_ibanNumber hshape
  have hletters := (mem_iban_ascii hascii hshape).2
  have hvalue : number = ibanNumber (candidate library text).toList := by
    rw [intOfDigits_eq hnumber, ibanNumber, rearranged]
    refine foldl_flatten_ibanDigits (fun char hchar => ?_) hnumeric
    rcases List.mem_append.mp hchar with hchar | hchar
    · exact hletters char (List.mem_of_mem_drop hchar)
    · exact hletters char (List.mem_of_mem_take hchar)
  rw [← hvalue, checkIban, withText, needStr,
    if_neg (strip_ne_of_fullmatch hshape)]
  rw [← candidate_strip] at hshape hnumeric
  rw [candidate] at hshape hnumeric
  simp only
  rw [if_pos hshape, hnumeric]
  change (library.intOfDigits numeric.flatten >>= _) = _
  rw [hnumber]
  rfl

theorem not_accepts_of_not_fullmatch {text : String}
    (hshape : fullmatch (ibanShape library) (candidate library text) ≠ true) :
    ¬ Accepts (checkIban library) text := by
  intro haccepts
  have hnone := haccepts []
  rw [← candidate_strip, candidate] at hshape
  rw [checkIban, withText, needStr] at hnone
  by_cases hblank : PythonText.strip text = ""
  · simp [hblank] at hnone
  · rw [if_neg hblank] at hnone
    simp only at hnone
    rw [if_neg hshape] at hnone
    exact not_complain_eq_none hnone

theorem accepts_checkIban_iff {text : String}
    (hascii : ∀ char ∈ (candidate library text).toList,
      PythonLibrary.isAscii char = true) :
    Accepts (checkIban library) text ↔
      fullmatch (ibanShape library) (candidate library text) = true ∧
        ibanNumber (candidate library text).toList % 97 = 1 := by
  by_cases hshape : fullmatch (ibanShape library) (candidate library text) = true
  · have hcheck := @checkIban_of_fullmatch library text hascii hshape
    rw [and_iff_right hshape]
    constructor
    · intro haccepts
      by_contra hne
      have hnone := haccepts []
      rw [hcheck [], if_neg hne] at hnone
      exact not_complain_eq_none hnone
    · intro hone params
      rw [hcheck params, if_pos hone]
  · exact iff_of_false (not_accepts_of_not_fullmatch hshape)
      fun h => hshape h.1

/-! ## Errors -/

theorem exists_rearranged_cons (before after : List Char) :
    ∃ earlier later, ∀ char,
      rearranged (before ++ char :: after) = earlier ++ char :: later := by
  by_cases hlength : 4 ≤ before.length
  · refine ⟨before.drop 4, after ++ before.take 4, fun char => ?_⟩
    rw [rearranged, List.drop_append_of_le_length hlength,
      List.take_append_of_le_length hlength]
    simp
  · obtain ⟨rest, hrest⟩ : ∃ rest, 4 - before.length = rest + 1 :=
      ⟨3 - before.length, by omega⟩
    refine ⟨after.drop rest ++ before, after.take rest, fun char => ?_⟩
    rw [rearranged, List.drop_append, List.take_append,
      List.drop_eq_nil_of_le (by omega), List.take_of_length_le (by omega),
      hrest]
    simp

theorem exists_rearranged_pair (before after : List Char) :
    (∃ earlier later, ∀ first second,
      rearranged (before ++ first :: second :: after) =
        earlier ++ first :: second :: later) ∨
    ∃ middle, middle.length = before.length + after.length ∧
      ∀ first second, rearranged (before ++ first :: second :: after) =
        second :: (middle ++ [first]) := by
  rcases lt_trichotomy before.length 3 with hlow | hthree | hhigh
  · obtain ⟨rest, hrest⟩ : ∃ rest, 4 - before.length = rest + 2 :=
      ⟨2 - before.length, by omega⟩
    refine .inl ⟨after.drop rest ++ before, after.take rest,
      fun first second => ?_⟩
    rw [rearranged, List.drop_append, List.take_append,
      List.drop_eq_nil_of_le (by omega), List.take_of_length_le (by omega),
      hrest]
    simp
  · refine .inr ⟨after ++ before, by simp; omega, fun first second => ?_⟩
    rw [rearranged, List.drop_append, List.take_append,
      List.drop_eq_nil_of_le (by omega), List.take_of_length_le (by omega),
      hthree]
    simp
  · refine .inl ⟨before.drop 4, after ++ before.take 4,
      fun first second => ?_⟩
    rw [rearranged, List.drop_append_of_le_length hhigh,
      List.take_append_of_le_length hhigh]
    simp

theorem exists_weight_eq (letters : List Char) :
    ∃ count ≤ 2 * letters.length,
      MixedRadix.weight (letters.map place) = 10 ^ count := by
  induction letters with
  | nil => exact ⟨0, by simp, rfl⟩
  | cons char letters ih =>
      obtain ⟨count, hcount, hweight⟩ := ih
      rw [List.map_cons, MixedRadix.weight_cons, hweight, place]
      simp only [List.length_cons]
      split
      · exact ⟨count + 2, by omega, by rw [pow_add]; simp; omega⟩
      · exact ⟨count + 1, by omega, by rw [pow_succ]; simp; omega⟩

theorem prime_97 : Nat.Prime 97 := by norm_num

theorem not_dvd_mul_weight {factor : Nat} (hfactor : ¬ 97 ∣ factor)
    (letters : List Char) :
    ¬ ((97 : Nat) : Int) ∣
      (factor : Int) * MixedRadix.weight (letters.map place) := by
  obtain ⟨count, -, hweight⟩ := exists_weight_eq letters
  rw [hweight]
  intro hdvd
  have hnat : 97 ∣ factor * 10 ^ count := by exact_mod_cast hdvd
  rcases prime_97.dvd_or_dvd hnat with h | h
  · exact hfactor h
  · exact absurd (prime_97.dvd_of_dvd_pow h) (by decide)

/-- The order of ten is 96, and an IBAN is too short for that. -/
theorem not_dvd_pow_sub_one {count : Nat} (hlow : 1 ≤ count)
    (hhigh : count < 96) : ¬ ((97 : Nat) : Int) ∣ (10 ^ count : Nat) - 1 := by
  have hall : ∀ count < 96, 1 ≤ count → 10 ^ count % 97 ≠ 1 := by
    decide +kernel
  intro hdvd
  have hmod : 1 ≡ 10 ^ count [MOD 97] :=
    Nat.modEq_iff_dvd.mpr (by exact_mod_cast hdvd)
  exact hall count hhigh hlow hmod.symm

theorem ibanNumber_replace {first second : Char}
    (hbase : (place first).base = (place second).base)
    (hfirst : (place first).value < 97) (hsecond : (place second).value < 97)
    {before after : List Char}
    (hmod : ibanNumber (before ++ first :: after) % 97 =
      ibanNumber (before ++ second :: after) % 97) :
    (place first).value = (place second).value := by
  obtain ⟨earlier, later, hrearranged⟩ := exists_rearranged_cons before after
  simp only [ibanNumber, hrearranged, List.map_append, List.map_cons] at hmod
  have hfactor := not_dvd_mul_weight (show ¬ 97 ∣ 1 by decide) later
  rw [Nat.cast_one, one_mul] at hfactor
  exact MixedRadix.eq_of_mod_eq prime_97 hfirst hsecond hfactor
    (MixedRadix.replace_sub _ _ hbase) hmod

theorem ibanNumber_swap {first second : Char}
    (hfirst : (place first).base = 10 ∧ (place first).value < 97)
    (hsecond : (place second).base = 10 ∧ (place second).value < 97)
    {before after : List Char} (hlength : before.length + after.length ≤ 32)
    (hmod : ibanNumber (before ++ first :: second :: after) % 97 =
      ibanNumber (before ++ second :: first :: after) % 97) :
    (place first).value = (place second).value := by
  rcases exists_rearranged_pair before after with
    ⟨earlier, later, hrearranged⟩ | ⟨middle, hmiddle, hrearranged⟩
  · simp only [ibanNumber, hrearranged, List.map_append, List.map_cons] at hmod
    have hfactor := not_dvd_mul_weight (show ¬ 97 ∣ 9 by decide) later
    have hsub := MixedRadix.swap_sub (earlier.map place) (later.map place)
      (hfirst.1.trans hsecond.1.symm)
    rw [hsecond.1] at hsub
    exact MixedRadix.eq_of_mod_eq prime_97 hfirst.2 hsecond.2 hfactor hsub hmod
  · simp only [ibanNumber, hrearranged, List.map_append, List.map_cons,
      List.map_nil] at hmod
    obtain ⟨count, hcount, hweight⟩ := exists_weight_eq middle
    have hfactor := @not_dvd_pow_sub_one (count + 1) (by omega) (by omega)
    have hsub := MixedRadix.swap_ends_sub (middle.map place)
      (hsecond.1.trans hfirst.1.symm)
    rw [hfirst.1, hweight, ← pow_succ'] at hsub
    exact (MixedRadix.eq_of_mod_eq prime_97 hsecond.2 hfirst.2 hfactor hsub
      hmod).symm

theorem eq_of_value_eq {first second : Char}
    (h : upperClass first = true ∧ upperClass second = true ∨
      digitClass first = true ∧ digitClass second = true)
    (hvalue : (place first).value = (place second).value) : first = second := by
  have hcode : first.toNat = second.toNat := by
    rcases h with ⟨hfirst, hsecond⟩ | ⟨hfirst, hsecond⟩
    · rw [place_of_upperClass hfirst, place_of_upperClass hsecond] at hvalue
      have hlow := upperClass_bounds hfirst
      have hlow' := upperClass_bounds hsecond
      simp only at hvalue
      omega
    · rw [place_of_digitClass hfirst, place_of_digitClass hsecond] at hvalue
      have hlow := digitClass_bounds hfirst
      have hlow' := digitClass_bounds hsecond
      simp only at hvalue
      omega
  rw [← Char.ofNat_toNat first, hcode, Char.ofNat_toNat]

theorem place_bounds {char : Char}
    (h : upperClass char = true ∨ digitClass char = true) :
    (place char).value < 97 := by
  rcases h with h | h
  · have hbounds := upperClass_bounds h
    rw [place_of_upperClass h]
    simp only
    omega
  · have hbounds := digitClass_bounds h
    rw [place_of_digitClass h]
    simp only
    omega

theorem ibanNumber_of_singleError {letters other : List Char}
    (hlength : letters.length ≤ 34) (herror : SingleError letters other) :
    ibanNumber letters % 97 ≠ ibanNumber other % 97 := by
  intro hmod
  cases herror with
  | digit before after hfirst hsecond hne =>
      refine hne (eq_of_value_eq (.inr ⟨hfirst, hsecond⟩) ?_)
      refine ibanNumber_replace ?_ (place_bounds (.inr hfirst))
        (place_bounds (.inr hsecond)) hmod
      rw [place_of_digitClass hfirst, place_of_digitClass hsecond]
  | letter before after hfirst hsecond hne =>
      refine hne (eq_of_value_eq (.inl ⟨hfirst, hsecond⟩) ?_)
      refine ibanNumber_replace ?_ (place_bounds (.inl hfirst))
        (place_bounds (.inl hsecond)) hmod
      rw [place_of_upperClass hfirst, place_of_upperClass hsecond]
  | swap before after hfirst hsecond hne =>
      refine hne (eq_of_value_eq (.inr ⟨hfirst, hsecond⟩) ?_)
      refine ibanNumber_swap ⟨?_, place_bounds (.inr hfirst)⟩
        ⟨?_, place_bounds (.inr hsecond)⟩ ?_ hmod
      · rw [place_of_digitClass hfirst]
      · rw [place_of_digitClass hsecond]
      · simp only [List.length_append, List.length_cons] at hlength
        omega

theorem isAscii_of_singleError {letters other : List Char}
    (hascii : ∀ char ∈ letters, PythonLibrary.isAscii char = true)
    (herror : SingleError letters other) :
    ∀ char ∈ other, PythonLibrary.isAscii char = true := by
  have hreplace : ∀ (before after : List Char) (first second : Char),
      (∀ char ∈ before ++ first :: after,
        PythonLibrary.isAscii char = true) →
      PythonLibrary.isAscii second = true →
      ∀ char ∈ before ++ second :: after,
        PythonLibrary.isAscii char = true := by
    intro before after first second hall hsecond char hchar
    simp only [List.mem_append, List.mem_cons] at hall hchar
    rcases hchar with hchar | rfl | hchar
    · exact hall char (.inl hchar)
    · exact hsecond
    · exact hall char (.inr (.inr hchar))
  cases herror with
  | digit before after hfirst hsecond hne =>
      exact hreplace _ _ _ _ hascii (isAscii_of_isDigit hsecond)
  | letter before after hfirst hsecond hne =>
      exact hreplace _ _ _ _ hascii (isAscii_of_upperClass hsecond)
  | swap before after hfirst hsecond hne =>
      intro char hchar
      refine hascii char ?_
      simp only [List.mem_append, List.mem_cons] at hchar ⊢
      tauto

theorem rejects_of_singleError {text other : String}
    (hascii : ∀ char ∈ text.toList, PythonLibrary.isAscii char = true)
    (haccepts : Accepts (checkIban library) text)
    (herror : SingleError (candidate library text).toList
      (candidate library other).toList) : Rejects (checkIban library) other := by
  have hcandidate := @isAscii_candidate library text hascii
  obtain ⟨hshape, hone⟩ := (accepts_checkIban_iff hcandidate).mp haccepts
  have hne := ibanNumber_of_singleError (mem_iban_ascii hcandidate hshape).1
    herror
  refine rejects_of_ne succeeds_checkIban fun params hnone => hne ?_
  have hother := (accepts_checkIban_iff
    (isAscii_of_singleError hcandidate herror)).mp fun _ => hnone
  rw [hone, hother.2]

/-! ## Check digits -/

theorem candidate_ofList {letters : List Char}
    (h : ∀ char ∈ letters, upperClass char = true ∨ digitClass char = true) :
    candidate library (String.ofList letters) = String.ofList letters := by
  have hchar : ∀ char ∈ letters, PythonText.isSpace char = false ∧
      library.upperChar char = [char] := by
    intro char hmem
    have hascii := (h char hmem).elim isAscii_of_upperClass
      isAscii_of_isDigit
    have hall := of_isAscii (fun char =>
      char.isUpper = true ∨ char.isDigit = true →
        PythonText.isSpace char = false ∧ char.toUpper = char) (by decide)
      hascii (h char hmem)
    exact ⟨hall.1, by rw [PythonLibrary.upperChar, if_pos hascii, hall.2]⟩
  have hfilter : letters.filter (fun char => !PythonText.isSpace char) =
      letters := by
    rw [List.filter_eq_self]
    intro char hmem
    simp [(hchar char hmem).1]
  have hupper : letters.flatMap library.upperChar = letters := by
    rw [List.flatMap_congr fun char hmem => (hchar char hmem).2]
    exact List.flatMap_singleton' letters
  rw [candidate, String.toList_ofList, hfilter, PythonLibrary.upperText,
    String.toList_ofList, hupper]

theorem ibanNumber_of_parts {country account : List Char}
    (hcountry : country.length = 2) {tens units : Char}
    (htens : digitClass tens = true) (hunits : digitClass units = true) :
    ibanNumber (country ++ tens :: units :: account) =
      MixedRadix.number ((account ++ country).map place) * 100 +
        ((tens.toNat - 48) * 10 + (units.toNat - 48)) := by
  have hrearranged : rearranged (country ++ tens :: units :: account) =
      (account ++ country) ++ [tens, units] := by
    rw [rearranged, List.drop_append, List.take_append,
      List.drop_eq_nil_of_le (by omega), List.take_of_length_le (by omega),
      hcountry]
    simp
  rw [ibanNumber, hrearranged, List.map_append, MixedRadix.number_append,
    List.map_cons, List.map_cons, List.map_nil, place_of_digitClass htens,
    place_of_digitClass hunits]
  simp [MixedRadix.number_cons]

theorem exists_checksum (number : Nat) :
    ∃ check < 100, (number * 100 + check) % 97 = 1 :=
  ⟨98 - number * 100 % 97, by omega, by omega⟩

theorem ibanShape_of_parts {country account : List Char} {tens units : Char}
    (hcountry : country.length = 2)
    (hletters : ∀ char ∈ country, upperClass char = true)
    (htens : digitClass tens = true) (hunits : digitClass units = true)
    (hlow : 10 ≤ account.length) (hhigh : account.length ≤ 30)
    (haccount : ∀ char ∈ account,
      upperClass char = true ∨ digitClass char = true) :
    fullmatch (ibanShape library)
      (String.ofList (country ++ tens :: units :: account)) = true := by
  rw [fullmatch, Regex.fullmatch_iff, String.toList_ofList]
  simp only [ibanShape, concat, Regex.mem_seq, decimal,
    Regex.mem_exactly_char, Bool.or_eq_true,
    Regex.mem_between_char (show 10 ≤ 30 by omega)]
  refine ⟨country, ⟨hcountry, hletters⟩, tens :: units :: account,
    ⟨[tens, units], ⟨rfl, ?_⟩, account, ⟨hlow, hhigh, haccount⟩, rfl⟩, rfl⟩
  intro char hchar
  simp only [List.mem_cons, List.not_mem_nil, or_false] at hchar
  rcases hchar with rfl | rfl
  · exact isDecimal_of_isDigit htens
  · exact isDecimal_of_isDigit hunits

theorem exists_check_digits {country account : List Char}
    (hcountry : country.length = 2)
    (hletters : ∀ char ∈ country, upperClass char = true)
    (hlow : 10 ≤ account.length) (hhigh : account.length ≤ 30)
    (haccount : ∀ char ∈ account,
      upperClass char = true ∨ digitClass char = true) :
    ∃ tens units, digitClass tens = true ∧ digitClass units = true ∧
      Accepts (checkIban library)
        (String.ofList (country ++ tens :: units :: account)) := by
  obtain ⟨check, hcheck, hone⟩ := exists_checksum
    (MixedRadix.number ((account ++ country).map place))
  obtain ⟨htens, htensValue⟩ := @digit_ofNat (check / 10) (by omega)
  obtain ⟨hunits, hunitsValue⟩ := @digit_ofNat (check % 10) (by omega)
  refine ⟨Char.ofNat (48 + check / 10), Char.ofNat (48 + check % 10), htens,
    hunits, ?_⟩
  generalize Char.ofNat (48 + check / 10) = tens at *
  generalize Char.ofNat (48 + check % 10) = units at *
  have hclasses : ∀ char ∈ country ++ tens :: units :: account,
      upperClass char = true ∨ digitClass char = true := by
    intro char hchar
    simp only [List.mem_append, List.mem_cons] at hchar
    rcases hchar with hchar | rfl | rfl | hchar
    · exact .inl (hletters char hchar)
    · exact .inr htens
    · exact .inr hunits
    · exact haccount char hchar
  rw [accepts_checkIban_iff]
  all_goals rw [candidate_ofList hclasses]
  · refine ⟨ibanShape_of_parts hcountry hletters htens hunits hlow hhigh
      haccount, ?_⟩
    rw [String.toList_ofList, ibanNumber_of_parts hcountry htens hunits,
      htensValue, hunitsValue, Nat.div_add_mod']
    exact hone
  · rw [String.toList_ofList]
    intro char hchar
    exact (hclasses char hchar).elim isAscii_of_upperClass
      isAscii_of_isDigit

/-- A single error in an accepted text is found, wherever it is, and every
country and account has its check digits. -/
theorem iban_detects_single_errors (library : PythonLibrary) :
    (∀ text : String,
      (∀ char ∈ text.toList, PythonLibrary.isAscii char = true) →
      Accepts (checkIban library) text →
      ∀ other : String,
        SingleError (candidate library text).toList
          (candidate library other).toList →
        Rejects (checkIban library) other) ∧
    ∀ country account : List Char,
      country.length = 2 → (∀ char ∈ country, upperClass char = true) →
      10 ≤ account.length → account.length ≤ 30 →
      (∀ char ∈ account, upperClass char = true ∨ digitClass char = true) →
      ∃ tens units, digitClass tens = true ∧ digitClass units = true ∧
        Accepts (checkIban library)
          (String.ofList (country ++ tens :: units :: account)) :=
  ⟨fun _ hascii haccepts _ herror =>
      rejects_of_singleError hascii haccepts herror,
    fun _ _ hcountry hletters hlow hhigh haccount =>
      exists_check_digits hcountry hletters hlow hhigh haccount⟩

theorem iban_detects_single_errors_swap :
    Rejects (checkIban .ascii) "de83 9704 0044 0532 0130 00" ∧
      ∃ tens units, digitClass tens = true ∧ digitClass units = true ∧
        Accepts (checkIban .ascii)
          (String.ofList ("GB".toList ++
            tens :: units :: "WEST12345698765432".toList)) := by
  have hascii : ∀ char ∈ "de89 3704 0044 0532 0130 00".toList,
      PythonLibrary.isAscii char = true :=
    List.all_eq_true.mp (by decide)
  have haccount : ∀ char ∈ "WEST12345698765432".toList,
      upperClass char = true ∨ digitClass char = true := by
    simp only [← Bool.or_eq_true]
    exact List.all_eq_true.mp (by decide)
  refine ⟨(iban_detects_single_errors .ascii).1 "de89 3704 0044 0532 0130 00"
    hascii ?_ _ ?_, (iban_detects_single_errors .ascii).2 "GB".toList
      "WEST12345698765432".toList rfl (List.all_eq_true.mp (by decide))
      (by decide) (by decide) haccount⟩
  · rw [accepts_checkIban_iff (isAscii_candidate hascii)]
    decide +kernel
  · have hbefore : (candidate .ascii "de89 3704 0044 0532 0130 00").toList =
        "DE8".toList ++ '9' :: '3' :: "70400440532013000".toList := by
      decide +kernel
    have hafter : (candidate .ascii "de83 9704 0044 0532 0130 00").toList =
        "DE8".toList ++ '3' :: '9' :: "70400440532013000".toList := by
      decide +kernel
    rw [hbefore, hafter]
    exact .swap _ _ (by decide) (by decide) (by decide)

end ValidatorRegistry

end Flydocs
