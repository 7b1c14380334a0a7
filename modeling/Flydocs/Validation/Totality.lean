import Flydocs.Foundation.Traverse
import Flydocs.Validation.ValidatorRegistry

/-!
# Checkers that return

What each helper of the registry needs to return.  The identifiers index and
convert only what their shape has let through, so they never raise.
-/

namespace Flydocs

open Foundation Dtos JsonValue

def Succeeds {Value : Type} (outcome : Except PyException Value) : Prop :=
  ∃ value, outcome = .ok value

section

variable {Value Result : Type}

@[simp] theorem succeeds_ok (value : Value) :
    Succeeds (.ok value : Except PyException Value) := ⟨value, rfl⟩

@[simp] theorem succeeds_pure (value : Value) :
    Succeeds (pure value : Except PyException Value) := ⟨value, rfl⟩

@[simp] theorem not_succeeds_error (failure : PyException) :
    ¬ Succeeds (.error failure : Except PyException Value) := by
  rintro ⟨value, h⟩
  cases h

theorem succeeds_bind_iff {outcome : Except PyException Value}
    {next : Value → Except PyException Result} :
    Succeeds (outcome >>= next) ↔
      ∃ value, outcome = .ok value ∧ Succeeds (next value) := by
  cases outcome <;> simp [Succeeds, bind, Except.bind]

theorem succeeds_bind {outcome : Except PyException Value}
    {next : Value → Except PyException Result} (h : Succeeds outcome)
    (hnext : ∀ value, outcome = .ok value → Succeeds (next value)) :
    Succeeds (outcome >>= next) := by
  obtain ⟨value, hvalue⟩ := h
  exact succeeds_bind_iff.mpr ⟨value, hvalue, hnext value hvalue⟩

theorem succeeds_bind_iff_left {outcome : Except PyException Value}
    {next : Value → Except PyException Result}
    (hnext : ∀ value, Succeeds (next value)) :
    Succeeds (outcome >>= next) ↔ Succeeds outcome := by
  rw [succeeds_bind_iff]
  exact exists_congr fun value => and_iff_left (hnext value)

theorem succeeds_mapM_iff {Item : Type} {items : List Item}
    {step : Item → Except PyException Value} :
    Succeeds (items.mapM step) ↔ ∀ item ∈ items, Succeeds (step item) :=
  exists_mapM_eq_ok_iff

end

namespace PythonLibrary

/-- Whether `float(value)` returns, or fails with a message that can be made. -/
def NumberSafe (library : PythonLibrary) (value : FieldValue) : Prop :=
  match value with
  | .int number => (PythonNumber.floatOfInt number).isSome = true
  | .list _ => library.Printable value
  | _ => True

variable {library : PythonLibrary} {value : FieldValue}

theorem digitsBound_eq :
    ∃ digits, 1024 ≤ digits ∧ digitsBound = 10 ^ digits :=
  ⟨4300, by omega, by unfold digitsBound; rfl⟩

theorem overflowBound_le_digitsBound :
    PythonNumber.overflowBound ≤ digitsBound := by
  obtain ⟨bits, -, hbits, hoverflow⟩ := PythonNumber.overflowBound_eq
  obtain ⟨digits, hdigits, hbound⟩ := digitsBound_eq
  rw [hoverflow, hbound]
  exact (Nat.pow_le_pow_left (by omega) bits).trans
    (Nat.pow_le_pow_right (by omega) (hbits.trans hdigits))

theorem printable_of_floatOf {number : PyFloat}
    (h : library.floatOf value = .ok number) : library.Printable value := by
  cases value with
  | int number =>
      simp only [floatOf] at h
      split at h
      · rename_i hfloat
        exact lt_of_lt_of_le (PythonNumber.natAbs_lt_of_floatOfInt hfloat)
          overflowBound_le_digitsBound
      · cases h
  | list items => cases h
  | _ => trivial

theorem floatOf_cases (library : PythonLibrary) (value : FieldValue) :
    (∃ number, library.floatOf value = .ok number ∧
      library.NumberSafe value) ∨
    ((library.floatOf value = .error .typeError ∨
        ∃ text, library.floatOf value = .error (.valueError text)) ∧
      (library.NumberSafe value ↔ library.Printable value)) ∨
    (library.floatOf value = .error .overflowError ∧
      ¬ library.NumberSafe value) := by
  cases value with
  | int number =>
      simp only [floatOf, NumberSafe]
      cases PythonNumber.floatOfInt number <;> simp
  | str text =>
      simp only [floatOf, NumberSafe, Printable]
      cases library.float text <;> simp
  | _ => simp [floatOf, NumberSafe, Printable]

end PythonLibrary

namespace ValidatorRegistry

def Accepts (check : Checker) (text : String) : Prop :=
  ∀ params, check (.str text) params = .ok none

def Rejects (check : Checker) (text : String) : Prop :=
  ∀ params, ∃ complaint, check (.str text) params = .ok (some complaint)

variable {library : PythonLibrary} {value : FieldValue}

theorem rejects_of_ne {check : Checker} {text : String}
    (hsucceeds : ∀ params, Succeeds (check (.str text) params))
    (hne : ∀ params, check (.str text) params ≠ .ok none) :
    Rejects check text := by
  intro params
  obtain ⟨complaint, hcomplaint⟩ := hsucceeds params
  cases complaint with
  | none => exact absurd hcomplaint (hne params)
  | some complaint => exact ⟨complaint, hcomplaint⟩

/-! ## Helpers -/

theorem succeeds_complain_iff {complaint : String} :
    Succeeds (complain library value complaint) ↔ library.Printable value := by
  rw [complain, succeeds_bind_iff, ← PythonLibrary.exists_repr_iff]
  simp

theorem not_complain_eq_none {complaint : String} :
    complain library value complaint ≠ .ok none := by
  intro h
  unfold complain at h
  cases hrepr : library.repr value <;>
    simp [hrepr, bind, Except.bind, pure, Except.pure] at h

theorem text_of_needStr {text : String} (h : needStr value = .ok text) :
    ∃ given, value = .str given := by
  cases value with
  | str given => exact ⟨given, rfl⟩
  | _ => cases h

theorem printable_of_needStr {text : String} (h : needStr value = .ok text) :
    library.Printable value := by
  obtain ⟨given, rfl⟩ := text_of_needStr h
  trivial

theorem succeeds_withText_iff
    {check : String → Except PyException (Option String)} :
    Succeeds (withText value check) ↔
      ∀ text, needStr value = .ok text → Succeeds (check text) := by
  unfold withText
  cases hneed : needStr value with
  | error message => simp
  | ok text => simp

theorem succeeds_verdict {accepted : Prop} [Decidable accepted]
    {complaint : String} (h : library.Printable value) :
    Succeeds (if accepted then .ok none
      else complain library value complaint) := by
  split
  · exact succeeds_ok _
  · exact succeeds_complain_iff.mpr h

theorem succeeds_accept {accepts : String → Prop} [DecidablePred accepts]
    {complaint : String} :
    Succeeds (withText value fun text =>
      if accepts text then .ok none
      else complain library value complaint) := by
  rw [succeeds_withText_iff]
  exact fun text htext => succeeds_verdict (printable_of_needStr htext)

theorem succeeds_checkShape (shape : Shape) (complaint : String)
    (prepare : String → String) (params : Members) :
    Succeeds (checkShape library shape complaint prepare value params) :=
  succeeds_accept

theorem succeeds_checkDomain (params : Members) :
    Succeeds (checkDomain library value params) := succeeds_accept

theorem succeeds_checkCurrencyCode (params : Members) :
    Succeeds (checkCurrencyCode library value params) := succeeds_accept

theorem succeeds_checkParsed_iff (parse : String → Except String Unit)
    (complaint : String) (params : Members) :
    Succeeds (checkParsed library parse complaint value params) ↔
      library.Printable value := by
  unfold checkParsed
  by_cases hprintable : library.Printable value
  · obtain ⟨text, htext⟩ := PythonLibrary.exists_str_iff.mpr hprintable
    simp only [htext, hprintable, iff_true]
    split
    · exact succeeds_ok _
    · exact succeeds_complain_iff.mpr hprintable
  · rw [PythonLibrary.str_of_not_printable hprintable]
    exact succeeds_complain_iff

theorem succeeds_checkIso_iff (parse : String → Except String Unit)
    (complaint : String) (params : Members) :
    Succeeds (checkIso library parse complaint value params) ↔
      library.Printable value := by
  rw [checkIso, succeeds_bind_iff, ← PythonLibrary.exists_str_iff]
  refine exists_congr fun raw => and_iff_left_of_imp fun hraw => ?_
  split
  · exact succeeds_pure _
  · exact succeeds_complain_iff.mpr (PythonLibrary.exists_str_iff.mp ⟨raw, hraw⟩)

theorem succeeds_withFloat_iff {complaint : String}
    {check : PyFloat → Except PyException (Option String)}
    (hcheck : ∀ number, library.floatOf value = .ok number →
      Succeeds (check number)) :
    Succeeds (withFloat library value complaint check) ↔
      library.NumberSafe value := by
  unfold withFloat
  rcases library.floatOf_cases value with ⟨number, hnumber, hsafe⟩ |
    ⟨hfailure | ⟨text, hfailure⟩, hsafe⟩ | ⟨hoverflow, hunsafe⟩
  · simpa only [hnumber, hsafe, iff_true] using hcheck number hnumber
  · simpa only [hfailure, hsafe] using succeeds_complain_iff
  · simpa only [hfailure, hsafe] using succeeds_complain_iff
  · simp [hoverflow, hunsafe]

/-! ## Digits -/

/-- A fact about ASCII is checked code by code. -/
theorem of_isAscii (Holds : Char → Prop)
    (hall : ∀ code < 128, Holds (Char.ofNat code)) {char : Char}
    (h : PythonLibrary.isAscii char = true) : Holds char := by
  have hchar := hall char.toNat (by simpa [PythonLibrary.isAscii] using h)
  rwa [Char.ofNat_toNat] at hchar

theorem isAscii_of_isDigit {char : Char} (h : char.isDigit = true) :
    PythonLibrary.isAscii char = true := by
  simp only [Char.isDigit, Bool.and_eq_true, decide_eq_true_eq] at h
  have hcode : char.toNat ≤ 57 := h.2
  simpa [PythonLibrary.isAscii] using by omega

theorem isDecimal_of_isDigit {char : Char} (h : char.isDigit = true) :
    library.isDecimal char = true := by
  simp [PythonLibrary.isDecimal, PythonLibrary.digit, isAscii_of_isDigit h, h]

theorem succeeds_intOfDigits {digits : List Char} (hne : digits ≠ [])
    (hdecimal : ∀ char ∈ digits, library.isDecimal char = true)
    (hlength : digits.length ≤ 4300) :
    Succeeds (library.intOfDigits digits) := by
  have hall : digits.all library.isDecimal = true :=
    List.all_eq_true.mpr hdecimal
  cases digits with
  | nil => exact absurd rfl hne
  | cons first rest =>
      simp only [PythonLibrary.intOfDigits, hall, if_true, if_pos hlength]
      exact succeeds_ok _

theorem succeeds_charAt {text : List Char} {index : Nat}
    (h : index < text.length) : Succeeds (charAt text index) := by
  simp [charAt, List.getElem?_eq_getElem h]

theorem succeeds_lastOf {text : List Char} (h : text ≠ []) :
    Succeeds (lastOf text) := by
  simp [lastOf, List.getLast?_eq_getLast_of_ne_nil h]

theorem succeeds_nifLetter (number : Nat) :
    Succeeds (charAt nifLetters (number % 23)) := by
  have hlength : nifLetters.length = 23 := by decide
  exact succeeds_charAt (by rw [hlength]; exact Nat.mod_lt _ (by decide))

theorem parts_of_identifier {first last : Char → Bool} {count : Nat}
    {text : List Char}
    (h : (concat [.char first, .exactly count (decimal library),
      .char last] : Shape).fullmatch text = true) :
    ∃ initial digits final, text = initial :: (digits ++ [final]) ∧
      first initial = true ∧ text.take (count + 1) = initial :: digits ∧
      digits.length = count ∧
      ∀ char ∈ digits, library.isDecimal char = true := by
  rw [Regex.fullmatch_iff] at h
  simp only [concat, Regex.mem_seq, Regex.mem_char, decimal,
    Regex.mem_exactly_char] at h
  obtain ⟨_, ⟨initial, hinitial, rfl⟩, _, ⟨digits, ⟨hlength, hdigits⟩, _,
    ⟨final, -, rfl⟩, rfl⟩, rfl⟩ := h
  refine ⟨initial, digits, final, by simp, hinitial, ?_, hlength, hdigits⟩
  simp [← hlength]

theorem succeeds_checkNif (params : Members) :
    Succeeds (checkNif library value params) := by
  rw [checkNif, succeeds_withText_iff]
  intro text htext
  have hprintable : library.Printable value := printable_of_needStr htext
  simp only
  split
  · rename_i hshape
    rw [Regex.fullmatch_iff, Regex.mem_seq] at hshape
    simp only [decimal, Regex.mem_exactly_char, Regex.mem_char] at hshape
    obtain ⟨digits, ⟨hlength, hdigits⟩, _, ⟨final, -, rfl⟩, hraw⟩ := hshape
    have htake : (compact library text).take 8 = digits := by
      rw [← hraw, ← hlength, List.take_left]
    have hnonempty : digits ≠ [] := List.ne_nil_of_length_pos (by omega)
    rw [htake]
    refine succeeds_bind (succeeds_intOfDigits hnonempty hdigits (by omega))
      fun number _ => ?_
    refine succeeds_bind (succeeds_nifLetter number) fun control _ => ?_
    refine succeeds_bind (succeeds_lastOf (by simp [← hraw])) fun last _ => ?_
    split
    · exact succeeds_complain_iff.mpr hprintable
    · exact succeeds_pure _
  · exact succeeds_complain_iff.mpr hprintable

theorem nieInitial_isDigit {letter initial : Char}
    (h : nieInitial letter = .ok initial) : initial.isDigit = true := by
  unfold nieInitial at h
  split at h <;> cases h <;> decide

theorem succeeds_nieInitial {letter : Char} (h : oneOf "XYZ" letter = true) :
    Succeeds (nieInitial letter) := by
  have hletter : letter = 'X' ∨ letter = 'Y' ∨ letter = 'Z' := by
    simpa [oneOf] using h
  rcases hletter with rfl | rfl | rfl <;> exact succeeds_ok _

theorem succeeds_checkNie (params : Members) :
    Succeeds (checkNie library value params) := by
  rw [checkNie, succeeds_withText_iff]
  intro text htext
  have hprintable : library.Printable value := printable_of_needStr htext
  simp only
  split
  · rename_i hshape
    obtain ⟨first, digits, final, hraw, hfirst, htake, hlength, hdigits⟩ :=
      parts_of_identifier hshape
    have hfirstChar : charAt (compact library text) 0 = .ok first := by
      simp [charAt, hraw]
    rw [htake, hfirstChar]
    refine succeeds_bind (succeeds_ok first) fun letter hletter => ?_
    cases hletter
    refine succeeds_bind (succeeds_nieInitial hfirst) fun initial hinitial => ?_
    refine succeeds_bind (succeeds_intOfDigits (by simp) ?_ (by simp; omega))
      fun number _ => ?_
    · intro char hchar
      rcases List.mem_cons.mp hchar with rfl | hchar
      · exact isDecimal_of_isDigit (nieInitial_isDigit hinitial)
      · exact hdigits char hchar
    refine succeeds_bind (succeeds_nifLetter number) fun control _ => ?_
    refine succeeds_bind (succeeds_lastOf (by simp [hraw])) fun last _ => ?_
    split
    · exact succeeds_complain_iff.mpr hprintable
    · exact succeeds_pure _
  · exact succeeds_complain_iff.mpr hprintable

theorem succeeds_intOfChars {chars : List Char}
    (hdecimal : ∀ char ∈ chars, library.isDecimal char = true) :
    Succeeds (chars.mapM (intOfChar library)) := by
  rw [succeeds_mapM_iff]
  intro char hchar
  exact succeeds_intOfDigits (by simp) (by simpa using hdecimal char hchar)
    (by simp)

theorem succeeds_checkCif (params : Members) :
    Succeeds (checkCif library value params) := by
  rw [checkCif, succeeds_withText_iff]
  intro text htext
  have hprintable : library.Printable value := printable_of_needStr htext
  simp only
  split
  · rename_i hshape
    obtain ⟨first, digits, final, hraw, -, htake, -, hdigits⟩ :=
      parts_of_identifier hshape
    rw [htake]
    refine succeeds_bind (succeeds_intOfChars hdigits) fun numbers _ => ?_
    refine succeeds_bind (succeeds_charAt ?_) fun controlLetter _ => ?_
    · have hletters : "JABCDEFGHI".toList.length = 10 := by decide
      rw [hletters]
      exact Nat.mod_lt _ (by decide)
    refine succeeds_bind (succeeds_charAt (by simp [hraw])) fun letter _ => ?_
    refine succeeds_bind (succeeds_lastOf (by simp [hraw])) fun last _ => ?_
    split
    · split
      · exact succeeds_complain_iff.mpr hprintable
      · exact succeeds_pure _
    · split
      · exact succeeds_complain_iff.mpr hprintable
      · exact succeeds_pure _
  · exact succeeds_complain_iff.mpr hprintable

theorem succeeds_checkCreditCard_iff (params : Members) :
    Succeeds (checkCreditCard library value params) ↔
      library.Printable value := by
  rw [checkCreditCard, succeeds_bind_iff, ← PythonLibrary.exists_str_iff]
  refine exists_congr fun raw => and_iff_left_of_imp fun hraw => ?_
  have hprintable := PythonLibrary.exists_str_iff.mp ⟨raw, hraw⟩
  simp only
  split
  · refine succeeds_bind (succeeds_intOfChars fun char hchar => ?_)
      fun digits _ => ?_
    · exact (List.mem_filter.mp hchar).2
    split
    · exact succeeds_complain_iff.mpr hprintable
    · exact succeeds_pure _
  · exact succeeds_complain_iff.mpr hprintable

theorem mem_iban {candidate : String}
    (h : fullmatch (ibanShape library) candidate = true) :
    14 ≤ candidate.toList.length ∧ candidate.toList.length ≤ 34 ∧
      ∀ char ∈ candidate.toList,
        upperClass char = true ∨ library.isDecimal char = true := by
  rw [fullmatch, Regex.fullmatch_iff] at h
  simp only [ibanShape, concat, Regex.mem_seq, decimal, Regex.mem_exactly_char,
    Regex.mem_between_char (show 10 ≤ 30 by omega), Bool.or_eq_true] at h
  obtain ⟨country, ⟨hcountry, hletters⟩, _, ⟨check, ⟨hcheck, hdigits⟩, account,
    ⟨hlow, hhigh, haccount⟩, rfl⟩, htext⟩ := h
  rw [← htext]
  refine ⟨by simp; omega, by simp; omega, ?_⟩
  intro char hchar
  rcases List.mem_append.mp hchar with hchar | hchar
  · exact .inl (hletters char hchar)
  · rcases List.mem_append.mp hchar with hchar | hchar
    · exact .inr (hdigits char hchar)
    · exact (haccount char hchar).imp_right isDecimal_of_isDigit

theorem upperClass_iff {char : Char} :
    upperClass char = true ↔ 65 ≤ char.toNat ∧ char.toNat ≤ 90 :=
  decide_eq_true_iff

theorem isAlphabetic_of_upperClass {char : Char} (h : upperClass char = true) :
    library.isAlphabetic char = true ∧
      PythonLibrary.isAscii char = true ∧ char.isAlpha = true := by
  have halpha : char.isAlpha = true := Bool.or_eq_true_iff.mpr (.inl h)
  have hascii : PythonLibrary.isAscii char = true := by
    have hcode := (upperClass_iff.mp h).2
    simpa [PythonLibrary.isAscii] using by omega
  exact ⟨by simp [PythonLibrary.isAlphabetic, hascii, halpha], hascii, halpha⟩

theorem intBase36_lt {char : Char}
    (h : upperClass char = true ∨ library.isDecimal char = true) :
    ∃ number, library.intBase36 char = .ok number ∧ number < 36 := by
  unfold PythonLibrary.intBase36
  split
  · rename_i hletter
    rw [Bool.and_eq_true] at hletter
    have hlt : char.isAlpha = true → char.toUpper.toNat - 55 < 36 :=
      of_isAscii (fun char =>
        char.isAlpha = true → char.toUpper.toNat - 55 < 36) (by decide)
        hletter.1
    exact ⟨_, rfl, hlt hletter.2⟩
  · rename_i hletter
    rcases h with hupper | hdecimal
    · obtain ⟨-, hascii, halpha⟩ := @isAlphabetic_of_upperClass library _ hupper
      simp [hascii, halpha] at hletter
    · obtain ⟨value, hvalue⟩ := Option.isSome_iff_exists.mp hdecimal
      rw [hvalue]
      exact ⟨value.val, rfl, by omega⟩

theorem digits_of_lt {number : Nat} (h : number < 36) :
    (toString number).toList.length ≤ 2 ∧ (toString number).toList ≠ [] ∧
      ∀ char ∈ (toString number).toList, char.isDigit = true := by
  have htext : (toString number).toList = Nat.toDigits 10 number :=
    Nat.toList_repr
  rw [htext]
  refine ⟨?_, ?_, fun char hchar => Nat.isDigit_of_mem_toDigits (by decide)
    (by decide) hchar⟩
  · rw [Nat.length_toDigits_le_iff (by decide) (by decide)]
    omega
  · exact List.ne_nil_of_length_pos Nat.length_toDigits_pos

theorem ibanDigits_spec {char : Char}
    (h : upperClass char = true ∨ library.isDecimal char = true) :
    ∃ digits, ibanDigits library char = .ok digits ∧ digits.length ≤ 2 ∧
      digits ≠ [] ∧ ∀ digit ∈ digits, library.isDecimal digit = true := by
  unfold ibanDigits
  split
  · obtain ⟨number, hnumber, hlt⟩ := intBase36_lt h
    obtain ⟨hlength, hne, hdigits⟩ := digits_of_lt hlt
    exact ⟨(toString number).toList, by rw [hnumber]; rfl, hlength, hne,
      fun digit hdigit => isDecimal_of_isDigit (hdigits digit hdigit)⟩
  · rename_i hletter
    rcases h with hupper | hdecimal
    · exact absurd (isAlphabetic_of_upperClass hupper).1 hletter
    · exact ⟨[char], rfl, by simp, by simp, by simpa using hdecimal⟩

theorem flatten_ibanDigits {letters : List Char} {numeric : List (List Char)}
    (hletters : ∀ char ∈ letters,
      upperClass char = true ∨ library.isDecimal char = true)
    (h : letters.mapM (ibanDigits library) = .ok numeric) :
    numeric.flatten.length ≤ 2 * letters.length ∧
      (letters ≠ [] → numeric.flatten ≠ []) ∧
      ∀ digit ∈ numeric.flatten, library.isDecimal digit = true := by
  rw [mapM_eq_ok_iff] at h
  induction h with
  | nil => simp
  | @cons char digits letters numeric hfirst _ ih =>
      obtain ⟨hrest, -, hdecimal⟩ := ih fun other hother =>
        hletters other (by simp [hother])
      obtain ⟨found, hfound, hlength, hne, hdigits⟩ :=
        ibanDigits_spec (hletters char (by simp))
      rw [hfirst, Except.ok.injEq] at hfound
      subst hfound
      refine ⟨?_, by simp [hne], ?_⟩
      · simp only [List.flatten_cons, List.length_append, List.length_cons]
        omega
      · intro digit hdigit
        rw [List.flatten_cons] at hdigit
        rcases List.mem_append.mp hdigit with hdigit | hdigit
        · exact hdigits digit hdigit
        · exact hdecimal digit hdigit

theorem exists_ibanNumber {candidate : String}
    (h : fullmatch (ibanShape library) candidate = true) :
    ∃ numeric number,
      (candidate.toList.drop 4 ++ candidate.toList.take 4).mapM
        (ibanDigits library) = .ok numeric ∧
      library.intOfDigits numeric.flatten = .ok number := by
  obtain ⟨hlow, hhigh, hletters⟩ := mem_iban h
  have hrearranged : ∀ char ∈
      candidate.toList.drop 4 ++ candidate.toList.take 4,
      upperClass char = true ∨ library.isDecimal char = true := by
    intro char hchar
    rcases List.mem_append.mp hchar with hchar | hchar
    · exact hletters char (List.mem_of_mem_drop hchar)
    · exact hletters char (List.mem_of_mem_take hchar)
  have hmap : Succeeds ((candidate.toList.drop 4 ++
      candidate.toList.take 4).mapM (ibanDigits library)) := by
    refine succeeds_mapM_iff.mpr fun char hchar => ?_
    obtain ⟨digits, hdigits, -⟩ := ibanDigits_spec (hrearranged char hchar)
    exact ⟨digits, hdigits⟩
  obtain ⟨numeric, hnumeric⟩ := hmap
  obtain ⟨hlength, hne, hdecimal⟩ := flatten_ibanDigits hrearranged hnumeric
  simp only [List.length_append, List.length_drop, List.length_take]
    at hlength
  obtain ⟨number, hnumber⟩ := succeeds_intOfDigits (hne
    (List.ne_nil_of_length_pos (by simp; omega))) hdecimal (by omega)
  exact ⟨numeric, number, hnumeric, hnumber⟩

theorem succeeds_checkIban (params : Members) :
    Succeeds (checkIban library value params) := by
  rw [checkIban, succeeds_withText_iff]
  intro text htext
  have hprintable : library.Printable value := printable_of_needStr htext
  simp only
  split
  · rename_i hshape
    obtain ⟨numeric, number, hnumeric, hnumber⟩ := exists_ibanNumber hshape
    refine succeeds_bind ⟨numeric, hnumeric⟩ fun other hother => ?_
    obtain rfl : numeric = other := by
      rw [hnumeric] at hother
      exact Except.ok.inj hother
    refine succeeds_bind ⟨number, hnumber⟩ fun _ _ => ?_
    split
    · exact succeeds_pure _
    · exact succeeds_complain_iff.mpr hprintable
  · exact succeeds_complain_iff.mpr hprintable

end ValidatorRegistry

end Flydocs
