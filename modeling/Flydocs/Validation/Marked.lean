import Flydocs.Foundation.Traverse
import Flydocs.Validation.ValidatorRegistry

/-!
# The mark of a warning

A message is taken for a warning if it ends with the mark.  The message of a
checker ends with a complaint of its own, a range or a country in capitals, and
never with the mark.
-/

namespace Flydocs

open Foundation Dtos JsonValue

/-- The end of the messages that are taken for warnings. -/
def Marked (message : String) : Prop :=
  "[warning]".toList <:+ message.toList

theorem endsWith_iff_marked {message : String} :
    message.endsWith "[warning]" = true ↔ Marked message := by
  rw [← String.endsWith_toSlice, String.Slice.endsWith_string_iff]
  simp [Marked]

theorem marked_append {message : String} : Marked (message ++ " [warning]") :=
  ⟨message.toList ++ [' '], by simp⟩

theorem marked_blank_iff {before text : String} :
    Marked (before ++ " " ++ text) ↔ Marked text := by
  unfold Marked
  simp only [String.toList_append]
  constructor
  · intro h
    have htext : ' ' :: text.toList <:+
        before.toList ++ " ".toList ++ text.toList :=
      ⟨before.toList, by simp⟩
    rcases List.suffix_or_suffix_of_suffix h htext with h | h
    · rcases List.suffix_cons_iff.mp h with heq | h
      · cases heq
      · exact h
    · have hblank : ' ' ∈ "[warning]".toList := h.subset List.mem_cons_self
      exact absurd hblank (by decide)
  · exact fun h => h.trans (List.suffix_append _ _)

theorem marked_colon_iff {before text : String} :
    Marked (before ++ ": " ++ text) ↔ Marked text := by
  have hsplit : before ++ ": " ++ text = before ++ ":" ++ " " ++ text := by
    rw [show ": " = ":" ++ " " from rfl, ← String.append_assoc]
  rw [hsplit, marked_blank_iff]

theorem not_marked_of_isLower {text : String}
    (h : ∀ letter ∈ text.toList, letter.isLower = false) : ¬ Marked text := by
  intro hmarked
  cases h 'g' (hmarked.subset (by simp))

theorem getLast?_of_marked {message : String} (h : Marked message) :
    message.toList.getLast? = some ']' := by
  obtain ⟨before, h⟩ := h
  rw [← h]
  simp

def endsOff (char : Char) (text : List Char) : Bool :=
  text.getLast?.any fun last => last ≠ char

theorem endsOff_append {char : Char} {before text : List Char}
    (h : endsOff char text = true) : endsOff char (before ++ text) = true := by
  unfold endsOff at h ⊢
  rw [List.getLast?_append]
  cases htext : text.getLast? <;> simp_all

theorem not_marked_append {before text : String}
    (h : endsOff ']' text.toList = true) : ¬ Marked (before ++ text) := by
  intro hmarked
  have hmessage := @endsOff_append _ before.toList _ h
  rw [← String.toList_append, endsOff, getLast?_of_marked hmarked] at hmessage
  cases hmessage

theorem not_marked_append_ofList {before : String} {chars : List Char}
    (h : endsOff ']' chars = true) : ¬ Marked (before ++ String.ofList chars) :=
  not_marked_append (by rwa [String.toList_ofList])

theorem not_marked_ofList {chars : List Char} (h : endsOff ']' chars = true) :
    ¬ Marked (String.ofList chars) := by
  simpa using @not_marked_append_ofList "" _ h

theorem not_marked_bracket {message : List Char}
    (h : endsOff 'g' message = true) :
    ¬ "[warning]".toList <:+ message ++ [']'] := by
  rintro ⟨before, hmark⟩
  have hbefore : before ++ "[warning".toList = message := by
    refine List.append_cancel_right (?_ : _ = message ++ [']'])
    rw [← hmark, List.append_assoc]
    rfl
  rw [← hbefore, endsOff, List.getLast?_append] at h
  cases h

namespace PythonLibrary

/-- What is documented about the texts of the library. -/
structure Documented (library : PythonLibrary) : Prop where
  floatText : ∀ value, (library.floatText value).toList.getLast?.any
    Char.isDigit = true
  upper : ∀ char, isAscii char = false → ∀ letter ∈ library.upper char,
    letter.isLower = false
  compile : ∀ pattern text,
    library.compile pattern = .error (.reError text) → ¬ Marked text
  datetimeFromIso : ∀ raw text,
    library.datetimeFromIso raw = .error text → ¬ Marked text
  urlparse : ∀ raw text, library.urlparse raw = .error text → ¬ Marked text
  uuid : ∀ raw text, library.uuid raw = .error text → ¬ Marked text

variable {library : PythonLibrary}

theorem isLower_iff {char : Char} :
    char.isLower = true ↔ 97 ≤ char.toNat ∧ char.toNat ≤ 122 :=
  Bool.and_eq_true_iff.trans
    (and_congr decide_eq_true_iff decide_eq_true_iff)

theorem isLower_toUpper (char : Char) : char.toUpper.isLower = false := by
  rw [Bool.eq_false_iff, ne_eq, isLower_iff]
  delta Char.toUpper
  split
  · rename_i hcode
    rintro ⟨hlow, -⟩
    have hgiven : 97 ≤ char.val.toNat ∧ char.val.toNat ≤ 122 := hcode
    have hmoved : 97 ≤ (char.val + 4294967264).toNat := hlow
    simp only [UInt32.toNat_add, UInt32.reduceToNat] at hmoved
    omega
  · assumption

theorem isLower_upperText (hlibrary : library.Documented) {text : String}
    {letter : Char} (h : letter ∈ (library.upperText text).toList) :
    letter.isLower = false := by
  simp only [upperText, String.toList_ofList, List.mem_flatMap] at h
  obtain ⟨char, -, h⟩ := h
  unfold upperChar at h
  split at h
  · rw [List.mem_singleton.mp h]
    exact isLower_toUpper char
  · rename_i hascii
    exact hlibrary.upper char (by simpa using hascii) letter h

end PythonLibrary

namespace ValidatorRegistry

def Unmarked (outcome : Except PyException (Option String)) : Prop :=
  ∀ message, outcome = .ok (some message) → ¬ Marked message

section

variable {library : PythonLibrary} {value : FieldValue}

theorem unmarked_none : Unmarked (.ok none) := by
  intro message h
  cases h

theorem unmarked_error (failure : PyException) : Unmarked (.error failure) := by
  intro message h
  cases h

theorem unmarked_some {text : String} (h : ¬ Marked text) :
    Unmarked (.ok (some text)) := by
  intro message hmessage
  cases hmessage
  exact h

theorem unmarked_bind {Value : Type} {outcome : Except PyException Value}
    {next : Value → Except PyException (Option String)}
    (h : ∀ value, Unmarked (next value)) : Unmarked (outcome >>= next) := by
  intro message hmessage
  obtain ⟨value, -, hmessage⟩ := bind_eq_ok_iff.mp hmessage
  exact h value message hmessage

theorem unmarked_complain {chars : List Char} (h : endsOff ']' chars = true) :
    Unmarked (complain library value (String.ofList chars)) :=
  unmarked_bind fun _ => unmarked_some (not_marked_append_ofList h)

theorem unmarked_complain_append {before : String} {chars : List Char}
    (h : endsOff ']' chars = true) :
    Unmarked (complain library value (before ++ String.ofList chars)) := by
  refine unmarked_bind fun shown => unmarked_some ?_
  rw [← String.append_assoc]
  exact not_marked_append_ofList h

theorem unmarked_ite {holds : Prop} [Decidable holds]
    {first second : Except PyException (Option String)}
    (hfirst : Unmarked first) (hsecond : Unmarked second) :
    Unmarked (if holds then first else second) := by
  split
  · exact hfirst
  · exact hsecond

theorem unmarked_needStr {message : String}
    (h : needStr value = .error message) : ¬ Marked message := by
  have hmessage : message = "value must be a non-empty string" := by
    unfold needStr at h
    split at h
    · split at h <;> cases h
      rfl
    · cases h
      rfl
  rw [hmessage]
  exact not_marked_ofList rfl

theorem unmarked_withText
    {check : String → Except PyException (Option String)}
    (h : ∀ text, Unmarked (check text)) : Unmarked (withText value check) := by
  unfold withText
  split
  · rename_i hmessage
    exact unmarked_some (unmarked_needStr hmessage)
  · exact h _

theorem unmarked_withFloat {chars : List Char}
    {check : PyFloat → Except PyException (Option String)}
    (hcomplaint : endsOff ']' chars = true)
    (h : ∀ number, Unmarked (check number)) :
    Unmarked (withFloat library value (String.ofList chars) check) := by
  unfold withFloat
  split
  · exact h _
  · exact unmarked_complain hcomplaint
  · exact unmarked_complain hcomplaint
  · exact unmarked_error _

theorem unmarked_checkShape {shape : Shape} {chars : List Char}
    {prepare : String → String} (params : Members)
    (h : endsOff ']' chars = true) :
    Unmarked (checkShape library shape (String.ofList chars) prepare value
      params) :=
  unmarked_withText fun _ => unmarked_ite unmarked_none (unmarked_complain h)

theorem unmarked_checkParsed {parse : String → Except String Unit}
    {chars : List Char} (params : Members) (h : endsOff ']' chars = true) :
    Unmarked (checkParsed library parse (String.ofList chars) value params) := by
  unfold checkParsed
  split
  · split
    · exact unmarked_none
    · exact unmarked_complain h
  · exact unmarked_complain h
  · exact unmarked_error _

theorem unmarked_checkIso {parse : String → Except String Unit}
    {chars : List Char} (params : Members) (h : endsOff ']' chars = true) :
    Unmarked (checkIso library parse (String.ofList chars) value params) := by
  refine unmarked_bind fun raw => ?_
  split
  · exact unmarked_none
  · exact unmarked_complain h

/-! ## The checkers -/

theorem unmarked_checkUri (params : Members) :
    Unmarked (checkUri library value params) := by
  refine unmarked_withText fun text => ?_
  split
  · exact unmarked_error _
  · exact unmarked_ite (unmarked_complain rfl) unmarked_none

theorem unmarked_checkJson (params : Members) :
    Unmarked (checkJson library value params) := by
  unfold checkJson
  split
  · exact unmarked_none
  · split
    · split
      · exact unmarked_none
      · exact unmarked_complain rfl
      · exact unmarked_error _
    · exact unmarked_complain rfl
    · exact unmarked_error _

theorem unmarked_checkIban (params : Members) :
    Unmarked (checkIban library value params) := by
  refine unmarked_withText fun text => unmarked_ite ?_ (unmarked_complain rfl)
  refine unmarked_bind fun numeric => unmarked_bind fun number => ?_
  exact unmarked_ite unmarked_none (unmarked_complain rfl)

theorem unmarked_checkCreditCard (params : Members) :
    Unmarked (checkCreditCard library value params) := by
  refine unmarked_bind fun raw => unmarked_ite ?_ (unmarked_complain rfl)
  refine unmarked_bind fun digits => ?_
  exact unmarked_ite (unmarked_complain rfl) unmarked_none

theorem unmarked_checkAmount (params : Members) :
    Unmarked (checkAmount library value params) :=
  unmarked_withFloat rfl fun _ => unmarked_ite (unmarked_complain rfl)
    (unmarked_ite (unmarked_complain rfl) unmarked_none)

theorem unmarked_checkPhoneE164 (params : Members) :
    Unmarked (checkPhoneE164 library value params) :=
  unmarked_bind fun _ => unmarked_ite unmarked_none (unmarked_complain rfl)

theorem unmarked_checkCoordinate {name range : String} {bound : Rat}
    (params : Members) {before : List Char}
    (hrange : range.toList = before ++ [']'])
    (hbefore : endsOff 'g' before = true) :
    Unmarked (checkCoordinate library name bound range value params) := by
  refine unmarked_withFloat rfl fun number => unmarked_ite unmarked_none
    (unmarked_some ?_)
  rw [Marked, String.toList_append, hrange, ← List.append_assoc]
  exact not_marked_bracket (endsOff_append hbefore)

theorem unmarked_checkNif (params : Members) :
    Unmarked (checkNif library value params) := by
  refine unmarked_withText fun text => unmarked_ite ?_ (unmarked_complain rfl)
  refine unmarked_bind fun number => unmarked_bind fun control =>
    unmarked_bind fun last => ?_
  exact unmarked_ite (unmarked_complain rfl) unmarked_none

theorem unmarked_checkNie (params : Members) :
    Unmarked (checkNie library value params) := by
  refine unmarked_withText fun text => unmarked_ite ?_ (unmarked_complain rfl)
  refine unmarked_bind fun letter => unmarked_bind fun initial =>
    unmarked_bind fun number => unmarked_bind fun control =>
    unmarked_bind fun last => ?_
  exact unmarked_ite (unmarked_complain rfl) unmarked_none

theorem unmarked_checkCif (params : Members) :
    Unmarked (checkCif library value params) := by
  refine unmarked_withText fun text => unmarked_ite ?_ (unmarked_complain rfl)
  refine unmarked_bind fun digits => unmarked_bind fun controlLetter =>
    unmarked_bind fun letter => unmarked_bind fun last => ?_
  exact unmarked_ite
    (unmarked_ite (unmarked_complain rfl) unmarked_none)
    (unmarked_ite (unmarked_complain rfl) unmarked_none)

theorem countryOf_eq_ok {params : Members} {default country : String}
    (h : countryOf library params default = .ok country) :
    ∃ text, country = library.upperText text := by
  unfold countryOf at h
  split at h
  · cases h
    exact ⟨_, rfl⟩
  · split at h
    · split at h <;> cases h
      exact ⟨_, rfl⟩
    · cases h
      exact ⟨_, rfl⟩

theorem unmarked_checkPostalCode (hlibrary : library.Documented)
    (params : Members) : Unmarked (checkPostalCode library value params) := by
  refine unmarked_withText fun text => ?_
  intro message hmessage
  obtain ⟨country, hcountry, hmessage⟩ := bind_eq_ok_iff.mp hmessage
  refine unmarked_ite unmarked_none (unmarked_bind fun shown => unmarked_some ?_)
    message hmessage
  obtain ⟨given, rfl⟩ := countryOf_eq_ok hcountry
  have hshown (named : String) :
      Marked (shown ++ (" is not a valid postal code for " ++ named)) ↔
        Marked named := by
    have hsplit : shown ++ (" is not a valid postal code for " ++ named) =
        shown ++ " is not a valid postal code for" ++ " " ++ named := by
      simp [String.append_assoc]
    rw [hsplit, marked_blank_iff]
  rw [hshown]
  split
  · exact not_marked_ofList rfl
  · exact not_marked_of_isLower fun letter =>
      PythonLibrary.isLower_upperText hlibrary

theorem unmarked_checkVatId (params : Members) :
    Unmarked (checkVatId library value params) := by
  refine unmarked_withText fun text => unmarked_bind fun country => ?_
  exact unmarked_ite unmarked_none (unmarked_complain_append rfl)

theorem unmarked_runValidator (hlibrary : library.Documented)
    (type : ValidatorType) (params : Members) :
    Unmarked (runValidator library type value params) := by
  cases type with
  | uri | url => exact unmarked_checkUri params
  | ipv4 | ipv6 | uuid => exact unmarked_checkParsed params rfl
  | date | datetime | time | iso8601 => exact unmarked_checkIso params rfl
  | json => exact unmarked_checkJson params
  | iban => exact unmarked_checkIban params
  | creditCard => exact unmarked_checkCreditCard params
  | amount => exact unmarked_checkAmount params
  | phoneE164 => exact unmarked_checkPhoneE164 params
  | latitude =>
      exact @unmarked_checkCoordinate _ _ _ "[-90, 90]" _ params
        "[-90, 90".toList rfl rfl
  | longitude =>
      exact @unmarked_checkCoordinate _ _ _ "[-180, 180]" _ params
        "[-180, 180".toList rfl rfl
  | postalCode => exact unmarked_checkPostalCode hlibrary params
  | nif => exact unmarked_checkNif params
  | nie => exact unmarked_checkNie params
  | cif => exact unmarked_checkCif params
  | vatId => exact unmarked_checkVatId params
  | domain | currencyCode =>
      exact unmarked_withText fun _ =>
        unmarked_ite unmarked_none (unmarked_complain rfl)
  | email | slug | hexColor | bic | countryCode | languageCode | ssn
  | passportNumber => exact unmarked_checkShape params rfl

end

end ValidatorRegistry

end Flydocs
