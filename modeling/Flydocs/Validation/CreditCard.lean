import Flydocs.Foundation.Luhn
import Flydocs.Validation.Totality

/-!
# Credit card numbers

The checksum goes from left to right and takes the parity from the length.  It
is the Luhn sum for every length, so the verdict finds the errors that the Luhn
code finds.
-/

namespace Flydocs

open Foundation Dtos JsonValue

namespace ValidatorRegistry

/-- The digits of a text, in any script and whatever stands between them. -/
def digitsOf (library : PythonLibrary) (text : String) : List (Fin 10) :=
  text.toList.filterMap library.digit

variable {library : PythonLibrary}

/-! ## The checksum -/

theorem counted_eq (behind : Nat) (digit : Fin 10) :
    Luhn.counted behind digit =
      if behind % 2 = 1 then
        if 9 < digit.val * 2 then digit.val * 2 - 9 else digit.val * 2
      else digit.val := by
  have hdoubled : ∀ digit : Fin 10, Luhn.doubled digit =
      if 9 < digit.val * 2 then digit.val * 2 - 9 else digit.val * 2 := by
    decide
  rw [Luhn.counted, hdoubled]

theorem sum_zipIdx (digits : List (Fin 10)) (start parity : Nat)
    (hparity : parity = (start + digits.length) % 2) :
    (((digits.map Fin.val).zipIdx start).map fun (digit, index) =>
      if index % 2 = parity then
        if 9 < digit * 2 then digit * 2 - 9 else digit * 2
      else digit).sum = Luhn.sum digits := by
  induction digits generalizing start with
  | nil => rfl
  | cons digit digits ih =>
      rw [List.length_cons] at hparity
      have hbehind : start % 2 = parity ↔ digits.length % 2 = 1 := by omega
      rw [List.map_cons, List.zipIdx_cons, List.map_cons, List.sum_cons,
        ih (start + 1) (by omega), Luhn.sum, counted_eq]
      simp only [hbehind]

theorem luhnChecksum_eq (digits : List (Fin 10)) :
    luhnChecksum (digits.map Fin.val) = Luhn.sum digits :=
  sum_zipIdx digits 0 _ (by simp)

/-! ## The verdict -/

theorem intOfChar_eq {char : Char} {digit : Fin 10}
    (h : library.digit char = some digit) :
    intOfChar library char = .ok digit.val := by
  simp [intOfChar, PythonLibrary.intOfDigits, PythonLibrary.isDecimal, h]

theorem mapM_intOfChar (chars : List Char) :
    (chars.filter library.isDecimal).mapM (intOfChar library) =
      .ok ((chars.filterMap library.digit).map Fin.val) := by
  rw [mapM_eq_ok_iff, List.forall₂_map_right_iff]
  induction chars with
  | nil => exact .nil
  | cons char chars ih =>
      cases hdigit : library.digit char with
      | none => simpa [PythonLibrary.isDecimal, hdigit] using ih
      | some digit =>
          simpa [PythonLibrary.isDecimal, hdigit] using
            ⟨intOfChar_eq hdigit, ih⟩

theorem length_filter_isDecimal (chars : List Char) :
    (chars.filter library.isDecimal).length =
      (chars.filterMap library.digit).length := by
  rw [← List.countP_eq_length_filter, List.length_filterMap_eq_countP]
  rfl

theorem checkCreditCard_of_length {text : String} {params : Members}
    (hlow : 13 ≤ (digitsOf library text).length)
    (hhigh : (digitsOf library text).length ≤ 19) :
    checkCreditCard library (.str text) params =
      if Luhn.sum (digitsOf library text) % 10 ≠ 0 then
        complain library (.str text) " fails the Luhn checksum"
      else .ok none := by
  have hlength := @length_filter_isDecimal library text.toList
  rw [digitsOf] at hlow hhigh
  rw [← hlength] at hlow hhigh
  rw [checkCreditCard]
  change (if _ then _ else _) = _
  rw [if_pos ⟨hlow, hhigh⟩, mapM_intOfChar]
  change (if luhnChecksum _ % 10 ≠ 0 then _ else _) = _
  rw [luhnChecksum_eq]
  rfl

theorem accepts_checkCreditCard_iff {text : String}
    (hlow : 13 ≤ (digitsOf library text).length)
    (hhigh : (digitsOf library text).length ≤ 19) :
    Accepts (checkCreditCard library) text ↔
      Luhn.sum (digitsOf library text) % 10 = 0 := by
  have hcheck := fun params => @checkCreditCard_of_length library text params
    hlow hhigh
  constructor
  · intro haccepts
    by_contra hne
    have hnone := haccepts []
    rw [hcheck, if_pos hne] at hnone
    exact not_complain_eq_none hnone
  · intro hzero params
    rw [hcheck, if_neg (not_not.mpr hzero)]

theorem rejects_checkCreditCard_iff {text : String}
    (hlow : 13 ≤ (digitsOf library text).length)
    (hhigh : (digitsOf library text).length ≤ 19) :
    Rejects (checkCreditCard library) text ↔
      Luhn.sum (digitsOf library text) % 10 ≠ 0 := by
  have hcheck := fun params => @checkCreditCard_of_length library text params
    hlow hhigh
  constructor
  · intro hrejects hzero
    obtain ⟨complaint, hcomplaint⟩ := hrejects []
    rw [hcheck, if_neg (not_not.mpr hzero)] at hcomplaint
    cases hcomplaint
  · intro hne
    refine rejects_of_ne (fun params =>
      (succeeds_checkCreditCard_iff params).mpr trivial) fun params hnone => ?_
    rw [hcheck, if_pos hne] at hnone
    exact not_complain_eq_none hnone

/-- The verdict is that of the Luhn code, which finds every change of one digit
and every exchange of two neighbours but `0` and `9`. -/
theorem credit_card_is_luhn {text : String}
    (hlow : 13 ≤ (digitsOf library text).length)
    (hhigh : (digitsOf library text).length ≤ 19) :
    (Accepts (checkCreditCard library) text ↔
      Luhn.sumFromRight (digitsOf library text).reverse % 10 = 0) ∧
    (¬ Accepts (checkCreditCard library) text →
      Rejects (checkCreditCard library) text) ∧
    (Accepts (checkCreditCard library) text →
      ∀ (other : String) (before after : List (Fin 10)) (first second : Fin 10),
        first ≠ second →
        (digitsOf library text = before ++ first :: after →
          digitsOf library other = before ++ second :: after →
          Rejects (checkCreditCard library) other) ∧
        (digitsOf library text = before ++ first :: second :: after →
          digitsOf library other = before ++ second :: first :: after →
          (Rejects (checkCreditCard library) other ↔
            ¬ (first = 0 ∧ second = 9 ∨ first = 9 ∧ second = 0)))) := by
  refine ⟨?_, fun h => ?_, fun haccepts other before after first second hne =>
    ⟨fun htext hother => ?_, fun htext hother => ?_⟩⟩
  · rw [Luhn.sumFromRight_reverse, accepts_checkCreditCard_iff hlow hhigh]
  · rwa [rejects_checkCreditCard_iff hlow hhigh, Ne,
      ← accepts_checkCreditCard_iff hlow hhigh]
  · rw [accepts_checkCreditCard_iff hlow hhigh, htext] at haccepts
    have hlength : (digitsOf library other).length =
        (digitsOf library text).length := by simp [htext, hother]
    rw [rejects_checkCreditCard_iff (hlength ▸ hlow) (hlength ▸ hhigh), hother,
      ← haccepts, Ne, eq_comm, Luhn.replace_mod_iff]
    exact hne
  · rw [accepts_checkCreditCard_iff hlow hhigh, htext] at haccepts
    have hlength : (digitsOf library other).length =
        (digitsOf library text).length := by simp [htext, hother]
    rw [rejects_checkCreditCard_iff (hlength ▸ hlow) (hlength ▸ hhigh), hother,
      ← haccepts, Ne, eq_comm, Luhn.swap_mod_iff, or_iff_right hne]

theorem credit_card_is_luhn_card :
    Accepts (checkCreditCard .ascii) "4111 1111-1111 1111" ∧
      Rejects (checkCreditCard .ascii) "4111.1111.1111.1112" := by
  have h := @credit_card_is_luhn .ascii "4111 1111-1111 1111" (by decide)
    (by decide)
  have haccepts : Accepts (checkCreditCard .ascii) "4111 1111-1111 1111" :=
    h.1.mpr (by decide)
  exact ⟨haccepts, (h.2.2 haccepts "4111.1111.1111.1112"
    [4, 1, 1, 1, 1, 1, 1, 1, 1, 1, 1, 1, 1, 1, 1] [] 1 2 (by decide)).1
      (by decide) (by decide)⟩

end ValidatorRegistry

end Flydocs
