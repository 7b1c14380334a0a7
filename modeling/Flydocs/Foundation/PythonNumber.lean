import Mathlib.Algebra.Order.Field.Basic
import Mathlib.Algebra.Order.Ring.Rat

/-!
# Python numbers

The conversions between `int` and `float`.  A float is the rational it stands
for.
-/

namespace Flydocs.Foundation

namespace PythonNumber

/-- The nearest number with 53 significant bits, ties to even. -/
def roundToFloat (number : Nat) : Nat :=
  let unit := 2 ^ (number.log2 - 52)
  let quotient := number / unit
  let remainder := number % unit
  let rounded :=
    if unit < 2 * remainder ∨ (2 * remainder = unit ∧ quotient % 2 = 1) then
      quotient + 1
    else quotient
  rounded * unit

@[irreducible] def overflowBound : Nat := 2 ^ 1024

def floatOfInt (number : Int) : Option Rat :=
  let rounded := roundToFloat number.natAbs
  if rounded < overflowBound then some (number.sign * rounded) else none

def truncate (number : Rat) : Int := number.num.tdiv number.den

def roundHalfEven (number : Rat) : Int :=
  let below := number.floor
  let rest := number - below
  if rest < 1 / 2 ∨ (rest = 1 / 2 ∧ below % 2 = 0) then below else below + 1

def roundTo (digits : Nat) (number : Rat) : Rat :=
  roundHalfEven (number * 10 ^ digits) / 10 ^ digits

/-- `int(text)`, of plain digits. -/
def readNat (text : String) : Option Nat :=
  if text ≠ "" ∧ text.toList.all Char.isDigit then
    some (Nat.ofDigitChars 10 text.toList 0)
  else none

theorem pow_le_roundToFloat {bits number : Nat} (hbits : 52 ≤ bits)
    (h : 2 ^ bits ≤ number) : 2 ^ bits ≤ roundToFloat number := by
  have hne : number ≠ 0 := (lt_of_lt_of_le (Nat.two_pow_pos bits) h).ne'
  have hlog : bits ≤ number.log2 := (Nat.le_log2 hne).mpr h
  have hsplit : 2 ^ number.log2 = 2 ^ 52 * 2 ^ (number.log2 - 52) := by
    rw [← Nat.pow_add, Nat.add_sub_cancel' (hbits.trans hlog)]
  have hquotient : 2 ^ 52 ≤ number / 2 ^ (number.log2 - 52) := by
    rw [Nat.le_div_iff_mul_le (Nat.two_pow_pos _), ← hsplit]
    exact Nat.log2_self_le hne
  refine (Nat.pow_le_pow_right (by decide) hlog).trans ?_
  unfold roundToFloat
  rw [hsplit]
  apply Nat.mul_le_mul_right
  split
  · exact Nat.le_succ_of_le hquotient
  · exact hquotient

theorem roundHalfEven_mono {first second : Rat} (h : first ≤ second) :
    roundHalfEven first ≤ roundHalfEven second := by
  have hfloor : first.floor ≤ second.floor := Rat.floor_monotone h
  simp only [roundHalfEven]
  rcases lt_or_eq_of_le hfloor with hlt | heq
  · split <;> split <;> omega
  · have hrest : first - first.floor ≤ second - second.floor := by
      rw [heq]
      exact sub_le_sub_right h _
    simp only [← heq] at hrest ⊢
    split
    · split <;> omega
    · rename_i hup
      rw [if_neg]
      rintro (hless | ⟨hhalf, heven⟩)
      · exact hup (.inl (hrest.trans_lt hless))
      · rw [hhalf] at hrest
        rcases lt_or_eq_of_le hrest with hless | hequal
        · exact hup (.inl hless)
        · exact hup (.inr ⟨hequal, heven⟩)

@[simp] theorem roundHalfEven_intCast (number : Int) :
    roundHalfEven number = number := by
  simp [roundHalfEven]

theorem roundTo_div_pow (digits : Nat) (units : Int) :
    roundTo digits (units / 10 ^ digits) = units / 10 ^ digits := by
  have hpow : (10 : Rat) ^ digits ≠ 0 := pow_ne_zero _ (by decide)
  rw [roundTo, div_mul_cancel₀ _ hpow, roundHalfEven_intCast]

@[simp] theorem roundTo_zero (digits : Nat) : roundTo digits 0 = 0 := by
  simpa using roundTo_div_pow digits 0

@[simp] theorem roundTo_one (digits : Nat) : roundTo digits 1 = 1 := by
  have hpow : (10 : Rat) ^ digits ≠ 0 := pow_ne_zero _ (by decide)
  have h := roundTo_div_pow digits (10 ^ digits)
  rw [Int.cast_pow, Int.cast_ofNat, div_self hpow] at h
  exact h

theorem roundTo_mono {digits : Nat} {first second : Rat}
    (h : first ≤ second) : roundTo digits first ≤ roundTo digits second := by
  have hpow : (0 : Rat) < 10 ^ digits := pow_pos (by decide) _
  unfold roundTo
  rw [div_le_div_iff_of_pos_right hpow]
  exact_mod_cast roundHalfEven_mono (mul_le_mul_of_nonneg_right h hpow.le)

theorem overflowBound_eq :
    ∃ bits, 52 ≤ bits ∧ bits ≤ 1024 ∧ overflowBound = 2 ^ bits :=
  ⟨1024, by omega, le_rfl, by unfold overflowBound; rfl⟩

theorem natAbs_lt_of_floatOfInt {number : Int} {value : Rat}
    (h : floatOfInt number = some value) : number.natAbs < overflowBound := by
  obtain ⟨bits, hbits, -, hbound⟩ := overflowBound_eq
  by_contra hlarge
  have hkept : overflowBound ≤ roundToFloat number.natAbs := by
    rw [hbound] at hlarge ⊢
    exact pow_le_roundToFloat hbits (not_lt.mp hlarge)
  simp [floatOfInt, not_lt.mpr hkept] at h

example : roundToFloat (2 ^ 53 + 1) = 2 ^ 53 := by decide

end PythonNumber

end Flydocs.Foundation
