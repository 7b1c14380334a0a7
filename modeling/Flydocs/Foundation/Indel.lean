import Mathlib.Algebra.Order.Field.Basic
import Mathlib.Algebra.Order.Field.Rat

/-!
# Normalised indel similarity

Twice the length of a longest common subsequence, as a share of both lengths:
100 for equal lists and 0 for lists that have nothing in common.
-/

namespace Flydocs.Foundation

variable {Letter : Type*} [DecidableEq Letter]

def commonLength : List Letter → List Letter → Nat
  | [], _ => 0
  | _, [] => 0
  | letter :: first, other :: second =>
      if letter = other then commonLength first second + 1
      else
        max (commonLength (letter :: first) second)
          (commonLength first (other :: second))
termination_by first second => first.length + second.length

def indelRatio (first second : List Letter) : Rat :=
  let lengths := first.length + second.length
  if lengths = 0 then 100
  else 100 * ((2 * commonLength first second : Nat) / (lengths : Nat))

theorem commonLength_le (first second : List Letter) :
    commonLength first second ≤ first.length ∧
      commonLength first second ≤ second.length := by
  fun_induction commonLength first second with
  | case1 | case2 => simp
  | case3 letter first second ih =>
      simp only [List.length_cons]
      omega
  | case4 letter first other second hne ihSecond ihFirst =>
      simp only [List.length_cons] at ihSecond ihFirst ⊢
      omega

theorem commonLength_self (letters : List Letter) :
    commonLength letters letters = letters.length := by
  induction letters with
  | nil => simp [commonLength]
  | cons letter letters ih => simp [commonLength, ih]

theorem commonLength_lt {first second : List Letter} (h : first ≠ second) :
    2 * commonLength first second < first.length + second.length := by
  fun_induction commonLength first second with
  | case1 second =>
      have hlength : second.length ≠ 0 := by
        simpa [List.length_eq_zero_iff, eq_comm] using h
      simp only [List.length_nil]
      omega
  | case2 first =>
      have hlength : first.length ≠ 0 := by
        simpa [List.length_eq_zero_iff] using h
      simp only [List.length_nil]
      omega
  | case3 letter first second ih =>
      have hrest := ih (by simpa using h)
      simp only [List.length_cons]
      omega
  | case4 letter first other second hne ihSecond ihFirst =>
      have hsecond := commonLength_le (letter :: first) second
      have hfirst := commonLength_le first (other :: second)
      simp only [List.length_cons] at hsecond hfirst ⊢
      omega

theorem indelRatio_self (letters : List Letter) :
    indelRatio letters letters = 100 := by
  unfold indelRatio
  simp only
  split
  · rfl
  · rename_i hlength
    have hne : ((letters.length + letters.length : Nat) : Rat) ≠ 0 := by
      exact_mod_cast hlength
    rw [commonLength_self, two_mul, div_self hne, mul_one]

theorem indelRatio_nonneg (first second : List Letter) :
    0 ≤ indelRatio first second := by
  unfold indelRatio
  simp only
  split
  · decide
  · exact mul_nonneg (by decide) (div_nonneg (Nat.cast_nonneg _)
      (Nat.cast_nonneg _))

theorem indelRatio_le_of_ne {first second : List Letter}
    (h : first ≠ second) :
    indelRatio first second ≤
      100 - 100 / ((first.length + second.length : Nat) : Rat) := by
  have hlt := commonLength_lt h
  have hpos : (0 : Rat) < ((first.length + second.length : Nat) : Rat) := by
    exact_mod_cast (by omega : 0 < first.length + second.length)
  have hle : ((2 * commonLength first second : Nat) : Rat) ≤
      ((first.length + second.length : Nat) : Rat) - 1 := by
    have hsucc : 2 * commonLength first second + 1 ≤
        first.length + second.length := hlt
    have hcast : ((2 * commonLength first second : Nat) : Rat) + 1 ≤
        ((first.length + second.length : Nat) : Rat) := by exact_mod_cast hsucc
    exact le_sub_iff_add_le.mpr hcast
  unfold indelRatio
  simp only
  rw [if_neg (by omega)]
  calc (100 : Rat) * (((2 * commonLength first second : Nat) : Rat) /
        ((first.length + second.length : Nat) : Rat))
      ≤ 100 * ((((first.length + second.length : Nat) : Rat) - 1) /
          ((first.length + second.length : Nat) : Rat)) :=
        mul_le_mul_of_nonneg_left (div_le_div_of_nonneg_right hle hpos.le)
          (by decide)
    _ = 100 - 100 / ((first.length + second.length : Nat) : Rat) := by
        rw [sub_div, div_self hpos.ne', mul_sub, mul_one, mul_one_div]

theorem indelRatio_lt_of_ne {first second : List Letter}
    (h : first ≠ second) : indelRatio first second < 100 := by
  have hlt := commonLength_lt h
  refine (indelRatio_le_of_ne h).trans_lt (sub_lt_self _ ?_)
  exact div_pos (by decide)
    (by exact_mod_cast (by omega : 0 < first.length + second.length))

end Flydocs.Foundation
