import Mathlib.Data.Fin.Basic
import Mathlib.Data.List.Basic

/-!
# The Luhn code

Every other digit counts double, from the right, and a double above nine counts
as the sum of its digits.  A word of the code has a sum that ends in zero.
-/

namespace Flydocs.Foundation

namespace Luhn

/-- The sum of the digits of the double of a digit. -/
def doubled (digit : Fin 10) : Nat := digit * 2 / 10 + digit * 2 % 10

/-- The sum of digits that are given from right to left. -/
def sumFromRight : List (Fin 10) → Nat
  | [] => 0
  | [digit] => digit
  | digit :: next :: digits => digit + doubled next + sumFromRight digits

def counted (behind : Nat) (digit : Fin 10) : Nat :=
  if behind % 2 = 1 then doubled digit else digit

def sum : List (Fin 10) → Nat
  | [] => 0
  | digit :: digits => counted digits.length digit + sum digits

theorem sumFromRight_concat (digits : List (Fin 10)) (digit : Fin 10) :
    sumFromRight (digits ++ [digit]) =
      sumFromRight digits + counted digits.length digit := by
  induction digits using sumFromRight.induct with
  | case1 => simp [sumFromRight, counted]
  | case2 first => simp [sumFromRight, counted]
  | case3 first next digits ih =>
      have hcounted : counted (digits.length + 1 + 1) digit =
          counted digits.length digit := by
        simp [counted, Nat.add_assoc]
      simp only [List.cons_append, sumFromRight, ih, List.length_cons, hcounted]
      omega

theorem sumFromRight_reverse (digits : List (Fin 10)) :
    sumFromRight digits.reverse = sum digits := by
  induction digits with
  | nil => rfl
  | cons digit digits ih =>
      rw [List.reverse_cons, sumFromRight_concat, ih, List.length_reverse, sum,
        Nat.add_comm]

theorem exists_sum_append (before : List (Fin 10)) (behind : Nat) :
    ∃ total, ∀ after : List (Fin 10), after.length = behind →
      sum (before ++ after) = total + sum after := by
  induction before with
  | nil => exact ⟨0, fun after _ => by simp⟩
  | cons digit before ih =>
      obtain ⟨total, htotal⟩ := ih
      refine ⟨counted (before.length + behind) digit + total,
        fun after hafter => ?_⟩
      rw [List.cons_append, sum, htotal after hafter, List.length_append,
        hafter]
      omega

/-! ## Errors -/

/-- Doubling permutes the digits. -/
theorem counted_mod_inj {behind : Nat} {first second : Fin 10}
    (h : counted behind first % 10 = counted behind second % 10) :
    first = second := by
  unfold counted at h
  split at h
  · revert first second
    decide
  · rw [Nat.mod_eq_of_lt first.isLt, Nat.mod_eq_of_lt second.isLt] at h
    exact Fin.ext h

theorem replace_mod_iff (before after : List (Fin 10)) {first second : Fin 10} :
    sum (before ++ first :: after) % 10 = sum (before ++ second :: after) % 10 ↔
      first = second := by
  obtain ⟨total, htotal⟩ := exists_sum_append before (after.length + 1)
  rw [htotal _ rfl, htotal _ rfl, sum, sum]
  constructor
  · intro h
    exact @counted_mod_inj after.length _ _ (by omega)
  · rintro rfl
    rfl

theorem swap_mod_iff (before after : List (Fin 10)) {first second : Fin 10} :
    sum (before ++ first :: second :: after) % 10 =
        sum (before ++ second :: first :: after) % 10 ↔
      first = second ∨ first = 0 ∧ second = 9 ∨ first = 9 ∧ second = 0 := by
  have hpair : ∀ first second : Fin 10,
      (doubled first + second) % 10 = (doubled second + first) % 10 ↔
        first = second ∨ first = 0 ∧ second = 9 ∨ first = 9 ∧ second = 0 := by
    decide
  obtain ⟨total, htotal⟩ := exists_sum_append before (after.length + 2)
  rw [htotal _ rfl, htotal _ rfl, ← hpair]
  simp only [sum, List.length_cons]
  rcases Nat.mod_two_eq_zero_or_one after.length with heven | hodd
  · have hnext : (after.length + 1) % 2 = 1 := by omega
    simp only [counted, heven, hnext]
    simp
    omega
  · have hnext : (after.length + 1) % 2 = 0 := by omega
    simp only [counted, hodd, hnext]
    simp
    omega

end Luhn

end Flydocs.Foundation
