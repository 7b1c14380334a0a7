import Mathlib.Tactic.Ring
import Flydocs.Foundation.PythonNumber

/-!
# Integers that a float holds exactly

An integer goes through `float` and back unchanged exactly when it has at most
53 significant bits and lies below the overflow bound.
-/

namespace Flydocs.Foundation

namespace PythonNumber

def Significant (number : Nat) : Prop :=
  ∃ significand exponent, significand < 2 ^ 53 ∧
    number = significand * 2 ^ exponent

def IsFloat (number : Int) : Prop :=
  Significant number.natAbs ∧ number.natAbs < overflowBound

theorem lt_significand_mul_unit (number : Nat) :
    number < 2 ^ 53 * 2 ^ (number.log2 - 52) := by
  have hlog : number < 2 ^ (number.log2 + 1) := Nat.lt_log2_self
  rw [← Nat.pow_add]
  exact hlog.trans_le (Nat.pow_le_pow_right (by decide) (by omega))

theorem unit_dvd {significand exponent : Nat} (h : significand < 2 ^ 53) :
    2 ^ ((significand * 2 ^ exponent).log2 - 52) ∣
      significand * 2 ^ exponent := by
  by_cases hzero : significand * 2 ^ exponent = 0
  · rw [hzero]
    exact dvd_zero _
  · have hlog : (significand * 2 ^ exponent).log2 < 53 + exponent := by
      rw [Nat.log2_lt hzero, Nat.pow_add]
      exact Nat.mul_lt_mul_of_pos_right h (Nat.two_pow_pos _)
    exact Dvd.dvd.mul_left (Nat.pow_dvd_pow 2 (by omega)) _

theorem roundToFloat_eq_self_iff {number : Nat} :
    roundToFloat number = number ↔ Significant number := by
  constructor
  · intro h
    refine ⟨_, number.log2 - 52, ?_, h.symm⟩
    refine Nat.lt_of_mul_lt_mul_right (a := 2 ^ (number.log2 - 52)) ?_
    exact lt_of_eq_of_lt h (lt_significand_mul_unit number)
  · rintro ⟨significand, exponent, hsignificand, rfl⟩
    have hdvd := @unit_dvd significand exponent hsignificand
    have hunit := Nat.two_pow_pos
      ((significand * 2 ^ exponent).log2 - 52)
    unfold roundToFloat
    dsimp only
    rw [Nat.mod_eq_zero_of_dvd hdvd, if_neg (by omega),
      Nat.div_mul_cancel hdvd]

@[simp] theorem truncate_intCast (number : Int) :
    truncate number = number := by
  simp [truncate]

theorem truncate_floatOfInt {number : Int} {value : Rat}
    (h : floatOfInt number = some value) :
    truncate value = number.sign * roundToFloat number.natAbs := by
  unfold floatOfInt at h
  dsimp only at h
  split at h
  · obtain rfl := Option.some.inj h
    exact_mod_cast truncate_intCast
      (number.sign * roundToFloat number.natAbs)
  · cases h

theorem sign_mul_eq_self_iff {number : Int} {magnitude : Nat}
    (hzero : number = 0 → magnitude = 0) :
    number.sign * magnitude = number ↔ magnitude = number.natAbs := by
  rcases lt_trichotomy number 0 with hneg | rfl | hpos
  · rw [Int.sign_eq_neg_one_of_neg hneg]
    omega
  · simp [hzero rfl]
  · rw [Int.sign_eq_one_of_pos hpos]
    omega

theorem truncate_floatOfInt_iff {number : Int} :
    (∃ value, floatOfInt number = some value ∧ truncate value = number) ↔
      IsFloat number := by
  have hzero : number = 0 → roundToFloat number.natAbs = 0 := by
    rintro rfl
    rfl
  have hsame := sign_mul_eq_self_iff hzero
  rw [roundToFloat_eq_self_iff] at hsame
  constructor
  · rintro ⟨value, hvalue, htruncate⟩
    rw [truncate_floatOfInt hvalue] at htruncate
    exact ⟨hsame.mp htruncate, natAbs_lt_of_floatOfInt hvalue⟩
  · rintro ⟨hsignificant, hbound⟩
    have hfloat : floatOfInt number =
        some ((number.sign : Rat) * roundToFloat number.natAbs) := by
      rw [floatOfInt, roundToFloat_eq_self_iff.mpr hsignificant]
      exact if_pos hbound
    exact ⟨_, hfloat, (truncate_floatOfInt hfloat).trans
      (hsame.mpr hsignificant)⟩

theorem isFloat_of_lt {number : Int} (h : number.natAbs < 2 ^ 53) :
    IsFloat number := by
  have hbound : ∀ bits, 53 < bits → 2 ^ 53 < 2 ^ bits := fun bits hbits =>
    Nat.pow_lt_pow_right (by decide) hbits
  refine ⟨⟨number.natAbs, 0, h, (Nat.mul_one _).symm⟩, h.trans ?_⟩
  delta overflowBound
  exact hbound _ (by decide)

example : ¬ Significant (2 ^ 53 + 1) := by
  rw [← roundToFloat_eq_self_iff]
  decide

end PythonNumber

end Flydocs.Foundation
