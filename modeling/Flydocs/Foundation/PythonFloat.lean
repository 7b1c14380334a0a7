import Flydocs.Foundation.PythonNumber

/-!
# Python floats

Doubles with their rounding, their infinities and the value that is no number.
The sum is the compensated one that Python takes of a list.
-/

namespace Flydocs.Foundation

namespace PythonFloat

open Float.Model

def unpacked (number : Int) : UnpackedFloat :=
  if hpos : 0 < number.natAbs then
    .finite (if number < 0 then .negative else .positive) number.natAbs 0 hpos
  else .zero .positive

/-- The nearest double; an infinity past the largest one. -/
def ofRat (number : Rat) : Float :=
  .ofModel (pack (UnpackedFloat.div Format.binary64 (unpacked number.num)
    (unpacked number.den)))

def toRat (number : Float) : Option Rat :=
  match number.toModel.unpack with
  | .zero _ => some 0
  | .finite sign mantissa exponent _ =>
      let size : Rat :=
        if 0 ≤ exponent then mantissa * 2 ^ exponent.toNat
        else mantissa / 2 ^ (-exponent).toNat
      some (match sign with
        | .positive => size
        | .negative => -size)
  | .infinity _ | .notANumber => none

def roundTo (digits : Nat) (number : Float) : Float :=
  match toRat number with
  | some value => ofRat (PythonNumber.roundTo digits value)
  | none => number

def magnitude (number : Float) : Float := if number < 0 then -number else number

/-- One addition, and what all the additions lost to rounding. -/
def addCompensated (sums : Float × Float) (number : Float) : Float × Float :=
  let total := sums.1 + number
  let lost :=
    if magnitude number ≤ magnitude sums.1 then (sums.1 - total) + number
    else (number - total) + sums.1
  (total, sums.2 + lost)

def sum : List Float → Float
  | [] => 0
  | first :: rest =>
      let (total, lost) := rest.foldl addCompensated (0 + first, 0)
      if lost != 0 && lost.isFinite then total + lost else total

example : sum [ofRat (1 / 10), ofRat (2 / 10), ofRat (-3 / 10)] =
    ofRat (1 / 2 ^ 55) := by
  decide +kernel

/-! ## Comparing -/

theorem then_swap (first second : Nat × Int) :
    (compare second.2 first.2).then (compare second.1 first.1) =
      ((compare first.2 second.2).then
        (compare first.1 second.1)).swap := by
  rw [Ordering.swap_then, Int.compare_swap, Nat.compare_swap]

theorem compare_swap (first second : UnpackedFloat) :
    second.compare first = (first.compare second).map Ordering.swap := by
  cases first with
  | infinity sign =>
      cases sign <;> cases second with
      | infinity other => cases other <;> rfl
      | _ => rfl
  | notANumber => cases second <;> rfl
  | zero sign =>
      cases second with
      | infinity other | finite other => cases other <;> rfl
      | _ => rfl
  | finite sign mantissa exponent =>
      cases sign <;> cases second with
      | infinity other => cases other <;> rfl
      | finite other mantissa' exponent' =>
          have hswap := then_swap (mantissa, exponent) (mantissa', exponent')
          cases other with
          | positive => first | rfl | exact congrArg some hswap
          | negative =>
              first
              | rfl
              | exact congrArg (fun order => some (Ordering.swap order)) hswap
      | _ => rfl

theorem lt_iff {first second : Float} :
    first < second ↔
      first.toModel.unpack.compare second.toModel.unpack = some .lt := by
  change decide (first.toModel < second.toModel) = true ↔ _
  rw [decide_eq_true_iff]
  change (first.toModel.unpack.compare second.toModel.unpack == some .lt) =
    true ↔ _
  rw [beq_iff_eq]

theorem le_iff {first second : Float} :
    first ≤ second ↔
      (first.toModel.unpack.compare second.toModel.unpack).any
        (·.isLE) = true := by
  change decide (first.toModel ≤ second.toModel) = true ↔ _
  rw [decide_eq_true_iff]
  rfl

theorem not_lt_of_le {first second : Float} (h : first ≤ second) :
    ¬ second < first := by
  rw [le_iff] at h
  rw [lt_iff, compare_swap]
  cases hcompare : first.toModel.unpack.compare second.toModel.unpack with
  | none => simp
  | some order =>
      rw [hcompare] at h
      cases order with
      | lt => decide
      | eq => decide
      | gt => cases h

end PythonFloat

end Flydocs.Foundation
