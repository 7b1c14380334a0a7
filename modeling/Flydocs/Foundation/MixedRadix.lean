import Mathlib.Data.Nat.ModEq
import Mathlib.Data.Nat.Prime.Int
import Mathlib.Tactic.Ring

/-!
# Numbers written in mixed bases

Every place of a numeral has a base of its own.  A change of one place, or of
two that trade their values, changes the number by the difference of two values
times a factor, and a prime that divides no such factor tells the two apart.
-/

namespace Flydocs.Foundation

namespace MixedRadix

structure Place where
  base : Nat
  value : Nat
  deriving DecidableEq, Repr

def number (places : List Place) : Nat :=
  places.foldl (fun total place => total * place.base + place.value) 0

def weight (places : List Place) : Nat := (places.map Place.base).prod

@[simp] theorem number_nil : number [] = 0 := rfl

@[simp] theorem weight_nil : weight [] = 1 := rfl

@[simp] theorem weight_cons (place : Place) (places : List Place) :
    weight (place :: places) = place.base * weight places := by
  simp [weight]

theorem foldl_eq (places : List Place) (total : Nat) :
    places.foldl (fun total place => total * place.base + place.value) total =
      total * weight places + number places := by
  induction places generalizing total with
  | nil => simp [number]
  | cons place places ih =>
      have hcons : number (place :: places) =
          place.value * weight places + number places := by
        rw [number, List.foldl_cons, ih, Nat.zero_mul, Nat.zero_add]
      rw [List.foldl_cons, ih, weight_cons, hcons]
      ring

theorem number_append (before after : List Place) :
    number (before ++ after) = number before * weight after + number after := by
  rw [number, List.foldl_append, foldl_eq]
  rfl

theorem number_cons (place : Place) (places : List Place) :
    number (place :: places) =
      place.value * weight places + number places := by
  rw [number, List.foldl_cons, foldl_eq]
  simp

/-! ## Errors -/

section

variable (before after middle : List Place) {first second : Place}

theorem replace_sub (hbase : first.base = second.base) :
    (number (before ++ first :: after) : Int) -
        number (before ++ second :: after) =
      ((first.value : Int) - second.value) * weight after := by
  rw [number_append, number_append, number_cons, number_cons, weight_cons,
    weight_cons, hbase]
  push_cast
  ring

theorem swap_sub (hbase : first.base = second.base) :
    (number (before ++ first :: second :: after) : Int) -
        number (before ++ second :: first :: after) =
      ((first.value : Int) - second.value) *
        (((second.base : Int) - 1) * weight after) := by
  simp only [number_append, number_cons, weight_cons, hbase]
  push_cast
  ring

theorem swap_ends_sub (hbase : first.base = second.base) :
    (number (first :: (middle ++ [second])) : Int) -
        number (second :: (middle ++ [first])) =
      ((first.value : Int) - second.value) *
        ((second.base * weight middle : Nat) - 1) := by
  have hweight : ∀ place : Place,
      weight (middle ++ [place]) = weight middle * place.base := by
    intro place
    simp [weight]
  simp only [number_cons, number_append, hweight, weight_cons, weight_nil,
    hbase, number_nil]
  push_cast
  ring

end

theorem eq_of_mod_eq {prime : Nat} (hprime : prime.Prime) {left right : Nat}
    {first second : Nat} (hfirst : first < prime) (hsecond : second < prime)
    {factor : Int} (hfactor : ¬ (prime : Int) ∣ factor)
    (hsub : (left : Int) - right = ((first : Int) - second) * factor)
    (hmod : left % prime = right % prime) : first = second := by
  have hdvd : (prime : Int) ∣ ((first : Int) - second) * factor := by
    rw [← hsub]
    exact Nat.modEq_iff_dvd.mp (Nat.ModEq.symm hmod)
  rcases (Nat.prime_iff_prime_int.mp hprime).dvd_or_dvd hdvd with h | h
  · have hsame : first ≡ second [MOD prime] :=
      (Nat.modEq_iff_dvd.mpr h).symm
    rwa [Nat.ModEq, Nat.mod_eq_of_lt hfirst, Nat.mod_eq_of_lt hsecond] at hsame
  · exact absurd h hfactor

end MixedRadix

end Flydocs.Foundation
