import Mathlib.Order.Basic

/-!
# Retried calls

A call is tried again while it raises an exception that the policy retries, up
to a number of attempts.  Once these are used up the caller sees the exception
of the last attempt, if the policy says so, and otherwise a `RetryError`.
-/

namespace Flydocs.Foundation

namespace Retrying

variable {Error Value : Type*}

structure Policy (Error : Type*) where
  retries : Error → Bool
  reraise : Bool

inductive Raised (Error : Type*) where
  | own (error : Error)
  | retryError (last : Error)
  deriving DecidableEq, Repr

/-- An outcome after which the call is tried again, attempts permitting. -/
def Policy.again (policy : Policy Error) : Except Error Value → Bool
  | .ok _ => false
  | .error error => policy.retries error

def Policy.exhausted (policy : Policy Error) (last : Error) : Raised Error :=
  if policy.reraise then .own last else .retryError last

def settled : Except Error Value → Except (Raised Error) Value
  | .ok value => .ok value
  | .error error => .error (.own error)

/-- The attempts from `number` on, at most `left` of them after the first. -/
def call (policy : Policy Error) (attempt : Nat → Except Error Value) :
    Nat → Nat → Except (Raised Error) Value
  | left, number =>
      match attempt number with
      | .ok value => .ok value
      | .error error =>
          if policy.retries error then
            match left with
            | 0 => .error (policy.exhausted error)
            | left + 1 => call policy attempt left (number + 1)
          else .error (.own error)

variable {policy : Policy Error} {attempt : Nat → Except Error Value}

theorem call_of_settled {left number : Nat}
    (h : policy.again (attempt number) = false) :
    call policy attempt left number = settled (attempt number) := by
  unfold call
  cases hattempt : attempt number with
  | ok value => rfl
  | error error =>
      rw [hattempt] at h
      have hretries : policy.retries error = false := h
      simp [hretries, settled]

theorem call_succ_of_again {left number : Nat}
    (h : policy.again (attempt number) = true) :
    call policy attempt (left + 1) number =
      call policy attempt left (number + 1) := by
  rw [call]
  cases hattempt : attempt number with
  | ok value =>
      rw [hattempt] at h
      cases h
  | error error =>
      rw [hattempt] at h
      have hretries : policy.retries error = true := h
      simp [hretries]

theorem call_of_first_settled {left number count : Nat} (hcount : count ≤ left)
    (hagain : ∀ index < count, policy.again (attempt (number + index)) = true)
    (hsettled : policy.again (attempt (number + count)) = false) :
    call policy attempt left number = settled (attempt (number + count)) := by
  induction count generalizing left number with
  | zero => exact call_of_settled hsettled
  | succ count ih =>
      obtain ⟨left, rfl⟩ : ∃ rest, left = rest + 1 :=
        ⟨left - 1, by omega⟩
      have hfirst : policy.again (attempt number) = true :=
        hagain 0 (Nat.zero_lt_succ _)
      rw [call_succ_of_again hfirst]
      have hshift : ∀ index, number + 1 + index = number + (index + 1) := by
        intro index
        omega
      rw [ih (by omega)]
      · rw [hshift]
      · intro index hindex
        rw [hshift]
        exact hagain (index + 1) (by omega)
      · rw [hshift]
        exact hsettled

theorem call_of_exhausted (policy : Policy Error)
    (attempt : Nat → Except Error Value) {left number : Nat}
    (h : ∀ index ≤ left, policy.again (attempt (number + index)) = true) :
    ∃ last, attempt (number + left) = .error last ∧
      call policy attempt left number = .error (policy.exhausted last) := by
  induction left generalizing number with
  | zero =>
      have hagain := h 0 (Nat.le_refl 0)
      rw [Nat.add_zero] at hagain ⊢
      unfold call
      cases hattempt : attempt number with
      | ok value =>
          rw [hattempt] at hagain
          cases hagain
      | error error =>
          rw [hattempt] at hagain
          have hretries : policy.retries error = true := hagain
          exact ⟨error, rfl, by simp [hretries]⟩
  | succ left ih =>
      have hshift : ∀ index, number + 1 + index = number + (index + 1) := by
        intro index
        omega
      have hfirst : policy.again (attempt number) = true := h 0 (Nat.zero_le _)
      rw [call_succ_of_again hfirst, ← hshift]
      refine ih fun index hindex => ?_
      rw [hshift]
      exact h (index + 1) (by omega)

end Retrying

end Flydocs.Foundation
