import Mathlib.Algebra.Group.Int.Defs
import Mathlib.Data.List.Infix
import Flydocs.Config

/-!
# The retry policy of the two workers

Both workers sort a caught exception into permanent and retryable and space
retries by a capped exponential delay with jitter.
-/

namespace Flydocs

/--
What a handler reads off a caught exception; `loweredMessage` is
`str(exc).lower()`.
-/
structure Failure where
  isValueError : Bool
  isTypeError : Bool
  message : String
  loweredMessage : String
  deriving DecidableEq, Repr

namespace Failure

def permanentErrorHints : List String :=
  ["content policy", "content_filter", "moderation", "invalid api key",
    "incorrect api key", "unsupported model", "model_not_found",
    "input_validation_error", "invalid_request_error"]

def isPermanent (failure : Failure) : Bool :=
  failure.isValueError || failure.isTypeError ||
    permanentErrorHints.any fun hint =>
      decide (hint.toList <:+: failure.loweredMessage.toList)

end Failure

namespace IDPSettings

def cappedDelay (settings : IDPSettings) (attempts : Nat) : Int :=
  min settings.retryMaxDelay (settings.retryBaseDelay * 2 ^ (attempts - 1))

/-- `capped * 0.2 * random.random()` lies between zero and a fifth. -/
def jitterAllowed (settings : IDPSettings) (attempts : Nat)
    (jitter : Int) : Bool :=
  decide (min 0 (settings.cappedDelay attempts) ≤ 5 * jitter) &&
    decide (5 * jitter ≤ max 0 (settings.cappedDelay attempts))

def backoffDelay (settings : IDPSettings) (attempts : Nat)
    (jitter : Int) : Int :=
  settings.cappedDelay attempts + jitter

end IDPSettings

end Flydocs
