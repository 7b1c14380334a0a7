import Mathlib.Algebra.Order.Ring.Rat
import Flydocs.Foundation.Dictionary
import Flydocs.Pipeline.Context

/-!
# The visual checks of a document

`VisualAuthenticityChecker.check` asks a model about the declared checks of a
document type and reads its answer by their names: each check has one outcome,
in the declared order, and a check that the model leaves out has failed.
-/

namespace Flydocs

open Foundation Interfaces

structure RawVisualValidation where
  name : String
  passed : Bool := false
  confidence : Rat := 0
  notes : String := ""
  confidence_nonneg : 0 ≤ confidence := by decide +kernel
  confidence_le_one : confidence ≤ 1 := by decide +kernel

namespace VisualAuthenticityChecker

def outcome (raws : List RawVisualValidation) (spec : VisualCheck) :
    VisualCheckResult :=
  match lookupLast RawVisualValidation.name raws spec.name with
  | none => { name := spec.name, passed := false, notes := some "Not evaluated" }
  | some raw =>
      { name := raw.name, passed := raw.passed, confidence := raw.confidence
        notes := some raw.notes }

/-- The second argument is what the model answers for the document. -/
def check (doc : DocumentTypeSpec)
    (answer : Except Failure (List RawVisualValidation)) :
    Except Failure (List VisualCheckResult) :=
  if doc.visualChecks = [] then .ok []
  else answer.map fun raws => doc.visualChecks.map (outcome raws)

end VisualAuthenticityChecker

end Flydocs
