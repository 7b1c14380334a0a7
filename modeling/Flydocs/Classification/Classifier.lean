import Mathlib.Algebra.Order.Ring.Rat
import Flydocs.Foundation.Dictionary
import Flydocs.Foundation.PythonText
import Flydocs.Pipeline.Context

/-!
# The document classifier

`DocumentClassifier.classify` asks a model which of the declared types a segment
has.  Only a declared id passes; any other answer becomes `unmatched`.
-/

namespace Flydocs

open Foundation Interfaces

structure ClassifierOutput where
  documentType : String := UNMATCHED
  confidence : Rat := 0
  description : String := ""
  notes : String := ""
  confidence_nonneg : 0 ≤ confidence := by decide +kernel
  confidence_le_one : confidence ≤ 1 := by decide +kernel

/-- A verdict for one of the candidates, or one that matches none of them. -/
structure ClassificationResult.Closed (candidates : List DocumentTypeSpec)
    (result : ClassificationResult) : Prop where
  declared : result.matched = true →
    result.documentType ∈ candidates.map DocumentTypeSpec.id
  unmatched : result.matched = false →
    result.documentType = UNMATCHED ∧ result.confidence = 0
  nonneg : 0 ≤ result.confidence
  le_one : result.confidence ≤ 1

namespace DocumentClassifier

def answeredType (raw : ClassifierOutput) : String :=
  let stripped := PythonText.strip raw.documentType
  if stripped = "" then UNMATCHED else stripped

def verdict (candidates : List DocumentTypeSpec) (raw : ClassifierOutput) :
    ClassificationResult :=
  let docType := answeredType raw
  let matched := decide (docType ∈ candidates.map DocumentTypeSpec.id)
  { documentType := if matched then docType else UNMATCHED
    confidence := if matched then raw.confidence else 0
    description := raw.description
    notes := raw.notes
    matched }

/-- The second argument is what the model answers for the segment. -/
def classify (candidates : List DocumentTypeSpec)
    (answer : Except Failure ClassifierOutput) :
    Except Failure ClassificationResult :=
  if candidates = [] then
    .ok { documentType := UNMATCHED, matched := false, notes := "no candidates" }
  else answer.map (verdict candidates)

variable {candidates : List DocumentTypeSpec}

end DocumentClassifier

end Flydocs
