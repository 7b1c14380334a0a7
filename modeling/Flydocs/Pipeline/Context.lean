import Flydocs.Pipeline.Node

/-!
# The state the nodes share

Slots, segments and extraction tasks, and the metadata dictionary through
which the nodes of one run pass them on.  A key that no node has written yet
is `none`.
-/

namespace Flydocs

open Interfaces

def UNMATCHED : String := "unmatched"

structure BinaryArtifact where
  filename : String
  derivedFrom : List String := []
  mediaType : String
  pageCount : Int
  bytes : List UInt8
  deriving DecidableEq, Repr

/-- A page range the splitter identified inside a file, both ends inclusive. -/
structure DiscoveredSegment where
  pageStart : Int
  pageEnd : Int
  provisionalType : String := ""
  description : String := ""
  confidence : Rat := 0
  deriving DecidableEq, Repr

structure ClassificationResult where
  documentType : String
  confidence : Rat := 0
  description : String := ""
  notes : String := ""
  matched : Bool := true
  deriving DecidableEq, Repr

structure Segment where
  fileIndex : Nat
  filename : String
  mediaType : String
  pageStart : Int
  pageEnd : Int
  filePageCount : Int
  provisionalType : String := ""
  description : String := ""
  segmentationConfidence : Rat := 1
  resolvedDoctype : Option String := none
  classification : Option ClassificationResult := none
  pinned : Bool := false
  deriving DecidableEq, Repr

structure FileSlot where
  fileIndex : Nat
  filename : String
  mediaType : String
  pageCount : Int
  documentBytes : List UInt8
  declaredDoctype : Option String
  segments : List Segment
  deriving DecidableEq, Repr

structure ExtractionTask (Group : Type*) where
  taskId : String
  segment : Segment
  docSpec : DocumentTypeSpec
  sliceBytes : List UInt8
  slicePages : Int
  extractedGroups : List Group := []
  modelUsed : Option String := none
  visual : List VisualCheckResult := []
  content : Option ContentAuthenticity := none
  deriving DecidableEq, Repr

def ExtractionTask.asPlanned {Group : Type*} (task : ExtractionTask Group) :
    ExtractionTask Group :=
  { task with
    extractedGroups := [], modelUsed := none, visual := [], content := none }

structure PipelineContext (Group : Type*) where
  request : ExtractionRequest
  modelId : String
  filesData : Option (List FileSlot) := none
  tasks : Option (List (ExtractionTask Group)) := none
  unmatchedSegments : List Segment := []
  pipelineErrors : List PipelineError := []
  ruleResults : List RuleResult := []
  requestTransformations : List Group := []
  repair : Option RepairInfo := none
  escalation : Option EscalationInfo := none
  deriving DecidableEq, Repr

def errorEntry (node code : String) (exc : Failure)
    (docType : Option String) : PipelineError where
  node := node
  code := code
  message :=
    if Projector.truthy docType then docType.getD "" ++ ": " ++ exc.message
    else exc.message

def PipelineContext.record {Group : Type*} (ctx : PipelineContext Group)
    (entries : List PipelineError) : PipelineContext Group :=
  { ctx with pipelineErrors := ctx.pipelineErrors ++ entries }

/-! ## Slicing -/

structure PdfLibrary where
  Page : Type
  readPages : List UInt8 → Except Failure (List Page)
  writePages : List Page → Except Failure (List UInt8)

def slicePdf (pdf : PdfLibrary) (pdfBytes : List UInt8)
    (pageStart pageEnd : Int) : Except Failure (List UInt8) :=
  (pdf.readPages pdfBytes).bind fun pages =>
    let total : Int := pages.length
    let startIdx := max 0 (pageStart - 1)
    let endIdx := min total pageEnd
    if endIdx ≤ startIdx then
      .error (Base64.valueError ("Empty page range after clamping: pages " ++
        toString pageStart ++ ".." ++ toString pageEnd ++
        " vs. document total of " ++ toString total))
    else pdf.writePages ((pages.take endIdx.toNat).drop startIdx.toNat)

structure Slice where
  bytes : List UInt8
  pages : Int
  error : Option PipelineError
  deriving DecidableEq, Repr

def sliceSegmentBytes (pdf : PdfLibrary) (slot : FileSlot)
    (segment : Segment) : Slice :=
  if (segment.pageStart = 1 ∧ segment.pageEnd = slot.pageCount) ∨
      slot.mediaType ≠ "application/pdf" then
    ⟨slot.documentBytes, slot.pageCount, none⟩
  else
    match slicePdf pdf slot.documentBytes segment.pageStart
        segment.pageEnd with
    | .ok sliced => ⟨sliced, segment.pageEnd - segment.pageStart + 1, none⟩
    | .error exc =>
        ⟨slot.documentBytes, slot.pageCount,
          some (errorEntry "pdf_slicer" "SLICE_ERROR" exc
            (some (slot.filename ++ ":" ++ toString segment.pageStart ++ "-" ++
              toString segment.pageEnd)))⟩

end Flydocs
