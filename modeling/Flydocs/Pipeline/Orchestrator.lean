import Mathlib.Data.List.Sort
import Flydocs.Foundation.LabelledStep
import Flydocs.Pipeline.Steps

/-!
# Runs of the orchestrator

The engine takes the nodes of the chain one by one.  It runs a node or skips
it, notes in the trace how the node ended, and goes on after a failure.  A
label is what the services of a node answered, or `none` for a skipped node.
-/

namespace Flydocs

open Foundation Interfaces

inductive Response (Group : Type*) where
  | load (normalise : Normaliser) (stopped : Bool)
  | discover (gathered : Gathered Nat Failure (List DiscoveredSegment))
  | classify (gathered : Gathered (Nat × Nat) Failure ClassificationResult)
  | planTasks (cut : Option Nat)
  | extract (gathered : Gathered Nat Failure (List Group × String))
  | bboxValidation (touch : Touch Group) (raised : Bool)
  | bboxRefine (touch : Touch Group) (gathered : Gathered Nat Failure Unit)
  | fieldValidation (touch : Touch Group) (raised : Bool)
  | visualAuthenticity
      (gathered : Gathered Nat Failure (List VisualCheckResult))
  | contentAuthenticity (gathered : Gathered Nat Failure ContentAuthenticity)
  | judge (touch : Touch Group) (gathered : Gathered Nat Failure Unit)
  | repair (repaired : Touch Group)
      (info : Option (Except Failure (Option RepairInfo)))
      (validated : Touch Group) (raised : Bool)
  | judgeEscalation (touch : Touch Group)
      (answer : Option (Except Failure (Option (Escalation Group))))
  | transform (applied : List (Applied Group)) (stopped : Bool)
  | rules (results : Option (Except Failure (List RuleResult)))
  | assemble

variable {Group Value : Type*}

def TaskService.Answers (service : TaskService Group Value)
    (ctx : PipelineContext Group) (gathered : Gathered Nat Failure Value) :
    Prop :=
  gathered.Settles
    (Gathered.callKeys id service.calls (ctx.tasks.getD []))

instance (service : TaskService Group Value) (ctx : PipelineContext Group)
    (gathered : Gathered Nat Failure Value) :
    Decidable (service.Answers ctx gathered) :=
  inferInstanceAs (Decidable (gathered.Settles _))

namespace Response

def node : Response Group → Node
  | load _ _ => .load
  | discover _ => .discover
  | classify _ => .classify
  | planTasks _ => .planTasks
  | extract _ => .extract
  | bboxValidation _ _ => .bboxValidation
  | bboxRefine _ _ => .bboxRefine
  | fieldValidation _ _ => .fieldValidation
  | visualAuthenticity _ => .visualAuthenticity
  | contentAuthenticity _ => .contentAuthenticity
  | judge _ _ => .judge
  | repair _ _ _ _ => .repair
  | judgeEscalation _ _ => .judgeEscalation
  | transform _ _ => .transform
  | rules _ => .rules
  | assemble => .assemble

def Answers (ctx : PipelineContext Group) : Response Group → Prop
  | discover gathered =>
      gathered.Settles
        (Gathered.callKeys id FileSlot.discovers (ctx.filesData.getD []))
  | classify gathered =>
      gathered.Settles
        (if (soleDoctype ctx.request).isSome then []
        else classifyCalls (ctx.filesData.getD []))
  | extract gathered => extractor.Answers ctx gathered
  | bboxRefine _ gathered => bboxRefiner.Answers ctx gathered
  | visualAuthenticity gathered => visualChecker.Answers ctx gathered
  | contentAuthenticity gathered => contentChecker.Answers ctx gathered
  | judge _ gathered => Flydocs.judge.Answers ctx gathered
  | transform applied stopped =>
      applied.map Applied.scope <+:
          ctx.request.options.transformations.map Transformation.scope ∧
        (stopped = false → applied.length =
          ctx.request.options.transformations.length)
  | _ => True

instance (ctx : PipelineContext Group) (response : Response Group) :
    Decidable (response.Answers ctx) :=
  match response with
  | discover gathered => inferInstanceAs (Decidable (gathered.Settles _))
  | classify gathered => inferInstanceAs (Decidable (gathered.Settles _))
  | extract gathered =>
      inferInstanceAs (Decidable (extractor.Answers ctx gathered))
  | bboxRefine _ gathered =>
      inferInstanceAs (Decidable (bboxRefiner.Answers ctx gathered))
  | visualAuthenticity gathered =>
      inferInstanceAs (Decidable (visualChecker.Answers ctx gathered))
  | contentAuthenticity gathered =>
      inferInstanceAs (Decidable (contentChecker.Answers ctx gathered))
  | judge _ gathered =>
      inferInstanceAs (Decidable (Flydocs.judge.Answers ctx gathered))
  | transform _ _ => inferInstanceAs (Decidable (_ <+: _ ∧ (_ → _)))
  | load _ _ | planTasks _ | bboxValidation _ _ | fieldValidation _ _
  | repair _ _ _ _ | judgeEscalation _ _ | rules _ | assemble =>
      isTrue trivial

def runNode (pdf : PdfLibrary) (ctx : PipelineContext Group) :
    Response Group → Outcome Group
  | load normalise stopped => stepLoad ctx normalise stopped
  | discover gathered => stepDiscover ctx gathered
  | classify gathered => stepClassifier pdf ctx gathered
  | planTasks cut => stepPlanTasks pdf ctx cut
  | extract gathered => extractor.step ctx untouched gathered
  | bboxValidation touch raised => stepBboxValidation ctx touch raised
  | bboxRefine touch gathered => bboxRefiner.step ctx touch gathered
  | fieldValidation touch raised => stepFieldValidation ctx touch raised
  | visualAuthenticity gathered => visualChecker.step ctx untouched gathered
  | contentAuthenticity gathered => contentChecker.step ctx untouched gathered
  | judge touch gathered => Flydocs.judge.step ctx touch gathered
  | repair repaired info validated raised =>
      stepRepair ctx repaired info validated raised
  | judgeEscalation touch answer => stepJudgeEscalation ctx touch answer
  | transform applied stopped => stepTransform ctx applied stopped
  | rules results => stepRules ctx results
  | assemble => stepAssemble ctx

end Response

/-! ## The engine -/

structure ExecutionTraceEntry where
  node : Node
  status : NodeStatus
  deriving DecidableEq, Repr

structure PipelineState (Group : Type*) where
  ctx : PipelineContext Group
  remaining : List Node
  trace : List ExecutionTraceEntry := []
  deriving DecidableEq, Repr

namespace PipelineState

def initial (defaultModel : String) (request : ExtractionRequest) :
    PipelineState Group where
  ctx :=
    { request := request
      modelId := Projector.orDefault request.options.model defaultModel }
  remaining := Node.chain request

def step (pdf : PdfLibrary) (state : PipelineState Group) :
    Option (Response Group) → Option (PipelineState Group)
  | none =>
      match state.remaining with
      | [] => none
      | node :: remaining =>
          some ⟨state.ctx, remaining, state.trace ++ [⟨node, .skipped⟩]⟩
  | some response =>
      match state.remaining with
      | [] => none
      | node :: remaining =>
          if response.node = node ∧ response.Answers state.ctx then
            let outcome := response.runNode pdf state.ctx
            some ⟨outcome.ctx, remaining, state.trace ++
              [⟨node, if outcome.failed then .failed else .success⟩]⟩
          else none

inductive Stepped (pdf : PdfLibrary) (state : PipelineState Group) :
    Option (Response Group) → PipelineState Group → Prop
  | skipped {node : Node} {remaining : List Node}
      (hremaining : state.remaining = node :: remaining) :
      Stepped pdf state none
        ⟨state.ctx, remaining, state.trace ++ [⟨node, .skipped⟩]⟩
  | ran {response : Response Group} {remaining : List Node}
      (hremaining : state.remaining = response.node :: remaining)
      (hanswers : response.Answers state.ctx) :
      Stepped pdf state (some response)
        ⟨(response.runNode pdf state.ctx).ctx, remaining, state.trace ++
          [⟨response.node, if (response.runNode pdf state.ctx).failed then
            .failed else .success⟩]⟩

theorem stepped {pdf : PdfLibrary} {state next : PipelineState Group}
    {label : Option (Response Group)}
    (h : step pdf state label = some next) : Stepped pdf state label next := by
  cases label with
  | none =>
      cases hremaining : state.remaining with
      | nil => simp [step, hremaining] at h
      | cons node remaining =>
          simp only [step, hremaining, Option.some.injEq] at h
          subst h
          exact .skipped hremaining
  | some response =>
      cases hremaining : state.remaining with
      | nil => simp [step, hremaining] at h
      | cons node remaining =>
          simp only [step, hremaining, Option.ite_none_right_eq_some,
            Option.some.injEq] at h
          obtain ⟨⟨rfl, hanswers⟩, rfl⟩ := h
          exact .ran hremaining hanswers

/-- The labels take the request from its first node to the state. -/
def Runs (pdf : PdfLibrary) (defaultModel : String)
    (request : ExtractionRequest) (labels : List (Option (Response Group)))
    (state : PipelineState Group) : Prop :=
  LabelledStep.run (step pdf) (initial defaultModel request) labels =
    some state

end PipelineState

/-! ## The result -/

def pagesRange (pageStart pageEnd : Int) : List Int :=
  (List.range (pageEnd - pageStart + 1).toNat).map fun offset =>
    pageStart + offset

def segmentDescription (segment : Segment) (docSpec : DocumentTypeSpec) :
    String :=
  match segment.classification with
  | some classification =>
      if classification.description != "" then classification.description
      else if segment.description != "" then segment.description
      else docSpec.description.getD ""
  | none =>
      if segment.description != "" then segment.description
      else docSpec.description.getD ""

def segmentConfidence (segment : Segment) : Rat :=
  match segment.classification with
  | some classification =>
      if classification.matched then classification.confidence
      else if segment.pinned then 1
      else segment.segmentationConfidence
  | none => if segment.pinned then 1 else segment.segmentationConfidence

def ExtractionTask.document (task : ExtractionTask Group) :
    Document Group where
  type := task.docSpec.id
  sourceFile := some task.segment.filename
  pages := pagesRange task.segment.pageStart task.segment.pageEnd
  confidence := segmentConfidence task.segment
  description := some (segmentDescription task.segment task.docSpec)
  fieldGroups := task.extractedGroups
  authenticity := ⟨task.visual, task.content⟩

def Segment.discoveredDocument (segment : Segment) : Document Group where
  type := UNMATCHED
  sourceFile := some segment.filename
  pages := pagesRange segment.pageStart segment.pageEnd
  confidence :=
    match segment.classification with
    | some classification => classification.confidence
    | none => segment.segmentationConfidence
  description :=
    match segment.classification with
    | some classification => some classification.description
    | none => some segment.description
  notes := segment.classification.map ClassificationResult.notes

def classificationInfo (result : ClassificationResult) :
    ClassificationInfo where
  documentType := result.documentType
  matched := result.matched
  confidence := result.confidence
  description := some result.description
  notes := some result.notes

def fileInfo (slot : FileSlot) : FileSummary where
  filename := slot.filename
  mediaType := slot.mediaType
  pageCount := slot.pageCount
  bytes := slot.documentBytes.length
  -- a split file shows its verdicts on its documents only
  matchedType :=
    match slot.segments with
    | [segment] => segment.resolvedDoctype
    | _ => none
  classification :=
    match slot.segments with
    | [segment] => segment.classification.map classificationInfo
    | _ => none

/-- The models the extractor used, or the model of the request. -/
def usedModel (modelId : String) (tasks : List (ExtractionTask Group)) :
    String :=
  let used := (tasks.filterMap fun task =>
    if Projector.truthy task.modelUsed then task.modelUsed else none).dedup
  if used.isEmpty then modelId
  else String.intercalate "," (used.insertionSort (· ≤ ·))

def traceEntries (trace : List ExecutionTraceEntry) : List TraceEntry :=
  trace.map fun entry => ⟨entry.node.name, entry.status⟩

def buildResult (ctx : PipelineContext Group)
    (trace : List ExecutionTraceEntry) : ExtractionResult Group :=
  let tasks := ctx.tasks.getD []
  let anyFailedTask := tasks.any fun task => !task.hasGroups
  let anyPipelineError := !ctx.pipelineErrors.isEmpty
  { status :=
      if anyFailedTask || anyPipelineError then .partialSuccess else .success
    files := (ctx.filesData.getD []).map fileInfo
    documents := tasks.map ExtractionTask.document
    discoveredDocuments :=
      ctx.unmatchedSegments.map Segment.discoveredDocument
    ruleResults := ctx.ruleResults
    requestTransformations := ctx.requestTransformations
    pipeline :=
      { model := usedModel ctx.modelId tasks
        trace := traceEntries trace
        errors := ctx.pipelineErrors
        escalation := ctx.escalation
        repair := ctx.repair } }

def PipelineState.result (state : PipelineState Group) :
    ExtractionResult Group :=
  buildResult state.ctx state.trace

/-! ## A scan of two one-page documents -/

/-- A document format in which every byte is a page. -/
def bytePages : PdfLibrary where
  Page := UInt8
  readPages := .ok
  writePages := .ok

def scanPages : Normaliser := fun _ bytes _ filename =>
  .ok [{ filename := filename, mediaType := "application/pdf",
         pageCount := bytes.length, bytes := bytes }]

def scanRequest : ExtractionRequest where
  files := [⟨"scan.pdf", some "QUI=", some "application/pdf", none⟩]
  documentTypes := [{ id := "invoice" }, { id := "receipt" }]
  options := { stages := { splitter := true } }

def scanLabels : List (Option (Response Unit)) :=
  [some (.load scanPages false),
    some (.discover ⟨[(0, .ok [{ pageStart := 1, pageEnd := 1 },
      { pageStart := 2, pageEnd := 2 }])], false⟩),
    some (.classify ⟨[((0, 1), .error (Base64.valueError "no answer")),
      ((0, 0), .ok { documentType := "invoice" })], false⟩)]

end Flydocs
