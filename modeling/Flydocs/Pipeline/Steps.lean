import Flydocs.Foundation.Dictionary
import Flydocs.Foundation.Gather
import Flydocs.Pipeline.Context

/-!
# The steps of the orchestrator

Each step takes the metadata and what the services it calls came back with.
A step that raises or is cut by its timeout is `failed`; what it wrote before
that stays written.
-/

namespace Flydocs

open Foundation Interfaces

variable {Group Value : Type*}

structure Outcome (Group : Type*) where
  ctx : PipelineContext Group
  failed : Bool
  deriving DecidableEq, Repr

/-! ## load -/

/--
The binary normaliser, by the number of the call: bytes, declared media type
and file name to the rows it makes of them.
-/
abbrev Normaliser :=
  Nat → List UInt8 → Option String → String →
    Except Failure (List BinaryArtifact)

structure LoadedRow where
  file : FileInput
  multiRow : Bool
  row : BinaryArtifact
  deriving DecidableEq, Repr

def loadedRows (options : ExtractionOptions) (normalise : Normaliser) :
    Nat → List FileInput → Except Failure (List LoadedRow)
  | _, [] => .ok []
  | call, file :: files =>
      file.decodedBytes.bind fun bytes =>
      let declared :=
        if Projector.truthy options.declaredMediaType then
          options.declaredMediaType
        else file.contentType
      (normalise call bytes declared file.filename).bind fun rows =>
      (loadedRows options normalise (call + 1) files).map fun rest =>
        rows.map (⟨file, 1 < rows.length, ·⟩) ++ rest

def soleDoctype (request : ExtractionRequest) : Option String :=
  match request.documentTypes with
  | [only] => some only.id
  | _ => none

def effectiveDoctype (request : ExtractionRequest) (loaded : LoadedRow) :
    Option String :=
  -- an archive or an e-mail makes the pin of the original ambiguous
  let pin := if loaded.multiRow then none else loaded.file.expectedType
  if pin.isNone && !loaded.multiRow && !request.options.stages.classifier &&
      Projector.truthy (soleDoctype request) then soleDoctype request
  else pin

def BinaryArtifact.slotFilename (row : BinaryArtifact) : String :=
  if row.derivedFrom.isEmpty then row.filename
  else String.intercalate "/" (row.derivedFrom ++ [row.filename])

def fileSlot (request : ExtractionRequest) (slotIndex : Nat)
    (loaded : LoadedRow) : FileSlot :=
  let row := loaded.row
  let declared := effectiveDoctype request loaded
  { fileIndex := slotIndex
    filename := row.slotFilename
    mediaType := row.mediaType
    pageCount := row.pageCount
    documentBytes := row.bytes
    declaredDoctype := declared
    segments :=
      [{ fileIndex := slotIndex
         filename := row.slotFilename
         mediaType := row.mediaType
         pageStart := 1
         pageEnd := row.pageCount
         filePageCount := row.pageCount
         resolvedDoctype := declared
         pinned := declared.isSome }] }

def loadFiles (request : ExtractionRequest) (normalise : Normaliser) :
    Except Failure (List FileSlot) :=
  (loadedRows request.options normalise 0 request.files).map fun rows =>
    rows.mapIdx (fileSlot request)

def stepLoad (ctx : PipelineContext Group) (normalise : Normaliser)
    (stopped : Bool) : Outcome Group :=
  match loadFiles ctx.request normalise with
  | .error _ => ⟨ctx, true⟩
  | .ok files =>
      if stopped then ⟨ctx, true⟩
      else ⟨{ ctx with filesData := some files }, false⟩

/-! ## discover -/

/-- Pinned files and single-page files keep their one segment. -/
def FileSlot.discovers (slot : FileSlot) : Bool :=
  slot.declaredDoctype.isNone && decide (1 < slot.pageCount)

def FileSlot.discoveredSegment (slot : FileSlot)
    (discovered : DiscoveredSegment) : Segment where
  fileIndex := slot.fileIndex
  filename := slot.filename
  mediaType := slot.mediaType
  pageStart := discovered.pageStart
  pageEnd := discovered.pageEnd
  filePageCount := slot.pageCount
  provisionalType := discovered.provisionalType
  description := discovered.description
  segmentationConfidence := discovered.confidence

def FileSlot.discovered (slot : FileSlot) :
    Except Failure (List DiscoveredSegment) → FileSlot
  | .error _ => slot
  | .ok segments =>
      -- keep the default segment if the splitter came back empty
      if segments.isEmpty then slot
      else { slot with segments := segments.map slot.discoveredSegment }

def stepDiscover (ctx : PipelineContext Group)
    (gathered : Gathered Nat Failure (List DiscoveredSegment)) :
    Outcome Group :=
  match ctx.filesData with
  | none => ⟨ctx, true⟩
  | some files =>
      let entries := gathered.failures.map fun (index, exc) =>
        errorEntry "discover" "SPLITTER_ERROR" exc
          (files[index]?.map FileSlot.filename)
      ⟨({ ctx with
          filesData := some (gathered.deliver id FileSlot.discovers
            FileSlot.discovered files) } : PipelineContext Group).record
        entries, gathered.stopped⟩

/-! ## classify -/

def docsByType (request : ExtractionRequest) (id : String) :
    Option DocumentTypeSpec :=
  lookupLast DocumentTypeSpec.id request.documentTypes id

def Segment.unresolved (segment : Segment) : Bool :=
  segment.resolvedDoctype.isNone

def Segment.classified (request : ExtractionRequest) (segment : Segment) :
    Except Failure ClassificationResult → Segment
  | .ok result =>
      { segment with
        classification := some result
        resolvedDoctype :=
          if result.matched && (docsByType request result.documentType).isSome
          then some result.documentType else none }
  | .error exc =>
      { segment with
        classification := some
          { documentType := UNMATCHED, matched := false,
            notes := String.ofList (exc.message.toList.take 200) }
        resolvedDoctype := none }

def FileSlot.assigned (only : String) (slot : FileSlot) : FileSlot :=
  { slot with
    segments := slot.segments.map fun segment =>
      if segment.unresolved then { segment with resolvedDoctype := some only }
      else segment }

def classifiedFiles (request : ExtractionRequest)
    (gathered : Gathered (Nat × Nat) Failure ClassificationResult)
    (files : List FileSlot) : List FileSlot :=
  files.mapIdx fun slotIndex slot =>
    { slot with
      segments := gathered.deliver (slotIndex, ·) Segment.unresolved
        (Segment.classified request) slot.segments }

def classifyCalls (files : List FileSlot) : List (Nat × Nat) :=
  (files.mapIdx fun slotIndex slot =>
    Gathered.callKeys (slotIndex, ·) Segment.unresolved slot.segments).flatten

def classifySliceErrors (pdf : PdfLibrary) (files : List FileSlot) :
    List PipelineError :=
  files.flatMap fun slot =>
    if slot.segments.length ≤ 1 then []
    else slot.segments.filterMap fun segment =>
      if segment.unresolved then (sliceSegmentBytes pdf slot segment).error
      else none

def stepClassifier (pdf : PdfLibrary) (ctx : PipelineContext Group)
    (gathered : Gathered (Nat × Nat) Failure ClassificationResult) :
    Outcome Group :=
  match ctx.filesData with
  | none => ⟨ctx, true⟩
  | some files =>
      match soleDoctype ctx.request with
      | some only =>
          ⟨{ ctx with filesData := some (files.map (FileSlot.assigned only)) },
            gathered.stopped⟩
      | none =>
          let entries := gathered.failures.map fun ((slotIndex, _), exc) =>
            errorEntry "classify" "CLASSIFIER_ERROR" exc
              (files[slotIndex]?.map FileSlot.filename)
          ⟨({ ctx with
              filesData := some (classifiedFiles ctx.request gathered files) } :
              PipelineContext Group).record
            (classifySliceErrors pdf files ++ entries), gathered.stopped⟩

/-! ## plan_tasks -/

inductive Route (Group : Type*) where
  | task (task : ExtractionTask Group) (error : Option PipelineError)
  | unmatched (segment : Segment)
  deriving DecidableEq, Repr

namespace Route

def task? : Route Group → Option (ExtractionTask Group)
  | .task planned _ => some planned
  | .unmatched _ => none

def unmatched? : Route Group → Option Segment
  | .task _ _ => none
  | .unmatched segment => some segment

def error? : Route Group → Option PipelineError
  | .task _ error => error
  | .unmatched _ => none

end Route

def Segment.docSpec (request : ExtractionRequest) (segment : Segment) :
    Option DocumentTypeSpec :=
  segment.resolvedDoctype.bind (docsByType request)

def planSegment (pdf : PdfLibrary) (request : ExtractionRequest)
    (slot : FileSlot) (segIndex : Nat) (segment : Segment) : Route Group :=
  match segment.docSpec request with
  | none => .unmatched segment
  | some docSpec =>
      let slice := sliceSegmentBytes pdf slot segment
      .task
        { taskId := "file" ++ toString slot.fileIndex ++ "/seg" ++
            toString segIndex ++ "/" ++ segment.resolvedDoctype.getD ""
          segment := segment
          docSpec := docSpec
          sliceBytes := slice.bytes
          slicePages := slice.pages }
        slice.error

def routes (pdf : PdfLibrary) (request : ExtractionRequest)
    (files : List FileSlot) : List (Route Group) :=
  files.flatMap fun slot =>
    slot.segments.zipIdx.map fun (segment, segIndex) =>
      planSegment pdf request slot segIndex segment

/-- `cut` is the number of segments after which the step was stopped. -/
def stepPlanTasks (pdf : PdfLibrary) (ctx : PipelineContext Group)
    (cut : Option Nat) : Outcome Group :=
  match ctx.filesData with
  | none => ⟨ctx, true⟩
  | some files =>
      let routes : List (Route Group) := routes pdf ctx.request files
      match cut with
      | some planned =>
          ⟨ctx.record ((routes.take planned).filterMap Route.error?), true⟩
      | none =>
          ⟨({ ctx with
              tasks := some (routes.filterMap Route.task?)
              unmatchedSegments := ctx.unmatchedSegments ++
                routes.filterMap Route.unmatched? } :
              PipelineContext Group).record
            (routes.filterMap Route.error?), false⟩

/-! ## Steps that call a service for each task -/

structure TaskService (Group Value : Type*) where
  node : String
  code : String
  calls : ExtractionTask Group → Bool
  receive : ExtractionTask Group → Value → ExtractionTask Group

abbrev Touch (Group : Type*) := Nat → Nat → Group → Group

def untouched : Touch Group := fun _ _ group => group

def touchTasks (calls : ExtractionTask Group → Bool) (touch : Touch Group)
    (tasks : List (ExtractionTask Group)) : List (ExtractionTask Group) :=
  tasks.mapIdx fun index task =>
    if calls task then
      { task with extractedGroups := task.extractedGroups.mapIdx (touch index) }
    else task

def ExtractionTask.hasGroups (task : ExtractionTask Group) : Bool :=
  !task.extractedGroups.isEmpty

def ExtractionTask.hasBytes (task : ExtractionTask Group) : Bool :=
  !task.sliceBytes.isEmpty

namespace TaskService

def received (service : TaskService Group Value)
    (task : ExtractionTask Group) :
    Except Failure Value → ExtractionTask Group
  | .ok value => service.receive task value
  | .error _ => task

def step (service : TaskService Group Value) (ctx : PipelineContext Group)
    (touch : Touch Group) (gathered : Gathered Nat Failure Value) :
    Outcome Group :=
  match ctx.tasks with
  | none => ⟨ctx, true⟩
  | some tasks =>
      let entries := gathered.failures.map fun (index, exc) =>
        errorEntry service.node service.code exc
          (tasks[index]?.map ExtractionTask.taskId)
      ⟨({ ctx with
          tasks := some (gathered.deliver id service.calls service.received
            (touchTasks service.calls touch tasks)) } :
          PipelineContext Group).record entries, gathered.stopped⟩

end TaskService

def extractor : TaskService Group (List Group × String) where
  node := "extractor"
  code := "EXTRACTOR_ERROR"
  calls := ExtractionTask.hasBytes
  receive task answer :=
    { task with extractedGroups := answer.1, modelUsed := some answer.2 }

structure RefineSource where
  documentBytes : List UInt8
  mediaType : String
  pageCount : Int
  deriving DecidableEq, Repr

def ExtractionTask.refineSource (task : ExtractionTask Group) :
    Option RefineSource :=
  if task.hasGroups && task.hasBytes then
    some ⟨task.sliceBytes, task.segment.mediaType, task.slicePages⟩
  else none

def bboxRefiner : TaskService Group Unit where
  node := "bbox_refine"
  code := "BBOX_REFINE_ERROR"
  calls task := task.refineSource.isSome
  receive task _ := task

def visualChecker : TaskService Group (List VisualCheckResult) where
  node := "visual_authenticity"
  code := "VISUAL_AUTH_ERROR"
  calls task := !task.docSpec.visualChecks.isEmpty && task.hasBytes
  receive task outcomes := { task with visual := outcomes }

def contentChecker : TaskService Group ContentAuthenticity where
  node := "content_authenticity"
  code := "CONTENT_AUTH_ERROR"
  calls := ExtractionTask.hasBytes
  receive task content := { task with content := some content }

def judge : TaskService Group Unit where
  node := "judge"
  code := "JUDGE_ERROR"
  calls task := task.hasGroups && task.hasBytes
  receive task _ := task

/-! ## Steps that grade the groups in place -/

def validateGroups (ctx : PipelineContext Group) (touch : Touch Group)
    (raised : Bool) : Outcome Group :=
  match ctx.tasks with
  | none => ⟨ctx, true⟩
  | some tasks =>
      ⟨{ ctx with
          tasks := some (touchTasks ExtractionTask.hasGroups touch tasks) },
        raised⟩

def stepBboxValidation (ctx : PipelineContext Group) (touch : Touch Group)
    (raised : Bool) : Outcome Group :=
  validateGroups ctx touch raised

def stepFieldValidation (ctx : PipelineContext Group) (touch : Touch Group)
    (raised : Bool) : Outcome Group :=
  validateGroups ctx touch raised

/-! ## repair, judge_escalation -/

def PipelineContext.touchGroups (ctx : PipelineContext Group)
    (touch : Touch Group) : PipelineContext Group :=
  { ctx with
    tasks := ctx.tasks.map (touchTasks ExtractionTask.hasGroups touch) }

/--
The repairer replaces fields of the groups it is given; `info` is missing when
the step was cut.  Repaired groups are validated again, which may raise.
-/
def stepRepair (ctx : PipelineContext Group) (repaired : Touch Group)
    (info : Option (Except Failure (Option RepairInfo)))
    (validated : Touch Group) (raised : Bool) : Outcome Group :=
  let ctx := ctx.touchGroups repaired
  match info with
  | none => ⟨ctx, true⟩
  | some (.error exc) =>
      ⟨ctx.record [errorEntry "repair" "REPAIR_ERROR" exc none], false⟩
  | some (.ok none) => ⟨ctx, false⟩
  | some (.ok (some info)) =>
      let ctx := { ctx with repair := some info }
      if info.fieldsRepaired = 0 then ⟨ctx, false⟩
      else validateGroups ctx validated raised

structure Escalation (Group : Type*) where
  info : EscalationInfo
  perDocExtracted : Nat → List Group
  validated : Touch Group
  raised : Option Failure

/-- The re-run leaves a task without bytes with no groups. -/
def escalateTask (escalation : Escalation Group) (index : Nat)
    (task : ExtractionTask Group) : ExtractionTask Group :=
  { task with
    extractedGroups :=
      if task.hasBytes then escalation.perDocExtracted index else []
    modelUsed := escalation.info.escalationModel }

/--
The escalator re-runs extraction and judge; `answer` is missing when the step
was cut.  `touch` is what the re-run judge changed in the groups of tasks it
could not extract again.
-/
def stepJudgeEscalation (ctx : PipelineContext Group) (touch : Touch Group)
    (answer : Option (Except Failure (Option (Escalation Group)))) :
    Outcome Group :=
  match ctx.tasks with
  | none => ⟨ctx, true⟩
  | some tasks =>
      let ctx := ctx.touchGroups touch
      let failure := fun exc =>
        [errorEntry "judge_escalation" "ESCALATION_ERROR" exc none]
      match answer with
      | none => ⟨ctx, true⟩
      | some (.error exc) => ⟨ctx.record (failure exc), false⟩
      | some (.ok none) => ⟨ctx, false⟩
      | some (.ok (some escalation)) =>
          let ctx := { ctx with escalation := some escalation.info }
          if escalation.info.accepted then
            let tasks := touchTasks ExtractionTask.hasGroups
              escalation.validated (tasks.mapIdx (escalateTask escalation))
            let ctx := { ctx with tasks := some tasks }
            match escalation.raised with
            | none => ⟨ctx, false⟩
            | some exc => ⟨ctx.record (failure exc), false⟩
          else ⟨ctx, false⟩

/-! ## transform, rules, assemble -/

inductive Applied (Group : Type*) where
  /-- It rewrote the groups of tasks that have any. -/
  | task (rewrite : Nat → List Group → List Group)
  /-- It produced one group over all tasks, or none. -/
  | request (produced : Option Group)

def Applied.scope : Applied Group → TransformationScope
  | .task _ => .task
  | .request _ => .request

def applyTransformation (ctx : PipelineContext Group) :
    Applied Group → PipelineContext Group
  | .task rewrite =>
      { ctx with
        tasks := ctx.tasks.map fun tasks => tasks.mapIdx fun index task =>
          if task.hasGroups then
            { task with
              extractedGroups := rewrite index task.extractedGroups }
          else task }
  | .request produced =>
      { ctx with
        requestTransformations :=
          ctx.requestTransformations ++ produced.toList }

def stepTransform (ctx : PipelineContext Group)
    (applied : List (Applied Group)) (stopped : Bool) : Outcome Group :=
  match ctx.tasks with
  | none => ⟨ctx, true⟩
  | some _ => ⟨applied.foldl applyTransformation ctx, stopped⟩

/-- `results` is missing when the step was cut. -/
def stepRules (ctx : PipelineContext Group)
    (results : Option (Except Failure (List RuleResult))) : Outcome Group :=
  match ctx.tasks with
  | none => ⟨ctx, true⟩
  | some _ =>
      match results with
      | none => ⟨ctx, true⟩
      | some (.ok results) => ⟨{ ctx with ruleResults := results }, false⟩
      | some (.error exc) =>
          ⟨({ ctx with ruleResults := [] } : PipelineContext Group).record
            [errorEntry "rule_engine" "RULE_ENGINE_ERROR" exc none], false⟩

def stepAssemble (ctx : PipelineContext Group) : Outcome Group :=
  ⟨ctx, false⟩

end Flydocs
