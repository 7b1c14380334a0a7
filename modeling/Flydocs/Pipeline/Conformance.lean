import Flydocs.Extraction.Collisions
import Flydocs.Pipeline.Candidates
import Flydocs.Pipeline.Toggles

/-!
# Conformance along a run

Of the nodes of a run only extraction, repair and escalation bring new values
in, and each of them brings fields of the declared types.  So whatever the
models answer and whichever steps fail, the documents of the result conform to
the types that the request declares for them.
-/

namespace Flydocs

open Foundation Dtos

/-! ## What the services answer -/

section

variable (Raised : Type) (request : Dtos.ExtractionRequest)

abbrev FieldTask := ExtractionTask ExtractedFieldGroup

def docOf (task : FieldTask) : Option DocumentTypeSpec :=
  lookupLast (fun doc : DocumentTypeSpec => doc.id) request.documentTypes
    task.docSpec.id

def asRepairTask (task : FieldTask) (doc : DocumentTypeSpec) : RepairTask where
  taskId := task.taskId
  docSpec := doc
  sliceBytes := task.sliceBytes
  slicePages := task.slicePages
  mediaType := task.segment.mediaType
  extractedGroups := task.extractedGroups

def asEscalationTask (task : FieldTask) (doc : DocumentTypeSpec)
    (references : List Nat) : EscalationTask where
  taskId := task.taskId
  sliceBytes := task.sliceBytes
  mediaType := task.segment.mediaType
  slicePages := task.slicePages.toNat
  docSpec := doc
  extractedGroups := references
  modelUsed := task.modelUsed

def gradeBoxes : Touch ExtractedFieldGroup := fun _ _ =>
  BboxValidator.validateGroup

/-- Each task that a service is called for gets groups that it allows. -/
def Touches (ctx : PipelineContext ExtractedFieldGroup)
    (calls : FieldTask → Bool) (touch : Touch ExtractedFieldGroup)
    (allowed : FieldTask → List ExtractedFieldGroup → Prop) : Prop :=
  ∀ index task, (ctx.tasks.getD [])[index]? = some task → calls task = true →
    allowed task (task.extractedGroups.mapIdx (touch index))

def Extracts (task : FieldTask) (groups : List ExtractedFieldGroup) : Prop :=
  ∃ doc, docOf request task = some doc ∧
    ∃ (extractor : MultimodalExtractor Raised) (model : Option String)
      (used : String), extractor.extract {
        documentBytes := task.sliceBytes
        mediaType := task.segment.mediaType
        pageCount := task.slicePages.toNat
        doc
        intention := request.intention
        languageHint := request.options.languageHint
        model } = .ok (groups, used)

def Refines (task : FieldTask) (groups : List ExtractedFieldGroup) : Prop :=
  groups = task.extractedGroups ∨
    ∃ refiner : Bbox.BboxRefiner Raised,
      groups = (refiner.refine task.extractedGroups).1

/-- A validator that raises has written some of its verdicts. -/
def Validates (raised : Bool) (task : FieldTask)
    (groups : List ExtractedFieldGroup) : Prop :=
  (∃ doc, docOf request task = some doc ∧ ∃ validator : FieldValidator,
    groups = validator.validate doc.fieldGroups task.extractedGroups) ∨
  raised = true ∧ groups.map ExtractedFieldGroup.asRead =
    task.extractedGroups.map ExtractedFieldGroup.asRead

def Judges (task : FieldTask) (groups : List ExtractedFieldGroup) : Prop :=
  groups = task.extractedGroups ∨
    ∃ output, groups = task.extractedGroups.map (Judge.applyGroup output)

def Repairs (task : FieldTask) (groups : List ExtractedFieldGroup) : Prop :=
  groups = task.extractedGroups ∨
    ∃ doc, docOf request task = some doc ∧
      ∃ (repairer : FieldRepairer Raised) (model : Option String),
        repairer.Validates ∧ groups =
          (repairer.repairTask request model (asRepairTask task doc)).groups

def Escalates (task : FieldTask) (groups : List ExtractedFieldGroup) : Prop :=
  ∃ doc, docOf request task = some doc ∧
    ∃ (escalator : JudgeEscalator Raised) (model : String)
      (references : List Nat), groups = escalator.judgedCandidate request model
        (asEscalationTask task doc references) task.extractedGroups

/-- The answer is one that the services of the pipeline may give, whatever the
models behind them say and wherever a call raises or is cut. -/
def FromServices (ctx : PipelineContext ExtractedFieldGroup) :
    Response ExtractedFieldGroup → Prop
  | .extract gathered => ∀ index task answer,
      (ctx.tasks.getD [])[index]? = some task →
      (index, .ok answer) ∈ gathered.settled →
      Extracts Raised request task answer.1
  | .bboxValidation touch _ => touch = gradeBoxes
  | .bboxRefine touch _ =>
      Touches ctx bboxRefiner.calls touch (Refines Raised)
  | .fieldValidation touch raised =>
      Touches ctx ExtractionTask.hasGroups touch (Validates request raised)
  | .judge touch _ => Touches ctx judge.calls touch Judges
  | .repair repaired _ validated _ =>
      Touches ctx ExtractionTask.hasGroups repaired (Repairs Raised request) ∧
        validated = gradeBoxes
  | .judgeEscalation touch answer =>
      Touches ctx ExtractionTask.hasGroups touch Judges ∧
        ∀ escalation, answer = some (.ok (some escalation)) →
          escalation.validated = gradeBoxes ∧
            ∀ index task, (ctx.tasks.getD [])[index]? = some task →
              task.hasBytes = true →
              Escalates Raised request task (escalation.perDocExtracted index)
  | _ => True

end

/-! ## Tasks -/

section

variable {Raised : Type} {request : Dtos.ExtractionRequest} {task : FieldTask}

/-- A task has no groups yet, or groups of its declared type. -/
def TaskConforms (request : Dtos.ExtractionRequest) (task : FieldTask) : Prop :=
  task.extractedGroups = [] ∨
    ∃ doc, docOf request task = some doc ∧ Conforms doc task.extractedGroups

def NamesApart (request : Dtos.ExtractionRequest) : Prop :=
  ∀ doc ∈ request.documentTypes, ((declaredFields doc).map Field.name).Nodup

theorem mem_of_docOf {doc : DocumentTypeSpec}
    (h : docOf request task = some doc) :
    doc ∈ request.documentTypes ∧ doc.id = task.docSpec.id := by
  have hid := key_of_lookupLast h
  exact ⟨mem_of_lookupLast h, hid⟩

theorem TaskConforms.of_asRead (h : TaskConforms request task)
    {groups : List ExtractedFieldGroup}
    (hread : groups.map ExtractedFieldGroup.asRead =
      task.extractedGroups.map ExtractedFieldGroup.asRead) :
    TaskConforms request { task with extractedGroups := groups } := by
  rcases h with hnone | ⟨doc, hdoc, hconforms⟩
  · rw [hnone, List.map_nil, List.map_eq_nil_iff] at hread
    exact .inl hread
  · exact .inr ⟨doc, hdoc, hconforms.of_asRead hread⟩

theorem TaskConforms.of_map (h : TaskConforms request task)
    {change : ExtractedFieldGroup → ExtractedFieldGroup}
    (hchange : ∀ group, (change group).asRead = group.asRead) :
    TaskConforms request
      { task with extractedGroups := task.extractedGroups.map change } := by
  refine h.of_asRead ?_
  rw [List.map_map]
  exact List.map_congr_left fun group _ => hchange group

theorem TaskConforms.of_judges (h : TaskConforms request task)
    {groups : List ExtractedFieldGroup} (hjudges : Judges task groups) :
    TaskConforms request { task with extractedGroups := groups } := by
  rcases hjudges with rfl | ⟨output, rfl⟩
  · exact h
  · exact h.of_map (Judge.asRead_applyGroup output)

theorem TaskConforms.of_extracts (hdistinct : NamesApart request)
    {groups : List ExtractedFieldGroup}
    (hextracts : Extracts Raised request task groups) (used : Option String) :
    TaskConforms request
      { task with extractedGroups := groups, modelUsed := used } := by
  obtain ⟨doc, hdoc, extractor, model, used, hextract⟩ := hextracts
  exact .inr ⟨doc, hdoc, MultimodalExtractor.conforms_extract
    (hdistinct doc (mem_of_docOf hdoc).1) hextract⟩

theorem TaskConforms.of_refines (h : TaskConforms request task)
    {groups : List ExtractedFieldGroup}
    (hrefines : Refines Raised task groups) :
    TaskConforms request { task with extractedGroups := groups } := by
  rcases hrefines with rfl | ⟨refiner, rfl⟩
  · exact h
  · exact h.of_asRead (refiner.asRead_refine _)

theorem TaskConforms.of_validates {raised : Bool}
    (h : TaskConforms request task) {groups : List ExtractedFieldGroup}
    (hvalidates : Validates request raised task groups) :
    TaskConforms request { task with extractedGroups := groups } := by
  rcases hvalidates with ⟨doc, -, validator, rfl⟩ | ⟨-, hread⟩
  · exact h.of_asRead (validator.asRead_validate _ _)
  · exact h.of_asRead hread

theorem TaskConforms.of_repairs (hdistinct : NamesApart request)
    (h : TaskConforms request task) {groups : List ExtractedFieldGroup}
    (hrepairs : Repairs Raised request task groups)
    (hgroups : task.extractedGroups ≠ []) :
    TaskConforms request { task with extractedGroups := groups } := by
  rcases hrepairs with rfl | ⟨doc, hdoc, repairer, model, hvalidates, rfl⟩
  · exact h
  · obtain ⟨other, hother, hconforms⟩ := h.resolve_left hgroups
    obtain rfl : other = doc := Option.some_injective _ (hother.symm.trans hdoc)
    have hrepaired := @FieldRepairer.conforms_repairTask _ repairer hvalidates
      request model (asRepairTask task other)
      (hdistinct other (mem_of_docOf hdoc).1) hconforms
    exact .inr ⟨other, hdoc, hrepaired⟩

theorem TaskConforms.of_escalates (hdistinct : NamesApart request)
    (h : TaskConforms request task)
    {groups : List ExtractedFieldGroup}
    (hescalates : Escalates Raised request task groups)
    (used : Option String) :
    TaskConforms request
      { task with extractedGroups := groups, modelUsed := used } := by
  obtain ⟨doc, hdoc, escalator, model, references, rfl⟩ := hescalates
  have hprimary : task.extractedGroups = [] ∨
      Conforms doc task.extractedGroups := by
    refine h.imp id fun ⟨other, hother, hconforms⟩ => ?_
    obtain rfl : other = doc := Option.some_injective _ (hother.symm.trans hdoc)
    exact hconforms
  have hescalated := @JudgeEscalator.conforms_judgedCandidate _ escalator
    request model (asEscalationTask task doc references) task.extractedGroups
    (hdistinct doc (mem_of_docOf hdoc).1) hprimary
  exact hescalated.imp id fun hconforms => ⟨doc, hdoc, hconforms⟩

/-! ## Nodes -/

def AllConform (request : Dtos.ExtractionRequest)
    (ctx : PipelineContext ExtractedFieldGroup) : Prop :=
  AllTasks (TaskConforms request) ctx

variable {ctx : PipelineContext ExtractedFieldGroup}

theorem conform_touchTasks {calls : FieldTask → Bool}
    {touch : Touch ExtractedFieldGroup}
    {allowed : FieldTask → List ExtractedFieldGroup → Prop}
    {tasks : List FieldTask}
    (hallowed : ∀ task groups, calls task = true → TaskConforms request task →
      allowed task groups →
      TaskConforms request { task with extractedGroups := groups })
    (htasks : ctx.tasks = some tasks)
    (htouches : Touches ctx calls touch allowed)
    (hctx : AllConform request ctx) :
    ∀ task ∈ touchTasks calls touch tasks, TaskConforms request task := by
  refine forall_mem_mapIdx_of_getElem? (fun index task hindex htask => ?_)
    (hctx tasks htasks)
  split
  next hcalls =>
    refine hallowed task _ hcalls htask (htouches index task ?_ hcalls)
    rw [htasks]
    exact hindex
  next => exact htask

theorem conform_gradeBoxes {calls : FieldTask → Bool} {tasks : List FieldTask}
    (htasks : ∀ task ∈ tasks, TaskConforms request task) :
    ∀ task ∈ touchTasks calls gradeBoxes tasks, TaskConforms request task := by
  refine forall_mem_mapIdx _ (fun index task htask => ?_) htasks
  split
  · exact htask.of_asRead (map_mapIdx_eq ExtractedFieldGroup.asRead
      (fun _ => BboxValidator.asRead_validateGroup) _)
  · exact htask

theorem conform_validateGroups (raised : Bool) (hctx : AllConform request ctx) :
    AllConform request (validateGroups ctx gradeBoxes raised).ctx := by
  unfold validateGroups
  cases htasks : ctx.tasks with
  | none => exact hctx
  | some tasks =>
      rintro _ ⟨⟩
      exact conform_gradeBoxes (hctx tasks htasks)

theorem conform_service {Value : Type*}
    {service : TaskService ExtractedFieldGroup Value}
    (hreceive : ∀ task value, TaskConforms request task →
      TaskConforms request (service.receive task value))
    {touch : Touch ExtractedFieldGroup}
    (htouched : ∀ tasks, ctx.tasks = some tasks →
      ∀ task ∈ touchTasks service.calls touch tasks, TaskConforms request task)
    (gathered : Gathered Nat Failure Value) (hctx : AllConform request ctx) :
    AllConform request (service.step ctx touch gathered).ctx := by
  unfold TaskService.step
  cases htasks : ctx.tasks with
  | none => exact hctx
  | some tasks =>
      rintro _ ⟨⟩
      refine Gathered.forall_mem_deliver (TaskConforms request) ?_ gathered id
        (htouched tasks htasks)
      intro task outcome _ htask
      cases outcome with
      | ok value => exact hreceive task value htask
      | error exc => exact htask

theorem conform_extract (hdistinct : NamesApart request)
    (gathered : Gathered Nat Failure (List ExtractedFieldGroup × String))
    (hserved : FromServices Raised request ctx (.extract gathered))
    (hctx : AllConform request ctx) :
    AllConform request (extractor.step ctx untouched gathered).ctx := by
  unfold TaskService.step
  cases htasks : ctx.tasks with
  | none => exact hctx
  | some tasks =>
      rintro _ ⟨⟩
      rw [touchTasks_untouched]
      refine forall_mem_mapIdx_of_getElem? (fun index task hindex htask => ?_)
        (hctx tasks htasks)
      split
      · split
        · exact htask
        next outcome houtcome =>
          obtain ⟨before, after, hsettled, -⟩ :=
            List.lookup_eq_some_iff.mp houtcome
          cases outcome with
          | error exc => exact htask
          | ok answer =>
              refine .of_extracts hdistinct (hserved index task answer ?_ ?_) _
              · rw [htasks]
                exact hindex
              · rw [hsettled]
                simp
      · exact htask

theorem conform_repair (hdistinct : NamesApart request)
    {repaired : Touch ExtractedFieldGroup}
    {info : Option (Except Failure (Option Interfaces.RepairInfo))}
    {validated : Touch ExtractedFieldGroup} {raised : Bool}
    (hserved : FromServices Raised request ctx
      (.repair repaired info validated raised))
    (hctx : AllConform request ctx) :
    AllConform request (stepRepair ctx repaired info validated raised).ctx := by
  obtain ⟨htouches, rfl⟩ := hserved
  have htouched : AllConform request (ctx.touchGroups repaired) := by
    intro tasks hmem
    obtain ⟨before, hbefore, rfl⟩ := Option.map_eq_some_iff.mp hmem
    refine conform_touchTasks (fun task groups hcalls htask hrepairs => ?_)
      hbefore htouches hctx
    exact htask.of_repairs hdistinct hrepairs
      (by simpa [ExtractionTask.hasGroups] using hcalls)
  unfold stepRepair
  rcases info with _ | exc | _ | info
  · exact htouched
  · exact htouched
  · exact htouched
  · dsimp only
    split
    · exact htouched
    · exact conform_validateGroups raised htouched

theorem conform_judgeEscalation (hdistinct : NamesApart request)
    {touch : Touch ExtractedFieldGroup}
    {answer : Option (Except Failure (Option (Escalation ExtractedFieldGroup)))}
    (hserved : FromServices Raised request ctx (.judgeEscalation touch answer))
    (hctx : AllConform request ctx) :
    AllConform request (stepJudgeEscalation ctx touch answer).ctx := by
  obtain ⟨htouches, hescalated⟩ := hserved
  have htouched : AllConform request (ctx.touchGroups touch) := by
    intro tasks hmem
    obtain ⟨before, hbefore, rfl⟩ := Option.map_eq_some_iff.mp hmem
    exact conform_touchTasks
      (fun _ _ _ htask hjudges => htask.of_judges hjudges) hbefore htouches hctx
  unfold stepJudgeEscalation
  cases htasks : ctx.tasks with
  | none => exact hctx
  | some tasks =>
      match answer with
      | none => exact htouched
      | some (.error exc) => exact htouched
      | some (.ok none) => exact htouched
      | some (.ok (some escalation)) =>
          obtain ⟨hvalidated, hcandidates⟩ := hescalated escalation rfl
          have hafter : ∀ task ∈ touchTasks ExtractionTask.hasGroups
              escalation.validated (tasks.mapIdx (escalateTask escalation)),
              TaskConforms request task := by
            rw [hvalidated]
            refine conform_gradeBoxes (forall_mem_mapIdx_of_getElem?
              (fun index task hindex htask => ?_) (hctx tasks htasks))
            unfold escalateTask
            split
            next hbytes =>
              refine htask.of_escalates hdistinct
                (hcandidates index task ?_ hbytes) _
              rw [htasks]
              exact hindex
            next => exact .inl rfl
          dsimp only
          split
          · cases escalation.raised with
            | none =>
                rintro _ ⟨⟩
                exact hafter
            | some exc =>
                rintro _ ⟨⟩
                exact hafter
          · exact htouched

theorem conform_transform {applied : List (Applied ExtractedFieldGroup)}
    {stopped : Bool} (happlied : ∀ step ∈ applied, step.scope = .request)
    (hctx : AllConform request ctx) :
    AllConform request (stepTransform ctx applied stopped).ctx := by
  unfold stepTransform
  cases ctx.tasks with
  | none => exact hctx
  | some tasks =>
      change AllConform request (applied.foldl applyTransformation ctx)
      induction applied generalizing ctx with
      | nil => exact hctx
      | cons first rest ih =>
          rw [List.forall_mem_cons] at happlied
          refine ih happlied.2 ?_
          cases first with
          | request produced => exact hctx
          | task rewrite => cases happlied.1

theorem conform_runNode (pdf : PdfLibrary) (hdistinct : NamesApart request)
    (hscope : ∀ spec ∈ ctx.request.options.transformations,
      spec.scope = .request) {response : Response ExtractedFieldGroup}
    (hanswers : response.Answers ctx)
    (hserved : FromServices Raised request ctx response)
    (hctx : AllConform request ctx) :
    AllConform request (response.runNode pdf ctx).ctx := by
  cases response with
  | load normalise stopped =>
      have hload := (PipelineState.stepLoad_spec ctx normalise stopped).2.1
      intro tasks htasks
      exact hctx tasks (hload ▸ htasks)
  | discover gathered =>
      have hdiscover := (regrouped_stepDiscover ctx gathered).tasks_eq
      intro tasks htasks
      exact hctx tasks (hdiscover ▸ htasks)
  | classify gathered =>
      have hclassify := (regrouped_stepClassifier pdf ctx gathered).tasks_eq
      intro tasks htasks
      exact hctx tasks (hclassify ▸ htasks)
  | planTasks cut =>
      refine allTasks_stepPlanTasks (fun task hplanned => .inl ?_) pdf cut hctx
      rw [← hplanned]
      rfl
  | extract gathered => exact conform_extract hdistinct gathered hserved hctx
  | bboxValidation touch raised =>
      obtain rfl : touch = gradeBoxes := hserved
      exact conform_validateGroups raised hctx
  | bboxRefine touch gathered =>
      refine conform_service (fun _ _ htask => htask) ?_ gathered hctx
      intro tasks htasks
      exact conform_touchTasks (fun _ _ _ htask hrefines =>
        htask.of_refines hrefines) htasks hserved hctx
  | fieldValidation touch raised =>
      change AllConform request (validateGroups ctx touch raised).ctx
      unfold validateGroups
      cases htasks : ctx.tasks with
      | none => exact hctx
      | some tasks =>
          rintro _ ⟨⟩
          exact conform_touchTasks (fun _ _ _ htask hvalidates =>
            htask.of_validates hvalidates) htasks hserved hctx
  | visualAuthenticity gathered =>
      refine conform_service (fun _ _ htask => htask) ?_ gathered hctx
      intro tasks htasks
      rw [touchTasks_untouched]
      exact hctx tasks htasks
  | contentAuthenticity gathered =>
      refine conform_service (fun _ _ htask => htask) ?_ gathered hctx
      intro tasks htasks
      rw [touchTasks_untouched]
      exact hctx tasks htasks
  | judge touch gathered =>
      refine conform_service (fun _ _ htask => htask) ?_ gathered hctx
      intro tasks htasks
      exact conform_touchTasks (fun _ _ _ htask hjudges =>
        htask.of_judges hjudges) htasks hserved hctx
  | repair repaired info validated raised =>
      exact conform_repair hdistinct hserved hctx
  | judgeEscalation touch answer =>
      exact conform_judgeEscalation hdistinct hserved hctx
  | transform applied stopped =>
      refine conform_transform (fun step hstep => ?_) hctx
      have hmem := hanswers.1.subset (List.mem_map_of_mem hstep)
      obtain ⟨spec, hspec, heq⟩ := List.mem_map.mp hmem
      rw [← heq]
      exact hscope spec hspec
  | rules results =>
      intro tasks htasks
      exact hctx tasks (tasks_stepRules ctx results ▸ htasks)
  | assemble => exact hctx

/-! ## Runs -/

def StepFromServices (Raised : Type) (request : Dtos.ExtractionRequest)
    (state : PipelineState ExtractedFieldGroup) :
    Option (Response ExtractedFieldGroup) → Prop
  | none => True
  | some response => FromServices Raised request state.ctx response

theorem conform_of_runs {pdf : PdfLibrary} {defaultModel : String}
    (hdistinct : NamesApart request)
    (hscope : ∀ spec ∈ request.options.transformations,
      spec.base.scope = .request)
    {labels : List (Option (Response ExtractedFieldGroup))}
    {state : PipelineState ExtractedFieldGroup}
    (hserved : LabelledStep.EveryStep (PipelineState.step pdf)
      (StepFromServices Raised request)
      (PipelineState.initial defaultModel request.toPipeline) labels)
    (hruns : PipelineState.Runs pdf defaultModel request.toPipeline labels
      state) : AllConform request state.ctx := by
  refine (LabelledStep.run_invariant_of_everyStep
    (fun state : PipelineState ExtractedFieldGroup =>
      state.ctx.request = request.toPipeline ∧ AllConform request state.ctx)
    ?_ ⟨rfl, fun _ hnone => by cases hnone⟩ hserved hruns).2
  rintro before label after ⟨hrequest, hbefore⟩ hmeets hstep
  cases PipelineState.stepped hstep with
  | skipped hremaining => exact ⟨hrequest, hbefore⟩
  | @ran response _ hremaining hanswers =>
      refine ⟨(request_runNode pdf before.ctx response).trans hrequest, ?_⟩
      refine conform_runNode pdf hdistinct ?_ hanswers hmeets hbefore
      rw [hrequest]
      exact List.forall_mem_map.mpr hscope

theorem namesApart_of_accepted {validator : RequestValidator} {sync : Bool}
    (h : (validator.validate request sync).hasErrors = false) :
    NamesApart request := by
  intro doc hdoc
  have hnames : (declaredFields doc).map Field.name =
      RequestValidator.fieldNames doc := List.map_flatMap
  rw [hnames]
  by_cases hgroups : doc.fieldGroups = []
  · rw [RequestValidator.fieldNames, hgroups]
    exact List.nodup_nil
  · exact FieldKeys.nodup_fieldNames_of_accepted h hdoc hgroups

/--
Of an accepted request that rewrites no task, every document of the result has
no groups, or the groups and fields of its declared type, in their order and
with values of their types: after every node of every run, whatever the models
answer and whichever calls raise or are cut.
-/
theorem documents_conform (pdf : PdfLibrary) (defaultModel : String)
    (validator : RequestValidator) (sync : Bool)
    (request : Dtos.ExtractionRequest)
    (haccepted : (validator.validate request sync).hasErrors = false)
    (hscope : ∀ spec ∈ request.options.transformations,
      spec.base.scope = .request)
    (labels : List (Option (Response ExtractedFieldGroup)))
    (hserved : LabelledStep.EveryStep (PipelineState.step pdf)
      (StepFromServices Raised request)
      (PipelineState.initial defaultModel request.toPipeline) labels)
    (state : PipelineState ExtractedFieldGroup)
    (hruns : PipelineState.Runs pdf defaultModel request.toPipeline labels
      state) :
    ∀ document ∈ state.result.documents, document.fieldGroups = [] ∨
      ∃ doc ∈ request.documentTypes, doc.id = document.type ∧
        Conforms doc document.fieldGroups := by
  intro document hdocument
  obtain ⟨task, htask, rfl⟩ := List.mem_map.mp hdocument
  have hconforms := allTasks_getD
    (conform_of_runs (namesApart_of_accepted haccepted) hscope hserved hruns)
    htask
  refine hconforms.imp id fun ⟨doc, hdoc, hgroups⟩ => ?_
  exact ⟨doc, (mem_of_docOf hdoc).1, (mem_of_docOf hdoc).2, hgroups⟩

/-- What an extractor makes of the answer that its model gives on the form. -/
def formGroups : List ExtractedFieldGroup :=
  [{ name := "totals"
     fields := [{ name := "number", value := .str "7" },
       { name := "net", value := .float 11 }, {
         name := "lines"
         value := .list [{
           name := "row_1"
           value := .list [{ name := "amount", value := .float 11 }] }] }] }]

def formLabels : List (Option (Response ExtractedFieldGroup)) :=
  [some (.load scanPages false), some (.classify ⟨[], false⟩),
    some (.planTasks none),
    some (.extract ⟨[(0, .ok (formGroups, "primary"))], false⟩),
    some (.bboxValidation gradeBoxes false)]

theorem extracts_form (task : FieldTask)
    (hbytes : task.sliceBytes = [37, 80, 68, 70])
    (hpages : task.slicePages = 4)
    (htype : task.segment.mediaType = "application/pdf")
    (hdoc : task.docSpec.id = "form") :
    Extracts String FieldRepairer.rejectedRequest task formGroups := by
  refine ⟨FieldRepairer.rejectedTask.docSpec, ?_,
    (FieldRepairer.answering FieldRepairer.formAnswer).extractor, none,
    "primary", ?_⟩
  · unfold docOf
    rw [hdoc]
    rfl
  · rw [hbytes, hpages, htype]
    rfl

end

theorem documents_conform_form :
    ∃ state, PipelineState.Runs bytePages "primary"
        FieldRepairer.rejectedRequest.toPipeline formLabels state ∧
      state.result.documents.length = 1 ∧
      ∀ document ∈ state.result.documents, document.fieldGroups = [] ∨
        ∃ doc ∈ FieldRepairer.rejectedRequest.documentTypes,
          doc.id = document.type ∧ Conforms doc document.fieldGroups := by
  have hserved : LabelledStep.EveryStep (PipelineState.step bytePages)
      (StepFromServices String FieldRepairer.rejectedRequest)
      (PipelineState.initial "primary"
        FieldRepairer.rejectedRequest.toPipeline) formLabels := by
    refine (LabelledStep.everyStep_cons_iff rfl).mpr ⟨trivial, ?_⟩
    refine (LabelledStep.everyStep_cons_iff rfl).mpr ⟨trivial, ?_⟩
    refine (LabelledStep.everyStep_cons_iff rfl).mpr ⟨trivial, ?_⟩
    refine (LabelledStep.everyStep_cons_iff rfl).mpr ⟨?_, ?_⟩
    · intro index task answer htask hanswer
      cases List.mem_singleton.mp hanswer
      cases htask
      exact extracts_form _ rfl rfl rfl rfl
    · exact (LabelledStep.everyStep_cons_iff rfl).mpr ⟨rfl, trivial⟩
  have hrun : (LabelledStep.run (PipelineState.step bytePages)
      (PipelineState.initial "primary" FieldRepairer.rejectedRequest.toPipeline)
      formLabels).map (fun state => state.result.documents.length) = some 1 :=
    rfl
  obtain ⟨state, hstate, hlength⟩ := Option.map_eq_some_iff.mp hrun
  exact ⟨state, hstate, hlength, documents_conform bytePages "primary"
    ⟨fun _ => true, .peeling⟩ false FieldRepairer.rejectedRequest (by decide)
    (by simp [FieldRepairer.rejectedRequest]) formLabels hserved state hstate⟩

end Flydocs
