import Flydocs.Pipeline.Conservation
import Flydocs.Pipeline.Failures

/-!
# What a request did not ask for

A stage that is switched off has no node in the chain of the request.  What
only that node writes is at the end of a run what it was at its start.
-/

namespace Flydocs

open Foundation Interfaces

variable {Group Value : Type*}

/-! ## What only one node writes -/

structure Unwritten (node : Node) (before after : PipelineContext Group) :
    Prop where
  ruleResults : node ≠ .rules → after.ruleResults = before.ruleResults
  requestTransformations : node ≠ .transform →
    after.requestTransformations = before.requestTransformations
  repair : node ≠ .repair → after.repair = before.repair
  escalation : node ≠ .judgeEscalation → after.escalation = before.escalation

namespace Unwritten

variable {node : Node} {before after : PipelineContext Group}

theorem of_eq (hrules : after.ruleResults = before.ruleResults)
    (htransform : after.requestTransformations = before.requestTransformations)
    (hrepair : after.repair = before.repair)
    (hescalation : after.escalation = before.escalation) :
    Unwritten node before after :=
  ⟨fun _ => hrules, fun _ => htransform, fun _ => hrepair, fun _ => hescalation⟩

theorem service (node : Node) (service : TaskService Group Value)
    (ctx : PipelineContext Group) (touch : Touch Group)
    (gathered : Gathered Nat Failure Value) :
    Unwritten node ctx (service.step ctx touch gathered).ctx := by
  unfold TaskService.step
  cases ctx.tasks <;> exact of_eq rfl rfl rfl rfl

theorem validate (node : Node) (ctx : PipelineContext Group)
    (touch : Touch Group) (raised : Bool) :
    Unwritten node ctx (validateGroups ctx touch raised).ctx := by
  unfold validateGroups
  cases ctx.tasks <;> exact of_eq rfl rfl rfl rfl

theorem step_load (ctx : PipelineContext Group) (normalise : Normaliser)
    (stopped : Bool) :
    Unwritten .load ctx (stepLoad ctx normalise stopped).ctx := by
  unfold stepLoad
  cases loadFiles ctx.request normalise with
  | error exc => exact of_eq rfl rfl rfl rfl
  | ok files => cases stopped <;> exact of_eq rfl rfl rfl rfl

theorem step_discover (ctx : PipelineContext Group)
    (gathered : Gathered Nat Failure (List DiscoveredSegment)) :
    Unwritten .discover ctx (stepDiscover ctx gathered).ctx := by
  unfold stepDiscover
  cases ctx.filesData <;> exact of_eq rfl rfl rfl rfl

theorem step_classify (pdf : PdfLibrary) (ctx : PipelineContext Group)
    (gathered : Gathered (Nat × Nat) Failure ClassificationResult) :
    Unwritten .classify ctx (stepClassifier pdf ctx gathered).ctx := by
  unfold stepClassifier
  cases ctx.filesData with
  | none => exact of_eq rfl rfl rfl rfl
  | some files => cases soleDoctype ctx.request <;> exact of_eq rfl rfl rfl rfl

theorem step_planTasks (pdf : PdfLibrary) (ctx : PipelineContext Group)
    (cut : Option Nat) :
    Unwritten .planTasks ctx (stepPlanTasks pdf ctx cut).ctx := by
  unfold stepPlanTasks
  cases ctx.filesData with
  | none => exact of_eq rfl rfl rfl rfl
  | some files => cases cut <;> exact of_eq rfl rfl rfl rfl

theorem step_repair (ctx : PipelineContext Group) (repaired : Touch Group)
    (info : Option (Except Failure (Option RepairInfo)))
    (validated : Touch Group) (raised : Bool) :
    Unwritten .repair ctx
      (stepRepair ctx repaired info validated raised).ctx := by
  unfold stepRepair
  match info with
  | none => exact of_eq rfl rfl rfl rfl
  | some (.error exc) => exact of_eq rfl rfl rfl rfl
  | some (.ok none) => exact of_eq rfl rfl rfl rfl
  | some (.ok (some info)) =>
      dsimp only
      split
      · exact ⟨fun _ => rfl, fun _ => rfl, fun h => absurd rfl h, fun _ => rfl⟩
      · have hvalidated := validate .assemble
          { ctx.touchGroups repaired with repair := some info } validated raised
        exact ⟨fun _ => hvalidated.ruleResults (by decide),
          fun _ => hvalidated.requestTransformations (by decide),
          fun h => absurd rfl h, fun _ => hvalidated.escalation (by decide)⟩

theorem step_judgeEscalation (ctx : PipelineContext Group)
    (touch : Touch Group)
    (answer : Option (Except Failure (Option (Escalation Group)))) :
    Unwritten .judgeEscalation ctx
      (stepJudgeEscalation ctx touch answer).ctx := by
  unfold stepJudgeEscalation
  cases htasks : ctx.tasks with
  | none => exact of_eq rfl rfl rfl rfl
  | some tasks =>
      match answer with
      | none => exact of_eq rfl rfl rfl rfl
      | some (.error exc) => exact of_eq rfl rfl rfl rfl
      | some (.ok none) => exact of_eq rfl rfl rfl rfl
      | some (.ok (some escalation)) =>
          dsimp only
          split
          · cases escalation.raised <;>
              exact ⟨fun _ => rfl, fun _ => rfl, fun _ => rfl,
                fun h => absurd rfl h⟩
          · exact ⟨fun _ => rfl, fun _ => rfl, fun _ => rfl,
              fun h => absurd rfl h⟩

theorem step_transform (ctx : PipelineContext Group)
    (applied : List (Applied Group)) (stopped : Bool) :
    Unwritten .transform ctx (stepTransform ctx applied stopped).ctx := by
  unfold stepTransform
  cases ctx.tasks with
  | none => exact of_eq rfl rfl rfl rfl
  | some tasks =>
      change Unwritten .transform ctx (applied.foldl applyTransformation ctx)
      induction applied generalizing ctx with
      | nil => exact of_eq rfl rfl rfl rfl
      | cons first rest ih =>
          have hrest := ih (applyTransformation ctx first)
          cases first <;>
            exact ⟨hrest.ruleResults, fun h => absurd rfl h, hrest.repair,
              hrest.escalation⟩

theorem step_rules (ctx : PipelineContext Group)
    (results : Option (Except Failure (List RuleResult))) :
    Unwritten .rules ctx (stepRules ctx results).ctx := by
  unfold stepRules
  cases ctx.tasks with
  | none => exact of_eq rfl rfl rfl rfl
  | some tasks =>
      match results with
      | none => exact of_eq rfl rfl rfl rfl
      | some (.ok results) | some (.error exc) =>
          exact ⟨fun h => absurd rfl h, fun _ => rfl, fun _ => rfl,
            fun _ => rfl⟩

end Unwritten

theorem unwritten_runNode (pdf : PdfLibrary) (ctx : PipelineContext Group)
    (response : Response Group) :
    Unwritten response.node ctx (response.runNode pdf ctx).ctx := by
  cases response with
  | load normalise stopped => exact .step_load ctx normalise stopped
  | discover gathered => exact .step_discover ctx gathered
  | classify gathered => exact .step_classify pdf ctx gathered
  | planTasks cut => exact .step_planTasks pdf ctx cut
  | extract gathered => exact .service _ extractor ctx untouched gathered
  | bboxValidation touch raised => exact .validate _ ctx touch raised
  | bboxRefine touch gathered => exact .service _ bboxRefiner ctx touch gathered
  | fieldValidation touch raised => exact .validate _ ctx touch raised
  | visualAuthenticity gathered =>
      exact .service _ visualChecker ctx untouched gathered
  | contentAuthenticity gathered =>
      exact .service _ contentChecker ctx untouched gathered
  | judge touch gathered => exact .service _ judge ctx touch gathered
  | repair repaired info validated raised =>
      exact .step_repair ctx repaired info validated raised
  | judgeEscalation touch answer =>
      exact .step_judgeEscalation ctx touch answer
  | transform applied stopped => exact .step_transform ctx applied stopped
  | rules results => exact .step_rules ctx results
  | assemble => exact .of_eq rfl rfl rfl rfl

/-! ## Every task -/

def AllTasks (Good : ExtractionTask Group → Prop)
    (ctx : PipelineContext Group) : Prop :=
  ∀ tasks ∈ ctx.tasks, ∀ task ∈ tasks, Good task

theorem allTasks_getD {Good : ExtractionTask Group → Prop}
    {ctx : PipelineContext Group} (h : AllTasks Good ctx)
    {task : ExtractionTask Group} (htask : task ∈ ctx.tasks.getD []) :
    Good task := by
  cases htasks : ctx.tasks with
  | none =>
      rw [htasks] at htask
      cases htask
  | some tasks =>
      rw [htasks] at htask
      exact h tasks htasks task htask

theorem tasks_stepRules (ctx : PipelineContext Group)
    (results : Option (Except Failure (List RuleResult))) :
    (stepRules ctx results).ctx.tasks = ctx.tasks := by
  unfold stepRules
  cases htasks : ctx.tasks with
  | none => exact htasks
  | some tasks =>
      match results with
      | none => exact htasks
      | some (.ok results) => rfl
      | some (.error exc) => rfl

theorem allTasks_stepPlanTasks {Good : ExtractionTask Group → Prop}
    (hplanned : ∀ task, task.asPlanned = task → Good task) (pdf : PdfLibrary)
    {ctx : PipelineContext Group} (cut : Option Nat)
    (hctx : AllTasks Good ctx) :
    AllTasks Good (stepPlanTasks pdf ctx cut).ctx := by
  unfold stepPlanTasks
  cases ctx.filesData with
  | none => exact hctx
  | some files =>
      cases cut with
      | some planned => exact hctx
      | none =>
          rintro _ ⟨⟩ task htask
          obtain ⟨route, hroute, htask⟩ := List.mem_filterMap.mp htask
          obtain ⟨slot, -, hmem⟩ := List.mem_flatMap.mp hroute
          obtain ⟨⟨segment, segIndex⟩, -, rfl⟩ := List.mem_map.mp hmem
          cases hspec : segment.docSpec ctx.request with
          | none => simp [planSegment, hspec, Route.task?] at htask
          | some docSpec =>
              simp only [planSegment, hspec, Route.task?,
                Option.some.injEq] at htask
              subst htask
              exact hplanned _ rfl

theorem touchTasks_untouched {calls : ExtractionTask Group → Bool}
    (tasks : List (ExtractionTask Group)) :
    touchTasks calls untouched tasks = tasks := by
  refine List.mapIdx_eq_iff.mpr fun index => ?_
  have hgroups (groups : List Group) :
      groups.mapIdx (untouched index) = groups :=
    List.mapIdx_eq_iff.mpr fun position => by
      cases groups[position]? <;> rfl
  cases tasks[index]? with
  | none => rfl
  | some task => simp [hgroups]

structure OfTask (Good : ExtractionTask Group → Prop) : Prop where
  planned : ∀ task, task.asPlanned = task → Good task
  regrouped : ∀ task groups modelUsed, Good task →
    Good { task with extractedGroups := groups, modelUsed := modelUsed }

namespace OfTask

variable {Good : ExtractionTask Group → Prop} {ctx : PipelineContext Group}

theorem touchTasks (h : OfTask Good) (calls : ExtractionTask Group → Bool)
    (touch : Touch Group) {tasks : List (ExtractionTask Group)}
    (htasks : ∀ task ∈ tasks, Good task) :
    ∀ task ∈ Flydocs.touchTasks calls touch tasks, Good task := by
  refine forall_mem_mapIdx Good (fun index task htask => ?_) htasks
  split
  · exact h.regrouped task _ task.modelUsed htask
  · exact htask

theorem touchGroups (h : OfTask Good) (touch : Touch Group)
    (hctx : AllTasks Good ctx) : AllTasks Good (ctx.touchGroups touch) := by
  intro tasks htasks
  obtain ⟨before, hbefore, rfl⟩ := Option.map_eq_some_iff.mp htasks
  exact h.touchTasks _ touch (hctx before hbefore)

theorem service (h : OfTask Good) {service : TaskService Group Value}
    (hreceive : ∀ task value, Good task → Good (service.receive task value))
    (touch : Touch Group) (gathered : Gathered Nat Failure Value)
    (hctx : AllTasks Good ctx) :
    AllTasks Good (service.step ctx touch gathered).ctx := by
  unfold TaskService.step
  cases htasks : ctx.tasks with
  | none => exact hctx
  | some tasks =>
      rintro _ ⟨⟩
      refine Gathered.forall_mem_deliver Good ?_ gathered id
        (h.touchTasks service.calls touch (hctx tasks htasks))
      intro task outcome _ htask
      cases outcome with
      | ok value => exact hreceive task value htask
      | error exc => exact htask

theorem validate (h : OfTask Good) (touch : Touch Group) (raised : Bool)
    (hctx : AllTasks Good ctx) :
    AllTasks Good (validateGroups ctx touch raised).ctx := by
  unfold validateGroups
  cases htasks : ctx.tasks with
  | none => exact hctx
  | some tasks =>
      rintro _ ⟨⟩
      exact h.touchTasks _ touch (hctx tasks htasks)

theorem step_repair (h : OfTask Good) (repaired : Touch Group)
    (info : Option (Except Failure (Option RepairInfo)))
    (validated : Touch Group) (raised : Bool) (hctx : AllTasks Good ctx) :
    AllTasks Good (stepRepair ctx repaired info validated raised).ctx := by
  have htouched := h.touchGroups repaired hctx
  unfold stepRepair
  match info with
  | none => exact htouched
  | some (.error exc) => exact htouched
  | some (.ok none) => exact htouched
  | some (.ok (some info)) =>
      dsimp only
      split
      · exact htouched
      · exact h.validate validated raised htouched

theorem step_judgeEscalation (h : OfTask Good) (touch : Touch Group)
    (answer : Option (Except Failure (Option (Escalation Group))))
    (hctx : AllTasks Good ctx) :
    AllTasks Good (stepJudgeEscalation ctx touch answer).ctx := by
  have htouched := h.touchGroups touch hctx
  unfold stepJudgeEscalation
  cases htasks : ctx.tasks with
  | none => exact hctx
  | some tasks =>
      match answer with
      | none => exact htouched
      | some (.error exc) => exact htouched
      | some (.ok none) => exact htouched
      | some (.ok (some escalation)) =>
          have hescalated : ∀ task ∈ Flydocs.touchTasks
              ExtractionTask.hasGroups escalation.validated
              (tasks.mapIdx (escalateTask escalation)), Good task :=
            h.touchTasks _ _ (forall_mem_mapIdx Good
              (fun _ task htask => h.regrouped task _ _ htask)
              (hctx tasks htasks))
          dsimp only
          split
          · cases escalation.raised with
            | none =>
                rintro _ ⟨⟩
                exact hescalated
            | some exc =>
                rintro _ ⟨⟩
                exact hescalated
          · exact htouched

theorem step_transform (h : OfTask Good) (applied : List (Applied Group))
    (stopped : Bool) (hctx : AllTasks Good ctx) :
    AllTasks Good (stepTransform ctx applied stopped).ctx := by
  unfold stepTransform
  cases ctx.tasks with
  | none => exact hctx
  | some tasks =>
      change AllTasks Good (applied.foldl applyTransformation ctx)
      induction applied generalizing ctx with
      | nil => exact hctx
      | cons first rest ih =>
          refine ih ?_
          cases first with
          | request produced => exact hctx
          | task rewrite =>
              intro after hafter
              obtain ⟨before, hbefore, rfl⟩ :=
                Option.map_eq_some_iff.mp hafter
              refine forall_mem_mapIdx Good (fun index task htask => ?_)
                (hctx before hbefore)
              split
              · exact h.regrouped task _ task.modelUsed htask
              · exact htask

theorem runNode (h : OfTask Good) (pdf : PdfLibrary)
    (response : Response Group)
    (hvisual : response.node = .visualAuthenticity →
      ∀ task outcomes, Good task → Good { task with visual := outcomes })
    (hcontent : response.node = .contentAuthenticity →
      ∀ task content, Good task → Good { task with content := some content })
    (hctx : AllTasks Good ctx) :
    AllTasks Good (response.runNode pdf ctx).ctx := by
  cases response with
  | load normalise stopped =>
      have hload := (PipelineState.stepLoad_spec ctx normalise stopped).2.1
      intro tasks htasks
      exact hctx tasks (hload ▸ htasks)
  | discover gathered =>
      have hdiscover := (regrouped_stepDiscover ctx gathered).tasks_eq
      intro tasks htasks
      exact hctx tasks (hdiscover ▸ htasks)
  | classify gathered =>
      have hclassify := (regrouped_stepClassifier pdf ctx gathered).tasks_eq
      intro tasks htasks
      exact hctx tasks (hclassify ▸ htasks)
  | planTasks cut => exact allTasks_stepPlanTasks h.planned pdf cut hctx
  | extract gathered =>
      exact h.service (fun task answer => h.regrouped task _ _) untouched
        gathered hctx
  | bboxValidation touch raised => exact h.validate touch raised hctx
  | bboxRefine touch gathered =>
      exact h.service (fun _ _ htask => htask) touch gathered hctx
  | fieldValidation touch raised => exact h.validate touch raised hctx
  | visualAuthenticity gathered =>
      exact h.service (hvisual rfl) untouched gathered hctx
  | contentAuthenticity gathered =>
      exact h.service (hcontent rfl) untouched gathered hctx
  | judge touch gathered =>
      exact h.service (fun _ _ htask => htask) touch gathered hctx
  | repair repaired info validated raised =>
      exact h.step_repair repaired info validated raised hctx
  | judgeEscalation touch answer =>
      exact h.step_judgeEscalation touch answer hctx
  | transform applied stopped => exact h.step_transform applied stopped hctx
  | rules results =>
      intro tasks htasks
      exact hctx tasks (tasks_stepRules ctx results ▸ htasks)
  | assemble => exact hctx

end OfTask

theorem ofTask_visual :
    OfTask fun task : ExtractionTask Group => task.visual = [] where
  planned task hplanned := by
    rw [← hplanned]
    rfl
  regrouped _ _ _ htask := htask

theorem ofTask_content :
    OfTask fun task : ExtractionTask Group => task.content = none where
  planned task hplanned := by
    rw [← hplanned]
    rfl
  regrouped _ _ _ htask := htask

/-! ## Every file -/

def AllSlots (Good : FileSlot → Prop) (ctx : PipelineContext Group) : Prop :=
  ∀ files ∈ ctx.filesData, ∀ slot ∈ files, Good slot

def FileSlot.Whole (slot : FileSlot) : Prop :=
  ∃ segment, slot.segments = [segment] ∧ segment.filename = slot.filename ∧
    segment.pageStart = 1 ∧ segment.pageEnd = slot.pageCount

def FileSlot.Unclassified (slot : FileSlot) : Prop :=
  ∀ segment ∈ slot.segments, segment.classification = none

theorem mem_loadFiles {request : ExtractionRequest} {normalise : Normaliser}
    {slots : List FileSlot} (h : loadFiles request normalise = .ok slots)
    {slot : FileSlot} (hslot : slot ∈ slots) :
    ∃ slotIndex loaded, slot = fileSlot request slotIndex loaded := by
  unfold loadFiles at h
  cases hrows : loadedRows request.options normalise 0 request.files with
  | error exc =>
      rw [hrows] at h
      cases h
  | ok rows =>
      rw [hrows] at h
      cases h
      obtain ⟨slotIndex, -, rfl⟩ := List.mem_mapIdx.mp hslot
      exact ⟨slotIndex, _, rfl⟩

theorem filesData_stepPlanTasks (pdf : PdfLibrary)
    (ctx : PipelineContext Group) (cut : Option Nat) :
    (stepPlanTasks pdf ctx cut).ctx.filesData = ctx.filesData := by
  unfold stepPlanTasks
  cases hfiles : ctx.filesData with
  | none => exact hfiles
  | some files =>
      cases cut with
      | none => rfl
      | some planned => exact hfiles

theorem allSlots_runNode {Good : FileSlot → Prop} (pdf : PdfLibrary)
    {ctx : PipelineContext Group} (response : Response Group)
    (hload : ∀ request slotIndex loaded,
      Good (fileSlot request slotIndex loaded))
    (hdiscover : response.node = .discover → ∀ slot outcome, Good slot →
      Good (slot.discovered outcome))
    (hclassify : response.node = .classify → ∀ slot,  Good slot →
      (∀ only, Good (slot.assigned only)) ∧
      ∀ (gathered : Gathered (Nat × Nat) Failure ClassificationResult)
        (slotIndex : Nat), Good { slot with
          segments := gathered.deliver (slotIndex, ·) Segment.unresolved
            (Segment.classified ctx.request) slot.segments })
    (hctx : AllSlots Good ctx) :
    AllSlots Good (response.runNode pdf ctx).ctx := by
  by_cases hlater : Node.planTasks.position < response.node.position
  · have hfiles := (faithful_runNode pdf ctx hlater).filesData_eq
    intro files hmem
    exact hctx files (hfiles ▸ hmem)
  cases response with
  | load normalise stopped =>
      intro files hmem slot hslot
      obtain ⟨-, -, -, hsame | ⟨slots, hslots, hfiles⟩⟩ :=
        PipelineState.stepLoad_spec ctx normalise stopped
      · exact hctx files (hsame ▸ hmem) slot hslot
      · cases hfiles.symm.trans hmem
        obtain ⟨slotIndex, loaded, rfl⟩ := mem_loadFiles hslots hslot
        exact hload ctx.request slotIndex loaded
  | discover gathered =>
      change AllSlots Good (stepDiscover ctx gathered).ctx
      unfold stepDiscover
      cases hfiles : ctx.filesData with
      | none => exact hctx
      | some files =>
          rintro _ ⟨⟩
          exact Gathered.forall_mem_deliver Good
            (fun slot outcome _ => hdiscover rfl slot outcome) gathered id
            (hctx files hfiles)
  | classify gathered =>
      change AllSlots Good (stepClassifier pdf ctx gathered).ctx
      unfold stepClassifier
      cases hfiles : ctx.filesData with
      | none => exact hctx
      | some files =>
          cases soleDoctype ctx.request with
          | some only =>
              rintro _ ⟨⟩
              exact List.forall_mem_map.mpr fun slot hslot =>
                (hclassify rfl slot (hctx files hfiles slot hslot)).1 only
          | none =>
              rintro _ ⟨⟩
              exact forall_mem_mapIdx Good (fun slotIndex slot hslot =>
                (hclassify rfl slot hslot).2 gathered slotIndex)
                (hctx files hfiles)
  | planTasks cut =>
      intro files hmem
      exact hctx files (filesData_stepPlanTasks pdf ctx cut ▸ hmem)
  | _ =>
      simp only [Response.node] at hlater
      exact absurd (by decide) hlater

theorem request_runNode (pdf : PdfLibrary)
    (ctx : PipelineContext Group)
    (response : Response Group) :
    (response.runNode pdf ctx).ctx.request = ctx.request := by
  by_cases hlater : Node.planTasks.position < response.node.position
  · exact (faithful_runNode pdf ctx hlater).request_eq
  cases response with
  | load normalise stopped =>
      exact (PipelineState.stepLoad_spec ctx normalise stopped).1
  | discover gathered => exact (regrouped_stepDiscover ctx gathered).request_eq
  | classify gathered =>
      exact (regrouped_stepClassifier pdf ctx gathered).request_eq
  | planTasks cut =>
      change (stepPlanTasks pdf ctx cut).ctx.request = ctx.request
      unfold stepPlanTasks
      cases ctx.filesData with
      | none => rfl
      | some files => cases cut <;> rfl
  | _ =>
      simp only [Response.node] at hlater
      exact absurd (by decide) hlater

theorem whole_fileSlot (request : ExtractionRequest) (slotIndex : Nat)
    (loaded : LoadedRow) : (fileSlot request slotIndex loaded).Whole :=
  ⟨_, rfl, rfl, rfl, rfl⟩

theorem whole_of_classify {slot : FileSlot} (h : slot.Whole)
    (rewrite : List Segment → List Segment)
    (hrewrite : ∀ segment, ∃ other, rewrite [segment] = [other] ∧
      other.filename = segment.filename ∧
      other.pageStart = segment.pageStart ∧
      other.pageEnd = segment.pageEnd) :
    FileSlot.Whole { slot with segments := rewrite slot.segments } := by
  obtain ⟨segment, hsegments, hfilename, hstart, hend⟩ := h
  obtain ⟨other, hother, hfilename', hstart', hend'⟩ := hrewrite segment
  refine ⟨other, ?_, hfilename'.trans hfilename, hstart'.trans hstart,
    hend'.trans hend⟩
  rw [hsegments]
  exact hother

theorem whole_assigned {slot : FileSlot} (h : slot.Whole) (only : String) :
    (slot.assigned only).Whole := by
  refine whole_of_classify h (List.map _) fun segment => ⟨_, rfl, ?_⟩
  dsimp only
  split <;> exact ⟨rfl, rfl, rfl⟩

theorem whole_classified {slot : FileSlot} (h : slot.Whole)
    (request : ExtractionRequest)
    (gathered : Gathered (Nat × Nat) Failure ClassificationResult)
    (slotIndex : Nat) :
    FileSlot.Whole { slot with
      segments := gathered.deliver (slotIndex, ·) Segment.unresolved
        (Segment.classified request) slot.segments } := by
  refine whole_of_classify h (gathered.deliver (slotIndex, ·) _ _)
    fun segment => ⟨_, rfl, ?_⟩
  dsimp only
  split
  · split
    · exact ⟨rfl, rfl, rfl⟩
    next outcome _ => cases outcome <;> exact ⟨rfl, rfl, rfl⟩
  · exact ⟨rfl, rfl, rfl⟩

theorem unclassified_discovered {slot : FileSlot} (h : slot.Unclassified)
    (outcome : Except Failure (List DiscoveredSegment)) :
    (slot.discovered outcome).Unclassified := by
  cases outcome with
  | error exc => exact h
  | ok segments =>
      cases segments with
      | nil => exact h
      | cons first rest =>
          intro segment hsegment
          obtain ⟨discovered, -, rfl⟩ := List.mem_map.mp hsegment
          rfl

/-! ## Along a run -/

def PipelineContext.Clean (ctx : PipelineContext Group) : Node → Prop
  | .discover => AllSlots FileSlot.Whole ctx
  | .classify => AllSlots FileSlot.Unclassified ctx
  | .visualAuthenticity => AllTasks (fun task => task.visual = []) ctx
  | .contentAuthenticity => AllTasks (fun task => task.content = none) ctx
  | .repair => ctx.repair = none
  | .judgeEscalation => ctx.escalation = none
  | .transform => ctx.requestTransformations = []
  | .rules => ctx.ruleResults = []
  | _ => True

theorem clean_runNode (pdf : PdfLibrary) {ctx : PipelineContext Group}
    {response : Response Group} {node : Node} (hother : response.node ≠ node)
    (h : ctx.Clean node) : (response.runNode pdf ctx).ctx.Clean node := by
  have hwritten := unwritten_runNode pdf ctx response
  cases node with
  | discover =>
      exact allSlots_runNode pdf response whole_fileSlot
        (fun heq => absurd heq hother)
        (fun _ _ hslot => ⟨whole_assigned hslot, whole_classified hslot _⟩) h
  | classify =>
      refine allSlots_runNode pdf response ?_
        (fun _ _ outcome hslot => unclassified_discovered hslot outcome)
        (fun heq => absurd heq hother) h
      intro request slotIndex loaded segment hsegment
      rw [List.mem_singleton.mp hsegment]
  | visualAuthenticity =>
      exact ofTask_visual.runNode pdf response (fun heq => absurd heq hother)
        (fun _ _ _ htask => htask) h
  | contentAuthenticity =>
      exact ofTask_content.runNode pdf response (fun _ _ _ htask => htask)
        (fun heq => absurd heq hother) h
  | repair => exact (hwritten.repair hother).trans h
  | judgeEscalation => exact (hwritten.escalation hother).trans h
  | transform => exact (hwritten.requestTransformations hother).trans h
  | rules => exact (hwritten.ruleResults hother).trans h
  | _ => trivial

theorem PlanOf.task_segments {pdf : PdfLibrary} {ctx : PipelineContext Group}
    {tasks : List (ExtractionTask Group)} {files : List FileSlot}
    (h : PlanOf pdf ctx tasks files) :
    tasks.map ExtractionTask.segment =
      (files.flatMap FileSlot.segments).filter
        (Segment.declared ctx.request) := by
  have hsegments := congrArg (List.map ExtractionTask.segment) h.planned_eq
  rw [List.map_map, List.map_map] at hsegments
  exact hsegments.trans (routes_task pdf _ _)

namespace PipelineState

variable {pdf : PdfLibrary} {defaultModel : String}
  {request : ExtractionRequest} {labels : List (Option (Response Group))}
  {state : PipelineState Group}

theorem nodes_of_runs (hruns : Runs pdf defaultModel request labels state) :
    state.trace.map ExecutionTraceEntry.node ++ state.remaining =
      Node.chain request := by
  refine LabelledStep.run_invariant (fun state : PipelineState Group =>
    state.trace.map ExecutionTraceEntry.node ++ state.remaining =
      Node.chain request) ?_ rfl hruns
  intro before label after hbefore hstep
  cases stepped hstep with
  | skipped hremaining =>
      rw [← hbefore, hremaining]
      simp
  | ran hremaining _ =>
      rw [← hbefore, hremaining]
      simp

theorem clean_of_runs (hruns : Runs pdf defaultModel request labels state)
    {node : Node} (hnode : node ∉ Node.chain request) :
    state.ctx.Clean node ∧ ¬ namesNode state.ctx.pipelineErrors node := by
  refine (LabelledStep.run_invariant (fun state : PipelineState Group =>
    node ∉ state.remaining ∧ state.ctx.Clean node ∧
      ¬ namesNode state.ctx.pipelineErrors node) ?_ ⟨hnode, ?_, ?_⟩ hruns).2
  · rintro before label after ⟨hbefore, hclean, hnames⟩ hstep
    cases stepped hstep with
    | skipped hremaining =>
        rw [hremaining, List.mem_cons, not_or] at hbefore
        exact ⟨hbefore.2, hclean, hnames⟩
    | @ran response _ hremaining hanswers =>
        rw [hremaining, List.mem_cons, not_or] at hbefore
        refine ⟨hbefore.2, clean_runNode pdf (Ne.symm hbefore.1) hclean, ?_⟩
        rw [namesNode_of_files (files_runNode pdf before.ctx hanswers)
          hbefore.1]
        exact hnames
  · cases node <;> first | trivial | rfl | (intro _ hnone; cases hnone)
  · simp [initial, namesNode]

theorem Planning.segment_mem {normalise : Normaliser}
    (h : state.Planning pdf request normalise) {segment : Segment}
    (hsegment : segment ∈ (state.ctx.tasks.getD []).map ExtractionTask.segment ∨
      segment ∈ state.ctx.unmatchedSegments) :
    ∃ files ∈ state.ctx.filesData, ∃ slot ∈ files,
      segment ∈ slot.segments := by
  cases htasks : state.ctx.tasks with
  | none =>
      rw [htasks, (h.unplanned htasks).1] at hsegment
      rcases hsegment with hnone | hnone <;> cases hnone
  | some tasks =>
      obtain ⟨-, files, hplan⟩ := h.planned tasks htasks
      rw [htasks, Option.getD_some, hplan.task_segments,
        hplan.unmatchedSegments_eq, routes_unmatched, List.mem_filter,
        List.mem_filter, ← and_or_left] at hsegment
      exact ⟨files, hplan.filesData_eq, List.mem_flatMap.mp hsegment.1⟩

theorem Planning.segment_of_document {normalise : Normaliser}
    (h : state.Planning pdf request normalise) {document : Document Group}
    (hdocument : document ∈
      state.result.documents ++ state.result.discoveredDocuments) :
    ∃ files ∈ state.ctx.filesData, ∃ slot ∈ files,
      ∃ segment ∈ slot.segments,
        document.sourceFile = some segment.filename ∧
          document.pages = pagesRange segment.pageStart segment.pageEnd := by
  rcases List.mem_append.mp hdocument with htask | hunmatched
  · obtain ⟨task, hmem, rfl⟩ := List.mem_map.mp htask
    obtain ⟨files, hfiles, slot, hslot, hsegment⟩ :=
      h.segment_mem (.inl (List.mem_map_of_mem hmem))
    exact ⟨files, hfiles, slot, hslot, _, hsegment, rfl, rfl⟩
  · obtain ⟨segment, hmem, rfl⟩ := List.mem_map.mp hunmatched
    obtain ⟨files, hfiles, slot, hslot, hsegment⟩ := h.segment_mem (.inr hmem)
    exact ⟨files, hfiles, slot, hslot, segment, hsegment, rfl, rfl⟩

theorem fileInfo_mem {files : List FileSlot}
    (hfiles : files ∈ state.ctx.filesData) {slot : FileSlot}
    (hslot : slot ∈ files) : fileInfo slot ∈ state.result.files := by
  change fileInfo slot ∈ (state.ctx.filesData.getD []).map fileInfo
  rw [hfiles, Option.getD_some]
  exact List.mem_map_of_mem hslot

structure OnlyAsked (request : ExtractionRequest)
    (state : PipelineState Group) : Prop where
  nodes : state.trace.map ExecutionTraceEntry.node ++ state.remaining =
    Node.chain request
  errors : ∀ node ∉ Node.chain request,
    ∀ error ∈ state.result.pipeline.errors, error.node ≠ node.name
  whole : .discover ∉ Node.chain request →
    ∀ document ∈ state.result.documents ++ state.result.discoveredDocuments,
      ∃ file ∈ state.result.files,
        document.sourceFile = some file.filename ∧
          document.pages = pagesRange 1 file.pageCount
  unclassified : .classify ∉ Node.chain request →
    ∀ file ∈ state.result.files, file.classification = none
  visual : .visualAuthenticity ∉ Node.chain request →
    ∀ document ∈ state.result.documents, document.authenticity.visual = []
  content : .contentAuthenticity ∉ Node.chain request →
    ∀ document ∈ state.result.documents, document.authenticity.content = none
  repair : .repair ∉ Node.chain request → state.result.pipeline.repair = none
  escalation : .judgeEscalation ∉ Node.chain request →
    state.result.pipeline.escalation = none
  requestTransformations : .transform ∉ Node.chain request →
    state.result.requestTransformations = []
  ruleResults : .rules ∉ Node.chain request → state.result.ruleResults = []

/--
However the services answer, a run leaves in its result nothing of a stage
that the request did not ask for.
-/
theorem only_asked (pdf : PdfLibrary) (defaultModel : String)
    (request : ExtractionRequest) (normalise : Normaliser) (stopped : Bool)
    (labels : List (Option (Response Group))) (state : PipelineState Group)
    (hruns : Runs pdf defaultModel request
      (some (.load normalise stopped) :: labels) state) :
    OnlyAsked request state where
  nodes := nodes_of_runs hruns
  errors node hnode error herror hname :=
    (clean_of_runs hruns hnode).2 ⟨error, herror, hname⟩
  whole hnode document hdocument := by
    have hplanning := planning_of_runs hruns
    have hwhole : AllSlots FileSlot.Whole state.ctx :=
      (clean_of_runs hruns hnode).1
    obtain ⟨files, hfiles, slot, hslot, segment, hmem, hsource, hpages⟩ :=
      hplanning.segment_of_document hdocument
    obtain ⟨only, honly, hfilename, hstart, hend⟩ :=
      hwhole files hfiles slot hslot
    rw [honly, List.mem_singleton] at hmem
    subst hmem
    refine ⟨fileInfo slot, fileInfo_mem hfiles hslot, ?_, ?_⟩
    · rw [hsource, hfilename]
      rfl
    · rw [hpages, hstart, hend]
      rfl
  unclassified hnode file hfile := by
    have hclean : AllSlots FileSlot.Unclassified state.ctx :=
      (clean_of_runs hruns hnode).1
    obtain ⟨slot, hslot, rfl⟩ := List.mem_map.mp hfile
    cases hfiles : state.ctx.filesData with
    | none =>
        rw [hfiles] at hslot
        cases hslot
    | some files =>
        rw [hfiles] at hslot
        have hnone := hclean files hfiles slot hslot
        unfold fileInfo
        dsimp only
        split
        next segment hsegment =>
          rw [hnone segment (by simp [hsegment])]
          rfl
        next => rfl
  visual hnode document hdocument := by
    obtain ⟨task, htask, rfl⟩ := List.mem_map.mp hdocument
    exact allTasks_getD (clean_of_runs hruns hnode).1 htask
  content hnode document hdocument := by
    obtain ⟨task, htask, rfl⟩ := List.mem_map.mp hdocument
    exact allTasks_getD (clean_of_runs hruns hnode).1 htask
  repair hnode := (clean_of_runs hruns hnode).1
  escalation hnode := (clean_of_runs hruns hnode).1
  requestTransformations hnode := (clean_of_runs hruns hnode).1
  ruleResults hnode := (clean_of_runs hruns hnode).1

theorem only_asked_scan : ∃ state : PipelineState Unit,
    Runs bytePages "model" scanRequest scanLabels state ∧
      state.trace.length = 3 ∧ OnlyAsked scanRequest state := by
  have hrun : (LabelledStep.run (step bytePages)
      (initial "model" scanRequest : PipelineState Unit) scanLabels).map
        (fun state => state.trace.length) = some 3 := by
    decide
  obtain ⟨state, hstate, hlength⟩ := Option.map_eq_some_iff.mp hrun
  exact ⟨state, hstate, hlength,
    only_asked bytePages "model" scanRequest scanPages false _ state hstate⟩

end PipelineState

end Flydocs
