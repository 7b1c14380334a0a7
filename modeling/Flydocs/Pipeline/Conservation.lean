import Flydocs.Pipeline.Frame

/-!
# Segments are neither lost nor duplicated

Discovery and classification rewrite the segments of a slot but never leave it
without one, and planning sends each of them to exactly one side: to a task or
to the unmatched segments.  No later node moves them.
-/

namespace Flydocs

open Foundation Interfaces

variable {Group : Type*}

/-! ## Slots -/

def FileSlot.unsplit (slot : FileSlot) : FileSlot :=
  { slot with segments := [] }

structure Segment.Inside (slot : FileSlot) (segment : Segment) : Prop where
  fileIndex_eq : segment.fileIndex = slot.fileIndex
  filename_eq : segment.filename = slot.filename
  mediaType_eq : segment.mediaType = slot.mediaType
  filePageCount_eq : segment.filePageCount = slot.pageCount

/-- The slot owns a segment, and all of its segments are its own. -/
structure FileSlot.Segmented (slot : FileSlot) : Prop where
  segments_ne_nil : slot.segments ≠ []
  inside : ∀ segment ∈ slot.segments, segment.Inside slot

theorem segmented_fileSlot (request : ExtractionRequest) (slotIndex : Nat)
    (loaded : LoadedRow) : (fileSlot request slotIndex loaded).Segmented := by
  constructor
  · exact List.cons_ne_nil _ _
  · intro segment hsegment
    rw [List.mem_singleton.mp hsegment]
    exact ⟨rfl, rfl, rfl, rfl⟩

theorem segmented_discovered {slot : FileSlot} (h : slot.Segmented)
    (outcome : Except Failure (List DiscoveredSegment)) :
    (slot.discovered outcome).Segmented := by
  cases outcome with
  | error exc => exact h
  | ok segments =>
      cases segments with
      | nil => exact h
      | cons first rest =>
          constructor
          · exact List.cons_ne_nil _ _
          · intro segment hsegment
            obtain ⟨discovered, -, rfl⟩ := List.mem_map.mp hsegment
            exact ⟨rfl, rfl, rfl, rfl⟩

theorem segmented_assigned {slot : FileSlot} (h : slot.Segmented)
    (only : String) : (slot.assigned only).Segmented := by
  constructor
  · simpa [FileSlot.assigned] using h.segments_ne_nil
  · intro segment hsegment
    obtain ⟨original, horiginal, rfl⟩ := List.mem_map.mp hsegment
    have hinside := h.inside original horiginal
    split <;>
      exact ⟨hinside.fileIndex_eq, hinside.filename_eq, hinside.mediaType_eq,
        hinside.filePageCount_eq⟩

theorem inside_classified {request : ExtractionRequest} {slot : FileSlot}
    {segment : Segment} (h : segment.Inside slot)
    (outcome : Except Failure ClassificationResult) :
    (segment.classified request outcome).Inside slot := by
  cases outcome <;>
    exact ⟨h.fileIndex_eq, h.filename_eq, h.mediaType_eq, h.filePageCount_eq⟩

theorem segmented_classified {slot : FileSlot} (h : slot.Segmented)
    (request : ExtractionRequest) (slotIndex : Nat)
    (gathered : Gathered (Nat × Nat) Failure ClassificationResult) :
    FileSlot.Segmented { slot with
      segments := gathered.deliver (slotIndex, ·) Segment.unresolved
        (Segment.classified request) slot.segments } := by
  constructor
  · simpa [Gathered.deliver] using h.segments_ne_nil
  · intro segment hsegment
    have hinside : segment.Inside slot := by
      refine Gathered.forall_mem_deliver (Segment.Inside slot) ?_ gathered
        (slotIndex, ·) h.inside segment hsegment
      intro original outcome _ horiginal
      exact inside_classified horiginal outcome
    exact ⟨hinside.fileIndex_eq, hinside.filename_eq, hinside.mediaType_eq,
      hinside.filePageCount_eq⟩

/-! ## Planning -/

theorem filterMap_zipIdx_eq_filter {Item : Type*}
    {pick : Item × Nat → Option Item} {keep : Item → Bool}
    (hpick : ∀ entry, pick entry = if keep entry.1 then some entry.1 else none)
    (items : List Item) : items.zipIdx.filterMap pick = items.filter keep := by
  have hguard : pick = Option.guard keep ∘ Prod.fst := by
    funext entry
    simp [hpick, Option.guard]
  rw [hguard, ← List.filterMap_map, List.zipIdx_map_fst,
    List.filterMap_eq_filter]

section Planning

variable (pdf : PdfLibrary) (request : ExtractionRequest)

def Segment.declared (segment : Segment) : Bool :=
  (segment.docSpec request).isSome

theorem planSegment_task (slot : FileSlot) (segIndex : Nat)
    (segment : Segment) :
    (planSegment pdf request slot segIndex segment :
        Route Group).task?.map ExtractionTask.segment =
      if segment.declared request then some segment else none := by
  unfold planSegment Segment.declared
  cases segment.docSpec request <;> rfl

theorem planSegment_unmatched (slot : FileSlot) (segIndex : Nat)
    (segment : Segment) :
    (planSegment pdf request slot segIndex segment :
        Route Group).unmatched? =
      if !segment.declared request then some segment else none := by
  unfold planSegment Segment.declared
  cases segment.docSpec request <;> rfl

structure ExtractionTask.PlannedFrom (pdf : PdfLibrary) (slot : FileSlot)
    (task : ExtractionTask Group) : Prop where
  segment_mem : task.segment ∈ slot.segments
  sliceBytes_eq :
    task.sliceBytes = (sliceSegmentBytes pdf slot task.segment).bytes
  slicePages_eq :
    task.slicePages = (sliceSegmentBytes pdf slot task.segment).pages

theorem mem_planned {files : List FileSlot} {task : ExtractionTask Group}
    (h : task ∈ (routes pdf request files : List (Route Group)).filterMap
      Route.task?) :
    task.hasGroups = false ∧ ∃ slot ∈ files, task.PlannedFrom pdf slot := by
  obtain ⟨route, hroute, htask⟩ := List.mem_filterMap.mp h
  obtain ⟨slot, hslot, hmem⟩ := List.mem_flatMap.mp hroute
  obtain ⟨⟨segment, segIndex⟩, hsegment, rfl⟩ := List.mem_map.mp hmem
  have hin : segment ∈ slot.segments := by
    rw [← List.zipIdx_map_fst 0 slot.segments]
    exact List.mem_map_of_mem hsegment
  cases hspec : segment.docSpec request with
  | none => simp [planSegment, hspec, Route.task?] at htask
  | some docSpec =>
      simp only [planSegment, hspec, Route.task?, Option.some.injEq] at htask
      subst htask
      exact ⟨rfl, slot, hslot, hin, rfl, rfl⟩

/-- The tasks are the declared segments, in order. -/
theorem routes_task (files : List FileSlot) :
    ((routes pdf request files : List (Route Group)).filterMap
        Route.task?).map ExtractionTask.segment =
      (files.flatMap FileSlot.segments).filter (Segment.declared request) := by
  rw [routes, List.filterMap_flatMap, List.map_flatMap, List.filter_flatMap]
  congr 1
  funext slot
  rw [List.filterMap_map, List.map_filterMap]
  exact filterMap_zipIdx_eq_filter
    (fun entry => planSegment_task pdf request slot entry.2 entry.1) _

theorem routes_unmatched (files : List FileSlot) :
    (routes pdf request files : List (Route Group)).filterMap
        Route.unmatched? =
      (files.flatMap FileSlot.segments).filter
        fun segment => !segment.declared request := by
  rw [routes, List.filterMap_flatMap, List.filter_flatMap]
  congr 1
  funext slot
  rw [List.filterMap_map]
  exact filterMap_zipIdx_eq_filter
    (fun entry => planSegment_unmatched pdf request slot entry.2 entry.1) _

end Planning

/-! ## Steps that regroup the segments -/

structure Regroups (update : List FileSlot → List FileSlot) : Prop where
  unsplit : ∀ files,
    (update files).map FileSlot.unsplit = files.map FileSlot.unsplit
  segmented : ∀ files, (∀ slot ∈ files, slot.Segmented) →
    ∀ slot ∈ update files, slot.Segmented

theorem regroups_discover
    (gathered : Gathered Nat Failure (List DiscoveredSegment)) :
    Regroups (gathered.deliver id FileSlot.discovers FileSlot.discovered) := by
  constructor
  · refine Gathered.map_deliver FileSlot.unsplit ?_ gathered id
    intro slot outcome
    cases outcome with
    | error exc => rfl
    | ok segments => cases segments <;> rfl
  · intro files hfiles
    refine Gathered.forall_mem_deliver FileSlot.Segmented ?_ gathered id hfiles
    intro slot outcome _ hslot
    exact segmented_discovered hslot outcome

theorem regroups_assigned (only : String) :
    Regroups (List.map (FileSlot.assigned only)) := by
  constructor
  · intro files
    rw [List.map_map]
    rfl
  · intro files hfiles slot hslot
    obtain ⟨original, horiginal, rfl⟩ := List.mem_map.mp hslot
    exact segmented_assigned (hfiles original horiginal) only

theorem regroups_classified (request : ExtractionRequest)
    (gathered : Gathered (Nat × Nat) Failure ClassificationResult) :
    Regroups (classifiedFiles request gathered) := by
  constructor
  · exact map_mapIdx_eq FileSlot.unsplit fun _ _ => rfl
  · intro files hfiles
    refine forall_mem_mapIdx FileSlot.Segmented ?_ hfiles
    intro slotIndex slot hslot
    exact segmented_classified hslot request slotIndex gathered

structure Regrouped (before after : PipelineContext Group) : Prop where
  request_eq : after.request = before.request
  tasks_eq : after.tasks = before.tasks
  unmatchedSegments_eq : after.unmatchedSegments = before.unmatchedSegments
  filesData_eq : ∃ update, Regroups update ∧
    after.filesData = before.filesData.map update

theorem Regrouped.refl (ctx : PipelineContext Group) : Regrouped ctx ctx :=
  ⟨rfl, rfl, rfl, id, ⟨fun _ => rfl, fun _ h => h⟩, by simp⟩

theorem regrouped_update {ctx : PipelineContext Group}
    {files : List FileSlot} {update : List FileSlot → List FileSlot}
    (hupdate : Regroups update) (hfiles : ctx.filesData = some files)
    (entries : List PipelineError) :
    Regrouped ctx (({ ctx with filesData := some (update files) } :
      PipelineContext Group).record entries) :=
  ⟨rfl, rfl, rfl, update, hupdate, by simp [PipelineContext.record, hfiles]⟩

theorem regrouped_stepDiscover (ctx : PipelineContext Group)
    (gathered : Gathered Nat Failure (List DiscoveredSegment)) :
    Regrouped ctx (stepDiscover ctx gathered).ctx := by
  unfold stepDiscover
  cases hfiles : ctx.filesData with
  | none => exact .refl ctx
  | some files => exact regrouped_update (regroups_discover gathered) hfiles _

theorem regrouped_stepClassifier (pdf : PdfLibrary)
    (ctx : PipelineContext Group)
    (gathered : Gathered (Nat × Nat) Failure ClassificationResult) :
    Regrouped ctx (stepClassifier pdf ctx gathered).ctx := by
  unfold stepClassifier
  cases hfiles : ctx.filesData with
  | none => exact .refl ctx
  | some files =>
      cases soleDoctype ctx.request with
      | some only =>
          exact ⟨rfl, rfl, rfl, _, regroups_assigned only, by simp [hfiles]⟩
      | none =>
          exact regrouped_update (regroups_classified ctx.request gathered)
            hfiles _

/-! ## What holds along a run -/

structure Loaded (request : ExtractionRequest) (normalise : Normaliser)
    (files : List FileSlot) : Prop where
  slots_eq : ∃ slots, loadFiles request normalise = .ok slots ∧
    files.map FileSlot.unsplit = slots.map FileSlot.unsplit
  segmented : ∀ slot ∈ files, slot.Segmented

/--
The tasks and the unmatched segments are the plan of the slots, and the tasks
that were given groups have bytes.
-/
structure PlanOf (pdf : PdfLibrary) (ctx : PipelineContext Group)
    (tasks : List (ExtractionTask Group)) (files : List FileSlot) : Prop where
  filesData_eq : ctx.filesData = some files
  planned_eq : tasks.map ExtractionTask.asPlanned =
    ((routes pdf ctx.request files : List (Route Group)).filterMap
      Route.task?).map ExtractionTask.asPlanned
  unmatchedSegments_eq : ctx.unmatchedSegments =
    (routes pdf ctx.request files : List (Route Group)).filterMap
      Route.unmatched?
  grounded : ∀ task ∈ tasks, task.Grounded

structure PipelineState.Planning (pdf : PdfLibrary)
    (request : ExtractionRequest) (normalise : Normaliser)
    (state : PipelineState Group) : Prop where
  request_eq : state.ctx.request = request
  ordered : state.remaining.Pairwise fun first second =>
    first.position < second.position
  loading : ∀ node ∈ state.remaining,
    Node.load.position < node.position
  loaded : ∀ files, state.ctx.filesData = some files →
    Loaded request normalise files
  unplanned : state.ctx.tasks = none → state.ctx.unmatchedSegments = [] ∧
    ⟨.planTasks, .success⟩ ∉ state.trace
  planned : ∀ tasks, state.ctx.tasks = some tasks →
    (∀ node ∈ state.remaining, Node.planTasks.position < node.position) ∧
      ∃ files, PlanOf pdf state.ctx tasks files

namespace PipelineState

variable {pdf : PdfLibrary} {request : ExtractionRequest}
  {normalise : Normaliser} {state next : PipelineState Group}

theorem Planning.unloaded (h : state.Planning pdf request normalise)
    {node : Node} {remaining : List Node}
    (hremaining : state.remaining = node :: remaining)
    (hearly : node.position ≤ Node.planTasks.position) :
    state.ctx.tasks = none := by
  cases htasks : state.ctx.tasks with
  | none => rfl
  | some tasks =>
      have hlater := (h.planned tasks htasks).1 node (by simp [hremaining])
      omega

theorem Planning.tail (h : state.Planning pdf request normalise) {node : Node}
    {remaining : List Node} (hremaining : state.remaining = node :: remaining) :
    (remaining.Pairwise fun first second => first.position < second.position) ∧
      (∀ later ∈ remaining, node.position < later.position) ∧
      ∀ later ∈ remaining, Node.load.position < later.position := by
  have hordered := h.ordered
  have hloading := h.loading
  rw [hremaining] at hordered hloading
  rw [List.pairwise_cons] at hordered
  exact ⟨hordered.2, hordered.1,
    fun later hlater => hloading later (List.mem_cons_of_mem _ hlater)⟩

theorem planning_of_faithful {ctx : PipelineContext Group} {node : Node}
    {remaining : List Node} {entry : ExecutionTraceEntry}
    (h : state.Planning pdf request normalise)
    (hremaining : state.remaining = node :: remaining)
    (hctx : Faithful state.ctx ctx)
    (hentry : entry ≠ ⟨.planTasks, .success⟩) :
    (⟨ctx, remaining, state.trace ++ [entry]⟩ :
      PipelineState Group).Planning pdf request normalise := by
  obtain ⟨hordered, -, hloading⟩ := h.tail hremaining
  obtain ⟨update, hupdate, htasks⟩ := hctx.tasks_eq
  refine ⟨hctx.request_eq.trans h.request_eq, hordered, hloading, ?_, ?_, ?_⟩
  · intro files hfiles
    rw [hctx.filesData_eq] at hfiles
    exact h.loaded files hfiles
  · intro hnone
    rw [htasks, Option.map_eq_none_iff] at hnone
    obtain ⟨hunmatched, htrace⟩ := h.unplanned hnone
    refine ⟨hctx.unmatchedSegments_eq.trans hunmatched, ?_⟩
    simpa [List.mem_append, htrace] using hentry.symm
  · intro tasks hsome
    rw [htasks, Option.map_eq_some_iff] at hsome
    obtain ⟨before, hbefore, rfl⟩ := hsome
    obtain ⟨hlater, files, hplan⟩ := h.planned before hbefore
    refine ⟨fun later hmem => hlater later (by simp [hremaining, hmem]),
      files, ?_⟩
    exact
      { filesData_eq := hctx.filesData_eq.trans hplan.filesData_eq
        planned_eq := by
          rw [hupdate.planned, hplan.planned_eq, hctx.request_eq]
        unmatchedSegments_eq := by
          rw [hctx.unmatchedSegments_eq, hplan.unmatchedSegments_eq,
            hctx.request_eq]
        grounded := hupdate.grounded before hplan.grounded }

theorem planning_of_regrouped {ctx : PipelineContext Group} {node : Node}
    {remaining : List Node} {entry : ExecutionTraceEntry}
    (h : state.Planning pdf request normalise)
    (hremaining : state.remaining = node :: remaining)
    (hearly : node.position ≤ Node.planTasks.position)
    (hctx : Regrouped state.ctx ctx)
    (hentry : entry ≠ ⟨.planTasks, .success⟩) :
    (⟨ctx, remaining, state.trace ++ [entry]⟩ :
      PipelineState Group).Planning pdf request normalise := by
  obtain ⟨hordered, -, hloading⟩ := h.tail hremaining
  obtain ⟨update, hupdate, hfiles⟩ := hctx.filesData_eq
  have hnone := h.unloaded hremaining hearly
  refine ⟨hctx.request_eq.trans h.request_eq, hordered, hloading, ?_, ?_, ?_⟩
  · intro files hsome
    rw [hfiles, Option.map_eq_some_iff] at hsome
    obtain ⟨before, hbefore, rfl⟩ := hsome
    have hloaded := h.loaded before hbefore
    obtain ⟨slots, hslots, hunsplit⟩ := hloaded.slots_eq
    exact ⟨⟨slots, hslots, (hupdate.unsplit before).trans hunsplit⟩,
      hupdate.segmented before hloaded.segmented⟩
  · intro _
    obtain ⟨hunmatched, htrace⟩ := h.unplanned hnone
    refine ⟨hctx.unmatchedSegments_eq.trans hunmatched, ?_⟩
    simpa [List.mem_append, htrace] using hentry.symm
  · intro tasks hsome
    rw [hctx.tasks_eq, hnone] at hsome
    cases hsome

theorem planning_planTasks {remaining : List Node} {cut : Option Nat}
    (h : state.Planning pdf request normalise)
    (hremaining : state.remaining = .planTasks :: remaining) :
    (⟨(stepPlanTasks pdf state.ctx cut).ctx, remaining, state.trace ++
        [⟨.planTasks, if (stepPlanTasks pdf state.ctx cut).failed then .failed
          else .success⟩]⟩ :
      PipelineState Group).Planning pdf request normalise := by
  have hnone := h.unloaded hremaining le_rfl
  obtain ⟨hordered, hlater, hloading⟩ := h.tail hremaining
  obtain ⟨hunmatched, htrace⟩ := h.unplanned hnone
  cases hfiles : state.ctx.filesData with
  | none =>
      have hstep : stepPlanTasks pdf state.ctx cut = ⟨state.ctx, true⟩ := by
        simp [stepPlanTasks, hfiles]
      rw [hstep]
      exact planning_of_faithful h hremaining (.refl _) (by simp)
  | some files =>
      cases cut with
      | some planned =>
          have hstep : ∃ entries, stepPlanTasks pdf state.ctx (some planned) =
              ⟨state.ctx.record entries, true⟩ := by
            simp [stepPlanTasks, hfiles]
          obtain ⟨entries, hstep⟩ := hstep
          rw [hstep]
          exact planning_of_faithful h hremaining
            ((Faithful.refl _).record entries) (by simp)
      | none =>
          simp only [stepPlanTasks, hfiles]
          refine ⟨h.request_eq, hordered, hloading, ?_, ?_, ?_⟩
          · intro others hothers
            exact h.loaded others (hfiles.trans hothers)
          · intro htasks
            cases htasks
          · intro tasks htasks
            cases htasks
            refine ⟨hlater, files, rfl, rfl, ?_, ?_⟩
            · simp [PipelineContext.record, hunmatched]
            · intro task htask hgroups
              rw [(mem_planned pdf _ htask).1] at hgroups
              cases hgroups

theorem planning_step (h : state.Planning pdf request normalise)
    {label : Option (Response Group)}
    (hstep : step pdf state label = some next) :
    next.Planning pdf request normalise := by
  cases stepped hstep with
  | skipped hremaining =>
      exact planning_of_faithful h hremaining (.refl _) (by simp)
  | @ran response remaining hremaining hanswers =>
      by_cases hlater : Node.planTasks.position < response.node.position
      · refine planning_of_faithful h hremaining
          (faithful_runNode pdf state.ctx hlater) ?_
        intro hentry
        have hnode : response.node = .planTasks :=
          congrArg ExecutionTraceEntry.node hentry
        rw [hnode] at hlater
        exact lt_irrefl _ hlater
      · have hearly : response.node.position ≤ Node.planTasks.position := by
          omega
        cases response with
        | load normalise stopped =>
            have hload := h.loading .load (by rw [hremaining]; simp [Response.node])
            exact absurd hload (lt_irrefl _)
        | discover gathered =>
            exact planning_of_regrouped h hremaining hearly
              (regrouped_stepDiscover _ gathered) (by simp [Response.node])
        | classify gathered =>
            exact planning_of_regrouped h hremaining hearly
              (regrouped_stepClassifier pdf _ gathered)
              (by simp [Response.node])
        | planTasks cut => exact planning_planTasks h hremaining
        | _ =>
            simp only [Response.node] at hlater
            exact absurd (by decide) hlater

theorem segmented_loadFiles {slots : List FileSlot}
    (h : loadFiles request normalise = .ok slots) :
    ∀ slot ∈ slots, slot.Segmented := by
  unfold loadFiles at h
  cases hrows : loadedRows request.options normalise 0 request.files with
  | error exc =>
      rw [hrows] at h
      cases h
  | ok rows =>
      rw [hrows] at h
      cases h
      intro slot hslot
      obtain ⟨slotIndex, -, rfl⟩ := List.mem_mapIdx.mp hslot
      exact segmented_fileSlot request slotIndex _

theorem stepLoad_spec (ctx : PipelineContext Group) (normalise : Normaliser)
    (stopped : Bool) :
    let after := (stepLoad ctx normalise stopped).ctx
    after.request = ctx.request ∧ after.tasks = ctx.tasks ∧
      after.unmatchedSegments = ctx.unmatchedSegments ∧
      (after.filesData = ctx.filesData ∨
        ∃ slots, loadFiles ctx.request normalise = .ok slots ∧
          after.filesData = some slots) := by
  unfold stepLoad
  cases loadFiles ctx.request normalise with
  | error exc => exact ⟨rfl, rfl, rfl, .inl rfl⟩
  | ok slots =>
      cases stopped with
      | true => exact ⟨rfl, rfl, rfl, .inl rfl⟩
      | false => exact ⟨rfl, rfl, rfl, .inr ⟨slots, rfl, rfl⟩⟩

theorem planning_load {defaultModel : String} {stopped : Bool}
    (hstep : step pdf (initial defaultModel request)
      (some (.load normalise stopped)) = some next) :
    next.Planning pdf request normalise := by
  cases stepped hstep with
  | @ran _ remaining hremaining hanswers =>
      obtain ⟨hrequest, htasks, hunmatched, hfiles⟩ := stepLoad_spec
        (initial defaultModel request : PipelineState Group).ctx normalise
        stopped
      have hordered := Node.chain_ordered request
      rw [show Node.chain request = .load :: remaining from hremaining,
        List.pairwise_cons] at hordered
      refine ⟨hrequest, hordered.2, hordered.1, ?_, fun _ => ⟨hunmatched, ?_⟩,
        ?_⟩
      · intro files hsome
        rcases hfiles with hnone | ⟨slots, hload, hslots⟩
        · cases hnone.symm.trans hsome
        · cases hslots.symm.trans hsome
          exact ⟨⟨files, hload, rfl⟩, segmented_loadFiles hload⟩
      · simp [initial, Response.node]
      · intro tasks hsome
        cases htasks.symm.trans hsome

theorem planning_of_runs {defaultModel : String} {stopped : Bool}
    {labels : List (Option (Response Group))}
    (hruns : Runs pdf defaultModel request
      (some (.load normalise stopped) :: labels) state) :
    state.Planning pdf request normalise := by
  obtain ⟨first, hload, hrest⟩ := LabelledStep.run_cons_eq_some.mp hruns
  exact LabelledStep.run_invariant (Planning pdf request normalise)
    (fun _ _ _ h hstep => planning_step h hstep) (planning_load hload) hrest

end PipelineState

/-! ## Conservation -/

def Segment.place (segment : Segment) : Option String × List Int :=
  (some segment.filename, pagesRange segment.pageStart segment.pageEnd)

def documentPlace (document : Document Group) : Option String × List Int :=
  (document.sourceFile, document.pages)

namespace PipelineState

/--
The tasks and the unmatched segments share the segments of all slots out
between them, and the documents of the result lie where their segments do.
-/
structure Conserved (request : ExtractionRequest) (state : PipelineState Group)
    (files : List FileSlot) (tasks : List (ExtractionTask Group)) : Prop where
  filesData_eq : state.ctx.filesData = some files
  tasks_eq : state.ctx.tasks = some tasks
  task_segments : tasks.map ExtractionTask.segment =
    (files.flatMap FileSlot.segments).filter (Segment.declared request)
  unmatched_segments : state.ctx.unmatchedSegments =
    (files.flatMap FileSlot.segments).filter
      fun segment => !segment.declared request
  documents_place : state.result.documents.map documentPlace =
    tasks.map fun task => task.segment.place
  discovered_place : state.result.discoveredDocuments.map documentPlace =
    state.ctx.unmatchedSegments.map Segment.place

theorem Planning.conserved {pdf : PdfLibrary} {request : ExtractionRequest}
    {normalise : Normaliser} {state : PipelineState Group}
    (h : state.Planning pdf request normalise)
    (hplanned : ⟨.planTasks, .success⟩ ∈ state.trace) :
    ∃ files tasks, Loaded request normalise files ∧
      state.Conserved request files tasks := by
  cases htasks : state.ctx.tasks with
  | none => exact absurd hplanned (h.unplanned htasks).2
  | some tasks =>
      obtain ⟨-, files, hplan⟩ := h.planned tasks htasks
      have hsegments : tasks.map ExtractionTask.segment =
          ((routes pdf request files : List (Route Group)).filterMap
            Route.task?).map ExtractionTask.segment := by
        have hplanned := congrArg (List.map ExtractionTask.segment)
          hplan.planned_eq
        rw [List.map_map, List.map_map, h.request_eq] at hplanned
        exact hplanned
      refine ⟨files, tasks, h.loaded files hplan.filesData_eq,
        hplan.filesData_eq, htasks, hsegments.trans (routes_task pdf _ _),
        ?_, ?_, ?_⟩
      · rw [hplan.unmatchedSegments_eq, routes_unmatched, h.request_eq]
      · simp [result, buildResult, htasks, ExtractionTask.document,
          documentPlace, Segment.place]
      · simp [result, buildResult, Segment.discoveredDocument, documentPlace,
          Segment.place]

/--
However the normaliser, the splitter and the classifier answer, a run that has
planned its tasks conserves the segments of the files it loaded.
-/
theorem segments_conserved (pdf : PdfLibrary) (defaultModel : String)
    (request : ExtractionRequest) (normalise : Normaliser) (stopped : Bool)
    (labels : List (Option (Response Group))) (state : PipelineState Group)
    (hruns : Runs pdf defaultModel request
      (some (.load normalise stopped) :: labels) state)
    (hplanned : ⟨.planTasks, .success⟩ ∈ state.trace) :
    ∃ files tasks, Loaded request normalise files ∧
      state.Conserved request files tasks :=
  (planning_of_runs hruns).conserved hplanned

theorem segments_conserved_scan :
    ∃ (state : PipelineState Unit) (files : List FileSlot)
      (tasks : List (ExtractionTask Unit)),
      Loaded scanRequest scanPages files ∧
        state.Conserved scanRequest files tasks ∧
        (tasks.length, state.ctx.unmatchedSegments.length) = (1, 1) := by
  have hrun : (LabelledStep.run (step bytePages)
      (initial "model" scanRequest : PipelineState Unit)
      (scanLabels ++ [some (.planTasks none)])).map (fun state =>
        (decide (⟨.planTasks, .success⟩ ∈ state.trace),
          state.ctx.tasks.map List.length, state.ctx.unmatchedSegments.length))
      = some (true, some 1, 1) := by
    decide
  obtain ⟨state, hstate, hfinal⟩ := Option.map_eq_some_iff.mp hrun
  simp only [Prod.mk.injEq, decide_eq_true_eq] at hfinal
  obtain ⟨hplanned, htasks, hunmatched⟩ := hfinal
  obtain ⟨files, tasks, hloaded, hconserved⟩ := segments_conserved bytePages
    "model" scanRequest scanPages false _ state hstate hplanned
  refine ⟨state, files, tasks, hloaded, hconserved, ?_⟩
  rw [hconserved.tasks_eq] at htasks
  simp only [Option.map_some, Option.some.injEq] at htasks
  rw [htasks, hunmatched]

end PipelineState

end Flydocs
