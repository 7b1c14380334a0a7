import Flydocs.Pipeline.Orchestrator

/-!
# Which failed nodes the result reports

The engine notes every failed node in the trace, but the pipeline errors of the
result hold only what the steps recorded themselves.  A failed node is reported
when one of its own calls had raised before it stopped, and when those errors
carry the name of the node.
-/

namespace Flydocs

open Foundation Interfaces

variable {Group Value : Type*}

/-! ## What a step files -/

def foreignNames : List String := ["pdf_slicer", "extractor", "rule_engine"]

theorem Node.name_not_foreign (node : Node) : node.name ∉ foreignNames := by
  cases node <;> decide

def namesNode (errors : List PipelineError) (node : Node) : Prop :=
  ∃ error ∈ errors, error.node = node.name

/--
The step of a node appends entries of its own name and foreign ones.  If it
fails, there is one of its own name exactly when `own` says so.
-/
def Files (node : Node) (own failed : Bool)
    (before after : List PipelineError) : Prop :=
  ∃ entries, after = before ++ entries ∧
    (∀ entry ∈ entries,
      entry.node = node.name ∨ entry.node ∈ foreignNames) ∧
    (failed = true → (namesNode entries node ↔ own = true))

theorem files_nothing (node : Node) (failed : Bool)
    (errors : List PipelineError) : Files node false failed errors errors :=
  ⟨[], by simp, by simp, fun _ => by simp [namesNode]⟩

theorem files_foreign (node : Node) (failed : Bool)
    (errors : List PipelineError) {entries : List PipelineError}
    (hentries : ∀ entry ∈ entries, entry.node ∈ foreignNames) :
    Files node false failed errors (errors ++ entries) := by
  refine ⟨entries, rfl, fun entry h => .inr (hentries entry h), fun _ => ?_⟩
  simp only [Bool.false_eq_true, iff_false]
  rintro ⟨entry, hentry, hname⟩
  exact node.name_not_foreign (hname ▸ hentries entry hentry)

theorem files_returned (node : Node) (own : Bool)
    (errors : List PipelineError) {entry : PipelineError}
    (hentry : entry.node = node.name) :
    Files node own false errors (errors ++ [entry]) := by
  refine ⟨[entry], rfl, ?_, fun h => nomatch h⟩
  intro other hother
  rw [List.mem_singleton.mp hother]
  exact .inl hentry

theorem files_failures {Key : Type*} (node : Node) (failed : Bool)
    (errors : List PipelineError) {foreign : List PipelineError}
    (hforeign : ∀ entry ∈ foreign, entry.node ∈ foreignNames)
    (gathered : Gathered Key Failure Value)
    {entry : Key × Failure → PipelineError}
    (hentry : ∀ failure, (entry failure).node = node.name) :
    Files node gathered.raised failed errors
      (errors ++ (foreign ++ gathered.failures.map entry)) := by
  refine ⟨_, rfl, ?_, fun _ => ?_⟩
  · intro other hother
    rcases List.mem_append.mp hother with h | h
    · exact .inr (hforeign other h)
    · obtain ⟨failure, -, rfl⟩ := List.mem_map.mp h
      exact .inl (hentry failure)
  · rw [Gathered.raised_iff]
    constructor
    · rintro ⟨other, hother, hname⟩
      rcases List.mem_append.mp hother with h | h
      · exact absurd (hname ▸ hforeign other h) node.name_not_foreign
      · obtain ⟨failure, hfailure, -⟩ := List.mem_map.mp h
        exact ⟨failure, hfailure⟩
    · rintro ⟨failure, hfailure⟩
      exact ⟨entry failure, List.mem_append_right _
        (List.mem_map_of_mem hfailure), hentry failure⟩

/-! ## The steps one by one -/

def Response.filesOwn : Response Group → Bool
  | .discover gathered => gathered.raised
  | .classify gathered => gathered.raised
  | .bboxRefine _ gathered => gathered.raised
  | .visualAuthenticity gathered => gathered.raised
  | .contentAuthenticity gathered => gathered.raised
  | .judge _ gathered => gathered.raised
  | _ => false

theorem raised_eq_false {Key : Type*} {gathered : Gathered Key Failure Value}
    (h : gathered.Settles []) : gathered.raised = false := by
  simp [Gathered.raised, h.failures_eq_nil]

theorem TaskService.files {service : TaskService Group Value} (node : Node)
    (hname : service.node = node.name) (ctx : PipelineContext Group)
    (touch : Touch Group) {gathered : Gathered Nat Failure Value}
    (hanswers : service.Answers ctx gathered) :
    Files node gathered.raised (service.step ctx touch gathered).failed
      ctx.pipelineErrors (service.step ctx touch gathered).ctx.pipelineErrors
    := by
  unfold TaskService.step
  cases htasks : ctx.tasks with
  | none =>
      have hnone : gathered.Settles [] := by
        simpa [TaskService.Answers, htasks, Gathered.callKeys] using hanswers
      rw [raised_eq_false hnone]
      exact files_nothing node true ctx.pipelineErrors
  | some tasks =>
      exact files_failures node _ ctx.pipelineErrors
        (List.forall_mem_nil _) gathered fun _ => hname

theorem files_extractor (ctx : PipelineContext Group)
    (gathered : Gathered Nat Failure (List Group × String)) :
    Files .extract false (extractor.step ctx untouched gathered).failed
      ctx.pipelineErrors
      (extractor.step ctx untouched gathered).ctx.pipelineErrors := by
  unfold TaskService.step
  cases htasks : ctx.tasks with
  | none => exact files_nothing _ true ctx.pipelineErrors
  | some tasks =>
      refine files_foreign _ _ ctx.pipelineErrors ?_
      intro entry hentry
      obtain ⟨failure, -, rfl⟩ := List.mem_map.mp hentry
      exact (by decide : "extractor" ∈ foreignNames)

theorem files_stepDiscover (ctx : PipelineContext Group)
    {gathered : Gathered Nat Failure (List DiscoveredSegment)}
    (hanswers : Response.Answers ctx (.discover gathered)) :
    Files .discover gathered.raised (stepDiscover ctx gathered).failed
      ctx.pipelineErrors (stepDiscover ctx gathered).ctx.pipelineErrors := by
  unfold stepDiscover
  cases hfiles : ctx.filesData with
  | none =>
      have hnone : gathered.Settles [] := by
        simpa [Response.Answers, hfiles, Gathered.callKeys] using hanswers
      rw [raised_eq_false hnone]
      exact files_nothing _ true ctx.pipelineErrors
  | some files =>
      exact files_failures _ _ ctx.pipelineErrors (List.forall_mem_nil _)
        gathered fun _ => rfl

theorem sliceSegmentBytes_error {pdf : PdfLibrary} {slot : FileSlot}
    {segment : Segment} {entry : PipelineError}
    (h : (sliceSegmentBytes pdf slot segment).error = some entry) :
    entry.node ∈ foreignNames := by
  unfold sliceSegmentBytes at h
  split at h
  · cases h
  · split at h
    · cases h
    · cases h
      exact (by decide : "pdf_slicer" ∈ foreignNames)

theorem classifySliceErrors_foreign (pdf : PdfLibrary)
    (files : List FileSlot) :
    ∀ entry ∈ classifySliceErrors pdf files, entry.node ∈ foreignNames := by
  intro entry hentry
  obtain ⟨slot, -, hslot⟩ := List.mem_flatMap.mp hentry
  split at hslot
  · cases hslot
  · obtain ⟨segment, -, hsegment⟩ := List.mem_filterMap.mp hslot
    split at hsegment
    · exact sliceSegmentBytes_error hsegment
    · cases hsegment

theorem files_stepClassifier (pdf : PdfLibrary) (ctx : PipelineContext Group)
    {gathered : Gathered (Nat × Nat) Failure ClassificationResult}
    (hanswers : Response.Answers ctx (.classify gathered)) :
    Files .classify gathered.raised (stepClassifier pdf ctx gathered).failed
      ctx.pipelineErrors
      (stepClassifier pdf ctx gathered).ctx.pipelineErrors := by
  unfold stepClassifier
  cases hfiles : ctx.filesData with
  | none =>
      have hnone : gathered.Settles [] := by
        simpa [Response.Answers, hfiles, classifyCalls] using hanswers
      rw [raised_eq_false hnone]
      exact files_nothing _ true ctx.pipelineErrors
  | some files =>
      cases hsole : soleDoctype ctx.request with
      | some only =>
          have hnone : gathered.Settles [] := by
            simpa [Response.Answers, hsole] using hanswers
          rw [raised_eq_false hnone]
          exact files_nothing _ _ ctx.pipelineErrors
      | none =>
          exact files_failures _ _ ctx.pipelineErrors
            (classifySliceErrors_foreign pdf files) gathered fun _ => rfl

theorem planSegment_error {pdf : PdfLibrary} {request : ExtractionRequest}
    {slot : FileSlot} {segIndex : Nat} {segment : Segment}
    {entry : PipelineError}
    (h : (planSegment pdf request slot segIndex segment :
      Route Group).error? = some entry) : entry.node ∈ foreignNames := by
  unfold planSegment at h
  cases hspec : segment.docSpec request with
  | none =>
      rw [hspec] at h
      cases h
  | some docSpec =>
      rw [hspec] at h
      exact sliceSegmentBytes_error h

theorem files_stepPlanTasks (pdf : PdfLibrary) (ctx : PipelineContext Group)
    (cut : Option Nat) :
    Files .planTasks false (stepPlanTasks pdf ctx cut).failed
      ctx.pipelineErrors (stepPlanTasks pdf ctx cut).ctx.pipelineErrors := by
  unfold stepPlanTasks
  cases ctx.filesData with
  | none => exact files_nothing _ true ctx.pipelineErrors
  | some files =>
      have hforeign : ∀ entry ∈ (routes pdf ctx.request files :
          List (Route Group)).filterMap Route.error?,
          entry.node ∈ foreignNames := by
        intro entry hentry
        obtain ⟨route, hroute, herror⟩ := List.mem_filterMap.mp hentry
        obtain ⟨slot, -, hslot⟩ := List.mem_flatMap.mp hroute
        obtain ⟨⟨segment, segIndex⟩, -, rfl⟩ := List.mem_map.mp hslot
        exact planSegment_error herror
      cases cut with
      | none => exact files_foreign _ _ ctx.pipelineErrors hforeign
      | some planned =>
          refine files_foreign _ _ ctx.pipelineErrors ?_
          intro entry hentry
          exact hforeign entry
            (((List.take_sublist planned _).filterMap _).subset hentry)

theorem files_validateGroups (node : Node) (ctx : PipelineContext Group)
    (touch : Touch Group) (raised : Bool) :
    Files node false (validateGroups ctx touch raised).failed
      ctx.pipelineErrors
      (validateGroups ctx touch raised).ctx.pipelineErrors := by
  unfold validateGroups
  cases ctx.tasks with
  | none => exact files_nothing node _ ctx.pipelineErrors
  | some tasks => exact files_nothing node _ ctx.pipelineErrors

theorem files_stepRepair (ctx : PipelineContext Group)
    (repaired : Touch Group)
    (info : Option (Except Failure (Option RepairInfo)))
    (validated : Touch Group) (raised : Bool) :
    let outcome := stepRepair ctx repaired info validated raised
    Files .repair false outcome.failed ctx.pipelineErrors
      outcome.ctx.pipelineErrors := by
  unfold stepRepair
  match info with
  | none => exact files_nothing _ _ ctx.pipelineErrors
  | some (.error exc) => exact files_returned _ _ ctx.pipelineErrors rfl
  | some (.ok none) => exact files_nothing _ _ ctx.pipelineErrors
  | some (.ok (some info)) =>
      dsimp only
      split
      · exact files_nothing _ _ ctx.pipelineErrors
      · exact files_validateGroups .repair
          { ctx.touchGroups repaired with repair := some info } validated raised

theorem files_stepJudgeEscalation (ctx : PipelineContext Group)
    (touch : Touch Group)
    (answer : Option (Except Failure (Option (Escalation Group)))) :
    let outcome := stepJudgeEscalation ctx touch answer
    Files .judgeEscalation false outcome.failed ctx.pipelineErrors
      outcome.ctx.pipelineErrors := by
  unfold stepJudgeEscalation
  cases ctx.tasks with
  | none => exact files_nothing _ _ ctx.pipelineErrors
  | some tasks =>
      match answer with
      | none => exact files_nothing _ _ ctx.pipelineErrors
      | some (.error exc) => exact files_returned _ _ ctx.pipelineErrors rfl
      | some (.ok none) => exact files_nothing _ _ ctx.pipelineErrors
      | some (.ok (some escalation)) =>
          dsimp only
          split
          · cases escalation.raised with
            | none => exact files_nothing _ _ ctx.pipelineErrors
            | some exc => exact files_returned _ _ ctx.pipelineErrors rfl
          · exact files_nothing _ _ ctx.pipelineErrors

theorem applyTransformation_pipelineErrors (ctx : PipelineContext Group)
    (applied : Applied Group) :
    (applyTransformation ctx applied).pipelineErrors =
      ctx.pipelineErrors := by
  cases applied <;> rfl

theorem foldl_applyTransformation_pipelineErrors
    (applied : List (Applied Group)) (ctx : PipelineContext Group) :
    (applied.foldl applyTransformation ctx).pipelineErrors =
      ctx.pipelineErrors := by
  induction applied generalizing ctx with
  | nil => rfl
  | cons first rest ih =>
      rw [List.foldl_cons, ih, applyTransformation_pipelineErrors]

theorem files_stepTransform (ctx : PipelineContext Group)
    (applied : List (Applied Group)) (stopped : Bool) :
    Files .transform false (stepTransform ctx applied stopped).failed
      ctx.pipelineErrors
      (stepTransform ctx applied stopped).ctx.pipelineErrors := by
  unfold stepTransform
  cases ctx.tasks with
  | none => exact files_nothing _ _ ctx.pipelineErrors
  | some tasks =>
      dsimp only
      rw [foldl_applyTransformation_pipelineErrors]
      exact files_nothing _ _ ctx.pipelineErrors

theorem files_stepRules (ctx : PipelineContext Group)
    (results : Option (Except Failure (List RuleResult))) :
    Files .rules false (stepRules ctx results).failed ctx.pipelineErrors
      (stepRules ctx results).ctx.pipelineErrors := by
  unfold stepRules
  cases ctx.tasks with
  | none => exact files_nothing _ _ ctx.pipelineErrors
  | some tasks =>
      match results with
      | none => exact files_nothing _ _ ctx.pipelineErrors
      | some (.ok results) => exact files_nothing _ _ ctx.pipelineErrors
      | some (.error exc) =>
          refine files_foreign _ _ ctx.pipelineErrors ?_
          intro entry hentry
          rw [List.mem_singleton.mp hentry]
          exact (by decide : "rule_engine" ∈ foreignNames)

theorem files_stepLoad (ctx : PipelineContext Group) (normalise : Normaliser)
    (stopped : Bool) :
    Files .load false (stepLoad ctx normalise stopped).failed
      ctx.pipelineErrors
      (stepLoad ctx normalise stopped).ctx.pipelineErrors := by
  unfold stepLoad
  cases loadFiles ctx.request normalise with
  | error exc => exact files_nothing _ _ ctx.pipelineErrors
  | ok slots => cases stopped <;> exact files_nothing _ _ ctx.pipelineErrors

theorem files_runNode (pdf : PdfLibrary) (ctx : PipelineContext Group)
    {response : Response Group} (hanswers : response.Answers ctx) :
    Files response.node response.filesOwn (response.runNode pdf ctx).failed
      ctx.pipelineErrors
      (response.runNode pdf ctx).ctx.pipelineErrors := by
  cases response with
  | load normalise stopped => exact files_stepLoad ctx normalise stopped
  | discover gathered => exact files_stepDiscover ctx hanswers
  | classify gathered => exact files_stepClassifier pdf ctx hanswers
  | planTasks cut => exact files_stepPlanTasks pdf ctx cut
  | extract gathered => exact files_extractor ctx gathered
  | bboxValidation touch raised => exact files_validateGroups _ ctx touch raised
  | bboxRefine touch gathered =>
      exact TaskService.files .bboxRefine rfl ctx touch hanswers
  | fieldValidation touch raised =>
      exact files_validateGroups _ ctx touch raised
  | visualAuthenticity gathered =>
      exact TaskService.files .visualAuthenticity rfl ctx untouched hanswers
  | contentAuthenticity gathered =>
      exact TaskService.files .contentAuthenticity rfl ctx untouched hanswers
  | judge touch gathered =>
      exact TaskService.files .judge rfl ctx touch hanswers
  | repair repaired info validated raised =>
      exact files_stepRepair ctx repaired info validated raised
  | judgeEscalation touch answer =>
      exact files_stepJudgeEscalation ctx touch answer
  | transform applied stopped => exact files_stepTransform ctx applied stopped
  | rules results => exact files_stepRules ctx results
  | assemble => exact files_nothing _ _ ctx.pipelineErrors

/-! ## When a node fails -/

/--
The node raises or is cut: its services say so, or a key of the metadata it
reads was never written.
-/
def Response.fails (ctx : PipelineContext Group) : Response Group → Bool
  | .load normalise stopped =>
      stopped || (loadFiles ctx.request normalise).toOption.isNone
  | .discover gathered => ctx.filesData.isNone || gathered.stopped
  | .classify gathered => ctx.filesData.isNone || gathered.stopped
  | .planTasks cut => ctx.filesData.isNone || cut.isSome
  | .extract gathered => ctx.tasks.isNone || gathered.stopped
  | .bboxValidation _ raised => ctx.tasks.isNone || raised
  | .bboxRefine _ gathered => ctx.tasks.isNone || gathered.stopped
  | .fieldValidation _ raised => ctx.tasks.isNone || raised
  | .visualAuthenticity gathered => ctx.tasks.isNone || gathered.stopped
  | .contentAuthenticity gathered => ctx.tasks.isNone || gathered.stopped
  | .judge _ gathered => ctx.tasks.isNone || gathered.stopped
  | .repair _ info _ raised =>
      match info with
      | none => true
      | some (.ok (some info)) =>
          info.fieldsRepaired != 0 && (ctx.tasks.isNone || raised)
      | _ => false
  | .judgeEscalation _ answer => ctx.tasks.isNone || answer.isNone
  | .transform _ stopped => ctx.tasks.isNone || stopped
  | .rules results => ctx.tasks.isNone || results.isNone
  | .assemble => false

theorem TaskService.failed_step (service : TaskService Group Value)
    (ctx : PipelineContext Group) (touch : Touch Group)
    (gathered : Gathered Nat Failure Value) :
    (service.step ctx touch gathered).failed =
      (ctx.tasks.isNone || gathered.stopped) := by
  unfold TaskService.step
  cases ctx.tasks <;> rfl

theorem failed_validateGroups (ctx : PipelineContext Group)
    (touch : Touch Group) (raised : Bool) :
    (validateGroups ctx touch raised).failed =
      (ctx.tasks.isNone || raised) := by
  unfold validateGroups
  cases ctx.tasks <;> rfl

theorem failed_stepRepair (ctx : PipelineContext Group)
    (repaired : Touch Group)
    (info : Option (Except Failure (Option RepairInfo)))
    (validated : Touch Group) (raised : Bool) :
    (stepRepair ctx repaired info validated raised).failed =
      (Response.repair repaired info validated raised).fails ctx := by
  unfold stepRepair
  match info with
  | none | some (.error exc) | some (.ok none) => rfl
  | some (.ok (some info)) =>
      dsimp only [Response.fails]
      split
      · rename_i hnone
        simp [hnone]
      · rename_i hsome
        simp [failed_validateGroups, PipelineContext.touchGroups, hsome]

theorem failed_stepJudgeEscalation (ctx : PipelineContext Group)
    (touch : Touch Group)
    (answer : Option (Except Failure (Option (Escalation Group)))) :
    (stepJudgeEscalation ctx touch answer).failed =
      (ctx.tasks.isNone || answer.isNone) := by
  unfold stepJudgeEscalation
  cases ctx.tasks with
  | none => rfl
  | some tasks =>
      match answer with
      | none | some (.error exc) | some (.ok none) => rfl
      | some (.ok (some escalation)) =>
          dsimp only
          split
          · cases escalation.raised <;> rfl
          · rfl

theorem failed_runNode (pdf : PdfLibrary) (ctx : PipelineContext Group)
    (response : Response Group) :
    (response.runNode pdf ctx).failed = response.fails ctx := by
  cases response with
  | load normalise stopped =>
      simp only [Response.runNode, Response.fails, stepLoad]
      cases loadFiles ctx.request normalise with
      | error exc => simp [Except.toOption]
      | ok slots => cases stopped <;> rfl
  | discover gathered =>
      simp only [Response.runNode, Response.fails, stepDiscover]
      cases ctx.filesData <;> rfl
  | classify gathered =>
      simp only [Response.runNode, Response.fails, stepClassifier]
      cases ctx.filesData with
      | none => rfl
      | some files => cases soleDoctype ctx.request <;> rfl
  | planTasks cut =>
      simp only [Response.runNode, Response.fails, stepPlanTasks]
      cases ctx.filesData <;> cases cut <;> rfl
  | extract | bboxRefine | visualAuthenticity | contentAuthenticity | judge =>
      exact TaskService.failed_step _ ctx _ _
  | bboxValidation touch raised | fieldValidation touch raised =>
      exact failed_validateGroups ctx touch raised
  | repair repaired info validated raised =>
      exact failed_stepRepair ctx repaired info validated raised
  | judgeEscalation touch answer =>
      exact failed_stepJudgeEscalation ctx touch answer
  | transform applied stopped =>
      simp only [Response.runNode, Response.fails, stepTransform]
      cases ctx.tasks <;> rfl
  | rules results =>
      simp only [Response.runNode, Response.fails, stepRules]
      cases ctx.tasks with
      | none => rfl
      | some tasks =>
          cases results with
          | none => rfl
          | some result => cases result <;> rfl
  | assemble => rfl

/-! ## Reports along a run -/

def Recorded (state : PipelineState Group)
    (label : Option (Response Group)) : Prop :=
  ∀ response ∈ label,
    response.fails state.ctx = true → response.filesOwn = true

instance (state : PipelineState Group) (label : Option (Response Group)) :
    Decidable (Recorded state label) :=
  match label with
  | none => isTrue fun _ h => nomatch h
  | some response =>
      decidable_of_iff
        (response.fails state.ctx = true → response.filesOwn = true)
        (by simp [Recorded])

namespace PipelineState

variable {pdf : PdfLibrary} {state next finish : PipelineState Group}

structure Awaiting (state : PipelineState Group) : Prop where
  ordered : state.remaining.Pairwise fun first second =>
    first.position < second.position
  unnamed : ∀ node ∈ state.remaining,
    ¬ namesNode state.ctx.pipelineErrors node

theorem namesNode_append {errors entries : List PipelineError} {node : Node} :
    namesNode (errors ++ entries) node ↔
      namesNode errors node ∨ namesNode entries node := by
  simp [namesNode, or_and_right, exists_or]

theorem namesNode_of_files {node other : Node} {own failed : Bool}
    {before after : List PipelineError}
    (h : Files node own failed before after) (hother : other ≠ node) :
    namesNode after other ↔ namesNode before other := by
  obtain ⟨entries, rfl, hentries, -⟩ := h
  rw [namesNode_append, or_iff_left]
  rintro ⟨entry, hentry, hname⟩
  rcases hentries entry hentry with h | h
  · exact hother (Node.name_injective (hname.symm.trans h))
  · exact other.name_not_foreign (hname ▸ h)

theorem awaiting_step (h : state.Awaiting) {label : Option (Response Group)}
    (hstep : step pdf state label = some next) : next.Awaiting := by
  cases stepped hstep with
  | skipped hremaining =>
      obtain ⟨hordered, hunnamed⟩ := h
      rw [hremaining] at hordered hunnamed
      exact ⟨(List.pairwise_cons.mp hordered).2,
        fun node hnode => hunnamed node (List.mem_cons_of_mem _ hnode)⟩
  | @ran response remaining hremaining hanswers =>
      obtain ⟨hordered, hunnamed⟩ := h
      rw [hremaining] at hordered hunnamed
      obtain ⟨hlater, hordered⟩ := List.pairwise_cons.mp hordered
      refine ⟨hordered, ?_⟩
      intro node hnode
      have hne : node ≠ response.node := by
        intro heq
        exact lt_irrefl _ (heq ▸ hlater node hnode)
      rw [namesNode_of_files (files_runNode pdf state.ctx hanswers) hne]
      exact hunnamed node (List.mem_cons_of_mem _ hnode)

theorem namesNode_run {node : Node} {labels : List (Option (Response Group))}
    (hover : node ∉ state.remaining)
    (hrun : LabelledStep.run (step pdf) state labels = some finish) :
    namesNode finish.ctx.pipelineErrors node ↔
      namesNode state.ctx.pipelineErrors node := by
  refine (LabelledStep.run_invariant (fun later : PipelineState Group =>
    node ∉ later.remaining ∧ (namesNode later.ctx.pipelineErrors node ↔
      namesNode state.ctx.pipelineErrors node)) ?_ ⟨hover, Iff.rfl⟩ hrun).2
  rintro later label after ⟨hlater, hsame⟩ hstep
  cases stepped hstep with
  | skipped hremaining =>
      rw [hremaining] at hlater
      exact ⟨fun h => hlater (List.mem_cons_of_mem _ h), hsame⟩
  | ran hremaining hanswers =>
      rw [hremaining] at hlater
      refine ⟨fun h => hlater (List.mem_cons_of_mem _ h), ?_⟩
      rw [namesNode_of_files (files_runNode pdf later.ctx hanswers), hsame]
      intro heq
      exact hlater (heq ▸ List.mem_cons_self)

theorem namesNode_iff_filesOwn (h : state.Awaiting)
    {response : Response Group} {remaining : List Node}
    (hremaining : state.remaining = response.node :: remaining)
    (hanswers : response.Answers state.ctx)
    (hfails : response.fails state.ctx = true) :
    namesNode (response.runNode pdf state.ctx).ctx.pipelineErrors
      response.node ↔ response.filesOwn = true := by
  obtain ⟨entries, hafter, -, hown⟩ := files_runNode pdf state.ctx hanswers
  have hunnamed := h.unnamed response.node (by simp [hremaining])
  rw [hafter, namesNode_append, or_iff_right hunnamed]
  exact hown (hfails ▸ failed_runNode pdf state.ctx response)

/-- Which of the failures of a run its errors name in the end. -/
theorem namesNode_iff_everyStep {labels : List (Option (Response Group))}
    (hawaiting : state.Awaiting)
    (hrun : LabelledStep.run (step pdf) state labels = some finish) :
    ∃ entries, finish.trace = state.trace ++ entries ∧
      ((∀ entry ∈ entries, entry.status = .failed →
          namesNode finish.ctx.pipelineErrors entry.node) ↔
        LabelledStep.EveryStep (step pdf) Recorded state labels) := by
  induction labels generalizing state with
  | nil =>
      cases hrun
      exact ⟨[], by simp, by simp [LabelledStep.EveryStep]⟩
  | cons label labels ih =>
      obtain ⟨next, hstep, hrest⟩ := LabelledStep.run_cons_eq_some.mp hrun
      have hnext := awaiting_step hawaiting hstep
      obtain ⟨entries, htrace, hiff⟩ := ih hnext hrest
      rw [LabelledStep.everyStep_cons_iff hstep, ← hiff]
      cases stepped hstep with
      | @skipped node remaining hremaining =>
          refine ⟨⟨node, .skipped⟩ :: entries, by simp [htrace], ?_⟩
          simp [Recorded]
      | @ran response remaining hremaining hanswers =>
          refine ⟨_ :: entries, by rw [htrace, List.append_assoc]; rfl, ?_⟩
          rw [List.forall_mem_cons]
          refine and_congr ?_ Iff.rfl
          have hover : response.node ∉ remaining := by
            have hordered := hawaiting.ordered
            rw [hremaining, List.pairwise_cons] at hordered
            exact fun hmem => lt_irrefl _ (hordered.1 _ hmem)
          simp only [Recorded, Option.mem_def, Option.some.injEq,
            forall_eq', namesNode_run hover hrest, failed_runNode]
          constructor
          · intro hnamed hfails
            exact (namesNode_iff_filesOwn hawaiting hremaining hanswers
              hfails).mp (hnamed (if_pos hfails))
          · intro hown hstatus
            have hfails : response.fails state.ctx = true := by
              by_contra hreturns
              rw [if_neg hreturns] at hstatus
              cases hstatus
            exact (namesNode_iff_filesOwn hawaiting hremaining hanswers
              hfails).mpr (hown hfails)

end PipelineState

/-! ## The result -/

/--
Every failed node of the trace has an error entry and makes the result
partial; a successful result had no failed node and no empty document.
-/
structure Reported (result : ExtractionResult Group) : Prop where
  failed_reported : ∀ entry ∈ result.pipeline.trace, entry.status = .failed →
    (∃ error ∈ result.pipeline.errors, error.node = entry.node) ∧
      result.status = .partialSuccess
  success_clean : result.status = .success →
    (∀ entry ∈ result.pipeline.trace, entry.status ≠ .failed) ∧
      ∀ document ∈ result.documents, document.fieldGroups ≠ []

theorem reported_iff (ctx : PipelineContext Group)
    (trace : List ExecutionTraceEntry) :
    Reported (buildResult ctx trace) ↔
      ∀ entry ∈ trace, entry.status = .failed →
        namesNode ctx.pipelineErrors entry.node := by
  constructor
  · intro h entry hentry hfailed
    exact (h.failed_reported ⟨entry.node.name, entry.status⟩
      (List.mem_map_of_mem hentry) hfailed).1
  · intro h
    have hreported : ∀ entry ∈ traceEntries trace, entry.status = .failed →
        ∃ error ∈ ctx.pipelineErrors, error.node = entry.node := by
      intro entry hentry hfailed
      obtain ⟨original, horiginal, rfl⟩ := List.mem_map.mp hentry
      exact h original horiginal hfailed
    constructor
    · intro entry hentry hfailed
      obtain ⟨error, herror, hname⟩ := hreported entry hentry hfailed
      refine ⟨⟨error, herror, hname⟩, ?_⟩
      have hsome : ctx.pipelineErrors.isEmpty = false := by
        rw [List.isEmpty_eq_false_iff_exists_mem]
        exact ⟨error, herror⟩
      simp [buildResult, hsome]
    · intro hsuccess
      simp only [buildResult, ite_eq_right_iff, reduceCtorEq, imp_false,
        Bool.or_eq_true, not_or, Bool.not_eq_true] at hsuccess
      obtain ⟨htasks, hnone⟩ := hsuccess
      constructor
      · intro entry hentry hfailed
        obtain ⟨error, herror, -⟩ := hreported entry hentry hfailed
        simp only [Bool.not_eq_false', List.isEmpty_iff] at hnone
        rw [hnone] at herror
        cases herror
      · intro document hdocument
        obtain ⟨task, htask, rfl⟩ := List.mem_map.mp hdocument
        have hgroups := List.any_eq_false.mp htasks task htask
        simpa [ExtractionTask.hasGroups, ExtractionTask.document] using hgroups

namespace PipelineState

theorem initial_awaiting (defaultModel : String)
    (request : ExtractionRequest) :
    (initial defaultModel request : PipelineState Group).Awaiting :=
  ⟨Node.chain_ordered request, fun node _ => by simp [initial, namesNode]⟩

/--
The result reports the failures of its run exactly when every node that failed
had recorded an error under its own name before it stopped.
-/
theorem failures_reported_iff (pdf : PdfLibrary) (defaultModel : String)
    (request : ExtractionRequest) (labels : List (Option (Response Group)))
    (state : PipelineState Group)
    (hruns : Runs pdf defaultModel request labels state) :
    Reported state.result ↔
      LabelledStep.EveryStep (step pdf) Recorded
        (initial defaultModel request) labels := by
  obtain ⟨entries, htrace, hiff⟩ :=
    namesNode_iff_everyStep (initial_awaiting defaultModel request) hruns
  rw [← hiff, result, reported_iff, htrace]
  rfl

/-! ## A timeout that is reported and a failed load that is not -/

def twoScans : ExtractionRequest :=
  { scanRequest with
    files := [⟨"scan.pdf", some "QUI=", some "application/pdf", none⟩,
      ⟨"copy.pdf", some "QUI=", some "application/pdf", none⟩] }

def splitterTimeout : List (Option (Response Unit)) :=
  [some (.load scanPages false),
    some (.discover ⟨[(0, .error (Base64.valueError "no answer"))], true⟩),
    none, none, none, none, none, none]

theorem failures_reported_iff_timeout :
    ∃ state : PipelineState Unit,
      Runs bytePages "model" twoScans splitterTimeout state ∧
        ⟨.discover, .failed⟩ ∈ state.trace ∧ Reported state.result := by
  have hrun : (LabelledStep.run (step bytePages)
      (initial "model" twoScans : PipelineState Unit)
      splitterTimeout).map (fun state =>
        decide (⟨.discover, .failed⟩ ∈ state.trace)) = some true := by
    decide
  obtain ⟨state, hstate, hfailed⟩ := Option.map_eq_some_iff.mp hrun
  refine ⟨state, hstate, of_decide_eq_true hfailed, ?_⟩
  exact (failures_reported_iff bytePages "model" twoScans _ state hstate).mpr
    (by decide)

def unreadableScan : List (Option (Response Unit)) :=
  [some (.load (fun _ _ _ _ => .error (Base64.valueError "unreadable")) false),
    some (.discover ⟨[], false⟩), some (.classify ⟨[], false⟩),
    some (.planTasks none), some (.extract ⟨[], false⟩),
    some (.bboxValidation untouched false),
    some (.fieldValidation untouched false), some .assemble]

theorem failed_load_unreported :
    ¬ ∀ (labels : List (Option (Response Unit)))
      (state : PipelineState Unit),
      Runs bytePages "model" scanRequest labels state →
        state.remaining = [] → Reported state.result := by
  intro hclaim
  have hrun : (LabelledStep.run (step bytePages)
      (initial "model" scanRequest : PipelineState Unit)
      unreadableScan).map (fun state => (state.remaining,
        state.trace.head?, state.result.status)) =
      some ([], some ⟨.load, .failed⟩, .success) := by
    decide
  obtain ⟨state, hstate, hfinal⟩ := Option.map_eq_some_iff.mp hrun
  simp only [Prod.mk.injEq] at hfinal
  obtain ⟨hover, hload, hsuccess⟩ := hfinal
  have hclean := ((hclaim _ state hstate hover).success_clean hsuccess).1
  have hentry : (⟨Node.load.name, .failed⟩ : TraceEntry) ∈
      state.result.pipeline.trace :=
    List.mem_map_of_mem (List.mem_of_mem_head? hload)
  exact hclean _ hentry rfl

end PipelineState

end Flydocs
