import Flydocs.Pipeline.Orchestrator

/-!
# What a node leaves alone

The nodes after `plan_tasks` keep the slots, the unmatched segments and what
was planned of each task, and they give groups only to tasks that have bytes.
-/

namespace Flydocs

open Foundation Interfaces

variable {Group Value : Type*}

def ExtractionTask.Grounded (task : ExtractionTask Group) : Prop :=
  task.hasGroups = true → task.hasBytes = true

/-! ## Harmless updates of the tasks -/

/-- An update that replans no task and grounds the groups it gives out. -/
structure Harmless
    (update : List (ExtractionTask Group) → List (ExtractionTask Group)) :
    Prop where
  planned : ∀ tasks, (update tasks).map ExtractionTask.asPlanned =
    tasks.map ExtractionTask.asPlanned
  grounded : ∀ tasks, (∀ task ∈ tasks, task.Grounded) →
    ∀ task ∈ update tasks, task.Grounded

theorem harmless_id :
    Harmless fun tasks : List (ExtractionTask Group) => tasks :=
  ⟨fun _ => rfl, fun _ h => h⟩

theorem Harmless.comp
    {first second : List (ExtractionTask Group) → List (ExtractionTask Group)}
    (hsecond : Harmless second) (hfirst : Harmless first) :
    Harmless (second ∘ first) :=
  ⟨fun tasks => (hsecond.planned _).trans (hfirst.planned tasks),
    fun tasks htasks => hsecond.grounded _ (hfirst.grounded tasks htasks)⟩

theorem harmless_mapIdx
    {change : Nat → ExtractionTask Group → ExtractionTask Group}
    (hplanned : ∀ index task,
      (change index task).asPlanned = task.asPlanned)
    (hgrounded : ∀ index task, task.Grounded → (change index task).Grounded) :
    Harmless (List.mapIdx change) :=
  ⟨map_mapIdx_eq _ hplanned,
    fun _ htasks => forall_mem_mapIdx _ hgrounded htasks⟩

theorem harmless_touchTasks (calls : ExtractionTask Group → Bool)
    (touch : Touch Group) : Harmless (touchTasks calls touch) := by
  apply harmless_mapIdx
  · intro index task
    split <;> rfl
  · intro index task htask
    split
    · intro hgroups
      apply htask
      simpa [ExtractionTask.hasGroups] using hgroups
    · exact htask

theorem harmless_escalateTask (escalation : Escalation Group) :
    Harmless (List.mapIdx (escalateTask escalation)) := by
  apply harmless_mapIdx
  · intro index task
    rfl
  · intro index task _ hgroups
    by_cases hbytes : task.hasBytes = true
    · exact hbytes
    · simp [escalateTask, ExtractionTask.hasGroups, hbytes] at hgroups

theorem harmless_rewrite (rewrite : Nat → List Group → List Group) :
    Harmless (List.mapIdx fun index (task : ExtractionTask Group) =>
      if task.hasGroups then
        { task with extractedGroups := rewrite index task.extractedGroups }
      else task) := by
  apply harmless_mapIdx
  · intro index task
    split <;> rfl
  · intro index task htask
    split
    · rename_i hgroups
      exact fun _ => htask hgroups
    · exact htask

/-! ## Faithful nodes -/

structure Faithful (before after : PipelineContext Group) : Prop where
  request_eq : after.request = before.request
  filesData_eq : after.filesData = before.filesData
  unmatchedSegments_eq : after.unmatchedSegments = before.unmatchedSegments
  tasks_eq : ∃ update, Harmless update ∧ after.tasks = before.tasks.map update

namespace Faithful

variable {before after later : PipelineContext Group}

theorem of_tasks_eq (hrequest : after.request = before.request)
    (hfiles : after.filesData = before.filesData)
    (hunmatched : after.unmatchedSegments = before.unmatchedSegments)
    (htasks : after.tasks = before.tasks) : Faithful before after :=
  ⟨hrequest, hfiles, hunmatched, _, harmless_id, by simp [htasks]⟩

theorem refl (ctx : PipelineContext Group) : Faithful ctx ctx :=
  .of_tasks_eq rfl rfl rfl rfl

theorem trans (h : Faithful before after) (h' : Faithful after later) :
    Faithful before later := by
  obtain ⟨first, hfirst, htasks⟩ := h.tasks_eq
  obtain ⟨second, hsecond, htasks'⟩ := h'.tasks_eq
  refine ⟨h'.request_eq.trans h.request_eq,
    h'.filesData_eq.trans h.filesData_eq,
    h'.unmatchedSegments_eq.trans h.unmatchedSegments_eq,
    second ∘ first, hsecond.comp hfirst, ?_⟩
  rw [htasks', htasks, Option.map_map]

theorem record (h : Faithful before after) (entries : List PipelineError) :
    Faithful before (after.record entries) :=
  ⟨h.request_eq, h.filesData_eq, h.unmatchedSegments_eq, h.tasks_eq⟩

theorem planned_eq (h : Faithful before after) :
    after.tasks.map (List.map ExtractionTask.asPlanned) =
      before.tasks.map (List.map ExtractionTask.asPlanned) := by
  obtain ⟨update, hupdate, htasks⟩ := h.tasks_eq
  rw [htasks, Option.map_map]
  congr 1
  funext tasks
  exact hupdate.planned tasks

end Faithful

theorem faithful_update {ctx : PipelineContext Group}
    {tasks : List (ExtractionTask Group)}
    {update : List (ExtractionTask Group) → List (ExtractionTask Group)}
    (hupdate : Harmless update) (htasks : ctx.tasks = some tasks) :
    Faithful ctx { ctx with tasks := some (update tasks) } :=
  ⟨rfl, rfl, rfl, update, hupdate, by simp [htasks]⟩

theorem faithful_touchGroups (ctx : PipelineContext Group)
    (touch : Touch Group) : Faithful ctx (ctx.touchGroups touch) :=
  ⟨rfl, rfl, rfl, _, harmless_touchTasks _ touch, rfl⟩

/-! ## The nodes after plan_tasks -/

structure TaskService.Fair (service : TaskService Group Value) : Prop where
  planned : ∀ task value,
    (service.receive task value).asPlanned = task.asPlanned
  grounded : ∀ task value, service.calls task = true → task.Grounded →
    (service.receive task value).Grounded

theorem TaskService.Fair.harmless {service : TaskService Group Value}
    (h : service.Fair) (gathered : Gathered Nat Failure Value) :
    Harmless (gathered.deliver id service.calls service.received) := by
  constructor
  · refine Gathered.map_deliver _ ?_ gathered id
    intro task outcome
    cases outcome with
    | ok value => exact h.planned task value
    | error exc => rfl
  · intro tasks htasks
    refine Gathered.forall_mem_deliver _ ?_ gathered id htasks
    intro task outcome hcalls htask
    cases outcome with
    | ok value => exact h.grounded task value hcalls htask
    | error exc => exact htask

theorem TaskService.Fair.step {service : TaskService Group Value}
    (h : service.Fair) (ctx : PipelineContext Group) (touch : Touch Group)
    (gathered : Gathered Nat Failure Value) :
    Faithful ctx (service.step ctx touch gathered).ctx := by
  unfold TaskService.step
  cases htasks : ctx.tasks with
  | none => exact .refl ctx
  | some tasks =>
      exact (faithful_update ((h.harmless gathered).comp
        (harmless_touchTasks service.calls touch)) htasks).record _

theorem extractor_fair : (extractor : TaskService Group (List Group × String)).Fair := by
  constructor
  · intro task value
    rfl
  · intro task value hcalls _ _
    exact hcalls

theorem bboxRefiner_fair : (bboxRefiner : TaskService Group Unit).Fair :=
  ⟨fun _ _ => rfl, fun _ _ _ htask => htask⟩

theorem visualChecker_fair :
    (visualChecker : TaskService Group (List VisualCheckResult)).Fair :=
  ⟨fun _ _ => rfl, fun _ _ _ htask => htask⟩

theorem contentChecker_fair :
    (contentChecker : TaskService Group ContentAuthenticity).Fair :=
  ⟨fun _ _ => rfl, fun _ _ _ htask => htask⟩

theorem judge_fair : (judge : TaskService Group Unit).Fair :=
  ⟨fun _ _ => rfl, fun _ _ _ htask => htask⟩

theorem faithful_validateGroups (ctx : PipelineContext Group)
    (touch : Touch Group) (raised : Bool) :
    Faithful ctx (validateGroups ctx touch raised).ctx := by
  unfold validateGroups
  cases htasks : ctx.tasks with
  | none => exact .refl ctx
  | some tasks => exact faithful_update (harmless_touchTasks _ touch) htasks

theorem faithful_stepRepair (ctx : PipelineContext Group)
    (repaired : Touch Group)
    (info : Option (Except Failure (Option RepairInfo)))
    (validated : Touch Group) (raised : Bool) :
    Faithful ctx (stepRepair ctx repaired info validated raised).ctx := by
  have htouch := faithful_touchGroups ctx repaired
  unfold stepRepair
  match info with
  | none => exact htouch
  | some (.error exc) => exact htouch.record _
  | some (.ok none) => exact htouch
  | some (.ok (some info)) =>
      have hnoted : Faithful ctx
          { ctx.touchGroups repaired with repair := some info } :=
        ⟨htouch.request_eq, htouch.filesData_eq, htouch.unmatchedSegments_eq,
          htouch.tasks_eq⟩
      dsimp only
      split
      · exact hnoted
      · exact hnoted.trans (faithful_validateGroups _ validated raised)

theorem faithful_stepJudgeEscalation (ctx : PipelineContext Group)
    (touch : Touch Group)
    (answer : Option (Except Failure (Option (Escalation Group)))) :
    Faithful ctx (stepJudgeEscalation ctx touch answer).ctx := by
  have htouch := faithful_touchGroups ctx touch
  unfold stepJudgeEscalation
  cases htasks : ctx.tasks with
  | none => exact .refl ctx
  | some tasks =>
      match answer with
      | none => exact htouch
      | some (.error exc) => exact htouch.record _
      | some (.ok none) => exact htouch
      | some (.ok (some escalation)) =>
          have haccepted : Faithful ctx
              { ctx.touchGroups touch with
                escalation := some escalation.info
                tasks := some (touchTasks ExtractionTask.hasGroups
                  escalation.validated
                  (tasks.mapIdx (escalateTask escalation))) } :=
            ⟨rfl, rfl, rfl, _,
              (harmless_touchTasks ExtractionTask.hasGroups
                escalation.validated).comp (harmless_escalateTask escalation),
              by simp [htasks]⟩
          dsimp only
          split
          · cases escalation.raised with
            | none => exact haccepted
            | some exc => exact haccepted.record _
          · exact ⟨rfl, rfl, rfl, htouch.tasks_eq⟩

theorem faithful_applyTransformation (ctx : PipelineContext Group)
    (applied : Applied Group) :
    Faithful ctx (applyTransformation ctx applied) := by
  cases applied with
  | task rewrite => exact ⟨rfl, rfl, rfl, _, harmless_rewrite rewrite, rfl⟩
  | request produced => exact .of_tasks_eq rfl rfl rfl rfl

theorem faithful_stepTransform (ctx : PipelineContext Group)
    (applied : List (Applied Group)) (stopped : Bool) :
    Faithful ctx (stepTransform ctx applied stopped).ctx := by
  unfold stepTransform
  cases ctx.tasks with
  | none => exact .refl ctx
  | some tasks =>
      change Faithful ctx (applied.foldl applyTransformation ctx)
      induction applied generalizing ctx with
      | nil => exact .refl ctx
      | cons first rest ih =>
          exact (faithful_applyTransformation ctx first).trans (ih _)

theorem faithful_stepRules (ctx : PipelineContext Group)
    (results : Option (Except Failure (List RuleResult))) :
    Faithful ctx (stepRules ctx results).ctx := by
  unfold stepRules
  cases htasks : ctx.tasks with
  | none => exact .refl ctx
  | some tasks =>
      match results with
      | none => exact .refl ctx
      | some (.ok results) => exact .of_tasks_eq rfl rfl rfl htasks.symm
      | some (.error exc) => exact .of_tasks_eq rfl rfl rfl htasks.symm

theorem faithful_runNode (pdf : PdfLibrary) (ctx : PipelineContext Group)
    {response : Response Group}
    (hlater : Node.planTasks.position < response.node.position) :
    Faithful ctx (response.runNode pdf ctx).ctx := by
  cases response with
  | load | discover | classify | planTasks =>
      simp only [Response.node] at hlater
      exact absurd hlater (by decide)
  | extract gathered => exact extractor_fair.step ctx untouched gathered
  | bboxValidation touch raised => exact faithful_validateGroups ctx touch raised
  | bboxRefine touch gathered => exact bboxRefiner_fair.step ctx touch gathered
  | fieldValidation touch raised => exact faithful_validateGroups ctx touch raised
  | visualAuthenticity gathered =>
      exact visualChecker_fair.step ctx untouched gathered
  | contentAuthenticity gathered =>
      exact contentChecker_fair.step ctx untouched gathered
  | judge touch gathered => exact judge_fair.step ctx touch gathered
  | repair repaired info validated raised =>
      exact faithful_stepRepair ctx repaired info validated raised
  | judgeEscalation touch answer =>
      exact faithful_stepJudgeEscalation ctx touch answer
  | transform applied stopped =>
      exact faithful_stepTransform ctx applied stopped
  | rules results => exact faithful_stepRules ctx results
  | assemble => exact .refl ctx

end Flydocs
