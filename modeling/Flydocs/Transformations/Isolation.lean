import Flydocs.Transformations.Raises

/-!
# Failure isolation

A transformation that fails is meant to leave no trace.  In task scope the
engine catches whatever is raised; in request scope it does not, and one
exception ends the walk over the list.
-/

namespace Flydocs

open Foundation Dtos Transformations

namespace TransformationEngine

variable {Raised : Type} (self : TransformationEngine Raised)

/-! ## Failures -/

/-- The transformation raises or produces nothing. -/
def Fails (spec : Transformation) (answer : LlmTransformer.Answer Raised)
    (outputGroup : Option String) (groups : List ExtractedFieldGroup) : Prop :=
  ∀ result, self.dispatch spec answer outputGroup groups = .ok result →
    result.2 = none

def FailsOnTask (entry : TransformEntry Raised) (index : Nat)
    (task : TransformTask) : Prop :=
  task.groups ≠ [] →
    Fails self entry.spec (entry.answer (some index))
      entry.spec.base.outputGroup task.groups

def FailsIn (entry : TransformEntry Raised) (state : TransformState) : Prop :=
  match entry.spec.base.scope with
  | .request =>
      ∀ consolidated, consolidateGroups (contributing state.tasks)
        entry.spec.base.targetGroup = some consolidated →
        Fails self entry.spec (entry.answer none)
          (requestOutputGroup entry.spec) [consolidated]
  | .task => ∀ index task, state.tasks[index]? = some task →
      FailsOnTask self entry index task

/-- What is meant by isolation, at every entry that the walk reaches. -/
structure Isolated (engine : TransformationEngine Raised)
    (entries : List (TransformEntry Raised)) (state : TransformState) : Prop where
  returns : ∃ final, engine.stepTransform entries state = .ok final
  taskKept : ∀ before entry after, entries = before ++ entry :: after →
    ∀ middle next, engine.stepTransform before state = .ok middle →
      engine.stepOne entry middle = .ok next →
      entry.spec.base.scope = .task → next.outputs = middle.outputs ∧
      ∀ index task, middle.tasks[index]? = some task →
        FailsOnTask engine entry index task → next.tasks[index]? = some task
  kept : ∀ before entry after, entries = before ++ entry :: after →
    ∀ middle, engine.stepTransform before state = .ok middle →
      FailsIn engine entry middle → engine.stepOne entry middle = .ok middle
  absent : ∀ before entry after, entries = before ++ entry :: after →
    ∀ middle, engine.stepTransform before state = .ok middle →
      FailsIn engine entry middle →
      engine.stepTransform (before ++ after) state =
        engine.stepTransform entries state

def StepSafe (entry : TransformEntry Raised) (state : TransformState) : Prop :=
  entry.spec.base.scope = .request → ∀ spec, entry.spec = .llm spec →
    consolidatedRows spec.targetGroup (contributing state.tasks) ≠ [] →
    LlmTransformer.Builds self.llm self.text spec (entry.answer none)
      (consolidatedRows spec.targetGroup (contributing state.tasks))

/-! ## One transformation -/

section

variable {transform : List ExtractedField →
    Except Raised (Option (List ExtractedField))}
  {target : String} {outputGroup : Option String}
  {groups : List ExtractedFieldGroup}

theorem applyWith_eq_none {result : List ExtractedFieldGroup}
    (h : applyWith transform target outputGroup groups = .ok (result, none)) :
    result = groups := by
  unfold applyWith at h
  split at h
  · cases h
    rfl
  · split at h
    · cases h
      rfl
    · split at h
      · cases h
        rfl
      · split at h
        · cases h
        · cases h
          rfl
        · cases h

theorem applyWith_ok_iff :
    (∃ result, applyWith transform target outputGroup groups = .ok result) ↔
      (targetRows groups target ≠ [] →
        ∃ rows, transform (targetRows groups target) = .ok rows) := by
  unfold applyWith targetRows
  cases findGroup groups target with
  | none => simp
  | some group =>
      cases hfield : findArrayField group with
      | none => simp [hfield]
      | some field =>
          simp only [Option.bind_some, hfield]
          by_cases hrows : rowsOf field = []
          · simp [hrows]
          · simp only [ne_eq, hrows, not_false_eq_true, true_imp_iff]
            cases transform (rowsOf field) with
            | error raised => simp
            | ok rows => cases rows <;> simp

end

section

variable {self}

theorem dispatch_eq_none {spec : Transformation}
    {answer : LlmTransformer.Answer Raised} {outputGroup : Option String}
    {groups result : List ExtractedFieldGroup}
    (h : self.dispatch spec answer outputGroup groups = .ok (result, none)) :
    result = groups := by
  cases spec with
  | entityResolution spec =>
      rw [dispatch, EntityResolution.apply] at h
      exact applyWith_eq_none h
  | llm spec =>
      rw [dispatch, LlmTransformer.apply] at h
      exact applyWith_eq_none h

theorem dispatch_ok_iff {spec : Transformation}
    {answer : LlmTransformer.Answer Raised} {outputGroup : Option String}
    {groups : List ExtractedFieldGroup} :
    (∃ result, self.dispatch spec answer outputGroup groups = .ok result) ↔
      ∀ declared, spec = .llm declared →
        targetRows groups declared.targetGroup ≠ [] →
        LlmTransformer.Builds self.llm self.text declared answer
          (targetRows groups declared.targetGroup) := by
  cases spec with
  | entityResolution spec =>
      simp only [dispatch, EntityResolution.apply, applyWith_ok_iff]
      simp
  | llm spec =>
      simp only [dispatch, LlmTransformer.apply, applyWith_ok_iff,
        Transformation.llm.injEq, forall_eq']
      refine forall_congr' fun hne => ?_
      exact LlmTransformer.transform_ok_iff hne

/-! ## One turn of the loop -/

theorem consolidateGroups_eq_none_iff {tasks : List TransformTask}
    {target : String} :
    consolidateGroups tasks target = none ↔ consolidatedRows target tasks = [] := by
  rw [consolidateGroups]
  split <;> simp [*]

theorem targetRows_consolidated {tasks : List TransformTask} {target : String}
    {consolidated : ExtractedFieldGroup}
    (h : consolidateGroups tasks target = some consolidated) :
    targetRows [consolidated] target = consolidatedRows target tasks := by
  unfold consolidateGroups at h
  split at h
  · cases h
  · cases h
    simp [targetRows, findGroup, findArrayField, isList, rowsOf]

theorem applyRequestScope_ok_iff {entry : TransformEntry Raised}
    {tasks : List TransformTask} :
    (∃ produced, self.applyRequestScope entry tasks = .ok produced) ↔
      ∀ declared, entry.spec = .llm declared →
        consolidatedRows declared.targetGroup tasks ≠ [] →
        LlmTransformer.Builds self.llm self.text declared (entry.answer none)
          (consolidatedRows declared.targetGroup tasks) := by
  cases hconsolidated : consolidateGroups tasks entry.spec.base.targetGroup with
  | none =>
      have hempty := consolidateGroups_eq_none_iff.mp hconsolidated
      constructor
      · rintro - declared hdeclared hne
        rw [hdeclared] at hempty
        exact absurd hempty hne
      · intro _
        exact ⟨none, by simp [applyRequestScope, hconsolidated]⟩
  | some consolidated =>
      have hdispatch : (∃ produced, self.applyRequestScope entry tasks =
          .ok produced) ↔ ∃ result, self.dispatch entry.spec (entry.answer none)
            (requestOutputGroup entry.spec) [consolidated] = .ok result := by
        simp only [applyRequestScope, hconsolidated, bind_eq_ok_iff]
        constructor
        · rintro ⟨_, result, hresult, -⟩
          exact ⟨result, hresult⟩
        · rintro ⟨result, hresult⟩
          exact ⟨_, result, hresult, rfl⟩
      rw [hdispatch, dispatch_ok_iff]
      refine forall_congr' fun declared => forall_congr' fun hdeclared => ?_
      have htarget : entry.spec.base.targetGroup = declared.targetGroup := by
        rw [hdeclared]
        rfl
      rw [← htarget, targetRows_consolidated hconsolidated]

theorem stepOne_ok_iff {entry : TransformEntry Raised}
    {state : TransformState} :
    (∃ next, self.stepOne entry state = .ok next) ↔
      StepSafe self entry state := by
  unfold StepSafe stepOne
  cases entry.spec.base.scope with
  | request =>
      simp only [true_imp_iff, bind_eq_ok_iff]
      rw [← applyRequestScope_ok_iff]
      constructor
      · rintro ⟨_, produced, hproduced, -⟩
        exact ⟨produced, hproduced⟩
      · rintro ⟨produced, hproduced⟩
        exact ⟨_, produced, hproduced, rfl⟩
  | task => simp

theorem taskResult_of_fails {entry : TransformEntry Raised} {index : Nat}
    {task : TransformTask} (h : FailsOnTask self entry index task) :
    self.taskResult entry task index = (task.groups, none) := by
  unfold taskResult
  split
  · rfl
  · rename_i hne
    unfold applyToTask
    split
    · rename_i result hresult
      obtain ⟨groups, produced⟩ := result
      have hnone := h hne _ hresult
      simp only at hnone
      subst hnone
      rw [dispatch_eq_none hresult]
    · rfl

theorem map_taskResult_of_fails {entry : TransformEntry Raised}
    {tasks : List TransformTask}
    (hfails : ∀ index task, tasks[index]? = some task →
      FailsOnTask self entry index task) :
    (tasks.zipIdx.map fun (task, index) =>
      (task, self.taskResult entry task index)) =
      tasks.map fun task => (task, task.groups, none) := by
  conv_rhs => rw [← List.zipIdx_map_fst 0 tasks, List.map_map]
  apply List.map_congr_left
  rintro ⟨task, index⟩ hmem
  have hfailed := hfails index task (List.mem_zipIdx_iff_getElem?.mp hmem)
  simp only [taskResult_of_fails hfailed, Function.comp_apply]

theorem stepOne_of_failsIn {entry : TransformEntry Raised}
    {state : TransformState} (hsafe : StepSafe self entry state)
    (hfails : FailsIn self entry state) :
    self.stepOne entry state = .ok state := by
  obtain ⟨next, hnext⟩ := stepOne_ok_iff.mpr hsafe
  unfold FailsIn at hfails
  unfold stepOne at hnext ⊢
  cases hscope : entry.spec.base.scope with
  | request =>
      simp only [hscope, bind_eq_ok_iff] at hnext hfails ⊢
      obtain ⟨produced, hproduced, -⟩ := hnext
      refine ⟨produced, hproduced, ?_⟩
      have hnone : produced = none := by
        unfold applyRequestScope at hproduced
        split at hproduced
        · cases hproduced
          rfl
        · rename_i consolidated hconsolidated
          simp only [bind_eq_ok_iff] at hproduced
          obtain ⟨⟨working, result⟩, hresult, hproduced⟩ := hproduced
          have hno := hfails consolidated hconsolidated _ hresult
          simp only at hno
          subst hno
          cases dispatch_eq_none hresult
          cases hproduced
          rfl
      subst hnone
      simp [pure, Except.pure]
  | task =>
      simp only [hscope] at hfails ⊢
      simp only [map_taskResult_of_fails hfails]
      simp [List.filter_map, Function.comp_def]

theorem stepOne_task_kept {entry : TransformEntry Raised}
    {middle next : TransformState} (hscope : entry.spec.base.scope = .task)
    (hnext : self.stepOne entry middle = .ok next) :
    next.outputs = middle.outputs ∧
      ∀ index task, middle.tasks[index]? = some task →
        FailsOnTask self entry index task → next.tasks[index]? = some task := by
  rw [stepOne, hscope] at hnext
  cases hnext
  constructor
  · rfl
  · intro index task htask hfails
    simp [htask, taskResult_of_fails hfails]

end

/-! ## The whole list -/

variable {self}

theorem stepTransform_absent {before after : List (TransformEntry Raised)}
    {entry : TransformEntry Raised} {state middle : TransformState}
    (hmiddle : self.stepTransform before state = .ok middle)
    (hkept : self.stepOne entry middle = .ok middle) :
    self.stepTransform (before ++ after) state =
      self.stepTransform (before ++ entry :: after) state := by
  unfold stepTransform at hmiddle ⊢
  rw [List.foldlM_append, List.foldlM_append, hmiddle]
  simp only [bind, Except.bind, List.foldlM_cons, hkept]

/--
A list of transformations is isolated exactly when nothing raises outside of the
call at any request-scope entry that the walk reaches.
-/
theorem isolated_iff {entries : List (TransformEntry Raised)}
    {state : TransformState} :
    Isolated self entries state ↔
      ∀ before entry after, entries = before ++ entry :: after →
        ∀ middle, self.stepTransform before state = .ok middle →
          StepSafe self entry middle := by
  constructor
  · intro h before entry after hentries middle hmiddle
    have hnext :=
      exists_foldlM_eq_ok_iff.mp h.returns before entry after hentries middle
        hmiddle
    exact stepOne_ok_iff.mp hnext
  · intro hsafe
    have hkept : ∀ before entry after, entries = before ++ entry :: after →
        ∀ middle, self.stepTransform before state = .ok middle →
          FailsIn self entry middle → self.stepOne entry middle = .ok middle := by
      intro before entry after hentries middle hmiddle hfails
      exact stepOne_of_failsIn (hsafe before entry after hentries middle hmiddle)
        hfails
    constructor
    case returns =>
      apply exists_foldlM_eq_ok_iff.mpr
      intro before entry after hentries middle hmiddle
      exact stepOne_ok_iff.mpr (hsafe before entry after hentries middle hmiddle)
    case taskKept =>
      intro before entry after _ middle next _ hnext hscope
      exact stepOne_task_kept hscope hnext
    case kept => exact hkept
    case absent =>
      intro before entry after hentries middle hmiddle hfails
      rw [hentries]
      exact stepTransform_absent hmiddle
        (hkept before entry after hentries middle hmiddle hfails)

/-! ## A nested array -/

def jsonText : TextRuntime where
  toRuntime := .ofJson
  nfkd text := text
  combining _ := false
  lower text := String.ofList (text.toList.map Char.toLower)
  upper text := String.ofList (text.toList.map Char.toUpper)
  isAlnum := Char.isAlphanum
  words text :=
    ((text.toList.splitOnP fun char => !Schema.isWord char).filter
      (· ≠ [])).map String.ofList
  strValue _ := ""

def silentEngine : TransformationEngine String where
  text := jsonText
  llm := {
    template _ _ _ := ⟨"", ""⟩
    model := "primary"
    buildAgent _ _ := .ok ()
    ofPyError _ := "TypeError" }

def nestedTask : TransformTask where
  filename := some "deed.pdf"
  groups :=
    [{ name := "roles"
       fields :=
         [{ name := "rows"
            value := .list
              [{ name := "row_1"
                 value := .list
                   [{ name := "periods"
                      value := .list [{ name := "from", value := .null }] }] }] }] }]

def classifyRoles : TransformEntry String where
  spec := .llm {
    id := "t1"
    scope := .request
    targetGroup := "roles"
    intention := "Classify each role into a closed taxonomy." }
  answer _ _ := .ok (.obj [("rows", .arr [])])

theorem stepTransform_nested :
    silentEngine.stepTransform [classifyRoles] { tasks := [nestedTask] } =
      .error "TypeError" := by
  rfl

theorem not_isolated :
    ¬ ∀ (Raised : Type) (self : TransformationEngine Raised)
      (entries : List (TransformEntry Raised)) (state : TransformState),
      Isolated self entries state := by
  intro h
  obtain ⟨final, hfinal⟩ := (h String silentEngine [classifyRoles]
    { tasks := [nestedTask] }).returns
  rw [stepTransform_nested] at hfinal
  cases hfinal

end TransformationEngine

end Flydocs
