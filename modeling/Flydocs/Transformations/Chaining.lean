import Flydocs.Transformations.Isolation

/-!
# Chaining

What the transformations of one target group read, each after those before it in
the list.  Task-scope results are put back into the tasks, where the next ones
find them; request-scope results are not read again.
-/

namespace Flydocs

open Foundation Dtos Transformations

namespace Transformations

/-! ## Replacing the rows -/

theorem find?_replaceFirst {Item : Type} {test : Item → Bool}
    {update : Item → Item} {items : List Item} {found : Item}
    (hupdate : ∀ item, test item = true → test (update item) = true)
    (h : items.find? test = some found) :
    (replaceFirst test update items).find? test = some (update found) := by
  induction items with
  | nil => cases h
  | cons item items ih =>
      rw [replaceFirst]
      cases htest : test item with
      | true =>
          rw [List.find?_cons_of_pos htest] at h
          rw [← Option.some.inj h]
          exact List.find?_cons_of_pos (hupdate item htest)
      | false =>
          rw [List.find?_cons_of_neg (by simp [htest])] at h
          simp only [Bool.false_eq_true, if_false]
          rw [List.find?_cons_of_neg (by simp [htest])]
          exact ih h

theorem filter_replaceFirst {Item : Type} {test : Item → Bool}
    {update : Item → Item} {items : List Item}
    (hupdate : ∀ item, test item = true → test (update item) = true) :
    (replaceFirst test update items).filter test =
      match items.filter test with
      | [] => []
      | first :: rest => update first :: rest := by
  induction items with
  | nil => rfl
  | cons item items ih =>
      rw [replaceFirst]
      cases htest : test item with
      | true => simp [htest, hupdate item htest]
      | false => simp [htest, ih]

theorem isList_newArray (field : ExtractedField) (rows : List ExtractedField) :
    isList (newArray field rows) = true := by
  rfl

theorem findArrayField_replaceArray {group : ExtractedFieldGroup}
    {field : ExtractedField} (rows : List ExtractedField)
    (h : findArrayField group = some field) :
    findArrayField (replaceArray rows group) = some (newArray field rows) := by
  exact find?_replaceFirst (fun item _ => isList_newArray item rows) h

theorem name_replaceArray {target : String} (rows : List ExtractedField)
    (group : ExtractedFieldGroup) (h : decide (group.name = target) = true) :
    decide ((replaceArray rows group).name = target) = true := by
  exact h

theorem targetRows_putRows {groups : List ExtractedFieldGroup}
    {target : String} {group : ExtractedFieldGroup} {field : ExtractedField}
    (rows : List ExtractedField) (hgroup : findGroup groups target = some group)
    (hfield : findArrayField group = some field) :
    targetRows (putRows target none groups group field rows).1 target = rows := by
  have hfound : findGroup (putRows target none groups group field rows).1 target =
      some (replaceArray rows group) := by
    exact find?_replaceFirst (name_replaceArray rows) hgroup
  rw [targetRows, hfound, Option.bind_some,
    findArrayField_replaceArray rows hfield]
  rfl

theorem applyWith_cases {Raised : Type}
    (transform : List ExtractedField →
      Except Raised (Option (List ExtractedField)))
    (target : String) (outputGroup : Option String)
    (groups : List ExtractedFieldGroup) :
    targetRows groups target = [] ∧
        applyWith transform target outputGroup groups = .ok (groups, none) ∨
      ∃ group field, findGroup groups target = some group ∧
        findArrayField group = some field ∧
        applyWith transform target outputGroup groups =
          (transform (targetRows groups target)).map fun
            | none => (groups, none)
            | some rows =>
                ((putRows target outputGroup groups group field rows).1,
                  some (putRows target outputGroup groups group field rows).2) := by
  cases hgroup : findGroup groups target with
  | none =>
      left
      simp [applyWith, targetRows, hgroup]
  | some group =>
      cases hfield : findArrayField group with
      | none =>
          left
          simp [applyWith, targetRows, hgroup, hfield]
      | some field =>
          have hrows : targetRows groups target = rowsOf field := by
            simp [targetRows, hgroup, hfield]
          simp only [applyWith, hgroup, hfield, hrows]
          by_cases hempty : rowsOf field = []
          · left
            simp [hempty]
          · right
            refine ⟨group, field, rfl, hfield, ?_⟩
            rw [if_neg hempty]
            cases transform (rowsOf field) with
            | error raised => rfl
            | ok outcome => cases outcome <;> rfl

/-! ## One array for the target -/

/-- The target has no array besides the one that a task-scope call reads. -/
def OneArray (target : String) (groups : List ExtractedFieldGroup) : Prop :=
  TransformationEngine.targetArrays target groups =
    ((findGroup groups target).bind findArrayField).toList

theorem flatMap_rowsOf_targetArrays {target : String}
    {groups : List ExtractedFieldGroup} (h : OneArray target groups) :
    (TransformationEngine.targetArrays target groups).flatMap rowsOf =
      targetRows groups target := by
  rw [h, targetRows]
  cases (findGroup groups target).bind findArrayField <;> simp

theorem oneArray_putRows {groups : List ExtractedFieldGroup} {target : String}
    {group : ExtractedFieldGroup} {field : ExtractedField}
    (rows : List ExtractedField) (hgroup : findGroup groups target = some group)
    (hfield : findArrayField group = some field) (h : OneArray target groups) :
    OneArray target (putRows target none groups group field rows).1 := by
  have hgroups : ∃ rest, groups.filter (·.name = target) = group :: rest := by
    rw [findGroup, ← List.head?_filter] at hgroup
    exact List.head?_eq_some_iff.mp hgroup
  have hfields : ∃ more, group.fields.filter isList = field :: more := by
    rw [findArrayField, ← List.head?_filter] at hfield
    exact List.head?_eq_some_iff.mp hfield
  obtain ⟨rest, hrest⟩ := hgroups
  obtain ⟨more, hmore⟩ := hfields
  have hfound : findGroup (putRows target none groups group field rows).1 target =
      some (replaceArray rows group) := by
    exact find?_replaceFirst (name_replaceArray rows) hgroup
  have hfiltered : (putRows target none groups group field rows).1.filter
      (·.name = target) = replaceArray rows group :: rest := by
    simp only [putRows]
    rw [filter_replaceFirst (name_replaceArray rows), hrest]
  have hreplaced : (replaceArray rows group).fields.filter isList =
      newArray field rows :: more := by
    simp only [replaceArray]
    rw [filter_replaceFirst (fun item _ => isList_newArray item rows), hmore]
  unfold OneArray TransformationEngine.targetArrays at h ⊢
  simp only [hrest, hgroup, hfield, List.flatMap_cons, List.filter_append,
    hmore, Option.bind_some, Option.toList_some, List.cons_append,
    List.cons.injEq, true_and] at h
  simp only [hfiltered, hfound, findArrayField_replaceArray rows hfield,
    List.flatMap_cons, List.filter_append, hreplaced, Option.bind_some,
    Option.toList_some, List.cons_append, h]

end Transformations

namespace TransformationEngine

variable {Raised : Type} (self : TransformationEngine Raised)

/-! ## What is read and produced -/

def SameTarget (target : String) (entries : List (TransformEntry Raised)) :
    Prop :=
  ∀ entry ∈ entries, entry.spec.base.targetGroup = target ∧
    entry.spec.base.outputGroup = none

def produce (entry : TransformEntry Raised) (call : Option Nat)
    (rows : List ExtractedField) :
    Except Raised (Option (List ExtractedField)) :=
  match entry.spec with
  | .entityResolution spec =>
      .ok (some (EntityResolution.dedupeRows self.text spec rows))
  | .llm spec => self.llm.transform self.text spec (entry.answer call) rows

/-- The rows that it leaves in a task: those that it read unless it produced
others. -/
def rowsAfter (entry : TransformEntry Raised) (index : Nat)
    (rows : List ExtractedField) : List ExtractedField :=
  match self.produce entry (some index) rows with
  | .ok (some produced) => produced
  | _ => rows

def taskScoped (entries : List (TransformEntry Raised)) :
    List (TransformEntry Raised) :=
  entries.filter (·.spec.base.scope = .task)

def composed (entries : List (TransformEntry Raised)) (index : Nat)
    (rows : List ExtractedField) : List ExtractedField :=
  (taskScoped entries).foldl
    (fun rows entry => self.rowsAfter entry index rows) rows

def documentRows (target : String) (tasks : List TransformTask) :
    List (Option String × List ExtractedField) :=
  tasks.map fun task => (task.filename, targetRows task.groups target)

def composedRows (entries : List (TransformEntry Raised))
    (documents : List (Option String × List ExtractedField)) :
    List (Option String × List ExtractedField) :=
  documents.mapIdx fun index (filename, rows) =>
    (filename, self.composed entries index rows)

def produceAll (entry : TransformEntry Raised) (rows : List ExtractedField) :
    Except Raised (Option (List ExtractedField)) :=
  if rows = [] then .ok none else self.produce entry none rows

/-! ## One task -/

section

variable {self} {entry : TransformEntry Raised} {target : String}

theorem dispatch_eq_applyWith (call : Option Nat) (outputGroup : Option String)
    (groups : List ExtractedFieldGroup) :
    self.dispatch entry.spec (entry.answer call) outputGroup groups =
      applyWith (self.produce entry call) entry.spec.base.targetGroup
        outputGroup groups := by
  unfold dispatch produce
  cases entry.spec <;> rfl

theorem rowsAfter_nil (index : Nat) : self.rowsAfter entry index [] = [] := by
  unfold rowsAfter produce
  cases entry.spec <;> rfl

theorem taskResult_cases (task : TransformTask) (index : Nat)
    (htarget : entry.spec.base.targetGroup = target)
    (houtput : entry.spec.base.outputGroup = none) :
    (self.taskResult entry task index).1 = task.groups ∧
        self.rowsAfter entry index (targetRows task.groups target) =
          targetRows task.groups target ∨
      ∃ group field rows, findGroup task.groups target = some group ∧
        findArrayField group = some field ∧
        (self.taskResult entry task index).1 =
          (putRows target none task.groups group field rows).1 ∧
        self.rowsAfter entry index (targetRows task.groups target) = rows := by
  unfold taskResult
  by_cases hempty : task.groups = []
  · left
    simp [hempty, targetRows, findGroup, rowsAfter_nil]
  · rw [if_neg hempty, applyToTask, dispatch_eq_applyWith, htarget, houtput]
    obtain ⟨hrows, happly⟩ | ⟨group, field, hgroup, hfield, happly⟩ :=
      applyWith_cases (self.produce entry (some index)) target none task.groups
    · left
      simp [happly, hrows, rowsAfter_nil]
    · rw [happly, rowsAfter]
      cases self.produce entry (some index) (targetRows task.groups target) with
      | error raised =>
          left
          simp [Except.map]
      | ok outcome =>
          cases outcome with
          | none =>
              left
              simp [Except.map]
          | some rows =>
              right
              exact ⟨group, field, rows, hgroup, hfield, rfl, rfl⟩

theorem targetRows_taskResult (task : TransformTask) (index : Nat)
    (htarget : entry.spec.base.targetGroup = target)
    (houtput : entry.spec.base.outputGroup = none) :
    targetRows (self.taskResult entry task index).1 target =
      self.rowsAfter entry index (targetRows task.groups target) := by
  obtain ⟨hgroups, hrows⟩ | ⟨group, field, rows, hgroup, hfield, hgroups, hrows⟩ :=
    @taskResult_cases _ self _ _ task index htarget houtput
  · rw [hgroups, hrows]
  · rw [hgroups, hrows]
    exact targetRows_putRows rows hgroup hfield

theorem oneArray_taskResult (task : TransformTask) (index : Nat)
    (htarget : entry.spec.base.targetGroup = target)
    (houtput : entry.spec.base.outputGroup = none)
    (h : OneArray target task.groups) :
    OneArray target (self.taskResult entry task index).1 := by
  obtain ⟨hgroups, -⟩ | ⟨group, field, rows, hgroup, hfield, hgroups, -⟩ :=
    @taskResult_cases _ self _ _ task index htarget houtput
  · rw [hgroups]
    exact h
  · rw [hgroups]
    exact oneArray_putRows rows hgroup hfield h

/-! ## One turn of the loop -/

theorem composed_cons (index : Nat) (entries : List (TransformEntry Raised))
    (rows : List ExtractedField) :
    self.composed (entry :: entries) index rows =
      self.composed entries index (self.composed [entry] index rows) := by
  unfold composed taskScoped
  cases hscope : decide (entry.spec.base.scope = .task) <;> simp [hscope]

theorem composedRows_cons (entries : List (TransformEntry Raised))
    (documents : List (Option String × List ExtractedField)) :
    self.composedRows (entry :: entries) documents =
      self.composedRows entries (self.composedRows [entry] documents) := by
  simp only [composedRows, List.mapIdx_mapIdx]
  congr
  funext index document
  rw [composed_cons]
  rfl

theorem tasks_of_stepOne_task {state next : TransformState}
    (hscope : entry.spec.base.scope = .task)
    (h : self.stepOne entry state = .ok next) :
    next.tasks = state.tasks.mapIdx fun index task =>
      { task with groups := (self.taskResult entry task index).1 } := by
  rw [stepOne, hscope] at h
  cases h
  simp [List.mapIdx_eq_zipIdx_map]

theorem stepOne_request_ok_iff {state next : TransformState}
    (hscope : entry.spec.base.scope = .request) :
    self.stepOne entry state = .ok next ↔
      ∃ produced, self.applyRequestScope entry (contributing state.tasks) =
        .ok produced ∧ next = { state with
          outputs := state.outputs ++ produced.toList
          applied := state.applied + produced.toList.length } := by
  rw [stepOne, hscope]
  simp only [bind_eq_ok_iff, pure, Except.pure, Except.ok.injEq]
  constructor
  · rintro ⟨produced, hproduced, rfl⟩
    exact ⟨produced, hproduced, rfl⟩
  · rintro ⟨produced, hproduced, rfl⟩
    exact ⟨produced, hproduced, rfl⟩

theorem documentRows_stepOne {state next : TransformState}
    (htarget : entry.spec.base.targetGroup = target)
    (houtput : entry.spec.base.outputGroup = none)
    (h : self.stepOne entry state = .ok next) :
    documentRows target next.tasks =
      self.composedRows [entry] (documentRows target state.tasks) := by
  cases hscope : entry.spec.base.scope with
  | request =>
      obtain ⟨produced, -, rfl⟩ := (stepOne_request_ok_iff hscope).mp h
      simp [composedRows, composed, taskScoped, hscope, List.mapIdx_eq_zipIdx_map,
        List.zipIdx_map_fst]
  | task =>
      rw [tasks_of_stepOne_task hscope h]
      unfold documentRows composedRows
      symm
      rw [List.mapIdx_eq_iff]
      intro index
      cases htask : state.tasks[index]? with
      | none => simp [htask]
      | some task =>
          have hrows := @targetRows_taskResult _ self _ _ task index htarget
            houtput
          simp [htask, hrows, composed, taskScoped, hscope]

theorem oneArray_stepOne {state next : TransformState}
    (htarget : entry.spec.base.targetGroup = target)
    (houtput : entry.spec.base.outputGroup = none)
    (h : self.stepOne entry state = .ok next)
    (harrays : ∀ task ∈ state.tasks, OneArray target task.groups) :
    ∀ task ∈ next.tasks, OneArray target task.groups := by
  cases hscope : entry.spec.base.scope with
  | request =>
      obtain ⟨produced, -, rfl⟩ := (stepOne_request_ok_iff hscope).mp h
      exact harrays
  | task =>
      rw [tasks_of_stepOne_task hscope h]
      intro task htask
      obtain ⟨index, hindex, rfl⟩ := List.mem_mapIdx.mp htask
      exact oneArray_taskResult _ index htarget houtput
        (harrays _ (List.getElem_mem hindex))

/-! ## A prefix of the list -/

theorem documentRows_stepTransform {entries : List (TransformEntry Raised)}
    {state middle : TransformState} (htarget : SameTarget target entries)
    (h : self.stepTransform entries state = .ok middle) :
    documentRows target middle.tasks =
      self.composedRows entries (documentRows target state.tasks) := by
  induction entries generalizing state with
  | nil =>
      cases h
      simp [composedRows, composed, taskScoped, List.mapIdx_eq_zipIdx_map,
        List.zipIdx_map_fst]
  | cons entry entries ih =>
      obtain ⟨next, hnext, hrest⟩ := foldlM_cons_eq_ok_iff.mp h
      have hentry := htarget entry (by simp)
      rw [ih (fun other hother => htarget other (by simp [hother])) hrest,
        documentRows_stepOne hentry.1 hentry.2 hnext, ← composedRows_cons]

theorem oneArray_stepTransform {entries : List (TransformEntry Raised)}
    {state middle : TransformState} (htarget : SameTarget target entries)
    (h : self.stepTransform entries state = .ok middle)
    (harrays : ∀ task ∈ state.tasks, OneArray target task.groups) :
    ∀ task ∈ middle.tasks, OneArray target task.groups := by
  induction entries generalizing state with
  | nil =>
      cases h
      exact harrays
  | cons entry entries ih =>
      obtain ⟨next, hnext, hrest⟩ := foldlM_cons_eq_ok_iff.mp h
      have hentry := htarget entry (by simp)
      exact ih (fun other hother => htarget other (by simp [hother])) hrest
        (oneArray_stepOne hentry.1 hentry.2 hnext harrays)

theorem consolidatedRows_contributing {tasks : List TransformTask}
    (harrays : ∀ task ∈ tasks, OneArray target task.groups) :
    consolidatedRows target (contributing tasks) =
      (documentRows target tasks).flatMap fun (filename, rows) =>
        rows.map (labelled filename) := by
  have hrows : ∀ task ∈ tasks,
      ((targetArrays target task.groups).flatMap fun field =>
        (rowsOf field).map (labelled task.filename)) =
        (targetRows task.groups target).map (labelled task.filename) := by
    intro task htask
    rw [← flatMap_rowsOf_targetArrays (harrays task htask), List.map_flatMap]
  unfold consolidatedRows contributing documentRows
  induction tasks with
  | nil => rfl
  | cons task tasks ih =>
      have hrest := ih (fun other hother => harrays other (by simp [hother]))
        (fun other hother => hrows other (by simp [hother]))
      by_cases hempty : task.groups = []
      · simp [hempty, hrest, targetRows, findGroup]
      · simp [hempty, hrest, hrows task (by simp)]

/-- Of the one group that the request scope passes, the produced one is returned
whether it was appended or put in its place. -/
theorem returned_putRows (consolidated group : ExtractedFieldGroup)
    (field : ExtractedField) (target : String) (outputGroup : Option String)
    (rows : List ExtractedField) :
    (if 1 < (putRows target outputGroup [consolidated] group field
          rows).1.length
      then (putRows target outputGroup [consolidated] group field
        rows).1.getLast?
      else some (putRows target outputGroup [consolidated] group field rows).2) =
      some (putRows target outputGroup [consolidated] group field rows).2 := by
  have hsingle : ∀ (test : ExtractedFieldGroup → Bool) update,
      (replaceFirst test update [consolidated]).length = 1 := by
    intro test update
    rw [replaceFirst]
    split <;> rfl
  unfold putRows
  split
  · simp [hsingle]
  · simp [hsingle]
  · simp

theorem targetRows_produced {group : ExtractedFieldGroup}
    {field : ExtractedField} (rows : List ExtractedField)
    (hname : group.name = target) (hfield : findArrayField group = some field) :
    targetRows [(putRows target (some target) [group] group field rows).2]
      target = rows := by
  by_cases hempty : target = ""
  · subst hempty
    have hkept : (replaceArray rows group).name = "" := hname
    simp [putRows, targetRows, findGroup, hkept,
      findArrayField_replaceArray rows hfield, newArray, rowsOf]
  · simp [putRows, targetRows, findGroup, findArrayField, isList, newArray,
      rowsOf]

theorem applyRequestScope_rows {tasks : List TransformTask}
    {produced : Option ExtractedFieldGroup}
    (htarget : entry.spec.base.targetGroup = target)
    (houtput : entry.spec.base.outputGroup = none)
    (h : self.applyRequestScope entry tasks = .ok produced) :
    self.produceAll entry (consolidatedRows target tasks) =
      .ok (produced.map fun group => targetRows [group] target) := by
  rw [applyRequestScope, htarget] at h
  rw [produceAll]
  cases hconsolidated : consolidateGroups tasks target with
  | none =>
      have hempty := consolidateGroups_eq_none_iff.mp hconsolidated
      simp only [hconsolidated, Except.ok.injEq] at h
      subst h
      rw [if_pos hempty]
      rfl
  | some consolidated =>
      have hrows := targetRows_consolidated hconsolidated
      have hne : consolidatedRows target tasks ≠ [] := fun hempty => by
        simp [consolidateGroups, hempty] at hconsolidated
      have hname : consolidated.name = target := by
        rw [consolidateGroups, if_neg hne] at hconsolidated
        cases hconsolidated
        rfl
      rw [if_neg hne, ← hrows]
      simp only [hconsolidated, bind_eq_ok_iff, requestOutputGroup, houtput,
        htarget, dispatch_eq_applyWith] at h
      obtain ⟨result, hresult, hproduced⟩ := h
      obtain ⟨hempty, -⟩ | ⟨group, field, hgroup, hfield, happly⟩ :=
        applyWith_cases (self.produce entry none) target (some target)
          [consolidated]
      · rw [hrows] at hempty
        exact absurd hempty hne
      · have hsame : consolidated = group := by
          simpa [findGroup, hname] using hgroup
        subst hsame
        rw [happly] at hresult
        cases houtcome : self.produce entry none
            (targetRows [consolidated] target) with
        | error raised => simp [houtcome, Except.map] at hresult
        | ok outcome =>
            simp only [houtcome, Except.map, Except.ok.injEq] at hresult
            subst hresult
            cases hproduced
            cases outcome with
            | none => simp
            | some rows =>
                dsimp only
                rw [returned_putRows, Option.map_some,
                  targetRows_produced rows hname hfield]

end

/-! ## The chain -/

/-- What the members of the list read and what they leave. -/
structure Chained (engine : TransformationEngine Raised) (target : String)
    (entries : List (TransformEntry Raised)) (state : TransformState) :
    Prop where
  documents : ∀ before after, entries = before ++ after →
    ∀ middle, engine.stepTransform before state = .ok middle →
      documentRows target middle.tasks =
        engine.composedRows before (documentRows target state.tasks)
  labels : (∀ task ∈ state.tasks, OneArray target task.groups) →
    ∀ before after, entries = before ++ after →
    ∀ middle, engine.stepTransform before state = .ok middle →
      consolidatedRows target (contributing middle.tasks) =
        (engine.composedRows before (documentRows target state.tasks)).flatMap
          fun (filename, rows) => rows.map (labelled filename)
  taskMembers : ∀ before entry after, entries = before ++ entry :: after →
    entry.spec.base.scope = .task →
    ∀ middle next, engine.stepTransform before state = .ok middle →
      engine.stepOne entry middle = .ok next → next.outputs = middle.outputs
  requestMembers : ∀ before entry after, entries = before ++ entry :: after →
    entry.spec.base.scope = .request →
    ∀ middle next, engine.stepTransform before state = .ok middle →
      engine.stepOne entry middle = .ok next →
      next.tasks = middle.tasks ∧
      ∃ produced : Option ExtractedFieldGroup,
        next.outputs = middle.outputs ++ produced.toList ∧
        engine.produceAll entry
            (consolidatedRows target (contributing middle.tasks)) =
          .ok (produced.map fun group => targetRows [group] target)

variable {self} {target : String}

/--
Transformations of one target group chain through the tasks: every document
holds the composition of the task-scope members so far, and each request-scope
member reads the documents as they then stand and adds one group to the outputs.
-/
theorem chained_of_sameTarget {entries : List (TransformEntry Raised)}
    {state : TransformState} (htarget : SameTarget target entries) :
    Chained self target entries state := by
  have hbefore : ∀ before after, entries = before ++ after →
      SameTarget target before := by
    rintro before after rfl entry hentry
    exact htarget entry (by simp [hentry])
  constructor
  case documents =>
    intro before after hentries middle hmiddle
    exact documentRows_stepTransform (hbefore before after hentries) hmiddle
  case labels =>
    intro harrays before after hentries middle hmiddle
    have hsame := hbefore before after hentries
    rw [consolidatedRows_contributing
        (oneArray_stepTransform hsame hmiddle harrays),
      documentRows_stepTransform hsame hmiddle]
  case taskMembers =>
    intro before entry after hentries hscope middle next hmiddle hnext
    exact (stepOne_task_kept hscope hnext).1
  case requestMembers =>
    intro before entry after hentries hscope middle next hmiddle hnext
    have hentry := htarget entry (by simp [hentries])
    obtain ⟨produced, hproduced, rfl⟩ :=
      (stepOne_request_ok_iff hscope).mp hnext
    exact ⟨rfl, produced, rfl,
      applyRequestScope_rows hentry.1 hentry.2 hproduced⟩

/-! ## A deduplication that is not read -/

def rowsRead (target : String) (entry : TransformEntry Raised)
    (tasks : List TransformTask) : List ExtractedField :=
  match entry.spec.base.scope with
  | .request => consolidatedRows target (contributing tasks)
  | .task => (documentRows target tasks).flatMap Prod.snd

def rowsProduced (engine : TransformationEngine Raised) (target : String)
    (entry : TransformEntry Raised) (tasks : List TransformTask) :
    List ExtractedField :=
  match entry.spec.base.scope with
  | .request =>
      match engine.produceAll entry
        (consolidatedRows target (contributing tasks)) with
      | .ok (some rows) => rows
      | _ => consolidatedRows target (contributing tasks)
  | .task =>
      (engine.composedRows [entry] (documentRows target tasks)).flatMap Prod.snd

def ReadsProduced (engine : TransformationEngine Raised) (target : String)
    (entries : List (TransformEntry Raised)) (state : TransformState) : Prop :=
  ∀ before first second after,
    entries = before ++ first :: second :: after →
    ∀ prior middle, engine.stepTransform before state = .ok prior →
      engine.stepOne first prior = .ok middle →
      rowsRead target second middle.tasks =
        rowsProduced engine target first prior.tasks

def personasRow (nombre dni : String) : ExtractedField where
  name := "row"
  value := .list
    [{ name := "nombre", value := .str nombre },
      { name := "dni", value := .str dni }]

def personasTask : TransformTask where
  groups :=
    [{ name := "personas"
       fields :=
         [{ name := "personas"
            value := .list
              [personasRow "Ana Gil" "12L",
                personasRow "Ana Gil Roa" "1.2-L"] }] }]

def dedupePersonas : TransformEntry String where
  spec := .entityResolution {
    id := "t1"
    scope := .request
    targetGroup := "personas"
    matchBy := ["dni", "nombre"] }
  answer _ _ := .error "unused"

def classifyPersonas : TransformEntry String where
  spec := .llm {
    id := "t2"
    targetGroup := "personas"
    intention := "Classify each cargo into a closed taxonomy." }
  answer _ _ := .ok (.obj [("rows", .arr [])])

theorem sameTarget_personas :
    SameTarget "personas" [dedupePersonas, classifyPersonas] := by
  intro entry hentry
  simp only [List.mem_cons, List.not_mem_nil, or_false] at hentry
  obtain rfl | rfl := hentry <;> exact ⟨rfl, rfl⟩

theorem chained_personas :
    Chained silentEngine "personas" [dedupePersonas, classifyPersonas]
      { tasks := [personasTask] } := by
  exact chained_of_sameTarget sameTarget_personas

theorem length_rowsProduced_personas :
    (rowsProduced silentEngine "personas" dedupePersonas [personasTask]).length =
      1 := by
  rfl

theorem length_rowsRead_personas :
    (rowsRead "personas" classifyPersonas [personasTask]).length = 2 := by
  rfl

theorem not_readsProduced :
    ¬ ∀ (Raised : Type) (engine : TransformationEngine Raised) (target : String)
      (entries : List (TransformEntry Raised)) (state : TransformState),
      SameTarget target entries → ReadsProduced engine target entries state := by
  intro h
  have hreads := h String silentEngine "personas"
    [dedupePersonas, classifyPersonas] { tasks := [personasTask] }
    sameTarget_personas [] dedupePersonas classifyPersonas [] rfl
  obtain ⟨middle, hmiddle⟩ : ∃ middle, silentEngine.stepOne dedupePersonas
      { tasks := [personasTask] } = .ok middle := by
    apply stepOne_ok_iff.mpr
    intro _ spec hspec
    cases hspec
  obtain ⟨produced, -, hnext⟩ := (stepOne_request_ok_iff rfl).mp hmiddle
  have hsame := hreads { tasks := [personasTask] } middle rfl hmiddle
  have htasks : middle.tasks = [personasTask] := by
    rw [hnext]
  rw [htasks] at hsame
  have hlength := congrArg List.length hsame
  rw [length_rowsRead_personas, length_rowsProduced_personas] at hlength
  omega

end TransformationEngine

end Flydocs
