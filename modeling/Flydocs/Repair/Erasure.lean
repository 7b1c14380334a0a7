import Flydocs.Repair.Splice

/-!
# Data that a repair erases

A candidate without a value is never accepted, but an array without rows is one
that the validator has nothing to say about, and it takes the place of the rows
that were there.
-/

namespace Flydocs

open Foundation Dtos

/-- A scalar that is not null, or an array with at least one row. -/
def Dtos.ExtractedField.holdsData (field : ExtractedField) : Bool :=
  match field.value with
  | .null => false
  | .list items => !items.isEmpty
  | _ => true

namespace FieldRepairer

theorem holdsData_shiftPages (offset : Int) (field : ExtractedField) :
    (shiftPages offset field).holdsData = field.holdsData := by
  obtain ⟨name, value, pages, confidence, bbox, validation, judge, notes,
    source⟩ := field
  cases value with
  | list items => cases items <;> rfl
  | _ => rfl

/-- Of the values that are accepted, only arrays without rows hold no data. -/
theorem holdsData_of_isClean {requireJudgePass : Bool} {field : ExtractedField}
    (h : isClean requireJudgePass field = true) :
    field.holdsData = true ↔ field.value ≠ .list [] := by
  unfold isClean at h
  unfold ExtractedField.holdsData
  cases hvalue : field.value with
  | null => simp [hvalue] at h
  | list items => cases items <;> simp
  | _ => simp

/-! ## One task -/

def Keeps (before after : List ExtractedFieldGroup) : Prop :=
  List.Forall₂ (fun group group' : ExtractedFieldGroup =>
    List.Forall₂ (fun field field' : ExtractedField =>
      field.holdsData = true → field'.holdsData = true)
      group.fields group'.fields) before after

theorem keeps_splice_iff (replace : String × String → Option ExtractedField)
    (groups : List ExtractedFieldGroup) :
    Keeps groups (splice replace groups).groups ↔
      ∀ group ∈ groups, ∀ field ∈ group.fields, field.holdsData = true →
        ∀ new, replace (group.name, field.name) = some new →
          new.holdsData = true := by
  unfold Keeps splice
  rw [List.forall₂_map_right_iff, List.forall₂_same]
  refine forall₂_congr fun group _ => ?_
  rw [List.forall₂_map_right_iff, List.forall₂_same]
  refine forall₂_congr fun field _ => ?_
  cases hreplace : replace (group.name, field.name) with
  | none => simp
  | some new => simp

variable {Raised : Type} (self : FieldRepairer Raised)

/-- The groups that came back for a task, if its repair got that far. -/
def cameBack (request : Dtos.ExtractionRequest) (model : Option String)
    (task : RepairTask) : List ExtractedFieldGroup :=
  let failures := collectFailingFields self.includeFlagged task.extractedGroups
  if self.isSkipped task failures then []
  else
    match self.repairedGroups request model task failures with
    | .ok repaired => repaired
    | .error _ => []

theorem splice_none (groups : List ExtractedFieldGroup) :
    (splice (fun _ => none) groups).groups = groups := by
  simp [splice]

theorem replacement_nil_left (requireJudgePass : Bool)
    (repaired groups : List ExtractedFieldGroup) (offset : Int) :
    replacement requireJudgePass [] repaired groups offset =
      fun _ => none := by
  funext key
  simp [replacement]

theorem replacement_nil_right (requireJudgePass : Bool)
    (failingKeys : List (String × String)) (groups : List ExtractedFieldGroup)
    (offset : Int) :
    replacement requireJudgePass failingKeys [] groups offset =
      fun _ => none := by
  funext key
  simp [replacement, candidateFor, lookupLast]

theorem groups_repairTask (request : Dtos.ExtractionRequest)
    (model : Option String) (task : RepairTask) :
    ∃ offset, (self.repairTask request model task).groups =
      (splice
        (replacement request.options.stages.judge
          ((collectFailingFields self.includeFlagged
            task.extractedGroups).map FailingField.key)
          (self.cameBack request model task) task.extractedGroups offset)
        task.extractedGroups).groups := by
  unfold repairTask cameBack
  simp only
  split
  · rename_i hempty
    refine ⟨0, ?_⟩
    rw [List.isEmpty_iff.mp hempty, List.map_nil, replacement_nil_left,
      splice_none]
  · split
    · exact ⟨0, by rw [replacement_nil_right, splice_none]⟩
    · cases hrepaired : self.repairedGroups request model task
          (collectFailingFields self.includeFlagged task.extractedGroups) with
      | error failure => exact ⟨0, by rw [replacement_nil_right, splice_none]⟩
      | ok repaired => exact ⟨_, rfl⟩

def NothingErased (request : Dtos.ExtractionRequest) (model : Option String)
    (task : RepairTask) : Prop :=
  ∀ group ∈ task.extractedGroups, ∀ field ∈ group.fields,
    field.holdsData = true →
    (group.name, field.name) ∈ (collectFailingFields self.includeFlagged
      task.extractedGroups).map FailingField.key →
    ∀ candidate, candidateFor (self.cameBack request model task)
        (group.name, field.name) = some candidate →
      isClean request.options.stages.judge candidate = true →
      candidate.value ≠ .list []

theorem keeps_repairTask_iff (request : Dtos.ExtractionRequest)
    (model : Option String) (task : RepairTask) :
    Keeps task.extractedGroups (self.repairTask request model task).groups ↔
      self.NothingErased request model task := by
  obtain ⟨offset, hgroups⟩ := self.groups_repairTask request model task
  rw [hgroups, keeps_splice_iff]
  refine forall₂_congr fun group _ => forall₂_congr fun field _ =>
    forall_congr' fun _ => ?_
  constructor
  · intro h hkey candidate hcandidate hclean
    have hkept := h (shiftPages _ candidate) (by
      rw [replacement, if_pos hkey, hcandidate]
      exact if_pos hclean)
    rw [holdsData_shiftPages] at hkept
    exact (holdsData_of_isClean hclean).mp hkept
  · intro h new hnew
    obtain ⟨hkey, candidate, shift, hcandidate, hclean, rfl⟩ :=
      replacement_eq_some hnew
    rw [holdsData_shiftPages]
    exact (holdsData_of_isClean hclean).mpr (h hkey candidate hcandidate hclean)

/-! ## A run -/

/--
Every field that held data before a repair holds data after it exactly when no
failing field that holds data gets a clean candidate that is an empty array.
-/
theorem maybeRepair_keeps_iff (request : Dtos.ExtractionRequest)
    (modelId : Option String) (tasks : List RepairTask) :
    List.Forall₂ (fun task task' : RepairTask =>
      Keeps task.extractedGroups task'.extractedGroups)
      tasks (self.maybeRepair request modelId tasks).1 ↔
    ∀ task ∈ tasks,
      self.NothingErased request (self.repairModel modelId) task := by
  unfold maybeRepair
  simp only [List.zipWith_map_right, List.zipWith_self]
  rw [List.forall₂_map_right_iff, List.forall₂_same]
  exact forall₂_congr fun task _ =>
    self.keeps_repairTask_iff request (self.repairModel modelId) task

def rejectedLine : RepairTask where
  taskId := "invoice"
  docSpec := {
    id := "invoice"
    fieldGroups := [{
      name := "totals"
      fields := [{ name := "number" }, {
        name := "lines"
        type := .array
        items := some {
          name := "line"
          type := .object
          fields := some [{ name := "net" }] } }] }] }
  sliceBytes := [1]
  slicePages := 1
  mediaType := "application/pdf"
  extractedGroups := [{
    name := "totals"
    fields := [{ name := "number", value := .str "7" }, {
      name := "lines"
      value := .list [{
        name := "row_1"
        value := .list [{
          name := "net"
          value := .str "ten"
          validation := {
            valid := false
            errors := [{ rule := .pattern, message := "not an amount" }] } }] }]
      validation := { valid := false } }] }]

def withoutJudge : Dtos.ExtractionRequest where
  files := [⟨"invoice.pdf", some "JVBERg==", none, none⟩]
  documentTypes := [rejectedLine.docSpec]

theorem not_keeps_rejectedLine :
    ¬ List.Forall₂ (fun task task' : RepairTask =>
      Keeps task.extractedGroups task'.extractedGroups)
      [rejectedLine]
      (emptyHanded.maybeRepair withoutJudge none [rejectedLine]).1 := by
  intro h
  -- One of two fields failed, which is not too many.
  have hskipped : emptyHanded.isSkipped rejectedLine
      (collectFailingFields emptyHanded.includeFlagged
        rejectedLine.extractedGroups) = false := by
    decide +kernel
  have hafter : (emptyHanded.repairTask withoutJudge none rejectedLine).groups =
      [{ name := "totals"
         fields := [{ name := "number", value := .str "7" },
           { name := "lines", value := .list [] }] }] := by
    unfold repairTask
    simp only [hskipped]
    rfl
  have hkeeps : Keeps rejectedLine.extractedGroups
      (emptyHanded.repairTask withoutJudge none rejectedLine).groups :=
    (List.forall₂_cons.mp h).1
  rw [hafter] at hkeeps
  have hfields := (List.forall₂_cons.mp hkeeps).1
  have hlines := (List.forall₂_cons.mp (List.forall₂_cons.mp hfields).2).1
  exact absurd (hlines rfl) (by decide)

end FieldRepairer

end Flydocs
