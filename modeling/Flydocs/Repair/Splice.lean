import Mathlib.Algebra.Order.BigOperators.Group.List
import Mathlib.Algebra.Order.Group.Nat
import Flydocs.Repair.FieldRepairer

/-!
# What a repair changes

A repair replaces failing fields by clean candidates and changes nothing else,
and the fields that fail afterwards are those that it did not replace.
-/

namespace Flydocs

open Foundation Dtos

namespace FieldRepairer

/-! ## Failing fields -/

theorem reasons_eq_nil_iff {includeFlagged : Bool} {field : ExtractedField} :
    reasons includeFlagged field = [] ↔
      ¬ (field.judge.status = .fail ∨
        (includeFlagged ∧ field.judge.flagForReview)) ∧
      field.validation.valid = true := by
  have hjudge : judgeReasons includeFlagged field = [] ↔
      ¬ (field.judge.status = .fail ∨
        (includeFlagged ∧ field.judge.flagForReview)) := by
    unfold judgeReasons
    split <;> simp_all
  have hvalidation : validationReasons field = [] ↔
      field.validation.valid = true := by
    have hmessages (messages : List String) :
        (if messages = [] then ["failed validation"] else messages) ≠ [] := by
      split
      · simp
      · assumption
    cases hvalid : field.validation.valid with
    | true => simp [validationReasons, hvalid]
    | false => simpa [validationReasons, hvalid] using hmessages _
  rw [reasons, List.append_eq_nil_iff, hjudge, hvalidation]

theorem reasons_shiftPages (includeFlagged : Bool) (offset : Int)
    (field : ExtractedField) :
    reasons includeFlagged (shiftPages offset field) = [] ↔
      reasons includeFlagged field = [] := by
  rw [reasons_eq_nil_iff, reasons_eq_nil_iff]
  cases field
  rfl

theorem reasons_of_isClean {requireJudgePass : Bool} (includeFlagged : Bool)
    {field : ExtractedField} (h : isClean requireJudgePass field = true) :
    reasons includeFlagged field = [] := by
  rw [reasons_eq_nil_iff]
  have hclean : field.validation.valid = true ∧
      field.judge.status ≠ .fail ∧ field.judge.flagForReview = false := by
    unfold isClean at h
    split at h
    · cases h
    · simp only [Bool.and_eq_true, Bool.not_eq_true'] at h
      obtain ⟨⟨hvalid, hstatus⟩, hflag⟩ := h
      refine ⟨hvalid, ?_, hflag⟩
      split at hstatus
      · have hpass := of_decide_eq_true hstatus
        simp [hpass]
      · exact of_decide_eq_true hstatus
  obtain ⟨hvalid, hstatus, hflag⟩ := hclean
  simp [hvalid, hstatus, hflag]

/-! ## Replacements -/

/-- Only failing keys are replaced, by clean fields of the same name. -/
def Sound (includeFlagged : Bool) (failingKeys : List (String × String))
    (replace : String × String → Option ExtractedField) : Prop :=
  ∀ key new, replace key = some new →
    key ∈ failingKeys ∧ new.name = key.2 ∧ reasons includeFlagged new = []

theorem name_of_candidateFor {groups : List ExtractedFieldGroup}
    {key : String × String} {candidate : ExtractedField}
    (h : candidateFor groups key = some candidate) : candidate.name = key.2 := by
  obtain ⟨entry, hentry, rfl⟩ := Option.map_eq_some_iff.mp h
  have hkey := key_of_lookupLast hentry
  obtain ⟨group, -, hmem⟩ := List.mem_flatMap.mp (mem_of_lookupLast hentry)
  obtain ⟨field, -, rfl⟩ := List.mem_map.mp hmem
  rw [← hkey]

theorem replacement_eq_some {requireJudgePass : Bool}
    {failingKeys : List (String × String)}
    {repaired groups : List ExtractedFieldGroup} {offset : Int}
    {key : String × String} {new : ExtractedField}
    (h : replacement requireJudgePass failingKeys repaired groups offset key =
      some new) :
    key ∈ failingKeys ∧ ∃ candidate shift,
      candidateFor repaired key = some candidate ∧
      isClean requireJudgePass candidate = true ∧
      new = shiftPages shift candidate := by
  unfold replacement at h
  split at h
  · rename_i hkey
    split at h
    · rename_i candidate hcandidate
      split at h
      · rename_i hclean
        cases h
        exact ⟨hkey, candidate, _, hcandidate, hclean, rfl⟩
      · cases h
    · cases h
  · cases h

theorem name_shiftPages (offset : Int) (field : ExtractedField) :
    (shiftPages offset field).name = field.name := by
  cases field
  rfl

theorem sound_replacement (includeFlagged requireJudgePass : Bool)
    (failingKeys : List (String × String))
    (repaired groups : List ExtractedFieldGroup) (offset : Int) :
    Sound includeFlagged failingKeys
      (replacement requireJudgePass failingKeys repaired groups offset) := by
  intro key new h
  obtain ⟨hkey, candidate, shift, hcandidate, hclean, rfl⟩ :=
    replacement_eq_some h
  refine ⟨hkey, ?_, ?_⟩
  · rw [name_shiftPages, name_of_candidateFor hcandidate]
  · rw [reasons_shiftPages]
    exact reasons_of_isClean includeFlagged hclean

/-! ## One task -/

def replacedKeys (replace : String × String → Option ExtractedField)
    (groups : List ExtractedFieldGroup) : List (String × String) :=
  (keysOf groups).filter fun key => (replace key).isSome

/-- Nothing but failing fields is replaced, and only by fields that do not fail;
the failures afterwards are those before, less the replaced ones. -/
structure Improved (includeFlagged : Bool)
    (before after : List ExtractedFieldGroup)
    (replaced : List (String × String)) : Prop where
  failing : ∀ key ∈ replaced,
    key ∈ (collectFailingFields includeFlagged before).map FailingField.key
  distinct : replaced.Nodup
  fields : List.Forall₂ (fun group group' : ExtractedFieldGroup =>
    group'.name = group.name ∧
    List.Forall₂ (fun field field' : ExtractedField =>
      ((group.name, field.name) ∉ replaced → field' = field) ∧
      ((group.name, field.name) ∈ replaced → field'.name = field.name ∧
        reasons includeFlagged field' = []))
      group.fields group'.fields) before after
  remaining : collectFailingFields includeFlagged after =
    (collectFailingFields includeFlagged before).filter fun failure =>
      failure.key ∉ replaced

section

variable {includeFlagged : Bool}
  {replace : String × String → Option ExtractedField}
  {groups : List ExtractedFieldGroup}

theorem mem_replacedKeys {group : ExtractedFieldGroup} (hgroup : group ∈ groups)
    {field : ExtractedField} (hfield : field ∈ group.fields) :
    (group.name, field.name) ∈ replacedKeys replace groups ↔
      (replace (group.name, field.name)).isSome = true := by
  have hmem : (group.name, field.name) ∈ keysOf groups :=
    List.mem_flatMap.mpr ⟨group, hgroup, List.mem_map.mpr ⟨field, hfield, rfl⟩⟩
  simp [replacedKeys, hmem]

theorem failureOf_splice {failingKeys : List (String × String)}
    (hsound : Sound includeFlagged failingKeys replace) {group : String}
    {field : ExtractedField} :
    failureOf includeFlagged group ((replace (group, field.name)).getD field) =
      (failureOf includeFlagged group field).filter fun failure =>
        (replace failure.key).isNone := by
  cases hreplace : replace (group, field.name) with
  | none =>
      unfold failureOf
      rw [Option.getD_none]
      split
      · rfl
      · simp [Option.filter, FailingField.key, hreplace]
  | some new =>
      have hclean := (hsound _ _ hreplace).2.2
      unfold failureOf
      rw [Option.getD_some, if_pos hclean]
      split
      · rfl
      · simp [Option.filter, FailingField.key, hreplace]

theorem collectFailingFields_splice {failingKeys : List (String × String)}
    (hsound : Sound includeFlagged failingKeys replace) :
    collectFailingFields includeFlagged (splice replace groups).groups =
      (collectFailingFields includeFlagged groups).filter fun failure =>
        (replace failure.key).isNone := by
  unfold collectFailingFields splice
  simp only [List.flatMap_map, List.filter_flatMap, List.filterMap_map]
  apply List.flatMap_congr
  intro group _
  rw [List.filter_filterMap]
  apply List.filterMap_congr
  intro field _
  exact failureOf_splice hsound

theorem accepted_splice :
    (splice replace groups).accepted =
      (replacedKeys replace groups).map path := by
  unfold splice replacedKeys decisions keysOf
  simp only [List.filter_flatMap, List.map_flatMap, List.filterMap_flatMap]
  apply List.flatMap_congr
  intro group _
  induction group.fields with
  | nil => rfl
  | cons field fields ih =>
      rw [List.map_cons, List.map_cons]
      cases hreplace : replace (group.name, field.name) with
      | none => simp [hreplace, ih]
      | some new => simp [hreplace, ih]

theorem improved_splice (hdistinct : (keysOf groups).Nodup)
    (hsound : Sound includeFlagged
      ((collectFailingFields includeFlagged groups).map FailingField.key)
      replace) :
    Improved includeFlagged groups (splice replace groups).groups
      (replacedKeys replace groups) := by
  constructor
  case failing =>
    intro key hkey
    have hsome := (List.mem_filter.mp hkey).2
    obtain ⟨new, hnew⟩ := Option.isSome_iff_exists.mp hsome
    exact (hsound key new hnew).1
  case distinct => exact hdistinct.filter _
  case fields =>
    unfold splice
    rw [List.forall₂_map_right_iff, List.forall₂_same]
    intro group hgroup
    refine ⟨rfl, ?_⟩
    rw [List.forall₂_map_right_iff, List.forall₂_same]
    intro field hfield
    rw [mem_replacedKeys hgroup hfield]
    cases hreplace : replace (group.name, field.name) with
    | none => simp
    | some new =>
        have hnew := hsound _ _ hreplace
        simp [hnew.2.1, hnew.2.2]
  case remaining =>
    rw [collectFailingFields_splice hsound]
    apply List.filter_congr
    intro failure hfailure
    obtain ⟨group, hgroup, hmem⟩ := List.mem_flatMap.mp hfailure
    obtain ⟨field, hfield, hfailed⟩ := List.mem_filterMap.mp hmem
    have hkey : failure.key = (group.name, field.name) := by
      unfold failureOf at hfailed
      split at hfailed
      · cases hfailed
      · cases hfailed
        rfl
    have hmem := @mem_replacedKeys replace groups group hgroup field hfield
    rw [hkey]
    cases hreplace : replace (group.name, field.name) with
    | none => simp [hmem, hreplace]
    | some new => simp [hmem, hreplace]

end

/-! ## A run -/

variable {Raised : Type} (self : FieldRepairer Raised)

theorem repairTask_eq_splice (request : Dtos.ExtractionRequest)
    (model : Option String) (task : RepairTask) :
    ∃ replace, Sound self.includeFlagged
        ((collectFailingFields self.includeFlagged task.extractedGroups).map
          FailingField.key) replace ∧
      (self.repairTask request model task).groups =
        (splice replace task.extractedGroups).groups ∧
      (self.repairTask request model task).accepted =
        (splice replace task.extractedGroups).accepted ∧
      (self.repairTask request model task).flagged =
        (collectFailingFields self.includeFlagged
          task.extractedGroups).length := by
  have hnone : (splice (fun _ => none) task.extractedGroups).groups =
        task.extractedGroups ∧
      (splice (fun _ => none) task.extractedGroups).accepted = [] := by
    constructor
    · simp [splice]
    · simp [accepted_splice, replacedKeys]
  have hsound : ∀ failingKeys, Sound self.includeFlagged failingKeys
      fun _ => none := by
    intro failingKeys key new h
    cases h
  unfold repairTask
  simp only
  split
  · rename_i hempty
    refine ⟨fun _ => none, hsound _, hnone.1.symm, hnone.2.symm, ?_⟩
    rw [List.isEmpty_iff.mp hempty]
    rfl
  · split
    · exact ⟨fun _ => none, hsound _, hnone.1.symm, hnone.2.symm, rfl⟩
    · split
      · exact ⟨fun _ => none, hsound _, hnone.1.symm, hnone.2.symm, rfl⟩
      · exact ⟨_, sound_replacement _ _ _ _ _ _, rfl, rfl, rfl⟩

structure Repaired (tasks after : List RepairTask)
    (info : Option Interfaces.RepairInfo)
    (replaced : RepairTask → List (String × String)) : Prop where
  each : List.Forall₂ (fun task task' : RepairTask =>
    task' = { task with extractedGroups := task'.extractedGroups } ∧
    Improved self.includeFlagged task.extractedGroups task'.extractedGroups
      (replaced task)) tasks after
  none_iff : info = none ↔ ∀ task ∈ tasks,
    collectFailingFields self.includeFlagged task.extractedGroups = []
  counts : ∀ reported, info = some reported →
    reported.fieldsRepaired = (tasks.flatMap replaced).length ∧
    reported.fieldsFlagged = (tasks.flatMap fun task =>
      collectFailingFields self.includeFlagged task.extractedGroups).length ∧
    reported.fieldsRepaired ≤ reported.fieldsFlagged

theorem length_replaced_le {includeFlagged : Bool}
    {before after : List ExtractedFieldGroup}
    {replaced : List (String × String)}
    (h : Improved includeFlagged before after replaced) :
    replaced.length ≤ (collectFailingFields includeFlagged before).length := by
  have hsubperm := List.subperm_of_subset h.distinct h.failing
  simpa using hsubperm.length_le

/--
In tasks whose fields have distinct keys, a repair only replaces failing fields,
by fields that do not fail, and reports how many it flagged and replaced.
-/
theorem maybeRepair_improves (request : Dtos.ExtractionRequest)
    (modelId : Option String) (tasks : List RepairTask)
    (hdistinct : ∀ task ∈ tasks, (keysOf task.extractedGroups).Nodup) :
    ∃ replaced, self.Repaired tasks
      (self.maybeRepair request modelId tasks).1
      (self.maybeRepair request modelId tasks).2 replaced := by
  choose replace hsound hgroups haccepted hflagged using
    self.repairTask_eq_splice request (self.repairModel modelId)
  have himproved : ∀ task ∈ tasks,
      Improved self.includeFlagged task.extractedGroups
        (splice (replace task) task.extractedGroups).groups
        (replacedKeys (replace task) task.extractedGroups) :=
    fun task htask => improved_splice (hdistinct task htask) (hsound task)
  have hsum : ((tasks.map (self.repairTask request
      (self.repairModel modelId))).map TaskOutcome.flagged).sum =
      (tasks.flatMap fun task => collectFailingFields self.includeFlagged
        task.extractedGroups).length := by
    rw [List.map_map, List.length_flatMap]
    exact congrArg List.sum (List.map_congr_left fun task _ => hflagged task)
  refine ⟨fun task => replacedKeys (replace task) task.extractedGroups, ?_, ?_,
    ?_⟩
  · unfold maybeRepair
    simp only [List.zipWith_map_right, List.zipWith_self]
    rw [List.forall₂_map_right_iff, List.forall₂_same]
    intro task htask
    refine ⟨rfl, ?_⟩
    simpa only [hgroups] using himproved task htask
  · unfold maybeRepair
    simp only [hsum]
    split
    · rename_i hzero
      rw [List.length_eq_zero_iff, List.flatMap_eq_nil_iff] at hzero
      simpa using hzero
    · rename_i hsome
      rw [List.length_eq_zero_iff, List.flatMap_eq_nil_iff] at hsome
      simpa using hsome
  · intro reported hreported
    unfold maybeRepair at hreported
    simp only [hsum] at hreported
    split at hreported
    · cases hreported
    · cases hreported
      have hrepaired : ((tasks.map (self.repairTask request
          (self.repairModel modelId))).flatMap TaskOutcome.accepted).length =
          (tasks.flatMap fun task =>
            replacedKeys (replace task) task.extractedGroups).length := by
        simp only [List.flatMap_map, List.length_flatMap, haccepted,
          accepted_splice, List.length_map]
      refine ⟨hrepaired, rfl, ?_⟩
      simp only [hrepaired, List.length_flatMap]
      apply List.sum_le_sum
      intro task htask
      exact length_replaced_le (himproved task htask)

/-- A form of which one field out of three failed its judge. -/
def rejectedTask : RepairTask where
  taskId := "form"
  docSpec := { id := "form", fieldGroups := [{
    name := "totals"
    fields := [{ name := "number" }, { name := "net", type := .number }, {
      name := "lines"
      type := .array
      items := some {
        name := "line"
        type := .object
        fields := some [{ name := "amount", type := .number }] } }] }] }
  sliceBytes := [1]
  slicePages := 1
  mediaType := "application/pdf"
  extractedGroups := [{
    name := "totals"
    fields := [{ name := "number", value := .str "7" }, {
      name := "net"
      value := .str "10"
      judge := { status := .fail, flagForReview := true } }, {
      name := "lines"
      value := .list [{
        name := "row_1"
        value := .list [{ name := "amount", value := .float 11 }] }] }] }]

def rejectedRequest : Dtos.ExtractionRequest where
  files := [⟨"form.pdf", some "JVBERg==", none, none⟩]
  documentTypes := [rejectedTask.docSpec]

def formAnswer : JsonValue :=
  .obj [("totals", .obj [("number", .obj [("value", .str "7")]),
    ("net", .obj [("value", .float 11)]),
    ("lines", .obj [("rows", .arr [
      .obj [("amount", .obj [("value", .float 11)])]])])])]

theorem maybeRepair_improves_rejected :
    ((answering formAnswer).maybeRepair rejectedRequest none
      [rejectedTask]).2.map (fun info =>
        (info.fieldsFlagged, info.fieldsRepaired, info.tasksSkipped)) =
      some (1, 1, 0) ∧
    ∃ replaced, (answering formAnswer).Repaired [rejectedTask]
      ((answering formAnswer).maybeRepair rejectedRequest none
        [rejectedTask]).1
      ((answering formAnswer).maybeRepair rejectedRequest none
        [rejectedTask]).2 replaced :=
  ⟨by decide +kernel,
    (answering formAnswer).maybeRepair_improves rejectedRequest none
      [rejectedTask] (by decide)⟩

end FieldRepairer

end Flydocs
