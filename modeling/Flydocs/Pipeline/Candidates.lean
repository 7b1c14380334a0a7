import Flydocs.Escalation.SecondRun
import Flydocs.Pipeline.Graders
import Flydocs.Repair.Erasure

/-!
# Conformance of second answers

A repair asks for some of the declared fields once more, and an escalation for
all of them.  What takes the place of a field or of a group conforms to what is
declared there.
-/

namespace Flydocs

open Foundation Dtos

/-! ## Repair -/

namespace FieldRepairer

variable {Raised : Type} {self : FieldRepairer Raised}

def Validates (self : FieldRepairer Raised) : Prop :=
  ∀ specGroups groups validated,
    self.validate specGroups groups = .ok validated →
    ∃ validator : FieldValidator,
      validated = validator.validate specGroups groups

theorem declaredFields_subsetSpec {doc : DocumentTypeSpec}
    {failingKeys : List (String × String)} {spec : Field}
    (h : spec ∈ declaredFields (subsetSpec doc failingKeys)) :
    spec ∈ declaredFields doc := by
  obtain ⟨subset, hsubset, hspec⟩ := List.mem_flatMap.mp h
  obtain ⟨group, hgroup, heq⟩ := List.mem_filterMap.mp hsubset
  simp only [Option.ite_none_left_eq_some, Option.some.injEq] at heq
  obtain ⟨-, rfl⟩ := heq
  exact List.mem_flatMap.mpr ⟨group, hgroup, List.mem_of_mem_filter hspec⟩

theorem conforms_extractRepair {arguments : ExtractArguments} {pageCount : Int}
    {failingFieldsText : String} {groups : List ExtractedFieldGroup}
    (h : self.extractRepair arguments pageCount failingFieldsText =
      .ok groups) :
    groups = [] ∨ Conforms arguments.doc groups := by
  unfold extractRepair at h
  split at h
  · cases h
    exact .inl rfl
  · simp only [bind_eq_ok_iff] at h
    obtain ⟨_, _, _, _, hrun⟩ := h
    exact .inr (MultimodalExtractor.conforms_run hrun)

theorem conforms_repairedGroups (hvalidates : self.Validates)
    {request : Dtos.ExtractionRequest} {model : Option String}
    {task : RepairTask} {failures : List FailingField}
    {groups : List ExtractedFieldGroup}
    (h : self.repairedGroups request model task failures = .ok groups) :
    groups = [] ∨
      Conforms (subsetSpec task.docSpec (failures.map FailingField.key))
        groups := by
  simp only [repairedGroups, bind_eq_ok_iff] at h
  obtain ⟨_, _, extracted, hextracted, h⟩ := h
  have hconforms := conforms_extractRepair hextracted
  split at h
  · cases h
    exact .inl rfl
  next hsome =>
    have hdoc := hconforms.resolve_left (by simpa using hsome)
    simp only [bind_eq_ok_iff] at h
    obtain ⟨validated, hvalidated, h⟩ := h
    obtain ⟨validator, rfl⟩ := hvalidates _ _ _ hvalidated
    have hgraded := hdoc.of_asRead (validator.asRead_validate
      (subsetSpec task.docSpec (failures.map FailingField.key)).fieldGroups
      extracted)
    right
    split at h
    · simp only [bind_eq_ok_iff] at h
      obtain ⟨answer, -, h⟩ := h
      cases h
      split
      next output =>
        refine hgraded.of_asRead ?_
        rw [List.map_map]
        exact List.map_congr_left fun group _ =>
          Judge.asRead_applyGroup output group
      next => exact hgraded
    · cases h
      exact hgraded

theorem conforms_candidateFor {doc : DocumentTypeSpec}
    (hdistinct : ((declaredFields doc).map Field.name).Nodup)
    {failingKeys : List (String × String)} {repaired : List ExtractedFieldGroup}
    (hrepaired : repaired = [] ∨ Conforms (subsetSpec doc failingKeys) repaired)
    {spec : Field} (hspec : spec ∈ declaredFields doc)
    {key : String × String} (hkey : key.2 = spec.name)
    {candidate : ExtractedField}
    (h : candidateFor repaired key = some candidate) :
    FieldConforms spec candidate := by
  have hname := name_of_candidateFor h
  obtain ⟨entry, hentry, rfl⟩ := Option.map_eq_some_iff.mp h
  obtain ⟨group, hgroup, hmem⟩ := List.mem_flatMap.mp (mem_of_lookupLast hentry)
  obtain ⟨field, hfield, rfl⟩ := List.mem_map.mp hmem
  rcases hrepaired with rfl | hconforms
  · cases hgroup
  · obtain ⟨other, hother, hfieldConforms⟩ := exists_of_forall₂ hconforms.fields
      (List.mem_flatMap.mpr ⟨group, hgroup, hfield⟩)
    obtain rfl : other = spec := List.inj_on_of_nodup_map hdistinct
      (declaredFields_subsetSpec hother) hspec
      (hfieldConforms.name_eq.symm.trans (hname.trans hkey))
    exact hfieldConforms

theorem conforms_repairTask (hvalidates : self.Validates)
    {request : Dtos.ExtractionRequest} {model : Option String}
    {task : RepairTask}
    (hdistinct : ((declaredFields task.docSpec).map Field.name).Nodup)
    (h : Conforms task.docSpec task.extractedGroups) :
    Conforms task.docSpec (self.repairTask request model task).groups := by
  obtain ⟨offset, hgroups⟩ := self.groups_repairTask request model task
  have hcameBack : self.cameBack request model task = [] ∨
      Conforms (subsetSpec task.docSpec ((collectFailingFields
        self.includeFlagged task.extractedGroups).map FailingField.key))
        (self.cameBack request model task) := by
    unfold cameBack
    simp only
    split
    · exact .inl rfl
    · split
      next repaired hrepaired =>
        exact conforms_repairedGroups hvalidates hrepaired
      next => exact .inl rfl
  rw [hgroups]
  refine h.replace (fun _ => rfl) (fun group field => Option.getD _ field)
    (fun _ => rfl) fun group spec hspec field hfield => ?_
  cases hreplace : replacement request.options.stages.judge
      ((collectFailingFields self.includeFlagged
        task.extractedGroups).map FailingField.key)
      (self.cameBack request model task) task.extractedGroups offset
      (group.name, field.name) with
  | none => exact hfield
  | some new =>
      obtain ⟨-, candidate, shift, hcandidate, -, rfl⟩ :=
        replacement_eq_some hreplace
      exact (conforms_candidateFor hdistinct hcameBack hspec hfield.name_eq
        hcandidate).of_asRead (asRead_shiftPages shift candidate)

end FieldRepairer

/-! ## Escalation -/

namespace JudgeEscalator

variable {Raised : Type} {self : JudgeEscalator Raised}

theorem conforms_judgedCandidate {request : Dtos.ExtractionRequest}
    {model : String} {task : EscalationTask}
    {primary : List ExtractedFieldGroup}
    (hdistinct : ((declaredFields task.docSpec).map Field.name).Nodup)
    (h : primary = [] ∨ Conforms task.docSpec primary) :
    self.judgedCandidate request model task primary = [] ∨
      Conforms task.docSpec
        (self.judgedCandidate request model task primary) := by
  have hcandidate : self.candidateGroups request model task primary = [] ∨
      Conforms task.docSpec
        (self.candidateGroups request model task primary) := by
    unfold candidateGroups
    split
    · exact .inl rfl
    next groups hextract =>
      unfold reExtract at hextract
      split at hextract
      · cases hextract
      · split at hextract
        next result used hresult =>
          cases hextract
          exact .inr (MultimodalExtractor.conforms_extract hdistinct hresult)
        next => cases hextract
    · exact h
  unfold judgedCandidate judged
  split
  next output _ =>
    refine hcandidate.imp (fun hnone => by rw [hnone]; rfl) fun hconforms =>
      hconforms.of_asRead ?_
    rw [List.map_map]
    exact List.map_congr_left fun group _ =>
      Judge.asRead_applyGroup output group
  next => exact hcandidate

end JudgeEscalator

end Flydocs
