import Flydocs.Extraction.Extractor
import Flydocs.Foundation.Traverse

/-!
# Fresh groups

What extraction returns has a field for every declared one, and none of them has
been judged, whichever of the calls it comes from.
-/

namespace Flydocs

open Foundation Dtos

def fieldCounts (groups : List ExtractedFieldGroup) : List Nat :=
  groups.map fun group => group.fields.length

def declaredCounts (doc : DocumentTypeSpec) : List Nat :=
  doc.fieldGroups.map fun group => group.fields.length

structure Fresh (doc : DocumentTypeSpec) (groups : List ExtractedFieldGroup) :
    Prop where
  counts : fieldCounts groups = declaredCounts doc
  unjudged : ∀ group ∈ groups, ∀ field ∈ group.fields, field.judge = {}

namespace Postprocess

variable {runtime : Runtime}

theorem judge_fieldFromPayload {spec : Field} {payload : JsonValue.Members}
    {field : ExtractedField}
    (h : fieldFromPayload runtime spec payload = .ok field) :
    field.judge = {} := by
  unfold fieldFromPayload at h
  split at h
  · simp only [arrayFromPayload, bind_eq_ok_iff, pure, Except.pure] at h
    obtain ⟨_, _, ⟨fields, pageSet⟩, _, _, _, _, _, h⟩ := h
    cases h
    rfl
  · simp only [scalarFromPayload, bind_eq_ok_iff, pure, Except.pure] at h
    obtain ⟨_, _, _, _, _, _, _, _, h⟩ := h
    cases h
    rfl

theorem length_groupFromOutput {output : JsonValue.Members} {spec : FieldGroup}
    {group : ExtractedFieldGroup}
    (h : groupFromOutput runtime output spec = .ok group) :
    group.fields.length = spec.fields.length := by
  simp only [groupFromOutput, bind_eq_ok_iff, pure, Except.pure] at h
  obtain ⟨fields, hfields, h⟩ := h
  cases h
  exact (mapM_eq_ok_iff.mp hfields).length_eq.symm

theorem fresh_of_normalised {doc : DocumentTypeSpec} {payload : JsonValue}
    {groups : List ExtractedFieldGroup}
    (h : normalised runtime doc payload = .ok groups) : Fresh doc groups := by
  obtain ⟨-, output, -, h⟩ := (normalised_eq_ok_iff runtime).mp h
  have hgroups := mapM_eq_ok_iff.mp h
  constructor
  case counts =>
    unfold fieldCounts declaredCounts
    rw [← List.forall₂_eq_eq_eq, List.forall₂_map_left_iff,
      List.forall₂_map_right_iff]
    exact hgroups.flip.imp fun group spec hspec =>
      length_groupFromOutput hspec
  case unjudged =>
    intro group hgroup field hfield
    obtain ⟨spec, _, hspec⟩ := exists_of_forall₂ hgroups hgroup
    simp only [groupFromOutput, bind_eq_ok_iff, pure, Except.pure] at hspec
    obtain ⟨fields, hfields, hspec⟩ := hspec
    cases hspec
    obtain ⟨fieldSpec, _, hpayload⟩ :=
      exists_of_forall₂ (mapM_eq_ok_iff.mp hfields) hfield
    exact judge_fieldFromPayload hpayload

end Postprocess

namespace MultimodalExtractor

variable {Raised : Type} {self : MultimodalExtractor Raised}
  {arguments : ExtractArguments}

theorem exists_normalised_of_run {model instructions userText op : String}
    {groups : List ExtractedFieldGroup}
    (h : self.run arguments model instructions userText op = .ok groups) :
    ∃ json, Postprocess.normalised self.runtime arguments.doc json =
      .ok groups := by
  simp only [run, bind_eq_ok_iff] at h
  obtain ⟨answer, _, h⟩ := h
  split at h
  · rename_i result hresult
    cases h
    exact ⟨answer, hresult⟩
  · cases h

theorem exists_normalised_of_extractOnce {op modelUsed : String}
    {groups : List ExtractedFieldGroup}
    (h : self.extractOnce arguments op = .ok (groups, modelUsed)) :
    ∃ json, Postprocess.normalised self.runtime arguments.doc json =
      .ok groups := by
  simp only [extractOnce, bind_eq_ok_iff] at h
  obtain ⟨prompt, _, _, _, h⟩ := h
  split at h
  · rename_i result hresult
    cases h
    exact exists_normalised_of_run hresult
  · split at h
    · cases h
    · cases h
    · split at h
      · cases h
      · simp only [bind_eq_ok_iff] at h
        obtain ⟨_, _, result, hresult, h⟩ := h
        cases h
        exact exists_normalised_of_run hresult

theorem fieldCounts_mergeAfterRetry (original retry : List ExtractedFieldGroup)
    (emptyArrays : List String) :
    fieldCounts (mergeAfterRetry original retry emptyArrays) =
      fieldCounts original := by
  unfold fieldCounts mergeAfterRetry
  rw [List.map_map]
  apply List.map_congr_left
  intro group _
  simp only [Function.comp_apply]
  split
  · rw [List.length_map]
  · rfl

theorem fresh_mergeAfterRetry {doc : DocumentTypeSpec}
    {original retry : List ExtractedFieldGroup} (emptyArrays : List String)
    (horiginal : Fresh doc original) (hretry : Fresh doc retry) :
    Fresh doc (mergeAfterRetry original retry emptyArrays) := by
  constructor
  case counts => rw [fieldCounts_mergeAfterRetry, horiginal.counts]
  case unjudged =>
    intro group hgroup field hfield
    obtain ⟨first, hfirst, rfl⟩ := List.mem_map.mp hgroup
    cases hlookup : lookupLast ExtractedFieldGroup.name retry first.name with
    | none =>
        simp only [hlookup] at hfield
        exact horiginal.unjudged first hfirst field hfield
    | some second =>
        simp only [hlookup] at hfield
        obtain ⟨kept, hkept, rfl⟩ := List.mem_map.mp hfield
        unfold mergeField
        split
        · rename_i retried hretried
          split
          · exact hretry.unjudged second (mem_of_lookupLast hlookup) retried
              (mem_of_lookupLast hretried)
          · exact horiginal.unjudged first hfirst kept hkept
        · exact horiginal.unjudged first hfirst kept hkept

theorem fresh_of_extract {modelUsed : String}
    {groups : List ExtractedFieldGroup}
    (h : self.extract arguments = .ok (groups, modelUsed)) :
    Fresh arguments.doc groups := by
  simp only [extract, bind_eq_ok_iff] at h
  obtain ⟨⟨first, firstModel⟩, hfirst, h⟩ := h
  obtain ⟨json, hjson⟩ := exists_normalised_of_extractOnce hfirst
  have hfresh := Postprocess.fresh_of_normalised hjson
  split at h
  · cases h
    exact hfresh
  · split at h
    · cases h
      exact hfresh
    · split at h
      · cases h
        exact hfresh
      · simp only [bind_eq_ok_iff] at h
        obtain ⟨⟨retry, retryModel⟩, hretry, h⟩ := h
        cases h
        apply fresh_mergeAfterRetry _ hfresh
        simp only [extractRetryArrays, bind_eq_ok_iff] at hretry
        obtain ⟨_, _, _, _, result, hresult, hretry⟩ := hretry
        cases hretry
        obtain ⟨json, hjson⟩ := exists_normalised_of_run hresult
        exact Postprocess.fresh_of_normalised hjson

end MultimodalExtractor

end Flydocs
