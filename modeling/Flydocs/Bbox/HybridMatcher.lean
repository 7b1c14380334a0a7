import Flydocs.Bbox.Literal
import Flydocs.Bbox.LlmMatcher

/-!
# The hybrid matcher

The fuzzy matcher is asked first, and the LLM about what it missed.  The
mapping of the LLM is written over that of the fuzzy matcher, id by id.
-/

namespace Flydocs

open Foundation

namespace Bbox

structure HybridValueMatcher where
  fuzzy : ValueMatcher
  llm : LlmValueMatcher

namespace HybridValueMatcher

variable (hybrid : HybridValueMatcher)

def residual (fuzzyResults : Results) (fields : List Target) : List Target :=
  fields.filter fun field => (fuzzyResults.get field.fieldId).isNone

def locateAll (schedule : Schedule) (pages : List PageWords)
    (fields : List Target) : Results :=
  if fields = [] then []
  else
    let fuzzyResults := hybrid.fuzzy.locateAll pages fields
    let residual := residual fuzzyResults fields
    if residual = [] then fuzzyResults
    else update fuzzyResults (hybrid.llm.locateAll schedule pages residual)

/-! ## The two mappings -/

def missed (pages : List PageWords) (fields : List Target) : List Target :=
  residual (hybrid.fuzzy.locateAll pages fields) fields

structure KeepsFuzzy (schedule : Schedule) (pages : List PageWords)
    (fields : List Target) : Prop where
  keys : ∀ fieldId,
    fieldId ∈ (hybrid.locateAll schedule pages fields).map Prod.fst ↔
      fieldId ∈ fields.map Target.fieldId
  hits : ∀ target ∈ fields, ∀ found,
    hybrid.fuzzy.locate target.value pages target.candidatePages = some found →
    (hybrid.locateAll schedule pages fields).get target.fieldId = some found
  supplies : ∀ fieldId found,
    (hybrid.llm.locateAll schedule pages (hybrid.missed pages fields)).get
      fieldId = some found →
    ∃ target ∈ fields, target.fieldId = fieldId ∧
      hybrid.fuzzy.locate target.value pages target.candidatePages = none

def NamesMissed (pages : List PageWords) (fields : List Target) : Prop :=
  ∀ call ∈ hybrid.llm.issuedCalls pages (hybrid.missed pages fields),
    ∀ offered ∈ hybrid.llm.offers call,
      ∃ target ∈ fields, target.fieldId = offered.1 ∧
        hybrid.fuzzy.locate target.value pages target.candidatePages = none

section

variable {hybrid : HybridValueMatcher} {schedule : Schedule}
  {pages : List PageWords} {fields : List Target}

theorem mem_keys_fuzzy {fieldId : String} :
    fieldId ∈ (hybrid.fuzzy.locateAll pages fields).map Prod.fst ↔
      fieldId ∈ fields.map Target.fieldId := by
  rw [ValueMatcher.locateAll, mem_map_fst_update]
  simp [Function.comp_def]

theorem get_fuzzy (hdistinct : (fields.map Target.fieldId).Nodup)
    {target : Target} (htarget : target ∈ fields) :
    (hybrid.fuzzy.locateAll pages fields).get target.fieldId =
      hybrid.fuzzy.locate target.value pages target.candidatePages := by
  have hkeys : ((fields.map fun field => (field.fieldId,
      hybrid.fuzzy.locate field.value pages field.candidatePages)).map
        Prod.fst).Nodup := by
    simpa [Function.comp_def] using hdistinct
  have hmem : (target.fieldId,
      hybrid.fuzzy.locate target.value pages target.candidatePages) ∈
      fields.map fun field => (field.fieldId,
        hybrid.fuzzy.locate field.value pages field.candidatePages) :=
    List.mem_map.mpr ⟨target, htarget, rfl⟩
  have hlookup := lookup_of_nodup hkeys hmem
  simp only at hlookup
  rw [ValueMatcher.locateAll, Results.get, held, lookup_update hkeys, hlookup,
    Option.some_or, Option.join_some]

theorem mem_missed (hdistinct : (fields.map Target.fieldId).Nodup)
    {target : Target} :
    target ∈ hybrid.missed pages fields ↔ target ∈ fields ∧
      hybrid.fuzzy.locate target.value pages target.candidatePages = none := by
  rw [missed, residual, List.mem_filter]
  refine and_congr_right fun htarget => ?_
  rw [get_fuzzy hdistinct htarget, Option.isNone_iff_eq_none]

theorem nodup_llm (schedule : Schedule) (pages : List PageWords)
    (fields : List Target) :
    ((hybrid.llm.locateAll schedule pages fields).map Prod.fst).Nodup := by
  rw [LlmValueMatcher.locateAll_eq]
  exact nodup_foldl_offer (nodup_update List.nodup_nil)

theorem locateAll_eq_update (hybrid : HybridValueMatcher) (schedule : Schedule)
    (pages : List PageWords) (fields : List Target) :
    hybrid.locateAll schedule pages fields =
      update (hybrid.fuzzy.locateAll pages fields)
        (hybrid.llm.locateAll schedule pages (hybrid.missed pages fields)) := by
  have hnone : hybrid.missed pages fields = [] →
      hybrid.llm.locateAll schedule pages (hybrid.missed pages fields) = [] := by
    intro h
    rw [h, LlmValueMatcher.locateAll, if_pos (.inr rfl)]
    rfl
  unfold locateAll
  split
  · rename_i h
    subst h
    rw [hnone rfl]
    rfl
  · simp only
    split
    · rename_i h
      rw [hnone h]
      rfl
    · rfl

theorem lookup_locateAll (fieldId : String) :
    (hybrid.locateAll schedule pages fields).lookup fieldId =
      ((hybrid.llm.locateAll schedule pages
        (hybrid.missed pages fields)).lookup fieldId).or
        ((hybrid.fuzzy.locateAll pages fields).lookup fieldId) := by
  rw [locateAll_eq_update, lookup_update (nodup_llm _ _ _)]

/-! ## What the LLM supplies -/

theorem exists_get_llm_iff {fieldId : String} :
    (∃ found, (hybrid.llm.locateAll schedule pages fields).get fieldId =
      some found) ↔
      ∃ call ∈ hybrid.llm.issuedCalls pages fields, ∃ result,
        (fieldId, result) ∈ hybrid.llm.offers call := by
  rw [LlmValueMatcher.get_locateAll, ← Option.isSome_iff_exists,
    Option.isSome_iff_ne_none, Ne, List.argmax_eq_none]
  exact LlmValueMatcher.offersFor_allOffers_ne_nil_iff

theorem supplies_iff_namesMissed :
    (∀ fieldId found,
      (hybrid.llm.locateAll schedule pages (hybrid.missed pages fields)).get
        fieldId = some found →
      ∃ target ∈ fields, target.fieldId = fieldId ∧
        hybrid.fuzzy.locate target.value pages target.candidatePages = none) ↔
      hybrid.NamesMissed pages fields := by
  constructor
  · intro h call hcall offered hoffered
    have hsupplied : ∃ found, (hybrid.llm.locateAll schedule pages
        (hybrid.missed pages fields)).get offered.1 = some found :=
      exists_get_llm_iff.mpr ⟨call, hcall, offered.2, hoffered⟩
    obtain ⟨found, hfound⟩ := hsupplied
    exact h offered.1 found hfound
  · intro h fieldId found hfound
    obtain ⟨call, hcall, result, hresult⟩ :=
      exists_get_llm_iff.mp ⟨found, hfound⟩
    exact h call hcall _ hresult

theorem mem_keys_llm_of_namesMissed
    (hdistinct : (fields.map Target.fieldId).Nodup)
    (h : hybrid.NamesMissed pages fields) {fieldId : String}
    (hkey : fieldId ∈ (hybrid.llm.locateAll schedule pages
      (hybrid.missed pages fields)).map Prod.fst) :
    ∃ target ∈ fields, target.fieldId = fieldId ∧
      hybrid.fuzzy.locate target.value pages target.candidatePages = none := by
  rcases LlmValueMatcher.mem_keys_iff.mp hkey with
    hmissed | ⟨call, hcall, result, hresult⟩
  · obtain ⟨target, htarget, rfl⟩ := List.mem_map.mp hmissed
    rw [mem_missed hdistinct] at htarget
    exact ⟨target, htarget.1, rfl, htarget.2⟩
  · exact h call hcall _ hresult

/-- The fuzzy hits are kept exactly when the responses name no other target. -/
theorem keepsFuzzy_iff (hybrid : HybridValueMatcher) (schedule : Schedule)
    (pages : List PageWords) (fields : List Target)
    (hdistinct : (fields.map Target.fieldId).Nodup) :
    hybrid.KeepsFuzzy schedule pages fields ↔
      hybrid.NamesMissed pages fields := by
  constructor
  · exact fun h => supplies_iff_namesMissed.mp h.supplies
  · intro h
    refine ⟨?_, ?_, supplies_iff_namesMissed.mpr h⟩
    · intro fieldId
      rw [locateAll_eq_update, mem_map_fst_update, mem_keys_fuzzy]
      refine or_iff_left_of_imp fun hkey => ?_
      obtain ⟨target, htarget, rfl, -⟩ :=
        mem_keys_llm_of_namesMissed hdistinct h hkey
      exact List.mem_map_of_mem htarget
    · intro target htarget found hfound
      have hnone : (hybrid.llm.locateAll schedule pages
          (hybrid.missed pages fields)).lookup target.fieldId = none := by
        by_contra hsome
        obtain ⟨value, hvalue⟩ := Option.ne_none_iff_exists'.mp hsome
        have hkey : target.fieldId ∈ (hybrid.llm.locateAll schedule pages
            (hybrid.missed pages fields)).map Prod.fst :=
          List.mem_map.mpr ⟨_, mem_of_lookup hvalue, rfl⟩
        obtain ⟨other, hother, hsame, hmissed⟩ :=
          mem_keys_llm_of_namesMissed hdistinct h hkey
        obtain rfl := List.inj_on_of_nodup_map hdistinct hother htarget hsame
        rw [hmissed] at hfound
        cases hfound
      rw [Results.get, held, lookup_locateAll, hnone, Option.none_or]
      exact (get_fuzzy hdistinct htarget).trans hfound

end

/-! ## A paid bill -/

def answering (fieldId : String) : HybridValueMatcher where
  fuzzy := .asciiMatcher
  llm := {
    threshold := 17 / 20
    respond _ := some [{
      field := fieldId
      wordIndices := [0]
      confidence := ⟨9 / 10, by norm_num⟩ }] }

def billPages : List PageWords := [⟨1, [ValueMatcher.wordOf "1487"], .pdfText⟩]

def billFields : List Target := [⟨"total", "1487", none⟩, ⟨"note", "paid", none⟩]

theorem bill_total : ValueMatcher.asciiMatcher.locate "1487" billPages none =
    some ⟨1, 0, 0, 1, 1, 1⟩ := by
  decide +kernel

theorem bill_note :
    ValueMatcher.asciiMatcher.locate "paid" billPages none = none := by
  decide +kernel

/-- Asked about the note, the LLM answers the total and replaces the hit. -/
theorem not_keepsFuzzy :
    ¬ ∀ (hybrid : HybridValueMatcher) (schedule : Schedule)
      (pages : List PageWords) (fields : List Target),
      (fields.map Target.fieldId).Nodup →
      hybrid.KeepsFuzzy schedule pages fields := by
  intro h
  have hkept := (h (answering "total") .inOrder billPages billFields
    (by decide)).hits _ List.mem_cons_self _ bill_total
  have hreplaced : ((answering "total").locateAll .inOrder billPages
      billFields).get "total" = some ⟨1, 0, 0, 1, 1, 9 / 10⟩ := by
    decide +kernel
  rw [hreplaced] at hkept
  revert hkept
  decide +kernel

theorem mem_offers_answering {fieldId : String} {call : Call}
    {offered : String × MatchResult}
    (h : offered ∈ (answering fieldId).llm.offers call) :
    offered.1 = fieldId := by
  obtain ⟨entry, hentry, hoffered⟩ := List.mem_filterMap.mp h
  obtain ⟨result, -, rfl⟩ := Option.map_eq_some_iff.mp hoffered
  rw [List.mem_singleton.mp hentry]

theorem answering_note_keepsFuzzy :
    (answering "note").KeepsFuzzy .inOrder billPages billFields := by
  refine (keepsFuzzy_iff (answering "note") .inOrder billPages billFields
    (by decide)).mpr ?_
  intro call _ offered hoffered
  exact ⟨⟨"note", "paid", none⟩, by decide,
    (mem_offers_answering hoffered).symm, bill_note⟩

end HybridValueMatcher

end Bbox

end Flydocs
