import Flydocs.Bbox.Conservative
import Flydocs.Bbox.HybridMatcher

/-!
# What every matcher promises

A match is the hull of some words of one of the pages, rated at the threshold
or above, whichever strategy found it.
-/

namespace Flydocs

open Foundation Dtos

namespace Bbox

abbrev BboxValueMatcher := List PageWords → List Target → Results

structure Hull (words : List Word) (box : Rat × Rat × Rat × Rat) : Prop where
  left : IsLeast (Word.xmin '' {word | word ∈ words}) box.1
  top : IsLeast (Word.ymin '' {word | word ∈ words}) box.2.1
  right : IsGreatest (Word.xmax '' {word | word ∈ words}) box.2.2.1
  bottom : IsGreatest (Word.ymax '' {word | word ∈ words}) box.2.2.2

theorem isLeast_of_min? {words : List Word} {edge : Word → Rat} {least : Rat}
    (h : (words.map edge).min? = some least) :
    IsLeast (edge '' {word | word ∈ words}) least := by
  obtain ⟨hmem, hle⟩ := List.min?_eq_some_iff.mp h
  constructor
  · simpa using hmem
  · rintro _ ⟨word, hword, rfl⟩
    exact hle _ (List.mem_map_of_mem hword)

theorem isGreatest_of_max? {words : List Word} {edge : Word → Rat}
    {greatest : Rat} (h : (words.map edge).max? = some greatest) :
    IsGreatest (edge '' {word | word ∈ words}) greatest := by
  obtain ⟨hmem, hle⟩ := List.max?_eq_some_iff.mp h
  constructor
  · simpa using hmem
  · rintro _ ⟨word, hword, rfl⟩
    exact hle _ (List.mem_map_of_mem hword)

theorem hull_of_unionBbox {words : List Word} {score : Rat} {page : Int}
    {found : MatchResult} (h : unionBbox words score page = some found) :
    Hull words found.coordinates := by
  simp only [unionBbox, bind, Option.bind_eq_some_iff, pure,
    Option.some.injEq] at h
  obtain ⟨xmin, hxmin, ymin, hymin, xmax, hxmax, ymax, hymax, rfl⟩ := h
  exact ⟨isLeast_of_min? hxmin, isLeast_of_min? hymin, isGreatest_of_max? hxmax,
    isGreatest_of_max? hymax⟩

def IsMatch (threshold : Rat) (pages : List PageWords) (found : MatchResult) :
    Prop :=
  ∃ page ∈ pages, ∃ words ⊆ page.words, ∃ score, threshold ≤ score ∧
    unionBbox words score page.page = some found

def BboxValueMatcher.Sound (matcher : BboxValueMatcher) (threshold : Rat) :
    Prop :=
  ∀ pages fields fieldId found, (matcher pages fields).get fieldId =
    some found → IsMatch threshold pages found

theorem IsMatch.isUnion {threshold : Rat} {pages : List PageWords}
    {found : MatchResult} (h : IsMatch threshold pages found) :
    IsUnion pages found := by
  obtain ⟨page, hpage, words, hwords, score, -, hunion⟩ := h
  exact ⟨page, hpage, words, hwords, score, hunion⟩

/-! ## The fuzzy matcher -/

namespace ValueMatcher

variable {matcher : ValueMatcher} {pages : List PageWords}

theorem inScope_subset (pages : List PageWords)
    (candidates : Option (List Int)) : inScope pages candidates ⊆ pages := by
  unfold inScope
  split
  · exact List.Subset.refl _
  · exact List.Subset.refl _
  · simp only
    split
    · exact List.filter_subset_self _
    · exact List.Subset.refl _

theorem isMatch_of_locate {value : String} {candidates : Option (List Int)}
    {found : MatchResult}
    (h : matcher.locate value pages candidates = some found) :
    IsMatch matcher.threshold.val pages found := by
  unfold locate at h
  split at h
  · cases h
  · obtain hnone | ⟨⟨page, variant⟩, hattempt, hfound⟩ :=
      find_of_searchUntil h
    · cases hnone
    · obtain ⟨other, hscope, hvariant⟩ := List.mem_flatMap.mp hattempt
      obtain ⟨_, -, heq⟩ := List.mem_map.mp hvariant
      cases heq
      obtain ⟨window, hwindow, hthreshold, -, hunion⟩ :=
        bestMatchOnPage_spec hfound
      exact ⟨page, inScope_subset _ _ (List.mem_of_mem_filter hscope), _,
        (words_of_mem_windows hwindow).2, _, hthreshold, hunion⟩

theorem sound (matcher : ValueMatcher) :
    BboxValueMatcher.Sound matcher.locateAll matcher.threshold.val := by
  intro pages fields fieldId found h
  have hempty : (([] : Results).map Prod.fst).Nodup := List.nodup_nil
  obtain hnone | hentry := mem_of_mem_update hempty (Results.mem_of_get h)
  · cases hnone
  · obtain ⟨field, -, heq⟩ := List.mem_map.mp hentry
    exact isMatch_of_locate (Prod.mk.inj heq).2

end ValueMatcher

/-! ## The LLM matcher -/

namespace LlmValueMatcher

variable {matcher : LlmValueMatcher} {pages : List PageWords}

theorem wordsForIndices_subset (words : List Word) (indices : List Int) :
    wordsForIndices words indices ⊆ words := by
  intro word hword
  obtain ⟨index, -, hindex⟩ := List.mem_filterMap.mp hword
  split at hindex
  · exact List.mem_of_getElem? hindex
  · cases hindex

theorem isMatch_of_accept {page : PageWords} (hpage : page ∈ pages)
    {answer : LlmFieldMatch} {found : MatchResult}
    (h : matcher.accept page answer = some found) :
    IsMatch matcher.threshold pages found := by
  unfold accept at h
  split at h
  · cases h
  · split at h
    · cases h
    next hthreshold =>
      simp only at h
      split at h
      · cases h
      · exact ⟨page, hpage, _, wordsForIndices_subset _ _, _,
          not_lt.mp hthreshold, h⟩

theorem page_of_mem_callsOf {pass : Pass} {perPage : PerPage}
    {isOpen : String → Bool} {call : Call}
    (h : call ∈ callsOf pass pages perPage isOpen) : call.page ∈ pages := by
  obtain ⟨⟨pageNum, fieldsOnPage⟩, -, hcall⟩ := List.mem_filterMap.mp h
  simp only at hcall
  split at hcall
  · cases hcall
  next page hlookup =>
    split at hcall
    · cases hcall
    · cases hcall
      exact mem_of_lookupLast hlookup

theorem page_of_mem_issuedCalls {fields : List Target} {call : Call}
    (h : call ∈ matcher.issuedCalls pages fields) : call.page ∈ pages := by
  have hwords : call.page ∈ withWords pages :=
    (List.mem_append.mp h).elim page_of_mem_callsOf page_of_mem_callsOf
  exact List.mem_of_mem_filter hwords

theorem sound (matcher : LlmValueMatcher) (schedule : Schedule) :
    BboxValueMatcher.Sound (matcher.locateAll schedule)
      matcher.threshold := by
  intro pages fields fieldId found h
  rw [get_locateAll] at h
  obtain ⟨call, hcall, hoffer⟩ :=
    mem_offersFor_allOffers.mp (List.argmax_mem h)
  unfold offers at hoffer
  split at hoffer
  · cases hoffer
  · obtain ⟨answer, -, hanswer⟩ := List.mem_filterMap.mp hoffer
    obtain ⟨result, hresult, heq⟩ := Option.map_eq_some_iff.mp hanswer
    cases heq
    exact isMatch_of_accept (page_of_mem_issuedCalls hcall) hresult

end LlmValueMatcher

/-! ## The cascade -/

theorem HybridValueMatcher.sound (hybrid : HybridValueMatcher)
    (schedule : Schedule)
    (hthreshold : hybrid.llm.threshold = hybrid.fuzzy.threshold.val) :
    BboxValueMatcher.Sound (hybrid.locateAll schedule)
      hybrid.fuzzy.threshold.val := by
  intro pages fields fieldId found h
  unfold Results.get held at h
  rw [lookup_locateAll] at h
  cases hllm : (hybrid.llm.locateAll schedule pages
      (hybrid.missed pages fields)).lookup fieldId with
  | some answer =>
      rw [hllm, Option.some_or] at h
      rw [← hthreshold]
      refine hybrid.llm.sound schedule pages (hybrid.missed pages fields)
        fieldId found ?_
      rw [Results.get, held, hllm, h]
  | none =>
      rw [hllm, Option.none_or] at h
      exact hybrid.fuzzy.sound pages fields fieldId found h

end Bbox

end Flydocs
