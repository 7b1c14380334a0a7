import Flydocs.Bbox.BboxRefiner

/-!
# The LLM matcher

One call for each page asks for the words of its open fields.  The calls of a
pass run concurrently, and each folds its own response into the results when it
completes: the order of completion is a schedule.
-/

namespace Flydocs

open Foundation Dtos

namespace Bbox

structure LlmFieldMatch where
  field : String
  wordIndices : List Int := []
  confidence : UnitInterval := ⟨1, by decide⟩
  deriving DecidableEq

inductive Pass where
  | declared
  | broadcast
  deriving DecidableEq, Repr

structure Call where
  pass : Pass
  page : PageWords
  fields : List (String × String)
  deriving DecidableEq

/-- The order in which the calls of a pass complete. -/
structure Schedule where
  order : Pass → List Call → List Call
  perm : ∀ pass calls, (order pass calls).Perm calls

def Schedule.inOrder : Schedule where
  order _ calls := calls
  perm _ _ := List.Perm.refl _

/-- `respond` is the response of a call, if the agent does not fail. -/
structure LlmValueMatcher where
  threshold : Rat
  respond : Call → Option (List LlmFieldMatch)

namespace LlmValueMatcher

variable (matcher : LlmValueMatcher)

/-! ## One call -/

def wordsForIndices (words : List Word) (indices : List Int) : List Word :=
  indices.filterMap fun index =>
    if 0 ≤ index ∧ index ≤ (words.length : Int) - 1 then words[index.toNat]?
    else none

def accept (page : PageWords) (found : LlmFieldMatch) : Option MatchResult :=
  if found.wordIndices = [] then none
  else if found.confidence.val < matcher.threshold then none
  else
    let words := wordsForIndices page.words found.wordIndices
    if words = [] then none
    else unionBbox words found.confidence.val page.page

/-- What a call offers to the results: its acceptable matches, in order. -/
def offers (call : Call) : List (String × MatchResult) :=
  match matcher.respond call with
  | none => []
  | some found => found.filterMap fun entry =>
      (matcher.accept call.page entry).map fun result => (entry.field, result)

def runOnePage (results : Results) (call : Call) : Results :=
  (matcher.offers call).foldl (offer MatchResult.score) results

/-! ## One pass -/

abbrev PerPage := List (Int × List (String × String))

def appendTo (entry : String × String) (perPage : PerPage) (page : Int) :
    PerPage :=
  assign page ((perPage.lookup page).getD [] ++ [entry]) perPage

/-- A set; its order is the order of the calls, which complete in any order. -/
def validPages (pagesWithWords : List PageWords) : List Int :=
  (pagesWithWords.map PageWords.page).eraseDups

def targetPages (pagesWithWords : List PageWords) (fallbackAll : Bool)
    (candidates : Option (List Int)) : List Int :=
  match candidates with
  | none | some [] => validPages pagesWithWords
  | some candidates =>
      let targets := candidates.filter (· ∈ validPages pagesWithWords)
      if targets = [] ∧ fallbackAll then validPages pagesWithWords else targets

def groupByPage (fields : List Target) (pagesWithWords : List PageWords)
    (fallbackAll : Bool) : PerPage :=
  fields.foldl (fun perPage field =>
    (targetPages pagesWithWords fallbackAll field.candidatePages).foldl
      (appendTo (field.fieldId, field.value)) perPage) []

def secondary (unmatched : List Target) (pagesWithWords : List PageWords) :
    PerPage :=
  unmatched.foldl (fun perPage field =>
    let primaryPages := field.candidatePages.getD []
    ((pagesWithWords.map PageWords.page).filter (· ∉ primaryPages)).foldl
      (appendTo (field.fieldId, field.value)) perPage) []

def callsOf (pass : Pass) (pages : List PageWords) (perPage : PerPage)
    (isOpen : String → Bool) : List Call :=
  perPage.filterMap fun (pageNum, fieldsOnPage) =>
    match lookupLast PageWords.page pages pageNum with
    | none => none
    | some page =>
        let stillOpen := fieldsOnPage.filter fun field => isOpen field.1
        if stillOpen = [] then none else some ⟨pass, page, stillOpen⟩

def isOpen (results : Results) (fieldId : String) : Bool :=
  (results.get fieldId).isNone

def runPages (schedule : Schedule) (pass : Pass) (pages : List PageWords)
    (perPage : PerPage) (results : Results) : Results :=
  (schedule.order pass (callsOf pass pages perPage (isOpen results))).foldl
    matcher.runOnePage results

/-! ## Both passes -/

def blank (fields : List Target) : Results :=
  update [] (fields.map fun field => (field.fieldId, none))

def withWords (pages : List PageWords) : List PageWords :=
  pages.filter fun page => page.words ≠ []

def locateAll (schedule : Schedule) (pages : List PageWords)
    (fields : List Target) : Results :=
  if pages = [] ∨ fields = [] then blank fields
  else
    let pagesWithWords := withWords pages
    if pagesWithWords = [] then blank fields
    else
      let primary := groupByPage fields pagesWithWords false
      let results := matcher.runPages schedule .declared pagesWithWords primary
        (blank fields)
      let unmatched := fields.filter fun field => isOpen results field.fieldId
      if unmatched = [] then results
      else
        matcher.runPages schedule .broadcast pagesWithWords
          (secondary unmatched pagesWithWords) results

/-! ## The calls do not depend on the schedule -/

section

variable {matcher : LlmValueMatcher} {pages : List PageWords}
  {fields : List Target}

def declaredCalls (pages : List PageWords) (fields : List Target) :
    List Call :=
  callsOf .declared (withWords pages)
    (groupByPage fields (withWords pages) false) fun _ => true

def openAfter (matcher : LlmValueMatcher) (calls : List Call)
    (fieldId : String) : Bool :=
  (offersFor fieldId (calls.flatMap matcher.offers)).isEmpty

def broadcastCalls (matcher : LlmValueMatcher) (pages : List PageWords)
    (fields : List Target) : List Call :=
  let isOpen := matcher.openAfter (declaredCalls pages fields)
  callsOf .broadcast (withWords pages)
    (secondary (fields.filter fun field => isOpen field.fieldId)
      (withWords pages)) isOpen

theorem held_update_none {base : Results} {fieldId : String}
    (h : held base fieldId = none) (fields : List Target) :
    held (update base (fields.map fun field => (field.fieldId, none)))
      fieldId = none := by
  induction fields generalizing base with
  | nil => exact h
  | cons field fields ih =>
      refine ih ?_
      unfold held at h ⊢
      rw [lookup_assign_eq]
      split
      · rfl
      · exact h

theorem held_blank (fields : List Target) (fieldId : String) :
    held (blank fields) fieldId = none :=
  held_update_none rfl fields

theorem mem_keys_blank {fieldId : String} :
    fieldId ∈ (blank fields).map Prod.fst ↔
      fieldId ∈ fields.map Target.fieldId := by
  rw [blank, mem_map_fst_update]
  simp [Function.comp_def]

theorem foldl_runOnePage (calls : List Call) (results : Results) :
    calls.foldl matcher.runOnePage results =
      (calls.flatMap matcher.offers).foldl (offer MatchResult.score)
        results := by
  induction calls generalizing results with
  | nil => rfl
  | cons call calls ih =>
      rw [List.foldl_cons, ih, List.flatMap_cons, List.foldl_append]
      rfl

theorem offersFor_perm (matcher : LlmValueMatcher)
    {calls arranged : List Call} (hperm : arranged.Perm calls)
    (fieldId : String) :
    (offersFor fieldId (arranged.flatMap matcher.offers)).Perm
      (offersFor fieldId (calls.flatMap matcher.offers)) :=
  (hperm.flatMap_right _).filterMap _

theorem held_foldl_blank (offers : List (String × MatchResult))
    (fieldId : String) :
    held (offers.foldl (offer MatchResult.score) (blank fields)) fieldId =
      (offersFor fieldId offers).argmax MatchResult.score := by
  rw [held_foldl_offer, held_blank, foldl_keepBetter]

theorem isOpen_blank : isOpen (blank fields) = fun _ => true := by
  funext fieldId
  rw [isOpen, Results.get, held_blank]
  rfl

theorem isOpen_first_pass (schedule : Schedule) :
    isOpen (((schedule.order .declared (declaredCalls pages fields)).flatMap
      matcher.offers).foldl (offer MatchResult.score) (blank fields)) =
      matcher.openAfter (declaredCalls pages fields) := by
  funext fieldId
  have hperm := matcher.offersFor_perm
    (schedule.perm .declared (declaredCalls pages fields)) fieldId
  rw [isOpen, Results.get, held_foldl_blank, openAfter, Bool.eq_iff_iff,
    Option.isNone_iff_eq_none, List.argmax_eq_none, List.isEmpty_iff]
  constructor
  · intro h
    rw [h] at hperm
    exact hperm.symm.eq_nil
  · intro h
    rw [h] at hperm
    exact hperm.eq_nil

theorem order_nil (schedule : Schedule) (pass : Pass) :
    schedule.order pass [] = [] :=
  (schedule.perm pass []).eq_nil

theorem callsOf_nil_pages (pass : Pass) (perPage : PerPage)
    (isOpen : String → Bool) : callsOf pass [] perPage isOpen = [] := by
  simp [callsOf, lookupLast]

theorem calls_eq_nil (h : withWords pages = [] ∨ fields = []) :
    declaredCalls pages fields = [] ∧
      matcher.broadcastCalls pages fields = [] := by
  rcases h with hempty | rfl
  · simp only [declaredCalls, broadcastCalls, hempty, callsOf_nil_pages,
      and_self]
  · exact ⟨rfl, rfl⟩

theorem runPages_declared (matcher : LlmValueMatcher) (schedule : Schedule)
    (pages : List PageWords) (fields : List Target) :
    matcher.runPages schedule .declared (withWords pages)
      (groupByPage fields (withWords pages) false) (blank fields) =
      ((schedule.order .declared (declaredCalls pages fields)).flatMap
        matcher.offers).foldl (offer MatchResult.score) (blank fields) := by
  rw [runPages, foldl_runOnePage, isOpen_blank, declaredCalls]

/-- Both passes are one fold over the offers of their calls. -/
theorem locateAll_eq (matcher : LlmValueMatcher) (schedule : Schedule)
    (pages : List PageWords) (fields : List Target) :
    matcher.locateAll schedule pages fields =
      ((schedule.order .declared (declaredCalls pages fields) ++
        schedule.order .broadcast (matcher.broadcastCalls pages fields)).flatMap
          matcher.offers).foldl (offer MatchResult.score) (blank fields) := by
  have hblank : withWords pages = [] ∨ fields = [] →
      blank fields = ((schedule.order .declared (declaredCalls pages fields) ++
        schedule.order .broadcast (matcher.broadcastCalls pages fields)).flatMap
          matcher.offers).foldl (offer MatchResult.score) (blank fields) := by
    intro h
    obtain ⟨hdeclared, hbroadcast⟩ := @calls_eq_nil matcher pages fields h
    rw [hdeclared, hbroadcast, order_nil, order_nil]
    rfl
  unfold locateAll
  split
  · rename_i h
    refine hblank (h.imp_left ?_)
    rintro rfl
    rfl
  · simp only
    split
    · rename_i hempty
      exact hblank (.inl hempty)
    · rw [runPages_declared, isOpen_first_pass, List.flatMap_append,
        List.foldl_append]
      split
      · rename_i hmatched
        have hsecond : matcher.broadcastCalls pages fields = [] := by
          simp only [broadcastCalls, hmatched]
          rfl
        rw [hsecond, order_nil]
        rfl
      · rw [runPages, foldl_runOnePage, isOpen_first_pass]
        rfl

def allOffers (matcher : LlmValueMatcher) (schedule : Schedule)
    (pages : List PageWords) (fields : List Target) :
    List (String × MatchResult) :=
  (schedule.order .declared (declaredCalls pages fields) ++
    schedule.order .broadcast (matcher.broadcastCalls pages fields)).flatMap
      matcher.offers

theorem get_locateAll (schedule : Schedule) (fieldId : String) :
    (matcher.locateAll schedule pages fields).get fieldId =
      (offersFor fieldId (matcher.allOffers schedule pages fields)).argmax
        MatchResult.score := by
  rw [locateAll_eq, Results.get, held_foldl_blank]
  rfl

theorem mem_keys_locateAll {schedule : Schedule} {fieldId : String} :
    fieldId ∈ (matcher.locateAll schedule pages fields).map Prod.fst ↔
      fieldId ∈ fields.map Target.fieldId ∨
        offersFor fieldId (matcher.allOffers schedule pages fields) ≠ [] := by
  rw [locateAll_eq, mem_keys_foldl_offer, mem_keys_blank]
  rfl

def issuedCalls (matcher : LlmValueMatcher) (pages : List PageWords)
    (fields : List Target) : List Call :=
  declaredCalls pages fields ++ matcher.broadcastCalls pages fields

theorem mem_offersFor_allOffers {schedule : Schedule} {fieldId : String}
    {result : MatchResult} :
    result ∈ offersFor fieldId (matcher.allOffers schedule pages fields) ↔
      ∃ call ∈ matcher.issuedCalls pages fields,
        (fieldId, result) ∈ matcher.offers call := by
  rw [mem_offersFor, allOffers, List.mem_flatMap]
  have hmem : ∀ call, call ∈
      schedule.order .declared (declaredCalls pages fields) ++
        schedule.order .broadcast (matcher.broadcastCalls pages fields) ↔
      call ∈ matcher.issuedCalls pages fields := by
    intro call
    rw [issuedCalls, List.mem_append, List.mem_append,
      (schedule.perm _ _).mem_iff, (schedule.perm _ _).mem_iff]
  simp only [hmem]

theorem offersFor_allOffers_ne_nil_iff {schedule : Schedule}
    {fieldId : String} :
    offersFor fieldId (matcher.allOffers schedule pages fields) ≠ [] ↔
      ∃ call ∈ matcher.issuedCalls pages fields, ∃ result,
        (fieldId, result) ∈ matcher.offers call := by
  constructor
  · intro hne
    obtain ⟨result, hresult⟩ := List.exists_mem_of_ne_nil _ hne
    obtain ⟨call, hcall, hoffer⟩ := mem_offersFor_allOffers.mp hresult
    exact ⟨call, hcall, result, hoffer⟩
  · rintro ⟨call, hcall, result, hoffer⟩
    exact List.ne_nil_of_mem (mem_offersFor_allOffers.mpr ⟨call, hcall, hoffer⟩)

theorem mem_keys_iff {schedule : Schedule} {fieldId : String} :
    fieldId ∈ (matcher.locateAll schedule pages fields).map Prod.fst ↔
      fieldId ∈ fields.map Target.fieldId ∨
        ∃ call ∈ matcher.issuedCalls pages fields, ∃ result,
          (fieldId, result) ∈ matcher.offers call := by
  rw [mem_keys_locateAll, offersFor_allOffers_ne_nil_iff]

end

end LlmValueMatcher

end Bbox

end Flydocs
