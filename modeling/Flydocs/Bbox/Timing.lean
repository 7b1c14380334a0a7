import Flydocs.Bbox.LlmMatcher

/-!
# Completion order

A field ends up with the first of the best offers made for it.  The calls of a
pass ask about different pages, so two of them never offer the same match, and
a tie for the best goes to the call that completes first.
-/

namespace Flydocs

open Foundation

namespace Bbox

/-! ## Schedules -/

def Schedule.reversed : Schedule where
  order _ calls := calls.reverse
  perm _ calls := calls.reverse_perm

def Schedule.arranging (first first' second second' : List Call)
    (hfirst : first'.Perm first) (hsecond : second'.Perm second) :
    Schedule where
  order
    | .declared, calls => if calls = first then first' else calls
    | .broadcast, calls => if calls = second then second' else calls
  perm pass calls := by
    cases pass with
    | declared =>
        simp only
        split
        · rename_i heq
          exact heq ▸ hfirst
        · exact List.Perm.refl _
    | broadcast =>
        simp only
        split
        · rename_i heq
          exact heq ▸ hsecond
        · exact List.Perm.refl _

namespace LlmValueMatcher

variable {matcher : LlmValueMatcher} {pages : List PageWords}
  {fields : List Target}

/-! ## One call for each page -/

theorem nodup_foldl_appendTo {perPage : PerPage} (entry : String × String)
    (targets : List Int) (h : (perPage.map Prod.fst).Nodup) :
    ((targets.foldl (appendTo entry) perPage).map Prod.fst).Nodup := by
  induction targets generalizing perPage with
  | nil => exact h
  | cons page targets ih => exact ih (nodup_assign h)

theorem nodup_foldl_fields {Field : Type} (entry : Field → String × String)
    (targets : Field → List Int) (fields : List Field) {perPage : PerPage}
    (h : (perPage.map Prod.fst).Nodup) :
    ((fields.foldl (fun perPage field =>
      (targets field).foldl (appendTo (entry field)) perPage) perPage).map
        Prod.fst).Nodup := by
  induction fields generalizing perPage with
  | nil => exact h
  | cons field fields ih => exact ih (nodup_foldl_appendTo _ _ h)

theorem callsOf_page_injective {pass : Pass} {perPage : PerPage}
    {isOpen : String → Bool} (hnodup : (perPage.map Prod.fst).Nodup)
    {first second : Call} (hfirst : first ∈ callsOf pass pages perPage isOpen)
    (hsecond : second ∈ callsOf pass pages perPage isOpen)
    (hpage : first.page.page = second.page.page) : first = second := by
  have hmade : ∀ call ∈ callsOf pass pages perPage isOpen,
      ∃ entry ∈ perPage, entry.1 = call.page.page ∧
        ∃ page, lookupLast PageWords.page pages entry.1 = some page ∧
          call = ⟨pass, page, entry.2.filter fun field => isOpen field.1⟩ := by
    intro call hcall
    obtain ⟨⟨pageNum, fieldsOnPage⟩, hentry, hcall⟩ :=
      List.mem_filterMap.mp hcall
    simp only at hcall
    split at hcall
    · cases hcall
    · rename_i page hlookup
      split at hcall
      · cases hcall
      · cases hcall
        exact ⟨_, hentry, (key_of_lookupLast hlookup).symm, page, hlookup, rfl⟩
  obtain ⟨entry, hentry, hkey, page, hlookup, rfl⟩ := hmade first hfirst
  obtain ⟨entry', hentry', hkey', page', hlookup', rfl⟩ :=
    hmade second hsecond
  obtain rfl : entry = entry' := List.inj_on_of_nodup_map hnodup hentry hentry'
    (hkey.trans (hpage.trans hkey'.symm))
  rw [hlookup] at hlookup'
  cases hlookup'
  rfl

/-! ## Who decides -/

def Tops (matcher : LlmValueMatcher) (pages : List PageWords)
    (fields : List Target) (fieldId : String) (result : MatchResult) : Prop :=
  ∀ call ∈ matcher.issuedCalls pages fields, ∀ other,
    (fieldId, other) ∈ matcher.offers call → other.score ≤ result.score

def Leads (matcher : LlmValueMatcher) (pages : List PageWords)
    (fields : List Target) (fieldId : String) (call : Call) : Prop :=
  ∃ result, (fieldId, result) ∈ matcher.offers call ∧
    matcher.Tops pages fields fieldId result

/-- In the first pass that makes a best offer, one call makes them all. -/
def Untied (matcher : LlmValueMatcher) (pages : List PageWords)
    (fields : List Target) (fieldId : String) : Prop :=
  (∀ first ∈ declaredCalls pages fields, ∀ second ∈ declaredCalls pages fields,
    matcher.Leads pages fields fieldId first →
    matcher.Leads pages fields fieldId second → first = second) ∧
  ((∀ call ∈ declaredCalls pages fields,
      ¬ matcher.Leads pages fields fieldId call) →
    ∀ first ∈ matcher.broadcastCalls pages fields,
    ∀ second ∈ matcher.broadcastCalls pages fields,
    matcher.Leads pages fields fieldId first →
    matcher.Leads pages fields fieldId second → first = second)

def TimingFree (matcher : LlmValueMatcher) (pages : List PageWords)
    (fields : List Target) : Prop :=
  ∀ (schedule other : Schedule) (fieldId : String),
    (matcher.locateAll schedule pages fields).lookup fieldId =
      (matcher.locateAll other pages fields).lookup fieldId

open Classical in
noncomputable def bestOffer (matcher : LlmValueMatcher)
    (pages : List PageWords) (fields : List Target) (fieldId : String)
    (call : Call) : Option MatchResult :=
  (offersFor fieldId (matcher.offers call)).find? fun result =>
    decide (matcher.Tops pages fields fieldId result)

theorem page_of_mem_offers {call : Call} {fieldId : String}
    {result : MatchResult} (h : (fieldId, result) ∈ matcher.offers call) :
    result.page = call.page.page := by
  unfold offers at h
  split at h
  · cases h
  · obtain ⟨entry, -, hentry⟩ := List.mem_filterMap.mp h
    obtain ⟨found, haccept, heq⟩ := Option.map_eq_some_iff.mp hentry
    cases heq
    unfold accept at haccept
    split at haccept
    · cases haccept
    · split at haccept
      · cases haccept
      · simp only at haccept
        split at haccept
        · cases haccept
        · exact (page_of_unionBbox haccept).1

theorem mem_of_bestOffer {fieldId : String} {call : Call}
    {result : MatchResult}
    (h : matcher.bestOffer pages fields fieldId call = some result) :
    (fieldId, result) ∈ matcher.offers call ∧
      matcher.Tops pages fields fieldId result :=
  ⟨mem_offersFor.mp (List.mem_of_find?_eq_some h),
    by simpa using List.find?_some h⟩

theorem exists_bestOffer_iff {fieldId : String} {call : Call} :
    (∃ result, matcher.bestOffer pages fields fieldId call = some result) ↔
      matcher.Leads pages fields fieldId call := by
  constructor
  · rintro ⟨result, h⟩
    exact ⟨result, mem_of_bestOffer h⟩
  · rintro ⟨result, hmem, htops⟩
    rw [← Option.isSome_iff_exists, bestOffer, List.find?_isSome]
    exact ⟨result, mem_offersFor.mpr hmem, by simpa using htops⟩

/-! ## Every completion order -/

theorem get_eq_or (schedule : Schedule) (fieldId : String) :
    (matcher.locateAll schedule pages fields).get fieldId =
      ((schedule.order .declared (declaredCalls pages fields)).findSome?
        (matcher.bestOffer pages fields fieldId)).or
      ((schedule.order .broadcast (matcher.broadcastCalls pages fields)).findSome?
        (matcher.bestOffer pages fields fieldId)) := by
  classical
  have htops : ∀ result,
      (∀ other ∈ offersFor fieldId (matcher.allOffers schedule pages fields),
        other.score ≤ result.score) ↔
      matcher.Tops pages fields fieldId result := by
    intro result
    simp only [mem_offersFor_allOffers]
    constructor
    · exact fun h call hcall other hother => h other ⟨call, hcall, hother⟩
    · rintro h other ⟨call, hcall, hother⟩
      exact h call hcall other hother
  have hflat : ∀ calls : List Call,
      (offersFor fieldId (calls.flatMap matcher.offers)).find?
        (fun result => decide (matcher.Tops pages fields fieldId result)) =
      calls.findSome? (matcher.bestOffer pages fields fieldId) := by
    intro calls
    rw [offersFor, List.filterMap_flatMap, List.find?_flatMap]
    rfl
  calc (matcher.locateAll schedule pages fields).get fieldId
      = (offersFor fieldId (matcher.allOffers schedule pages fields)).find?
          (fun result => decide (matcher.Tops pages fields fieldId result)) := by
        rw [get_locateAll, argmax_eq_find?]
        exact List.find?_congr fun result _ => decide_eq_decide.mpr (htops result)
    _ = (schedule.order .declared (declaredCalls pages fields) ++
          schedule.order .broadcast
            (matcher.broadcastCalls pages fields)).findSome?
          (matcher.bestOffer pages fields fieldId) := hflat _
    _ = _ := List.findSome?_append

theorem lookup_eq_iff {schedule other : Schedule} {fieldId : String} :
    (matcher.locateAll schedule pages fields).lookup fieldId =
        (matcher.locateAll other pages fields).lookup fieldId ↔
      (matcher.locateAll schedule pages fields).get fieldId =
        (matcher.locateAll other pages fields).get fieldId := by
  constructor
  · intro h
    rw [Results.get, Results.get, held, held, h]
  · intro h
    have hkeys : fieldId ∈ (matcher.locateAll schedule pages fields).map Prod.fst ↔
        fieldId ∈ (matcher.locateAll other pages fields).map Prod.fst := by
      rw [mem_keys_iff, mem_keys_iff]
    rw [lookup_eq_held, lookup_eq_held]
    rw [Results.get, Results.get] at h
    simp only [hkeys, h]

theorem timingFree_iff_perm :
    matcher.TimingFree pages fields ↔ ∀ fieldId,
      ∀ first' second' : List Call, first'.Perm (declaredCalls pages fields) →
        second'.Perm (matcher.broadcastCalls pages fields) →
        (first'.findSome? (matcher.bestOffer pages fields fieldId)).or
          (second'.findSome? (matcher.bestOffer pages fields fieldId)) =
        ((declaredCalls pages fields).findSome?
          (matcher.bestOffer pages fields fieldId)).or
          ((matcher.broadcastCalls pages fields).findSome?
            (matcher.bestOffer pages fields fieldId)) := by
  simp only [TimingFree, lookup_eq_iff, get_eq_or]
  constructor
  · intro h fieldId first' second' hfirst hsecond
    have harranged := h (.arranging _ first' _ second' hfirst hsecond) .inOrder
      fieldId
    simpa [Schedule.arranging, Schedule.inOrder] using harranged
  · intro h schedule other fieldId
    rw [h fieldId _ _ (schedule.perm _ _) (schedule.perm _ _),
      h fieldId _ _ (other.perm _ _) (other.perm _ _)]

/-- Calls about different pages agree on the best offer if one makes it alone. -/
theorem agree_iff {fieldId : String} {calls : List Call}
    (hpages : ∀ first ∈ calls, ∀ second ∈ calls,
      first.page.page = second.page.page → first = second) :
    Agree (matcher.bestOffer pages fields fieldId) calls ↔
      ∀ first ∈ calls, ∀ second ∈ calls,
        matcher.Leads pages fields fieldId first →
        matcher.Leads pages fields fieldId second → first = second := by
  constructor
  · intro h first hfirst second hsecond hleads hleads'
    obtain ⟨found, hfound⟩ := exists_bestOffer_iff.mpr hleads
    obtain ⟨found', hfound'⟩ := exists_bestOffer_iff.mpr hleads'
    have hsame := h first hfirst second hsecond found found' hfound hfound'
    refine hpages first hfirst second hsecond ?_
    rw [← page_of_mem_offers (mem_of_bestOffer hfound).1,
      ← page_of_mem_offers (mem_of_bestOffer hfound').1, hsame]
  · intro h first hfirst second hsecond found found' hfound hfound'
    obtain rfl := h first hfirst second hsecond
      (exists_bestOffer_iff.mp ⟨found, hfound⟩)
      (exists_bestOffer_iff.mp ⟨found', hfound'⟩)
    exact Option.some.inj (hfound.symm.trans hfound')

theorem declaredCalls_page_injective {first second : Call}
    (hfirst : first ∈ declaredCalls pages fields)
    (hsecond : second ∈ declaredCalls pages fields)
    (hpage : first.page.page = second.page.page) : first = second :=
  callsOf_page_injective (nodup_foldl_fields _ _ _ (by simp)) hfirst hsecond
    hpage

theorem broadcastCalls_page_injective {first second : Call}
    (hfirst : first ∈ matcher.broadcastCalls pages fields)
    (hsecond : second ∈ matcher.broadcastCalls pages fields)
    (hpage : first.page.page = second.page.page) : first = second :=
  callsOf_page_injective (nodup_foldl_fields _ _ _ (by simp)) hfirst hsecond
    hpage

/-- Timing is irrelevant exactly when no field is tied between two calls. -/
theorem timingFree_iff (matcher : LlmValueMatcher) (pages : List PageWords)
    (fields : List Target) :
    matcher.TimingFree pages fields ↔
      ∀ fieldId, matcher.Untied pages fields fieldId := by
  rw [timingFree_iff_perm]
  refine forall_congr' fun fieldId => ?_
  have hnone : (∀ call ∈ declaredCalls pages fields,
      matcher.bestOffer pages fields fieldId call = none) ↔
      ∀ call ∈ declaredCalls pages fields,
        ¬ matcher.Leads pages fields fieldId call := by
    simp only [← exists_bestOffer_iff, not_exists,
      Option.eq_none_iff_forall_ne_some]
  rw [findSome?_or_perm_iff, Untied, hnone,
    agree_iff fun _ hfirst _ hsecond =>
      declaredCalls_page_injective hfirst hsecond,
    agree_iff fun _ hfirst _ hsecond =>
      broadcastCalls_page_injective hfirst hsecond]

/-! ## One value on two pages -/

def totalWord : Word where
  text := "1487"
  xmin := 0
  ymin := 0
  xmax := 1
  ymax := 1

def totalPage (number : Int) : PageWords := ⟨number, [totalWord], .pdfText⟩

def totalFields : List Target := [⟨"total", "1487", none⟩]

def sureMatcher : LlmValueMatcher where
  threshold := 0
  respond _ := some [{ field := "total", wordIndices := [0] }]

def totalCall (number : Int) : Call :=
  ⟨.declared, totalPage number, [("total", "1487")]⟩

theorem total_declaredCalls :
    declaredCalls [totalPage 1, totalPage 2] totalFields =
      [totalCall 1, totalCall 2] := by
  decide

theorem total_offers (number : Int) :
    sureMatcher.offers (totalCall number) =
      [("total", ⟨number, 0, 0, 1, 1, 1⟩)] := by
  have hoffers : sureMatcher.offers (totalCall number) =
      [("total", ⟨number, 0, 0, 1, 1, roundScore 1⟩)] := rfl
  rw [hoffers, roundScore_one]

theorem total_broadcastCalls :
    sureMatcher.broadcastCalls [totalPage 1, totalPage 2] totalFields = [] := by
  have hmatched : sureMatcher.openAfter [totalCall 1, totalCall 2] "total" =
      false := by
    simp [openAfter, total_offers, offersFor]
  simp only [broadcastCalls, total_declaredCalls]
  rw [totalFields, List.filter_cons_of_neg (by simpa using hmatched)]
  rfl

/-- The two calls tie, and the one that completes first is kept. -/
theorem not_timingFree :
    ¬ ∀ (matcher : LlmValueMatcher) (pages : List PageWords)
      (fields : List Target), matcher.TimingFree pages fields := by
  intro h
  have hsame := h sureMatcher [totalPage 1, totalPage 2] totalFields
    .inOrder .reversed "total"
  rw [lookup_eq_iff, get_locateAll, get_locateAll, ← foldl_keepBetter,
    ← foldl_keepBetter] at hsame
  simp [allOffers, Schedule.inOrder, Schedule.reversed, total_declaredCalls,
    total_broadcastCalls, total_offers, offersFor, keepBetter] at hsame

end LlmValueMatcher

end Bbox

end Flydocs
