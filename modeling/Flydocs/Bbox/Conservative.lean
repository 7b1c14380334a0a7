import Flydocs.Bbox.BboxRefiner
import Flydocs.Foundation.Traverse
import Mathlib.Data.List.Perm.Subperm

/-!
# The refiner as a conservative update

One target changes one leaf in its box and its pages, and no leaf is the target
of two.  A leaf that is grounded is nobody's target.
-/

namespace Flydocs

open Foundation Dtos

namespace Bbox

def coordinates (box : BoundingBox) : Rat × Rat × Rat × Rat :=
  (box.xmin.val, box.ymin.val, box.xmax.val, box.ymax.val)

def MatchResult.coordinates (found : MatchResult) : Rat × Rat × Rat × Rat :=
  (found.xmin, found.ymin, found.xmax, found.ymax)

/-! ## One leaf -/

theorem sameLeaf_keepLlm (field : ExtractedField) :
    eraseBox (keepLlm field) = eraseBox field := by
  unfold keepLlm eraseBox
  split <;> rfl

theorem keepLlm_coordinates (field : ExtractedField) :
    (keepLlm field).pages = field.pages ∧
      (keepLlm field).bbox.map coordinates = field.bbox.map coordinates := by
  unfold keepLlm
  split
  · rename_i box hbox
    rw [hbox]
    exact ⟨rfl, rfl⟩
  · exact ⟨rfl, rfl⟩

theorem boundingBox_of_framed {found : MatchResult} (hframed : found.Framed)
    (hscore : InUnit found.score) (quality : Option BboxQuality)
    (qualityScore : UnitInterval) (source : BboxSource) :
    ∃ box, boundingBox found.xmin found.ymin found.xmax found.ymax quality
        qualityScore source found.score = .ok box ∧
      coordinates box = found.coordinates := by
  obtain ⟨hleft, hwidth, hright, htop, hheight, hbottom⟩ := hframed
  unfold boundingBox
  rw [dif_pos ⟨⟨hleft, (hwidth.trans_le hright).le⟩,
    ⟨htop, (hheight.trans_le hbottom).le⟩, ⟨(hleft.trans_lt hwidth).le, hright⟩,
    ⟨(htop.trans_lt hheight).le, hbottom⟩, hscore⟩, dif_pos ⟨hwidth, hheight⟩]
  exact ⟨_, rfl, rfl⟩

theorem eraseBox_replaceBbox {field after : ExtractedField}
    {found : MatchResult} {source : BboxSource}
    (h : replaceBbox field found source = .ok after) :
    eraseBox after = eraseBox field := by
  obtain ⟨box, -, hafter⟩ := bind_eq_ok_iff.mp h
  cases hafter
  rfl

theorem eraseBox_stamp {pages : List PageWords} {found : Option MatchResult}
    {field after : ExtractedField}
    (h : stamp pages found field = .ok after) :
    eraseBox after = eraseBox field := by
  cases found with
  | none =>
      cases h
      exact sameLeaf_keepLlm field
  | some found => exact eraseBox_replaceBbox h

theorem stamp_of_framed {found : MatchResult} (hframed : found.Framed)
    (hscore : InUnit found.score) (pages : List PageWords)
    (field : ExtractedField) :
    ∃ after box, stamp pages (some found) field = .ok after ∧
      after.bbox = some box ∧ coordinates box = found.coordinates := by
  obtain ⟨box, hbox, hcoordinates⟩ := boundingBox_of_framed hframed hscore
    (field.bbox.bind BoundingBox.quality)
    ((field.bbox.map BoundingBox.qualityScore).getD 0)
    (pageSource found.page pages)
  refine ⟨{ field with
    bbox := some box
    pages :=
      if found.page ∈ field.pages then field.pages
      else found.page :: field.pages }, box, ?_, rfl, hcoordinates⟩
  rw [stamp, replaceBbox, hbox]
  rfl

theorem outcomes_count (counters : RefineCounters) (pages : List PageWords)
    (found : Option MatchResult) :
    (counters.count pages found).outcomes = counters.outcomes + 1 ∧
      (counters.count pages found).fieldsSeen = counters.fieldsSeen := by
  unfold RefineCounters.count RefineCounters.outcomes
  split
  · exact ⟨rfl, rfl⟩
  · split
    · exact ⟨by simp only; omega, rfl⟩
    · exact ⟨by simp only; omega, rfl⟩

/-! ## The loop -/

namespace BboxRefiner

section

variable {Failure : Type} {pages : List PageWords} {results : Results}
  {targets : List (Nat × Target)} {leaves : List ExtractedField}
  {counters : RefineCounters}

theorem map_eraseBox_set {index : Nat} {field after : ExtractedField}
    (hfield : leaves[index]? = some field)
    (h : eraseBox after = eraseBox field) :
    (leaves.set index after).map eraseBox = leaves.map eraseBox := by
  obtain ⟨hlt, rfl⟩ := List.getElem?_eq_some_iff.mp hfield
  rw [List.map_set, h]
  have hmap : index < (leaves.map eraseBox).length := by simpa using hlt
  simpa using List.set_getElem_self hmap

theorem map_eraseBox_stampAll :
    (@stampAll Failure pages results targets leaves
      counters).1.map eraseBox = leaves.map eraseBox := by
  induction targets generalizing leaves counters with
  | nil => rfl
  | cons entry targets ih =>
      obtain ⟨index, target⟩ := entry
      simp only [stampAll]
      split
      · rfl
      · rename_i field hfield
        split
        · rfl
        · rename_i after hstamp
          rw [ih, map_eraseBox_set hfield (eraseBox_stamp hstamp)]

theorem stampAll_frame {index : Nat} (h : index ∉ targets.map Prod.fst) :
    (@stampAll Failure pages results targets leaves
      counters).1[index]? = leaves[index]? := by
  induction targets generalizing leaves counters with
  | nil => rfl
  | cons entry targets ih =>
      obtain ⟨other, target⟩ := entry
      rw [List.map_cons, List.mem_cons, not_or] at h
      simp only [stampAll]
      split
      · rfl
      · split
        · rfl
        · rw [ih h.2, List.getElem?_set_ne (Ne.symm h.1)]

theorem stampAll_target {index : Nat} {target : Target}
    {field : ExtractedField} (hnodup : (targets.map Prod.fst).Nodup)
    (hmem : (index, target) ∈ targets) (hfield : leaves[index]? = some field) :
    let run := @stampAll Failure pages results targets leaves
      counters
    (run.1[index]? = some field ∧ ∃ error, run.2 = .error error) ∨
      ∃ after, stamp pages (results.get target.fieldId) field = .ok after ∧
        run.1[index]? = some after := by
  induction targets generalizing leaves counters with
  | nil => cases hmem
  | cons entry targets ih =>
      obtain ⟨first, firstTarget⟩ := entry
      rw [List.map_cons, List.nodup_cons] at hnodup
      simp only [stampAll]
      rcases List.mem_cons.mp hmem with heq | hlater
      · cases heq
        rw [hfield]
        simp only
        cases hstamp : stamp pages (results.get target.fieldId) field with
        | error error => exact .inl ⟨hfield, _, rfl⟩
        | ok after =>
            refine .inr ⟨after, rfl, ?_⟩
            rw [stampAll_frame hnodup.1]
            exact List.getElem?_set_self
              (List.getElem?_eq_some_iff.mp hfield).1
      · have hne : first ≠ index := by
          rintro rfl
          exact hnodup.1 (List.mem_map.mpr ⟨_, hlater, rfl⟩)
        split
        · exact .inl ⟨hfield, _, rfl⟩
        · split
          · exact .inl ⟨hfield, _, rfl⟩
          · refine ih hnodup.2 hlater ?_
            rw [List.getElem?_set_ne hne, hfield]

theorem stampAll_counters {final : RefineCounters}
    (h : (@stampAll Failure pages results targets leaves
      counters).2 = .ok final) :
    final.outcomes = counters.outcomes + targets.length ∧
      final.fieldsSeen = counters.fieldsSeen := by
  induction targets generalizing leaves counters with
  | nil =>
      cases h
      exact ⟨rfl, rfl⟩
  | cons entry targets ih =>
      obtain ⟨index, target⟩ := entry
      simp only [stampAll] at h
      split at h
      · cases h
      · split at h
        · cases h
        · obtain ⟨houtcomes, hseen⟩ := ih h
          have hcount := outcomes_count counters pages
            (results.get target.fieldId)
          rw [houtcomes, hseen, hcount.1, hcount.2, List.length_cons]
          exact ⟨by omega, rfl⟩

theorem stampAll_ok
    (hindex : ∀ entry ∈ targets, entry.1 < leaves.length)
    (hstamp : ∀ entry ∈ targets, ∀ field, ∃ after,
      stamp pages (results.get entry.2.fieldId) field = .ok after) :
    ∃ final, (@stampAll Failure pages results targets leaves
      counters).2 = .ok final := by
  induction targets generalizing leaves counters with
  | nil => exact ⟨_, rfl⟩
  | cons entry targets ih =>
      obtain ⟨index, target⟩ := entry
      rw [List.forall_mem_cons] at hindex hstamp
      have hfield := List.getElem?_eq_getElem hindex.1
      obtain ⟨after, hafter⟩ := hstamp.1 leaves[index]
      simp only [stampAll, hfield, hafter]
      exact ih (by simpa using hindex.2) hstamp.2

end

/-! ## The targets -/

variable {Failure : Type} {refiner : BboxRefiner Failure}

theorem sublist_targetsFrom {index : Nat} {leaves : List ExtractedField}
    {targets : List (Nat × Target)}
    (h : refiner.targetsFrom index leaves = .ok targets) :
    (targets.map Prod.fst).Sublist (List.range' index leaves.length) := by
  induction leaves generalizing index targets with
  | nil =>
      cases h
      exact .slnil
  | cons leaf leaves ih =>
      obtain ⟨value, -, h⟩ := bind_eq_ok_iff.mp h
      obtain ⟨later, hlater, h⟩ := bind_eq_ok_iff.mp h
      rw [List.length_cons, List.range'_succ]
      split at h
      · cases h
        exact (ih hlater).cons _
      · cases h
        exact (ih hlater).cons_cons _

theorem mem_alreadyGrounded_iff {leaves : List ExtractedField} {index : Nat} :
    index ∈ alreadyGrounded leaves ↔
      ∃ leaf, leaves[index]? = some leaf ∧ isGrounded leaf = true := by
  simp only [alreadyGrounded, List.mem_map, List.mem_filter, Prod.exists,
    List.mem_zipIdx_iff_getElem?]
  constructor
  · rintro ⟨leaf, _, ⟨hleaf, hgrounded⟩, rfl⟩
    exact ⟨leaf, hleaf, hgrounded⟩
  · rintro ⟨leaf, hleaf, hgrounded⟩
    exact ⟨leaf, index, ⟨hleaf, hgrounded⟩, rfl⟩

theorem hasSource_unique {source other : BboxSource} {field : ExtractedField}
    (h : hasSource source field = true) (hne : source ≠ other) :
    hasSource other field = false := by
  unfold hasSource at h ⊢
  cases hbox : field.bbox with
  | none => rfl
  | some box =>
      simp only [hbox, decide_eq_true_eq, decide_eq_false_iff_not] at h ⊢
      rw [h]
      simpa using hne

theorem countP_isGrounded (leaves : List ExtractedField) :
    leaves.countP isGrounded =
      leaves.countP (hasSource .pdfText) + leaves.countP (hasSource .ocr) := by
  induction leaves with
  | nil => rfl
  | cons leaf leaves ih =>
      rw [List.countP_cons, List.countP_cons, List.countP_cons, ih]
      unfold isGrounded
      cases hpdf : hasSource .pdfText leaf with
      | true =>
          rw [hasSource_unique hpdf (by decide)]
          simp only [Bool.true_or, if_true, Bool.false_eq_true, if_false]
          omega
      | false =>
          simp only [Bool.false_or, Bool.false_eq_true, if_false]
          omega

theorem outcomes_seen (leaves : List ExtractedField) :
    (seen leaves).outcomes = (alreadyGrounded leaves).length := by
  have hmap := List.countP_map (p := isGrounded) (f := Prod.fst)
    (l := leaves.zipIdx)
  rw [List.zipIdx_map_fst] at hmap
  rw [alreadyGrounded, List.length_map, ← List.countP_eq_length_filter]
  exact (countP_isGrounded leaves).symm.trans hmap

structure Handed (refiner : BboxRefiner Failure) (leaves : List ExtractedField)
    (pages : List PageWords) (residual : List (Nat × Target))
    (results : Results) : Prop where
  collected : refiner.collect = .ok pages
  nodup : (residual.map Prod.fst).Nodup
  bounded : ∀ entry ∈ residual, entry.1 < leaves.length
  ungrounded : ∀ entry ∈ residual, entry.1 ∉ alreadyGrounded leaves
  answered : residual ≠ [] →
    refiner.locateAll pages (residual.map Prod.snd) = .ok results

theorem handed_of_located {leaves : List ExtractedField}
    {pages : List PageWords} {residual : List (Nat × Target)}
    {results : Results}
    (h : refiner.located leaves = .ok (pages, residual, results)) :
    Handed refiner leaves pages residual results := by
  obtain ⟨words, hwords, h⟩ := bind_eq_ok_iff.mp h
  obtain ⟨targets, htargets, h⟩ := bind_eq_ok_iff.mp h
  rw [mapError_eq_ok_iff] at hwords htargets
  have hsublist := sublist_targetsFrom htargets
  have hrest : pages = words ∧ residual = (targets.filter fun target =>
        target.1 ∉ alreadyGrounded leaves) ∧
      (residual ≠ [] →
        refiner.locateAll words (residual.map Prod.snd) = .ok results) := by
    simp only at h
    split at h
    · rename_i hempty
      cases h
      exact ⟨rfl, hempty.symm, fun hne => absurd rfl hne⟩
    · obtain ⟨answers, hanswers, h⟩ := bind_eq_ok_iff.mp h
      rw [mapError_eq_ok_iff] at hanswers
      cases h
      exact ⟨rfl, rfl, fun _ => hanswers⟩
  obtain ⟨rfl, hresidual, hanswered⟩ := hrest
  have hkept : (residual.map Prod.fst).Sublist
      (List.range' 0 leaves.length) := by
    rw [hresidual]
    exact (List.filter_sublist.map _).trans hsublist
  exact {
    collected := hwords
    nodup := (List.nodup_range' 1).sublist hkept
    bounded := fun entry hentry => by
      simpa using hkept.subset (List.mem_map_of_mem hentry)
    ungrounded := fun entry hentry => by
      rw [hresidual] at hentry
      simpa using (List.mem_filter.mp hentry).2
    answered := hanswered }

theorem Handed.length_le {leaves : List ExtractedField}
    {pages : List PageWords} {residual : List (Nat × Target)}
    {results : Results}
    (h : Handed refiner leaves pages residual results) :
    (alreadyGrounded leaves).length + residual.length ≤ leaves.length := by
  have hgrounded : (alreadyGrounded leaves).Nodup := by
    have hsublist : (alreadyGrounded leaves).Sublist
        (leaves.zipIdx.map Prod.snd) := List.filter_sublist.map _
    rw [List.zipIdx_map_snd] at hsublist
    exact (List.nodup_range' 1).sublist hsublist
  have hnodup : (alreadyGrounded leaves ++ residual.map Prod.fst).Nodup := by
    refine List.nodup_append'.mpr ⟨hgrounded, h.nodup, ?_⟩
    intro index hindex hresidual
    obtain ⟨entry, hentry, rfl⟩ := List.mem_map.mp hresidual
    exact h.ungrounded entry hentry hindex
  have hsubset : alreadyGrounded leaves ++ residual.map Prod.fst ⊆
      List.range leaves.length := by
    intro index hindex
    rw [List.mem_range]
    rcases List.mem_append.mp hindex with hgrounded | hresidual
    · obtain ⟨leaf, hleaf, -⟩ := mem_alreadyGrounded_iff.mp hgrounded
      exact (List.getElem?_eq_some_iff.mp hleaf).1
    · obtain ⟨entry, hentry, rfl⟩ := List.mem_map.mp hresidual
      exact h.bounded entry hentry
  simpa using (List.subperm_of_subset hnodup hsubset).length_le

/-! ## The call -/

/-- A call changes nothing, or is one run of the loop over the leaves. -/
theorem refine_cases (refiner : BboxRefiner Failure)
    (groups : List ExtractedFieldGroup) :
    ((refiner.refine groups).1 = groups ∧
      ((groups = [] ∧ (refiner.refine groups).2 = .ok {}) ∨
        ∃ error, (refiner.refine groups).2 = .error error ∧
          refiner.located (groupLeaves groups) = .error error)) ∨
    ∃ pages residual results,
      refiner.located (groupLeaves groups) = .ok (pages, residual, results) ∧
      eraseGroups (refiner.refine groups).1 = eraseGroups groups ∧
      groupLeaves (refiner.refine groups).1 =
        (@stampAll Failure pages results residual
          (groupLeaves groups) (seen (groupLeaves groups))).1 ∧
      (refiner.refine groups).2 =
        (stampAll pages results residual (groupLeaves groups)
          (seen (groupLeaves groups))).2 := by
  unfold refine
  split
  · rename_i hempty
    exact .inl ⟨rfl, .inl ⟨hempty, rfl⟩⟩
  · simp only
    split
    · rename_i error hlocated
      exact .inl ⟨rfl, .inr ⟨error, rfl, hlocated⟩⟩
    · rename_i pages residual results hlocated
      obtain ⟨herased, hleaves⟩ := @putGroups_spec groups _
        (forall₂_sameLeaf_iff.mpr (@map_eraseBox_stampAll Failure pages results
          residual _ (seen (groupLeaves groups))).symm)
      exact .inr ⟨pages, residual, results, hlocated, herased, hleaves, rfl⟩

def matchOf (refiner : BboxRefiner Failure)
    (groups : List ExtractedFieldGroup) (index : Nat) : Option MatchResult :=
  match refiner.located (groupLeaves groups) with
  | .error _ => none
  | .ok (_, residual, results) =>
      (residual.find? fun entry => entry.1 = index).bind fun entry =>
        results.get entry.2.fieldId

def MatchesUnions (refiner : BboxRefiner Failure) : Prop :=
  ∀ pages targets results, refiner.collect = .ok pages →
    refiner.locateAll pages targets = .ok results →
    ∀ fieldId found, results.get fieldId = some found → IsUnion pages found

def WordsFramed (refiner : BboxRefiner Failure) : Prop :=
  ∀ pages, refiner.collect = .ok pages →
    ∀ page ∈ pages, ∀ word ∈ page.words, word.Framed

structure Conservative (refiner : BboxRefiner Failure)
    (groups : List ExtractedFieldGroup) : Prop where
  erased : eraseGroups (refiner.refine groups).1 = eraseGroups groups
  unmatched : ∀ index before, (groupLeaves groups)[index]? = some before →
    refiner.matchOf groups index = none →
    ∃ after, (groupLeaves (refiner.refine groups).1)[index]? = some after ∧
      after.pages = before.pages ∧
      after.bbox.map coordinates = before.bbox.map coordinates
  raises : refiner.WordsFramed → ∀ error,
    (refiner.refine groups).2 = .error error →
    refiner.located (groupLeaves groups) = .error error
  framed : refiner.WordsFramed → ∀ index found,
    refiner.matchOf groups index = some found →
    ∃ after box, (groupLeaves (refiner.refine groups).1)[index]? = some after ∧
      after.bbox = some box ∧ coordinates box = found.coordinates ∧
      found.Framed
  counters : ∀ counters, (refiner.refine groups).2 = .ok counters →
    counters.fieldsSeen = (groupLeaves groups).length ∧
      counters.outcomes ≤ counters.fieldsSeen
  again : ∀ (other : BboxRefiner Failure) (index : Nat) (leaf : ExtractedField),
    (groupLeaves (refiner.refine groups).1)[index]? = some leaf →
    isGrounded leaf = true →
    (groupLeaves (other.refine (refiner.refine groups).1).1)[index]? = some leaf

theorem lt_of_matchOf {groups : List ExtractedFieldGroup} {index : Nat}
    {found : MatchResult} (h : refiner.matchOf groups index = some found) :
    index < (groupLeaves groups).length := by
  unfold matchOf at h
  split at h
  · cases h
  · rename_i hlocated
    obtain ⟨entry, hfind, -⟩ := Option.bind_eq_some_iff.mp h
    obtain rfl : entry.1 = index := by simpa using List.find?_some hfind
    exact (handed_of_located hlocated).bounded entry
      (List.mem_of_find?_eq_some hfind)

theorem refine_frame {groups : List ExtractedFieldGroup} {index : Nat}
    {leaf : ExtractedField} (hleaf : (groupLeaves groups)[index]? = some leaf)
    (hgrounded : isGrounded leaf = true) :
    (groupLeaves (refiner.refine groups).1)[index]? = some leaf := by
  rcases refiner.refine_cases groups with
    ⟨hsame, -⟩ | ⟨pages, residual, results, hlocated, -, hleaves, -⟩
  · rw [hsame, hleaf]
  · have hhanded := handed_of_located hlocated
    rw [hleaves, stampAll_frame, hleaf]
    intro hmem
    obtain ⟨entry, hentry, rfl⟩ := List.mem_map.mp hmem
    exact hhanded.ungrounded entry hentry
      (mem_alreadyGrounded_iff.mpr ⟨leaf, hleaf, hgrounded⟩)

theorem refine_unmatched {groups : List ExtractedFieldGroup} {index : Nat}
    {before : ExtractedField}
    (hbefore : (groupLeaves groups)[index]? = some before)
    (hmatch : refiner.matchOf groups index = none) :
    ∃ after, (groupLeaves (refiner.refine groups).1)[index]? = some after ∧
      after.pages = before.pages ∧
      after.bbox.map coordinates = before.bbox.map coordinates := by
  rcases refiner.refine_cases groups with
    ⟨hsame, -⟩ | ⟨pages, residual, results, hlocated, -, hleaves, -⟩
  · rw [hsame]
    exact ⟨before, hbefore, rfl, rfl⟩
  · have hhanded := handed_of_located hlocated
    rw [hleaves]
    simp only [matchOf, hlocated] at hmatch
    cases hfind : residual.find? fun entry => entry.1 = index with
    | none =>
        refine ⟨before, ?_, rfl, rfl⟩
        rw [stampAll_frame, hbefore]
        intro hmem
        obtain ⟨entry, hentry, rfl⟩ := List.mem_map.mp hmem
        simpa using List.find?_eq_none.mp hfind entry hentry
    | some entry =>
        obtain ⟨other, target⟩ := entry
        obtain rfl : other = index := by simpa using List.find?_some hfind
        rw [hfind, Option.bind_some] at hmatch
        have hentry := List.mem_of_find?_eq_some hfind
        rcases @stampAll_target Failure pages results residual _
            (seen (groupLeaves groups)) _ _ _ hhanded.nodup hentry hbefore with
          ⟨hkept, -⟩ | ⟨after, hstamp, hafter⟩
        · exact ⟨before, hkept, rfl, rfl⟩
        · rw [hmatch] at hstamp
          cases hstamp
          exact ⟨_, hafter, keepLlm_coordinates before⟩

theorem stampAll_ok_of_unions {leaves : List ExtractedField}
    {pages : List PageWords} {residual : List (Nat × Target)}
    {results : Results} (hhanded : Handed refiner leaves pages residual results)
    (hunions : refiner.MatchesUnions) (hwords : refiner.WordsFramed)
    (counters : RefineCounters) :
    (∀ entry ∈ residual, ∀ found, results.get entry.2.fieldId = some found →
      found.Framed ∧ InUnit found.score) ∧
    ∃ final, (@stampAll Failure pages results residual leaves
      counters).2 = .ok final := by
  have hfound : ∀ entry ∈ residual, ∀ found,
      results.get entry.2.fieldId = some found →
      found.Framed ∧ InUnit found.score := by
    intro entry hentry found hget
    have hunion := hunions pages _ results hhanded.collected
      (hhanded.answered (List.ne_nil_of_mem hentry)) _ found hget
    exact ⟨hunion.framed (hwords pages hhanded.collected), hunion.score_mem⟩
  refine ⟨hfound, stampAll_ok hhanded.bounded ?_⟩
  intro entry hentry field
  cases hget : results.get entry.2.fieldId with
  | none => exact ⟨_, rfl⟩
  | some found =>
      obtain ⟨hframed, hscore⟩ := hfound entry hentry found hget
      obtain ⟨after, box, hstamp, -⟩ :=
        stamp_of_framed hframed hscore pages field
      exact ⟨after, hstamp⟩

theorem refine_raises {groups : List ExtractedFieldGroup}
    (hunions : refiner.MatchesUnions) (hwords : refiner.WordsFramed)
    {error : RefineError Failure}
    (h : (refiner.refine groups).2 = .error error) :
    refiner.located (groupLeaves groups) = .error error := by
  rcases refiner.refine_cases groups with
    ⟨-, ⟨-, hok⟩ | ⟨raised, herror, hlocated⟩⟩ |
    ⟨pages, residual, results, hlocated, -, -, houtcome⟩
  · rw [hok] at h
    cases h
  · rw [herror] at h
    cases h
    exact hlocated
  · obtain ⟨-, final, hfinal⟩ := stampAll_ok_of_unions
      (handed_of_located hlocated) hunions hwords (seen (groupLeaves groups))
    rw [houtcome, hfinal] at h
    cases h

theorem refine_framed {groups : List ExtractedFieldGroup}
    (hunions : refiner.MatchesUnions) (hwords : refiner.WordsFramed)
    {index : Nat} {found : MatchResult}
    (hmatch : refiner.matchOf groups index = some found) :
    ∃ after box, (groupLeaves (refiner.refine groups).1)[index]? = some after ∧
      after.bbox = some box ∧ coordinates box = found.coordinates ∧
      found.Framed := by
  rcases refiner.refine_cases groups with
    ⟨-, ⟨rfl, -⟩ | ⟨_, -, hlocated⟩⟩ |
    ⟨pages, residual, results, hlocated, -, hleaves, -⟩
  · exact absurd (lt_of_matchOf hmatch) (Nat.not_lt_zero _)
  · simp [matchOf, hlocated] at hmatch
  · have hhanded := handed_of_located hlocated
    simp only [matchOf, hlocated, Option.bind_eq_some_iff] at hmatch
    obtain ⟨⟨other, target⟩, hfind, hget⟩ := hmatch
    obtain rfl : other = index := by simpa using List.find?_some hfind
    have hentry := List.mem_of_find?_eq_some hfind
    obtain ⟨hfound, final, hfinal⟩ := stampAll_ok_of_unions hhanded hunions
      hwords (seen (groupLeaves groups))
    obtain ⟨hframed, hscore⟩ := hfound _ hentry found hget
    have hlt : other < (groupLeaves groups).length :=
      hhanded.bounded _ hentry
    have hbefore := List.getElem?_eq_getElem hlt
    rw [hleaves]
    rcases @stampAll_target Failure pages results residual _
        (seen (groupLeaves groups)) _ _ _ hhanded.nodup hentry hbefore with
      ⟨-, error, herror⟩ | ⟨after, hstamp, hafter⟩
    · rw [hfinal] at herror
      cases herror
    · rw [hget] at hstamp
      obtain ⟨stamped, box, hstamped, hbox, hcoordinates⟩ :=
        stamp_of_framed hframed hscore pages (groupLeaves groups)[other]
      rw [hstamped] at hstamp
      cases hstamp
      exact ⟨_, box, hafter, hbox, hcoordinates, hframed⟩

theorem refine_counters {groups : List ExtractedFieldGroup}
    {counters : RefineCounters}
    (h : (refiner.refine groups).2 = .ok counters) :
    counters.fieldsSeen = (groupLeaves groups).length ∧
      counters.outcomes ≤ counters.fieldsSeen := by
  rcases refiner.refine_cases groups with
    ⟨-, ⟨rfl, hok⟩ | ⟨_, herror, -⟩⟩ |
    ⟨pages, residual, results, hlocated, -, -, houtcome⟩
  · rw [hok] at h
    cases h
    exact ⟨rfl, le_rfl⟩
  · rw [herror] at h
    cases h
  · rw [houtcome] at h
    obtain ⟨houtcomes, hseen⟩ := stampAll_counters h
    have hfields : counters.fieldsSeen = (groupLeaves groups).length := hseen
    refine ⟨hfields, ?_⟩
    rw [hfields, houtcomes, outcomes_seen]
    exact (handed_of_located hlocated).length_le

/-- A refine changes boxes and pages of leaves only, and only where it must. -/
theorem refine_conservative (refiner : BboxRefiner Failure)
    (groups : List ExtractedFieldGroup) (hunions : refiner.MatchesUnions) :
    refiner.Conservative groups where
  erased := by
    rcases refiner.refine_cases groups with
      ⟨hsame, -⟩ | ⟨_, _, _, -, herased, -, -⟩
    · rw [hsame]
    · exact herased
  unmatched _ _ hbefore hmatch := refine_unmatched hbefore hmatch
  raises hwords _ h := refine_raises hunions hwords h
  framed hwords _ _ hmatch := refine_framed hunions hwords hmatch
  counters _ h := refine_counters h
  again _ _ _ hleaf hgrounded := refine_frame hleaf hgrounded

def plateWord : Word where
  text := "AB-123"
  xmin := 1 / 4
  ymin := 1 / 4
  xmax := 1 / 2
  ymax := 1 / 2

def oneWordRefiner : BboxRefiner Unit where
  library := .ascii
  collect := .ok [⟨1, [plateWord], .pdfText⟩]
  locateAll _ targets := .ok (targets.map fun target =>
    (target.fieldId, unionBbox [plateWord] 1 1))

theorem oneWordRefiner_conservative :
    oneWordRefiner.Conservative
      [⟨"vehicle", [{ name := "plate", value := .str "AB-123" }]⟩] := by
  refine refine_conservative oneWordRefiner _ ?_
  intro pages targets results hcollect hlocate fieldId found hget
  cases hcollect
  cases hlocate
  refine ⟨_, List.mem_singleton_self _, [plateWord], List.Subset.refl _, 1, ?_⟩
  obtain ⟨target, -, heq⟩ := List.mem_map.mp (Results.mem_of_get hget)
  exact (Prod.mk.inj heq).2

end BboxRefiner

end Bbox

end Flydocs
