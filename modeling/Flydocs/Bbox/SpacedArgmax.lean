import Mathlib.Data.Int.ConditionallyCompleteOrder
import Flydocs.Bbox.Literal

/-!
# The best window of words

Two loops over the words of a page keep the best window so far.  What they end
with comes first among all windows: by its score, then by its reading order,
then by where it stands in the loops.
-/

namespace Flydocs

open Foundation

namespace Bbox

def maxWindow (target : String) : Nat :=
  let count := max 1 (PythonText.split target).length
  min 12 (max (count * 3) (count + 2))

theorem spacedSizes_eq (target : String) :
    spacedSizes target = List.range' 1 (maxWindow target) := rfl

namespace ValueMatcher

variable (matcher : ValueMatcher) (target : String) (words : List Word)

def matchSpaced (pageNumber : Int) : Option MatchResult :=
  let best := (matcher.tables.spacedWindows target words).foldl
    (Best.visit (matcher.score target) fun window =>
      firstReadingOrder window.words) ⟨0, ⊤, none⟩
  match best.item with
  | none => none
  | some window =>
      if best.score < matcher.threshold.val then none
      else unionBbox window.words best.score pageNumber

def windowAt (span : Nat × Nat) : Window :=
  ⟨matcher.tables.windowText (sliceAt words span), sliceAt words span⟩

structure IsWindow (span : Nat × Nat) : Prop where
  nonempty : 1 ≤ span.2
  bounded : span.2 ≤ maxWindow target
  within : span.1 + span.2 ≤ words.length
  reads : (matcher.windowAt words span).text ≠ ""

/-- The score, of which the greatest comes first, the reading order, the start
and the number of words. -/
def scanKey (span : Nat × Nat) :
    Lex (OrderDual Rat × Lex (WithTop Int × Lex (Nat × Nat))) :=
  toLex (OrderDual.toDual (matcher.score target (matcher.windowAt words span)),
    toLex (firstReadingOrder (sliceAt words span), toLex span))

def windowRank (window : Window) : Lex (OrderDual Rat × WithTop Int) :=
  rank (matcher.score target) (fun window => firstReadingOrder window.words)
    window

variable {matcher target words}

theorem bestMatchOnPage_eq_matchSpaced {page : PageWords}
    (h : matcher.tables.isUnspaced target = false) :
    matcher.bestMatchOnPage target page =
      matcher.matchSpaced target page.words page.page := by
  rw [bestMatchOnPage, UnicodeTables.windows, h]
  rfl

theorem spacedWindows_eq :
    matcher.tables.spacedWindows target words =
      (spans (spacedSizes target) words.length).filterMap fun span =>
        if (matcher.windowAt words span).text = "" then none
        else some (matcher.windowAt words span) := by
  rw [UnicodeTables.spacedWindows, slices_eq_map_spans, List.filterMap_map]
  rfl

theorem isWindow_iff {span : Nat × Nat} :
    matcher.IsWindow target words span ↔
      span ∈ spans (spacedSizes target) words.length ∧
        (matcher.windowAt words span).text ≠ "" := by
  rw [spacedSizes_eq, mem_spans_range'_iff Nat.one_pos, List.mem_range'_1]
  constructor
  · intro h
    have hbounded := h.bounded
    exact ⟨⟨⟨h.nonempty, by omega⟩, h.within⟩, h.reads⟩
  · rintro ⟨⟨⟨hlow, hhigh⟩, hwithin⟩, hreads⟩
    exact ⟨hlow, by omega, hwithin, hreads⟩

theorem sliceAt_ne_nil {span : Nat × Nat}
    (h : matcher.IsWindow target words span) : sliceAt words span ≠ [] := by
  have hnonempty := h.nonempty
  have hwithin := h.within
  refine List.ne_nil_of_length_pos ?_
  rw [sliceAt, List.length_take, List.length_drop]
  omega

theorem scanKey_le_of_lt {span other : Nat × Nat}
    (h : matcher.windowRank target (matcher.windowAt words span) <
      matcher.windowRank target (matcher.windowAt words other)) :
    matcher.scanKey target words span ≤ matcher.scanKey target words other := by
  simp only [windowRank, rank, Prod.Lex.toLex_lt_toLex] at h
  refine le_of_lt ?_
  simp only [scanKey, Prod.Lex.toLex_lt_toLex]
  exact h.imp_right fun h => ⟨h.1, .inl h.2⟩

theorem scanKey_le_of_le {span other : Nat × Nat}
    (h : matcher.windowRank target (matcher.windowAt words span) ≤
      matcher.windowRank target (matcher.windowAt words other))
    (hspan : toLex span ≤ toLex other) :
    matcher.scanKey target words span ≤ matcher.scanKey target words other := by
  rcases h.lt_or_eq with hlt | heq
  · exact scanKey_le_of_lt hlt
  · simp only [windowRank, rank, EmbeddingLike.apply_eq_iff_eq,
      Prod.mk.injEq] at heq
    simp only [scanKey, Prod.Lex.toLex_le_toLex]
    exact .inr ⟨heq.1, .inr ⟨heq.2, Prod.Lex.toLex_le_toLex.mp hspan⟩⟩

theorem windowAt_mem_filterMap {found : List (Nat × Nat)} {span : Nat × Nat}
    (hspan : span ∈ found) (hreads : (matcher.windowAt words span).text ≠ "") :
    matcher.windowAt words span ∈ found.filterMap fun span =>
      if (matcher.windowAt words span).text = "" then none
      else some (matcher.windowAt words span) :=
  List.mem_filterMap.mpr ⟨span, hspan, if_neg hreads⟩

theorem windowAt_mem_spacedWindows {span : Nat × Nat}
    (h : matcher.IsWindow target words span) :
    matcher.windowAt words span ∈
      matcher.tables.spacedWindows target words := by
  obtain ⟨hspan, hreads⟩ := isWindow_iff.mp h
  rw [spacedWindows_eq]
  exact windowAt_mem_filterMap hspan hreads

theorem exists_span_of_spacedWindows {before after : List Window}
    {window : Window}
    (h : matcher.tables.spacedWindows target words =
      before ++ window :: after) :
    ∃ span, matcher.IsWindow target words span ∧
      window = matcher.windowAt words span ∧
      ∀ other, matcher.IsWindow target words other → other = span ∨
        matcher.windowAt words other ∈ before ∨
        (matcher.windowAt words other ∈ after ∧ toLex span ≤ toLex other) := by
  rw [spacedWindows_eq] at h
  obtain ⟨earlier, rest, hspans, rfl, hrest⟩ :=
    List.filterMap_eq_append_iff.mp h
  obtain ⟨skipped, span, later, rfl, hskipped, hspan, rfl⟩ :=
    List.filterMap_eq_cons_iff.mp hrest
  obtain ⟨hreads, hwindow⟩ := Option.ite_none_left_eq_some.mp hspan
  have hsorted := pairwise_spans
    (spacedSizes_eq target ▸ List.pairwise_lt_range') words.length
  rw [hspans, List.pairwise_append, List.pairwise_append,
    List.pairwise_cons] at hsorted
  have hlater := hsorted.2.1.2.1.1
  refine ⟨span, isWindow_iff.mpr ⟨by simp [hspans], hreads⟩,
    (Option.some.inj hwindow).symm, fun other hother => ?_⟩
  obtain ⟨hother, hotherReads⟩ := isWindow_iff.mp hother
  rw [hspans, List.mem_append, List.mem_append, List.mem_cons] at hother
  rcases hother with hother | hother | hother | hother
  · exact .inr (.inl (windowAt_mem_filterMap hother hotherReads))
  · -- blank windows are not among the windows at all
    have hnone := hskipped other hother
    rw [if_neg hotherReads] at hnone
    cases hnone
  · exact .inl hother
  · exact .inr (.inr ⟨windowAt_mem_filterMap hother hotherReads,
      (hlater other hother).le⟩)

/-- The loops end where they started, or with the window that comes first. -/
theorem foldl_spacedWindows (matcher : ValueMatcher) (target : String)
    (words : List Word) (start : Best Window Rat (WithTop Int)) :
    ((matcher.tables.spacedWindows target words).foldl
        (Best.visit (matcher.score target) fun window =>
          firstReadingOrder window.words) start = start ∧
      ∀ span, matcher.IsWindow target words span →
        start.rank ≤
          matcher.windowRank target (matcher.windowAt words span)) ∨
    ∃ span, matcher.IsWindow target words span ∧
      (matcher.tables.spacedWindows target words).foldl
        (Best.visit (matcher.score target) fun window =>
          firstReadingOrder window.words) start =
        ⟨matcher.score target (matcher.windowAt words span),
          firstReadingOrder (sliceAt words span),
          some (matcher.windowAt words span)⟩ ∧
      ∀ other, matcher.IsWindow target words other →
        matcher.scanKey target words span ≤
          matcher.scanKey target words other := by
  rcases foldl_visit_first (matcher.score target)
    (fun window => firstReadingOrder window.words)
    (matcher.tables.spacedWindows target words) start with
    ⟨hstart, hwindows⟩ |
      ⟨before, window, after, hwindows, hfinal, -, hbefore, hafter⟩
  · exact .inl ⟨hstart, fun span hspan =>
      hwindows _ (windowAt_mem_spacedWindows hspan)⟩
  · obtain ⟨span, hspan, rfl, hothers⟩ := exists_span_of_spacedWindows hwindows
    refine .inr ⟨span, hspan, hfinal, fun other hother => ?_⟩
    rcases hothers other hother with rfl | hmem | ⟨hmem, hle⟩
    · exact le_rfl
    · exact scanKey_le_of_lt (hbefore _ hmem)
    · exact scanKey_le_of_le (hafter _ hmem) hle

theorem scanKey_injective : Function.Injective (matcher.scanKey target words) := by
  intro span other h
  simp only [scanKey, EmbeddingLike.apply_eq_iff_eq, Prod.mk.injEq] at h
  exact h.2.2

theorem score_le_of_scanKey_le {span other : Nat × Nat}
    (h : matcher.scanKey target words span ≤
      matcher.scanKey target words other) :
    matcher.score target (matcher.windowAt words other) ≤
      matcher.score target (matcher.windowAt words span) :=
  Prod.Lex.monotone_fst _ _ h

theorem matchSpaced_cases {matcher : ValueMatcher}
    (hpositive : 0 < matcher.threshold.val) (target : String)
    (words : List Word) (pageNumber : Int) :
    (matcher.matchSpaced target words pageNumber = none ∧
      ∀ span, matcher.IsWindow target words span →
        matcher.score target (matcher.windowAt words span) <
          matcher.threshold.val) ∨
    ∃ span, matcher.IsWindow target words span ∧
      matcher.threshold.val ≤
        matcher.score target (matcher.windowAt words span) ∧
      (∀ other, matcher.IsWindow target words other →
        matcher.scanKey target words span ≤
          matcher.scanKey target words other) ∧
      ∃ found, unionBbox (sliceAt words span)
          (matcher.score target (matcher.windowAt words span)) pageNumber =
            some found ∧
        matcher.matchSpaced target words pageNumber = some found := by
  rcases foldl_spacedWindows matcher target words ⟨0, ⊤, none⟩ with
    ⟨hstart, hwindows⟩ | ⟨span, hspan, hfinal, hfirst⟩
  · refine .inl ⟨?_, fun span hspan => lt_of_le_of_lt ?_ hpositive⟩
    · rw [matchSpaced, hstart]
    · exact Prod.Lex.monotone_fst _ _ (hwindows span hspan)
  · have hmatch : matcher.matchSpaced target words pageNumber =
        if matcher.score target (matcher.windowAt words span) <
          matcher.threshold.val then none
        else unionBbox (sliceAt words span)
          (matcher.score target (matcher.windowAt words span)) pageNumber := by
      rw [matchSpaced, hfinal]
      rfl
    by_cases hthreshold : matcher.score target (matcher.windowAt words span) <
        matcher.threshold.val
    · rw [if_pos hthreshold] at hmatch
      exact .inl ⟨hmatch, fun other hother =>
        (score_le_of_scanKey_le (hfirst other hother)).trans_lt hthreshold⟩
    · rw [if_neg hthreshold] at hmatch
      obtain ⟨found, hfound⟩ := exists_unionBbox (sliceAt_ne_nil hspan)
        (matcher.score target (matcher.windowAt words span)) pageNumber
      exact .inr ⟨span, hspan, not_lt.mp hthreshold, hfirst, found, hfound,
        hmatch.trans hfound⟩

/-- The search is an argmax over all windows, and it fails where the best score
is below the threshold. -/
theorem matchSpaced_eq_argmax (matcher : ValueMatcher)
    (hpositive : 0 < matcher.threshold.val) (target : String)
    (words : List Word) (pageNumber : Int) :
    (matcher.matchSpaced target words pageNumber = none ↔
      ∀ span, matcher.IsWindow target words span →
        matcher.score target (matcher.windowAt words span) <
          matcher.threshold.val) ∧
    ∀ found, matcher.matchSpaced target words pageNumber = some found ↔
      ∃ span, matcher.IsWindow target words span ∧
        matcher.threshold.val ≤
          matcher.score target (matcher.windowAt words span) ∧
        (∀ other, matcher.IsWindow target words other →
          matcher.scanKey target words span ≤
            matcher.scanKey target words other) ∧
        unionBbox (sliceAt words span)
          (matcher.score target (matcher.windowAt words span)) pageNumber =
            some found := by
  rcases matchSpaced_cases hpositive target words pageNumber with
    ⟨hnone, hbelow⟩ | ⟨span, hspan, hthreshold, hfirst, found, hunion, hsome⟩
  · rw [hnone]
    refine ⟨iff_of_true rfl hbelow, fun found => iff_of_false nofun ?_⟩
    rintro ⟨span, hspan, hthreshold, -⟩
    exact (hbelow span hspan).not_ge hthreshold
  · rw [hsome]
    refine ⟨iff_of_false nofun fun h => (h span hspan).not_ge hthreshold,
      fun other => ⟨?_, ?_⟩⟩
    · rintro ⟨⟩
      exact ⟨span, hspan, hthreshold, hfirst, hunion⟩
    · rintro ⟨best, hbest, -, hbestFirst, hbestUnion⟩
      obtain rfl : span = best := scanKey_injective
        (le_antisymm (hfirst best hbest) (hbestFirst span hspan))
      rw [← hunion, hbestUnion]

def acmeWords : List Word :=
  [{ wordOf "Acme" with readingOrder := some 5 },
    { wordOf "ACME" with xmin := 1 / 2, readingOrder := some 2 }]

theorem matchSpaced_eq_argmax_acme :
    asciiMatcher.matchSpaced "acme" acmeWords 3 =
      some ⟨3, 1 / 2, 0, 1, 1, 1⟩ := by
  have hkey : ∀ other ∈ spans (spacedSizes "acme") acmeWords.length,
      asciiMatcher.scanKey "acme" acmeWords (1, 1) ≤
        asciiMatcher.scanKey "acme" acmeWords other := by decide +kernel
  refine ((matchSpaced_eq_argmax asciiMatcher (by decide +kernel) "acme"
    acmeWords 3).2 _).mpr ⟨(1, 1), isWindow_iff.mpr ?_, ?_, ?_, ?_⟩
  · decide +kernel
  · decide +kernel
  · exact fun other hother => hkey other (isWindow_iff.mp hother).1
  · decide +kernel

end ValueMatcher

end Bbox

end Flydocs
