import Flydocs.Bbox.Literal

/-!
# Scripts without blanks

The characters of a page lose their blanks but keep their case, and a window of
them is no longer than 80.  The target has its case folded, keeps its blanks
and has any length.
-/

namespace Flydocs

open Foundation

namespace Bbox

namespace ValueMatcher

variable {matcher : ValueMatcher}

/-! ## Windows of characters -/

def pageCharacters (tables : UnicodeTables) (page : PageWords) : List Char :=
  (tables.characters page.words).map Prod.fst

/--
The target occurs on the page and is short enough for a window.  A variant of
a spaced script reads perfectly where a window of words rounds to 1.
-/
def Reads (matcher : ValueMatcher) (target : String) (page : PageWords) :
    Prop :=
  if matcher.tables.isUnspaced target = true then
    target.length ≤ 80 ∧
      target.toList <:+: pageCharacters matcher.tables page
  else
    ∃ window ∈ matcher.tables.spacedWindows target page.words,
      matcher.threshold.val ≤ matcher.score target window ∧
      roundScore (matcher.score target window) = 1

theorem ne_empty_of_isUnspaced {tables : UnicodeTables} {target : String}
    (h : tables.isUnspaced target = true) : target ≠ "" := by
  rintro rfl
  simp [UnicodeTables.isUnspaced] at h

theorem lengths_pos {first second : String} (h : first ≠ second) :
    0 < first.length + second.length := by
  by_contra hzero
  obtain ⟨hfirst, hsecond⟩ : first.toList = [] ∧ second.toList = [] := by
    simp only [← List.length_eq_zero_iff, String.length_toList]
    omega
  exact h (String.toList_injective (hfirst.trans hsecond.symm))

theorem score_le_of_length {target : String} {window : Window}
    (happart : matcher.fuzz.Apart) (hne : window.text ≠ target)
    (hlength : target.length + window.text.length ≤ 162) :
    matcher.score target window ≤ 994 / 1000 := by
  have hratio := happart target window.text (Ne.symm hne)
  have hpos : (0 : Rat) <
      ((target.length + window.text.length : Nat) : Rat) := by
    exact_mod_cast lengths_pos (Ne.symm hne)
  have hle : ((target.length + window.text.length : Nat) : Rat) ≤ 162 := by
    exact_mod_cast hlength
  have hedit : (100 : Rat) / 162 ≤
      100 / ((target.length + window.text.length : Nat) : Rat) :=
    div_le_div_of_nonneg_left (by norm_num) hpos hle
  rw [score, div_le_iff₀ (by norm_num)]
  calc matcher.fuzz.ratio target window.text
      ≤ 100 - 100 / ((target.length + window.text.length : Nat) : Rat) :=
        hratio
    _ ≤ 100 - 100 / 162 := sub_le_sub_left hedit _
    _ ≤ 994 / 1000 * 100 := by norm_num

theorem roundScore_994 : roundScore (994 / 1000) = 994 / 1000 := by
  have hround := PythonNumber.roundTo_div_pow 4 9940
  have hunit : min 1 (max 0 (994 / 1000 : Rat)) = 994 / 1000 := by norm_num
  rw [roundScore, hunit]
  norm_num at hround ⊢
  exact hround

theorem text_eq_of_close {target : String} {words : List Word}
    {window : Window} (happart : matcher.fuzz.Apart)
    (hwindow : window ∈ matcher.tables.unspacedWindows target words)
    (hbar : perfectBar ≤ roundScore (matcher.score target window)) :
    window.text = target := by
  obtain ⟨slice, hwithin, hsize, rfl⟩ := mem_unspacedWindows_iff.mp hwindow
  by_contra hne
  have hlength : target.length +
      (String.ofList (slice.map Prod.fst)).length ≤ 162 := by
    simp only [unspacedSizes, List.mem_range'_1] at hsize
    rw [← String.length_toList (s := String.ofList _), String.toList_ofList,
      List.length_map]
    omega
  have hscore := roundScore_mono (score_le_of_length happart hne hlength)
  rw [roundScore_994] at hscore
  exact absurd (hbar.trans hscore) (by norm_num [perfectBar])

theorem exists_window_of_infix {target : String} {page : PageWords}
    (hne : target ≠ "") (hshort : target.length ≤ 80)
    (h : target.toList <:+: pageCharacters matcher.tables page) :
    ∃ window ∈ matcher.tables.unspacedWindows target page.words,
      window.text = target := by
  obtain ⟨before, after, hchars⟩ := h
  obtain ⟨kept, rest, hpage, hkept, -⟩ :=
    List.map_eq_append_iff.mp hchars.symm
  obtain ⟨first, slice, rfl, -, hslice⟩ := List.map_eq_append_iff.mp hkept
  have hlength : slice.length = target.length := by
    rw [← String.length_toList, ← hslice, List.length_map]
  have hpos : target.length ≠ 0 := by
    rw [← String.length_toList]
    simpa using hne
  refine ⟨_, mem_unspacedWindows_iff.mpr ⟨slice, ⟨first, rest, ?_⟩, ?_, rfl⟩, ?_⟩
  · rw [hpage]
  · simp only [unspacedSizes, List.mem_range'_1, hlength]
    omega
  · rw [hslice, String.ofList_toList]

theorem reads_of_close {target : String} {page : PageWords}
    (happart : matcher.fuzz.Apart)
    (hunspaced : matcher.tables.isUnspaced target = true)
    (h : matcher.Close target page) : matcher.Reads target page := by
  obtain ⟨window, hwindow, -, hbar⟩ := h
  rw [UnicodeTables.windows, if_pos hunspaced] at hwindow
  have htext := text_eq_of_close happart hwindow hbar
  obtain ⟨slice, hwithin, hsize, rfl⟩ := mem_unspacedWindows_iff.mp hwindow
  have hslice : slice.map Prod.fst = target.toList := by
    rw [← htext, String.toList_ofList]
  have hlength : slice.length = target.length := by
    rw [← String.length_toList, ← hslice, List.length_map]
  rw [Reads, if_pos hunspaced]
  constructor
  · simp only [unspacedSizes, List.mem_range'_1] at hsize
    omega
  · rw [← hslice]
    exact hwithin.map Prod.fst

theorem exists_perfect_of_reads {target : String} {page : PageWords}
    (h : matcher.Reads target page) :
    ∃ window ∈ matcher.tables.windows target page.words,
      matcher.threshold.val ≤ matcher.score target window ∧
      roundScore (matcher.score target window) = 1 := by
  unfold Reads at h
  unfold UnicodeTables.windows
  split at h
  · rename_i hunspaced
    rw [if_pos hunspaced]
    obtain ⟨window, hwindow, htext⟩ := exists_window_of_infix
      (ne_empty_of_isUnspaced hunspaced) h.1 h.2
    refine ⟨window, hwindow, ?_⟩
    rw [score_eq_one_iff.mpr htext, roundScore_one]
    exact ⟨matcher.threshold.2.2, rfl⟩
  · rename_i hunspaced
    rw [if_neg hunspaced]
    exact h

theorem reads_iff {target : String} {page : PageWords}
    (happart : matcher.fuzz.Apart) :
    matcher.Reads target page ↔
      ∃ found, matcher.bestMatchOnPage target page = some found ∧
        found.score = 1 := by
  constructor
  · intro h
    obtain ⟨window, hwindow, hthreshold, hround⟩ := exists_perfect_of_reads h
    have hbar : perfectBar ≤ roundScore (matcher.score target window) := by
      rw [hround]
      exact perfectBar_le_one
    obtain ⟨found, hfound, hle⟩ := exists_bestMatchOnPage hwindow hthreshold
      (score_pos_of_bar hbar)
    obtain ⟨best, -, -, -, hunion⟩ := bestMatchOnPage_spec hfound
    refine ⟨found, hfound, le_antisymm ?_ (hround ▸ hle)⟩
    rw [(page_of_unionBbox hunion).2]
    exact roundScore_le_one _
  · rintro ⟨found, hfound, hscore⟩
    obtain ⟨window, hwindow, hthreshold, -, hunion⟩ :=
      bestMatchOnPage_spec hfound
    rw [(page_of_unionBbox hunion).2] at hscore
    by_cases hunspaced : matcher.tables.isUnspaced target = true
    · refine reads_of_close happart hunspaced ⟨window, hwindow, hthreshold, ?_⟩
      rw [hscore]
      exact perfectBar_le_one
    · rw [UnicodeTables.windows, if_neg hunspaced] at hwindow
      rw [Reads, if_neg hunspaced]
      exact ⟨window, hwindow, hthreshold, hscore⟩

/-! ## The search -/

/-- A variant of a spaced script comes close to a page without reading it. -/
def NearMiss (matcher : ValueMatcher) (target : String) (page : PageWords) :
    Prop :=
  matcher.tables.isUnspaced target = false ∧ matcher.Close target page ∧
    ¬ matcher.Reads target page

/-- Some attempt reads its page, and none before it is a near miss. -/
def ReadsInTime (matcher : ValueMatcher) (value : String)
    (scope : List PageWords) : Prop :=
  ∃ before attempt after,
    matcher.attempts value scope = before ++ attempt :: after ∧
      matcher.Reads attempt.2 attempt.1 ∧
      ∀ other ∈ before, ¬ matcher.NearMiss other.2 other.1

def LocatesPerfectly (matcher : ValueMatcher) (value : String)
    (pages : List PageWords) (candidates : Option (List Int)) : Prop :=
  ∃ found, matcher.locate value pages candidates = some found ∧
    found.score = 1

theorem not_below_of_reads {target : String} {page : PageWords}
    (happart : matcher.fuzz.Apart) (h : matcher.Reads target page) :
    ¬ Below MatchResult.score perfectBar
      (matcher.bestMatchOnPage target page) := by
  obtain ⟨found, hfound, hscore⟩ := (reads_iff happart).mp h
  intro hbelow
  have hlt := hbelow found hfound
  rw [hscore] at hlt
  exact hlt.not_ge perfectBar_le_one

theorem readsInTime_of_locatesPerfectly (happart : matcher.fuzz.Apart)
    {value : String} {pages : List PageWords} {candidates : Option (List Int)}
    (h : matcher.LocatesPerfectly value pages candidates) :
    matcher.ReadsInTime value (inScope pages candidates) := by
  obtain ⟨found, hlocate, hscore⟩ := h
  have hbar : perfectBar ≤ found.score := by
    rw [hscore]
    exact perfectBar_le_one
  obtain ⟨before, attempt, after, hattempts, hfound, -, hbefore⟩ :=
    firstReaching_of_locate hlocate hbar
  refine ⟨before, attempt, after, hattempts,
    (reads_iff happart).mpr ⟨found, hfound, hscore⟩, ?_⟩
  rintro other hother ⟨-, hclose, -⟩
  exact below_iff.mp (hbefore other hother) hclose

theorem reads_of_not_nearMiss {target : String} {page : PageWords}
    (happart : matcher.fuzz.Apart) (hmiss : ¬ matcher.NearMiss target page)
    (hclose : matcher.Close target page) : matcher.Reads target page := by
  by_cases hunspaced : matcher.tables.isUnspaced target = true
  · exact reads_of_close happart hunspaced hclose
  · by_contra hnot
    exact hmiss ⟨by simpa using hunspaced, hclose, hnot⟩

theorem locatesPerfectly_of_readsInTime (happart : matcher.fuzz.Apart)
    {value : String} {pages : List PageWords} {candidates : Option (List Int)}
    (hne : matcher.tables.normalise true value ≠ "")
    (h : matcher.ReadsInTime value (inScope pages candidates)) :
    matcher.LocatesPerfectly value pages candidates := by
  obtain ⟨before, attempt, after, hattempts, hreads, hbefore⟩ := h
  have hreached : ∃ other ∈ before ++ [attempt],
      ¬ Below MatchResult.score perfectBar
        (matcher.bestMatchOnPage other.2 other.1) :=
    ⟨attempt, by simp, not_below_of_reads happart hreads⟩
  obtain ⟨found, hfirst⟩ := exists_firstReaching hreached
  have hall := hfirst.append after
  rw [List.append_assoc, List.singleton_append, ← hattempts] at hall
  refine ⟨found, ?_, ?_⟩
  · rw [locate, if_neg hne]
    exact ((searchUntil_reaches_iff (by simp [Below])).mpr hall).1
  · obtain ⟨done, item, later, hitems, hfound, hbar, -⟩ := hfirst
    have hitem : item ∈ before ++ [attempt] := by
      rw [hitems]
      simp
    have hitemReads : matcher.Reads item.2 item.1 := by
      rcases List.mem_append.mp hitem with hearly | hlast
      · exact reads_of_not_nearMiss happart (hbefore item hearly)
          (close_of_reaching hfound hbar)
      · rw [List.mem_singleton.mp hlast]
        exact hreads
    obtain ⟨other, hother, hscore⟩ := (reads_iff happart).mp hitemReads
    obtain rfl : found = other := Option.some.inj (hfound.symm.trans hother)
    exact hscore

/--
A target of a script without blanks gets a perfect score exactly when it, or a
variant of it, reads a page in time.
-/
theorem locate_unspaced_iff (happart : matcher.fuzz.Apart) {value : String}
    (hunspaced : matcher.tables.isUnspaced
      (matcher.tables.normalise true value) = true)
    (pages : List PageWords) (candidates : Option (List Int)) :
    matcher.LocatesPerfectly value pages candidates ↔
      matcher.ReadsInTime value (inScope pages candidates) :=
  ⟨readsInTime_of_locatesPerfectly happart,
    locatesPerfectly_of_readsInTime happart (ne_empty_of_isUnspaced hunspaced)⟩

theorem asciiMatcher_apart : asciiMatcher.fuzz.Apart := Fuzz.indel_apart

def countryPage : PageWords := ⟨1, [wordOf "中国"], .pdfText⟩

theorem countryPage_located :
    asciiMatcher.LocatesPerfectly "中国" [countryPage] none :=
  (locate_unspaced_iff asciiMatcher_apart
    (show asciiMatcher.tables.isUnspaced (asciiMatcher.tables.normalise true
      "中国") = true by decide) [countryPage] none).mpr
    ⟨[], (countryPage, "中国"), [], by decide, by
      rw [Reads, if_pos (by decide)]
      exact ⟨by decide, [], [], by decide⟩, by simp⟩

def inkOf (tables : UnicodeTables) (text : String) : List Char :=
  (tables.normalise true text).toList.filter fun char =>
    !PythonText.isSpace char

/-- Some page has the characters of the value, normalised as the value is. -/
def OccursOn (tables : UnicodeTables) (value : String)
    (scope : List PageWords) : Prop :=
  ∃ page ∈ scope, inkOf tables value <:+:
    page.words.flatMap fun word => inkOf tables word.text

def capitalPage : PageWords := ⟨1, [wordOf "中A"], .pdfText⟩

theorem capitalPage_not_read :
    ¬ asciiMatcher.ReadsInTime "中A" [capitalPage] := by
  rintro ⟨before, attempt, after, hattempts, hreads, -⟩
  have honly : asciiMatcher.attempts "中A" [capitalPage] =
      [(capitalPage, "中a")] := by decide
  rw [honly] at hattempts
  have hmem : attempt ∈ [(capitalPage, "中a")] := by
    rw [hattempts]
    simp
  rw [List.mem_singleton.mp hmem] at hreads
  have hscript : asciiMatcher.tables.isUnspaced "中a" = true := by decide
  have hchars : pageCharacters asciiMatcher.tables capitalPage =
      ['中', 'A'] := by decide
  simp only [Reads, hscript, if_true, hchars] at hreads
  exact absurd hreads.2 (by decide)

theorem not_locate_unspaced :
    ¬ ∀ (matcher : ValueMatcher) (value : String) (pages : List PageWords)
      (candidates : Option (List Int)), matcher.fuzz.Apart →
      matcher.tables.isUnspaced (matcher.tables.normalise true value) = true →
      OccursOn matcher.tables value (inScope pages candidates) →
      matcher.LocatesPerfectly value pages candidates := by
  intro h
  have hoccurs : OccursOn asciiMatcher.tables "中A" [capitalPage] :=
    ⟨capitalPage, List.mem_singleton_self _, [], [], by decide⟩
  have hlocated : asciiMatcher.LocatesPerfectly "中A" [capitalPage] none :=
    h asciiMatcher "中A" [capitalPage] none asciiMatcher_apart (by decide) hoccurs
  exact capitalPage_not_read
    (readsInTime_of_locatesPerfectly asciiMatcher_apart hlocated)

end ValueMatcher

end Bbox

end Flydocs
