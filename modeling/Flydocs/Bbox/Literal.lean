import Flydocs.Bbox.ValueMatcher

/-!
# Literal occurrences

The search ends at the first page on which some variant of the value comes
within a thousandth of a perfect score, and there at the first such variant.
A page that reads the value literally makes its first variant, the literal, do.
-/

namespace Flydocs

open Foundation

namespace Bbox

namespace ValueMatcher

variable {matcher : ValueMatcher}

/-! ## Close windows -/

/-- Some window of the page scores enough to end the search. -/
def Close (matcher : ValueMatcher) (target : String) (page : PageWords) :
    Prop :=
  ∃ window ∈ matcher.tables.windows target page.words,
    matcher.threshold.val ≤ matcher.score target window ∧
    perfectBar ≤ roundScore (matcher.score target window)

theorem score_pos_of_bar {target : String} {window : Window}
    (h : perfectBar ≤ roundScore (matcher.score target window)) :
    0 < matcher.score target window := by
  rcases (matcher.score_nonneg target window).lt_or_eq with hpos | hzero
  · exact hpos
  · rw [← hzero, roundScore_zero] at h
    exact absurd h perfectBar_pos.not_ge

theorem below_iff {target : String} {page : PageWords} :
    Below MatchResult.score perfectBar (matcher.bestMatchOnPage target page) ↔
      ¬ matcher.Close target page := by
  constructor
  · rintro hbelow ⟨window, hwindow, hthreshold, hbar⟩
    obtain ⟨found, hfound, hle⟩ := exists_bestMatchOnPage hwindow hthreshold
      (score_pos_of_bar hbar)
    exact (hbelow found hfound).not_ge (hbar.trans hle)
  · intro hclose found hfound
    obtain ⟨window, hwindow, hthreshold, -, hunion⟩ :=
      bestMatchOnPage_spec hfound
    by_contra hbar
    rw [not_lt, (page_of_unionBbox hunion).2] at hbar
    exact hclose ⟨window, hwindow, hthreshold, hbar⟩

theorem close_of_reaching {target : String} {page : PageWords}
    {found : MatchResult}
    (hfound : matcher.bestMatchOnPage target page = some found)
    (hbar : perfectBar ≤ found.score) : matcher.Close target page := by
  by_contra hclose
  exact (below_iff.mpr hclose found hfound).not_ge hbar

/-! ## Literal windows -/

/-- Some window of the page reads the normalised value, blank words aside. -/
def ReadsLiterally (matcher : ValueMatcher) (value : String)
    (page : PageWords) : Prop :=
  ∃ window ∈ matcher.tables.spacedWindows
      (matcher.tables.normalise true value) page.words,
    window.text = matcher.tables.normalise true value

def LiteralMatch (matcher : ValueMatcher) (value : String)
    (scope : List PageWords) (found : MatchResult) : Prop :=
  ∃ page ∈ scope, ∃ window ∈ matcher.tables.spacedWindows
      (matcher.tables.normalise true value) page.words,
    window.text = matcher.tables.normalise true value ∧
    unionBbox window.words 1 page.page = some found

theorem intercalate_split_normalise (tables : UnicodeTables) (casefold : Bool)
    (value : String) :
    " ".intercalate (PythonText.split (tables.normalise casefold value)) =
      tables.normalise casefold value := by
  let out := if casefold then tables.casefold (tables.nfc value)
    else tables.nfc value
  obtain ⟨parts, hparts, hinked⟩ := PythonText.stripWhile_subRuns out.toList
  have htext : (tables.normalise casefold value).toList =
      [' '].intercalate parts := by
    rw [← hparts]
    simp [UnicodeTables.normalise, PythonText.strip, collapse, out]
  exact PythonText.intercalate_split htext hinked

theorem readsLiterally_of_infix {value : String} {page : PageWords}
    (hne : matcher.tables.normalise true value ≠ "")
    (hshort :
      (PythonText.split (matcher.tables.normalise true value)).length ≤ 12)
    (h : PythonText.split (matcher.tables.normalise true value) <:+:
      page.words.map fun word => matcher.tables.normalise true word.text) :
    matcher.ReadsLiterally value page := by
  obtain ⟨before, after, hwords⟩ := h
  obtain ⟨kept, rest, hpage, hkept, -⟩ :=
    List.map_eq_append_iff.mp hwords.symm
  obtain ⟨first, slice, rfl, -, hslice⟩ := List.map_eq_append_iff.mp hkept
  have hjoin := intercalate_split_normalise matcher.tables true value
  have hall : ∀ part ∈
      PythonText.split (matcher.tables.normalise true value), part ≠ "" :=
    fun part => PythonText.ne_empty_of_mem_split
  have htext : matcher.tables.windowText slice =
      matcher.tables.normalise true value := by
    rw [UnicodeTables.windowText, hslice,
      List.filter_eq_self.mpr (by simpa using hall), hjoin]
  have hlength : slice.length =
      (PythonText.split (matcher.tables.normalise true value)).length := by
    rw [← hslice, List.length_map]
  have hpos : 0 < slice.length := by
    rw [hlength, List.length_pos_iff]
    intro hempty
    rw [hempty] at hjoin
    exact hne (by simpa using hjoin.symm)
  refine ⟨⟨matcher.tables.windowText slice, slice⟩,
    mem_spacedWindows_iff.mpr ⟨?_, ?_, rfl, by rwa [htext]⟩, htext⟩
  · exact ⟨first, rest, by rw [hpage]⟩
  · simp only [spacedSizes, List.mem_range'_1, ← hlength]
    omega

/-! ## The search -/

theorem variants_eq_cons (tables : UnicodeTables) {value : String}
    (hne : tables.normalise true value ≠ "") :
    ∃ others, tables.variants value =
      tables.normalise true value :: others := by
  unfold UnicodeTables.variants
  simp only [if_neg hne]
  split <;> split <;> exact ⟨_, rfl⟩

def ClosePage (matcher : ValueMatcher) (value : String) (page : PageWords) :
    Prop :=
  ∃ variant ∈ matcher.tables.variants value, matcher.Close variant page

theorem words_ne_nil_of_close {target : String} {page : PageWords}
    (h : matcher.Close target page) : page.words ≠ [] := by
  obtain ⟨window, hwindow, -⟩ := h
  obtain ⟨hne, hsub⟩ := words_of_mem_windows hwindow
  rintro hempty
  rw [hempty] at hsub
  exact hne (List.subset_nil.mp hsub)

theorem mem_attempts_iff {value variant : String} {page : PageWords}
    {scope : List PageWords} :
    (page, variant) ∈ matcher.attempts value scope ↔
      (page ∈ scope ∧ page.words ≠ []) ∧
        variant ∈ matcher.tables.variants value := by
  simp [attempts]

theorem attempts_append (value : String) (first second : List PageWords) :
    matcher.attempts value (first ++ second) =
      matcher.attempts value first ++ matcher.attempts value second := by
  simp [attempts]

theorem attempts_cons {value : String} {page : PageWords}
    (hwords : page.words ≠ []) (scope : List PageWords) :
    matcher.attempts value (page :: scope) =
      ((matcher.tables.variants value).map fun variant => (page, variant)) ++
        matcher.attempts value scope := by
  simp [attempts, hwords]

/-- Every close page stands at a page that reads the value, or after one. -/
def Undisturbed (matcher : ValueMatcher) (value : String)
    (scope : List PageWords) : Prop :=
  ∀ before page after, scope = before ++ page :: after →
    matcher.ClosePage value page →
    ∃ literal ∈ before ++ [page], matcher.ReadsLiterally value literal

def LocatesLiteral (matcher : ValueMatcher) (value : String)
    (pages : List PageWords) (candidates : Option (List Int)) : Prop :=
  ∃ found, matcher.locate value pages candidates = some found ∧
    matcher.LiteralMatch value (inScope pages candidates) found

theorem literal_bestMatch {value : String} {page : PageWords}
    (hspaced : matcher.tables.isUnspaced
      (matcher.tables.normalise true value) = false)
    (hreads : matcher.ReadsLiterally value page) :
    ∃ found, matcher.bestMatchOnPage (matcher.tables.normalise true value)
        page = some found ∧ perfectBar ≤ found.score ∧
      ∃ window ∈ matcher.tables.spacedWindows
          (matcher.tables.normalise true value) page.words,
        window.text = matcher.tables.normalise true value ∧
        unionBbox window.words 1 page.page = some found := by
  obtain ⟨window, hwindow, htext⟩ := hreads
  have hwindows : matcher.tables.windows
      (matcher.tables.normalise true value) page.words =
      matcher.tables.spacedWindows (matcher.tables.normalise true value)
        page.words := by
    simp [UnicodeTables.windows, hspaced]
  have hscore : matcher.score (matcher.tables.normalise true value) window = 1 :=
    score_eq_one_iff.mpr htext
  rw [← hwindows] at hwindow
  obtain ⟨found, hfound, hle⟩ := exists_bestMatchOnPage hwindow
    (by rw [hscore]; exact matcher.threshold.2.2) (by rw [hscore]; decide)
  rw [hscore, roundScore_one] at hle
  obtain ⟨best, hbest, -, hmax, hunion⟩ := bestMatchOnPage_spec hfound
  have hone : matcher.score (matcher.tables.normalise true value) best = 1 :=
    le_antisymm (matcher.score_le_one _ _) (hscore ▸ hmax window hwindow)
  rw [hone] at hunion
  rw [hwindows] at hbest
  exact ⟨found, hfound, perfectBar_le_one.trans hle,
    best, hbest, score_eq_one_iff.mp hone, hunion⟩

theorem exists_first_literal {value : String} {scope : List PageWords}
    (h : ∃ page ∈ scope, matcher.ReadsLiterally value page) :
    ∃ before page after, scope = before ++ page :: after ∧
      matcher.ReadsLiterally value page ∧
      ∀ other ∈ before, ¬ matcher.ReadsLiterally value other := by
  classical
  have hfind : (scope.find? fun page =>
      decide (matcher.ReadsLiterally value page)).isSome := by
    simpa [List.find?_isSome] using h
  obtain ⟨page, hpage⟩ := Option.isSome_iff_exists.mp hfind
  obtain ⟨hreads, before, after, hscope, hbefore⟩ :=
    List.find?_eq_some_iff_append.mp hpage
  exact ⟨before, page, after, hscope, by simpa using hreads,
    by simpa using hbefore⟩

theorem locatesLiteral_of_undisturbed {value : String}
    {pages : List PageWords} {candidates : Option (List Int)}
    (hne : matcher.tables.normalise true value ≠ "")
    (hspaced : matcher.tables.isUnspaced
      (matcher.tables.normalise true value) = false)
    (hreads : ∃ page ∈ inScope pages candidates,
      matcher.ReadsLiterally value page)
    (h : matcher.Undisturbed value (inScope pages candidates)) :
    matcher.LocatesLiteral value pages candidates := by
  obtain ⟨before, page, after, hscope, hpage, hbefore⟩ :=
    exists_first_literal hreads
  obtain ⟨found, hfound, hbar, window, hwindow, htext, hunion⟩ :=
    literal_bestMatch hspaced hpage
  have hwords : page.words ≠ [] :=
    words_ne_nil_of_close (close_of_reaching hfound hbar)
  obtain ⟨others, hvariants⟩ := variants_eq_cons matcher.tables hne
  refine ⟨found, ?_, page, by rw [hscope]; simp, window, hwindow, htext,
    hunion⟩
  have hfirst : FirstReaching
      (fun attempt => matcher.bestMatchOnPage attempt.2 attempt.1)
      MatchResult.score perfectBar
      (matcher.attempts value (inScope pages candidates)) found := by
    rw [hscope, attempts_append, attempts_cons hwords, hvariants]
    refine ⟨matcher.attempts value before,
      (page, matcher.tables.normalise true value), _, rfl, hfound, hbar, ?_⟩
    rintro ⟨other, variant⟩ hother
    obtain ⟨⟨hmem, -⟩, hvariant⟩ := mem_attempts_iff.mp hother
    refine below_iff.mpr fun hclose => ?_
    -- No page up to this one reads the value, so none may be close.
    obtain ⟨first, rest, rfl⟩ := List.append_of_mem hmem
    obtain ⟨literal, hliteral, hreads⟩ := h first other (rest ++ page :: after)
      (by rw [hscope]; simp) ⟨variant, hvariant, hclose⟩
    have hinitial : first ++ [other] <+: first ++ other :: rest :=
      ⟨rest, by simp⟩
    exact hbefore literal (hinitial.subset hliteral) hreads
  rw [locate, if_neg hne]
  exact ((searchUntil_reaches_iff (by simp [Below])).mpr hfirst).1

theorem firstReaching_of_locate {value : String}
    {pages : List PageWords} {candidates : Option (List Int)}
    {found : MatchResult}
    (hlocate : matcher.locate value pages candidates = some found)
    (hbar : perfectBar ≤ found.score) :
    FirstReaching (fun attempt => matcher.bestMatchOnPage attempt.2 attempt.1)
      MatchResult.score perfectBar
      (matcher.attempts value (inScope pages candidates)) found := by
  unfold locate at hlocate
  split at hlocate
  · cases hlocate
  · exact (searchUntil_reaches_iff (by simp [Below])).mp ⟨hlocate, hbar⟩

theorem sublist_inScope (pages : List PageWords)
    (candidates : Option (List Int)) :
    (inScope pages candidates).Sublist pages := by
  unfold inScope
  split
  · exact List.Sublist.refl _
  · exact List.Sublist.refl _
  · simp only
    split
    · exact List.filter_sublist
    · exact List.Sublist.refl _

theorem undisturbed_of_locatesLiteral {value : String}
    {pages : List PageWords} {candidates : Option (List Int)}
    (hnodup : (pages.map PageWords.page).Nodup)
    (h : matcher.LocatesLiteral value pages candidates) :
    matcher.Undisturbed value (inScope pages candidates) := by
  obtain ⟨found, hlocate, literal, hliteral, window, hwindow, htext, hunion⟩ := h
  have hscore : found.score = 1 := by
    rw [(page_of_unionBbox hunion).2, roundScore_one]
  have hbar : perfectBar ≤ found.score := by
    rw [hscore]
    exact perfectBar_le_one
  have hfirst := firstReaching_of_locate hlocate hbar
  rintro before page after hscope ⟨variant, hvariant, hclose⟩
  have hsplit : inScope pages candidates = (before ++ [page]) ++ after := by
    rw [hscope]
    simp
  rw [hsplit, attempts_append] at hfirst
  have hreached : ∃ attempt ∈ matcher.attempts value (before ++ [page]),
      ¬ Below MatchResult.score perfectBar
        (matcher.bestMatchOnPage attempt.2 attempt.1) :=
    ⟨(page, variant), mem_attempts_iff.mpr
      ⟨⟨by simp, words_ne_nil_of_close hclose⟩, hvariant⟩,
      fun hbelow => below_iff.mp hbelow hclose⟩
  obtain ⟨done, ⟨other, ended⟩, later, hattempts, hfound, -, -⟩ :=
    hfirst.of_append hreached
  have hother : other ∈ before ++ [page] :=
    (mem_attempts_iff.mp (show (other, ended) ∈
      matcher.attempts value (before ++ [page]) by rw [hattempts]; simp)).1.1
  -- The search ended on `other`, so the literal window stands there.
  obtain ⟨best, -, -, -, hbest⟩ := bestMatchOnPage_spec hfound
  have hpages : other.page = literal.page :=
    (page_of_unionBbox hbest).1.symm.trans (page_of_unionBbox hunion).1
  have hsublist := sublist_inScope pages candidates
  have hmem : other ∈ inScope pages candidates := by
    rw [hsplit]
    exact List.mem_append_left _ hother
  obtain rfl : other = literal := List.inj_on_of_nodup_map hnodup
    (hsublist.subset hmem) (hsublist.subset hliteral) hpages
  exact ⟨other, hother, window, hwindow, htext⟩

/--
A literal occurrence wins where no page before the first one that has it comes
close; with one entry for each page number, only there.
-/
theorem locate_literal (matcher : ValueMatcher) (value : String)
    (pages : List PageWords) (candidates : Option (List Int))
    (hne : matcher.tables.normalise true value ≠ "")
    (hspaced : matcher.tables.isUnspaced
      (matcher.tables.normalise true value) = false)
    (hshort :
      (PythonText.split (matcher.tables.normalise true value)).length ≤ 12)
    (hoccurs : ∃ page ∈ inScope pages candidates,
      PythonText.split (matcher.tables.normalise true value) <:+:
        page.words.map fun word => matcher.tables.normalise true word.text) :
    (matcher.Undisturbed value (inScope pages candidates) →
      matcher.LocatesLiteral value pages candidates) ∧
    ((pages.map PageWords.page).Nodup →
      matcher.LocatesLiteral value pages candidates →
      matcher.Undisturbed value (inScope pages candidates)) := by
  refine ⟨locatesLiteral_of_undisturbed hne hspaced ?_,
    undisturbed_of_locatesLiteral⟩
  obtain ⟨page, hpage, hwithin⟩ := hoccurs
  exact ⟨page, hpage, readsLiterally_of_infix hne hshort hwithin⟩

/-! ## A number in two formats -/

def asciiTables : UnicodeTables where
  nfc text := text
  casefold text := String.ofList (text.toList.map Char.toLower)
  isAlpha := Char.isAlpha
  isDigit := Char.isDigit

def asciiMatcher : ValueMatcher where
  tables := asciiTables
  fuzz := .indel
  threshold := ⟨17 / 20, by norm_num⟩

def wordOf (text : String) : Word where
  text := text
  xmin := 0
  ymin := 0
  xmax := 1
  ymax := 1

def numberPage : PageWords := ⟨2, [wordOf "12.345,67"], .pdfText⟩

theorem numberPage_occurs :
    PythonText.split (asciiMatcher.tables.normalise true "12.345,67") <:+:
      numberPage.words.map fun word =>
        asciiMatcher.tables.normalise true word.text :=
  ⟨[], [], by decide +kernel⟩

/-- A page with the bare digits stands before the page with the number. -/
def numberPages : List PageWords :=
  [⟨1, [wordOf "1234567"], .pdfText⟩, numberPage]

theorem numberPages_disturbed :
    ¬ asciiMatcher.Undisturbed "12.345,67" numberPages := by
  intro h
  have hscore : asciiMatcher.score "1234567"
      ⟨"1234567", [wordOf "1234567"]⟩ = 1 := score_eq_one_iff.mpr rfl
  obtain ⟨literal, hliteral, window, hwindow, htext⟩ := h []
    ⟨1, [wordOf "1234567"], .pdfText⟩ _ rfl
    ⟨"1234567", by decide, ⟨"1234567", [wordOf "1234567"]⟩, by decide,
      by rw [hscore]; exact asciiMatcher.threshold.2.2,
      by rw [hscore, roundScore_one]; exact perfectBar_le_one⟩
  have hnone : ∀ window ∈ asciiTables.spacedWindows "12.345,67"
      [wordOf "1234567"], window.text ≠ "12.345,67" := by decide
  rw [List.mem_singleton.mp hliteral] at hwindow
  exact hnone window hwindow htext

theorem not_locate_literal :
    ¬ ∀ (matcher : ValueMatcher) (value : String) (pages : List PageWords)
      (candidates : Option (List Int)),
      matcher.tables.normalise true value ≠ "" →
      matcher.tables.isUnspaced (matcher.tables.normalise true value) = false →
      (PythonText.split (matcher.tables.normalise true value)).length ≤ 12 →
      (∃ page ∈ inScope pages candidates,
        PythonText.split (matcher.tables.normalise true value) <:+:
          page.words.map fun word =>
            matcher.tables.normalise true word.text) →
      matcher.LocatesLiteral value pages candidates := by
  intro h
  have hlocates : asciiMatcher.LocatesLiteral "12.345,67" numberPages none := by
    refine h asciiMatcher "12.345,67" numberPages none (by decide) (by decide)
      (by decide) ⟨numberPage, ?_, numberPage_occurs⟩
    exact List.mem_cons_of_mem _ (List.mem_singleton_self _)
  exact numberPages_disturbed
    (undisturbed_of_locatesLiteral (by decide) hlocates)

theorem numberPage_undisturbed :
    asciiMatcher.Undisturbed "12.345,67" [numberPage] := by
  intro before page after hscope _
  have hmem : page ∈ [numberPage] := by
    rw [hscope]
    simp
  obtain rfl := List.mem_singleton.mp hmem
  refine ⟨numberPage, by simp, ?_⟩
  exact readsLiterally_of_infix (by decide) (by decide) numberPage_occurs

/-- Alone, the page with the number is where the search ends. -/
theorem locate_literal_number :
    asciiMatcher.LocatesLiteral "12.345,67" [numberPage] none :=
  (locate_literal asciiMatcher "12.345,67" [numberPage] none (by decide)
    (by decide) (by decide)
    ⟨numberPage, List.mem_singleton_self _, numberPage_occurs⟩).1
    numberPage_undisturbed

end ValueMatcher

end Bbox

end Flydocs
