import Mathlib.Order.WithBot
import Mathlib.Tactic.NormNum
import Flydocs.Bbox.BboxRefiner
import Flydocs.Foundation.BestHit
import Flydocs.Foundation.Indel
import Flydocs.Foundation.Slices

/-!
# The fuzzy matcher

A target is compared with the windows of a page: runs of words, or runs of
characters in a script that puts no blanks between its words.  The Unicode
tables and the similarity of two texts are the matcher's parameters.
-/

namespace Flydocs

open Foundation Dtos

namespace Bbox

structure UnicodeTables where
  nfc : String → String
  casefold : String → String
  isAlpha : Char → Bool
  isDigit : Char → Bool

/-- `fuzz.ratio`, the similarity of two texts in percent. -/
structure Fuzz where
  ratio : String → String → Rat
  nonneg : ∀ first second, 0 ≤ ratio first second
  self : ∀ text, ratio text text = 100
  ratio_lt : ∀ first second, first ≠ second → ratio first second < 100

/-- Texts that differ lie at least one insertion or deletion apart. -/
def Fuzz.Apart (fuzz : Fuzz) : Prop :=
  ∀ first second, first ≠ second → fuzz.ratio first second ≤
    100 - 100 / ((first.length + second.length : Nat) : Rat)

theorem toList_ne {first second : String} (h : first ≠ second) :
    first.toList ≠ second.toList :=
  fun heq => h (String.toList_injective heq)

def Fuzz.indel : Fuzz where
  ratio first second := indelRatio first.toList second.toList
  nonneg _ _ := indelRatio_nonneg _ _
  self _ := indelRatio_self _
  ratio_lt _ _ h := indelRatio_lt_of_ne (toList_ne h)

theorem Fuzz.indel_apart : Fuzz.indel.Apart := by
  intro first second h
  have hle := indelRatio_le_of_ne (toList_ne h)
  simp only [String.length_toList] at hle
  exact hle

/-! ## Normalised texts -/

def unspacedRanges : List (Nat × Nat) :=
  [(0x4E00, 0x9FFF), (0x3400, 0x4DBF), (0x20000, 0x2A6DF), (0x3040, 0x30FF),
    (0xAC00, 0xD7AF), (0x0E00, 0x0E7F), (0x0E80, 0x0EFF), (0x1780, 0x17FF)]

def isUnspacedCodepoint (char : Char) : Bool :=
  unspacedRanges.any fun range =>
    decide (range.1 ≤ char.toNat ∧ char.toNat ≤ range.2)

def isPunctuation (char : Char) : Bool :=
  char ∈ ['.', ',', ';', ':', '(', ')', '[', ']', '\x7b', '\x7d', '/', '\\',
    '-', '_', '\'', '"', '\x60']

def collapse (text : String) : String :=
  String.ofList (PythonText.subRuns PythonText.isSpace false text.toList)

def stripPunctuation (text : String) : String :=
  String.ofList (PythonText.subRuns isPunctuation false text.toList)

namespace UnicodeTables

variable (tables : UnicodeTables)

def normalise (casefold : Bool) (text : String) : String :=
  let out := tables.nfc text
  let out := if casefold then tables.casefold out else out
  PythonText.strip (collapse out)

def digitsOnly (text : String) : String :=
  String.ofList (text.toList.filter tables.isDigit)

/-- At least three tenths of the letters are of a script without blanks. -/
def isUnspaced (target : String) : Bool :=
  let letters := target.toList.filter fun char =>
    tables.isAlpha char || isUnspacedCodepoint char
  if letters = [] then false
  else decide (3 * letters.length ≤ 10 * letters.countP isUnspacedCodepoint)

/-- The literal, its digits if there are four, and it without punctuation. -/
def variants (value : String) : List String :=
  let literal := tables.normalise true value
  let out := if literal = "" then [] else [literal]
  let digits := tables.digitsOnly value
  let out :=
    if digits ≠ "" ∧ 4 ≤ digits.length ∧ digits ∉ out then out ++ [digits]
    else out
  let stripped := tables.normalise true (stripPunctuation value)
  if stripped ≠ "" ∧ stripped ∉ out then out ++ [stripped] else out

end UnicodeTables

/-! ## Windows -/

structure Window where
  text : String
  words : List Word
  deriving DecidableEq

instance linearOrderReadingOrder : LinearOrder (WithTop Int) :=
  @WithTop.linearOrder Int Int.instLinearOrder

def firstReadingOrder (words : List Word) : WithTop Int :=
  match (words.filterMap Word.readingOrder).min? with
  | none => ⊤
  | some order => order

def spacedSizes (target : String) : List Nat :=
  let count := max 1 (PythonText.split target).length
  List.range' 1 (min 12 (max (count * 3) (count + 2)))

def unspacedSizes (target : String) : List Nat :=
  let length := target.length
  let smallest := max 1 (length - 2)
  let maxWindow := min 80 (max (length + 4) 6)
  List.range' smallest (maxWindow + 1 - smallest)

namespace UnicodeTables

variable (tables : UnicodeTables)

/-- Words that normalise to nothing are left out of the text of a window. -/
def windowText (words : List Word) : String :=
  " ".intercalate ((words.map fun word => tables.normalise true word.text).filter
    (· ≠ ""))

def spacedWindows (target : String) (words : List Word) : List Window :=
  (slices (spacedSizes target) words).filterMap fun slice =>
    let text := tables.windowText slice
    if text = "" then none else some ⟨text, slice⟩

def characters (words : List Word) : List (Char × Word) :=
  words.flatMap fun word =>
    ((tables.normalise false word.text).toList.filter fun char =>
      !PythonText.isSpace char).map fun char => (char, word)

def unspacedWindows (target : String) (words : List Word) : List Window :=
  (slices (unspacedSizes target) (tables.characters words)).map fun slice =>
    ⟨String.ofList (slice.map Prod.fst), (slice.map Prod.snd).eraseDups⟩

def windows (target : String) (words : List Word) : List Window :=
  if tables.isUnspaced target then tables.unspacedWindows target words
  else tables.spacedWindows target words

end UnicodeTables

/-! ## The matcher -/

structure ValueMatcher where
  tables : UnicodeTables
  fuzz : Fuzz
  threshold : UnitInterval

namespace ValueMatcher

variable (matcher : ValueMatcher)

def score (target : String) (window : Window) : Rat :=
  matcher.fuzz.ratio target window.text / 100

def bestMatchOnPage (target : String) (page : PageWords) :
    Option MatchResult :=
  let best := (matcher.tables.windows target page.words).foldl
    (Best.visit (matcher.score target) fun window =>
      firstReadingOrder window.words) ⟨0, ⊤, none⟩
  match best.item with
  | none => none
  | some window =>
      if best.score < matcher.threshold.val then none
      else unionBbox window.words best.score page.page

def inScope (pages : List PageWords) (candidates : Option (List Int)) :
    List PageWords :=
  match candidates with
  | none | some [] => pages
  | some candidates =>
      let scope := pages.filter fun page => page.page ∈ candidates
      if scope.any fun page => page.words ≠ [] then scope else pages

def attempts (value : String) (scope : List PageWords) :
    List (PageWords × String) :=
  (scope.filter fun page => page.words ≠ []).flatMap fun page =>
    (matcher.tables.variants value).map fun variant => (page, variant)

def perfectBar : Rat := 999 / 1000

theorem perfectBar_pos : 0 < perfectBar := by norm_num [perfectBar]

theorem perfectBar_le_one : perfectBar ≤ 1 := by norm_num [perfectBar]

def locate (value : String) (pages : List PageWords)
    (candidates : Option (List Int)) : Option MatchResult :=
  if matcher.tables.normalise true value = "" then none
  else
    searchUntil (fun attempt => matcher.bestMatchOnPage attempt.2 attempt.1)
      MatchResult.score perfectBar
      (matcher.attempts value (inScope pages candidates)) none

def locateAll (pages : List PageWords) (fields : List Target) : Results :=
  update [] (fields.map fun field =>
    (field.fieldId, matcher.locate field.value pages field.candidatePages))

/-! ## What a match is made of -/

section

variable {matcher : ValueMatcher} {target : String} {words : List Word}
  {window : Window}

theorem mem_spacedWindows_iff {tables : UnicodeTables} :
    window ∈ tables.spacedWindows target words ↔
      window.words <:+: words ∧ window.words.length ∈ spacedSizes target ∧
        window.text = tables.windowText window.words ∧ window.text ≠ "" := by
  have hslices : ∀ slice, slice ∈ slices (spacedSizes target) words ↔
      slice <:+: words ∧ slice.length ∈ spacedSizes target :=
    fun slice => mem_slices_range'_iff Nat.one_pos
  simp only [UnicodeTables.spacedWindows, List.mem_filterMap, hslices]
  constructor
  · rintro ⟨slice, ⟨hwithin, hsize⟩, hwindow⟩
    split at hwindow
    · cases hwindow
    · rename_i hne
      cases hwindow
      exact ⟨hwithin, hsize, rfl, hne⟩
  · rintro ⟨hwithin, hsize, htext, hne⟩
    refine ⟨window.words, ⟨hwithin, hsize⟩, ?_⟩
    rw [← htext, if_neg hne]

theorem mem_unspacedWindows_iff {tables : UnicodeTables} :
    window ∈ tables.unspacedWindows target words ↔
      ∃ slice, slice <:+: tables.characters words ∧
        slice.length ∈ unspacedSizes target ∧
        window = ⟨String.ofList (slice.map Prod.fst),
          (slice.map Prod.snd).eraseDups⟩ := by
  have hslices : ∀ slice,
      slice ∈ slices (unspacedSizes target) (tables.characters words) ↔
        slice <:+: tables.characters words ∧
          slice.length ∈ unspacedSizes target :=
    fun slice => mem_slices_range'_iff (lt_max_of_lt_left Nat.one_pos)
  simp only [UnicodeTables.unspacedWindows, List.mem_map, hslices, and_assoc,
    eq_comm (a := window)]

theorem words_of_mem_windows {tables : UnicodeTables}
    (h : window ∈ tables.windows target words) :
    window.words ≠ [] ∧ window.words ⊆ words := by
  unfold UnicodeTables.windows at h
  split at h
  · obtain ⟨slice, hwithin, hsize, rfl⟩ := mem_unspacedWindows_iff.mp h
    have hpos : 0 < slice.length :=
      (lt_max_of_lt_left Nat.one_pos).trans_le (List.mem_range'_1.mp hsize).1
    constructor
    · obtain ⟨entry, rest, rfl⟩ :=
        List.exists_cons_of_ne_nil (List.ne_nil_of_length_pos hpos)
      exact List.ne_nil_of_mem (List.mem_eraseDups.mpr
        (List.mem_map_of_mem List.mem_cons_self))
    · intro word hword
      obtain ⟨entry, hentry, rfl⟩ :=
        List.mem_map.mp (List.mem_eraseDups.mp hword)
      obtain ⟨other, hother, hmem⟩ :=
        List.mem_flatMap.mp (hwithin.subset hentry)
      obtain ⟨char, -, rfl⟩ := List.mem_map.mp hmem
      exact hother
  · obtain ⟨hwithin, hsize, -, -⟩ := mem_spacedWindows_iff.mp h
    have hpos : 0 < window.words.length :=
      Nat.one_pos.trans_le (List.mem_range'_1.mp hsize).1
    exact ⟨List.ne_nil_of_length_pos hpos, hwithin.subset⟩

theorem score_nonneg (matcher : ValueMatcher) (target : String)
    (window : Window) : 0 ≤ matcher.score target window :=
  div_nonneg (matcher.fuzz.nonneg _ _) (by decide)

/-- Only a window that reads the target scores 1. -/
theorem score_eq_one_iff : matcher.score target window = 1 ↔
    window.text = target := by
  unfold score
  constructor
  · intro h
    by_contra hne
    have hlt := matcher.fuzz.ratio_lt _ _ (Ne.symm hne)
    rw [div_eq_one_iff_eq (by decide)] at h
    exact hlt.ne h
  · intro h
    rw [h, matcher.fuzz.self, div_self (by decide)]

theorem score_le_one (matcher : ValueMatcher) (target : String)
    (window : Window) : matcher.score target window ≤ 1 := by
  by_cases h : window.text = target
  · exact (score_eq_one_iff.mpr h).le
  · unfold score
    rw [div_le_one (by decide)]
    exact (matcher.fuzz.ratio_lt _ _ (Ne.symm h)).le

theorem bestMatchOnPage_spec {page : PageWords} {found : MatchResult}
    (h : matcher.bestMatchOnPage target page = some found) :
    ∃ window ∈ matcher.tables.windows target page.words,
      matcher.threshold.val ≤ matcher.score target window ∧
      (∀ other ∈ matcher.tables.windows target page.words,
        matcher.score target other ≤ matcher.score target window) ∧
      unionBbox window.words (matcher.score target window) page.page =
        some found := by
  obtain ⟨-, hbest, hitem⟩ := foldl_visit_spec (matcher.score target)
    (fun window => firstReadingOrder window.words)
    (matcher.tables.windows target page.words) ⟨0, ⊤, none⟩
  unfold bestMatchOnPage at h
  simp only at h
  split at h
  · cases h
  · rename_i window hwindow
    split at h
    · cases h
    · rename_i hthreshold
      rcases hitem with ⟨hnone, -⟩ | ⟨other, hmem, hsome, hscore⟩
      · rw [hwindow] at hnone
        cases hnone
      · rw [hwindow] at hsome
        cases hsome
        rw [← hscore] at h hthreshold hbest
        exact ⟨window, hmem, not_lt.mp hthreshold, hbest, h⟩

theorem exists_bestMatchOnPage {page : PageWords}
    (hwindow : window ∈ matcher.tables.windows target page.words)
    (hthreshold : matcher.threshold.val ≤ matcher.score target window)
    (hpos : 0 < matcher.score target window) :
    ∃ found, matcher.bestMatchOnPage target page = some found ∧
      roundScore (matcher.score target window) ≤ found.score := by
  obtain ⟨-, hbest, hitem⟩ := foldl_visit_spec (matcher.score target)
    (fun window => firstReadingOrder window.words)
    (matcher.tables.windows target page.words) ⟨0, ⊤, none⟩
  have hle := hbest window hwindow
  rcases hitem with ⟨-, hzero⟩ | ⟨best, hmem, hsome, hscore⟩
  · rw [hzero] at hle
    exact absurd hpos (not_lt.mpr hle)
  · obtain ⟨found, hfound⟩ := exists_unionBbox
      (words_of_mem_windows hmem).1 (matcher.score target best) page.page
    refine ⟨found, ?_, ?_⟩
    · unfold bestMatchOnPage
      simp only [hsome]
      rw [if_neg (not_lt.mpr (hthreshold.trans hle)), ← hscore, hfound]
    · rw [(page_of_unionBbox hfound).2, hscore]
      exact roundScore_mono hle

end

end ValueMatcher

end Bbox

end Flydocs
