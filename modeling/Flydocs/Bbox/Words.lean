import Flydocs.Dtos.Extracted
import Flydocs.Foundation.PythonNumber

/-!
# Page words and the boxes around them

A word extractor hands one `PageWords` a page to the matchers.  What a matcher
locates is the smallest box around some words of one page.  The size of the
page, the flag of its text layer and the table cell of a word are read by no
matcher and are left out.
-/

namespace Flydocs

open Foundation Dtos

namespace Bbox

structure Word where
  text : String
  xmin : Rat
  ymin : Rat
  xmax : Rat
  ymax : Rat
  readingOrder : Option Int := none
  deriving DecidableEq

structure PageWords where
  page : Int
  words : List Word
  source : BboxSource := .pdfText
  deriving DecidableEq

structure MatchResult where
  page : Int
  xmin : Rat
  ymin : Rat
  xmax : Rat
  ymax : Rat
  score : Rat
  deriving DecidableEq

/-- One entry of `fields`: `(field_id, value, candidate_pages)`. -/
structure Target where
  fieldId : String
  value : String
  candidatePages : Option (List Int)
  deriving DecidableEq

def roundScore (score : Rat) : Rat :=
  PythonNumber.roundTo 4 (min 1 (max 0 score))

@[simp] theorem roundScore_zero : roundScore 0 = 0 := by
  simp [roundScore]

@[simp] theorem roundScore_one : roundScore 1 = 1 := by
  simp [roundScore]

theorem roundScore_nonneg (score : Rat) : 0 ≤ roundScore score := by
  have h : PythonNumber.roundTo 4 0 ≤ roundScore score :=
    PythonNumber.roundTo_mono (by simp)
  simpa using h

theorem roundScore_le_one (score : Rat) : roundScore score ≤ 1 := by
  have h : roundScore score ≤ PythonNumber.roundTo 4 1 :=
    PythonNumber.roundTo_mono (min_le_left _ _)
  simpa using h

theorem roundScore_mono {first second : Rat} (h : first ≤ second) :
    roundScore first ≤ roundScore second :=
  PythonNumber.roundTo_mono (min_le_min_left 1 (max_le_max_left 0 h))

/-- The union of no words raises and is never asked for. -/
def unionBbox (words : List Word) (score : Rat) (page : Int) :
    Option MatchResult := do
  let xmin ← (words.map Word.xmin).min?
  let ymin ← (words.map Word.ymin).min?
  let xmax ← (words.map Word.xmax).max?
  let ymax ← (words.map Word.ymax).max?
  return ⟨page, xmin, ymin, xmax, ymax, roundScore score⟩

/-! ## Boxes inside the page -/

structure Framed (xmin ymin xmax ymax : Rat) : Prop where
  left : 0 ≤ xmin
  width : xmin < xmax
  right : xmax ≤ 1
  top : 0 ≤ ymin
  height : ymin < ymax
  bottom : ymax ≤ 1

def Word.Framed (word : Word) : Prop :=
  Bbox.Framed word.xmin word.ymin word.xmax word.ymax

def MatchResult.Framed (found : MatchResult) : Prop :=
  Bbox.Framed found.xmin found.ymin found.xmax found.ymax

theorem framed_of_unionBbox {words : List Word} {score : Rat} {page : Int}
    {found : MatchResult} (hwords : ∀ word ∈ words, word.Framed)
    (h : unionBbox words score page = some found) : found.Framed := by
  simp only [unionBbox, bind, Option.bind_eq_some_iff, pure,
    Option.some.injEq] at h
  obtain ⟨xmin, hxmin, ymin, hymin, xmax, hxmax, ymax, hymax, rfl⟩ := h
  rw [List.min?_eq_some_iff] at hxmin hymin
  rw [List.max?_eq_some_iff] at hxmax hymax
  obtain ⟨left, hleft, rfl⟩ := List.mem_map.mp hxmin.1
  obtain ⟨top, htop, rfl⟩ := List.mem_map.mp hymin.1
  obtain ⟨right, hright, rfl⟩ := List.mem_map.mp hxmax.1
  obtain ⟨bottom, hbottom, rfl⟩ := List.mem_map.mp hymax.1
  exact {
    left := (hwords left hleft).left
    width := (hwords left hleft).width.trans_le
      (hxmax.2 _ (List.mem_map_of_mem hleft))
    right := (hwords right hright).right
    top := (hwords top htop).top
    height := (hwords top htop).height.trans_le
      (hymax.2 _ (List.mem_map_of_mem htop))
    bottom := (hwords bottom hbottom).bottom }

theorem page_of_unionBbox {words : List Word} {score : Rat} {page : Int}
    {found : MatchResult} (h : unionBbox words score page = some found) :
    found.page = page ∧ found.score = roundScore score := by
  simp only [unionBbox, bind, Option.bind_eq_some_iff, pure,
    Option.some.injEq] at h
  obtain ⟨_, _, _, _, _, _, _, _, rfl⟩ := h
  exact ⟨rfl, rfl⟩

theorem exists_unionBbox {words : List Word} (hwords : words ≠ [])
    (score : Rat) (page : Int) :
    ∃ found, unionBbox words score page = some found := by
  cases words with
  | nil => exact absurd rfl hwords
  | cons word words => exact ⟨_, rfl⟩

def IsUnion (pages : List PageWords) (found : MatchResult) : Prop :=
  ∃ page ∈ pages, ∃ words ⊆ page.words, ∃ score,
    unionBbox words score page.page = some found

theorem IsUnion.framed {pages : List PageWords} {found : MatchResult}
    (h : IsUnion pages found)
    (hwords : ∀ page ∈ pages, ∀ word ∈ page.words, word.Framed) :
    found.Framed := by
  obtain ⟨page, hpage, words, hsub, score, hunion⟩ := h
  exact framed_of_unionBbox (fun word hword => hwords page hpage word
    (hsub hword)) hunion

theorem IsUnion.score_mem {pages : List PageWords} {found : MatchResult}
    (h : IsUnion pages found) : 0 ≤ found.score ∧ found.score ≤ 1 := by
  obtain ⟨page, -, words, -, score, hunion⟩ := h
  rw [(page_of_unionBbox hunion).2]
  exact ⟨roundScore_nonneg score, roundScore_le_one score⟩

end Bbox

end Flydocs
