import Flydocs.Bbox.DoclingEngine
import Flydocs.Bbox.Matches

/-!
# Grounding

The settings choose the OCR engine and the matcher.  The engines, the router,
the matchers and the refiner are put together as the container does it, and a
leaf is followed through any number of refinements.
-/

namespace Flydocs

open Foundation Dtos

namespace Bbox

/-! ## The wiring -/

theorem defaultThreshold_mem : (0 : Rat) ≤ 17 / 20 ∧ (17 / 20 : Rat) ≤ 1 := by
  norm_num

structure BboxSettings where
  bboxRefineThreshold : UnitInterval := ⟨17 / 20, defaultThreshold_mem⟩
  bboxRefineMinTextWords : Nat := 5
  bboxRefineOcrEngine : String := "tesseract"
  bboxRefineTesseractLang : String := "spa+eng"
  bboxRefineMatcher : String := "hybrid"
  bboxRefineMaxTextPages : Nat := 200

/-- The libraries and the language model behind the adapters. -/
structure Adapters (Failure : Type) where
  library : PythonLibrary
  indexError : Failure
  openDocument : ByteArray → Except Failure (PdfDocument Failure)
  pixmaps : ByteArray → Except Failure (List (Except Failure ByteArray))
  read : ByteArray → String → Except Failure OcrImage
  getConverter : Except Failure
    (ByteArray → String → Except Failure (Option Docling.DoclingDocument))
  tables : UnicodeTables
  fuzz : Fuzz
  respond : Call → Option (List LlmFieldMatch)

/-- One call of `refine` in a process with its own settings. -/
structure Refining (Failure : Type) where
  settings : BboxSettings
  adapters : Adapters Failure
  schedule : Schedule
  documentBytes : ByteArray
  mediaType : String
  pageCount : Int
  languageHint : Option String

def kindOf (library : PythonLibrary) (setting fallback : String) : String :=
  library.lower (if setting = "" then fallback else setting)

namespace Refining

variable {Failure : Type} (refining : Refining Failure)

def tesseract : TesseractOcrEngine Failure where
  library := refining.adapters.library
  defaultLang := refining.settings.bboxRefineTesseractLang
  indexError := refining.adapters.indexError
  pixmaps := refining.adapters.pixmaps
  read := refining.adapters.read

def ocrEngine : Except String (Recogniser Failure) :=
  let setting := refining.settings.bboxRefineOcrEngine
  let kind := kindOf refining.adapters.library setting "tesseract"
  if kind = "tesseract" then .ok refining.tesseract.recognise
  else if kind = "none" then .ok (NoneOcrEngine.recognise Failure)
  else if kind = "docling" then
    .ok (DoclingOcrEngine.recognise ⟨refining.adapters.getConverter⟩)
  else
    .error ("unknown FLYDOCS_BBOX_REFINE_OCR_ENGINE=" ++
      refining.adapters.library.reprText setting ++
      "; expected 'tesseract', 'docling', or 'none' " ++
      "(paddle / mistral adapters not yet bundled)")

def fuzzy : ValueMatcher where
  tables := refining.adapters.tables
  fuzz := refining.adapters.fuzz
  threshold := refining.settings.bboxRefineThreshold

def llm : LlmValueMatcher where
  threshold := refining.settings.bboxRefineThreshold.val
  respond := refining.adapters.respond

def bboxValueMatcher : Except String BboxValueMatcher :=
  let setting := refining.settings.bboxRefineMatcher
  let kind := kindOf refining.adapters.library setting "hybrid"
  if kind = "hybrid" then
    .ok (HybridValueMatcher.locateAll ⟨refining.fuzzy, refining.llm⟩
      refining.schedule)
  else if kind = "llm" then .ok (refining.llm.locateAll refining.schedule)
  else if kind = "fuzzy" then .ok refining.fuzzy.locateAll
  else
    .error ("unknown FLYDOCS_BBOX_REFINE_MATCHER=" ++
      refining.adapters.library.reprText setting ++
      "; expected 'hybrid', 'llm', or 'fuzzy'")

def router (recognise : Recogniser Failure) : WordRouter Failure where
  pymupdf :=
    { openDocument := refining.adapters.openDocument
      minWordsForTextLayer := refining.settings.bboxRefineMinTextWords
      maxPages := refining.settings.bboxRefineMaxTextPages }
  recognise := recognise

def refiner : Except String (BboxRefiner Failure) := do
  let recognise ← refining.ocrEngine
  let matcher ← refining.bboxValueMatcher
  return {
    library := refining.adapters.library
    collect := ((refining.router recognise).collect refining.documentBytes
      refining.mediaType refining.pageCount refining.languageHint).map
        (List.map ExtractedPage.toPageWords)
    locateAll := fun pages targets => .ok (matcher pages targets) }

/-- A process whose settings are refused does not start. -/
def run (groups : List ExtractedFieldGroup) : List ExtractedFieldGroup :=
  match refining.refiner with
  | .error _ => groups
  | .ok refiner => (refiner.refine groups).1

end Refining

/-! ## What the router hands on -/

structure Collected (pages : List PageWords) : Prop where
  distinct : (pages.map PageWords.page).Nodup
  framed : ∀ page ∈ pages, ∀ word ∈ page.words, word.Framed
  source : ∀ page ∈ pages, page.source = .pdfText ∨ page.source = .ocr

theorem Recognised.collected {pages : List ExtractedPage}
    (h : Recognised pages) :
    Collected (pages.map ExtractedPage.toPageWords) where
  distinct := by
    rw [List.map_map]
    exact h.distinct
  framed := List.forall_mem_map.mpr h.framed
  source := List.forall_mem_map.mpr fun page hpage =>
    .inr (h.source_eq page hpage)

namespace WordRouter

variable {Failure : Type} {router : WordRouter Failure} {data : ByteArray}
  {mediaType : String} {pageCount : Int} {languageHint : Option String}

theorem recognised_sound (hsound : Recogniser.Sound router.recognise) :
    Recognised (router.recognised data pageCount languageHint) := by
  unfold recognised
  cases hocr : router.recognise data "application/pdf" pageCount
      languageHint with
  | error raised =>
      exact NoneOcrEngine.sound Failure data "" pageCount languageHint [] rfl
  | ok pages => exact hsound _ _ _ _ pages hocr

theorem collected_of_collect (hsound : Recogniser.Sound router.recognise)
    {pages : List ExtractedPage}
    (h : router.collect data mediaType pageCount languageHint = .ok pages) :
    Collected (pages.map ExtractedPage.toPageWords) := by
  by_cases hpdf : mediaType = "application/pdf"
  · subst hpdf
    have hocr : Recognised
        (router.recognised data pageCount languageHint) :=
      recognised_sound hsound
    constructor
    · rw [List.map_map]
      change (pages.map fun page => page.page).Nodup
      rw [pages_of_collect h]
      refine List.nodup_range.map fun first second heq => ?_
      simpa using heq
    · exact List.forall_mem_map.mpr (framed_of_collect h hocr.framed)
    · refine List.forall_mem_map.mpr fun page hpage => ?_
      obtain ⟨pageIndex, -, raw, -, rfl⟩ :=
        exists_of_forall₂ (forall₂_of_collect h) hpage
      obtain hmerge | hmem := mergePage_eq_or_mem
        (router.recognised data pageCount languageHint)
        (router.pymupdf.pageWords pageIndex raw)
      · exact .inl (congrArg (fun page => page.source) hmerge)
      · exact .inr (hocr.source_eq _ hmem)
  · rw [collect, if_neg hpdf] at h
    split at h
    · exact (hsound _ _ _ _ pages h).collected
    · cases h
      exact (NoneOcrEngine.sound Failure data "" pageCount languageHint []
        rfl).collected

end WordRouter

/-! ## One refinement of one leaf -/

structure Wired {Failure : Type} (refiner : BboxRefiner Failure)
    (threshold : Rat) : Prop where
  collected : ∀ pages, refiner.collect = .ok pages → Collected pages
  matched : ∃ matcher : BboxValueMatcher, matcher.Sound threshold ∧
    ∀ pages targets, refiner.locateAll pages targets =
      .ok (matcher pages targets)

/-- The box is the hull of words of a page that the refiner collected, tagged
with the extractor of that page. -/
def Vouched {Failure : Type} (refiner : BboxRefiner Failure) (threshold : Rat)
    (leaf : ExtractedField) : Prop :=
  ∃ pages, refiner.collect = .ok pages ∧ ∃ page ∈ pages,
    ∃ words ⊆ page.words, ∃ box confidence, leaf.bbox = some box ∧
      Hull words (coordinates box) ∧ box.source = some page.source ∧
      page.page ∈ leaf.pages ∧
      box.refinementConfidence = some confidence ∧
      roundScore threshold ≤ confidence.val

/-- What refinements may do to a leaf, where `Sound` says which boxes they may
put there. -/
structure Traced (Sound : ExtractedField → Prop)
    (before after : ExtractedField) : Prop where
  same : SameLeaf before after
  kept : isGrounded before = true → after = before
  unmoved : isGrounded after = false → after.pages = before.pages ∧
    after.bbox.map coordinates = before.bbox.map coordinates
  grounded : isGrounded after = true → isGrounded before = true ∨ Sound after

theorem Traced.refl (Sound : ExtractedField → Prop) (leaf : ExtractedField) :
    Traced Sound leaf leaf where
  same := rfl
  kept _ := rfl
  unmoved _ := ⟨rfl, rfl⟩
  grounded h := .inl h

theorem Traced.imp {First Second : ExtractedField → Prop}
    {before after : ExtractedField} (h : Traced First before after)
    (himp : ∀ leaf, First leaf → Second leaf) : Traced Second before after where
  same := h.same
  kept := h.kept
  unmoved := h.unmoved
  grounded hafter := (h.grounded hafter).imp_right (himp after)

theorem Traced.trans {Sound : ExtractedField → Prop}
    {before middle after : ExtractedField} (hfirst : Traced Sound before middle)
    (hsecond : Traced Sound middle after) : Traced Sound before after where
  same := Eq.trans hfirst.same hsecond.same
  kept h := by
    have hmiddle := hfirst.kept h
    rw [hsecond.kept (hmiddle ▸ h), hmiddle]
  unmoved h := by
    have hmiddle : isGrounded middle = false := by
      by_contra hgrounded
      rw [Bool.not_eq_false] at hgrounded
      rw [hsecond.kept hgrounded, hgrounded] at h
      cases h
    obtain ⟨hpages, hcoordinates⟩ := hsecond.unmoved h
    obtain ⟨hpages', hcoordinates'⟩ := hfirst.unmoved hmiddle
    exact ⟨hpages.trans hpages', hcoordinates.trans hcoordinates'⟩
  grounded h := by
    rcases hsecond.grounded h with hmiddle | hsecond
    · rcases hfirst.grounded hmiddle with hbefore | hfirst
      · exact .inl hbefore
      · rw [hsecond.kept hmiddle]
        exact .inr hfirst
    · exact .inr hsecond

theorem map_eq_ok_iff {Error Value Result : Type} {outcome : Except Error Value}
    {convert : Value → Result} {result : Result} :
    outcome.map convert = .ok result ↔
      ∃ value, outcome = .ok value ∧ convert value = result := by
  cases outcome <;> simp [Except.map]

theorem pageSource_of_mem {pages : List PageWords} {page : PageWords}
    (hdistinct : (pages.map PageWords.page).Nodup) (hpage : page ∈ pages) :
    pageSource page.page pages = page.source := by
  unfold pageSource
  cases hfind : pages.find? fun words => words.page = page.page with
  | none =>
      rw [List.find?_eq_none] at hfind
      simpa using hfind page hpage
  | some words =>
      have hnumber : words.page = page.page := by
        simpa using List.find?_some hfind
      rw [List.inj_on_of_nodup_map hdistinct (List.mem_of_find?_eq_some hfind)
        hpage hnumber]

namespace Wired

variable {Failure : Type} {refiner : BboxRefiner Failure} {threshold : Rat}

theorem matchesUnions (h : Wired refiner threshold) :
    refiner.MatchesUnions := by
  obtain ⟨matcher, hsound, hlocate⟩ := h.matched
  intro pages targets results _ hresults fieldId found hget
  rw [hlocate] at hresults
  cases hresults
  exact (hsound pages targets fieldId found hget).isUnion

theorem wordsFramed (h : Wired refiner threshold) : refiner.WordsFramed :=
  fun pages hpages => (h.collected pages hpages).framed

theorem isGrounded_keepLlm (field : ExtractedField) :
    isGrounded (keepLlm field) = false := by
  cases hbox : field.bbox with
  | none => simp [keepLlm, isGrounded, hasSource, hbox]
  | some box => simp [keepLlm, isGrounded, hasSource, hbox]

theorem traced_keepLlm (Sound : ExtractedField → Prop)
    {before : ExtractedField} (hbefore : isGrounded before = false) :
    Traced Sound before (keepLlm before) where
  same := (sameLeaf_keepLlm before).symm
  kept h := by
    rw [hbefore] at h
    cases h
  unmoved _ := keepLlm_coordinates before
  grounded h := by
    rw [isGrounded_keepLlm] at h
    cases h

theorem traced_of_stamp (h : Wired refiner threshold)
    {pages : List PageWords} (hpages : refiner.collect = .ok pages)
    {found : MatchResult} (hmatch : IsMatch threshold pages found)
    {before after : ExtractedField} (hbefore : isGrounded before = false)
    (hstamp : stamp pages (some found) before = .ok after) :
    Traced (Vouched refiner threshold) before after := by
  have hcollected := h.collected pages hpages
  have herased := eraseBox_stamp hstamp
  obtain ⟨page, hpage, words, hwords, score, hscore, hunion⟩ := hmatch
  obtain ⟨hnumber, hconfidence⟩ := page_of_unionBbox hunion
  obtain ⟨box, hbox, hafter⟩ := bind_eq_ok_iff.mp hstamp
  cases hafter
  unfold boundingBox at hbox
  split at hbox
  next hrange =>
    split at hbox
    next hcorners =>
      cases hbox
      have hsource : pageSource found.page pages = page.source := by
        rw [hnumber]
        exact pageSource_of_mem hcollected.distinct hpage
      rw [hsource] at herased ⊢
      refine ⟨herased.symm, fun hgrounded => ?_, fun hgrounded => ?_,
        fun _ => .inr ?_⟩
      · rw [hbefore] at hgrounded
        cases hgrounded
      · rcases hcollected.source page hpage with hpdf | hocr
        · simp [isGrounded, hasSource, hpdf] at hgrounded
        · simp [isGrounded, hasSource, hocr] at hgrounded
      · refine ⟨pages, hpages, page, hpage, words, hwords, _, _, rfl,
          hull_of_unionBbox hunion, rfl, ?_, rfl, ?_⟩
        · rw [hnumber]
          split
          next hmem => exact hmem
          next => exact List.mem_cons_self
        · change roundScore threshold ≤ found.score
          rw [hconfidence]
          exact roundScore_mono hscore
    next => split at hbox <;> cases hbox
  next => cases hbox

theorem leaf_step (h : Wired refiner threshold)
    {groups : List ExtractedFieldGroup} {index : Nat} {before : ExtractedField}
    (hbefore : (groupLeaves groups)[index]? = some before) :
    ∃ after, (groupLeaves (refiner.refine groups).1)[index]? = some after ∧
      Traced (Vouched refiner threshold) before after := by
  rcases refiner.refine_cases groups with
    ⟨hsame, -⟩ | ⟨pages, residual, results, hlocated, -, hleaves, -⟩
  · rw [hsame]
    exact ⟨before, hbefore, .refl _ before⟩
  · have hhanded := BboxRefiner.handed_of_located hlocated
    rw [hleaves]
    by_cases hmem : index ∈ residual.map Prod.fst
    · obtain ⟨⟨_, target⟩, hentry, rfl⟩ := List.mem_map.mp hmem
      have hungrounded : isGrounded before = false := by
        by_contra hgrounded
        exact hhanded.ungrounded _ hentry
          (BboxRefiner.mem_alreadyGrounded_iff.mpr
            ⟨before, hbefore, by simpa using hgrounded⟩)
      rcases @BboxRefiner.stampAll_target Failure pages results residual _
          (BboxRefiner.seen (groupLeaves groups)) _ _ _ hhanded.nodup hentry
          hbefore with
        ⟨hkept, -⟩ | ⟨after, hstamp, hafter⟩
      · exact ⟨before, hkept, .refl _ before⟩
      · refine ⟨after, hafter, ?_⟩
        cases hget : results.get target.fieldId with
        | none =>
            rw [hget] at hstamp
            cases hstamp
            exact traced_keepLlm _ hungrounded
        | some found =>
            rw [hget] at hstamp
            obtain ⟨matcher, hsound, hlocate⟩ := h.matched
            have hanswered := hhanded.answered (List.ne_nil_of_mem hentry)
            rw [hlocate] at hanswered
            cases hanswered
            exact h.traced_of_stamp hhanded.collected
              (hsound _ _ _ found hget) hungrounded hstamp
    · rw [BboxRefiner.stampAll_frame hmem]
      exact ⟨before, hbefore, .refl _ before⟩

end Wired

/-! ## Any number of refinements -/

namespace Refining

variable {Failure : Type} {refining : Refining Failure}

theorem ocrEngine_sound {recognise : Recogniser Failure}
    (h : refining.ocrEngine = .ok recognise) : recognise.Sound := by
  unfold ocrEngine at h
  simp only at h
  split at h
  · cases h
    exact refining.tesseract.sound
  · split at h
    · cases h
      exact NoneOcrEngine.sound Failure
    · split at h
      · cases h
        exact DoclingOcrEngine.sound _
      · cases h

theorem bboxValueMatcher_sound {matcher : BboxValueMatcher}
    (h : refining.bboxValueMatcher = .ok matcher) :
    matcher.Sound refining.settings.bboxRefineThreshold.val := by
  unfold bboxValueMatcher at h
  simp only at h
  split at h
  · cases h
    exact HybridValueMatcher.sound _ _ rfl
  · split at h
    · cases h
      exact refining.llm.sound _
    · split at h
      · cases h
        exact refining.fuzzy.sound
      · cases h

theorem wired {refiner : BboxRefiner Failure}
    (h : refining.refiner = .ok refiner) :
    Wired refiner refining.settings.bboxRefineThreshold.val := by
  obtain ⟨recognise, hrecognise, h⟩ := bind_eq_ok_iff.mp h
  obtain ⟨matcher, hmatcher, h⟩ := bind_eq_ok_iff.mp h
  cases h
  constructor
  · intro pages hpages
    obtain ⟨collected, hcollect, rfl⟩ := map_eq_ok_iff.mp hpages
    exact WordRouter.collected_of_collect (ocrEngine_sound hrecognise) hcollect
  · exact ⟨matcher, bboxValueMatcher_sound hmatcher, fun _ _ => rfl⟩

def VouchedByOne (refinings : List (Refining Failure))
    (leaf : ExtractedField) : Prop :=
  ∃ refining ∈ refinings, ∃ refiner, refining.refiner = .ok refiner ∧
    Vouched refiner refining.settings.bboxRefineThreshold.val leaf

theorem run_step (refining : Refining Failure)
    {groups : List ExtractedFieldGroup} {index : Nat} {before : ExtractedField}
    (hbefore : (groupLeaves groups)[index]? = some before) :
    ∃ after, (groupLeaves (refining.run groups))[index]? = some after ∧
      Traced (VouchedByOne [refining]) before after := by
  unfold run
  split
  · exact ⟨before, hbefore, .refl _ before⟩
  next refiner hrefiner =>
    obtain ⟨after, hafter, htraced⟩ := (wired hrefiner).leaf_step hbefore
    refine ⟨after, hafter, htraced.imp fun leaf hvouched => ?_⟩
    exact ⟨refining, List.mem_singleton_self _, refiner, hrefiner, hvouched⟩

theorem VouchedByOne.mono {refinings others : List (Refining Failure)}
    (hsubset : refinings ⊆ others) {leaf : ExtractedField}
    (h : VouchedByOne refinings leaf) : VouchedByOne others leaf := by
  obtain ⟨refining, hmem, hvouched⟩ := h
  exact ⟨refining, hsubset hmem, hvouched⟩

theorem erase_run (refining : Refining Failure)
    (groups : List ExtractedFieldGroup) :
    eraseGroups (refining.run groups) = eraseGroups groups := by
  unfold run
  split
  · rfl
  next refiner _ =>
    rcases refiner.refine_cases groups with
      ⟨hsame, -⟩ | ⟨_, _, _, -, herased, -, -⟩
    · rw [hsame]
    · exact herased

/--
Through any number of refinements, under any settings and whatever the engines
and the language model return, the extracted values stay.  A box that was
grounded stays, a box that is not grounded at the end is the one that came in,
and any other box is the hull of words of a page that one of the refinements
collected.
-/
theorem run_traced (refinings : List (Refining Failure))
    (groups : List ExtractedFieldGroup) :
    let final := refinings.foldl (fun groups refining => refining.run groups)
      groups
    eraseGroups final = eraseGroups groups ∧
      ∀ (index : Nat) (before : ExtractedField),
        (groupLeaves groups)[index]? = some before →
        ∃ after, (groupLeaves final)[index]? = some after ∧
          Traced (VouchedByOne refinings) before after := by
  induction refinings generalizing groups with
  | nil => exact ⟨rfl, fun index before h => ⟨before, h, .refl _ before⟩⟩
  | cons refining refinings ih =>
      obtain ⟨herased, hleaves⟩ := ih (refining.run groups)
      refine ⟨herased.trans (erase_run refining groups), ?_⟩
      intro index before hbefore
      obtain ⟨middle, hmiddle, hfirst⟩ := refining.run_step hbefore
      obtain ⟨after, hafter, hlater⟩ := hleaves index middle hmiddle
      refine ⟨after, hafter, Traced.trans
        (hfirst.imp fun leaf => VouchedByOne.mono ?_)
        (hlater.imp fun leaf => VouchedByOne.mono ?_)⟩
      · simp
      · exact List.subset_cons_self _ _

theorem located_error {refiner : BboxRefiner Failure} {threshold : Rat}
    (h : Wired refiner threshold) {leaves : List ExtractedField}
    {error : RefineError Failure} (herror : refiner.located leaves =
      .error error) :
    (∃ failure, error = .raised failure ∧
      refiner.collect = .error failure) ∨
    ∃ raised, error = .value raised ∧
      refiner.targetsFrom 0 leaves = .error raised := by
  obtain ⟨matcher, -, hlocate⟩ := h.matched
  unfold BboxRefiner.located at herror
  cases hcollect : refiner.collect with
  | error failure =>
      rw [hcollect] at herror
      cases herror
      exact .inl ⟨failure, rfl, rfl⟩
  | ok pages =>
      cases htargets : refiner.targetsFrom 0 leaves with
      | error raised =>
          rw [hcollect, htargets] at herror
          cases herror
          exact .inr ⟨raised, rfl, rfl⟩
      | ok targets =>
          -- the matchers never raise
          rw [hcollect, htargets] at herror
          simp only [Except.mapError, bind, Except.bind, hlocate] at herror
          split at herror <;> cases herror

/--
A refinement is atomic.  It raises only what collecting the words or writing a
value as a text raises, and then it has changed nothing; otherwise every leaf
is counted as seen.
-/
theorem refine_atomic (refining : Refining Failure)
    (refiner : BboxRefiner Failure) (h : refining.refiner = .ok refiner)
    (groups : List ExtractedFieldGroup) :
    (∃ counters, (refiner.refine groups).2 = .ok counters ∧
      counters.fieldsSeen = (groupLeaves groups).length) ∨
    (refiner.refine groups).1 = groups ∧
      ((∃ failure, (refiner.refine groups).2 = .error (.raised failure) ∧
        refiner.collect = .error failure) ∨
      ∃ raised, (refiner.refine groups).2 = .error (.value raised) ∧
        refiner.targetsFrom 0 (groupLeaves groups) = .error raised) := by
  have hwired := wired h
  cases hrefine : (refiner.refine groups).2 with
  | ok counters =>
      exact .inl ⟨counters, rfl, (BboxRefiner.refine_counters hrefine).1⟩
  | error error =>
      have hlocated := BboxRefiner.refine_raises hwired.matchesUnions
        hwired.wordsFramed hrefine
      refine .inr ⟨?_, ?_⟩
      · rcases refiner.refine_cases groups with
          ⟨hsame, -⟩ | ⟨_, _, _, hok, -, -, -⟩
        · exact hsame
        · rw [hok] at hlocated
          cases hlocated
      · rcases located_error hwired hlocated with
          ⟨failure, rfl, hcollect⟩ | ⟨raised, rfl, htargets⟩
        · exact .inl ⟨failure, rfl, hcollect⟩
        · exact .inr ⟨raised, rfl, htargets⟩

def licencePlate : Refining Unit where
  settings :=
    { bboxRefineMinTextWords := 1
      bboxRefineOcrEngine := "None"
      bboxRefineMatcher := "fuzzy" }
  adapters :=
    { library :=
        { PythonLibrary.ascii with
          lower := fun text => String.ofList (text.toList.map Char.toLower) }
      indexError := ()
      openDocument := fun _ => .ok
        { pageCount := 1
          page := fun _ => .ok
            ⟨100, 100, [some ⟨25, 25, 50, 50, "AB-123"⟩]⟩ }
      pixmaps := fun _ => .error ()
      read := fun _ _ => .error ()
      getConverter := .error ()
      tables :=
        { nfc := id
          casefold := id
          isAlpha := Char.isAlpha
          isDigit := Char.isDigit }
      fuzz := Fuzz.indel
      respond := fun _ => none }
  schedule := .inOrder
  documentBytes := ⟨#[0x25]⟩
  mediaType := "application/pdf"
  pageCount := 1
  languageHint := none

theorem refine_atomic_licencePlate : ∃ refiner,
    licencePlate.refiner = .ok refiner ∧
      ∀ groups, (∃ counters, (refiner.refine groups).2 = .ok counters ∧
        counters.fieldsSeen = (groupLeaves groups).length) ∨
      (refiner.refine groups).1 = groups ∧
        ((∃ failure, (refiner.refine groups).2 = .error (.raised failure) ∧
          refiner.collect = .error failure) ∨
        ∃ raised, (refiner.refine groups).2 = .error (.value raised) ∧
          refiner.targetsFrom 0 (groupLeaves groups) = .error raised) :=
  ⟨_, rfl, refine_atomic licencePlate _ rfl⟩

end Refining

end Bbox

end Flydocs
