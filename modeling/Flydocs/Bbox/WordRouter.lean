import Flydocs.Bbox.Conservative
import Flydocs.Foundation.Dictionary
import Flydocs.Foundation.PythonText
import Flydocs.Foundation.Traverse

/-!
# The word router

A page of a PDF keeps its text layer when the layer has words enough and is
handed to the OCR engine otherwise.  PyMuPDF and the engine are the router's
parameters: the one may fail to open the file or to load one of its pages, the
other may fail as a whole.
-/

namespace Flydocs

open Foundation Dtos

namespace Bbox

structure ExtractedPage extends PageWords where
  width : Rat
  height : Rat
  hasTextLayer : Bool
  deriving DecidableEq

/-! ## The text layer -/

structure RawWord where
  x0 : Rat
  y0 : Rat
  x1 : Rat
  y1 : Rat
  text : String
  deriving DecidableEq

/-- A loaded page.  An entry with fewer than five values is `none`. -/
structure RawPage where
  width : Rat
  height : Rat
  rawWords : List (Option RawWord)
  deriving DecidableEq

structure PdfDocument (Failure : Type) where
  pageCount : Nat
  page : Nat → Except Failure RawPage

def clip (value : Rat) : Rat := max 0 (min 1 value)

def orOne (length : Rat) : Rat := if length = 0 then 1 else length

def RawPage.word (page : RawPage) (entry : RawWord) : Option Word :=
  let text := PythonText.strip entry.text
  if text = "" then none
  else
    let xmin := clip (entry.x0 / orOne page.width)
    let ymin := clip (entry.y0 / orOne page.height)
    let xmax := clip (entry.x1 / orOne page.width)
    let ymax := clip (entry.y1 / orOne page.height)
    if xmin ≥ xmax ∨ ymin ≥ ymax then none
    else some { text, xmin, ymin, xmax, ymax }

def RawPage.words (page : RawPage) : List Word :=
  page.rawWords.filterMap fun entry => entry.bind page.word

theorem clip_mem (value : Rat) : 0 ≤ clip value ∧ clip value ≤ 1 :=
  ⟨le_max_left _ _, max_le zero_le_one (min_le_left _ _)⟩

theorem RawPage.framed_of_word {page : RawPage} {entry : RawWord} {word : Word}
    (h : page.word entry = some word) : word.Framed := by
  unfold RawPage.word at h
  dsimp only at h
  split at h
  · cases h
  · split at h
    · cases h
    · rename_i hwide
      obtain ⟨hwidth, hheight⟩ := not_or.mp hwide
      cases h
      exact {
        left := (clip_mem _).1
        width := not_le.mp hwidth
        right := (clip_mem _).2
        top := (clip_mem _).1
        height := not_le.mp hheight
        bottom := (clip_mem _).2 }

theorem RawPage.framed (page : RawPage) : ∀ word ∈ page.words, word.Framed := by
  intro word hword
  obtain ⟨entry, -, hentry⟩ := List.mem_filterMap.mp hword
  obtain ⟨raw, -, hraw⟩ := Option.bind_eq_some_iff.mp hentry
  exact framed_of_word hraw

structure PyMuPDFWordExtractor (Failure : Type) where
  openDocument : ByteArray → Except Failure (PdfDocument Failure)
  minWordsForTextLayer : Nat
  maxPages : Nat

namespace PyMuPDFWordExtractor

variable {Failure : Type} (extractor : PyMuPDFWordExtractor Failure)

def pageWords (pageIndex : Nat) (page : RawPage) : ExtractedPage where
  page := pageIndex + 1
  width := orOne page.width
  height := orOne page.height
  words := page.words
  hasTextLayer := extractor.minWordsForTextLayer ≤ page.words.length
  source := .pdfText

def extract (data : ByteArray) (mediaType : String) :
    Except Failure (List ExtractedPage) :=
  if mediaType ≠ "application/pdf" ∨ data.isEmpty then .ok []
  else
    match extractor.openDocument data with
    | .error _ => .ok []
    | .ok document =>
        (List.range (min document.pageCount extractor.maxPages)).mapM
          fun pageIndex => do
            let page ← document.page pageIndex
            return extractor.pageWords pageIndex page

end PyMuPDFWordExtractor

/-! ## The router -/

structure WordRouter (Failure : Type) where
  pymupdf : PyMuPDFWordExtractor Failure
  /-- The engine's answer to the bytes, the media type, the number of pages
  and the language hint. -/
  recognise : ByteArray → String → Int → Option String →
    Except Failure (List ExtractedPage)

def mergePage (ocrPages : List ExtractedPage) (textPage : ExtractedPage) :
    ExtractedPage :=
  if textPage.hasTextLayer then textPage
  else
    -- the engine returned nothing for the page: keep the sparse entry
    (lookupLast (fun page => page.page) ocrPages textPage.page).getD textPage

namespace WordRouter

variable {Failure : Type} (router : WordRouter Failure)

def collect (data : ByteArray) (mediaType : String) (pageCount : Int)
    (languageHint : Option String) : Except Failure (List ExtractedPage) :=
  if mediaType = "application/pdf" then do
    let textPages ← router.pymupdf.extract data mediaType
    let imagePages := (textPages.filter fun page => !page.hasTextLayer).map
      fun page => page.page
    if imagePages = [] then return textPages
    let ocrPages ← router.recognise data mediaType pageCount languageHint
    return textPages.map (mergePage ocrPages)
  else if mediaType.startsWith "image/" then
    router.recognise data mediaType pageCount languageHint
  else .ok []

def recognised (data : ByteArray) (pageCount : Int)
    (languageHint : Option String) : List ExtractedPage :=
  (router.recognise data "application/pdf" pageCount languageHint).toOption.getD
    []

end WordRouter

/-! ## What is collected -/

namespace PyMuPDFWordExtractor

variable {Failure : Type} (extractor : PyMuPDFWordExtractor Failure)

def opened (data : ByteArray) : Option (PdfDocument Failure) :=
  if data.isEmpty then none else (extractor.openDocument data).toOption

def reported (data : ByteArray) : Nat :=
  match extractor.opened data with
  | none => 0
  | some document => min document.pageCount extractor.maxPages

def Loads (data : ByteArray) (pageIndex : Nat) (page : RawPage) : Prop :=
  ∃ document, extractor.opened data = some document ∧
    document.page pageIndex = .ok page

def TextLayer (data : ByteArray) (pageIndex : Nat) (words : List Word) :
    Prop :=
  pageIndex < extractor.reported data ∧
    ∃ page, extractor.Loads data pageIndex page ∧ words = page.words ∧
      extractor.minWordsForTextLayer ≤ words.length

variable {extractor} {data : ByteArray} {pageIndex : Nat}

theorem Loads.unique {page other : RawPage}
    (h : extractor.Loads data pageIndex page)
    (hother : extractor.Loads data pageIndex other) : page = other := by
  obtain ⟨document, hopened, hpage⟩ := h
  obtain ⟨document', hopened', hpage'⟩ := hother
  obtain rfl : document = document' := by
    rw [hopened] at hopened'
    exact Option.some.inj hopened'
  rw [hpage] at hpage'
  exact Except.ok.inj hpage'

theorem extract_eq_ok_iff {pages : List ExtractedPage} :
    extractor.extract data "application/pdf" = .ok pages ↔
      List.Forall₂ (fun pageIndex page => ∃ raw,
        extractor.Loads data pageIndex raw ∧
          page = extractor.pageWords pageIndex raw)
        (List.range (extractor.reported data)) pages := by
  unfold extract reported
  by_cases hempty : data.isEmpty
  · have hopened : extractor.opened data = none := by simp [opened, hempty]
    simp [hempty, hopened, eq_comm]
  · cases hopen : extractor.openDocument data with
    | error raised =>
        have hopened : extractor.opened data = none := by
          simp [opened, hempty, hopen, Except.toOption]
        simp [hempty, hopened, eq_comm]
    | ok document =>
        have hopened : extractor.opened data = some document := by
          simp [opened, hempty, hopen, Except.toOption]
        simp only [hempty, hopened, ne_eq, not_true_eq_false, false_or,
          Bool.false_eq_true, if_false]
        have hloads : ∀ pageIndex raw,
            extractor.Loads data pageIndex raw ↔
              document.page pageIndex = .ok raw := by
          simp [Loads, hopened]
        simp only [mapM_eq_ok_iff, bind_eq_ok_iff, hloads]
        simp only [pure, Except.pure, Except.ok.injEq, eq_comm]

theorem exists_extract_iff :
    (∃ pages, extractor.extract data "application/pdf" = .ok pages) ↔
      ∀ pageIndex < extractor.reported data,
        ∃ raw, extractor.Loads data pageIndex raw := by
  simp only [extract_eq_ok_iff, exists_forall₂_iff, List.mem_range]
  refine forall₂_congr fun pageIndex _ => ?_
  rw [exists_comm]
  simp

theorem textLayer_iff_of_loads {raw : RawPage}
    (hlt : pageIndex < extractor.reported data)
    (h : extractor.Loads data pageIndex raw) {words : List Word} :
    extractor.TextLayer data pageIndex words ↔
      words = raw.words ∧
        (extractor.pageWords pageIndex raw).hasTextLayer = true := by
  rw [pageWords, decide_eq_true_eq]
  constructor
  · rintro ⟨-, other, hother, rfl, henough⟩
    rw [h.unique hother]
    exact ⟨rfl, henough⟩
  · rintro ⟨rfl, henough⟩
    exact ⟨hlt, raw, h, rfl, henough⟩

end PyMuPDFWordExtractor

/-! ### The merge -/

@[simp] theorem page_mergePage (ocrPages : List ExtractedPage)
    (textPage : ExtractedPage) :
    (mergePage ocrPages textPage).page = textPage.page := by
  unfold mergePage
  split
  · rfl
  · cases hlookup : lookupLast (fun page : ExtractedPage => page.page) ocrPages
        textPage.page with
    | none => rfl
    | some ocrPage => exact (key_of_lookupLast hlookup :)

theorem mergePage_of_hasTextLayer {textPage : ExtractedPage}
    (h : textPage.hasTextLayer = true) (ocrPages : List ExtractedPage) :
    mergePage ocrPages textPage = textPage := by
  rw [mergePage, if_pos h]

theorem mergePage_of_mem {ocrPages : List ExtractedPage}
    {textPage ocrPage : ExtractedPage}
    (hdistinct : (ocrPages.map fun page => page.page).Nodup)
    (h : textPage.hasTextLayer = false) (hmem : ocrPage ∈ ocrPages)
    (hpage : ocrPage.page = textPage.page) :
    mergePage ocrPages textPage = ocrPage := by
  rw [mergePage, if_neg (by simp [h]), ← hpage,
    lookupLast_of_nodup hdistinct hmem, Option.getD_some]

theorem mergePage_eq_or_mem (ocrPages : List ExtractedPage)
    (textPage : ExtractedPage) :
    mergePage ocrPages textPage = textPage ∨
      mergePage ocrPages textPage ∈ ocrPages := by
  unfold mergePage
  split
  · exact Or.inl rfl
  · cases hlookup : lookupLast (fun page : ExtractedPage => page.page) ocrPages
        textPage.page with
    | none => exact Or.inl rfl
    | some ocrPage => exact Or.inr (mem_of_lookupLast hlookup)

namespace WordRouter

variable {Failure : Type} {router : WordRouter Failure} {data : ByteArray}
  {pageCount : Int} {languageHint : Option String}

/-- What ends the call is an extraction that raises, or an engine that raises
when a page is handed to it. -/
theorem collect_eq_ok_iff {collected : List ExtractedPage} :
    router.collect data "application/pdf" pageCount languageHint =
        .ok collected ↔
      ∃ textPages, router.pymupdf.extract data "application/pdf" =
          .ok textPages ∧
        ((∀ page ∈ textPages, page.hasTextLayer = true) ∨
          ∃ ocrPages, router.recognise data "application/pdf" pageCount
            languageHint = .ok ocrPages) ∧
        collected = textPages.map
          (mergePage (router.recognised data pageCount languageHint)) := by
  rw [collect, if_pos rfl, bind_eq_ok_iff]
  refine exists_congr fun textPages => and_congr_right fun _ => ?_
  by_cases hall : ∀ page ∈ textPages, page.hasTextLayer = true
  · have himages : (textPages.filter fun page => !page.hasTextLayer) = [] := by
      simpa using hall
    have hmerge : textPages.map
        (mergePage (router.recognised data pageCount languageHint)) =
          textPages := by
      conv_rhs => rw [← List.map_id textPages]
      exact List.map_congr_left fun page hpage =>
        mergePage_of_hasTextLayer (hall page hpage) _
    rw [hmerge, himages, and_iff_right (Or.inl hall)]
    change Except.ok textPages = Except.ok collected ↔ _
    rw [Except.ok.injEq, eq_comm]
  · have himages : (textPages.filter fun page => !page.hasTextLayer).map
        (fun page => page.page) ≠ [] := by
      rw [ne_eq, List.map_eq_nil_iff, List.filter_eq_nil_iff]
      simpa using hall
    rw [or_iff_right hall]
    dsimp only
    rw [if_neg himages, recognised]
    cases router.recognise data "application/pdf" pageCount languageHint with
    | error raised => simp [bind, Except.bind]
    | ok ocrPages =>
        simp [bind, Except.bind, pure, Except.pure, Except.toOption, eq_comm]

/-! ## No page is lost -/

/-- Up to the limit, a page whose text layer suffices stands with its text
layer, any other page stands with the words recognised for it, and no page
stands twice. -/
structure LosesNoPage (router : WordRouter Failure) (data : ByteArray)
    (ocrPages collected : List ExtractedPage) : Prop where
  textLayer : ∀ pageIndex < router.pymupdf.maxPages, ∀ words,
    router.pymupdf.TextLayer data pageIndex words →
      ∃ page ∈ collected, page.page = pageIndex + 1 ∧ page.words = words
  recognised : ∀ pageIndex < router.pymupdf.maxPages,
    (¬ ∃ words, router.pymupdf.TextLayer data pageIndex words) →
      ∀ ocrPage ∈ ocrPages, ocrPage.page = pageIndex + 1 →
        ocrPage.words ≠ [] →
          ∃ page ∈ collected, page.page = pageIndex + 1 ∧
            page.words = ocrPage.words
  distinct : (collected.map fun page => page.page).Nodup

/-- Every page reported loads, the engine answers if a page is handed to it,
and it recognises words, up to the limit, only on pages that are reported. -/
structure Covered (router : WordRouter Failure) (data : ByteArray)
    (pageCount : Int) (languageHint : Option String) : Prop where
  loads : ∀ pageIndex < router.pymupdf.reported data,
    ∃ raw, router.pymupdf.Loads data pageIndex raw
  answers : (∀ pageIndex < router.pymupdf.reported data,
      ∃ words, router.pymupdf.TextLayer data pageIndex words) ∨
    ∃ ocrPages, router.recognise data "application/pdf" pageCount
      languageHint = .ok ocrPages
  reported : ∀ pageIndex < router.pymupdf.maxPages,
    ∀ ocrPage ∈ router.recognised data pageCount languageHint,
      ocrPage.page = pageIndex + 1 → ocrPage.words ≠ [] →
        pageIndex < router.pymupdf.reported data

theorem forall₂_of_collect {collected : List ExtractedPage}
    (h : router.collect data "application/pdf" pageCount languageHint =
      .ok collected) :
    List.Forall₂ (fun (pageIndex : Nat) page => ∃ raw,
      router.pymupdf.Loads data pageIndex raw ∧
        page = mergePage (router.recognised data pageCount languageHint)
          (router.pymupdf.pageWords pageIndex raw))
      (List.range (router.pymupdf.reported data)) collected := by
  obtain ⟨textPages, hextract, -, rfl⟩ := collect_eq_ok_iff.mp h
  rw [List.forall₂_map_right_iff]
  refine (PyMuPDFWordExtractor.extract_eq_ok_iff.mp hextract).imp ?_
  rintro pageIndex _ ⟨raw, hraw, rfl⟩
  exact ⟨raw, hraw, rfl⟩

theorem pages_of_collect {collected : List ExtractedPage}
    (h : router.collect data "application/pdf" pageCount languageHint =
      .ok collected) :
    (collected.map fun page => page.page) =
      (List.range (router.pymupdf.reported data)).map
        fun pageIndex : Nat => (pageIndex : Int) + 1 := by
  rw [eq_comm, ← List.forall₂_eq_eq_eq, List.forall₂_map_left_iff,
    List.forall₂_map_right_iff]
  refine (forall₂_of_collect h).imp ?_
  rintro pageIndex _ ⟨raw, -, rfl⟩
  rw [page_mergePage]
  rfl

theorem exists_collect_iff :
    (∃ collected, router.collect data "application/pdf" pageCount
        languageHint = .ok collected) ↔
      (∀ pageIndex < router.pymupdf.reported data,
        ∃ raw, router.pymupdf.Loads data pageIndex raw) ∧
      ((∀ pageIndex < router.pymupdf.reported data,
          ∃ words, router.pymupdf.TextLayer data pageIndex words) ∨
        ∃ ocrPages, router.recognise data "application/pdf" pageCount
          languageHint = .ok ocrPages) := by
  rw [← PyMuPDFWordExtractor.exists_extract_iff]
  constructor
  · rintro ⟨collected, h⟩
    obtain ⟨textPages, hextract, hanswers, -⟩ := collect_eq_ok_iff.mp h
    refine ⟨⟨textPages, hextract⟩, hanswers.imp_left fun hall => ?_⟩
    intro pageIndex hlt
    obtain ⟨page, hpage, raw, hraw, rfl⟩ := exists_mem_zip
      (PyMuPDFWordExtractor.extract_eq_ok_iff.mp hextract)
      (List.mem_range.mpr hlt)
    exact ⟨raw.words, (PyMuPDFWordExtractor.textLayer_iff_of_loads hlt
      hraw).mpr ⟨rfl, hall _ (List.of_mem_zip hpage).2⟩⟩
  · rintro ⟨⟨textPages, hextract⟩, hanswers⟩
    refine ⟨_, collect_eq_ok_iff.mpr
      ⟨textPages, hextract, hanswers.imp_left fun hall => ?_, rfl⟩⟩
    intro page hpage
    obtain ⟨pageIndex, hlt, raw, hraw, rfl⟩ := exists_of_forall₂
      (PyMuPDFWordExtractor.extract_eq_ok_iff.mp hextract) hpage
    rw [List.mem_range] at hlt
    obtain ⟨words, hwords⟩ := hall pageIndex hlt
    exact ((PyMuPDFWordExtractor.textLayer_iff_of_loads hlt hraw).mp
      hwords).2

theorem framed_of_collect {collected : List ExtractedPage}
    (h : router.collect data "application/pdf" pageCount languageHint =
      .ok collected)
    (hocr : ∀ page ∈ router.recognised data pageCount languageHint,
      ∀ word ∈ page.words, word.Framed) :
    ∀ page ∈ collected, ∀ word ∈ page.words, word.Framed := by
  intro page hpage
  obtain ⟨pageIndex, -, raw, -, rfl⟩ :=
    exists_of_forall₂ (forall₂_of_collect h) hpage
  obtain hmerge | hmem := mergePage_eq_or_mem
    (router.recognised data pageCount languageHint)
    (router.pymupdf.pageWords pageIndex raw)
  · rw [hmerge]
    exact raw.framed
  · exact hocr _ hmem

theorem wordsFramed {refiner : BboxRefiner Failure}
    (hrefiner : refiner.collect =
      (router.collect data "application/pdf" pageCount languageHint).map
        (List.map ExtractedPage.toPageWords))
    (hocr : ∀ page ∈ router.recognised data pageCount languageHint,
      ∀ word ∈ page.words, word.Framed) :
    refiner.WordsFramed := by
  intro pages hpages page hpage
  rw [hrefiner] at hpages
  cases hcollect : router.collect data "application/pdf" pageCount
      languageHint with
  | error raised =>
      rw [hcollect] at hpages
      cases hpages
  | ok collected =>
      rw [hcollect] at hpages
      cases hpages
      obtain ⟨extracted, hextracted, rfl⟩ := List.mem_map.mp hpage
      exact framed_of_collect hcollect hocr extracted hextracted

theorem exists_merged_page {collected : List ExtractedPage} {pageIndex : Nat}
    (h : router.collect data "application/pdf" pageCount languageHint =
      .ok collected)
    (hlt : pageIndex < router.pymupdf.reported data) :
    ∃ raw, router.pymupdf.Loads data pageIndex raw ∧
      mergePage (router.recognised data pageCount languageHint)
        (router.pymupdf.pageWords pageIndex raw) ∈ collected := by
  obtain ⟨page, hpage, raw, hraw, rfl⟩ :=
    exists_mem_zip (forall₂_of_collect h) (List.mem_range.mpr hlt)
  exact ⟨raw, hraw, (List.of_mem_zip hpage).2⟩

theorem reported_of_mem_collected {collected : List ExtractedPage}
    {pageIndex : Nat} {page : ExtractedPage}
    (h : router.collect data "application/pdf" pageCount languageHint =
      .ok collected)
    (hmem : page ∈ collected) (hnumber : page.page = pageIndex + 1) :
    pageIndex < router.pymupdf.reported data := by
  have hin := List.mem_map_of_mem (f := fun page : ExtractedPage =>
    page.page) hmem
  rw [pages_of_collect h, hnumber] at hin
  simpa using hin

theorem losesNoPage_of_collect {collected : List ExtractedPage}
    (hdistinct : ((router.recognised data pageCount languageHint).map
      fun page => page.page).Nodup)
    (h : router.collect data "application/pdf" pageCount languageHint =
      .ok collected)
    (hreported : ∀ pageIndex < router.pymupdf.maxPages,
      ∀ ocrPage ∈ router.recognised data pageCount languageHint,
        ocrPage.page = pageIndex + 1 → ocrPage.words ≠ [] →
          pageIndex < router.pymupdf.reported data) :
    LosesNoPage router data
      (router.recognised data pageCount languageHint) collected := by
  constructor
  case textLayer =>
    intro pageIndex hlimit words hlayer
    obtain ⟨raw, hraw, hmem⟩ := exists_merged_page h hlayer.1
    obtain ⟨rfl, hhas⟩ := (PyMuPDFWordExtractor.textLayer_iff_of_loads
      hlayer.1 hraw).mp hlayer
    rw [mergePage_of_hasTextLayer hhas] at hmem
    exact ⟨_, hmem, rfl, rfl⟩
  case recognised =>
    intro pageIndex hlimit hlayer ocrPage hocr hnumber hwords
    have hlt := hreported pageIndex hlimit ocrPage hocr hnumber hwords
    obtain ⟨raw, hraw, hmem⟩ := exists_merged_page h hlt
    have hhas : (router.pymupdf.pageWords pageIndex raw).hasTextLayer =
        false := by
      rw [Bool.eq_false_iff]
      intro hhas
      exact hlayer ⟨raw.words, (PyMuPDFWordExtractor.textLayer_iff_of_loads
        hlt hraw).mpr ⟨rfl, hhas⟩⟩
    rw [mergePage_of_mem hdistinct hhas hocr hnumber] at hmem
    exact ⟨_, hmem, hnumber, rfl⟩
  case distinct =>
    rw [pages_of_collect h]
    refine List.nodup_range.map ?_
    intro first second h
    simpa using h

/-- No page is lost exactly when the call covers every page. -/
theorem loses_no_page_iff
    (hdistinct : ((router.recognised data pageCount languageHint).map
      fun page => page.page).Nodup) :
    (∃ collected, router.collect data "application/pdf" pageCount
        languageHint = .ok collected ∧
      LosesNoPage router data
        (router.recognised data pageCount languageHint) collected) ↔
      Covered router data pageCount languageHint := by
  constructor
  · rintro ⟨collected, hcollect, h⟩
    obtain ⟨hloads, hanswers⟩ := exists_collect_iff.mp ⟨collected, hcollect⟩
    refine ⟨hloads, hanswers, ?_⟩
    intro pageIndex hlimit ocrPage hocr hpage hwords
    by_cases hlayer : ∃ words,
        router.pymupdf.TextLayer data pageIndex words
    · obtain ⟨words, hlt, -⟩ := hlayer
      exact hlt
    · obtain ⟨page, hmem, hnumber, -⟩ := h.recognised pageIndex hlimit hlayer
        ocrPage hocr hpage hwords
      exact reported_of_mem_collected hcollect hmem hnumber
  · intro hcovered
    obtain ⟨collected, hcollect⟩ :=
      exists_collect_iff.mpr ⟨hcovered.loads, hcovered.answers⟩
    exact ⟨collected, hcollect,
      losesNoPage_of_collect hdistinct hcollect hcovered.reported⟩

def hybridPdf : PdfDocument String where
  pageCount := 2
  page
    | 0 => .ok ⟨100, 200, [some ⟨10, 20, 30, 40, "Total"⟩]⟩
    | _ => .ok ⟨100, 200, []⟩

def hybrid : WordRouter String where
  pymupdf := ⟨fun _ => .ok hybridPdf, 1, 200⟩
  recognise _ _ _ _ :=
    .ok [⟨⟨2, [⟨"Invoice", 1/10, 1/10, 3/10, 1/5, none⟩], .ocr⟩, 100, 200,
      true⟩]

def pdfHeader : ByteArray := ⟨#[37, 80, 68, 70]⟩

theorem loses_no_page_hybrid :
    ((hybrid.recognised pdfHeader 2 none).map fun page => page.page).Nodup ∧
      ∃ collected, hybrid.collect pdfHeader "application/pdf" 2 none =
          .ok collected ∧
        LosesNoPage hybrid pdfHeader (hybrid.recognised pdfHeader 2 none)
          collected := by
  refine ⟨by decide, (loses_no_page_iff (by decide)).mpr ⟨?_, ?_, ?_⟩⟩
  · intro pageIndex hlt
    cases pageIndex with
    | zero => exact ⟨_, hybridPdf, rfl, rfl⟩
    | succ pageIndex => exact ⟨_, hybridPdf, rfl, rfl⟩
  · exact Or.inr ⟨_, rfl⟩
  · intro pageIndex _ ocrPage hocr hnumber _
    obtain rfl := List.mem_singleton.mp hocr
    have hindex : pageIndex = 1 := by
      change (2 : Int) = pageIndex + 1 at hnumber
      omega
    subst hindex
    decide

/-! ### A file that does not open -/

def unreadable : WordRouter String where
  pymupdf := ⟨fun _ => .error "cannot open broken document", 5, 200⟩
  recognise _ _ _ _ :=
    .ok [⟨⟨1, [⟨"Invoice", 1/10, 1/10, 3/10, 1/5, none⟩], .ocr⟩, 100, 200,
      true⟩]

theorem collect_unreadable :
    unreadable.collect pdfHeader "application/pdf" 1 none = .ok [] := by
  rfl

/-- The words recognised on the page of an unreadable file are dropped. -/
theorem recognised_page_lost :
    ((unreadable.recognised pdfHeader 1 none).map
        fun page => page.page).Nodup ∧
      ¬ ∃ collected, unreadable.collect pdfHeader "application/pdf" 1 none =
          .ok collected ∧
        LosesNoPage unreadable pdfHeader
          (unreadable.recognised pdfHeader 1 none) collected := by
  refine ⟨by decide, ?_⟩
  rintro ⟨collected, hcollect, h⟩
  rw [collect_unreadable, Except.ok.injEq] at hcollect
  subst hcollect
  have hlayer : ¬ ∃ words,
      unreadable.pymupdf.TextLayer pdfHeader 0 words := by
    rintro ⟨words, hlt, -⟩
    cases hlt
  obtain ⟨page, hpage, -⟩ := h.recognised 0 (by decide) hlayer _
    (List.mem_singleton.mpr rfl) (by decide) (by decide)
  cases hpage

end WordRouter

end Bbox

end Flydocs
