import Flydocs.Bbox.WordRouter

/-!
# OCR engines

What the router asks for the pages without a text layer.  The engine without
recognition and the one of Tesseract are here.  The image library and Tesseract
are parameters; its table is the dictionary of columns that it returns.
-/

namespace Flydocs

open Foundation Dtos

namespace Bbox

abbrev Recogniser (Failure : Type) :=
  ByteArray → String → Int → Option String →
    Except Failure (List ExtractedPage)

structure Recognised (pages : List ExtractedPage) : Prop where
  distinct : (pages.map fun page => page.page).Nodup
  source_eq : ∀ page ∈ pages, page.source = .ocr
  hasTextLayer_iff : ∀ page ∈ pages,
    page.hasTextLayer = true ↔ page.words ≠ []
  framed : ∀ page ∈ pages, ∀ word ∈ page.words, word.Framed
  text_ne : ∀ page ∈ pages, ∀ word ∈ page.words, word.text ≠ ""

def Recogniser.Sound {Failure : Type} (recognise : Recogniser Failure) : Prop :=
  ∀ data mediaType pageCount languageHint pages,
    recognise data mediaType pageCount languageHint = .ok pages →
      Recognised pages

/-- Four edges on a page of this size, clipped to it; `none` if nothing is
left between them. -/
def boxOn (width height left top right bottom : Rat) :
    Option (Rat × Rat × Rat × Rat) :=
  let xmin := clip (left / width)
  let ymin := clip (top / height)
  let xmax := clip (right / width)
  let ymax := clip (bottom / height)
  if xmin ≥ xmax ∨ ymin ≥ ymax then none else some (xmin, ymin, xmax, ymax)

theorem framed_of_boxOn {width height left top right bottom xmin ymin xmax
    ymax : Rat}
    (h : boxOn width height left top right bottom =
      some (xmin, ymin, xmax, ymax)) : Framed xmin ymin xmax ymax := by
  simp only [boxOn, Option.ite_none_left_eq_some, not_or, not_le,
    Option.some.injEq, Prod.mk.injEq, ge_iff_le] at h
  obtain ⟨⟨hwidth, hheight⟩, rfl, rfl, rfl, rfl⟩ := h
  exact {
    left := (clip_mem _).1
    width := hwidth
    right := (clip_mem _).2
    top := (clip_mem _).1
    height := hheight
    bottom := (clip_mem _).2 }

namespace NoneOcrEngine

def recognise (Failure : Type) : Recogniser Failure :=
  fun _ _ _ _ => .ok []

theorem sound (Failure : Type) : (recognise Failure).Sound := by
  intro data mediaType pageCount languageHint pages h
  cases h
  exact ⟨List.nodup_nil, by simp, by simp, by simp, by simp⟩

end NoneOcrEngine

/-! ## Tesseract -/

/-- The columns of `image_to_data`.  A confidence that `float` refuses is
`none`. -/
structure ImageData where
  text : List (Option String) := []
  conf : List (Option Rat) := []
  left : List Rat := []
  top : List Rat := []
  width : List Rat := []
  height : List Rat := []

structure OcrImage where
  width : Rat
  height : Rat
  data : ImageData

structure TesseractOcrEngine (Failure : Type) where
  library : PythonLibrary
  defaultLang : String
  indexError : Failure
  /-- The pages of a PDF as images, in order; one may fail to be drawn. -/
  pixmaps : ByteArray → Except Failure (List (Except Failure ByteArray))
  /-- An image, opened and read in a language. -/
  read : ByteArray → String → Except Failure OcrImage

namespace TesseractOcrEngine

def isoToTess : List (String × String) :=
  [("es", "spa"), ("en", "eng"), ("fr", "fra"), ("de", "deu"), ("it", "ita"),
    ("pt", "por"), ("nl", "nld"), ("ca", "cat"), ("eu", "eus"), ("gl", "glg"),
    ("ja", "jpn"), ("ko", "kor"), ("zh", "chi_sim"), ("ar", "ara"),
    ("ru", "rus")]

variable {Failure : Type} (engine : TesseractOcrEngine Failure)

def resolveLang (hint : Option String) : String :=
  match hint with
  | none => engine.defaultLang
  | some hint =>
      let norm := engine.library.lower (PythonText.strip hint)
      if norm = "" then engine.defaultLang
      else
        match isoToTess.lookup norm with
        | some mapped => mapped
        | none =>
            if norm.length = 3 ∧ norm.toList.all engine.library.isAlpha then
              norm
            else engine.defaultLang

def column {Value : Type} (values : List Value) (index : Nat) :
    Except Failure Value :=
  match values[index]? with
  | none => .error engine.indexError
  | some value => .ok value

/-- One row of the table: no word where Tesseract recognised none. -/
def word (image : OcrImage) (index : Nat) (text : Option String) :
    Except Failure (Option Word) := do
  let txt := PythonText.strip (text.getD "")
  if txt = "" then return none
  let conf ← engine.column image.data.conf index
  if conf.getD (-1) < 0 then return none
  let x ← engine.column image.data.left index
  let y ← engine.column image.data.top index
  let w ← engine.column image.data.width index
  let h ← engine.column image.data.height index
  if w ≤ 0 ∨ h ≤ 0 then return none
  return (boxOn (orOne image.width) (orOne image.height) x y (x + w)
    (y + h)).map fun (xmin, ymin, xmax, ymax) =>
      { text := txt, xmin, ymin, xmax, ymax }

def ocrImageBytes (imageBytes : ByteArray) (pageNumber : Nat)
    (lang : String) : Except Failure ExtractedPage := do
  let image ← engine.read imageBytes lang
  let words ← image.data.text.zipIdx.mapM fun (text, index) =>
    engine.word image index text
  return {
    page := pageNumber
    width := orOne image.width
    height := orOne image.height
    words := words.filterMap id
    hasTextLayer := !(words.filterMap id).isEmpty
    source := .ocr }

def recognisePdf (data : ByteArray) (lang : String) :
    Except Failure (List ExtractedPage) := do
  let pixmaps ← engine.pixmaps data
  pixmaps.zipIdx.mapM fun (pixmap, pageIndex) => do
    let png ← pixmap
    engine.ocrImageBytes png (pageIndex + 1) lang

def recognise : Recogniser Failure := fun data mediaType _ languageHint =>
  if data.isEmpty then .ok []
  else
    let lang := engine.resolveLang languageHint
    if mediaType = "application/pdf" then engine.recognisePdf data lang
    else (engine.ocrImageBytes data 1 lang).map ([·])

variable {engine}

theorem word_spec {image : OcrImage} {index : Nat} {text : Option String}
    {word : Word} (h : engine.word image index text = .ok (some word)) :
    word.Framed ∧ word.text ≠ "" := by
  unfold TesseractOcrEngine.word at h
  simp only at h
  split at h
  · cases h
  next hink =>
    obtain ⟨conf, -, h⟩ := bind_eq_ok_iff.mp h
    split at h
    · cases h
    · obtain ⟨x, -, h⟩ := bind_eq_ok_iff.mp h
      obtain ⟨y, -, h⟩ := bind_eq_ok_iff.mp h
      obtain ⟨w, -, h⟩ := bind_eq_ok_iff.mp h
      obtain ⟨height, -, h⟩ := bind_eq_ok_iff.mp h
      split at h
      · cases h
      · have hbox := Except.ok.inj h
        obtain ⟨⟨xmin, ymin, xmax, ymax⟩, hrect, rfl⟩ :=
          Option.map_eq_some_iff.mp hbox
        exact ⟨framed_of_boxOn hrect, hink⟩

theorem ocrImageBytes_spec {imageBytes : ByteArray} {pageNumber : Nat}
    {lang : String} {page : ExtractedPage}
    (h : engine.ocrImageBytes imageBytes pageNumber lang = .ok page) :
    page.page = pageNumber ∧ page.source = .ocr ∧
      page.hasTextLayer = !page.words.isEmpty ∧
      ∀ word ∈ page.words, word.Framed ∧ word.text ≠ "" := by
  obtain ⟨image, -, h⟩ := bind_eq_ok_iff.mp h
  obtain ⟨words, hwords, h⟩ := bind_eq_ok_iff.mp h
  cases h
  refine ⟨rfl, rfl, rfl, fun word hword => ?_⟩
  obtain ⟨_, hword, rfl⟩ := List.mem_filterMap.mp hword
  obtain ⟨⟨text, index⟩, -, hrow⟩ :=
    exists_of_forall₂ (mapM_eq_ok_iff.mp hwords) hword
  exact word_spec hrow

theorem recognised_of_forall₂ (engine : TesseractOcrEngine Failure)
    {Source : Type} (sources : List Source) {pages : List ExtractedPage}
    (h : List.Forall₂ (fun (entry : Source × Nat) page =>
      ∃ imageBytes lang, engine.ocrImageBytes imageBytes (entry.2 + 1) lang =
        .ok page) sources.zipIdx pages) : Recognised pages := by
  have hspec (page) (hpage : page ∈ pages) :
      page.source = .ocr ∧ page.hasTextLayer = !page.words.isEmpty ∧
        ∀ word ∈ page.words, word.Framed ∧ word.text ≠ "" := by
    obtain ⟨entry, -, imageBytes, lang, hread⟩ := exists_of_forall₂ h hpage
    exact (ocrImageBytes_spec hread).2
  have hnumbers : pages.map (fun page => page.page) =
      sources.zipIdx.map fun entry => ((entry.2 + 1 : Nat) : Int) := by
    rw [eq_comm, ← List.forall₂_eq_eq_eq, List.forall₂_map_left_iff,
      List.forall₂_map_right_iff]
    refine h.imp ?_
    rintro entry page ⟨imageBytes, lang, hread⟩
    exact (ocrImageBytes_spec hread).1.symm
  refine ⟨?_, fun page hpage => (hspec page hpage).1, ?_, ?_, ?_⟩
  · rw [hnumbers]
    have hmap : sources.zipIdx.map (fun entry => ((entry.2 + 1 : Nat) : Int)) =
        (sources.zipIdx.map Prod.snd).map
          fun index : Nat => ((index + 1 : Nat) : Int) := by
      rw [List.map_map]
      rfl
    rw [hmap, List.zipIdx_map_snd]
    refine (List.nodup_range' 1).map ?_
    intro first second heq
    simpa using heq
  · intro page hpage
    rw [(hspec page hpage).2.1]
    simp
  · exact fun page hpage word hword => ((hspec page hpage).2.2 word hword).1
  · exact fun page hpage word hword => ((hspec page hpage).2.2 word hword).2

theorem sound (engine : TesseractOcrEngine Failure) :
    engine.recognise.Sound := by
  intro data mediaType pageCount languageHint pages h
  unfold recognise at h
  split at h
  · cases h
    exact NoneOcrEngine.sound Failure data mediaType pageCount languageHint []
      rfl
  · simp only at h
    split at h
    · obtain ⟨pixmaps, -, h⟩ := bind_eq_ok_iff.mp h
      refine recognised_of_forall₂ engine pixmaps
        ((mapM_eq_ok_iff.mp h).imp ?_)
      rintro ⟨pixmap, pageIndex⟩ page hpage
      obtain ⟨png, -, hread⟩ := bind_eq_ok_iff.mp hpage
      exact ⟨png, _, hread⟩
    · cases hread : engine.ocrImageBytes data 1
        (engine.resolveLang languageHint) with
      | error raised =>
          rw [hread] at h
          cases h
      | ok page =>
          rw [hread] at h
          cases h
          exact recognised_of_forall₂ engine [()]
            (.cons ⟨data, _, hread⟩ .nil)

end TesseractOcrEngine

end Bbox

end Flydocs
