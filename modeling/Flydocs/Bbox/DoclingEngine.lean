import Mathlib.Data.List.Sort
import Flydocs.Bbox.DoclingPhrase
import Flydocs.Bbox.OcrEngine

/-!
# The layout engine

Docling converts a whole document.  Its items are walked in order, each phrase
and each table cell is boxed on its page, and the words of a page are numbered
by what they were read with.
-/

namespace Flydocs

open Foundation Dtos

namespace Bbox

namespace Docling

structure Corners where
  left : Rat
  top : Rat
  right : Rat
  bottom : Rat
  deriving DecidableEq

/-- The four attributes of a box.  One of Docling's own types converts itself,
given the height of the page. -/
structure BoundingBox where
  l : Rat := 0
  t : Rat := 0
  r : Rat := 0
  b : Rat := 0
  bottomLeft : Bool := false
  toTopLeftOrigin : Option (Rat → Corners) := none

structure Provenance where
  pageNo : Int := 0
  bbox : Option BoundingBox := none

structure TableCell where
  text : Option String := none
  prov : List Provenance := []
  bbox : Option BoundingBox := none
  startRowOffsetIdx : Option Int := none
  startColOffsetIdx : Option Int := none

/-- A missing row or cell of the grid is `none`. -/
structure TableData where
  grid : Option (List (Option (List (Option TableCell)))) := none
  tableCells : Option (List TableCell) := none

structure Item where
  text : Option String := none
  prov : List Provenance := []
  data : Option TableData := none
  tableId : String := ""

structure DoclingDocument where
  pages : List (Int × Option (Rat × Rat))
  items : List Item

def toTopLeft (bbox : BoundingBox) (pageHeight : Rat) : Corners :=
  match bbox.toTopLeftOrigin with
  | some convert => convert pageHeight
  | none =>
      if bbox.bottomLeft then
        ⟨bbox.l, pageHeight - bbox.t, bbox.r, pageHeight - bbox.b⟩
      else ⟨bbox.l, bbox.t, bbox.r, bbox.b⟩

def clamp01 (value : Rat) : Rat :=
  if value < 0 then 0 else if 1 < value then 1 else value

theorem clamp01_eq_clip (value : Rat) : clamp01 value = clip value := by
  unfold clamp01 clip
  split
  next hneg => rw [min_eq_right (hneg.le.trans zero_le_one), max_eq_left hneg.le]
  next hneg =>
    split
    next hone => rw [min_eq_left hone.le, max_eq_right zero_le_one]
    next hone =>
      rw [min_eq_right (not_lt.mp hone), max_eq_right (not_lt.mp hneg)]

def looksLikeTable (item : Item) : Bool :=
  item.data.any fun data => data.grid.isSome || data.tableCells.isSome

def extractTableCells (data : Option TableData) : List TableCell :=
  match data with
  | none => []
  | some data =>
      match data.grid with
      | some grid => grid.flatMap fun row => (row.getD []).filterMap id
      | none => data.tableCells.getD []

end Docling

open Docling

/-! ## The walk -/

abbrev PageSizes := List (Int × (Rat × Rat))

structure DoclingWords where
  pagesWords : Int → List LayoutWord
  readingOrder : Int → Int

namespace DoclingWords

def empty : DoclingWords := ⟨fun _ => [], fun _ => 0⟩

def emit (state : DoclingWords) (pageNo : Int) (size : Rat × Rat)
    (bbox : Docling.BoundingBox) (text : String) (tableId : Option String)
    (rowIdx colIdx : Option Int) : DoclingWords :=
  let tl := toTopLeft bbox size.2
  let xmin := clamp01 (tl.left / size.1)
  let ymin := clamp01 (tl.top / size.2)
  let xmax := clamp01 (tl.right / size.1)
  let ymax := clamp01 (tl.bottom / size.2)
  if xmin ≥ xmax ∨ ymin ≥ ymax then state
  else
    let phrase : Phrase :=
      { page := pageNo, xmin, ymin, xmax, ymax,
        readingOrder := some (state.readingOrder pageNo), tableId, rowIdx,
        colIdx }
    { pagesWords := Function.update state.pagesWords pageNo
        (state.pagesWords pageNo ++ phrase.tokenizePhrase text)
      readingOrder := Function.update state.readingOrder pageNo
        (state.readingOrder pageNo + 1) }

def emitText (pageSizes : PageSizes) (text : String) (state : DoclingWords)
    (prov : Provenance) : DoclingWords :=
  match pageSizes.lookup prov.pageNo with
  | none => state
  | some size =>
      match prov.bbox with
      | none => state
      | some bbox => state.emit prov.pageNo size bbox text none none none

/-- Where a cell stands that does not say so itself. -/
def fallback (pageSizes : PageSizes) (item : Item) : Option Provenance :=
  item.prov.find? fun prov => (pageSizes.lookup prov.pageNo).isSome

def emitCell (pageSizes : PageSizes) (item : Item) (state : DoclingWords)
    (cell : TableCell) : DoclingWords :=
  match cell.text with
  | none => state
  | some text =>
      if PythonText.strip text = "" then state
      else
        let cellProv := cell.prov.head?
        let own := (cellProv.map Provenance.pageNo).getD 0
        let inherited := fallback pageSizes item
        let pageNo :=
          if (pageSizes.lookup own).isNone then
            (inherited.map Provenance.pageNo).getD own
          else own
        match pageSizes.lookup pageNo with
        | none => state
        | some size =>
            match cell.bbox <|> cellProv.bind Provenance.bbox <|>
              inherited.bind Provenance.bbox with
            | none => state
            | some bbox =>
                state.emit pageNo size bbox text (some item.tableId)
                  cell.startRowOffsetIdx cell.startColOffsetIdx

def emitItem (pageSizes : PageSizes) (state : DoclingWords) (item : Item) :
    DoclingWords :=
  if looksLikeTable item then
    (extractTableCells item.data).foldl (emitCell pageSizes item) state
  else
    match item.text with
    | none => state
    | some text =>
        if text = "" then state
        else item.prov.foldl (emitText pageSizes text) state

end DoclingWords

/-! ## The engine -/

/-- `convert` is the converter that was loaded; it may raise, or return a result
without a document. -/
structure DoclingOcrEngine (Failure : Type) where
  getConverter : Except Failure
    (ByteArray → String → Except Failure (Option DoclingDocument))

namespace DoclingOcrEngine

def pageSizes (document : DoclingDocument) : PageSizes :=
  document.pages.foldl (fun sizes entry =>
    match entry.2 with
    | none => sizes
    | some (width, height) =>
        assign entry.1 (orOne width, orOne height) sizes) []

def pageWords (sizes : PageSizes) (state : DoclingWords) (pageNo : Int) :
    ExtractedPage :=
  let size := (sizes.lookup pageNo).getD (1, 1)
  { page := pageNo
    width := size.1
    height := size.2
    words := (state.pagesWords pageNo).map LayoutWord.toWord
    hasTextLayer := !(state.pagesWords pageNo).isEmpty
    source := .ocr }

def extByMime : List (String × String) :=
  [("application/pdf", ".pdf"), ("image/png", ".png"), ("image/jpeg", ".jpg"),
    ("image/tiff", ".tiff"), ("image/bmp", ".bmp"), ("image/webp", ".webp")]

variable {Failure : Type} (engine : DoclingOcrEngine Failure)

def sourceName (mediaType : String) : String :=
  "flydocs-input" ++ (extByMime.lookup mediaType).getD ".pdf"

def recognise : Recogniser Failure := fun data mediaType _ _ =>
  if data.isEmpty then .ok []
  else do
    let convert ← engine.getConverter
    match convert data (sourceName mediaType) with
    | .error _ | .ok none => return []
    | .ok (some document) =>
        let sizes := pageSizes document
        if sizes = [] then return []
        let state := document.items.foldl (DoclingWords.emitItem sizes) .empty
        return ((sizes.map Prod.fst).insertionSort (· ≤ ·)).map
          (pageWords sizes state)

end DoclingOcrEngine

/-! ## What the walk keeps -/

theorem Phrase.mem_tokenizePhrase {phrase : Phrase}
    (hlt : phrase.xmin < phrase.xmax) {text : String} {word : LayoutWord}
    (hword : word ∈ phrase.tokenizePhrase text) :
    word.page = phrase.page ∧ word.readingOrder = phrase.readingOrder ∧
      word.text ≠ "" := by
  by_cases htokens : PythonText.split text = []
  · rw [tokenizePhrase, htokens] at hword
    cases hword
  obtain ⟨token, htoken, hvalue, -⟩ :=
    exists_of_forall₂ (tokenizePhrase_spec hlt htokens).1 hword
  rw [hvalue]
  exact ⟨rfl, rfl, PythonText.ne_empty_of_mem_split htoken⟩

namespace DoclingWords

structure WalkedPage (pageNo : Int) (words : List LayoutWord) (next : Int) :
    Prop where
  page_eq : ∀ word ∈ words, word.page = pageNo
  framed : ∀ word ∈ words, word.toWord.Framed
  text_ne : ∀ word ∈ words, word.text ≠ ""
  numbered : ∀ word ∈ words, ∃ order, word.readingOrder = some order ∧
    order < next
  ordered : words.Pairwise fun first second => ∃ order ∈ first.readingOrder,
    ∃ later ∈ second.readingOrder, order ≤ later

def Walked (state : DoclingWords) : Prop :=
  ∀ pageNo,
    WalkedPage pageNo (state.pagesWords pageNo) (state.readingOrder pageNo)

theorem empty_walked : Walked empty := by
  intro pageNo
  constructor <;> simp [empty]

theorem WalkedPage.append {pageNo : Int} {words : List LayoutWord}
    {next : Int} (h : WalkedPage pageNo words next) {phrase : Phrase}
    (hpage : phrase.page = pageNo)
    (hframed : Framed phrase.xmin phrase.ymin phrase.xmax phrase.ymax)
    (horder : phrase.readingOrder = some next) (text : String) :
    WalkedPage pageNo (words ++ phrase.tokenizePhrase text) (next + 1) := by
  have hnew (word) (hword : word ∈ phrase.tokenizePhrase text) :=
    phrase.mem_tokenizePhrase hframed.width hword
  have hnumber (word) (hword : word ∈ phrase.tokenizePhrase text) :
      next ∈ word.readingOrder := (hnew word hword).2.1.trans horder
  constructor
  · exact List.forall_mem_append.mpr
      ⟨h.page_eq, fun word hword => (hnew word hword).1.trans hpage⟩
  · exact List.forall_mem_append.mpr
      ⟨h.framed, fun word => Phrase.framed_of_mem_tokenizePhrase hframed⟩
  · exact List.forall_mem_append.mpr
      ⟨h.text_ne, fun word hword => (hnew word hword).2.2⟩
  · refine List.forall_mem_append.mpr ⟨fun word hword => ?_, fun word hword =>
      ⟨next, hnumber word hword, by omega⟩⟩
    obtain ⟨order, horder, hlt⟩ := h.numbered word hword
    exact ⟨order, horder, by omega⟩
  · refine List.pairwise_append.mpr ⟨h.ordered,
      List.pairwise_of_forall_mem_list ?_, ?_⟩
    · intro first hfirst second hsecond
      exact ⟨next, hnumber first hfirst, next, hnumber second hsecond, le_rfl⟩
    · intro first hfirst second hsecond
      obtain ⟨order, horder, hlt⟩ := h.numbered first hfirst
      exact ⟨order, horder, next, hnumber second hsecond, hlt.le⟩

theorem emit_walked {state : DoclingWords} (h : Walked state) (pageNo : Int)
    (size : Rat × Rat) (bbox : Docling.BoundingBox) (text : String)
    (tableId : Option String) (rowIdx colIdx : Option Int) :
    Walked (state.emit pageNo size bbox text tableId rowIdx colIdx) := by
  simp only [emit, clamp01_eq_clip, ge_iff_le]
  split
  · exact h
  next hwide =>
    obtain ⟨hwidth, hheight⟩ := not_or.mp hwide
    intro other
    by_cases hpage : other = pageNo
    · subst hpage
      simp only [Function.update_self]
      refine (h other).append rfl ?_ rfl text
      exact {
        left := (clip_mem _).1
        width := not_le.mp hwidth
        right := (clip_mem _).2
        top := (clip_mem _).1
        height := not_le.mp hheight
        bottom := (clip_mem _).2 }
    · simp only [Function.update_of_ne hpage]
      exact h other

theorem emitText_walked {state : DoclingWords} (h : Walked state)
    (pageSizes : PageSizes) (text : String) (prov : Provenance) :
    Walked (state.emitText pageSizes text prov) := by
  unfold emitText
  split
  · exact h
  · split
    · exact h
    · exact emit_walked h _ _ _ _ _ _ _

theorem emitCell_walked {state : DoclingWords} (h : Walked state)
    (pageSizes : PageSizes) (item : Item) (cell : TableCell) :
    Walked (state.emitCell pageSizes item cell) := by
  unfold emitCell
  split
  · exact h
  · split
    · exact h
    · simp only
      split
      · exact h
      · split
        · exact h
        · exact emit_walked h _ _ _ _ _ _ _

theorem emitItem_walked {state : DoclingWords} (h : Walked state)
    (pageSizes : PageSizes) (item : Item) :
    Walked (state.emitItem pageSizes item) := by
  unfold emitItem
  split
  · exact List.foldlRecOn _ _ h fun _ h cell _ =>
      emitCell_walked h pageSizes item cell
  · split
    · exact h
    · split
      · exact h
      · exact List.foldlRecOn _ _ h fun _ h prov _ =>
          emitText_walked h pageSizes _ prov

theorem walked (pageSizes : PageSizes) (items : List Item) :
    Walked (items.foldl (emitItem pageSizes) empty) :=
  List.foldlRecOn _ _ empty_walked fun _ h item _ =>
    emitItem_walked h pageSizes item

end DoclingWords

/-! ## What the engine returns -/

namespace DoclingOcrEngine

variable {Failure : Type} {engine : DoclingOcrEngine Failure}

theorem nodup_pageSizes (document : DoclingDocument) :
    ((pageSizes document).map Prod.fst).Nodup := by
  refine List.foldlRecOn _ _ (motive := fun sizes : PageSizes =>
    (sizes.map Prod.fst).Nodup) List.nodup_nil ?_
  intro sizes h entry _
  split
  · exact h
  · exact nodup_assign h

theorem mem_pageSizes {document : DoclingDocument} {number : Int} :
    number ∈ (pageSizes document).map Prod.fst ↔
      ∃ size, (number, some size) ∈ document.pages := by
  unfold pageSizes
  induction document.pages using List.reverseRecOn with
  | nil => simp
  | append_singleton pages entry ih =>
      obtain ⟨page, size⟩ := entry
      rw [List.foldl_concat]
      cases size with
      | none => simpa using ih
      | some size =>
          rw [mem_map_fst_assign, ih]
          simp [exists_or, or_comm]

def Converts (engine : DoclingOcrEngine Failure) (data : ByteArray)
    (mediaType : String) (document : DoclingDocument) : Prop :=
  data.isEmpty = false ∧ ∃ convert, engine.getConverter = .ok convert ∧
    convert data (sourceName mediaType) = .ok (some document)

/-- Every page that is numbered once, from the first to the last, each with its
words in the order in which they were read. -/
structure ReadInOrder (numbered : Int → Prop) (pages : List ExtractedPage) :
    Prop where
  recognised : Recognised pages
  numbers : ∀ number,
    number ∈ pages.map (fun page => page.page) ↔ numbered number
  sorted : (pages.map fun page => page.page).Pairwise (· < ·)
  ordered : ∀ page ∈ pages, page.words.Pairwise fun first second =>
    ∃ order ∈ first.readingOrder, ∃ later ∈ second.readingOrder, order ≤ later

theorem readInOrder_pageWords {state : DoclingWords} (h : state.Walked)
    {sizes : PageSizes} (hsizes : (sizes.map Prod.fst).Nodup) :
    ReadInOrder (· ∈ sizes.map Prod.fst)
      (((sizes.map Prod.fst).insertionSort (· ≤ ·)).map
        (pageWords sizes state)) := by
  have hnumbers : (((sizes.map Prod.fst).insertionSort (· ≤ ·)).map
      (pageWords sizes state)).map (fun page => page.page) =
        (sizes.map Prod.fst).insertionSort (· ≤ ·) := by
    rw [List.map_map]
    exact List.map_id _
  have hnodup : ((sizes.map Prod.fst).insertionSort (· ≤ ·)).Nodup :=
    (List.perm_insertionSort _ _).nodup_iff.mpr hsizes
  have hword (pageNo : Int) (word) (hword : word ∈
      (pageWords sizes state pageNo).words) :
      ∃ layout ∈ state.pagesWords pageNo, layout.toWord = word :=
    List.mem_map.mp hword
  constructor
  · constructor
    · rw [hnumbers]
      exact hnodup
    · rw [List.forall_mem_map]
      exact fun pageNo _ => rfl
    · rw [List.forall_mem_map]
      intro pageNo _
      simp [pageWords]
    · rw [List.forall_mem_map]
      intro pageNo _ word hmem
      obtain ⟨layout, hlayout, rfl⟩ := hword pageNo word hmem
      exact (h pageNo).framed layout hlayout
    · rw [List.forall_mem_map]
      intro pageNo _ word hmem
      obtain ⟨layout, hlayout, rfl⟩ := hword pageNo word hmem
      exact (h pageNo).text_ne layout hlayout
  · intro number
    rw [hnumbers, List.mem_insertionSort]
  · rw [hnumbers]
    exact (List.pairwise_insertionSort _ _).imp₂
      (fun _ _ hle hne => lt_of_le_of_ne hle hne) hnodup
  · rw [List.forall_mem_map]
    intro pageNo _
    exact List.pairwise_map.mpr (h pageNo).ordered

theorem readInOrder_nil {numbered : Int → Prop} (h : ∀ number, ¬ numbered number) :
    ReadInOrder numbered [] :=
  ⟨⟨List.nodup_nil, by simp, by simp, by simp, by simp⟩, by simpa using h, .nil,
    by simp⟩

theorem recognise_cases {data : ByteArray} {mediaType : String}
    {pageCount : Int} {languageHint : Option String}
    {pages : List ExtractedPage}
    (h : engine.recognise data mediaType pageCount languageHint = .ok pages) :
    (pages = [] ∧ ∀ document, Converts engine data mediaType document →
      pageSizes document = []) ∨
    ∃ document : DoclingDocument, Converts engine data mediaType document ∧
      pages = (((pageSizes document).map Prod.fst).insertionSort (· ≤ ·)).map
        (pageWords (pageSizes document) (document.items.foldl
          (DoclingWords.emitItem (pageSizes document)) .empty)) := by
  unfold recognise at h
  split at h
  · rename_i hempty
    refine .inl ⟨(Except.ok.inj h).symm, fun document hconverts => ?_⟩
    rw [hconverts.1] at hempty
    cases hempty
  · rename_i hdata
    obtain ⟨convert, hconvert, h⟩ := bind_eq_ok_iff.mp h
    have hmade : ∀ document, Converts engine data mediaType document →
        convert data (sourceName mediaType) = .ok (some document) := by
      rintro document ⟨-, other, hother, hdocument⟩
      obtain rfl := Except.ok.inj (hconvert.symm.trans hother)
      exact hdocument
    simp only at h
    split at h
    · rename_i failure hraised
      refine .inl ⟨(Except.ok.inj h).symm, fun document hconverts => ?_⟩
      cases hraised.symm.trans (hmade document hconverts)
    · rename_i hnone
      refine .inl ⟨(Except.ok.inj h).symm, fun document hconverts => ?_⟩
      cases hnone.symm.trans (hmade document hconverts)
    · rename_i document hdocument
      split at h
      · rename_i hsizes
        refine .inl ⟨(Except.ok.inj h).symm, fun other hconverts => ?_⟩
        cases hdocument.symm.trans (hmade other hconverts)
        exact hsizes
      · exact .inr ⟨document, ⟨Bool.eq_false_iff.mpr hdata, convert, hconvert,
          hdocument⟩, (Except.ok.inj h).symm⟩

theorem converts_unique {data : ByteArray} {mediaType : String}
    {document other : DoclingDocument}
    (h : Converts engine data mediaType document)
    (hother : Converts engine data mediaType other) : document = other := by
  obtain ⟨-, convert, hconvert, hdocument⟩ := h
  obtain ⟨-, convert', hconvert', hdocument'⟩ := hother
  obtain rfl := Except.ok.inj (hconvert.symm.trans hconvert')
  exact Option.some.inj (Except.ok.inj (hdocument.symm.trans hdocument'))

def Sized (engine : DoclingOcrEngine Failure) (data : ByteArray)
    (mediaType : String) (number : Int) : Prop :=
  ∃ document, Converts engine data mediaType document ∧
    ∃ size, (number, some size) ∈ document.pages

theorem readInOrder_recognise {data : ByteArray} {mediaType : String}
    {pageCount : Int} {languageHint : Option String}
    {pages : List ExtractedPage}
    (h : engine.recognise data mediaType pageCount languageHint = .ok pages) :
    ReadInOrder (Sized engine data mediaType) pages := by
  rcases recognise_cases h with ⟨rfl, hnone⟩ | ⟨document, hconverts, rfl⟩
  · refine readInOrder_nil ?_
    rintro number ⟨document, hconverts, hsized⟩
    have hmem := mem_pageSizes.mpr hsized
    rw [hnone document hconverts] at hmem
    cases hmem
  · have hread := readInOrder_pageWords
      (DoclingWords.walked (pageSizes document) document.items)
      (nodup_pageSizes document)
    refine { hread with numbers := fun number => (hread.numbers number).trans ?_ }
    rw [mem_pageSizes]
    constructor
    · exact fun hsized => ⟨document, hconverts, hsized⟩
    · rintro ⟨other, hother, hsized⟩
      rwa [converts_unique hconverts hother]

theorem sound (engine : DoclingOcrEngine Failure) :
    engine.recognise.Sound :=
  fun _ _ _ _ _ h => (readInOrder_recognise h).recognised

/--
Whatever Docling makes of a document, the pages whose size it knows come in
order, each once, and the words of a page inside the page and in reading order.
-/
theorem recognise_inOrder (engine : DoclingOcrEngine Failure)
    (data : ByteArray) (mediaType : String) (pageCount : Int)
    (languageHint : Option String) (pages : List ExtractedPage)
    (h : engine.recognise data mediaType pageCount languageHint = .ok pages) :
    ReadInOrder (Sized engine data mediaType) pages :=
  readInOrder_recognise h

def invoiceDocument : DoclingDocument where
  pages := [(2, some (100, 200)), (1, some (100, 200)), (3, none)]
  items :=
    [{ text := some "Invoice 42"
       prov := [⟨2, some { l := 10, t := 10, r := 90, b := 30 }⟩] },
     { prov := [⟨1, some { l := 10, t := 10, r := 90, b := 90 }⟩]
       data := some { tableCells := some [{ text := some "Total" }] }
       tableId := "#/tables/0" }]

def invoiceEngine : DoclingOcrEngine Unit :=
  ⟨.ok fun _ _ => .ok (some invoiceDocument)⟩

theorem recognise_inOrder_invoice : ∃ pages,
    invoiceEngine.recognise ⟨#[0x25]⟩ "application/pdf" 3 none = .ok pages ∧
      (pages.map fun page => page.page) = [1, 2] ∧
      ReadInOrder (Sized invoiceEngine ⟨#[0x25]⟩ "application/pdf") pages :=
  ⟨_, rfl, rfl, recognise_inOrder invoiceEngine ⟨#[0x25]⟩ "application/pdf" 3
    none _ rfl⟩

end DoclingOcrEngine

end Bbox

end Flydocs
