import Flydocs.Repair.FieldRepairer

/-!
# The page window of a repair

The pages that a focused repair pass sees are a run of the pages of its task,
and hold every page that a failing field was reported on.
-/

namespace Flydocs

open Foundation Dtos

/-- What is written is read back as the same pages. -/
def PdfLibrary.Faithful (pdf : PdfLibrary) : Prop :=
  ∀ pages bytes, pdf.writePages pages = .ok bytes →
    pdf.readPages bytes = .ok pages

theorem readPages_of_slicePdf {pdf : PdfLibrary} (hfaithful : pdf.Faithful)
    {bytes sliced : List UInt8} {pages : List pdf.Page}
    (hpages : pdf.readPages bytes = .ok pages) {start finish : Int}
    (hstart : 1 ≤ start) (hfinish : finish ≤ pages.length)
    (h : slicePdf pdf bytes start finish = .ok sliced) :
    start ≤ finish ∧ pdf.readPages sliced =
      .ok ((pages.take finish.toNat).drop (start - 1).toNat) := by
  simp only [slicePdf, hpages, Except.bind] at h
  split at h
  · cases h
  · rename_i hspan
    have hlow : max 0 (start - 1) = start - 1 := by omega
    have hhigh : min (pages.length : Int) finish = finish := by omega
    rw [hlow, hhigh] at h hspan
    exact ⟨by omega, hfaithful _ _ h⟩

namespace Postprocess

theorem headD_sorted_le {pages : List Int} {page : Int} (h : page ∈ pages)
    (default : Int) : (sorted pages).headD default ≤ page := by
  have hsorted : (sorted pages).Pairwise (· ≤ ·) :=
    List.pairwise_insertionSort _ _
  rw [← mem_sorted] at h
  cases hlist : sorted pages with
  | nil => simp [hlist] at h
  | cons first rest =>
      rw [hlist] at h hsorted
      rcases List.mem_cons.mp h with rfl | hrest
      · exact le_rfl
      · exact (List.pairwise_cons.mp hsorted).1 page hrest

theorem le_getLastD_sorted {pages : List Int} {page : Int} (h : page ∈ pages)
    (default : Int) : page ≤ (sorted pages).getLastD default := by
  have hsorted : (sorted pages).Pairwise (· ≤ ·) :=
    List.pairwise_insertionSort _ _
  rw [← mem_sorted] at h
  induction hlist : sorted pages using List.reverseRecOn with
  | nil => simp [hlist] at h
  | append_singleton before last _ =>
      rw [hlist] at h hsorted
      rw [List.getLastD_concat]
      rcases List.mem_append.mp h with hbefore | hlast
      · exact (List.pairwise_append.mp hsorted).2.2 page hbefore last (by simp)
      · rw [List.mem_singleton.mp hlast]

end Postprocess

namespace FieldRepairer

/-! ## Shifted pages -/

mutual

theorem pagesOf_shiftPages (offset : Int) : ∀ field : ExtractedField,
    pagesOf (shiftPages offset field) = (pagesOf field).map (· + offset)
  | ⟨_, value, pages, _, _, _, _, _, _⟩ => by
      rw [shiftPages, pagesOf, pagesOf, pagesOfValue_shiftValue offset value,
        List.map_append]

theorem pagesOfValue_shiftValue (offset : Int) : ∀ value : FieldValue,
    pagesOfValue (shiftValue offset value) =
      (pagesOfValue value).map (· + offset)
  | .list items => by
      rw [shiftValue, pagesOfValue, pagesOfValue,
        pagesOfAll_shiftAll offset items]
  | .null | .str _ | .int _ | .float _ | .bool _ => rfl

theorem pagesOfAll_shiftAll (offset : Int) : ∀ items : List ExtractedField,
    pagesOfAll (shiftAll offset items) = (pagesOfAll items).map (· + offset)
  | [] => rfl
  | item :: items => by
      rw [shiftAll, pagesOfAll, pagesOfAll, pagesOf_shiftPages offset item,
        pagesOfAll_shiftAll offset items, List.map_append]

end

/-! ## The window -/

structure Window (pdf : PdfLibrary) (pages : List pdf.Page)
    (failures : List FailingField) (bytes : List UInt8) (count offset : Int) :
    Prop where
  start : 0 ≤ offset
  finish : offset + count ≤ pages.length
  covers : ∀ failure ∈ failures, ∀ page ∈ failure.pages,
    1 ≤ page → page ≤ pages.length → offset < page ∧ page ≤ offset + count
  seen : ∃ seen, pdf.readPages bytes = .ok seen ∧ (seen.length : Int) = count ∧
    ∀ page : Int, 1 ≤ page → page ≤ count →
      seen[(page - 1).toNat]? = pages[(page + offset - 1).toNat]?
  shifted : ∀ candidate,
    (∀ page ∈ pagesOf candidate, 1 ≤ page ∧ page ≤ count) →
    pagesOf (shiftPages offset candidate) =
        (pagesOf candidate).map (· + offset) ∧
      ∀ page ∈ pagesOf (shiftPages offset candidate),
        1 ≤ page ∧ page ≤ pages.length

variable {pdf : PdfLibrary} {pages : List pdf.Page}
  {failures : List FailingField}

theorem shifted_of_finish {count offset : Int} (hstart : 0 ≤ offset)
    (hfinish : offset + count ≤ pages.length) (candidate : ExtractedField)
    (hcandidate : ∀ page ∈ pagesOf candidate, 1 ≤ page ∧ page ≤ count) :
    pagesOf (shiftPages offset candidate) =
        (pagesOf candidate).map (· + offset) ∧
      ∀ page ∈ pagesOf (shiftPages offset candidate),
        1 ≤ page ∧ page ≤ pages.length := by
  refine ⟨pagesOf_shiftPages offset candidate, ?_⟩
  intro page hpage
  rw [pagesOf_shiftPages] at hpage
  obtain ⟨before, hbefore, rfl⟩ := List.mem_map.mp hpage
  have hrange := hcandidate before hbefore
  omega

theorem window_full {bytes : List UInt8}
    (hpages : pdf.readPages bytes = .ok pages) :
    Window pdf pages failures bytes pages.length 0 where
  start := le_rfl
  finish := by simp
  covers := by
    intro failure _ page _ hlow hhigh
    omega
  seen := ⟨pages, hpages, rfl, by simp⟩
  shifted := shifted_of_finish le_rfl (by simp)

theorem window_sliced (hfaithful : pdf.Faithful) {bytes sliced : List UInt8}
    (hpages : pdf.readPages bytes = .ok pages) {start finish : Int}
    (hstart : 1 ≤ start) (hfinish : finish ≤ pages.length)
    (hcovers : ∀ failure ∈ failures, ∀ page ∈ failure.pages,
      1 ≤ page → page ≤ pages.length → start ≤ page ∧ page ≤ finish)
    (h : slicePdf pdf bytes start finish = .ok sliced) :
    Window pdf pages failures sliced (finish - start + 1) (start - 1) := by
  obtain ⟨hspan, hread⟩ :=
    readPages_of_slicePdf hfaithful hpages hstart hfinish h
  constructor
  case start => omega
  case finish => omega
  case covers =>
    intro failure hfailure page hpage hlow hhigh
    have hrange := hcovers failure hfailure page hpage hlow hhigh
    omega
  case seen =>
    refine ⟨_, hread, ?_, ?_⟩
    · simp only [List.length_drop, List.length_take]
      omega
    · intro page hlow hhigh
      have hindex : (start - 1).toNat + (page - 1).toNat =
          (page + (start - 1) - 1).toNat := by omega
      rw [List.getElem?_drop, hindex, List.getElem?_take_of_lt (by omega)]
  case shifted => exact shifted_of_finish (by omega) (by omega)

/--
Whatever the failures and their pages, the focused pass sees a run of the task's
pages that holds all of theirs, and shifting its answer names the pages it saw.
-/
theorem repairSlice_window {Raised : Type} (self : FieldRepairer Raised)
    (hfaithful : self.pdf.Faithful) (task : RepairTask)
    (pages : List self.pdf.Page)
    (hpages : self.pdf.readPages task.sliceBytes = .ok pages)
    (hcount : task.slicePages = pages.length) (failures : List FailingField) :
    Window self.pdf pages failures (self.repairSlice task failures).1
      (self.repairSlice task failures).2.1
      (self.repairSlice task failures).2.2 := by
  have hfull : ∀ failures, Window self.pdf pages failures task.sliceBytes
      task.slicePages 0 := by
    intro failures
    rw [hcount]
    exact window_full hpages
  unfold repairSlice
  simp only
  split
  · exact hfull failures
  · split
    · exact hfull failures
    · split
      · exact hfull failures
      · split
        · rename_i sliced hsliced
          refine window_sliced hfaithful hpages (by omega) (by omega) ?_ hsliced
          intro failure hfailure page hpage hlow hhigh
          have hmem : page ∈ failures.flatMap FailingField.pages :=
            List.mem_flatMap.mpr ⟨failure, hfailure, hpage⟩
          have hfirst := Postprocess.headD_sorted_le hmem 0
          have hlast := Postprocess.le_getLastD_sorted hmem 0
          omega
        · exact hfull failures

def fivePages : RepairTask where
  taskId := "t1"
  docSpec := { id := "invoice", fieldGroups := [] }
  sliceBytes := [1, 2, 3, 4, 5]
  slicePages := 5
  mediaType := "application/pdf"
  extractedGroups := []

def failsOnThird : FailingField where
  group := "totals"
  field := "net"
  value := .int 10
  evidence := "not on the page"
  pages := [3]

theorem repairSlice_window_third :
    Window emptyHanded.pdf fivePages.sliceBytes [failsOnThird] [2, 3, 4] 3 1 := by
  have hfaithful : emptyHanded.pdf.Faithful := by
    rintro pages bytes ⟨⟩
    rfl
  exact repairSlice_window emptyHanded hfaithful fivePages fivePages.sliceBytes
    rfl rfl [failsOnThird]

end FieldRepairer

end Flydocs
