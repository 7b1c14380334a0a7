import Mathlib.Algebra.Order.Ring.Rat
import Flydocs.Foundation.PythonText
import Flydocs.Pipeline.Context

/-!
# The document splitter

`DocumentSplitter.discover` asks a model for the documents in a file and clamps
the page ranges it gets back.  Overlaps and gaps stay, but no range is empty
and none leaves the file.
-/

namespace Flydocs

open Foundation

/-! ## What the model may answer -/

structure PageRangeModel where
  first : Int := 1
  last : Int := 1
  one_le_first : 1 ≤ first := by decide
  one_le_last : 1 ≤ last := by decide

structure SegmentModel where
  pages : PageRangeModel
  provisionalType : String := ""
  description : String := ""
  confidence : Rat := 0
  confidence_nonneg : 0 ≤ confidence := by decide +kernel
  confidence_le_one : confidence ≤ 1 := by decide +kernel

/--
The splitter with what it takes from outside: `str.lower`, and what the model
answers for the file of an index.
-/
structure DocumentSplitter where
  lower : String → String
  answer : Nat → Except Failure (List SegmentModel)

def DiscoveredSegment.Within (pageCount : Int) (segment : DiscoveredSegment) :
    Prop :=
  1 ≤ segment.pageStart ∧ segment.pageStart ≤ segment.pageEnd ∧
    segment.pageEnd ≤ max 1 pageCount

namespace DocumentSplitter

variable (self : DocumentSplitter)

def clamped (pageCount : Int) (entry : SegmentModel) : DiscoveredSegment :=
  let first := max 1 (min pageCount entry.pages.first)
  { pageStart := first
    pageEnd := max first (min pageCount entry.pages.last)
    provisionalType := self.lower (PythonText.strip entry.provisionalType)
    description := PythonText.strip entry.description
    confidence := entry.confidence }

def discover (index : Nat) (pageCount : Int) :
    Except Failure (List DiscoveredSegment) :=
  -- a single page needs no model
  if pageCount ≤ 1 then
    .ok [{ pageStart := 1, pageEnd := max 1 pageCount, confidence := 1 }]
  else
    (self.answer index).map fun raw =>
      if raw.isEmpty then [{ pageStart := 1, pageEnd := pageCount }]
      else raw.map (self.clamped pageCount)

/-! ## Ranges inside the file -/

theorem within_clamped {pageCount : Int} (hpages : 1 < pageCount)
    (entry : SegmentModel) : (self.clamped pageCount entry).Within pageCount := by
  have hfirst := entry.pages.one_le_first
  simp only [DiscoveredSegment.Within, clamped]
  omega

theorem within_discover {index : Nat} {pageCount : Int}
    {segments : List DiscoveredSegment}
    (h : self.discover index pageCount = .ok segments) :
    segments ≠ [] ∧ ∀ segment ∈ segments, segment.Within pageCount := by
  unfold discover at h
  split at h
  next hsingle =>
    cases h
    refine ⟨List.cons_ne_nil _ _, List.forall_mem_singleton.mpr ?_⟩
    simp only [DiscoveredSegment.Within]
    omega
  next hpages =>
    rw [Int.not_le] at hpages
    cases hanswer : self.answer index with
    | error exc =>
        rw [hanswer] at h
        cases h
    | ok raw =>
        rw [hanswer] at h
        cases raw with
        | nil =>
            cases h
            refine ⟨List.cons_ne_nil _ _, List.forall_mem_singleton.mpr ?_⟩
            simp only [DiscoveredSegment.Within]
            omega
        | cons entry raw =>
            cases h
            exact ⟨List.cons_ne_nil _ _, List.forall_mem_map.mpr fun entry _ =>
              self.within_clamped hpages entry⟩

end DocumentSplitter

end Flydocs
