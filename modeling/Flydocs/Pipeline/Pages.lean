import Flydocs.Pipeline.Toggles
import Flydocs.Splitting.Splitter
import Flydocs.Workers.RefineSource

/-!
# The pages of a document

What the splitter clamped stays inside its file for the rest of the run.  So
every document lists pages its file has, and what the extractor is given is the
whole file, exactly those pages of it, or the whole file with the reason filed
among the errors.
-/

namespace Flydocs

open Foundation Interfaces

variable {Group : Type*}

/-! ## Segments inside their file -/

/-- All of a file of that many pages, or a range inside it that has a page. -/
def Segment.Paged (pageCount : Int) (segment : Segment) : Prop :=
  (segment.pageStart = 1 ∧ segment.pageEnd = pageCount) ∨
    (1 ≤ segment.pageStart ∧ segment.pageStart ≤ segment.pageEnd ∧
      segment.pageEnd ≤ pageCount)

def FileSlot.Paged (slot : FileSlot) : Prop :=
  ∀ segment ∈ slot.segments, segment.Paged slot.pageCount

theorem paged_fileSlot (request : ExtractionRequest) (slotIndex : Nat)
    (loaded : LoadedRow) : (fileSlot request slotIndex loaded).Paged := by
  intro segment hsegment
  rw [List.mem_singleton.mp hsegment]
  exact .inl ⟨rfl, rfl⟩

theorem paged_discovered {slot : FileSlot} (h : slot.Paged)
    (hdiscovers : slot.discovers = true) (splitter : DocumentSplitter)
    (index : Nat) :
    (slot.discovered (splitter.discover index slot.pageCount)).Paged := by
  cases hsegments : splitter.discover index slot.pageCount with
  | error exc => exact h
  | ok segments =>
      have hwithin := (splitter.within_discover hsegments).2
      rw [FileSlot.discovers, Bool.and_eq_true, decide_eq_true_eq] at hdiscovers
      cases segments with
      | nil => exact h
      | cons first rest =>
          refine List.forall_mem_map.mpr fun discovered hmem => ?_
          obtain ⟨hstart, hle, hend⟩ := hwithin discovered hmem
          rw [max_eq_right hdiscovers.2.le] at hend
          exact .inr ⟨hstart, hle, hend⟩

theorem paged_assigned {slot : FileSlot} (h : slot.Paged) (only : String) :
    (slot.assigned only).Paged := by
  refine List.forall_mem_map.mpr fun segment hsegment => ?_
  have hpaged := h segment hsegment
  split <;> exact hpaged

theorem paged_classified {slot : FileSlot} (h : slot.Paged)
    (request : ExtractionRequest)
    (gathered : Gathered (Nat × Nat) Failure ClassificationResult)
    (slotIndex : Nat) :
    FileSlot.Paged { slot with
      segments := gathered.deliver (slotIndex, ·) Segment.unresolved
        (Segment.classified request) slot.segments } := by
  refine Gathered.forall_mem_deliver (Segment.Paged slot.pageCount) ?_
    gathered (slotIndex, ·) h
  intro segment outcome _ hpaged
  cases outcome <;> exact hpaged

/-! ## Along a run -/

namespace PipelineState

variable {pdf : PdfLibrary} {splitter : DocumentSplitter}
  {request : ExtractionRequest} {normalise : Normaliser}
  {state next : PipelineState Group}

def FromSplitter (splitter : DocumentSplitter) (state : PipelineState Group) :
    Option (Response Group) → Prop
  | some (.discover gathered) =>
      ∀ files ∈ state.ctx.filesData, ∀ settled ∈ gathered.settled,
        ∀ slot ∈ files[settled.1]?,
          settled.2 = splitter.discover settled.1 slot.pageCount
  | _ => True

theorem paged_stepDiscover {ctx : PipelineContext Group}
    {gathered : Gathered Nat Failure (List DiscoveredSegment)}
    (hsplitter : ∀ files ∈ ctx.filesData, ∀ settled ∈ gathered.settled,
      ∀ slot ∈ files[settled.1]?,
        settled.2 = splitter.discover settled.1 slot.pageCount)
    (hctx : AllSlots FileSlot.Paged ctx) :
    AllSlots FileSlot.Paged (stepDiscover ctx gathered).ctx := by
  unfold stepDiscover
  cases hfiles : ctx.filesData with
  | none => exact hctx
  | some files =>
      rintro _ ⟨⟩ slot hslot
      obtain ⟨index, hindex, rfl⟩ := List.mem_mapIdx.mp hslot
      have hpaged := hctx files hfiles _ (List.getElem_mem hindex)
      split
      next hdiscovers =>
        split
        · exact hpaged
        next outcome houtcome =>
          obtain ⟨before, after, hsettled, -⟩ :=
            List.lookup_eq_some_iff.mp houtcome
          have hsplit := hsplitter files hfiles (index, outcome)
            (by rw [hsettled]; simp) files[index]
            (List.getElem?_eq_getElem hindex)
          dsimp only at hsplit
          rw [hsplit]
          exact paged_discovered hpaged hdiscovers splitter index
      next => exact hpaged

theorem paged_step {label : Option (Response Group)}
    (hpaged : AllSlots FileSlot.Paged state.ctx)
    (hsplitter : FromSplitter splitter state label)
    (hstep : step pdf state label = some next) :
    AllSlots FileSlot.Paged next.ctx := by
  cases stepped hstep with
  | skipped hremaining => exact hpaged
  | @ran response remaining hremaining hanswers =>
      by_cases hdiscover : response.node = .discover
      · cases response with
        | discover gathered => exact paged_stepDiscover hsplitter hpaged
        | _ => cases hdiscover
      · exact allSlots_runNode pdf response paged_fileSlot
          (fun heq => absurd heq hdiscover)
          (fun _ _ hslot =>
            ⟨paged_assigned hslot, paged_classified hslot _⟩) hpaged

/-! ## What planning files -/

def SlicesFiled (pdf : PdfLibrary) (ctx : PipelineContext Group) : Prop :=
  ctx.tasks ≠ none → ∀ files ∈ ctx.filesData, ∀ slot ∈ files,
    ∀ segment ∈ slot.segments, segment.declared ctx.request = true →
      ∀ entry ∈ (sliceSegmentBytes pdf slot segment).error,
        entry ∈ ctx.pipelineErrors

theorem error_mem_routes {request : ExtractionRequest} {files : List FileSlot}
    {slot : FileSlot} (hslot : slot ∈ files) {segment : Segment}
    (hsegment : segment ∈ slot.segments)
    (hdeclared : segment.declared request = true) {entry : PipelineError}
    (hentry : entry ∈ (sliceSegmentBytes pdf slot segment).error) :
    entry ∈ (routes pdf request files : List (Route Group)).filterMap
      Route.error? := by
  obtain ⟨segIndex, hindex, hget⟩ := List.getElem_of_mem hsegment
  obtain ⟨docSpec, hspec⟩ := Option.isSome_iff_exists.mp hdeclared
  refine List.mem_filterMap.mpr
    ⟨planSegment pdf request slot segIndex segment, ?_, ?_⟩
  · refine List.mem_flatMap.mpr ⟨slot, hslot, List.mem_map.mpr
      ⟨(segment, segIndex), ?_, rfl⟩⟩
    rw [List.mk_mem_zipIdx_iff_getElem?, ← hget]
    exact List.getElem?_eq_getElem hindex
  · rw [planSegment, hspec]
    exact hentry

theorem filed_stepPlanTasks (cut : Option Nat) {ctx : PipelineContext Group}
    (hnone : ctx.tasks = none) :
    SlicesFiled pdf (stepPlanTasks pdf ctx cut).ctx := by
  unfold stepPlanTasks
  cases hfiles : ctx.filesData with
  | none => exact fun hsome => absurd hnone hsome
  | some files =>
      cases cut with
      | some planned => exact fun hsome => absurd hnone hsome
      | none =>
          rintro - _ ⟨⟩ slot hslot segment hsegment hdeclared entry hentry
          exact List.mem_append_right _
            (error_mem_routes hslot hsegment hdeclared hentry)

theorem filed_step {label : Option (Response Group)}
    (hplanning : state.Planning pdf request normalise)
    (hfiled : SlicesFiled pdf state.ctx)
    (hstep : step pdf state label = some next) :
    SlicesFiled pdf next.ctx := by
  cases stepped hstep with
  | skipped hremaining => exact hfiled
  | @ran response remaining hremaining hanswers =>
      by_cases hlater : Node.planTasks.position < response.node.position
      · have hfaithful := faithful_runNode pdf state.ctx hlater
        obtain ⟨entries, herrors, -⟩ := files_runNode pdf state.ctx hanswers
        obtain ⟨update, -, htasks⟩ := hfaithful.tasks_eq
        dsimp only [SlicesFiled]
        rw [hfaithful.filesData_eq, hfaithful.request_eq, herrors, htasks]
        intro hplanned files hfiles slot hslot segment hsegment hdeclared
          entry hentry
        have hbefore : state.ctx.tasks ≠ none := fun hnone =>
          hplanned (by rw [hnone]; rfl)
        exact List.mem_append_left _ (hfiled hbefore files hfiles slot hslot
          segment hsegment hdeclared entry hentry)
      · have hnone := hplanning.unloaded hremaining (Nat.not_lt.mp hlater)
        cases response with
        | planTasks cut => exact filed_stepPlanTasks cut hnone
        | load normalise stopped =>
            exact fun hsome => absurd
              ((stepLoad_spec state.ctx normalise stopped).2.1.trans hnone)
              hsome
        | discover gathered =>
            exact fun hsome => absurd
              ((regrouped_stepDiscover state.ctx gathered).tasks_eq.trans hnone)
              hsome
        | classify gathered =>
            exact fun hsome => absurd
              ((regrouped_stepClassifier pdf state.ctx
                gathered).tasks_eq.trans hnone) hsome
        | _ =>
            simp only [Response.node] at hlater
            exact absurd (by decide) hlater

theorem filed_of_runs {defaultModel : String} {stopped : Bool}
    {labels : List (Option (Response Group))}
    (hruns : Runs pdf defaultModel request
      (some (.load normalise stopped) :: labels) state) :
    SlicesFiled pdf state.ctx := by
  obtain ⟨first, hload, hrest⟩ := LabelledStep.run_cons_eq_some.mp hruns
  refine (LabelledStep.run_invariant (fun state : PipelineState Group =>
    state.Planning pdf request normalise ∧ SlicesFiled pdf state.ctx)
    (fun _ _ _ hbefore hstep => ⟨planning_step hbefore.1 hstep,
      filed_step hbefore.1 hbefore.2 hstep⟩) ⟨planning_load hload, ?_⟩ hrest).2
  cases stepped hload with
  | ran hremaining _ =>
      exact fun hsome => absurd (stepLoad_spec _ normalise stopped).2.1 hsome

end PipelineState

/-! ## What the extractor is given -/

/-- No PDF is said to have more pages than the library reads in it, or one. -/
def Counted (pdf : PdfLibrary) (normalise : Normaliser) : Prop :=
  ∀ call bytes declared filename rows,
    normalise call bytes declared filename = .ok rows → ∀ row ∈ rows,
      row.mediaType = "application/pdf" → ∀ pages,
        pdf.readPages row.bytes = .ok pages →
          row.pageCount ≤ max 1 (pages.length : Int)

def FileSlot.Counted (pdf : PdfLibrary) (slot : FileSlot) : Prop :=
  slot.mediaType = "application/pdf" → ∀ pages,
    pdf.readPages slot.documentBytes = .ok pages →
      slot.pageCount ≤ max 1 (pages.length : Int)

inductive Served (pdf : PdfLibrary) (errors : List PipelineError)
    (slot : FileSlot) (task : ExtractionTask Group) : Prop
  | whole
      (hwhole : task.document.pages = pagesRange 1 slot.pageCount ∨
        slot.mediaType ≠ "application/pdf")
      (hbytes : task.sliceBytes = slot.documentBytes)
      (hpages : task.slicePages = slot.pageCount)
  | cut {first last : Nat} {pages : List pdf.Page}
      (hread : pdf.readPages slot.documentBytes = .ok pages)
      (hrange : first < last ∧ last ≤ pages.length)
      (hlisted : task.document.pages = pagesRange (first + 1) last)
      (hwrite : pdf.writePages ((pages.take last).drop first) =
        .ok task.sliceBytes)
      (hpages : task.slicePages = last - first)
  | uncut {exc : Failure}
      (hfailed : pdf.readPages slot.documentBytes = .error exc ∨
        ∃ pages, pdf.writePages pages = .error exc)
      (hfiled : errorEntry "pdf_slicer" "SLICE_ERROR" exc
        (some (slot.filename ++ ":" ++ toString task.segment.pageStart ++ "-" ++
          toString task.segment.pageEnd)) ∈ errors)
      (hbytes : task.sliceBytes = slot.documentBytes)
      (hpages : task.slicePages = slot.pageCount)

/-- A range inside the document is never empty once it is clamped. -/
theorem slicePdf_of_paged {pdf : PdfLibrary} {slot : FileSlot}
    {segment : Segment} {pages : List pdf.Page}
    (hread : pdf.readPages slot.documentBytes = .ok pages)
    (hcount : slot.pageCount ≤ max 1 (pages.length : Int))
    (hpaged : segment.Paged slot.pageCount)
    (hpart : ¬ (segment.pageStart = 1 ∧ segment.pageEnd = slot.pageCount)) :
    ∃ first last : Nat, first < last ∧ last ≤ pages.length ∧
      segment.pageStart = first + 1 ∧ segment.pageEnd = last ∧
      slicePdf pdf slot.documentBytes segment.pageStart segment.pageEnd =
        pdf.writePages ((pages.take last).drop first) := by
  obtain ⟨hstart, hle, hend⟩ := hpaged.resolve_left hpart
  refine ⟨(segment.pageStart - 1).toNat, segment.pageEnd.toNat, by omega,
    by omega, by omega, by omega, ?_⟩
  have hfirst : max 0 (segment.pageStart - 1) = segment.pageStart - 1 := by
    omega
  have hlast : min (pages.length : Int) segment.pageEnd = segment.pageEnd := by
    omega
  simp only [slicePdf, hread, Except.bind, hfirst, hlast]
  rw [if_neg (by omega)]

theorem served_of_planned {pdf : PdfLibrary} {errors : List PipelineError}
    {slot : FileSlot} {task : ExtractionTask Group}
    (hcounted : slot.Counted pdf)
    (hpaged : task.segment.Paged slot.pageCount)
    (hfrom : task.PlannedFrom pdf slot)
    (hfiled : ∀ entry ∈ (sliceSegmentBytes pdf slot task.segment).error,
      entry ∈ errors) : Served pdf errors slot task := by
  obtain ⟨-, hbytes, hpages⟩ := hfrom
  unfold sliceSegmentBytes at hbytes hpages hfiled
  split at hbytes
  next hwhole =>
    rw [if_pos hwhole] at hpages
    refine .whole (hwhole.imp_left fun hall => ?_) hbytes hpages
    rw [ExtractionTask.document, hall.1, hall.2]
  next hpart =>
    rw [if_neg hpart] at hpages hfiled
    rw [not_or, not_not] at hpart
    cases hread : pdf.readPages slot.documentBytes with
    | error exc =>
        have hslice : slicePdf pdf slot.documentBytes task.segment.pageStart
            task.segment.pageEnd = .error exc := by
          rw [slicePdf, hread]
          rfl
        rw [hslice] at hbytes hpages hfiled
        exact .uncut (.inl hread) (hfiled _ rfl) hbytes hpages
    | ok pages =>
        obtain ⟨first, last, hlt, hle, hstart, hend, hslice⟩ :=
          slicePdf_of_paged hread (hcounted hpart.2 pages hread) hpaged hpart.1
        cases hwrite : pdf.writePages ((pages.take last).drop first) with
        | error exc =>
            rw [hslice, hwrite] at hbytes hpages hfiled
            exact .uncut (.inr ⟨_, hwrite⟩) (hfiled _ rfl) hbytes hpages
        | ok sliced =>
            rw [hslice, hwrite] at hbytes hpages
            refine .cut hread ⟨hlt, hle⟩ ?_ (hwrite.trans ?_) ?_
            · rw [ExtractionTask.document, hstart, hend]
            · rw [hbytes]
            · rw [hpages]
              dsimp only
              omega

theorem mem_loadedRows {options : ExtractionOptions} {normalise : Normaliser}
    {call : Nat} {files : List FileInput} {rows : List LoadedRow}
    (h : loadedRows options normalise call files = .ok rows)
    {loaded : LoadedRow} (hloaded : loaded ∈ rows) :
    ∃ call bytes declared filename made,
      normalise call bytes declared filename = .ok made ∧
        loaded.row ∈ made := by
  induction files generalizing call rows with
  | nil =>
      cases h
      cases hloaded
  | cons file files ih =>
      simp only [loadedRows] at h
      cases hbytes : file.decodedBytes with
      | error exc => simp [hbytes, Except.bind] at h
      | ok bytes =>
          simp only [hbytes, Except.bind] at h
          split at h
          next => cases h
          next made hmade =>
            cases hrest : loadedRows options normalise (call + 1) files with
            | error exc => simp [hrest, Except.map] at h
            | ok rest =>
                simp only [hrest, Except.map, Except.ok.injEq] at h
                rw [← h, List.mem_append] at hloaded
                rcases hloaded with hown | hlater
                · obtain ⟨row, hrow, rfl⟩ := List.mem_map.mp hown
                  exact ⟨call, bytes, _, file.filename, made, hmade, hrow⟩
                · exact ih hrest hlater

theorem counted_of_loaded {pdf : PdfLibrary} {request : ExtractionRequest}
    {normalise : Normaliser} {files : List FileSlot}
    (h : Loaded request normalise files) (hcounted : Counted pdf normalise)
    {slot : FileSlot} (hslot : slot ∈ files) : slot.Counted pdf := by
  obtain ⟨slots, hslots, hunsplit⟩ := h.slots_eq
  have hmem : slot.unsplit ∈ slots.map FileSlot.unsplit :=
    hunsplit ▸ List.mem_map_of_mem hslot
  obtain ⟨other, hother, hsame⟩ := List.mem_map.mp hmem
  simp only [FileSlot.unsplit, FileSlot.mk.injEq] at hsame
  obtain ⟨-, -, hmedia, hcount, hbytes, -⟩ := hsame
  unfold loadFiles at hslots
  cases hrows : loadedRows request.options normalise 0 request.files with
  | error exc =>
      rw [hrows] at hslots
      cases hslots
  | ok rows =>
      rw [hrows] at hslots
      cases hslots
      obtain ⟨slotIndex, hindex, rfl⟩ := List.mem_mapIdx.mp hother
      obtain ⟨call, bytes, declared, filename, made, hmade, hrow⟩ :=
        mem_loadedRows hrows (List.getElem_mem hindex)
      rw [FileSlot.Counted, ← hmedia, ← hcount, ← hbytes]
      exact hcounted call bytes declared filename made hmade _ hrow

namespace PipelineState

structure PagesKept (pdf : PdfLibrary) (state : PipelineState Group) :
    Prop where
  documents : ∀ document ∈
    state.result.documents ++ state.result.discoveredDocuments,
      ∃ file ∈ state.result.files, document.sourceFile = some file.filename ∧
        ∃ first last, 1 ≤ first ∧ last ≤ file.pageCount ∧
          document.pages = pagesRange first last ∧
          (1 ≤ file.pageCount → document.pages ≠ [])
  tasks : ∀ task ∈ state.ctx.tasks.getD [], ∃ files ∈ state.ctx.filesData,
    ∃ slot ∈ files, task.segment.filename = slot.filename ∧
      Served pdf state.result.pipeline.errors slot task

theorem pagesRange_ne_nil {first last : Int} (h : first ≤ last) :
    pagesRange first last ≠ [] := by
  have hoffset : ∃ offset : Nat, (offset : Int) < last - first + 1 :=
    ⟨0, by omega⟩
  simpa [pagesRange] using hoffset

/--
With the splitter behind the discoveries and page counts that agree with the
PDF library, every document of a run lists a range of pages that its file has,
an empty one only of a file without pages, and its task was given what `Served`
says.
-/
theorem pages_kept (pdf : PdfLibrary) (splitter : DocumentSplitter)
    (defaultModel : String) (request : ExtractionRequest)
    (normalise : Normaliser) (stopped : Bool)
    (labels : List (Option (Response Group))) (state : PipelineState Group)
    (hcounted : Counted pdf normalise)
    (hsplitter : LabelledStep.EveryStep (step pdf) (FromSplitter splitter)
      (initial defaultModel request) (some (.load normalise stopped) :: labels))
    (hruns : Runs pdf defaultModel request
      (some (.load normalise stopped) :: labels) state) :
    PagesKept pdf state := by
  have hplanning := planning_of_runs hruns
  have hpaged : AllSlots FileSlot.Paged state.ctx :=
    LabelledStep.run_invariant_of_everyStep
      (fun state : PipelineState Group => AllSlots FileSlot.Paged state.ctx)
      (fun _ _ _ hbefore hmeets hstep => paged_step hbefore hmeets hstep)
      (by rintro _ ⟨⟩) hsplitter hruns
  have hfiled := filed_of_runs hruns
  constructor
  · intro document hdocument
    obtain ⟨files, hfiles, slot, hslot, segment, hmem, hsource, hpages⟩ :=
      hplanning.segment_of_document hdocument
    have hinside :=
      ((hplanning.loaded files hfiles).segmented slot hslot).inside segment hmem
    have hrange : 1 ≤ segment.pageStart ∧ segment.pageEnd ≤ slot.pageCount ∧
        (1 ≤ slot.pageCount → segment.pageStart ≤ segment.pageEnd) := by
      rcases hpaged files hfiles slot hslot segment hmem with hall | hpart
      · omega
      · omega
    refine ⟨fileInfo slot, fileInfo_mem hfiles hslot, ?_, segment.pageStart,
      segment.pageEnd, hrange.1, hrange.2.1, hpages, fun hcount => ?_⟩
    · rw [hsource, hinside.filename_eq]
      rfl
    · rw [hpages]
      exact pagesRange_ne_nil (hrange.2.2 hcount)
  · intro task htask
    cases htasks : state.ctx.tasks with
    | none =>
        rw [htasks] at htask
        cases htask
    | some tasks =>
        rw [htasks] at htask
        obtain ⟨-, files, hplan⟩ := hplanning.planned tasks htasks
        have hloaded := hplanning.loaded files hplan.filesData_eq
        obtain ⟨slot, hindex, hfrom, hinside⟩ :=
          BboxRefineWorker.planned_from hplan hloaded htask
        have hslot := List.mem_of_getElem? hindex
        have hdeclared : task.segment.declared state.ctx.request = true := by
          have hplanned : task.segment ∈ tasks.map ExtractionTask.segment :=
            List.mem_map_of_mem htask
          rw [hplan.task_segments] at hplanned
          exact List.of_mem_filter hplanned
        exact ⟨files, hplan.filesData_eq, slot, hslot, hinside.filename_eq,
          served_of_planned (counted_of_loaded hloaded hcounted hslot)
            (hpaged files hplan.filesData_eq slot hslot _ hfrom.segment_mem)
            hfrom (hfiled (by simp [htasks]) files hplan.filesData_eq slot
              hslot _ hfrom.segment_mem hdeclared)⟩

def scanSplitter : DocumentSplitter where
  lower := id
  answer _ := .ok [{ pages := {} }, { pages := { first := 2, last := 9 } }]

theorem counted_scanPages : Counted bytePages scanPages := by
  rintro call bytes declared filename _ ⟨⟩ row hrow - _ ⟨⟩
  rw [List.mem_singleton.mp hrow]
  exact le_max_right 1 _

theorem pages_kept_scan : ∃ state : PipelineState Unit,
    Runs bytePages "model" scanRequest (scanLabels ++ [some (.planTasks none)])
        state ∧
      state.result.documents.map Document.pages = [[1]] ∧
      PagesKept bytePages state := by
  have hrun : (LabelledStep.run (step bytePages)
      (initial "model" scanRequest : PipelineState Unit)
      (scanLabels ++ [some (.planTasks none)])).map
        (fun state => state.result.documents.map Document.pages) =
          some [[1]] := by
    decide
  obtain ⟨state, hstate, hpages⟩ := Option.map_eq_some_iff.mp hrun
  refine ⟨state, hstate, hpages, pages_kept bytePages scanSplitter "model"
    scanRequest scanPages false _ state counted_scanPages ?_ hstate⟩
  refine ⟨trivial, fun first hfirst => ⟨?_, fun _ _ => ⟨trivial,
    fun _ _ => ⟨trivial, fun _ _ => trivial⟩⟩⟩⟩
  have hcounts : (step bytePages
      (initial "model" scanRequest : PipelineState Unit)
      (some (.load scanPages false))).map
        (fun next => next.ctx.filesData.map
          (List.map FileSlot.pageCount)) = some (some [2]) := by
    decide
  rw [hfirst, Option.map_some, Option.some.injEq] at hcounts
  intro files hfiles settled hsettled slot hslot
  rw [hfiles, Option.map_some, Option.some.injEq] at hcounts
  rw [List.mem_singleton.mp hsettled] at hslot ⊢
  have hcount : slot.pageCount = 2 := by
    have hmem := List.mem_map_of_mem (f := FileSlot.pageCount)
      (List.mem_of_getElem? hslot)
    rw [hcounts] at hmem
    exact List.mem_singleton.mp hmem
  rw [hcount]
  decide +kernel

end PipelineState

end Flydocs
