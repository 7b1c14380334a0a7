import Flydocs.Pipeline.Conservation

/-!
# The source of an asynchronous refinement

The inline step hands the refiner the slice of each task.  The worker, which
has no tasks, normalises the stored files again and looks the source of each
document up by its file name.
-/

namespace Flydocs

open Foundation Interfaces

variable {Group : Type*}

namespace BboxRefineWorker

/-! ## What the worker hands over -/

structure RefineRow (Group : Type*) where
  id : String
  filename : String
  files : List FileInput
  result : Option (ExtractionResult Group)
  deriving DecidableEq, Repr

def sources (rowFilename : String) : List FileInput →
    Except Failure (List (List UInt8 × Option String × String))
  | [] => .ok []
  | entry :: files =>
      if Projector.truthy entry.contentBase64 then
        (Base64.b64decode (entry.contentBase64.getD "")).bind fun bytes =>
        (sources rowFilename files).map fun rest =>
          (bytes, entry.contentType,
            Projector.orDefault (some entry.filename) rowFilename) :: rest
      else sources rowFilename files

def normaliseAll (normalise : Normaliser) :
    Nat → List (List UInt8 × Option String × String) →
      Except Failure (List BinaryArtifact)
  | _, [] => .ok []
  | call, (bytes, mediaType, name) :: rest =>
      (normalise call bytes mediaType name).bind fun rows =>
      (normaliseAll normalise (call + 1) rest).map fun later => rows ++ later

def normalised (row : RefineRow Group) (normalise : Normaliser) :
    Except Failure (List BinaryArtifact) :=
  let failure := fun text =>
    Base64.valueError ("extraction " ++ row.id ++ " " ++ text)
  if row.result.isNone then .error (failure "has no result_json to refine")
  else if row.files.isEmpty then
    .error (failure "schema_json missing 'files'")
  else
    (sources row.filename row.files).bind fun sources =>
      if sources.isEmpty then
        .error (failure "has no decodable file bytes in schema_json")
      else normaliseAll normalise 0 sources

def artifactSource (artifact : BinaryArtifact) : RefineSource :=
  ⟨artifact.bytes, artifact.mediaType, artifact.pageCount⟩

def refineOne (row : RefineRow Group) (normalise : Normaliser)
    (document : Document Group) : Option RefineSource :=
  match normalised row normalise with
  | .error _ => none
  | .ok artifacts =>
      if document.fieldGroups.isEmpty then none
      else (lookupLast BinaryArtifact.filename artifacts
        (document.sourceFile.getD "")).map artifactSource

def persisted (id filename : String) (request : ExtractionRequest)
    (result : ExtractionResult Group) : RefineRow Group :=
  ⟨id, filename, request.files, some result⟩

/--
For every document with field groups, the worker hands over what the inline
step hands over for the task that produced it.
-/
def SameSources (row : RefineRow Group) (normalise : Normaliser)
    (tasks : List (ExtractionTask Group)) : Prop :=
  ∀ task ∈ tasks, task.document.fieldGroups ≠ [] →
    refineOne row normalise task.document = task.refineSource

/-! ## Where the two agree -/

/-- The node sees the whole file: there is no page range to cut, or no way. -/
def Unsliced (pdf : PdfLibrary) (slot : FileSlot) (segment : Segment) : Prop :=
  (segment.pageStart = 1 ∧ segment.pageEnd = slot.pageCount) ∨
    slot.mediaType ≠ "application/pdf" ∨
    ∃ exc, slicePdf pdf slot.documentBytes segment.pageStart
      segment.pageEnd = .error exc

/--
The last row filed under the name of the segment's file holds what the segment
is read from: the file itself, or the pages cut out of it.
-/
structure Filed (pdf : PdfLibrary) (artifacts : List BinaryArtifact)
    (slot : FileSlot) (segment : Segment) (artifact : BinaryArtifact) :
    Prop where
  last : ∃ before after, artifacts = before ++ artifact :: after ∧
    artifact.filename = slot.filename ∧
      ∀ later ∈ after, later.filename ≠ slot.filename
  mediaType_eq : artifact.mediaType = slot.mediaType
  content :
    (Unsliced pdf slot segment ∧ artifact.bytes = slot.documentBytes ∧
      artifact.pageCount = slot.pageCount) ∨
    (¬ Unsliced pdf slot segment ∧
      slicePdf pdf slot.documentBytes segment.pageStart segment.pageEnd =
        .ok artifact.bytes ∧
      artifact.pageCount = segment.pageEnd - segment.pageStart + 1)

theorem slice_of_unsliced {pdf : PdfLibrary} {slot : FileSlot}
    {segment : Segment} (h : Unsliced pdf slot segment) :
    (sliceSegmentBytes pdf slot segment).bytes = slot.documentBytes ∧
      (sliceSegmentBytes pdf slot segment).pages = slot.pageCount := by
  unfold sliceSegmentBytes
  rcases h with hwhole | hmedia | ⟨exc, hexc⟩
  · rw [if_pos (.inl hwhole)]
    exact ⟨rfl, rfl⟩
  · rw [if_pos (.inr hmedia)]
    exact ⟨rfl, rfl⟩
  · split
    · exact ⟨rfl, rfl⟩
    · rw [hexc]
      exact ⟨rfl, rfl⟩

theorem slice_of_sliced {pdf : PdfLibrary} {slot : FileSlot}
    {segment : Segment} (h : ¬ Unsliced pdf slot segment) :
    ∃ sliced, slicePdf pdf slot.documentBytes segment.pageStart
        segment.pageEnd = .ok sliced ∧
      (sliceSegmentBytes pdf slot segment).bytes = sliced ∧
      (sliceSegmentBytes pdf slot segment).pages =
        segment.pageEnd - segment.pageStart + 1 := by
  unfold Unsliced at h
  rw [not_or, not_or] at h
  obtain ⟨hwhole, hmedia, hslice⟩ := h
  unfold sliceSegmentBytes
  rw [if_neg (by rw [not_or]; exact ⟨hwhole, hmedia⟩)]
  cases hresult : slicePdf pdf slot.documentBytes segment.pageStart
      segment.pageEnd with
  | error exc => exact absurd ⟨exc, hresult⟩ hslice
  | ok sliced => exact ⟨sliced, rfl, rfl, rfl⟩

theorem artifactSource_eq_iff {pdf : PdfLibrary} {slot : FileSlot}
    {segment : Segment} {artifact : BinaryArtifact} :
    artifactSource artifact =
        ⟨(sliceSegmentBytes pdf slot segment).bytes, slot.mediaType,
          (sliceSegmentBytes pdf slot segment).pages⟩ ↔
      artifact.mediaType = slot.mediaType ∧
        ((Unsliced pdf slot segment ∧ artifact.bytes = slot.documentBytes ∧
            artifact.pageCount = slot.pageCount) ∨
          (¬ Unsliced pdf slot segment ∧
            slicePdf pdf slot.documentBytes segment.pageStart
              segment.pageEnd = .ok artifact.bytes ∧
            artifact.pageCount =
              segment.pageEnd - segment.pageStart + 1)) := by
  simp only [artifactSource, RefineSource.mk.injEq]
  by_cases hunsliced : Unsliced pdf slot segment
  · obtain ⟨hbytes, hpages⟩ := slice_of_unsliced hunsliced
    rw [hbytes, hpages]
    simp only [hunsliced, true_and, not_true_eq_false, false_and, or_false]
    tauto
  · obtain ⟨sliced, hslice, hbytes, hpages⟩ := slice_of_sliced hunsliced
    rw [hbytes, hpages, hslice]
    simp only [hunsliced, not_false_eq_true, true_and, false_and, false_or,
      Except.ok.injEq, @eq_comm _ sliced]
    tauto

theorem lookup_eq_iff {pdf : PdfLibrary} {artifacts : List BinaryArtifact}
    {slot : FileSlot} {segment : Segment} :
    (lookupLast BinaryArtifact.filename artifacts slot.filename).map
        artifactSource =
      some ⟨(sliceSegmentBytes pdf slot segment).bytes, slot.mediaType,
        (sliceSegmentBytes pdf slot segment).pages⟩ ↔
      ∃ artifact, Filed pdf artifacts slot segment artifact := by
  rw [Option.map_eq_some_iff]
  refine exists_congr fun artifact => ?_
  rw [lookupLast_eq_some_iff, artifactSource_eq_iff]
  constructor
  · rintro ⟨hlast, hmedia, hcontent⟩
    exact ⟨hlast, hmedia, hcontent⟩
  · intro h
    exact ⟨h.last, h.mediaType_eq, h.content⟩

/-! ## The slot of a task -/

theorem fileIndex_loadFiles {request : ExtractionRequest}
    {normalise : Normaliser} {slots : List FileSlot}
    (h : loadFiles request normalise = .ok slots) (index : Nat) :
    (slots.map FileSlot.fileIndex)[index]? =
      (slots[index]?).map fun _ => index := by
  unfold loadFiles at h
  cases hrows : loadedRows request.options normalise 0 request.files with
  | error exc =>
      rw [hrows] at h
      cases h
  | ok rows =>
      rw [hrows] at h
      cases h
      rw [List.getElem?_map, List.getElem?_mapIdx, Option.map_map,
        Option.map_map]
      rfl

theorem getElem?_fileIndex {request : ExtractionRequest}
    {normalise : Normaliser} {files : List FileSlot}
    (h : Loaded request normalise files) {slot : FileSlot}
    (hslot : slot ∈ files) : files[slot.fileIndex]? = some slot := by
  obtain ⟨slots, hslots, hunsplit⟩ := h.slots_eq
  obtain ⟨index, hindex⟩ := List.getElem?_of_mem hslot
  have hsame : files.map FileSlot.fileIndex = slots.map FileSlot.fileIndex := by
    have hmap := congrArg (List.map FileSlot.fileIndex) hunsplit
    rw [List.map_map, List.map_map] at hmap
    exact hmap
  have hnumber := fileIndex_loadFiles hslots index
  rw [← hsame, List.getElem?_map, hindex] at hnumber
  cases hother : slots[index]? with
  | none =>
      rw [hother] at hnumber
      cases hnumber
  | some other =>
      rw [hother] at hnumber
      simp only [Option.map_some, Option.some.injEq] at hnumber
      rw [hnumber]
      exact hindex

theorem planned_from {pdf : PdfLibrary} {request : ExtractionRequest}
    {normalise : Normaliser} {ctx : PipelineContext Group}
    {tasks : List (ExtractionTask Group)} {files : List FileSlot}
    (hplan : PlanOf pdf ctx tasks files)
    (hloaded : Loaded request normalise files)
    {task : ExtractionTask Group} (htask : task ∈ tasks) :
    ∃ slot, files[task.segment.fileIndex]? = some slot ∧
      task.PlannedFrom pdf slot ∧ task.segment.Inside slot := by
  have hmem : task.asPlanned ∈ tasks.map ExtractionTask.asPlanned :=
    List.mem_map_of_mem htask
  rw [hplan.planned_eq] at hmem
  obtain ⟨planned, hplanned, hsame⟩ := List.mem_map.mp hmem
  obtain ⟨-, slot, hslot, hfrom⟩ := mem_planned pdf ctx.request hplanned
  simp only [ExtractionTask.asPlanned, ExtractionTask.mk.injEq] at hsame
  obtain ⟨-, hsegment, -, hbytes, hpages, -⟩ := hsame
  obtain ⟨hmem, hsliceBytes, hslicePages⟩ := hfrom
  rw [hsegment] at hmem hsliceBytes hslicePages
  have hinside := (hloaded.segmented slot hslot).inside _ hmem
  refine ⟨slot, ?_, ⟨hmem, hbytes ▸ hsliceBytes, hpages ▸ hslicePages⟩,
    hinside⟩
  rw [hinside.fileIndex_eq]
  exact getElem?_fileIndex hloaded hslot

/-! ## Equivalence of the two paths -/

theorem refineSource_of_grounded {task : ExtractionTask Group}
    (hgrounded : task.Grounded) (hgroups : task.hasGroups = true) :
    task.refineSource =
      some ⟨task.sliceBytes, task.segment.mediaType, task.slicePages⟩ := by
  simp [ExtractionTask.refineSource, hgroups, hgrounded hgroups]

def FiledFor (pdf : PdfLibrary) (row : RefineRow Group)
    (normalise : Normaliser) (files : List FileSlot)
    (task : ExtractionTask Group) : Prop :=
  ∃ artifacts slot artifact, normalised row normalise = .ok artifacts ∧
    files[task.segment.fileIndex]? = some slot ∧
    Filed pdf artifacts slot task.segment artifact

theorem refineOne_eq_iff {pdf : PdfLibrary} {request : ExtractionRequest}
    {loading normalise : Normaliser} {ctx : PipelineContext Group}
    {tasks : List (ExtractionTask Group)} {files : List FileSlot}
    (hplan : PlanOf pdf ctx tasks files)
    (hloaded : Loaded request loading files) (row : RefineRow Group)
    {task : ExtractionTask Group} (htask : task ∈ tasks)
    (hgroups : task.hasGroups = true) :
    refineOne row normalise task.document = task.refineSource ↔
      FiledFor pdf row normalise files task := by
  obtain ⟨slot, hslot, hfrom, hinside⟩ := planned_from hplan hloaded htask
  rw [refineSource_of_grounded (hplan.grounded task htask) hgroups,
    hfrom.sliceBytes_eq, hfrom.slicePages_eq, hinside.mediaType_eq]
  have hnonempty : task.document.fieldGroups.isEmpty = false := by
    simpa [ExtractionTask.hasGroups, ExtractionTask.document] using hgroups
  have hname : task.document.sourceFile.getD "" = slot.filename :=
    hinside.filename_eq
  unfold refineOne FiledFor
  cases hnormalised : normalised row normalise with
  | error exc => simp
  | ok artifacts =>
      simp only [hnonempty, hname, Bool.false_eq_true, if_false,
        lookup_eq_iff, hslot, Except.ok.injEq, Option.some.injEq]
      simp

/--
Refining asynchronously uses the sources of the inline step exactly when, for
every document with field groups, the last row the worker files under the name
of its source file holds what that document was read from.
-/
theorem same_sources_iff (pdf : PdfLibrary) (defaultModel : String)
    (request : ExtractionRequest) (loading : Normaliser) (stopped : Bool)
    (labels : List (Option (Response Group))) (state : PipelineState Group)
    (hruns : PipelineState.Runs pdf defaultModel request
      (some (.load loading stopped) :: labels) state)
    (id filename : String) (normalise : Normaliser) :
    SameSources (persisted id filename request state.result) normalise
        (state.ctx.tasks.getD []) ↔
      ∀ task ∈ state.ctx.tasks.getD [], task.extractedGroups ≠ [] →
        FiledFor pdf (persisted id filename request state.result) normalise
          (state.ctx.filesData.getD []) task := by
  have hplanning := PipelineState.planning_of_runs hruns
  cases htasks : state.ctx.tasks with
  | none => simp [SameSources]
  | some tasks =>
      obtain ⟨-, files, hplan⟩ := hplanning.planned tasks htasks
      have hloaded := hplanning.loaded files hplan.filesData_eq
      simp only [SameSources, Option.getD_some, hplan.filesData_eq]
      refine forall₂_congr fun task htask => ?_
      refine forall_congr' fun hgroups => ?_
      refine refineOne_eq_iff hplan hloaded _ htask ?_
      simpa [ExtractionTask.hasGroups, ExtractionTask.document] using hgroups

/-! ## A whole scan and a split one -/

def extracting : List (Option (Response Unit)) :=
  [some (.planTasks none), some (.extract ⟨[(0, .ok ([()], "model"))], false⟩),
    some (.bboxValidation untouched false),
    some (.fieldValidation untouched false), some .assemble]

def wholeScan : List (Option (Response Unit)) :=
  [some (.discover ⟨[(0, .ok [])], false⟩),
    some (.classify ⟨[((0, 0), .ok { documentType := "invoice" })], false⟩)] ++
    extracting

def scanRow (state : PipelineState Unit) : RefineRow Unit :=
  persisted "ext_1" "scan.pdf" scanRequest state.result

theorem same_sources_iff_whole :
    ∃ state : PipelineState Unit,
      PipelineState.Runs bytePages "model" scanRequest
        (some (.load scanPages false) :: wholeScan) state ∧
      state.ctx.tasks.map List.length = some 1 ∧
      ∀ task ∈ state.ctx.tasks.getD [], task.extractedGroups ≠ [] →
        FiledFor bytePages (scanRow state) scanPages
          (state.ctx.filesData.getD []) task := by
  have hrun : (LabelledStep.run (PipelineState.step bytePages)
      (PipelineState.initial "model" scanRequest : PipelineState Unit)
      (some (.load scanPages false) :: wholeScan)).map (fun state =>
        (state.ctx.tasks.map List.length,
          (state.ctx.tasks.getD []).all fun task =>
            decide (refineOne (scanRow state) scanPages task.document =
              task.refineSource))) = some (some 1, true) := by
    decide
  obtain ⟨state, hstate, hfinal⟩ := Option.map_eq_some_iff.mp hrun
  rw [Prod.mk.injEq, List.all_eq_true] at hfinal
  obtain ⟨htasks, hsame⟩ := hfinal
  refine ⟨state, hstate, htasks, ?_⟩
  refine (same_sources_iff bytePages "model" scanRequest scanPages false
    wholeScan state hstate "ext_1" "scan.pdf" scanPages).mp ?_
  intro task htask _
  exact of_decide_eq_true (hsame task htask)

/-- The second document of a split scan makes the first be cut out of it. -/
theorem split_scan_differs :
    ¬ ∀ (labels : List (Option (Response Unit)))
      (state : PipelineState Unit),
      PipelineState.Runs bytePages "model" scanRequest labels state →
        state.remaining = [] →
        SameSources (scanRow state) scanPages
          (state.ctx.tasks.getD []) := by
  intro hclaim
  have hrun : (LabelledStep.run (PipelineState.step bytePages)
      (PipelineState.initial "model" scanRequest : PipelineState Unit)
      (scanLabels ++ extracting)).map (fun state => (state.remaining,
        (state.ctx.tasks.getD []).map fun task =>
          (task.extractedGroups,
            refineOne (scanRow state) scanPages task.document,
            task.refineSource))) =
      some ([], [([()], some ⟨[65, 66], "application/pdf", 2⟩,
        some ⟨[65], "application/pdf", 1⟩)]) := by
    decide
  obtain ⟨state, hstate, hfinal⟩ := Option.map_eq_some_iff.mp hrun
  rw [Prod.mk.injEq] at hfinal
  obtain ⟨hover, htasks⟩ := hfinal
  obtain ⟨task, hsingle, htask⟩ := List.map_eq_singleton_iff.mp htasks
  simp only [Prod.mk.injEq] at htask
  obtain ⟨hgroups, hworker, hinline⟩ := htask
  have hsame := hclaim _ state hstate hover task (by simp [hsingle])
    (by simp [ExtractionTask.document, hgroups])
  rw [hworker, hinline] at hsame
  exact absurd hsame (by decide)

end BboxRefineWorker

end Flydocs
