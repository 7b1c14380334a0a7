import Flydocs.Web.SizeLimits
import Flydocs.Workers.BuildRequest
import Flydocs.Workers.RefineSource

/-!
# Files on their way into the service

A caller has bytes and a name.  They travel as base64, as it is or in a `data:`
URL, through the client or straight to the endpoint.  The service stores one
text for all of them, and each of its readers gets the bytes back.
-/

namespace Flydocs

open Foundation Dtos

namespace Sdk

/-- Its `header` is what a `data:` URL has between the scheme and the comma. -/
structure Upload where
  data : List UInt8
  filename : String
  contentType : Option String := none
  expectedType : Option String := none
  header : Option String := none
  viaClient : Bool := true
  filename_ne : filename ≠ "" := by decide
  header_plain : ∀ text ∈ header, ',' ∉ text.toList := by decide

def stripDataUrlPrefix (value : Option String) : Option String :=
  value.map stripDataUrl

def contentBase64 (data : List UInt8) : Option String → String
  | none => Base64.b64encode data
  | some header => "data:" ++ header ++ "," ++ Base64.b64encode data

/-- The file in the request body; the client makes it with `from_bytes`. -/
def Upload.toFile (upload : Upload) : Interfaces.FileInput where
  filename := upload.filename
  contentBase64 :=
    let value := some (contentBase64 upload.data upload.header)
    if upload.viaClient then stripDataUrlPrefix value else value
  contentType := upload.contentType
  expectedType := upload.expectedType

def Upload.stored (upload : Upload) : Interfaces.FileInput where
  filename := upload.filename
  contentBase64 := some (Base64.b64encode upload.data)
  contentType := upload.contentType
  expectedType := upload.expectedType

/-! ## The two validators -/

theorem not_mem_b64encode {char : Char} (hpad : char ≠ '=')
    (hvalue : Base64.value? char = none) (data : List UInt8) :
    char ∉ (Base64.b64encode data).toList :=
  Base64.not_mem_of_b64decodeStrict (Base64.b64decodeStrict_b64encode data)
    hpad hvalue

@[simp] theorem stripDataUrl_b64encode (data : List UInt8) :
    stripDataUrl (Base64.b64encode data) = Base64.b64encode data :=
  if_neg fun h => not_mem_b64encode (by decide) (by decide) data h.1

theorem dropWhile_header {header : List Char} (h : ',' ∉ header)
    (chars : List Char) :
    (header ++ ',' :: chars).dropWhile (· ≠ ',') = ',' :: chars := by
  rw [List.dropWhile_append_of_pos
    fun char hchar => decide_eq_true (ne_of_mem_of_not_mem hchar h)]
  simp

theorem stripDataUrl_header {header : String} (h : ',' ∉ header.toList)
    (content : String) :
    stripDataUrl ("data:" ++ header ++ "," ++ content) = content := by
  have hchars : ("data:" ++ header ++ "," ++ content).toList =
      ("data:".toList ++ header.toList) ++ ',' :: content.toList := by
    simp [String.toList_append]
  have hplain : ',' ∉ "data:".toList ++ header.toList := by
    rw [List.mem_append, not_or]
    exact ⟨by decide, h⟩
  have hstart : ("data:" ++ header ++ "," ++ content).startsWith "data:" := by
    rw [String.startsWith_string_iff, hchars, List.append_assoc]
    exact List.prefix_append _ _
  rw [stripDataUrl, if_pos ⟨by rw [hchars]; simp, hstart⟩, hchars,
    dropWhile_header hplain _, List.tail_cons, String.ofList_toList]

@[simp] theorem stripDataUrl_contentBase64 (upload : Upload) :
    stripDataUrl (contentBase64 upload.data upload.header) =
      Base64.b64encode upload.data := by
  cases hheader : upload.header with
  | none => exact stripDataUrl_b64encode upload.data
  | some header =>
      exact stripDataUrl_header (upload.header_plain header hheader) _

theorem validateBase64_toFile (upload : Upload) :
    validateBase64 upload.toFile.contentBase64 =
      .ok (some (Base64.b64encode upload.data)) := by
  unfold Upload.toFile
  cases upload.viaClient <;>
    simp [validateBase64, stripDataUrlPrefix,
      Base64.b64decodeStrict_b64encode]

/-! ## The readers -/

/-- The model validator of a file: its name first, then its content. -/
def validate (file : Interfaces.FileInput) :
    Except Failure Interfaces.FileInput :=
  if file.filename = "" then
    .error (Base64.valueError "String should have at least 1 character")
  else (validateBase64 file.contentBase64).map fun content =>
    { file with contentBase64 := content }

def validateAll : List Interfaces.FileInput →
    Except Failure (List Interfaces.FileInput)
  | [] => .ok []
  | file :: files => do
      let file ← validate file
      let files ← validateAll files
      .ok (file :: files)

theorem validate_toFile (upload : Upload) :
    validate upload.toFile = .ok upload.stored := by
  have hname : upload.toFile.filename ≠ "" := upload.filename_ne
  rw [validate, if_neg hname, validateBase64_toFile]
  rfl

theorem validateAll_toFile (uploads : List Upload) :
    validateAll (uploads.map Upload.toFile) =
      .ok (uploads.map Upload.stored) := by
  induction uploads with
  | nil => rfl
  | cons upload uploads ih =>
      rw [List.map_cons, validateAll, validate_toFile, ih]
      rfl

@[simp] theorem decodedBytes_stored (upload : Upload) :
    upload.stored.decodedBytes = .ok upload.data :=
  Base64.b64decode_of_strict (Base64.b64decodeStrict_b64encode upload.data)

theorem wellFormed_stored (upload : Upload) :
    FileInput.WellFormed upload.stored :=
  ⟨upload.filename_ne, upload.toFile.contentBase64,
    validateBase64_toFile upload⟩

theorem decodeAll_stored (uploads : List Upload) :
    SubmitExtractionHandler.decodeAll (uploads.map Upload.stored) =
      .ok (uploads.map Upload.data) := by
  induction uploads with
  | nil => rfl
  | cons upload uploads ih =>
      rw [List.map_cons, SubmitExtractionHandler.decodeAll,
        decodedBytes_stored, ih]
      rfl

theorem b64encode_eq_empty {data : List UInt8} :
    Base64.b64encode data = "" ↔ data = [] := by
  refine ⟨fun h => ?_, fun h => by rw [h]; rfl⟩
  have hdecode := Base64.b64decodeStrict_b64encode data
  rw [h] at hdecode
  cases hdecode
  rfl

theorem sources_stored (rowFilename : String) (uploads : List Upload) :
    BboxRefineWorker.sources rowFilename (uploads.map Upload.stored) =
      .ok ((uploads.filter (·.data ≠ [])).map fun upload =>
        (upload.data, upload.contentType, upload.filename)) := by
  induction uploads with
  | nil => rfl
  | cons upload uploads ih =>
      have hname : Projector.orDefault (some upload.filename) rowFilename =
          upload.filename := by
        simp [Projector.orDefault, Projector.truthy, upload.filename_ne]
      have hdecode := Base64.b64decode_of_strict
        (Base64.b64decodeStrict_b64encode upload.data)
      rw [List.map_cons, BboxRefineWorker.sources, ih]
      by_cases hempty : upload.data = []
      · have hfalsy : Projector.truthy upload.stored.contentBase64 = false := by
          simp [Upload.stored, Projector.truthy, b64encode_eq_empty, hempty]
        rw [hfalsy, List.filter_cons_of_neg (by simp [hempty])]
        rfl
      · have htruthy : Projector.truthy upload.stored.contentBase64 = true := by
          simp [Upload.stored, Projector.truthy, b64encode_eq_empty, hempty]
        rw [htruthy, List.filter_cons_of_pos (by simp [hempty])]
        simp [Upload.stored, hdecode, hname, Except.bind, Except.map]

theorem buildEntity_stored (handler : SubmitExtractionHandler)
    {command : SubmitExtractionCommand} {entity : ExtractionEntity}
    {uploads : List Upload}
    (hfiles : command.request.files = uploads.map Upload.stored)
    (h : handler.buildEntity command = .ok entity) :
    entity.contentBytes = (uploads.map (·.data.length)).sum ∧
      handler.summarise command.request.files (uploads.map Upload.data) =
        .ok (entity.filename, entity.contentSha256) ∧
      entity.schemaJson =
        handler.schemaJson command.request.toExtractionRequest := by
  have hschema := (handler.buildEntity_eq_ok h).2.2.1
  simp only [SubmitExtractionHandler.buildEntity, hfiles,
    decodeAll_stored] at h
  rw [← hfiles] at h
  split at h
  · cases h
  · cases hsummary : handler.summarise command.request.files
        (uploads.map Upload.data) with
    | error failure => simp [hsummary] at h
    | ok summary =>
        obtain ⟨filename, contentSha256⟩ := summary
        simp only [hsummary, Except.ok.injEq] at h
        subst h
        exact ⟨by simp [List.map_map, Function.comp_def], rfl, hschema⟩

/--
However the caller sends its files, the endpoint takes them, and everyone who
reads them later has the bytes the caller had: the submit handler that counts
and hashes them, the worker that reads them back from the row, the pipeline
that decodes them, and the refinement worker, which passes over empty ones.
-/
theorem uploads_delivered (handler : SubmitExtractionHandler)
    {command : SubmitExtractionCommand} {entity : ExtractionEntity}
    (uploads : List Upload) (rowFilename : String)
    (hrequest : validateAll (uploads.map Upload.toFile) =
      .ok command.request.files)
    (hstored : handler.buildEntity command = .ok entity) :
    entity.contentBytes = (uploads.map (·.data.length)).sum ∧
      handler.summarise command.request.files (uploads.map Upload.data) =
        .ok (entity.filename, entity.contentSha256) ∧
      (∃ entries, JsonValue.lookup "files" entity.schemaJson =
          some (.arr entries) ∧
        ExtractionWorker.readFiles rowFilename entries =
          .ok command.request.files) ∧
      List.Forall₂ (fun file upload => file.decodedBytes = .ok upload.data)
        command.request.files uploads ∧
      BboxRefineWorker.sources rowFilename command.request.files =
        .ok ((uploads.filter (·.data ≠ [])).map fun upload =>
          (upload.data, upload.contentType, upload.filename)) := by
  have hfiles : command.request.files = uploads.map Upload.stored := by
    rw [validateAll_toFile] at hrequest
    exact (Except.ok.inj hrequest).symm
  obtain ⟨hbytes, hsummary, hschema⟩ := buildEntity_stored handler hfiles hstored
  refine ⟨hbytes, hsummary,
    ⟨command.request.files.map SubmitExtractionHandler.fileJson, ?_, ?_⟩,
    ?_, ?_⟩
  · rw [hschema]
    rfl
  · refine ExtractionWorker.readFiles_fileJson (fun file hfile => ?_) _
    rw [hfiles] at hfile
    obtain ⟨upload, -, rfl⟩ := List.mem_map.mp hfile
    exact wellFormed_stored upload
  · rw [hfiles, List.forall₂_map_left_iff]
    exact List.forall₂_same.mpr fun upload _ => decodedBytes_stored upload
  · rw [hfiles]
    exact sources_stored rowFilename uploads

def pdfHeader : Upload where
  data := [0x25, 0x50, 0x44, 0x46]
  filename := "invoice.pdf"
  expectedType := some "invoice"
  header := some "application/pdf;base64"
  viaClient := false
  header_plain := by decide +kernel

theorem uploads_delivered_pdfHeader :
    ∃ entity, ExtractionWorker.invoiceHandler.buildEntity
        { request := ExtractionWorker.invoiceRequest } = .ok entity ∧
      entity.contentBytes = 4 ∧
      BboxRefineWorker.sources "row"
        ExtractionWorker.invoiceRequest.files =
          .ok [(pdfHeader.data, none, "invoice.pdf")] := by
  cases hbuilt : ExtractionWorker.invoiceHandler.buildEntity
      { request := ExtractionWorker.invoiceRequest } with
  | ok entity =>
      have hdelivered := uploads_delivered ExtractionWorker.invoiceHandler
        [pdfHeader] "row" (by decide +kernel) hbuilt
      exact ⟨entity, rfl, hdelivered.1, hdelivered.2.2.2.2⟩
  | error error =>
      have haccepted : (ExtractionWorker.invoiceHandler.buildEntity
          { request := ExtractionWorker.invoiceRequest }).toBool = true := by
        decide
      rw [hbuilt] at haccepted
      cases haccepted

end Sdk

end Flydocs
