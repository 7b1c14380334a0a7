import Flydocs.Dtos.ExtractedDump

/-!
# Codecs of the result classes

The worker stores `model_dump(mode="json")` of a result, the bbox worker and
the result endpoint read it back with `model_validate`.  Every result survives
the trip: its classes check nothing that their types do not say.
-/

namespace Flydocs

open Foundation

namespace Dtos

section Enumerations

def checkStatusCodec : Codec Interfaces.CheckStatus :=
  .enumeration [.pass, .fail, .uncertain]
    (fun
      | .pass => "pass"
      | .fail => "fail"
      | .uncertain => "uncertain")
    (by intro status; cases status <;> decide)

def integrityCodec : Codec Interfaces.ContentIntegrityStatus :=
  .enumeration [.valid, .invalid, .uncertain]
    (fun
      | .valid => "valid"
      | .invalid => "invalid"
      | .uncertain => "uncertain")
    (by intro status; cases status <;> decide)

def nodeStatusCodec : Codec Interfaces.NodeStatus :=
  .enumeration [.success, .failed, .skipped]
    (fun
      | .success => "success"
      | .failed => "failed"
      | .skipped => "skipped")
    (by intro status; cases status <;> decide)

def resultStatusCodec : Codec Interfaces.ResultStatus :=
  .enumeration [.success, .partialSuccess]
    (fun
      | .success => "success"
      | .partialSuccess => "partial")
    (by intro status; cases status <;> decide)

def extractionStatusValue : ExtractionStatus → String
  | .queued => "queued"
  | .running => "running"
  | .succeeded => "succeeded"
  | .failed => "failed"
  | .cancelled => "cancelled"

def extractionStatusCodec : Codec ExtractionStatus :=
  .enumeration [.queued, .running, .succeeded, .failed, .cancelled]
    extractionStatusValue (by intro status; cases status <;> decide)

def postProcessingStatusValue : PostProcessingStatus → String
  | .pending => "pending"
  | .running => "running"
  | .succeeded => "succeeded"
  | .failed => "failed"

def postProcessingStatusCodec : Codec PostProcessingStatus :=
  .enumeration [.pending, .running, .succeeded, .failed]
    postProcessingStatusValue (by intro status; cases status <;> decide)

instance lossless_checkStatus : checkStatusCodec.Lossless :=
  ⟨fun _ => trivial⟩

instance lossless_integrity : integrityCodec.Lossless :=
  ⟨fun _ => trivial⟩

instance lossless_nodeStatus : nodeStatusCodec.Lossless :=
  ⟨fun _ => trivial⟩

instance lossless_resultStatus : resultStatusCodec.Lossless :=
  ⟨fun _ => trivial⟩

instance lossless_extractionStatus : extractionStatusCodec.Lossless :=
  ⟨fun _ => trivial⟩

instance lossless_postProcessingStatus :
    postProcessingStatusCodec.Lossless :=
  ⟨fun _ => trivial⟩

end Enumerations

variable (scalars : ResultScalars)

def ExtractedFieldGroup.codec : Codec ExtractedFieldGroup where
  dump group := .obj
    [("name", scalars.str.codec.dump group.name),
      ("fields", (ExtractedField.codec scalars).list.dump group.fields)]
  validate := Codec.closedObject ["name", "fields"] fun members => do
    let name ← scalars.str.codec.required "name" members
    let fields ← (ExtractedField.codec scalars).list.required "fields" members
    some { name, fields }
  valid _ := True
  validate_dump := by
    intro group _
    rw [Codec.closedObject_obj (by simp [JsonValue.onlyKeys])]
    simp [Codec.required]

instance lossless_extractedFieldGroup :
    (ExtractedFieldGroup.codec scalars).Lossless :=
  ⟨fun _ => trivial⟩

/-! ## Authenticity -/

def VisualCheckResult.codec : Codec VisualCheckResult where
  dump result := .obj
    [("name", scalars.str.codec.dump result.name),
      ("passed", scalars.bool.codec.dump result.passed),
      ("confidence", (UnitInterval.codec scalars).dump result.confidence),
      ("notes", scalars.str.nullable.dump result.notes)]
  validate := Codec.closedObject ["name", "passed", "confidence", "notes"]
    fun members => do
      let name ← scalars.str.codec.required "name" members
      let passed ← scalars.bool.codec.required "passed" members
      let confidence ←
        (UnitInterval.codec scalars).withDefault 0 "confidence" members
      let notes ← scalars.str.nullable.withDefault none "notes" members
      some { name, passed, confidence, notes }
  valid _ := True
  validate_dump := by
    intro result _
    rw [Codec.closedObject_obj (by simp [JsonValue.onlyKeys])]
    simp [Codec.required, Codec.withDefault]

instance lossless_visualCheckResult :
    (VisualCheckResult.codec scalars).Lossless :=
  ⟨fun _ => trivial⟩

def coherenceCheckCodec : Codec Interfaces.ContentCoherenceCheck where
  dump check := .obj
    [("name", scalars.str.codec.dump check.name),
      ("description", scalars.str.codec.dump check.description),
      ("status", checkStatusCodec.dump check.status),
      ("evidence", scalars.str.nullable.dump check.evidence),
      ("reasoning", scalars.str.nullable.dump check.reasoning)]
  validate := Codec.closedObject
    ["name", "description", "status", "evidence", "reasoning"]
    fun members => do
      let name ← scalars.str.codec.required "name" members
      let description ← scalars.str.codec.required "description" members
      let status ← checkStatusCodec.required "status" members
      let evidence ← scalars.str.nullable.withDefault none "evidence" members
      let reasoning ← scalars.str.nullable.withDefault none "reasoning" members
      some { name, description, status, evidence, reasoning }
  valid _ := True
  validate_dump := by
    intro check _
    rw [Codec.closedObject_obj (by simp [JsonValue.onlyKeys])]
    simp [Codec.required, Codec.withDefault]

instance lossless_coherenceCheck : (coherenceCheckCodec scalars).Lossless :=
  ⟨fun _ => trivial⟩

def contentAuthenticityCodec : Codec Interfaces.ContentAuthenticity where
  dump content := .obj
    [("overall_integrity_status",
        integrityCodec.dump content.overallIntegrityStatus),
      ("checks", (coherenceCheckCodec scalars).list.dump content.checks)]
  validate := Codec.closedObject ["overall_integrity_status", "checks"]
    fun members => do
      let overallIntegrityStatus ←
        integrityCodec.withDefault .uncertain "overall_integrity_status" members
      let checks ←
        (coherenceCheckCodec scalars).list.withDefault [] "checks" members
      some { overallIntegrityStatus, checks }
  valid _ := True
  validate_dump := by
    intro content _
    rw [Codec.closedObject_obj (by simp [JsonValue.onlyKeys])]
    simp [Codec.withDefault]

def contentCodec : Codec (Option Interfaces.ContentAuthenticity) :=
  (contentAuthenticityCodec scalars).nullable fun _ _ h => nomatch h

instance lossless_content : (contentCodec scalars).Lossless :=
  ⟨fun _ _ _ => trivial⟩

def DocumentAuthenticity.codec : Codec DocumentAuthenticity where
  dump authenticity := .obj
    [("visual",
        (VisualCheckResult.codec scalars).list.dump authenticity.visual),
      ("content", (contentCodec scalars).dump authenticity.content)]
  validate := Codec.closedObject ["visual", "content"] fun members => do
    let visual ←
      (VisualCheckResult.codec scalars).list.withDefault [] "visual" members
    let content ← (contentCodec scalars).withDefault none "content" members
    some { visual, content }
  valid _ := True
  validate_dump := by
    intro authenticity _
    rw [Codec.closedObject_obj (by simp [JsonValue.onlyKeys])]
    simp [Codec.withDefault]

instance lossless_documentAuthenticity :
    (DocumentAuthenticity.codec scalars).Lossless :=
  ⟨fun _ => trivial⟩

/-! ## Files and documents -/

def ClassificationInfo.codec : Codec ClassificationInfo where
  dump info := .obj
    [("document_type", scalars.str.codec.dump info.documentType),
      ("matched", scalars.bool.codec.dump info.matched),
      ("confidence", (UnitInterval.codec scalars).dump info.confidence),
      ("description", scalars.str.nullable.dump info.description),
      ("notes", scalars.str.nullable.dump info.notes)]
  validate := Codec.closedObject
    ["document_type", "matched", "confidence", "description", "notes"]
    fun members => do
      let documentType ← scalars.str.codec.required "document_type" members
      let matched ← scalars.bool.codec.withDefault true "matched" members
      let confidence ←
        (UnitInterval.codec scalars).withDefault 0 "confidence" members
      let description ←
        scalars.str.nullable.withDefault none "description" members
      let notes ← scalars.str.nullable.withDefault none "notes" members
      some { documentType, matched, confidence, description, notes }
  valid _ := True
  validate_dump := by
    intro info _
    rw [Codec.closedObject_obj (by simp [JsonValue.onlyKeys])]
    simp [Codec.required, Codec.withDefault]

def classificationCodec : Codec (Option ClassificationInfo) :=
  (ClassificationInfo.codec scalars).nullable fun _ _ h => nomatch h

instance lossless_classification : (classificationCodec scalars).Lossless :=
  ⟨fun _ _ _ => trivial⟩

def FileSummary.codec : Codec FileSummary where
  dump summary := .obj
    [("filename", scalars.str.codec.dump summary.filename),
      ("media_type", scalars.str.codec.dump summary.mediaType),
      ("page_count", scalars.int.codec.dump summary.pageCount),
      ("bytes", scalars.int.codec.dump summary.bytes),
      ("matched_type", scalars.str.nullable.dump summary.matchedType),
      ("classification",
        (classificationCodec scalars).dump summary.classification)]
  validate := Codec.closedObject
    ["filename", "media_type", "page_count", "bytes", "matched_type",
      "classification"]
    fun members => do
      let filename ← scalars.str.codec.required "filename" members
      let mediaType ← scalars.str.codec.required "media_type" members
      let pageCount ← scalars.int.codec.required "page_count" members
      let bytes ← scalars.int.codec.required "bytes" members
      let matchedType ←
        scalars.str.nullable.withDefault none "matched_type" members
      let classification ←
        (classificationCodec scalars).withDefault none "classification" members
      some { filename, mediaType, pageCount, bytes, matchedType,
             classification }
  valid _ := True
  validate_dump := by
    intro summary _
    rw [Codec.closedObject_obj (by simp [JsonValue.onlyKeys])]
    simp [Codec.required, Codec.withDefault]

instance lossless_fileSummary : (FileSummary.codec scalars).Lossless :=
  ⟨fun _ => trivial⟩

def Document.codec : Codec Document where
  dump document := .obj
    [("type", scalars.str.codec.dump document.type),
      ("source_file", scalars.str.nullable.dump document.sourceFile),
      ("missing", scalars.bool.codec.dump document.missing),
      ("pages", (pagesCodec scalars).dump document.pages),
      ("confidence", (UnitInterval.codec scalars).dump document.confidence),
      ("description", scalars.str.nullable.dump document.description),
      ("notes", scalars.str.nullable.dump document.notes),
      ("field_groups",
        (ExtractedFieldGroup.codec scalars).list.dump document.fieldGroups),
      ("authenticity",
        (DocumentAuthenticity.codec scalars).dump document.authenticity)]
  validate := Codec.closedObject
    ["type", "source_file", "missing", "pages", "confidence", "description",
      "notes", "field_groups", "authenticity"]
    fun members => do
      let type ← scalars.str.codec.required "type" members
      let sourceFile ←
        scalars.str.nullable.withDefault none "source_file" members
      let missing ← scalars.bool.codec.withDefault false "missing" members
      let pages ← (pagesCodec scalars).withDefault [] "pages" members
      let confidence ←
        (UnitInterval.codec scalars).withDefault 0 "confidence" members
      let description ←
        scalars.str.nullable.withDefault none "description" members
      let notes ← scalars.str.nullable.withDefault none "notes" members
      let fieldGroups ←
        (ExtractedFieldGroup.codec scalars).list.withDefault [] "field_groups"
          members
      let authenticity ←
        (DocumentAuthenticity.codec scalars).withDefault {} "authenticity"
          members
      some { type, sourceFile, missing, pages, confidence, description, notes,
             fieldGroups, authenticity }
  valid _ := True
  validate_dump := by
    intro document _
    rw [Codec.closedObject_obj (by simp [JsonValue.onlyKeys])]
    simp [Codec.required, Codec.withDefault]

instance lossless_document : (Document.codec scalars).Lossless :=
  ⟨fun _ => trivial⟩

def ruleResultCodec : Codec Interfaces.RuleResult where
  dump result := .obj
    [("rule_id", scalars.str.codec.dump result.ruleId),
      ("predicate", scalars.str.codec.dump result.predicate),
      ("output", scalars.str.codec.dump result.output),
      ("summary", scalars.str.nullable.dump result.summary),
      ("notes", scalars.str.codec.list.dump result.notes),
      ("human_revision", scalars.str.nullable.dump result.humanRevision)]
  validate := Codec.closedObject
    ["rule_id", "predicate", "output", "summary", "notes", "human_revision"]
    fun members => do
      let ruleId ← scalars.str.codec.required "rule_id" members
      let predicate ← scalars.str.codec.required "predicate" members
      let output ← scalars.str.codec.withDefault "" "output" members
      let summary ← scalars.str.nullable.withDefault none "summary" members
      let notes ← scalars.str.codec.list.withDefault [] "notes" members
      let humanRevision ←
        scalars.str.nullable.withDefault none "human_revision" members
      some { ruleId, predicate, output, summary, notes, humanRevision }
  valid _ := True
  validate_dump := by
    intro result _
    rw [Codec.closedObject_obj (by simp [JsonValue.onlyKeys])]
    simp [Codec.required, Codec.withDefault]

instance lossless_ruleResult : (ruleResultCodec scalars).Lossless :=
  ⟨fun _ => trivial⟩

/-! ## The pipeline block -/

def TraceEntry.codec : Codec TraceEntry where
  dump entry := .obj
    [("node", scalars.str.codec.dump entry.node),
      ("started_at", scalars.datetime.codec.dump entry.startedAt),
      ("completed_at", scalars.datetime.codec.dump entry.completedAt),
      ("latency_ms", scalars.float.codec.dump entry.latencyMs),
      ("status", nodeStatusCodec.dump entry.status)]
  validate := Codec.closedObject
    ["node", "started_at", "completed_at", "latency_ms", "status"]
    fun members => do
      let node ← scalars.str.codec.required "node" members
      let startedAt ← scalars.datetime.codec.required "started_at" members
      let completedAt ← scalars.datetime.codec.required "completed_at" members
      let latencyMs ← scalars.float.codec.required "latency_ms" members
      let status ← nodeStatusCodec.required "status" members
      some { node, startedAt, completedAt, latencyMs, status }
  valid _ := True
  validate_dump := by
    intro entry _
    rw [Codec.closedObject_obj (by simp [JsonValue.onlyKeys])]
    simp [Codec.required]

instance lossless_traceEntry : (TraceEntry.codec scalars).Lossless :=
  ⟨fun _ => trivial⟩

def pipelineErrorCodec : Codec Interfaces.PipelineError where
  dump error := .obj
    [("node", scalars.str.codec.dump error.node),
      ("code", scalars.str.codec.dump error.code),
      ("message", scalars.str.codec.dump error.message)]
  validate := Codec.closedObject ["node", "code", "message"] fun members => do
    let node ← scalars.str.codec.required "node" members
    let code ← scalars.str.codec.required "code" members
    let message ← scalars.str.codec.required "message" members
    some { node, code, message }
  valid _ := True
  validate_dump := by
    intro error _
    rw [Codec.closedObject_obj (by simp [JsonValue.onlyKeys])]
    simp [Codec.required]

instance lossless_pipelineError : (pipelineErrorCodec scalars).Lossless :=
  ⟨fun _ => trivial⟩

def EscalationInfo.codec : Codec EscalationInfo where
  dump info := .obj
    [("triggered", scalars.bool.codec.dump info.triggered),
      ("primary_model", scalars.str.nullable.dump info.primaryModel),
      ("escalation_model", scalars.str.nullable.dump info.escalationModel),
      ("primary_fail_rate",
        (UnitInterval.codec scalars).dump info.primaryFailRate),
      ("escalation_fail_rate",
        (UnitInterval.codec scalars).dump info.escalationFailRate),
      ("accepted", scalars.bool.codec.dump info.accepted)]
  validate := Codec.closedObject
    ["triggered", "primary_model", "escalation_model", "primary_fail_rate",
      "escalation_fail_rate", "accepted"]
    fun members => do
      let triggered ← scalars.bool.codec.withDefault false "triggered" members
      let primaryModel ←
        scalars.str.nullable.withDefault none "primary_model" members
      let escalationModel ←
        scalars.str.nullable.withDefault none "escalation_model" members
      let primaryFailRate ←
        (UnitInterval.codec scalars).withDefault 0 "primary_fail_rate" members
      let escalationFailRate ←
        (UnitInterval.codec scalars).withDefault 0 "escalation_fail_rate"
          members
      let accepted ← scalars.bool.codec.withDefault false "accepted" members
      some { triggered, primaryModel, escalationModel, primaryFailRate,
             escalationFailRate, accepted }
  valid _ := True
  validate_dump := by
    intro info _
    rw [Codec.closedObject_obj (by simp [JsonValue.onlyKeys])]
    simp [Codec.withDefault]

def escalationInfoCodec : Codec (Option EscalationInfo) :=
  (EscalationInfo.codec scalars).nullable fun _ _ h => nomatch h

instance lossless_escalationInfo : (escalationInfoCodec scalars).Lossless :=
  ⟨fun _ _ _ => trivial⟩

def RepairInfo.codec : Codec RepairInfo where
  dump info := .obj
    [("triggered", scalars.bool.codec.dump info.triggered),
      ("model", scalars.str.nullable.dump info.model),
      ("fields_flagged", scalars.int.codec.natural.dump info.fieldsFlagged),
      ("fields_repaired", scalars.int.codec.natural.dump info.fieldsRepaired),
      ("repaired_fields", scalars.str.codec.list.dump info.repairedFields),
      ("tasks_skipped", scalars.int.codec.natural.dump info.tasksSkipped),
      ("rows_changed", scalars.int.codec.dict.dump info.rowsChanged)]
  validate := Codec.closedObject
    ["triggered", "model", "fields_flagged", "fields_repaired",
      "repaired_fields", "tasks_skipped", "rows_changed"]
    fun members => do
      let count := scalars.int.codec.natural
      let triggered ← scalars.bool.codec.withDefault false "triggered" members
      let model ← scalars.str.nullable.withDefault none "model" members
      let fieldsFlagged ← count.withDefault 0 "fields_flagged" members
      let fieldsRepaired ← count.withDefault 0 "fields_repaired" members
      let repairedFields ←
        scalars.str.codec.list.withDefault [] "repaired_fields" members
      let tasksSkipped ← count.withDefault 0 "tasks_skipped" members
      let rowsChanged ←
        scalars.int.codec.dict.withDefault [] "rows_changed" members
      some { triggered, model, fieldsFlagged, fieldsRepaired, repairedFields,
             tasksSkipped, rowsChanged }
  valid _ := True
  validate_dump := by
    intro info _
    rw [Codec.closedObject_obj (by simp [JsonValue.onlyKeys])]
    simp [Codec.withDefault]

def repairInfoCodec : Codec (Option RepairInfo) :=
  (RepairInfo.codec scalars).nullable fun _ _ h => nomatch h

instance lossless_repairInfo : (repairInfoCodec scalars).Lossless :=
  ⟨fun _ _ _ => trivial⟩

def UsageBreakdown.codec : Codec UsageBreakdown where
  dump usage := .obj
    [("total_input_tokens", scalars.int.codec.dump usage.totalInputTokens),
      ("total_output_tokens", scalars.int.codec.dump usage.totalOutputTokens),
      ("total_tokens", scalars.int.codec.dump usage.totalTokens),
      ("total_cost_usd", scalars.float.codec.dump usage.totalCostUsd),
      ("total_requests", scalars.int.codec.dump usage.totalRequests),
      ("total_latency_ms", scalars.float.codec.dump usage.totalLatencyMs),
      ("record_count", scalars.int.codec.dump usage.recordCount),
      ("cache_creation_tokens",
        scalars.int.codec.dump usage.cacheCreationTokens),
      ("cache_read_tokens", scalars.int.codec.dump usage.cacheReadTokens),
      ("by_agent", dictCodec.dict.dump usage.byAgent),
      ("by_model", dictCodec.dict.dump usage.byModel)]
  validate := Codec.closedObject
    ["total_input_tokens", "total_output_tokens", "total_tokens",
      "total_cost_usd", "total_requests", "total_latency_ms", "record_count",
      "cache_creation_tokens", "cache_read_tokens", "by_agent", "by_model"]
    fun members => do
      let count := scalars.int.codec.withDefault 0
      let amount := scalars.float.codec.withDefault 0
      let totalInputTokens ← count "total_input_tokens" members
      let totalOutputTokens ← count "total_output_tokens" members
      let totalTokens ← count "total_tokens" members
      let totalCostUsd ← amount "total_cost_usd" members
      let totalRequests ← count "total_requests" members
      let totalLatencyMs ← amount "total_latency_ms" members
      let recordCount ← count "record_count" members
      let cacheCreationTokens ← count "cache_creation_tokens" members
      let cacheReadTokens ← count "cache_read_tokens" members
      let byAgent ← dictCodec.dict.withDefault [] "by_agent" members
      let byModel ← dictCodec.dict.withDefault [] "by_model" members
      some { totalInputTokens, totalOutputTokens, totalTokens, totalCostUsd,
             totalRequests, totalLatencyMs, recordCount, cacheCreationTokens,
             cacheReadTokens, byAgent, byModel }
  valid _ := True
  validate_dump := by
    intro usage _
    rw [Codec.closedObject_obj (by simp [JsonValue.onlyKeys])]
    simp [Codec.withDefault]

def usageCodec : Codec (Option UsageBreakdown) :=
  (UsageBreakdown.codec scalars).nullable fun _ _ h => nomatch h

instance lossless_usage : (usageCodec scalars).Lossless :=
  ⟨fun _ _ _ => trivial⟩

def PipelineMeta.codec : Codec PipelineMeta where
  dump pipeline := .obj
    [("model", scalars.str.codec.dump pipeline.model),
      ("latency_ms", scalars.int.codec.natural.dump pipeline.latencyMs),
      ("trace", (TraceEntry.codec scalars).list.dump pipeline.trace),
      ("errors", (pipelineErrorCodec scalars).list.dump pipeline.errors),
      ("escalation", (escalationInfoCodec scalars).dump pipeline.escalation),
      ("repair", (repairInfoCodec scalars).dump pipeline.repair),
      ("usage", (usageCodec scalars).dump pipeline.usage)]
  validate := Codec.closedObject
    ["model", "latency_ms", "trace", "errors", "escalation", "repair", "usage"]
    fun members => do
      let model ← scalars.str.codec.required "model" members
      let latencyMs ← scalars.int.codec.natural.required "latency_ms" members
      let trace ←
        (TraceEntry.codec scalars).list.withDefault [] "trace" members
      let errors ←
        (pipelineErrorCodec scalars).list.withDefault [] "errors" members
      let escalation ←
        (escalationInfoCodec scalars).withDefault none "escalation" members
      let repair ← (repairInfoCodec scalars).withDefault none "repair" members
      let usage ← (usageCodec scalars).withDefault none "usage" members
      some { model, latencyMs, trace, errors, escalation, repair, usage }
  valid _ := True
  validate_dump := by
    intro pipeline _
    rw [Codec.closedObject_obj (by simp [JsonValue.onlyKeys])]
    simp [Codec.required, Codec.withDefault]

instance lossless_pipelineMeta : (PipelineMeta.codec scalars).Lossless :=
  ⟨fun _ => trivial⟩

/-! ## The result -/

def ExtractionResult.codec : Codec ExtractionResult where
  dump result := .obj
    [("id", scalars.str.codec.dump result.id),
      ("status", resultStatusCodec.dump result.status),
      ("files", (FileSummary.codec scalars).list.dump result.files),
      ("documents", (Document.codec scalars).list.dump result.documents),
      ("discovered_documents",
        (Document.codec scalars).list.dump result.discoveredDocuments),
      ("rule_results", (ruleResultCodec scalars).list.dump result.ruleResults),
      ("request_transformations",
        (ExtractedFieldGroup.codec scalars).list.dump
          result.requestTransformations),
      ("pipeline", (PipelineMeta.codec scalars).dump result.pipeline)]
  validate := Codec.closedObject
    ["id", "status", "files", "documents", "discovered_documents",
      "rule_results", "request_transformations", "pipeline"]
    fun members => do
      let documents := (Document.codec scalars).list.withDefault []
      let id ← scalars.str.codec.required "id" members
      let status ← resultStatusCodec.withDefault .success "status" members
      let files ←
        (FileSummary.codec scalars).list.withDefault [] "files" members
      let found ← documents "documents" members
      let discoveredDocuments ← documents "discovered_documents" members
      let ruleResults ←
        (ruleResultCodec scalars).list.withDefault [] "rule_results" members
      let requestTransformations ←
        (ExtractedFieldGroup.codec scalars).list.withDefault []
          "request_transformations" members
      let pipeline ← (PipelineMeta.codec scalars).required "pipeline" members
      some { id, status, files, documents := found, discoveredDocuments,
             ruleResults, requestTransformations, pipeline }
  valid _ := True
  validate_dump := by
    intro result _
    rw [Codec.closedObject_obj (by simp [JsonValue.onlyKeys])]
    simp [Codec.required, Codec.withDefault]

instance lossless_extractionResult :
    (ExtractionResult.codec scalars).Lossless :=
  ⟨fun _ => trivial⟩

/-- What a worker dumps into `result_json` is what every reader of the row
validates: documents, fields at any depth, rules, trace and usage. -/
theorem model_validate_result_json (result : ExtractionResult) :
    (ExtractionResult.codec scalars).validate
        ((ExtractionResult.codec scalars).dump result) = some result :=
  Codec.validate_dump_of_lossless (ExtractionResult.codec scalars) result

end Dtos

end Flydocs
