import Flydocs.Dtos.ResultDump
import Flydocs.Workers.BuildRequest

/-!
# Event envelopes on the bus

`envelope_for_publish` dumps an envelope; the consumers of the bus pull the
extraction id out of the payload, the receivers of a webhook validate it
whole.
-/

namespace Flydocs

open Foundation

namespace Dtos

variable (scalars : ResultScalars)

/-! ## The resource -/

def extractionErrorCodec : Codec Interfaces.ExtractionError where
  dump error := .obj
    [("code", scalars.str.codec.dump error.code),
      ("message", scalars.str.codec.dump error.message)]
  validate := Codec.closedObject ["code", "message"] fun members => do
    let code ← scalars.str.codec.required "code" members
    let message ← scalars.str.codec.required "message" members
    some { code, message }
  valid _ := True
  validate_dump := by
    intro error _
    rw [Codec.closedObject_obj (by simp [JsonValue.onlyKeys])]
    simp [Codec.required]

def errorCodec : Codec (Option Interfaces.ExtractionError) :=
  (extractionErrorCodec scalars).nullable fun _ _ h => nomatch h

instance lossless_error : (errorCodec scalars).Lossless :=
  ⟨fun _ _ _ => trivial⟩

def BboxRefinementInfo.codec : Codec BboxRefinementInfo where
  dump info := .obj
    [("status", postProcessingStatusCodec.dump info.status),
      ("started_at", scalars.datetime.nullable.dump info.startedAt),
      ("finished_at", scalars.datetime.nullable.dump info.finishedAt),
      ("attempts", scalars.int.codec.dump info.attempts),
      ("error", (errorCodec scalars).dump info.error)]
  validate := Codec.closedObject
    ["status", "started_at", "finished_at", "attempts", "error"]
    fun members => do
      let instant := scalars.datetime.nullable.withDefault none
      let status ← postProcessingStatusCodec.required "status" members
      let startedAt ← instant "started_at" members
      let finishedAt ← instant "finished_at" members
      let attempts ← scalars.int.codec.withDefault 0 "attempts" members
      let error ← (errorCodec scalars).withDefault none "error" members
      some { status, startedAt, finishedAt, attempts, error }
  valid _ := True
  validate_dump := by
    intro info _
    rw [Codec.closedObject_obj (by simp [JsonValue.onlyKeys])]
    simp [Codec.required, Codec.withDefault]

def bboxRefinementCodec : Codec (Option BboxRefinementInfo) :=
  (BboxRefinementInfo.codec scalars).nullable fun _ _ h => nomatch h

instance lossless_bboxRefinement : (bboxRefinementCodec scalars).Lossless :=
  ⟨fun _ _ _ => trivial⟩

def PostProcessing.codec : Codec PostProcessing where
  dump block := .obj
    [("bbox_refinement",
      (bboxRefinementCodec scalars).dump block.bboxRefinement)]
  validate := Codec.closedObject ["bbox_refinement"] fun members => do
    let bboxRefinement ←
      (bboxRefinementCodec scalars).withDefault none "bbox_refinement" members
    some { bboxRefinement }
  valid _ := True
  validate_dump := by
    intro block _
    rw [Codec.closedObject_obj (by simp [JsonValue.onlyKeys])]
    simp [Codec.withDefault]

def postProcessingCodec : Codec (Option PostProcessing) :=
  (PostProcessing.codec scalars).nullable fun _ _ h => nomatch h

instance lossless_postProcessing : (postProcessingCodec scalars).Lossless :=
  ⟨fun _ _ _ => trivial⟩

def Extraction.codec : Codec Dtos.Extraction where
  dump extraction := .obj
    [("id", scalars.str.codec.dump extraction.id),
      ("status", extractionStatusCodec.dump extraction.status),
      ("submitted_at", scalars.datetime.codec.dump extraction.submittedAt),
      ("started_at", scalars.datetime.nullable.dump extraction.startedAt),
      ("finished_at", scalars.datetime.nullable.dump extraction.finishedAt),
      ("attempts", scalars.int.codec.dump extraction.attempts),
      ("error", (errorCodec scalars).dump extraction.error),
      ("post_processing",
        (postProcessingCodec scalars).dump extraction.postProcessing)]
  validate := Codec.closedObject
    ["id", "status", "submitted_at", "started_at", "finished_at", "attempts",
      "error", "post_processing"]
    fun members => do
      let instant := scalars.datetime.nullable.withDefault none
      let id ← scalars.str.codec.required "id" members
      let status ← extractionStatusCodec.required "status" members
      let submittedAt ← scalars.datetime.codec.required "submitted_at" members
      let startedAt ← instant "started_at" members
      let finishedAt ← instant "finished_at" members
      let attempts ← scalars.int.codec.withDefault 0 "attempts" members
      let error ← (errorCodec scalars).withDefault none "error" members
      let postProcessing ←
        (postProcessingCodec scalars).withDefault none "post_processing" members
      some { id, status, submittedAt, startedAt, finishedAt, attempts, error,
             postProcessing }
  valid _ := True
  validate_dump := by
    intro extraction _
    rw [Codec.closedObject_obj (by simp [JsonValue.onlyKeys])]
    simp [Codec.required, Codec.withDefault]

instance lossless_extraction : (Extraction.codec scalars).Lossless :=
  ⟨fun _ => trivial⟩

/-! ## The envelope -/

def resultCodec : Codec (Option ExtractionResult) :=
  (ExtractionResult.codec scalars).nullable fun _ _ h => nomatch h

instance lossless_result : (resultCodec scalars).Lossless :=
  ⟨fun _ _ _ => trivial⟩

def EventEnvelope.codec : Codec EventEnvelope where
  dump envelope := .obj
    [("event_id", scalars.str.codec.dump envelope.eventId),
      ("event_type", scalars.str.codec.dump envelope.eventType),
      ("version", scalars.str.codec.dump envelope.version),
      ("occurred_at", scalars.datetime.codec.dump envelope.occurredAt),
      ("correlation_id", scalars.str.nullable.dump envelope.correlationId),
      ("tenant_id", scalars.str.nullable.dump envelope.tenantId),
      ("extraction", (Extraction.codec scalars).dump envelope.extraction),
      ("result", (resultCodec scalars).dump envelope.result),
      ("metadata", dictCodec.dump envelope.metadata)]
  validate := Codec.closedObject
    ["event_id", "event_type", "version", "occurred_at", "correlation_id",
      "tenant_id", "extraction", "result", "metadata"]
    fun members => do
      let eventId ←
        scalars.str.codec.withDefault scalars.newEventId "event_id" members
      let eventType ← scalars.str.codec.required "event_type" members
      let version ← scalars.str.codec.withDefault "1.0.0" "version" members
      let occurredAt ←
        scalars.datetime.codec.withDefault scalars.utcnow "occurred_at" members
      let correlationId ←
        scalars.str.nullable.withDefault none "correlation_id" members
      let tenantId ← scalars.str.nullable.withDefault none "tenant_id" members
      let extraction ←
        (Extraction.codec scalars).required "extraction" members
      let result ← (resultCodec scalars).withDefault none "result" members
      let metadata ← dictCodec.withDefault [] "metadata" members
      some { eventId, eventType, version, occurredAt, correlationId, tenantId,
             extraction, result, metadata }
  valid _ := True
  validate_dump := by
    intro envelope _
    rw [Codec.closedObject_obj (by simp [JsonValue.onlyKeys])]
    simp [Codec.required, Codec.withDefault]

instance lossless_eventEnvelope : (EventEnvelope.codec scalars).Lossless :=
  ⟨fun _ => trivial⟩

def envelopeForPublish (envelope : EventEnvelope) : JsonValue :=
  (EventEnvelope.codec scalars).dump envelope

end Dtos

namespace Workers

open Dtos

/-- What pydantic and the workers do with text: a `str` attribute is read from
a string only, and `str` of a string is the string itself. -/
structure Wire extends ResultScalars where
  str_of_validate : ∀ {json text}, str.validate json = some text →
    json = .str text
  pythonStr : JsonValue → String
  pythonStr_str : ∀ text, pythonStr (.str text) = text

/-- `_extraction_id_from_payload`, which both workers have. -/
def extractionIdFromPayload (wire : Wire) : JsonValue → Option String
  | .obj payload =>
      let nested :=
        match JsonValue.lookup "extraction" payload with
        | some (.obj extraction) =>
            (JsonValue.lookup "id" extraction).filter ExtractionWorker.truthy
        | _ => none
      let legacy := fun key =>
        (JsonValue.lookup key payload).filter ExtractionWorker.truthy
      (nested <|> legacy "extraction_id" <|> legacy "job_id").map wire.pythonStr
  | _ => none

variable {wire : Wire}

theorem Wire.lookup_id {json : JsonValue} {extraction : Dtos.Extraction}
    (hjson : (Extraction.codec wire.toResultScalars).validate json =
      some extraction) :
    ∃ members, json = .obj members ∧
      JsonValue.lookup "id" members = some (.str extraction.id) := by
  obtain ⟨members, rfl, hread⟩ := Codec.closedObject_eq_some hjson
  simp only [Option.bind_eq_bind, Option.bind_eq_some_iff,
    Codec.required] at hread
  obtain ⟨id, ⟨text, hlookup, hid⟩, status, -, submittedAt, -, startedAt, -,
    finishedAt, -, attempts, -, error, -, postProcessing, -, hread⟩ := hread
  cases hread
  have htext := wire.str_of_validate hid
  exact ⟨members, rfl, by rw [hlookup, htext]⟩

theorem Wire.lookup_extraction {payload : JsonValue} {envelope : EventEnvelope}
    (hpayload : (EventEnvelope.codec wire.toResultScalars).validate payload =
      some envelope) :
    ∃ members json, payload = .obj members ∧
      JsonValue.lookup "extraction" members = some json ∧
      (Extraction.codec wire.toResultScalars).validate json =
        some envelope.extraction := by
  obtain ⟨members, rfl, hread⟩ := Codec.closedObject_eq_some hpayload
  simp only [Option.bind_eq_bind, Option.bind_eq_some_iff,
    Codec.required] at hread
  obtain ⟨eventId, -, eventType, -, version, -, occurredAt, -, correlationId,
    -, tenantId, -, extraction, ⟨json, hlookup, hextraction⟩, result, -,
    metadata, -, hread⟩ := hread
  cases hread
  exact ⟨members, json, rfl, hlookup, hextraction⟩

/-- The router looks at one member of the payload, validation at all of them;
they agree on whose event it is. -/
theorem extractionIdFromPayload_of_validate {payload : JsonValue}
    {envelope : EventEnvelope}
    (hpayload : (EventEnvelope.codec wire.toResultScalars).validate payload =
      some envelope)
    (hid : envelope.extraction.id ≠ "") :
    extractionIdFromPayload wire payload = some envelope.extraction.id := by
  obtain ⟨members, json, rfl, hextraction, hjson⟩ :=
    Wire.lookup_extraction hpayload
  obtain ⟨nested, rfl, hlookup⟩ := Wire.lookup_id hjson
  have htruthy :
      ExtractionWorker.truthy (.str envelope.extraction.id) = true := by
    simpa [ExtractionWorker.truthy] using hid
  simp [extractionIdFromPayload, hextraction, hlookup, Option.filter, htruthy,
    wire.pythonStr_str]

/--
A published envelope validates to itself, and any payload that validates,
whoever published it, is routed to the extraction of its envelope.
-/
theorem published_routed (wire : Wire) :
    (∀ envelope, (EventEnvelope.codec wire.toResultScalars).validate
        (envelopeForPublish wire.toResultScalars envelope) = some envelope) ∧
      ∀ payload envelope,
        (EventEnvelope.codec wire.toResultScalars).validate payload =
            some envelope →
          envelope.extraction.id ≠ "" →
            extractionIdFromPayload wire payload =
              some envelope.extraction.id :=
  ⟨Codec.validate_dump_of_lossless (EventEnvelope.codec wire.toResultScalars),
    fun _ _ => extractionIdFromPayload_of_validate⟩

/-- JSON text as Python has it; `str` of anything else is never taken. -/
def Wire.json : Wire where
  toResultScalars := .json
  str_of_validate := by
    intro json text hvalidate
    cases json <;> simp_all [ResultScalars.json, Scalars.json]
  pythonStr
    | .str text => text
    | _ => ""
  pythonStr_str _ := rfl

def submittedPayload : JsonValue :=
  .obj [("event_type", .str "extraction.submitted"),
    ("extraction", .obj [("id", .str "e"), ("status", .str "queued"),
      ("submitted_at", .str "1970-01-01T00:00:00Z")])]

theorem published_routed_submittedPayload :
    ∃ envelope,
      (EventEnvelope.codec Wire.json.toResultScalars).validate
          submittedPayload = some envelope ∧
        envelope.extraction.id = "e" ∧
        extractionIdFromPayload .json submittedPayload = some "e" := by
  have hvalidate : ((EventEnvelope.codec Wire.json.toResultScalars).validate
      submittedPayload).map (fun envelope => envelope.extraction.id) =
        some "e" := by
    decide
  obtain ⟨envelope, henvelope, hid⟩ := Option.map_eq_some_iff.mp hvalidate
  refine ⟨envelope, henvelope, hid, ?_⟩
  rw [← hid]
  exact (published_routed .json).2 submittedPayload envelope henvelope
    (by simp [hid])

end Workers

end Flydocs
