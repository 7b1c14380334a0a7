import Mathlib.Algebra.Ring.Nat
import Flydocs.Dtos.Dump
import Flydocs.Validation.RequestValidator

/-!
# The row a submit stores

What `SubmitExtractionHandler.do_handle` does between the idempotency lookup
and the insert: the request is validated, its files are decoded and hashed,
and the whole of it is taken apart into the columns of the new row.
-/

namespace Flydocs

open Foundation Dtos

structure SubmitExtractionCommand where
  request : SubmitExtractionRequest
  idempotencyKey : Option String := none
  deriving Repr

/-- The columns of a row that are set when it is created. -/
structure ExtractionEntity where
  idempotencyKey : Option String
  filename : String
  contentSha256 : String
  contentBytes : Nat
  schemaJson : JsonValue.Members
  optionsJson : JsonValue
  callbackUrl : Option String
  metadataJson : JsonValue.Members
  deriving Repr

inductive SubmitError where
  | invalidRequest (report : ValidationReport)
  | raised (failure : Failure)
  deriving Repr

/--
The handler with what it takes from outside: the JSON form of scalars, the
hexadecimal digest of a byte string and the correlation headers of the request
it serves, empty when there are none.
-/
structure SubmitExtractionHandler where
  validator : RequestValidator
  scalars : Scalars
  sha256 : List UInt8 → String
  correlation : JsonValue.Members

namespace SubmitExtractionHandler

def indexError : Failure where
  isValueError := false
  isTypeError := false
  message := "list index out of range"
  loweredMessage := "list index out of range"

def decodeAll : List Interfaces.FileInput → Except Failure (List (List UInt8))
  | [] => .ok []
  | file :: files => do
      let bytes ← file.decodedBytes
      let rest ← decodeAll files
      .ok (bytes :: rest)

variable (self : SubmitExtractionHandler)

def summarise (files : List Interfaces.FileInput)
    (perFileBytes : List (List UInt8)) : Except Failure (String × String) :=
  match files, perFileBytes with
  | [file], [bytes] => .ok (file.filename, self.sha256 bytes)
  | file :: _, _ =>
      let primary :=
        file.filename ++ " (+" ++ toString (files.length - 1) ++ " more)"
      let rolled := (files.zip perFileBytes).flatMap fun (file, bytes) =>
        file.filename.toUTF8.toList ++ bytes
      .ok (String.ofList (primary.toList.take 255), self.sha256 rolled)
  | [], _ => .error indexError

def orNull : Option String → JsonValue
  | none => .null
  | some text => .str text

def fileJson (file : Interfaces.FileInput) : JsonValue := .obj
  [("filename", .str file.filename),
    ("content_base64", orNull file.contentBase64),
    ("content_type", orNull file.contentType),
    ("expected_type", orNull file.expectedType)]

def schemaJson (request : ExtractionRequest) : JsonValue.Members :=
  [("intention", .str request.intention),
    ("document_types", .arr (request.documentTypes.map
      (DocumentTypeSpec.codec self.scalars).dump)),
    ("rules", .arr (request.rules.map (RuleSpec.codec self.scalars).dump)),
    ("files", .arr (request.files.map fileJson))]

def withCorrelation (metadata : JsonValue.Members) : JsonValue.Members :=
  if self.correlation = [] then metadata
  else
    match JsonValue.lookup "_correlation" metadata with
    | some _ => metadata
    | none => metadata ++ [("_correlation", .obj self.correlation)]

def buildEntity (command : SubmitExtractionCommand) :
    Except SubmitError ExtractionEntity :=
  let payload := command.request
  let report := self.validator.validate payload.toExtractionRequest
  if report.hasErrors then .error (.invalidRequest report)
  else
    match decodeAll payload.files with
    | .error failure => .error (.raised failure)
    | .ok perFileBytes =>
        match self.summarise payload.files perFileBytes with
        | .error failure => .error (.raised failure)
        | .ok (filename, contentSha256) =>
            .ok
              { idempotencyKey := command.idempotencyKey
                filename := filename
                contentSha256 := contentSha256
                contentBytes := (perFileBytes.map List.length).sum
                schemaJson := self.schemaJson payload.toExtractionRequest
                optionsJson := (ExtractionOptions.codec self.scalars).dump
                  payload.options
                callbackUrl := payload.callbackUrl
                metadataJson := self.withCorrelation payload.metadata }

theorem buildEntity_eq_ok {command : SubmitExtractionCommand}
    {entity : ExtractionEntity} (h : self.buildEntity command = .ok entity) :
    (self.validator.validate
        command.request.toExtractionRequest).hasErrors = false ∧
      entity.idempotencyKey = command.idempotencyKey ∧
      entity.schemaJson =
        self.schemaJson command.request.toExtractionRequest ∧
      entity.optionsJson = (ExtractionOptions.codec self.scalars).dump
        command.request.options := by
  simp only [buildEntity] at h
  split at h
  · cases h
  · rename_i haccepted
    split at h
    · cases h
    · split at h
      · cases h
      · cases h
        exact ⟨by simpa using haccepted, rfl, rfl, rfl⟩

end SubmitExtractionHandler

end Flydocs
