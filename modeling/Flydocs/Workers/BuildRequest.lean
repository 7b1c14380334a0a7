import Flydocs.Extractions.SubmitExtraction

/-!
# Rebuilding a request from its row

`ExtractionWorker._build_request` puts the request together again from the
JSON columns the submit handler filled.  What it reads back from such a row is
the request that was validated at submit time.
-/

namespace Flydocs

open Foundation Dtos

namespace ExtractionWorker

inductive BuildError where
  | missingFiles (message : String)
  | validationError
  | typeError
  deriving DecidableEq, Repr

def truthy : JsonValue → Bool
  | .null => false
  | .bool value => value
  | .int value => value != 0
  | .float value => value != 0
  | .str value => value != ""
  | .arr items => !items.isEmpty
  | .obj members => !members.isEmpty

/-- `iter(value)`: the items of a list, the keys of a dict, the characters. -/
def iterate : JsonValue → Except BuildError (List JsonValue)
  | .arr items => .ok items
  | .obj members => .ok (members.map fun member => .str member.1)
  | .str text => .ok (text.toList.map fun char => .str (String.singleton char))
  | .null | .bool _ | .int _ | .float _ => .error .typeError

def validated {Value : Type*} (value : Option Value) :
    Except BuildError Value :=
  match value with
  | some value => .ok value
  | none => .error .validationError

/-- `[Model.model_validate(item) for item in schema.get(key, [])]`. -/
def readModels {Value : Type} (codec : Codec Value) (key : String)
    (schema : JsonValue.Members) : Except BuildError (List Value) := do
  let items ← iterate ((JsonValue.lookup key schema).getD (.arr []))
  validated (codec.validateList items)

def readText : JsonValue → Except BuildError String
  | .str text => .ok text
  | _ => .error .validationError

def readOptionalText : JsonValue → Except BuildError (Option String)
  | .null => .ok none
  | .str text => .ok (some text)
  | _ => .error .validationError

def readFile (rowFilename : String) :
    JsonValue → Except BuildError Interfaces.FileInput
  | .obj entry => do
      let get := fun key default =>
        (JsonValue.lookup key entry).getD default
      let filename ← readText (get "filename" (.str rowFilename))
      let content ← readOptionalText (get "content_base64" (.str ""))
      let contentType ← readOptionalText (get "content_type" .null)
      let expectedType ← readOptionalText (get "expected_type" .null)
      if filename = "" then .error .validationError
      else
        match validateBase64 content with
        | .ok contentBase64 =>
            .ok { filename, contentBase64, contentType, expectedType }
        | .error _ => .error .validationError
  | _ => .error .typeError

def readFiles (rowFilename : String) :
    List JsonValue → Except BuildError (List Interfaces.FileInput)
  | [] => .ok []
  | entry :: entries => do
      let file ← readFile rowFilename entry
      let files ← readFiles rowFilename entries
      .ok (file :: files)

def missingFiles (id : String) : String :=
  "extraction " ++ id ++
    " schema_json missing 'files' — cannot rebuild ExtractionRequest"

def buildRequest (scalars : Scalars) (id : String)
    (row : ExtractionEntity) : Except BuildError ExtractionRequest := do
  let schema := row.schemaJson
  let intention :=
    (JsonValue.lookup "intention" schema).getD (.str defaultIntention)
  let documentTypes ←
    readModels (DocumentTypeSpec.codec scalars) "document_types" schema
  let rules ← readModels (RuleSpec.codec scalars) "rules" schema
  let options ← validated <| (ExtractionOptions.codec scalars).validate <|
    if truthy row.optionsJson then row.optionsJson else .obj []
  let filesPayload := (JsonValue.lookup "files" schema).getD .null
  if truthy filesPayload then
    let entries ← iterate filesPayload
    let files ← readFiles row.filename entries
    let intention ← readText intention
    if files = [] ∨ documentTypes.isEmpty then .error .validationError
    else .ok { intention, files, documentTypes, rules, options }
  else .error (.missingFiles (missingFiles id))

/-! ## What the handler stored is read back -/

theorem readOptionalText_orNull (text : Option String) :
    readOptionalText (SubmitExtractionHandler.orNull text) = .ok text := by
  cases text <;> rfl

theorem readFile_fileJson {file : Interfaces.FileInput}
    (h : FileInput.WellFormed file) (rowFilename : String) :
    readFile rowFilename (SubmitExtractionHandler.fileJson file) =
      .ok file := by
  obtain ⟨hname, given, hgiven⟩ := h
  have hcontent := validateBase64_idempotent hgiven
  simp only [readFile, SubmitExtractionHandler.fileJson,
    JsonValue.lookup_cons, String.reduceEq, ↓reduceIte, Option.getD_some,
    readOptionalText_orNull, readText]
  simp [hcontent, hname, bind, Except.bind]

theorem readFiles_fileJson {files : List Interfaces.FileInput}
    (h : ∀ file ∈ files, FileInput.WellFormed file) (rowFilename : String) :
    readFiles rowFilename (files.map SubmitExtractionHandler.fileJson) =
      .ok files := by
  induction files with
  | nil => rfl
  | cons file files ih =>
      have hhead := readFile_fileJson (h file (by simp)) rowFilename
      have htail := ih fun other hother => h other (by simp [hother])
      simp [readFiles, hhead, htail, bind, Except.bind]

theorem readModels_dump {Value : Type} (codec : Codec Value) {key : String}
    {schema : JsonValue.Members} {values : List Value}
    (hlookup : JsonValue.lookup key schema =
      some (.arr (values.map codec.dump)))
    (hvalid : ∀ value ∈ values, codec.valid value) :
    readModels codec key schema = .ok values := by
  simp [readModels, hlookup, iterate, codec.validateList_map_dump hvalid,
    validated, bind, Except.bind]

/--
The worker rebuilds exactly the request that was validated when it was
submitted.
-/
theorem buildRequest_buildEntity (handler : SubmitExtractionHandler)
    {command : SubmitExtractionCommand} {entity : ExtractionEntity}
    (hwell : command.request.toExtractionRequest.WellFormed)
    (hstored : handler.buildEntity command = .ok entity) (id : String) :
    buildRequest handler.scalars id entity =
      .ok command.request.toExtractionRequest := by
  obtain ⟨-, -, hschema, hoptions⟩ := handler.buildEntity_eq_ok hstored
  have hdocs : readModels (DocumentTypeSpec.codec handler.scalars)
      "document_types" entity.schemaJson = .ok command.request.documentTypes :=
    readModels_dump _ (by simp [hschema, SubmitExtractionHandler.schemaJson])
      hwell.documentTypes
  have hrules : readModels (RuleSpec.codec handler.scalars) "rules"
      entity.schemaJson = .ok command.request.rules :=
    readModels_dump _ (by simp [hschema, SubmitExtractionHandler.schemaJson])
      hwell.rules
  have htruthy : truthy entity.optionsJson = true := by
    rw [hoptions]
    rfl
  have hread : (ExtractionOptions.codec handler.scalars).validate
      entity.optionsJson = some command.request.options := by
    rw [hoptions]
    exact (ExtractionOptions.codec handler.scalars).validate_dump hwell.options
  have hfiles := readFiles_fileJson hwell.files entity.filename
  have hne := hwell.files_ne_nil
  have hdocsNe := hwell.documentTypes_ne_nil
  have hpayload : JsonValue.lookup "files" entity.schemaJson =
      some (.arr (command.request.files.map
        SubmitExtractionHandler.fileJson)) := by
    simp [hschema, SubmitExtractionHandler.schemaJson]
  have hintention : JsonValue.lookup "intention" entity.schemaJson =
      some (.str command.request.intention) := by
    simp [hschema, SubmitExtractionHandler.schemaJson]
  simp only [buildRequest, hdocs, hrules, htruthy, hread, hpayload, hintention,
    ↓reduceIte, validated, Option.getD_some, bind, Except.bind]
  simp [truthy, iterate, hfiles, readText, hne, hdocsNe]

/-! ## An invoice with an array of lines -/

def netLines : Field where
  name := "lines"
  type := .array
  items := some
    { name := "line", type := .object,
      fields := some [{ name := "net", type := .number, minimum := some 0 }] }

def invoiceRequest : SubmitExtractionRequest where
  files := [⟨"invoice.pdf", some "JVBERg==", none, some "invoice"⟩]
  documentTypes :=
    [{ id := "invoice",
       fieldGroups := [{ name := "totals", fields := [netLines] }] }]
  rules :=
    [{ id := "has_lines", predicate := "there is a line",
       parents := [.field "invoice" ["lines"]] }]

def invoiceHandler : SubmitExtractionHandler where
  validator := ⟨fun _ => true, .peeling⟩
  scalars := .json
  sha256 _ := "digest"
  correlation := []

theorem netLines_wellFormed : netLines.WellFormed := by
  refine .intro (by decide) (by decide) ?_ (by simp [netLines])
  rintro _ ⟨rfl⟩
  refine .intro (by decide) (by decide) (by simp) ?_
  rintro _ ⟨rfl⟩ _ ⟨_⟩
  · exact .intro (by decide) (by decide) (by simp) (by simp)
  · contradiction

theorem invoiceRequest_wellFormed :
    invoiceRequest.toExtractionRequest.WellFormed where
  files_ne_nil := by simp [invoiceRequest]
  files := by
    intro file hfile
    cases List.mem_singleton.mp hfile
    exact ⟨by decide, some "JVBERg==", by decide⟩
  documentTypes_ne_nil := by simp [invoiceRequest]
  documentTypes := by
    intro spec hspec
    cases List.mem_singleton.mp hspec
    refine ⟨by decide, by simp, ?_, by simp⟩
    intro group hgroup
    cases List.mem_singleton.mp hgroup
    refine ⟨by decide, by simp, fun field hfield => ?_⟩
    cases List.mem_singleton.mp hfield
    exact netLines_wellFormed
  rules := by
    intro rule hrule
    cases List.mem_singleton.mp hrule
    refine ⟨by decide, by decide, fun parent hparent => ?_⟩
    cases List.mem_singleton.mp hparent
    exact List.cons_ne_nil "lines" []
  options := ⟨by simp [invoiceRequest], by simp [invoiceRequest],
    by simp [invoiceRequest]⟩

theorem buildRequest_invoice :
    ∃ entity, invoiceHandler.buildEntity { request := invoiceRequest } =
        .ok entity ∧
      buildRequest .json "42" entity =
        .ok invoiceRequest.toExtractionRequest := by
  cases hbuilt : invoiceHandler.buildEntity { request := invoiceRequest } with
  | ok entity =>
      exact ⟨entity, rfl, buildRequest_buildEntity invoiceHandler
        invoiceRequest_wellFormed hbuilt "42"⟩
  | error error =>
      have haccepted : (invoiceHandler.buildEntity
          { request := invoiceRequest }).toBool = true := by decide
      rw [hbuilt] at haccepted
      cases haccepted

end ExtractionWorker

end Flydocs
