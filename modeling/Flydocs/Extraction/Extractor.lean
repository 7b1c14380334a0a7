import Flydocs.Extraction.Postprocess

/-!
# The multimodal extractor

One extraction call with its fallback model, the second call for arrays that all
came back empty, and the merge of the two.  Prompts, agents and the text anchor
are parameters; a call is what an agent is run with.
-/

namespace Flydocs

open Foundation Dtos

structure RenderedPrompt where
  system : String
  user : String

inductive ContentPart where
  | text (text : String)
  | binary (data : List UInt8) (mediaType : String)

structure AgentCall where
  model : String
  instructions : String
  content : List ContentPart
  op : String

structure ExtractArguments where
  documentBytes : List UInt8
  mediaType : String
  pageCount : Nat
  doc : DocumentTypeSpec
  intention : String
  languageHint : Option String := none
  model : Option String := none

/-- `answer` is what the agent is told by the model, before it is validated
against the output model of the document type. -/
structure MultimodalExtractor (Raised : Type) where
  template : List (String × String) → Except Raised RenderedPrompt
  retryArraysTemplate :
    Option (List (String × String) → Except Raised RenderedPrompt) := none
  model : String
  fallbackModel : Option String := none
  anchor : List UInt8 → String → Option String
  schemaPayload : DocumentTypeSpec → String
  buildAgent : String → String → Except Raised Unit
  answer : DocumentTypeSpec → AgentCall → Except Raised JsonValue
  runtime : Runtime
  ofPyError : PyError → Raised

namespace MultimodalExtractor

def arrayRetryMinPages : Nat := 3

/-! ## Empty arrays -/

def arrayFieldNames (doc : DocumentTypeSpec) : List String :=
  doc.fieldGroups.flatMap fun group =>
    (group.fields.filter (·.type = .array)).map Field.name

def arrayFields (doc : DocumentTypeSpec) (groups : List ExtractedFieldGroup) :
    List ExtractedField :=
  (groups.flatMap ExtractedFieldGroup.fields).filter
    (·.name ∈ arrayFieldNames doc)

def isFilled (field : ExtractedField) : Bool :=
  match field.value with
  | .list (_ :: _) => true
  | _ => false

def isEmptyList (field : ExtractedField) : Bool :=
  match field.value with
  | .list [] => true
  | _ => false

/-- A filled sibling array means that the empty ones are to be trusted. -/
def suspiciousEmptyArrays (doc : DocumentTypeSpec)
    (groups : List ExtractedFieldGroup) : List String :=
  if arrayFieldNames doc = [] then []
  else if (arrayFields doc groups).any isFilled then []
  else ((arrayFields doc groups).filter isEmptyList).map ExtractedField.name

def mergeField (retry : ExtractedFieldGroup) (emptyArrays : List String)
    (field : ExtractedField) : ExtractedField :=
  match lookupLast ExtractedField.name retry.fields field.name with
  | some retried => if field.name ∈ emptyArrays then retried else field
  | none => field

def mergeAfterRetry (original retry : List ExtractedFieldGroup)
    (emptyArrays : List String) : List ExtractedFieldGroup :=
  original.map fun group =>
    match lookupLast ExtractedFieldGroup.name retry group.name with
    | some retryGroup =>
        { name := group.name
          fields := group.fields.map (mergeField retryGroup emptyArrays) }
    | none => group

variable {Raised : Type} (self : MultimodalExtractor Raised)
  (arguments : ExtractArguments)

/-! ## Calls -/

def modelOr (model : Option String) (default : String) : String :=
  match model with
  | none | some "" => default
  | some model => model

def modelId : String := modelOr arguments.model self.model

def fence (anchor : String) : String :=
  "Text-layer anchor (Docling pre-extraction, for cross-reference only):\n" ++
    "```markdown\n" ++ anchor ++ "\n```"

def buildUserContent (userText : String) : List ContentPart :=
  .text userText ::
    (match self.anchor arguments.documentBytes arguments.mediaType with
      | none | some "" => []
      | some anchor => [.text (fence anchor)]) ++
    [.binary arguments.documentBytes arguments.mediaType]

def run (model instructions userText op : String) :
    Except Raised (List ExtractedFieldGroup) := do
  let answer ← self.answer arguments.doc
    { model, instructions
      content := self.buildUserContent arguments userText
      op }
  match Postprocess.normalised self.runtime arguments.doc answer with
  | .ok groups => return groups
  | .error raised => throw (self.ofPyError raised)

def extractOnce (op : String) :
    Except Raised (List ExtractedFieldGroup × String) := do
  let modelId := self.modelId arguments
  let prompt ← self.template
    [("schema_json", self.schemaPayload arguments.doc),
      ("media_type", arguments.mediaType),
      ("page_count", toString arguments.pageCount),
      ("intention", arguments.intention),
      ("language_hint", arguments.languageHint.getD "")]
  self.buildAgent modelId prompt.system
  match self.run arguments modelId prompt.system prompt.user op with
  | .ok groups => return (groups, modelId)
  | .error raised =>
      match self.fallbackModel with
      | none | some "" => throw raised
      | some fallback =>
          if fallback = modelId then throw raised
          else
            self.buildAgent fallback prompt.system
            let groups ← self.run arguments fallback prompt.system prompt.user
              (op ++ ".fallback")
            return (groups, fallback)

def retryVariables (emptyArrays : List String) : List (String × String) :=
  [("empty_array_names", ", ".intercalate
      (emptyArrays.map fun name => "``" ++ name ++ "``")),
    ("page_count", toString arguments.pageCount)]

def retryText (prompt : RenderedPrompt) : String :=
  PythonText.strip prompt.user ++ "\n\nSchema:\n```json\n" ++
    self.schemaPayload arguments.doc ++ "\n```"

def extractRetryArrays
    (template : List (String × String) → Except Raised RenderedPrompt)
    (emptyArrays : List String) :
    Except Raised (List ExtractedFieldGroup × String) := do
  let prompt ← template (retryVariables arguments emptyArrays)
  let modelId := self.modelId arguments
  self.buildAgent modelId prompt.system
  let groups ← self.run arguments modelId prompt.system
    (self.retryText arguments prompt) "extract.retry_arrays"
  return (groups, modelId)

def extract : Except Raised (List ExtractedFieldGroup × String) := do
  let (groups, modelUsed) ← self.extractOnce arguments "extract"
  match self.retryArraysTemplate with
  | none => return (groups, modelUsed)
  | some template =>
      if arguments.pageCount < arrayRetryMinPages then
        return (groups, modelUsed)
      else
        let emptyArrays := suspiciousEmptyArrays arguments.doc groups
        if emptyArrays = [] then return (groups, modelUsed)
        else
          let (retry, retryModel) ←
            self.extractRetryArrays arguments template emptyArrays
          return (mergeAfterRetry groups retry emptyArrays, retryModel)

end MultimodalExtractor

end Flydocs
