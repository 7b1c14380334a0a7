import Flydocs.Dtos.Field

/-!
# Extraction requests in full

The request as a caller submits it.  The pipeline model reads a part of it;
`toPipeline` is that part.
-/

namespace Flydocs

open Foundation

namespace Dtos

/-! ## Rules -/

inductive RuleParent where
  | field (documentType : String) (fields : List String)
  | validator (documentType validator : String)
  | rule (rule : String)
  deriving DecidableEq, Repr

structure RuleOutputSpec where
  type : String := "boolean"
  validOutputs : Option (List String) := none
  deriving DecidableEq, Repr

structure RuleSpec extends Interfaces.RuleSpec where
  predicate : String
  parents : List RuleParent := []
  output : RuleOutputSpec := {}
  deriving DecidableEq, Repr

def RuleParent.WellFormed : RuleParent → Prop
  | field _ fields => fields ≠ []
  | validator _ _ | rule _ => True

def RuleSpec.WellFormed (spec : RuleSpec) : Prop :=
  spec.id ≠ "" ∧ spec.predicate ≠ "" ∧
    ∀ parent ∈ spec.parents, parent.WellFormed

/-! ## Transformations -/

inductive OnViolation where
  | repair
  | warn
  deriving DecidableEq, Repr

structure PartsOfWholeInvariant where
  shareField : String
  total : Rat := 100
  tolerance : Rat := 1 / 2
  onViolation : OnViolation := .repair
  deriving DecidableEq, Repr

structure BaseTransformation extends Interfaces.Transformation where
  id : String
  targetGroup : String
  outputGroup : Option String := none
  deriving DecidableEq, Repr

structure EntityResolutionTransformation extends BaseTransformation where
  matchBy : List String
  minSharedTokens : Int := 2
  deriving DecidableEq, Repr

structure LlmTransformation extends BaseTransformation where
  intention : String
  promptId : Option String := none
  includeProvenance : Bool := true
  invariant : Option PartsOfWholeInvariant := none
  deriving DecidableEq, Repr

inductive Transformation where
  | entityResolution (spec : EntityResolutionTransformation)
  | llm (spec : LlmTransformation)
  deriving DecidableEq, Repr

def Transformation.base : Transformation → BaseTransformation
  | entityResolution spec => spec.toBaseTransformation
  | llm spec => spec.toBaseTransformation

def PartsOfWholeInvariant.WellFormed (spec : PartsOfWholeInvariant) : Prop :=
  spec.shareField ≠ "" ∧ 0 < spec.total ∧ 0 ≤ spec.tolerance

def BaseTransformation.WellFormed (spec : BaseTransformation) : Prop :=
  spec.targetGroup ≠ ""

def Transformation.WellFormed : Transformation → Prop
  | entityResolution spec =>
      spec.toBaseTransformation.WellFormed ∧ spec.matchBy ≠ [] ∧
        1 ≤ spec.minSharedTokens
  | llm spec =>
      spec.toBaseTransformation.WellFormed ∧ 10 ≤ spec.intention.length ∧
        ∀ guard, spec.invariant = some guard → guard.WellFormed

/-! ## Options -/

structure EscalationConfig where
  threshold : Rat
  model : String
  deriving DecidableEq, Repr

structure ExtractionOptions where
  model : Option String := none
  languageHint : Option String := none
  returnBboxes : Bool := true
  declaredMediaType : Option String := none
  stages : Interfaces.StageToggles := {}
  escalation : Option EscalationConfig := none
  transformations : List Transformation := []
  deriving DecidableEq, Repr

def EscalationConfig.WellFormed (config : EscalationConfig) : Prop :=
  0 ≤ config.threshold ∧ config.threshold ≤ 1 ∧ config.model ≠ ""

def ExtractionOptions.WellFormed (options : ExtractionOptions) : Prop :=
  (∀ hint, options.languageHint = some hint → hint.length ≤ 16) ∧
    (∀ config, options.escalation = some config → config.WellFormed) ∧
    ∀ spec ∈ options.transformations, spec.WellFormed

def ExtractionOptions.toPipeline (options : ExtractionOptions) :
    Interfaces.ExtractionOptions where
  model := options.model
  declaredMediaType := options.declaredMediaType
  stages := options.stages
  transformations :=
    options.transformations.map (·.base.toTransformation)

/-! ## Files -/

/-- `value.split(",", 1)[1]` of a `data:` URL, any other value as it is. -/
def stripDataUrl (value : String) : String :=
  if ',' ∈ value.toList ∧ value.startsWith "data:" then
    String.ofList (value.toList.dropWhile (· ≠ ',')).tail
  else value

def validateBase64 : Option String → Except Failure (Option String)
  | none => .ok none
  | some value =>
      let value := stripDataUrl value
      match Base64.b64decodeStrict value with
      | .ok _ => .ok (some value)
      | .error failure => .error (Base64.valueError
          ("content_base64 is not valid base64: " ++ failure.message))

def FileInput.WellFormed (file : Interfaces.FileInput) : Prop :=
  file.filename ≠ "" ∧ ∃ given, validateBase64 given = .ok file.contentBase64

/-! ## Requests -/

def defaultIntention : String := "Extract structured data from the document."

structure ExtractionRequest where
  intention : String := defaultIntention
  files : List Interfaces.FileInput
  documentTypes : List DocumentTypeSpec
  rules : List RuleSpec := []
  options : ExtractionOptions := {}
  deriving Repr

structure SubmitExtractionRequest extends ExtractionRequest where
  callbackUrl : Option String := none
  metadata : JsonValue.Members := []
  deriving Repr

structure ExtractionRequest.WellFormed (request : ExtractionRequest) :
    Prop where
  files_ne_nil : request.files ≠ []
  files : ∀ file ∈ request.files, FileInput.WellFormed file
  documentTypes_ne_nil : request.documentTypes ≠ []
  documentTypes : ∀ spec ∈ request.documentTypes, spec.WellFormed
  rules : ∀ rule ∈ request.rules, rule.WellFormed
  options : request.options.WellFormed

def ExtractionRequest.toPipeline (request : ExtractionRequest) :
    Interfaces.ExtractionRequest where
  files := request.files
  documentTypes :=
    request.documentTypes.map DocumentTypeSpec.toDocumentTypeSpec
  rules := request.rules.map RuleSpec.toRuleSpec
  options := request.options.toPipeline

/-- What the field validator stored passes it again unchanged. -/
theorem validateBase64_idempotent {given stored : Option String}
    (h : validateBase64 given = .ok stored) :
    validateBase64 stored = .ok stored := by
  cases given with
  | none =>
      cases h
      rfl
  | some value =>
      simp only [validateBase64] at h
      cases hdecode : Base64.b64decodeStrict (stripDataUrl value) with
      | error failure => simp [hdecode] at h
      | ok bytes =>
          simp only [hdecode, Except.ok.injEq] at h
          subst h
          have hcomma : ',' ∉ (stripDataUrl value).toList :=
            Base64.not_mem_of_b64decodeStrict hdecode (by decide) (by decide)
          have hstrip : stripDataUrl (stripDataUrl value) =
              stripDataUrl value := if_neg fun h => hcomma h.1
          simp only [validateBase64, hstrip, hdecode]

end Dtos

end Flydocs
