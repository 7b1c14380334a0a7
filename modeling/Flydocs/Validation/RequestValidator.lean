import Flydocs.Dtos.Request
import Flydocs.Foundation.DependencyGraph
import Flydocs.Foundation.Dictionary
import Flydocs.Foundation.PythonText

/-!
# The request validator

Semantic checks on a request whose shape is already right.  Each check yields
its issues in the order in which the report collects them.  The validator
carries what it takes from the standard library: the cycle detector and the
table behind `repr`.
-/

namespace Flydocs

open Foundation

inductive Severity where
  | error
  | warning
  deriving DecidableEq, Repr

structure ValidationIssue where
  severity : Severity
  code : String
  message : String
  path : String := ""
  deriving DecidableEq, Repr

structure ValidationReport where
  issues : List ValidationIssue
  deriving DecidableEq, Repr

namespace ValidationReport

def errors (report : ValidationReport) : List ValidationIssue :=
  report.issues.filter (·.severity = .error)

def warnings (report : ValidationReport) : List ValidationIssue :=
  report.issues.filter (·.severity = .warning)

def hasErrors (report : ValidationReport) : Bool :=
  report.issues.any (·.severity = .error)

end ValidationReport

structure RequestValidator where
  isPrintable : Char → Bool
  sorter : TopologicalSorter String

namespace RequestValidator

open Dtos

variable (self : RequestValidator)

def repr (text : String) : String := PythonText.repr self.isPrintable text

def fieldError (code message path : String) : ValidationIssue :=
  { severity := .error, code, message, path }

def stageWarning (code message path : String) : ValidationIssue :=
  { severity := .warning, code, message, path }

/-- The dictionary `{doc.id: doc}`: a later declaration of an id wins. -/
def docIndex (specs : List DocumentTypeSpec) (id : String) :
    Option DocumentTypeSpec :=
  lookupLast (fun spec => spec.id) specs id

def fieldNames (spec : DocumentTypeSpec) : List String :=
  spec.fieldGroups.flatMap fun group => group.fields.map Field.name

/-! ## File-level checks -/

def checkFiles (request : ExtractionRequest) : List ValidationIssue :=
  request.files.zipIdx.flatMap fun (file, index) =>
    match file.expectedType with
    | none => []
    | some expected =>
        if expected = "" ∨ expected ∈ request.documentTypes.map (·.id) then []
        else [fieldError "document_type_unknown"
          ("File " ++ self.repr file.filename ++ " pins expected_type " ++
            self.repr expected ++ " which is not declared in document_types[].")
          ("files[" ++ toString index ++ "].expected_type")]

/-! ## Document-type-level checks -/

def duplicateNames (docType path : String) (seen : List String) :
    List String → List ValidationIssue
  | [] => []
  | name :: names =>
      (if name ∈ seen then
        [fieldError "duplicate_field_name"
          ("DocumentTypeSpec " ++ self.repr docType ++
            " declares field name " ++ self.repr name ++ " more than once.")
          path]
      else []) ++ duplicateNames docType path (name :: seen) names

def checkDocumentType (index : Nat) (spec : DocumentTypeSpec) :
    List ValidationIssue :=
  let declaration := "document_types[" ++ toString index ++ "]"
  if spec.fieldGroups = [] then
    [fieldError "empty_field_groups"
      ("DocumentTypeSpec " ++ self.repr spec.id ++
        " declares no field_groups -- nothing to extract.")
      (declaration ++ ".field_groups")]
  else
    (spec.fieldGroups.zipIdx.flatMap fun (group, groupIndex) =>
      if group.fields = [] then
        [fieldError "empty_field_group"
          ("DocumentTypeSpec " ++ self.repr spec.id ++ " field group " ++
            self.repr group.name ++ " has no fields.")
          (declaration ++ ".field_groups[" ++ toString groupIndex ++
            "].fields")]
      else []) ++
    self.duplicateNames spec.id (declaration ++ ".id") [] (fieldNames spec)

def checkDocumentTypes (request : ExtractionRequest) : List ValidationIssue :=
  let ids := request.documentTypes.map (·.id)
  (request.documentTypes.zipIdx.flatMap fun (spec, index) =>
    self.checkDocumentType index spec) ++
  ids.eraseDups.flatMap fun id =>
    if 1 < ids.count id then
      [fieldError "duplicate_document_type"
        ("document type " ++ self.repr id ++ " declared " ++
          toString (ids.count id) ++
          " times in document_types[]; ids must be unique.")
        "document_types[].id"]
    else []

/-! ## Rule reference checks -/

def unknownDoctype (rule : RuleSpec) (documentType path : String) :
    ValidationIssue :=
  fieldError "rule_unknown_doctype"
    ("Rule " ++ self.repr rule.id ++ " references document_type " ++
      self.repr documentType ++ " which is not declared in document_types[].")
    path

def checkParent (request : ExtractionRequest) (rule : RuleSpec)
    (path : String) : RuleParent → List ValidationIssue
  | .field documentType fields =>
      match docIndex request.documentTypes documentType with
      | none => [self.unknownDoctype rule documentType path]
      | some spec =>
          fields.flatMap fun name =>
            if name ∈ fieldNames spec then []
            else [fieldError "rule_unknown_field"
              ("Rule " ++ self.repr rule.id ++ " references field " ++
                self.repr name ++ " on document_type " ++
                self.repr documentType ++
                ", but that document type doesn't declare such a field.")
              path]
  | .validator documentType validator =>
      match docIndex request.documentTypes documentType with
      | none => [self.unknownDoctype rule documentType path]
      | some spec =>
          if validator ∈ spec.visualChecks.map (·.name) then []
          else [fieldError "rule_unknown_validator"
            ("Rule " ++ self.repr rule.id ++ " references validator " ++
              self.repr validator ++ " on document_type " ++
              self.repr documentType ++
              ", but that document type doesn't declare such a visual check.")
            path]
  | .rule parent =>
      if parent ∉ request.rules.map (·.id) then
        [fieldError "rule_unknown_parent"
          ("Rule " ++ self.repr rule.id ++ " declares parent rule " ++
            self.repr parent ++ " which is not present in the request.")
          path]
      else if parent = rule.id then
        [fieldError "rule_self_reference"
          ("Rule " ++ self.repr rule.id ++ " declares itself as a parent.")
          path]
      else []

def checkRules (request : ExtractionRequest) (index : Nat)
    (seen : List String) : List RuleSpec → List ValidationIssue
  | [] => []
  | rule :: rules =>
      let declaration := "rules[" ++ toString index ++ "]"
      (if rule.id ∈ seen then
        [fieldError "duplicate_rule_id"
          ("Rule id " ++ self.repr rule.id ++ " is declared more than once.")
          (declaration ++ ".id")]
      else []) ++
      (rule.parents.zipIdx.flatMap fun (parent, parentIndex) =>
        self.checkParent request rule
          (declaration ++ ".parents[" ++ toString parentIndex ++ "]")
          parent) ++
      checkRules request (index + 1) (rule.id :: seen) rules

def checkRuleReferences (request : ExtractionRequest) :
    List ValidationIssue :=
  self.checkRules request 0 [] request.rules

/-! ## DAG cycle check -/

def knownParents (ids : List String) (rule : RuleSpec) : List String :=
  rule.parents.filterMap fun
    | .rule parent => if parent ∈ ids then some parent else none
    | _ => none

def ruleGraph (rules : List RuleSpec) : DependencyGraph String :=
  rules.map fun rule => (rule.id, knownParents (rules.map (·.id)) rule)

def checkRuleDag (request : ExtractionRequest) : List ValidationIssue :=
  match self.sorter.prepare (ruleGraph request.rules) with
  | .ok () => []
  | .error cycle =>
      [fieldError "rule_cycle"
        ("Rule graph contains a cycle: " ++
          (if cycle = [] then "(unknown path)"
            else " -> ".intercalate cycle))
        "rules[]"]

/-! ## Stage consistency -/

def checkStageConsistency (request : ExtractionRequest) (sync : Bool) :
    List ValidationIssue :=
  let stages := request.options.stages
  (if stages.ruleEngine && request.rules.isEmpty then
    [stageWarning "rule_engine_no_rules"
      ("stages.rule_engine is enabled but no rules are declared " ++
        "-- the stage will run as a no-op.")
      "options.stages.rule_engine"]
  else []) ++
  (if stages.visualAuthenticity &&
      !(request.documentTypes.any fun spec => !spec.visualChecks.isEmpty) then
    [stageWarning "visual_authenticity_no_validators"
      ("stages.visual_authenticity is enabled but no DocumentTypeSpec " ++
        "declares visual_checks.")
      "options.stages.visual_authenticity"]
  else []) ++
  (if stages.splitter && decide (request.documentTypes.length ≤ 1) then
    [stageWarning "splitter_single_doc"
      ("stages.splitter is enabled but the request declares " ++
        "only one DocumentTypeSpec -- the splitter will short-circuit.")
      "options.stages.splitter"]
  else []) ++
  (if sync && stages.repair then
    [stageWarning "repair_sync_latency"
      ("stages.repair adds an extra LLM pass per failing " ++
        "field; synchronous requests are hard-capped at " ++
        "FLYDOCS_SYNC_TIMEOUT_S and are likely to return " ++
        "408 -- prefer the async POST /api/v1/extractions.")
      "options.stages.repair"]
  else []) ++
  (if stages.repair && !(stages.judge || stages.fieldValidation) then
    [stageWarning "repair_no_verification_stage"
      ("stages.repair is enabled but both judge and " ++
        "field_validation are off -- there are no failure " ++
        "signals to repair from, so the stage is skipped.")
      "options.stages.repair"]
  else [])

def validate (request : ExtractionRequest) (sync : Bool := false) :
    ValidationReport where
  issues :=
    self.checkFiles request ++ self.checkDocumentTypes request ++
      self.checkRuleReferences request ++ self.checkRuleDag request ++
      checkStageConsistency request sync

end RequestValidator

end Flydocs
