import Flydocs.Dtos.Request
import Flydocs.Transformations.TargetGroup

/-!
# Entity resolution

Rows are put into clusters, first by the exact key, then by variants of a name,
and every cluster is collapsed into one canonical row.
-/

namespace Flydocs

open Foundation Dtos Transformations

namespace EntityResolution

variable (text : TextRuntime)

/-! ## Keys and names -/

def normaliseKey (value : String) : String :=
  String.ofList ((text.upper value).toList.filter text.isAlnum)

def normaliseText (value : String) : String :=
  let folded := String.ofList
    ((text.nfkd value).toList.filter fun char => !text.combining char)
  " ".intercalate (PythonText.split (text.lower folded))

def nameTokens (value : String) : List String :=
  (PythonText.split (normaliseText text value)).eraseDups

def scalarText : FieldValue → Option String
  | .str value => some (PythonText.strip value)
  | .null | .list _ => none
  | value => some (PythonText.strip (text.strValue value))

def rowValue (row : ExtractedField) (fieldName : String) : String :=
  ((rowsOf row).findSome? fun sub =>
    if sub.name = fieldName then scalarText text sub.value else none).getD ""

def nameVariantMatch (first second : String) (minShared : Int) : Bool :=
  let firsts := nameTokens text first
  let seconds := nameTokens text second
  if firsts = [] ∨ seconds = [] then false
  else if firsts.all (· ∈ seconds) || seconds.all (· ∈ firsts) then
    decide (minShared ≤ min firsts.length seconds.length)
  else false

/-! ## Clusters -/

def strongKey (spec : EntityResolutionTransformation) : String :=
  spec.matchBy.headD ""

def selectNameField (matchBy : List String) (strongKey : String) : String :=
  (matchBy.find? (· ≠ strongKey)).getD ""

structure Clusters where
  clusters : List (List ExtractedField) := []
  byStrongKey : List (String × Nat) := []

namespace Clusters

def addTo (state : Clusters) (index : Nat) (row : ExtractedField) :
    Clusters :=
  { state with clusters := state.clusters.modify index (· ++ [row]) }

def start (state : Clusters) (row : ExtractedField) : Clusters :=
  { state with clusters := state.clusters ++ [[row]] }

end Clusters

def joins (spec : EntityResolutionTransformation) (nameField name : String)
    (cluster : List ExtractedField) : Bool :=
  match cluster with
  | [] => false
  | representative :: _ =>
      if strongKey spec ≠ "" ∧
          rowValue text representative (strongKey spec) ≠ "" then false
      else
        nameVariantMatch text name (rowValue text representative nameField)
          spec.minSharedTokens

def addRow (spec : EntityResolutionTransformation) (state : Clusters)
    (row : ExtractedField) : Clusters :=
  let nameField := selectNameField spec.matchBy (strongKey spec)
  let keyValue :=
    if strongKey spec = "" then "" else rowValue text row (strongKey spec)
  if keyValue ≠ "" then
    let key := normaliseKey text keyValue
    match state.byStrongKey.lookup key with
    | some index => state.addTo index row
    | none =>
        { state.start row with
          byStrongKey := state.byStrongKey ++ [(key, state.clusters.length)] }
  else if nameField = "" then state.start row
  else
    match state.clusters.findIdx?
        (joins text spec nameField (rowValue text row nameField)) with
    | some index => state.addTo index row
    | none => state.start row

/-! ## Canonical rows -/

structure Score where
  filled : Nat
  length : Nat
  tie : String

def Score.lt (first second : Score) : Bool :=
  if first.filled ≠ second.filled then first.filled < second.filled
  else if first.length ≠ second.length then first.length < second.length
  else first.tie < second.tie

def score (sub : ExtractedField) : Score :=
  match sub.value with
  | .null => { filled := 0, length := 0, tie := "" }
  | .str value =>
      { filled := 1, length := (PythonText.strip value).length, tie := value }
  | .list items =>
      { filled := 1, length := items.length, tie := text.strValue sub.value }
  | value => { filled := 1, length := 1, tie := text.strValue value }

def pickCanonical (first : ExtractedField) (rest : List ExtractedField) :
    ExtractedField :=
  rest.foldl (fun best sub =>
    if (score text best).lt (score text sub) then sub else best) first

def mergePages (cluster : List ExtractedField) : List Int :=
  Postprocess.sorted (cluster.flatMap ExtractedField.pages)

def maxConfidence (cluster : List ExtractedField) : UnitInterval :=
  cluster.foldl (fun best row =>
    if best.val < row.confidence.val then row.confidence else best) 0

/-- One field for each name, in the order in which the names appear. -/
def mergeSubs (subs : List ExtractedField) : List ExtractedField :=
  (subs.map ExtractedField.name).eraseDups.filterMap fun name =>
    match subs.filter (·.name = name) with
    | [] => none
    | first :: rest => some (pickCanonical text first rest)

def canonicalise (cluster : List ExtractedField) : ExtractedField :=
  match cluster with
  | [] => { name := "row", value := .null }
  | base :: _ =>
      match base.value with
      | .list _ =>
          { name := base.name
            value := .list (mergeSubs text (cluster.flatMap rowsOf))
            pages := mergePages cluster
            confidence := maxConfidence cluster
            bbox := base.bbox }
      | _ => base

def dedupeRows (spec : EntityResolutionTransformation)
    (rows : List ExtractedField) : List ExtractedField :=
  (rows.foldl (addRow text spec) {}).clusters.map (canonicalise text)

def apply {Raised : Type} (spec : EntityResolutionTransformation)
    (outputGroup : Option String) (groups : List ExtractedFieldGroup) :
    Except Raised (List ExtractedFieldGroup × Option ExtractedFieldGroup) :=
  applyWith (fun rows => .ok (some (dedupeRows text spec rows)))
    spec.targetGroup outputGroup groups

end EntityResolution

end Flydocs
