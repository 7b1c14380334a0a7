import Flydocs.Bbox.Leaves
import Flydocs.Bbox.Words
import Flydocs.Foundation.BestOffer
import Flydocs.Validation.PythonLibrary

/-!
# The bbox refiner

One call for one document.  The router's word stream and the matcher are the
refiner's parameters.  The groups are changed in place, so a call returns them
next to its counters or the exception that ended it.
-/

namespace Flydocs

open Foundation Dtos

namespace Bbox

/-! ## The box constructor -/

inductive BoxError where
  | range (fields : List String)
  | corners (message : String)
  deriving DecidableEq, Repr

def InUnit (value : Rat) : Prop := 0 ≤ value ∧ value ≤ 1

instance (value : Rat) : Decidable (InUnit value) :=
  inferInstanceAs (Decidable (_ ∧ _))

def boundingBox (xmin ymin xmax ymax : Rat) (quality : Option BboxQuality)
    (qualityScore : UnitInterval) (source : BboxSource)
    (refinementConfidence : Rat) : Except BoxError BoundingBox :=
  if hrange : InUnit xmin ∧ InUnit ymin ∧ InUnit xmax ∧ InUnit ymax ∧
      InUnit refinementConfidence then
    if hcorners : xmin < xmax ∧ ymin < ymax then
      .ok {
        xmin := ⟨xmin, hrange.1⟩
        ymin := ⟨ymin, hrange.2.1⟩
        xmax := ⟨xmax, hrange.2.2.1⟩
        ymax := ⟨ymax, hrange.2.2.2.1⟩
        quality
        qualityScore
        source := some source
        refinementConfidence :=
          some ⟨refinementConfidence, hrange.2.2.2.2⟩
        corners := hcorners }
    else if xmin < xmax then
      .error (.corners "ymin must be strictly less than ymax")
    else .error (.corners "xmin must be strictly less than xmax")
  else
    let fields := [("xmin", xmin), ("ymin", ymin), ("xmax", xmax),
      ("ymax", ymax), ("refinement_confidence", refinementConfidence)]
    .error (.range ((fields.filter fun field => !decide (InUnit field.2)).map
      Prod.fst))

/-! ## One leaf -/

structure RefineCounters where
  fieldsSeen : Nat := 0
  groundedPdfText : Nat := 0
  groundedOcr : Nat := 0
  keptLlm : Nat := 0
  deriving DecidableEq, Repr

def RefineCounters.outcomes (counters : RefineCounters) : Nat :=
  counters.groundedPdfText + counters.groundedOcr + counters.keptLlm

def hasSource (source : BboxSource) (field : ExtractedField) : Bool :=
  match field.bbox with
  | some box => box.source = some source
  | none => false

def isGrounded (field : ExtractedField) : Bool :=
  hasSource .pdfText field || hasSource .ocr field

def pageSource (page : Int) (pages : List PageWords) : BboxSource :=
  match pages.find? fun words => words.page = page with
  | some words => words.source
  | none => .pdfText

def keepLlm (field : ExtractedField) : ExtractedField :=
  match field.bbox with
  | some box =>
      { field with
        bbox := some
          { box with source := some .llm, refinementConfidence := none } }
  | none => field

def replaceBbox (field : ExtractedField) (found : MatchResult)
    (source : BboxSource) : Except BoxError ExtractedField := do
  let box ← boundingBox found.xmin found.ymin found.xmax found.ymax
    (field.bbox.bind BoundingBox.quality)
    ((field.bbox.map BoundingBox.qualityScore).getD 0) source found.score
  return { field with
    bbox := some box
    pages :=
      if found.page ∈ field.pages then field.pages
      else found.page :: field.pages }

def stamp (pages : List PageWords) (found : Option MatchResult)
    (field : ExtractedField) : Except BoxError ExtractedField :=
  match found with
  | none => .ok (keepLlm field)
  | some found => replaceBbox field found (pageSource found.page pages)

def RefineCounters.count (counters : RefineCounters) (pages : List PageWords)
    (found : Option MatchResult) : RefineCounters :=
  match found with
  | none => { counters with keptLlm := counters.keptLlm + 1 }
  | some found =>
      if pageSource found.page pages = .pdfText then
        { counters with groundedPdfText := counters.groundedPdfText + 1 }
      else { counters with groundedOcr := counters.groundedOcr + 1 }

/-! ## The call -/

abbrev Results := List (String × Option MatchResult)

def Results.get (results : Results) (fieldId : String) : Option MatchResult :=
  held results fieldId

theorem Results.mem_of_get {results : Results} {fieldId : String}
    {found : MatchResult} (h : results.get fieldId = some found) :
    (fieldId, some found) ∈ results :=
  mem_of_held h

inductive RefineError (Failure : Type) where
  | raised (failure : Failure)
  | value (error : PyException)
  | box (error : BoxError)
  | index
  deriving DecidableEq

structure BboxRefiner (Failure : Type) where
  library : PythonLibrary
  collect : Except Failure (List PageWords)
  locateAll : List PageWords → List Target → Except Failure Results

namespace BboxRefiner

variable {Failure : Type} (refiner : BboxRefiner Failure)

def valueAsString : FieldValue → Except PyException String
  | .null | .bool _ | .list _ => .ok ""
  | .int number => PythonLibrary.intRepr number
  | .float number => .ok (refiner.library.floatText number)
  | .str text => .ok (PythonText.strip text)

def targetsFrom (index : Nat) :
    List ExtractedField → Except PyException (List (Nat × Target))
  | [] => .ok []
  | leaf :: leaves => do
      let value ← refiner.valueAsString leaf.value
      let targets ← targetsFrom (index + 1) leaves
      if value = "" then
        return targets
      else
        let candidates := if leaf.pages = [] then none else some leaf.pages
        return (index, ⟨toString index, value, candidates⟩) :: targets

def alreadyGrounded (leaves : List ExtractedField) : List Nat :=
  (leaves.zipIdx.filter fun entry => isGrounded entry.1).map Prod.snd

def seen (leaves : List ExtractedField) : RefineCounters where
  fieldsSeen := leaves.length
  groundedPdfText := leaves.countP (hasSource .pdfText)
  groundedOcr := leaves.countP (hasSource .ocr)

/-- The loop over the residual targets; `int(field_id)` is the index. -/
def stampAll (pages : List PageWords) (results : Results) :
    List (Nat × Target) → List ExtractedField → RefineCounters →
      List ExtractedField × Except (RefineError Failure) RefineCounters
  | [], leaves, counters => (leaves, .ok counters)
  | (index, target) :: targets, leaves, counters =>
      match leaves[index]? with
      | none => (leaves, .error .index)
      | some field =>
          let found := results.get target.fieldId
          match stamp pages found field with
          | .error error => (leaves, .error (.box error))
          | .ok field =>
              stampAll pages results targets (leaves.set index field)
                (counters.count pages found)

def located (leaves : List ExtractedField) :
    Except (RefineError Failure)
      (List PageWords × List (Nat × Target) × Results) := do
  let pages ← refiner.collect.mapError .raised
  let targets ← (refiner.targetsFrom 0 leaves).mapError .value
  let residual := targets.filter fun target =>
    target.1 ∉ alreadyGrounded leaves
  if residual = [] then
    return (pages, [], [])
  else
    let results ←
      (refiner.locateAll pages (residual.map Prod.snd)).mapError .raised
    return (pages, residual, results)

def refine (groups : List ExtractedFieldGroup) :
    List ExtractedFieldGroup × Except (RefineError Failure) RefineCounters :=
  if groups = [] then (groups, .ok {})
  else
    let leaves := groupLeaves groups
    match refiner.located leaves with
    | .error error => (groups, .error error)
    | .ok (pages, residual, results) =>
        let (leaves', outcome) :=
          stampAll pages results residual leaves (seen leaves)
        (putGroups groups leaves', outcome)

end BboxRefiner

end Bbox

end Flydocs
