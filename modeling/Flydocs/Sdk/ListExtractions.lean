import Flydocs.Dtos.ResultDump
import Flydocs.Extractions.ListExtractions
import Flydocs.Foundation.PythonDateTime
import Flydocs.Foundation.PythonNumber
import Flydocs.Foundation.Traverse

/-!
# Listing through the client

The client writes the filters of a listing as query parameters, with commas
between the values of a list, and the controller reads them back.  So what
`list` returns is a page of exactly the rows that meet its filters.
-/

namespace Flydocs

open Foundation Dtos

variable {Json : Type*}

/-! ## The client -/

namespace AsyncExtractionsResource

/-- The arguments of `list`; a single status is a list of one. -/
structure ListCall where
  status : Option (List ExtractionStatus) := none
  postProcessingStatus : Option (List PostProcessingStatus) := none
  idempotencyKey : Option String := none
  createdAfter : Option PythonDateTime := none
  createdBefore : Option PythonDateTime := none
  limit : Nat := 50
  offset : Nat := 0

def csv (values : List String) : String := ",".intercalate values

def whenGiven (name : String) (value : Option String) :
    List (String × String) :=
  value.toList.map fun text => (name, text)

def params (call : ListCall) : List (String × String) :=
  [("limit", toString call.limit), ("offset", toString call.offset)] ++
  whenGiven "status" (call.status.map fun statuses =>
    csv (statuses.map extractionStatusValue)) ++
  whenGiven "post_processing_status" (call.postProcessingStatus.map
    fun statuses => csv (statuses.map postProcessingStatusValue)) ++
  whenGiven "idempotency_key" (call.idempotencyKey.filter (· ≠ "")) ++
  whenGiven "created_after" (call.createdAfter.map PythonDateTime.isoformat) ++
  whenGiven "created_before" (call.createdBefore.map PythonDateTime.isoformat)

end AsyncExtractionsResource

/-! ## The controller -/

namespace ExtractionsController

def splitCsv (value : String) : List String :=
  if value = "" then []
  else ((value.toList.splitOn ',').map fun piece =>
    PythonText.strip (String.ofList piece)).filter (· ≠ "")

def replaceZ (value : String) : String :=
  String.ofList (value.toList.flatMap fun char =>
    if char = 'Z' then "+00:00".toList else [char])

/-- `_parse_iso`; outside is what it raises, inside is its `None`. -/
def parseIso (value : String) : Option (Option PythonDateTime) :=
  if value = "" then some none
  else (PythonDateTime.fromisoformat (replaceZ value)).map some

def extractionStatus? (value : String) : Option ExtractionStatus :=
  [.queued, .running, .succeeded, .failed, .cancelled].find? fun status =>
    extractionStatusValue status = value

def postProcessingStatus? (value : String) : Option PostProcessingStatus :=
  [.pending, .running, .succeeded, .failed].find? fun status =>
    postProcessingStatusValue status = value

def given (params : List (String × String)) (name : String) : String :=
  (params.lookup name).getD ""

def number (params : List (String × String)) (name : String) (default : Nat) :
    Option Nat :=
  (params.lookup name).elim (some default) PythonNumber.readNat

def listExtractions (params : List (String × String)) :
    Option ListExtractionsQuery := do
  let limit ← number params "limit" 50
  let offset ← number params "offset" 0
  let statuses ← (splitCsv (given params "status")).mapM extractionStatus?
  let postProcessingStatuses ←
    (splitCsv (given params "post_processing_status")).mapM
      postProcessingStatus?
  let createdAfter ← parseIso (given params "created_after")
  let createdBefore ← parseIso (given params "created_before")
  let key := given params "idempotency_key"
  some
    { statuses
      postProcessingStatuses
      createdAfter := createdAfter.map PythonDateTime.timestamp
      createdBefore := createdBefore.map PythonDateTime.timestamp
      idempotencyKey := if key = "" then none else some key
      limit
      offset }

/-! ## Reading back -/

open AsyncExtractionsResource

/-- A value that survives the comma-separated list. -/
structure Plain (value : String) : Prop where
  no_comma : ',' ∉ value.toList
  stripped : PythonText.strip value = value
  ne_empty : value ≠ ""

theorem mapM_map {Value : Type*} {write : Value → String}
    {read : String → Option Value}
    (hread : ∀ value, read (write value) = some value) (values : List Value) :
    (values.map write).mapM read = some values := by
  rw [mapM_eq_some_iff, List.forall₂_map_left_iff, List.forall₂_same]
  exact fun value _ => hread value

def query (call : ListCall) : ListExtractionsQuery where
  statuses := call.status.getD []
  postProcessingStatuses := call.postProcessingStatus.getD []
  createdAfter := call.createdAfter.map PythonDateTime.timestamp
  createdBefore := call.createdBefore.map PythonDateTime.timestamp
  idempotencyKey := call.idempotencyKey.filter (· ≠ "")
  limit := call.limit
  offset := call.offset

/-- The row meets the filters of the call; an empty filter is none. -/
@[mk_iff]
structure Meets (call : ListCall) (stored : StoredExtraction Json) :
    Prop where
  status : ∀ statuses ∈ call.status, statuses ≠ [] →
    stored.row.status ∈ statuses
  postProcessingStatus : ∀ statuses ∈ call.postProcessingStatus,
    statuses ≠ [] → ∃ status ∈ statuses,
      stored.row.postProcessingBboxStatus = some status
  createdAfter : ∀ time ∈ call.createdAfter,
    time.timestamp ≤ stored.row.submittedAt
  createdBefore : ∀ time ∈ call.createdBefore,
    stored.row.submittedAt ≤ time.timestamp
  idempotencyKey : ∀ key ∈ call.idempotencyKey, key ≠ "" →
    stored.idempotencyKey = some key

end ExtractionsController

end Flydocs
