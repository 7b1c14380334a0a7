import Flydocs.Extractions.ConcurrentSubmits
import Flydocs.Foundation.Paging

/-!
# Listing extractions

A page of the listing is a query of its own: the rows that the filters select,
the latest submission first, without those before the offset.  Rows submitted
at the same instant may come in any order, and in another one each time.
-/

namespace Flydocs

open Foundation

/-- `GET /api/v1/extractions`.  A filter that is empty selects everything. -/
structure ListExtractionsQuery where
  statuses : List ExtractionStatus := []
  postProcessingStatuses : List PostProcessingStatus := []
  createdAfter : Option Int := none
  createdBefore : Option Int := none
  idempotencyKey : Option String := none
  limit : Nat := 50
  offset : Nat := 0
  deriving DecidableEq, Repr

def ListExtractionsQuery.page (query : ListExtractionsQuery) (index : Nat) :
    ListExtractionsQuery :=
  { query with offset := index * query.limit }

structure ExtractionListResponse where
  items : List ExtractionSnapshot
  total : Nat
  limit : Nat
  offset : Nat
  deriving DecidableEq, Repr

variable {Json : Type*}

namespace ExtractionRepository

def selects (query : ListExtractionsQuery) (stored : StoredExtraction Json) :
    Bool :=
  (query.statuses.isEmpty || query.statuses.contains stored.row.status) &&
  (query.postProcessingStatuses.isEmpty ||
    (match stored.row.postProcessingBboxStatus with
    | some status => query.postProcessingStatuses.contains status
    | none => false)) &&
  (match query.createdAfter with
    | some time => decide (time ≤ stored.row.submittedAt)
    | none => true) &&
  (match query.createdBefore with
    | some time => decide (stored.row.submittedAt ≤ time)
    | none => true) &&
  (match query.idempotencyKey with
    | some key => key = "" || decide (stored.idempotencyKey = some key)
    | none => true)

def matching (table : List (StoredExtraction Json))
    (query : ListExtractionsQuery) : List (StoredExtraction Json) :=
  table.filter (selects query)

/-- `ORDER BY submitted_at DESC` allows this order of the rows. -/
structure Ordered (table : List (StoredExtraction Json))
    (query : ListExtractionsQuery)
    (arranged : List (StoredExtraction Json)) : Prop where
  perm : arranged.Perm (matching table query)
  latestFirst : arranged.Pairwise fun first second =>
    second.row.submittedAt ≤ first.row.submittedAt

/-- `(rows, total_count)`, for the order in which the rows come. -/
def listExtractions (table : List (StoredExtraction Json))
    (query : ListExtractionsQuery)
    (arranged : List (StoredExtraction Json)) :
    List (StoredExtraction Json) × Nat :=
  ((arranged.drop query.offset).take query.limit,
    (matching table query).length)

end ExtractionRepository

namespace ListExtractionsHandler

open ExtractionRepository

def doHandle (table : List (StoredExtraction Json))
    (query : ListExtractionsQuery)
    (arranged : List (StoredExtraction Json)) : ExtractionListResponse :=
  let (rows, total) := listExtractions table query arranged
  { items := rows.map StoredExtraction.snapshot
    total
    limit := query.limit
    offset := query.offset }

/-! ## Reading all pages -/

/-- Whatever orders the rows come in, the pages hold every matching row once,
and the total is the number of these rows. -/
structure Partitions (table : List (StoredExtraction Json))
    (query : ListExtractionsQuery) : Prop where
  pages : ∀ orders : Nat → List (StoredExtraction Json),
    (∀ index, Ordered table (query.page index) (orders index)) →
    ∀ count, (matching table query).length ≤ count * query.limit →
      ((List.range count).flatMap fun index =>
        (doHandle table (query.page index) (orders index)).items).Perm
        ((matching table query).map StoredExtraction.snapshot)
  total : ∀ index arranged,
    (doHandle table (query.page index) arranged).total =
      (matching table query).length

def later (table : List (StoredExtraction Json)) (query : ListExtractionsQuery)
    (stored : StoredExtraction Json) : Nat :=
  ((matching table query).filter fun other =>
    stored.row.submittedAt < other.row.submittedAt).length

def tied (table : List (StoredExtraction Json)) (query : ListExtractionsQuery)
    (stored : StoredExtraction Json) : Nat :=
  ((matching table query).filter fun other =>
    other.row.submittedAt = stored.row.submittedAt).length

/-- No page ends between the rows submitted at this instant. -/
def Unbroken (table : List (StoredExtraction Json))
    (query : ListExtractionsQuery) (stored : StoredExtraction Json) : Prop :=
  later table query stored / query.limit =
    (later table query stored + tied table query stored - 1) / query.limit

instance (table : List (StoredExtraction Json)) (query : ListExtractionsQuery)
    (stored : StoredExtraction Json) :
    Decidable (Unbroken table query stored) :=
  inferInstanceAs (Decidable (_ = _))

section

variable {table : List (StoredExtraction Json)} {query : ListExtractionsQuery}

def sortKey (stored : StoredExtraction Json) : OrderDual Int :=
  OrderDual.toDual stored.row.submittedAt

theorem ordered_iff {index : Nat} {arranged : List (StoredExtraction Json)} :
    Ordered table (query.page index) arranged ↔
      SmallestFirst.Arranges sortKey (matching table query) arranged :=
  ⟨fun h => ⟨h.perm, h.latestFirst⟩, fun h => ⟨h.perm, h.sorted⟩⟩

theorem unbroken_iff {stored : StoredExtraction Json} :
    Unbroken table query stored ↔
      SmallestFirst.OnOnePage sortKey (matching table query) query.limit
        stored := by
  have hlater : later table query stored =
      (SmallestFirst.lower sortKey (sortKey stored)
        (matching table query)).length := by
    simp [later, SmallestFirst.lower, sortKey]
  have htied : tied table query stored =
      (SmallestFirst.same sortKey (sortKey stored)
        (matching table query)).length := by
    simp [tied, SmallestFirst.same, sortKey]
  rw [Unbroken, SmallestFirst.OnOnePage, hlater, htied]

theorem items_pages (orders : Nat → List (StoredExtraction Json))
    (count : Nat) :
    ((List.range count).flatMap fun index =>
      (doHandle table (query.page index) (orders index)).items) =
      (SmallestFirst.pages query.limit count orders).map
        StoredExtraction.snapshot := by
  rw [SmallestFirst.pages, List.map_flatMap]
  rfl

theorem partitions_iff (hids : (table.map StoredExtraction.id).Nodup)
    (hlimit : 1 ≤ query.limit) :
    Partitions table query ↔
      ∀ stored ∈ matching table query, Unbroken table query stored := by
  have hmatching : ((matching table query).map StoredExtraction.id).Nodup :=
    hids.sublist (List.filter_sublist.map _)
  simp only [unbroken_iff]
  constructor
  · intro h
    refine SmallestFirst.onOnePage_of_nodup_pages hlimit
      fun orders horders count hcount => ?_
    have hperm := h.pages orders (fun index => ordered_iff.mpr (horders index))
      count hcount
    rw [items_pages] at hperm
    have hsnapshots := hperm.map ExtractionSnapshot.id
    rw [List.map_map, List.map_map] at hsnapshots
    exact (hsnapshots.nodup_iff.mpr hmatching).of_map
  · intro hone
    refine ⟨fun orders horders count hcount => ?_, fun index arranged => rfl⟩
    rw [items_pages]
    exact (SmallestFirst.pages_perm_of_onOnePage hmatching.of_map hlimit hcount
      hone fun index => ordered_iff.mp (horders index)).map _

end

def submittedRow (id : String) (submittedAt : Int) : StoredExtraction Unit where
  id := id
  entity :=
    { idempotencyKey := none
      filename := "invoice.pdf"
      contentSha256 := "digest"
      contentBytes := 4
      schemaJson := []
      optionsJson := .obj []
      callbackUrl := none
      metadataJson := [] }
  row := .submitted submittedAt none

theorem partitions_two_pages :
    Partitions [submittedRow "ext_1" 5, submittedRow "ext_2" 3,
      submittedRow "ext_3" 5, submittedRow "ext_4" 3]
      { limit := 2 } := by
  refine (partitions_iff (by decide) (by decide)).mpr ?_
  decide

/-! ### Two rows submitted at once -/

def twins : List (StoredExtraction Unit) :=
  [submittedRow "ext_1" 5, submittedRow "ext_2" 5]

def turned (index : Nat) : List (StoredExtraction Unit) :=
  if index = 0 then twins else twins.reverse

theorem ordered_turned (index : Nat) :
    Ordered twins (({ limit := 1 } : ListExtractionsQuery).page index)
      (turned index) := by
  have hall : matching twins
      (({ limit := 1 } : ListExtractionsQuery).page index) = twins := rfl
  unfold turned
  split
  · exact ⟨by rw [hall], by decide⟩
  · exact ⟨by rw [hall]; exact List.reverse_perm _, by decide⟩

/-- Both pages of one row have the first row. -/
theorem not_partitions :
    ¬ ∀ (table : List (StoredExtraction Unit)) (query : ListExtractionsQuery),
      (table.map StoredExtraction.id).Nodup → 1 ≤ query.limit →
        Partitions table query := by
  intro h
  have hperm := (h twins { limit := 1 } (by decide) (by decide)).pages turned
    ordered_turned 2 (by decide)
  have hids := hperm.map ExtractionSnapshot.id
  revert hids
  decide

end ListExtractionsHandler

end Flydocs
