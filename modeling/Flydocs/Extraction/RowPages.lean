import Flydocs.Extraction.Postprocess
import Flydocs.Foundation.Traverse

/-!
# The pages of array rows

The pages of the array collect those of all its rows.  The loop hands the same
collection to every row, so a row has its own pages only where these include
those of the rows before it.
-/

namespace Flydocs

open Foundation Dtos JsonValue

namespace Postprocess

/-! ## Pages of a payload -/

def objects (rows : List JsonValue) : List Members :=
  rows.filterMap fun
    | .obj row => some row
    | _ => none

def objectRows (payload : Members) : List Members :=
  match elements (get "rows" payload) with
  | .ok rows => objects rows
  | .error _ => []

/-- The positive pages that the payload declares for the array. -/
def ownPages (payload : Members) : List Int :=
  match elements (get "pages" payload) with
  | .ok pages => pages.filterMap pageNumber
  | .error _ => []

variable (runtime : Runtime)

def leafPage (row : Members) (item : Field) : Option Int :=
  match lookup item.name row with
  | some (.obj payload) =>
      match Schema.coerceScalar runtime item.type (get "value" payload),
          intOrNone runtime (get "page" payload) with
      | .ok value, .ok page => if value = .null then none else page
      | _, _ => none
  | _ => none

def leafPages (items : List Field) (row : Members) : List Int :=
  items.filterMap (leafPage runtime row)

def OwnPages (row : ExtractedField) : Prop :=
  ∀ page, page ∈ row.pages ↔ ∃ sub ∈ row.items, page ∈ sub.pages

/-- The array has the pages of its rows and those that it declares. -/
structure RowProvenance (payload : Members) (field : ExtractedField) :
    Prop where
  rows : ∀ row ∈ field.items, OwnPages row
  array : ∀ page, page ∈ field.pages ↔
    (∃ row ∈ field.items, page ∈ row.pages) ∨ page ∈ ownPages payload

/-! ## The loop -/

section

variable {runtime : Runtime}

theorem pages_cellFromRow {row : Members} {item : Field}
    {cell : ExtractedField} (h : cellFromRow runtime row item = .ok cell) :
    cell.pages = (leafPage runtime row item).toList := by
  unfold cellFromRow at h
  unfold leafPage
  cases hlookup : lookup item.name row with
  | none =>
      simp only [hlookup] at h
      cases h
      rfl
  | some json =>
      simp only [hlookup] at h
      cases json with
      | obj payload =>
          simp only [scalarFromPayload, bind_eq_ok_iff] at h
          obtain ⟨value, hvalue, _, -, page, hpage, _, -, h⟩ := h
          cases h
          simp only [hvalue, hpage]
      | _ =>
          cases h
          rfl

theorem pages_cells {row : Members} {items : List Field}
    {cells : List ExtractedField}
    (h : items.mapM (cellFromRow runtime row) = .ok cells) :
    cells.flatMap ExtractedField.pages = leafPages runtime items row := by
  have hcells := mapM_eq_ok_iff.mp h
  unfold leafPages
  clear h
  induction hcells with
  | nil => rfl
  | @cons item cell items cells hcell _ ih =>
      rw [List.flatMap_cons, ih, pages_cellFromRow hcell, List.filterMap_cons]
      cases leafPage runtime row item <;> rfl

theorem pages_rowsFromPayload {items : List Field} {index : Nat}
    {pageSet pages : List Int} {rows : List JsonValue}
    {fields : List ExtractedField}
    (h : rowsFromPayload runtime items index pageSet rows =
      .ok (fields, pages)) (page : Int) :
    page ∈ pages ↔ page ∈ pageSet ∨ ∃ row ∈ fields, page ∈ row.pages := by
  fun_induction rowsFromPayload runtime items index pageSet rows
    generalizing fields pages with
  | case1 => cases h; simp
  | case2 index pageSet row rows ih =>
      simp only [bind_eq_ok_iff] at h
      obtain ⟨cells, -, ⟨rest, restPages⟩, hrest, h⟩ := h
      cases h
      simp only [ih cells hrest, List.exists_mem_cons_iff, mem_sorted,
        List.mem_append]
      grind
  | case3 index pageSet other rows _ ih => exact ih h

/-- The pages collected so far are to be found again in every row that follows. -/
theorem ownPages_rowsFromPayload_iff {items : List Field} {index : Nat}
    {pageSet pages : List Int} {rows : List JsonValue}
    {fields : List ExtractedField}
    (h : rowsFromPayload runtime items index pageSet rows =
      .ok (fields, pages)) :
    (∀ row ∈ fields, OwnPages row) ↔
      (∀ row ∈ objects rows, pageSet ⊆ leafPages runtime items row) ∧
      (objects rows).Pairwise fun earlier later =>
        leafPages runtime items earlier ⊆ leafPages runtime items later := by
  fun_induction rowsFromPayload runtime items index pageSet rows
    generalizing fields pages with
  | case1 => cases h; simp [objects]
  | case2 index pageSet row rows ih =>
      simp only [bind_eq_ok_iff] at h
      obtain ⟨cells, hcells, ⟨rest, restPages⟩, hrest, h⟩ := h
      cases h
      have hleaves := pages_cells hcells
      have hrow : ∀ name, OwnPages
          { name, value := .list cells
            pages := sorted (pageSet ++ cells.flatMap ExtractedField.pages) } ↔
          pageSet ⊆ leafPages runtime items row := by
        intro name
        simp only [OwnPages, ExtractedField.items, mem_sorted,
          ← List.mem_flatMap, hleaves, List.mem_append]
        exact ⟨fun hown page hpage => (hown page).mp (.inl hpage),
          fun hsub page => ⟨fun hpage => hpage.elim (@hsub page) id, .inr⟩⟩
      have hobjects : objects (.obj row :: rows) = row :: objects rows := rfl
      rw [List.forall_mem_cons, hrow, ih cells hrest, hobjects,
        List.forall_mem_cons, List.pairwise_cons, hleaves]
      simp only [List.append_subset]
      grind
  | case3 index pageSet other rows hother ih =>
      have hobjects : objects (other :: rows) = objects rows := by
        unfold objects
        rw [List.filterMap_cons]
        split
        · rfl
        · rename_i row hrow
          split at hrow
          · exact absurd rfl (hother _)
          · cases hrow
      rw [hobjects]
      exact ih h

end

/--
The pages of an extracted array are those of its leaves, row by row, exactly
when the pages of every row include those of the rows before it.
-/
theorem rowProvenance_iff {spec : Field} {payload : Members}
    {field : ExtractedField}
    (h : arrayFromPayload runtime spec payload = .ok field) :
    RowProvenance payload field ↔
      (objectRows payload).Pairwise fun earlier later =>
        leafPages runtime (rowItems spec) earlier ⊆
          leafPages runtime (rowItems spec) later := by
  simp only [arrayFromPayload, bind_eq_ok_iff] at h
  obtain ⟨rows, hrows, ⟨fields, pageSet⟩, hfields, pages, hpages, _, -, h⟩ := h
  cases h
  have hown := ownPages_rowsFromPayload_iff hfields
  simp only [List.nil_subset, implies_true, true_and] at hown
  rw [objectRows, hrows, ← hown]
  refine ⟨RowProvenance.rows, fun hrowPages => ⟨hrowPages, fun page => ?_⟩⟩
  simp only [ExtractedField.items, ownPages, hpages, mem_sorted,
    List.mem_append, pages_rowsFromPayload hfields, List.not_mem_nil,
    false_or]
  exact or_comm

/-! ## Two rows on two pages -/

def linesSpec : Field where
  name := "lines"
  type := .array
  items := some {
    name := "line"
    type := .object
    fields := some [{ name := "net" }] }

def lineOn (page : Int) : JsonValue :=
  .obj [("net", .obj [("value", .str "10"), ("page", .int page)])]

def twoLines : Members := [("rows", .arr [lineOn 1, lineOn 2])]

def twoLinesRead : ExtractedField where
  name := "lines"
  value := .list
    [{ name := "row_1"
       value := .list [{ name := "net", value := .str "10", pages := [1] }]
       pages := [1] },
     { name := "row_2"
       value := .list [{ name := "net", value := .str "10", pages := [2] }]
       pages := [1, 2] }]
  pages := [1, 2]

theorem arrayFromPayload_twoLines :
    arrayFromPayload .ofJson linesSpec twoLines = .ok twoLinesRead := by
  rfl

theorem rowProvenance_iff_twoLines :
    RowProvenance twoLines twoLinesRead ↔
      (objectRows twoLines).Pairwise fun earlier later =>
        leafPages .ofJson (rowItems linesSpec) earlier ⊆
          leafPages .ofJson (rowItems linesSpec) later :=
  rowProvenance_iff .ofJson arrayFromPayload_twoLines

theorem not_rowProvenance :
    ¬ ∀ (runtime : Runtime) (spec : Field) (payload : Members)
      (field : ExtractedField),
      arrayFromPayload runtime spec payload = .ok field →
      RowProvenance payload field := by
  intro h
  have hrows := (h .ofJson linesSpec twoLines twoLinesRead
    arrayFromPayload_twoLines).rows
  simp only [twoLinesRead, ExtractedField.items, List.forall_mem_cons,
    OwnPages] at hrows
  -- The second row has the page of the first.
  simpa using hrows.2.1 1

end Postprocess

end Flydocs
