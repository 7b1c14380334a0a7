import Flydocs.Transformations.Raises

/-!
# Grounding

A row of the answer is flagged where none of its identity tokens is distinctive.
A token that most input rows carry is not, so a row that repeats what many rows
say is flagged although it is copied from one of them.
-/

namespace Flydocs

open Foundation Dtos Transformations JsonValue

namespace LlmTransformer

def Flagged (row : ExtractedField) : Prop :=
  row.notes = some "unmatched to source"

/-- Every text of the row is a text of the source. -/
def CopiedFrom (output : Members) (source : ExtractedField) : Prop :=
  ∀ member ∈ data output, ∀ value, member.2 = .str value →
    ∃ sub ∈ rowsOf source, sub.value = .str value

variable (text : TextRuntime)

def Fabricated (rows : List ExtractedField) (output : Members) : Prop :=
  outputTokens text output ≠ [] ∧
    ∀ token ∈ outputTokens text output, ∀ source ∈ rows,
      token ∉ rowTokens text source

def carriers (rows : List ExtractedField) (token : String) : Nat :=
  (rows.filter fun row => token ∈ rowTokens text row).length

/-- A copied row is never flagged, and a fabricated one always. -/
structure GroundedRow (rows : List ExtractedField) (output : Members)
    (row : ExtractedField) : Prop where
  copied : ∀ source ∈ rows, CopiedFrom output source → ¬ Flagged row
  fabricated : Fabricated text rows output → Flagged row

/-- If the row is copied and has a token, one of its tokens is carried by at
most half of the rows, or by one row only. -/
def DistinctIfCopied (rows : List ExtractedField) (output : Members) : Prop :=
  (∃ source ∈ rows, CopiedFrom output source) → outputTokens text output ≠ [] →
    ∃ token ∈ outputTokens text output,
      carriers text rows token ≤ max 1 (rows.length / 2)

section

variable {text : TextRuntime}

/-! ## Tokens -/

theorem mem_rowTokens_iff {row : ExtractedField} {token : String} :
    token ∈ rowTokens text row ↔
      ∃ sub ∈ rowsOf row, token ∈ valueTokens text sub.value := by
  simp [rowTokens]

theorem mem_valueTokens_iff {value : FieldValue} {token : String} :
    token ∈ valueTokens text value ↔
      ∃ string, value = .str string ∧ token ∈ valueTokens text (.str string) := by
  cases value <;> simp [valueTokens]

theorem mem_outputTokens_iff {output : Members} {token : String} :
    token ∈ outputTokens text output ↔ ∃ member ∈ data output, ∃ string,
      member.2 = .str string ∧ token ∈ valueTokens text (.str string) := by
  simp only [outputTokens, List.mem_eraseDups, List.mem_flatMap, data,
    List.mem_filter, decide_eq_true_eq]
  constructor
  · rintro ⟨member, hmember, htoken⟩
    split at htoken
    · cases htoken
    · rename_i hreserved
      split at htoken
      · rename_i string hstring
        exact ⟨member, ⟨hmember, hreserved⟩, string, hstring, htoken⟩
      · cases htoken
  · rintro ⟨member, ⟨hmember, hreserved⟩, string, hstring, htoken⟩
    exact ⟨member, hmember, by simpa [hreserved, hstring] using htoken⟩

theorem mem_rowTokens_rebuilt {output : Members} {row : ExtractedField}
    {cells : List ExtractedField} (hvalue : row.value = .list cells)
    (hcells : List.Forall₂ (fun member cell => cell.name = member.1 ∧
      Postprocess.fieldValue text.toRuntime member.2 = .ok cell.value)
      (data output) cells) (token : String) :
    token ∈ rowTokens text row ↔ token ∈ outputTokens text output := by
  have hrows : rowsOf row = cells := by simp [rowsOf, hvalue]
  rw [mem_rowTokens_iff, mem_outputTokens_iff, hrows]
  constructor
  · rintro ⟨cell, hcell, htoken⟩
    obtain ⟨member, hmember, -, hread⟩ := exists_of_forall₂ hcells hcell
    obtain ⟨string, hstring, htoken⟩ := mem_valueTokens_iff.mp htoken
    exact ⟨member, hmember, string,
      ((fieldValue_scalar_iff hread).2 string).mp hstring,
      htoken⟩
  · rintro ⟨member, hmember, string, hstring, htoken⟩
    obtain ⟨cell, hcell, -, hread⟩ := exists_of_forall₂ hcells.flip hmember
    refine ⟨cell, hcell, ?_⟩
    rwa [((fieldValue_scalar_iff hread).2 string).mpr hstring]

theorem mem_rowTokens_of_copied {output : Members} {source : ExtractedField}
    (h : CopiedFrom output source) {token : String}
    (htoken : token ∈ outputTokens text output) :
    token ∈ rowTokens text source := by
  obtain ⟨member, hmember, string, hstring, htoken⟩ :=
    mem_outputTokens_iff.mp htoken
  obtain ⟨sub, hsub, hvalue⟩ := h member hmember string hstring
  exact mem_rowTokens_iff.mpr ⟨sub, hsub, hvalue ▸ htoken⟩

/-! ## Flags -/

theorem distinctive_iff {rows : List ExtractedField} {tokens : List String} :
    distinctive (rows.map (rowTokens text)) tokens = true ↔
      ∃ token ∈ tokens, 0 < carriers text rows token ∧
        carriers text rows token ≤ max 1 (rows.length / 2) := by
  simp only [distinctive, List.any_eq_true, Bool.and_eq_true,
    decide_eq_true_eq, List.filter_map, List.length_map, carriers]
  rfl

theorem carriers_pos_iff {rows : List ExtractedField} {token : String} :
    0 < carriers text rows token ↔
      ∃ source ∈ rows, token ∈ rowTokens text source := by
  simp [carriers, List.length_pos_iff_exists_mem]

theorem flagged_flagUngroundedRow_iff {rows : List ExtractedField}
    {row : ExtractedField} (hnotes : row.notes = none) :
    Flagged (flagUngroundedRow text true rows row) ↔
      isGrounded text row (rows.map (rowTokens text)) = false := by
  unfold Flagged flagUngroundedRow
  cases hgrounded : isGrounded text row (rows.map (rowTokens text)) with
  | true => simp [hnotes]
  | false => simp

theorem isGrounded_eq_false_iff {rows : List ExtractedField}
    (hne : rows ≠ []) {row : ExtractedField} :
    isGrounded text row (rows.map (rowTokens text)) = false ↔
      rowTokens text row ≠ [] ∧ ∀ token ∈ rowTokens text row,
        0 < carriers text rows token →
        max 1 (rows.length / 2) < carriers text rows token := by
  rw [← Bool.not_eq_true, isGrounded, Bool.or_eq_true, Bool.or_eq_true,
    distinctive_iff]
  simp [hne]

theorem exists_of_rebuildRow {template row : ExtractedField}
    {rows : List ExtractedField} {outputs : List Members} {flag : Bool}
    {index : Nat} {output : Members}
    (h : rebuildRow text template rows outputs flag index output = .ok row) :
    ∃ base, base.notes = none ∧ row = flagUngroundedRow text flag rows base := by
  simp only [rebuildRow, bind_eq_ok_iff] at h
  obtain ⟨contributors, -, cells, -, h⟩ := h
  cases h
  exact ⟨_, rfl, rfl⟩

/-- What is flagged has tokens, and each of them is carried by no row or by too
many. -/
theorem flagged_iff {template row : ExtractedField} {rows : List ExtractedField}
    (hne : rows ≠ []) {outputs : List Members} {index : Nat} {output : Members}
    (h : rebuildRow text template rows outputs true index output = .ok row) :
    Flagged row ↔ outputTokens text output ≠ [] ∧
      ∀ token ∈ outputTokens text output, 0 < carriers text rows token →
        max 1 (rows.length / 2) < carriers text rows token := by
  obtain ⟨cells, hvalue, hcells⟩ := rebuildRow_eq_ok h
  obtain ⟨base, hnotes, rfl⟩ := exists_of_rebuildRow h
  rw [flagUngroundedRow_value] at hvalue
  have htokens := mem_rowTokens_rebuilt hvalue hcells
  rw [flagged_flagUngroundedRow_iff hnotes, isGrounded_eq_false_iff hne]
  simp only [ne_eq, List.eq_nil_iff_forall_not_mem, htokens]

theorem forall₂_rebuildRows {template : ExtractedField}
    {rows produced : List ExtractedField} {outputs : List Members} {flag : Bool}
    (h : rebuildRows text template rows outputs flag = .ok produced) :
    List.Forall₂ (fun output row => ∃ index,
      outputs[index]? = some output ∧
      rebuildRow text template rows outputs flag index output = .ok row)
      outputs produced := by
  have hrows := mapM_eq_ok_iff.mp h
  rw [List.forall₂_iff_get] at hrows ⊢
  obtain ⟨hlength, hrows⟩ := hrows
  rw [List.length_zipIdx] at hlength
  refine ⟨hlength, fun index hleft hright => ⟨index, ?_, ?_⟩⟩
  · simp [List.getElem?_eq_getElem hleft]
  · have hrow := hrows index (by simpa using hleft) hright
    simpa using hrow

theorem groundedRow_iff {template row : ExtractedField}
    {rows : List ExtractedField} (hne : rows ≠ []) {outputs : List Members}
    {index : Nat} {output : Members}
    (h : rebuildRow text template rows outputs true index output = .ok row) :
    GroundedRow text rows output row ↔ DistinctIfCopied text rows output := by
  have hflagged := flagged_iff hne h
  constructor
  · rintro ⟨hcopied, -⟩ ⟨source, hsource, hcopy⟩ htokens
    by_contra hmany
    push Not at hmany
    exact hcopied source hsource hcopy (hflagged.mpr ⟨htokens,
      fun token htoken _ => hmany token htoken⟩)
  · intro hdistinct
    constructor
    case copied =>
      intro source hsource hcopy hflag
      obtain ⟨htokens, hmany⟩ := hflagged.mp hflag
      obtain ⟨token, htoken, hfew⟩ := hdistinct ⟨source, hsource, hcopy⟩ htokens
      have hcarried := carriers_pos_iff.mpr
        ⟨source, hsource, mem_rowTokens_of_copied hcopy htoken⟩
      exact absurd (hmany token htoken hcarried) hfew.not_gt
    case fabricated =>
      rintro ⟨htokens, hnone⟩
      refine hflagged.mpr ⟨htokens, fun token htoken hcarried => ?_⟩
      obtain ⟨source, hsource, hmem⟩ := carriers_pos_iff.mp hcarried
      exact absurd hmem (hnone token htoken source hsource)

end

/--
Of the rebuilt rows the copied ones are not flagged and the fabricated ones are,
exactly when every copied row that has a token has a distinctive one.
-/
theorem groundedRows_iff {rows produced : List ExtractedField}
    (hne : rows ≠ []) {outputs : List Members}
    (h : rebuildRows text (rows.head hne) rows outputs true = .ok produced) :
    List.Forall₂ (GroundedRow text rows) outputs produced ↔
      ∀ output ∈ outputs, DistinctIfCopied text rows output := by
  refine forall₂_iff_forall_mem (forall₂_rebuildRows h) ?_
  rintro output row ⟨index, -, hrow⟩
  exact groundedRow_iff hne hrow

/-! ## One company in two deeds -/

def companyRow (name : String) : ExtractedField where
  name := "row_1"
  value := .list [{ name := "name", value := .str name }]

def companyOutput (name : String) : Members := [("name", .str name)]

/-- Both rows carry the only token, and more than one row is too many. -/
def flaggedCompany : ExtractedField :=
  { companyRow "acme" with notes := some "unmatched to source" }

theorem rebuildRows_company :
    rebuildRows .ascii (companyRow "acme") [companyRow "acme", companyRow "acme"]
      [companyOutput "acme"] true = .ok [flaggedCompany] := by
  rfl

theorem groundedRows_iff_company :
    List.Forall₂
        (GroundedRow .ascii [companyRow "acme", companyRow "acme"])
        [companyOutput "acme"] [flaggedCompany] ↔
      ∀ output ∈ [companyOutput "acme"], DistinctIfCopied .ascii
        [companyRow "acme", companyRow "acme"] output :=
  groundedRows_iff .ascii (by simp) rebuildRows_company

theorem not_groundedRows :
    ¬ ∀ (text : TextRuntime) (rows produced : List ExtractedField)
      (outputs : List Members) (hne : rows ≠ []),
      rebuildRows text (rows.head hne) rows outputs true = .ok produced →
      List.Forall₂ (GroundedRow text rows) outputs produced := by
  intro h
  have hrows := h .ascii _ _ _ (by simp) rebuildRows_company
  have hcopied : CopiedFrom (companyOutput "acme") (companyRow "acme") := by
    intro member hmember value hvalue
    obtain rfl : member = ("name", .str "acme") := by
      simpa [companyOutput, data, reservedKeys, rowIdKey, provenanceKey,
        sourceRowsKey] using hmember
    cases hvalue
    exact ⟨{ name := "name", value := .str "acme" }, by
      simp [companyRow, rowsOf], rfl⟩
  exact (List.forall₂_cons.mp hrows).1.copied (companyRow "acme") (by simp)
    hcopied rfl

end LlmTransformer

end Flydocs
