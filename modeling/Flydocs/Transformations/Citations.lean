import Flydocs.Transformations.Grounding

/-!
# Citations

A row of the answer that cites input rows is rebuilt from those alone: two lists
of rows that agree on what it cites give the same row.
-/

namespace Flydocs

open Foundation Dtos Transformations JsonValue

namespace LlmTransformer

/-! ## What is cited -/

def IsScalar : JsonValue → Prop
  | .arr _ | .obj _ => False
  | _ => True

def StringCitations (output : Members) : Prop :=
  match lookup sourceRowsKey output with
  | none | some .null | some (.str _) => True
  | some (.arr ids) => ∀ id ∈ ids, ∃ string, id = .str string
  | _ => False

def rowId (index : Nat) : String := "r" ++ toString (index + 1)

def Cites (output : Members) (index : Nat) : Prop :=
  ∃ ids, citedIds output = .ok ids ∧ .str (rowId index) ∈ ids

/-- The rows that the output row cites are the same in both lists. -/
def AgreeOnCited (rows others : List ExtractedField) (output : Members) :
    Prop :=
  ∀ index, Cites output index → rows[index]? = others[index]?

structure NonInterfering (rows others : List ExtractedField)
    (outputs : List Members) (produced produced' : List ExtractedField) :
    Prop where
  count : produced.length = outputs.length
  unreserved : ∀ row ∈ produced, ∀ sub ∈ rowsOf row, sub.name ∉ reservedKeys
  same : ∀ (index : Nat) (output : Members), outputs[index]? = some output →
    (∃ source < rows.length, Cites output source) →
    AgreeOnCited rows others output → produced[index]? = produced'[index]?

/-! ## Two runs -/

/-- The row that is found for an id depends on the row at its position only. -/
theorem find?_zipIdx_congr {rows others : List ExtractedField}
    (hlength : rows.length = others.length) (wanted : Nat → Bool) (start : Nat)
    (h : ∀ index, wanted (start + index) = true →
      rows[index]? = others[index]?) :
    ((rows.zipIdx start).find? fun entry => wanted entry.2).map Prod.fst =
      ((others.zipIdx start).find? fun entry => wanted entry.2).map
        Prod.fst := by
  induction rows generalizing others start with
  | nil =>
      obtain rfl : others = [] := List.length_eq_zero_iff.mp hlength.symm
      rfl
  | cons row rows ih =>
      obtain ⟨other, others, rfl⟩ := List.exists_cons_of_length_eq_add_one
        hlength.symm
      rw [List.zipIdx_cons, List.zipIdx_cons, List.find?_cons, List.find?_cons]
      by_cases hstart : wanted start = true
      · obtain rfl : row = other := by simpa using h 0 hstart
        simp [hstart]
      · simp only [hstart]
        refine ih (by simpa using hlength) (start + 1) fun index hindex => ?_
        have hnext := h (index + 1)
          (by rwa [Nat.add_assoc, Nat.add_comm 1] at hindex)
        simpa using hnext

theorem citedRows_congr {rows others : List ExtractedField}
    (hlength : rows.length = others.length) {output : Members}
    (hagree : AgreeOnCited rows others output) :
    citedRows rows output = citedRows others output := by
  unfold citedRows
  cases hids : citedIds output with
  | error raised => rfl
  | ok ids =>
      have hcited : ids.mapM (citedRow rows) = ids.mapM (citedRow others) := by
        refine mapM_congr_mem fun id hid => ?_
        cases id with
        | str string =>
            refine congrArg Except.ok ?_
            refine find?_zipIdx_congr hlength
              (fun index => decide (rowId index = string)) 0 fun index hindex => ?_
            rw [Nat.zero_add, decide_eq_true_eq] at hindex
            exact hagree index ⟨ids, hids, hindex ▸ hid⟩
        | _ => rfl
      simp only [bind, Except.bind, hcited]

theorem citedRows_ne_nil {rows : List ExtractedField} {output : Members}
    {cited : List ExtractedField} (h : citedRows rows output = .ok cited)
    (hcites : ∃ source < rows.length, Cites output source) : cited ≠ [] := by
  obtain ⟨source, hsource, ids, hids, hid⟩ := hcites
  simp only [citedRows, hids, bind_eq_ok_iff, Except.ok.injEq,
    exists_eq_left'] at h
  obtain ⟨found, hfound, h⟩ := h
  cases h
  obtain ⟨row, hrow, hread⟩ :=
    exists_of_forall₂ (mapM_eq_ok_iff.mp hfound).flip hid
  simp only [citedRow, Except.ok.injEq] at hread
  have hsome : (rows.zipIdx.find? fun entry =>
      decide ("r" ++ toString (entry.2 + 1) = rowId source)).isSome = true := by
    rw [List.find?_isSome]
    exact ⟨(rows[source], source), List.mem_zipIdx_iff_getElem?.mpr
      (List.getElem?_eq_getElem hsource), by simp [rowId]⟩
  obtain ⟨entry, hentry⟩ := Option.isSome_iff_exists.mp hsome
  have hcited : row = some entry.1 := by
    rw [← hread]
    exact congrArg (Option.map Prod.fst) hentry
  exact List.ne_nil_of_mem
    (List.mem_filterMap.mpr ⟨row, hrow, hcited⟩)

variable {text : TextRuntime}

theorem rebuildRow_congr {template template' : ExtractedField}
    {rows others : List ExtractedField} (hlength : rows.length = others.length)
    {outputs : List Members} {index : Nat} {output : Members}
    (hcites : ∃ source < rows.length, Cites output source)
    (hagree : AgreeOnCited rows others output) :
    rebuildRow text template rows outputs false index output =
      rebuildRow text template' others outputs false index output := by
  have hsame := citedRows_congr hlength hagree
  cases hcited : citedRows rows output with
  | error raised =>
      simp only [rebuildRow, contributorsOf, ← hsame, hcited, bind,
        Except.bind]
  | ok cited =>
      have hne := citedRows_ne_nil hcited hcites
      obtain ⟨first, rest, rfl⟩ := List.exists_cons_of_ne_nil hne
      have hcell : rebuildCell text (first :: rest) template =
          rebuildCell text (first :: rest) template' := rfl
      simp only [rebuildRow, contributorsOf, ← hsame, hcited, bind,
        Except.bind, ne_eq, reduceCtorEq, not_false_eq_true, if_true, pure,
        Except.pure, hcell, List.headD_cons, if_false, flagUngroundedRow,
        Bool.false_and, Bool.false_eq_true]

/-! ## One run -/

theorem citable_of_stringCitations {output : Members}
    (h : StringCitations output) : Citable (lookup sourceRowsKey output) := by
  unfold StringCitations at h
  split at h
  · rename_i hlookup
    rw [hlookup]
    trivial
  · rename_i hlookup
    rw [hlookup]
    trivial
  · rename_i hlookup
    rw [hlookup]
    trivial
  · rename_i ids hlookup
    rw [hlookup]
    intro id hid
    obtain ⟨string, rfl⟩ := h id hid
    trivial
  · cases h

theorem representable_of_isScalar {runtime : Runtime} {json : JsonValue}
    (h : IsScalar json) : Representable runtime json := by
  cases json with
  | arr items => cases h
  | obj members => cases h
  | _ => trivial

theorem exists_rebuildRows (text : TextRuntime) (template : ExtractedField)
    (rows : List ExtractedField) {outputs : List Members} (flag : Bool)
    (hscalar : ∀ output ∈ outputs, ∀ member ∈ data output, IsScalar member.2)
    (hstring : ∀ output ∈ outputs, StringCitations output) :
    ∃ produced, rebuildRows text template rows outputs flag = .ok produced :=
  rebuildRows_ok_iff.mpr fun output houtput =>
    ⟨citable_of_stringCitations (hstring output houtput), fun member hmember =>
      representable_of_isScalar (hscalar output houtput member hmember)⟩

theorem exists_rebuilt {template : ExtractedField}
    {rows produced : List ExtractedField} {outputs : List Members} {flag : Bool}
    (h : rebuildRows text template rows outputs flag = .ok produced)
    {index : Nat} {output : Members} (houtput : outputs[index]? = some output) :
    ∃ row, rebuildRow text template rows outputs flag index output = .ok row ∧
      produced[index]? = some row := by
  have hrows := mapM_eq_ok_iff.mp h
  have hlength := hrows.length_eq
  rw [List.length_zipIdx] at hlength
  obtain ⟨hindex, rfl⟩ := List.getElem?_eq_some_iff.mp houtput
  have hlt : index < produced.length := hlength ▸ hindex
  have hrow := hrows.get (by simpa using hindex) hlt
  exact ⟨produced[index], by simpa using hrow, List.getElem?_eq_getElem hlt⟩

theorem unreserved_of_rebuildRow {template row : ExtractedField}
    {rows : List ExtractedField} {outputs : List Members} {flag : Bool}
    {index : Nat} {output : Members}
    (h : rebuildRow text template rows outputs flag index output = .ok row) :
    ∀ sub ∈ rowsOf row, sub.name ∉ reservedKeys := by
  obtain ⟨cells, hvalue, hcells⟩ := rebuildRow_eq_ok h
  intro sub hsub
  rw [rowsOf, hvalue] at hsub
  obtain ⟨member, hmember, hname, -⟩ := exists_of_forall₂ hcells hsub
  rw [hname]
  simpa using (List.mem_filter.mp hmember).2

/--
Rows of an answer are rebuilt one for one and without the reserved keys, and
those that cite input rows come out the same for all rows that are not cited.
-/
theorem rebuildRows_nonInterfering (text : TextRuntime)
    (rows others : List ExtractedField) (hrows : rows ≠ [])
    (hothers : others ≠ []) (hlength : rows.length = others.length)
    (outputs : List Members)
    (hscalar : ∀ output ∈ outputs, ∀ member ∈ data output, IsScalar member.2)
    (hstring : ∀ output ∈ outputs, StringCitations output) :
    ∃ produced produced',
      rebuildRows text (rows.head hrows) rows outputs false = .ok produced ∧
      rebuildRows text (others.head hothers) others outputs false =
        .ok produced' ∧
      NonInterfering rows others outputs produced produced' := by
  obtain ⟨produced, hproduced⟩ :=
    exists_rebuildRows text (rows.head hrows) rows false hscalar hstring
  obtain ⟨produced', hproduced'⟩ :=
    exists_rebuildRows text (others.head hothers) others false hscalar hstring
  have hleft := mapM_eq_ok_iff.mp hproduced
  refine ⟨produced, produced', hproduced, hproduced', ?_, ?_, ?_⟩
  · rw [← hleft.length_eq, List.length_zipIdx]
  · intro row hrow
    obtain ⟨entry, -, hentry⟩ := exists_of_forall₂ hleft hrow
    exact unreserved_of_rebuildRow hentry
  · intro index output houtput hcites hagree
    obtain ⟨row, hrow, hget⟩ := exists_rebuilt hproduced houtput
    obtain ⟨row', hrow', hget'⟩ := exists_rebuilt hproduced' houtput
    rw [rebuildRow_congr hlength hcites hagree, hrow'] at hrow
    rw [hget, hget', Except.ok.inj hrow]

def citingAcme : Members :=
  [("name", .str "acme"), ("_source_rows", .arr [.str "r1"])]

theorem rebuildRows_nonInterfering_acme :
    ∃ produced produced',
      rebuildRows .ascii
          ([companyRow "acme", companyRow "beta"].head (List.cons_ne_nil _ _))
          [companyRow "acme", companyRow "beta"] [citingAcme] false =
        .ok produced ∧
      rebuildRows .ascii
          ([companyRow "acme", companyRow "gamma"].head (List.cons_ne_nil _ _))
          [companyRow "acme", companyRow "gamma"] [citingAcme] false =
        .ok produced' ∧
      NonInterfering [companyRow "acme", companyRow "beta"]
        [companyRow "acme", companyRow "gamma"] [citingAcme] produced
        produced' := by
  have hscalar : ∀ output ∈ [citingAcme], ∀ member ∈ data output,
      IsScalar member.2 := by
    have hdata : data citingAcme = [("name", .str "acme")] := by rfl
    simp [hdata, IsScalar]
  have hstring : ∀ output ∈ [citingAcme], StringCitations output := by
    simp [citingAcme, StringCitations, lookup, sourceRowsKey]
  exact rebuildRows_nonInterfering .ascii
    [companyRow "acme", companyRow "beta"]
    [companyRow "acme", companyRow "gamma"] (List.cons_ne_nil _ _)
    (List.cons_ne_nil _ _) rfl [citingAcme] hscalar hstring

end LlmTransformer

end Flydocs
