import Flydocs.Transformations.TransformationEngine

/-!
# When the LLM transformer raises

Its rows are serialised, cited, rebuilt and summed up outside of the handler of
the call.  `Builds` says of the rows and of the answer that none of this raises.
-/

namespace Flydocs

open Foundation Dtos Transformations JsonValue

namespace LlmTransformer

/-! ## Serialisation -/

/-- Of the sub-fields that reach the dictionary none is a nested list. -/
def Serialisable (includeProvenance : Bool) (row : ExtractedField) : Prop :=
  ∀ name sub, lookupLast ExtractedField.name (rowsOf row) name = some sub →
    name ≠ rowIdKey → (includeProvenance = true → name ≠ provenanceKey) →
    toJson sub.value ≠ none

def valueEntries (subs : List ExtractedField) :
    List (String × Option JsonValue) :=
  subs.foldl (fun entries sub => assign sub.name (toJson sub.value) entries) []

theorem nodup_valueEntries (subs : List ExtractedField) :
    ((valueEntries subs).map Prod.fst).Nodup := by
  induction subs using List.reverseRecOn with
  | nil => exact List.nodup_nil
  | append_singleton subs last ih =>
      rw [valueEntries, List.foldl_append]
      exact nodup_assign ih

theorem mem_valueEntries_iff {subs : List ExtractedField}
    {entry : String × Option JsonValue} :
    entry ∈ valueEntries subs ↔ ∃ sub,
      lookupLast ExtractedField.name subs entry.1 = some sub ∧
        entry.2 = toJson sub.value := by
  obtain ⟨name, value⟩ := entry
  induction subs using List.reverseRecOn with
  | nil => simp [valueEntries, lookupLast]
  | append_singleton subs last ih =>
      have hfold : valueEntries (subs ++ [last]) =
          assign last.name (toJson last.value) (valueEntries subs) := by
        rw [valueEntries, List.foldl_append]
        rfl
      rw [hfold, mem_assign_iff (nodup_valueEntries subs), ih,
        lookupLast_append_singleton]
      by_cases hname : last.name = name
      · subst hname
        simp
      · have hne : name ≠ last.name := Ne.symm hname
        simp [hname, hne]

theorem dumpRow_eq_ok_iff {entries : List (String × Option JsonValue)} :
    (∃ json, dumpRow entries = .ok json) ↔ ∀ entry ∈ entries, entry.2 ≠ none := by
  have hsome : (∃ members, entries.mapM (fun entry =>
      entry.2.map fun json => (entry.1, json)) = some members) ↔
      ∀ entry ∈ entries, entry.2 ≠ none := by
    induction entries with
    | nil => simp
    | cons entry entries ih =>
        simp only [List.mapM_cons, List.forall_mem_cons, ← ih]
        cases entry.2 with
        | none => simp
        | some json =>
            cases entries.mapM fun entry =>
              entry.2.map fun json => (entry.1, json) <;> simp
  rw [← hsome, dumpRow]
  split
  · rename_i members hmembers
    simp [hmembers]
  · rename_i hnone
    simp [hnone]

theorem rowEntries_ne_none_iff {includeProvenance : Bool} {index : Nat}
    {row : ExtractedField} :
    (∀ entry ∈ rowEntries includeProvenance index row, entry.2 ≠ none) ↔
      Serialisable includeProvenance row := by
  have hvalues := nodup_valueEntries (rowsOf row)
  have hidentified : ∀ entry, entry ∈ assign rowIdKey
      (some (JsonValue.str ("r" ++ toString (index + 1))))
        (valueEntries (rowsOf row)) ↔
      entry = (rowIdKey, some (.str ("r" ++ toString (index + 1)))) ∨
        entry ∈ valueEntries (rowsOf row) ∧ entry.1 ≠ rowIdKey :=
    fun entry => mem_assign_iff hvalues
  cases includeProvenance with
  | false =>
      have hentries : rowEntries false index row = assign rowIdKey
          (some (.str ("r" ++ toString (index + 1))))
            (valueEntries (rowsOf row)) := rfl
      simp only [hentries, hidentified, mem_valueEntries_iff]
      constructor
      · intro h name sub hsub hid _
        exact h (name, toJson sub.value) (.inr ⟨⟨sub, hsub, rfl⟩, hid⟩)
      · rintro h entry (rfl | ⟨⟨sub, hsub, hvalue⟩, hid⟩)
        · simp
        · rw [hvalue]
          exact h entry.1 sub hsub hid (by simp)
  | true =>
      have hentries : rowEntries true index row = assign provenanceKey
          (some (provenance row)) (assign rowIdKey
            (some (.str ("r" ++ toString (index + 1))))
              (valueEntries (rowsOf row))) := rfl
      have hmem : ∀ entry, entry ∈ rowEntries true index row ↔ _ :=
        fun entry => hentries ▸ mem_assign_iff (nodup_assign hvalues)
      simp only [hmem, hidentified, mem_valueEntries_iff]
      constructor
      · intro h name sub hsub hid hprovenance
        exact h (name, toJson sub.value)
          (.inr ⟨.inr ⟨⟨sub, hsub, rfl⟩, hid⟩, hprovenance rfl⟩)
      · rintro h entry (rfl | ⟨rfl | ⟨⟨sub, hsub, hvalue⟩, hid⟩, hprovenance⟩)
        · simp
        · simp
        · rw [hvalue]
          exact h entry.1 sub hsub hid fun _ => hprovenance

theorem serialiseRows_ok_iff {includeProvenance : Bool}
    {rows : List ExtractedField} :
    (∃ serialised, serialiseRows includeProvenance rows = .ok serialised) ↔
      ∀ row ∈ rows, Serialisable includeProvenance row := by
  rw [serialiseRows, exists_mapM_eq_ok_iff]
  simp only [List.forall_mem_map, dumpRow_eq_ok_iff, rowEntries_ne_none_iff]
  constructor
  · intro h row hrow
    obtain ⟨index, hindex⟩ := List.getElem?_of_mem hrow
    exact h (row, index) (List.mem_zipIdx_iff_getElem?.mpr hindex)
  · rintro h ⟨row, index⟩ hentry
    exact h row (List.fst_mem_of_mem_zipIdx hentry)

/-! ## Citations -/

def Hashable : JsonValue → Prop
  | .arr _ | .obj _ => False
  | _ => True

def Citable : Option JsonValue → Prop
  | some (.bool flag) => flag = false
  | some (.int number) => number = 0
  | some (.float number) => number = 0
  | some (.arr items) => ∀ item ∈ items, Hashable item
  | _ => True

theorem citedRow_ok_iff {rows : List ExtractedField} {json : JsonValue} :
    (∃ cited, citedRow rows json = .ok cited) ↔ Hashable json := by
  cases json <;> simp [citedRow, Hashable]

theorem citedRows_ok_iff {rows : List ExtractedField} {output : Members} :
    (∃ cited, citedRows rows output = .ok cited) ↔
      Citable (lookup sourceRowsKey output) := by
  have hcited : (∃ cited, citedRows rows output = .ok cited) ↔
      ∃ ids, citedIds output = .ok ids ∧ ∀ id ∈ ids, Hashable id := by
    have hmap : ∀ ids : List JsonValue,
        (∃ cited, ids.mapM (citedRow rows) = .ok cited) ↔
          ∀ id ∈ ids, Hashable id := by
      intro ids
      simp only [exists_mapM_eq_ok_iff, citedRow_ok_iff]
    simp only [citedRows, bind_eq_ok_iff]
    constructor
    · rintro ⟨_, ids, hids, cited, hcited, -⟩
      exact ⟨ids, hids, (hmap ids).mp ⟨cited, hcited⟩⟩
    · rintro ⟨ids, hids, hhashable⟩
      obtain ⟨cited, hcited⟩ := (hmap ids).mpr hhashable
      exact ⟨_, ids, hids, cited, hcited, rfl⟩
  rw [hcited, citedIds]
  cases lookup sourceRowsKey output with
  | none => simp [Citable]
  | some json =>
      cases json with
      | null => simp [Citable, Postprocess.elements, Schema.truthy]
      | bool flag =>
          cases flag <;> simp [Citable, Postprocess.elements, Schema.truthy]
      | int number =>
          by_cases h : number = 0 <;>
            simp [Citable, Postprocess.elements, Schema.truthy, h]
      | float number =>
          by_cases h : number = 0 <;>
            simp [Citable, Postprocess.elements, Schema.truthy, h]
      | str cited => by_cases h : cited = "" <;> simp [Citable, Hashable, h]
      | arr items =>
          cases items <;> simp [Citable, Postprocess.elements, Schema.truthy]
      | obj members =>
          have hkeys : ∀ id ∈ members.map (fun member => JsonValue.str member.1),
              Hashable id := by
            simp only [List.forall_mem_map]
            exact fun _ _ => trivial
          cases members with
          | nil => simp [Citable, Postprocess.elements, Schema.truthy]
          | cons first rest =>
              simp only [Postprocess.elements, Schema.truthy, List.isEmpty_cons,
                Bool.not_false, if_true, Except.ok.injEq, exists_eq_left',
                Citable, iff_true]
              exact hkeys

/-! ## Rebuilding -/

section

variable {text : TextRuntime}

def Representable (runtime : Runtime) : JsonValue → Prop
  | .arr items => runtime.fields items ≠ none
  | .obj _ => False
  | _ => True

theorem fieldValue_ok_iff {runtime : Runtime} {json : JsonValue} :
    (∃ value, Postprocess.fieldValue runtime json = .ok value) ↔
      Representable runtime json := by
  cases json with
  | arr items =>
      cases hfields : runtime.fields items <;>
        simp [Postprocess.fieldValue, Representable, hfields]
  | _ => simp [Postprocess.fieldValue, Representable]

theorem rebuildCell_eq_ok {contributors : List ExtractedField}
    {fallback cell : ExtractedField} {pages : List Int}
    {confidence : UnitInterval} {bbox : Option BoundingBox} {name : String}
    {json : JsonValue}
    (h : rebuildCell text contributors fallback pages confidence bbox name
      json = .ok cell) :
    cell.name = name ∧
      Postprocess.fieldValue text.toRuntime json = .ok cell.value := by
  simp only [rebuildCell, bind_eq_ok_iff] at h
  obtain ⟨value, hvalue, h⟩ := h
  cases hsource : provenanceSub contributors fallback name with
  | none =>
      simp only [hsource] at h
      cases h
      exact ⟨rfl, hvalue⟩
  | some source =>
      simp only [hsource] at h
      cases h
      exact ⟨rfl, hvalue⟩

theorem rebuildCell_ok_iff {contributors : List ExtractedField}
    {fallback : ExtractedField} {pages : List Int} {confidence : UnitInterval}
    {bbox : Option BoundingBox} {name : String} {json : JsonValue} :
    (∃ cell, rebuildCell text contributors fallback pages confidence bbox name
      json = .ok cell) ↔ Representable text.toRuntime json := by
  constructor
  · rintro ⟨cell, hcell⟩
    exact fieldValue_ok_iff.mp ⟨_, (rebuildCell_eq_ok hcell).2⟩
  · intro h
    obtain ⟨value, hvalue⟩ := fieldValue_ok_iff.mpr h
    simp only [rebuildCell, bind_eq_ok_iff]
    cases provenanceSub contributors fallback name with
    | none => exact ⟨_, value, hvalue, rfl⟩
    | some source => exact ⟨_, value, hvalue, rfl⟩

theorem contributorsOf_ok_iff {rows : List ExtractedField}
    {outputs : List Members} {index : Nat} {output : Members} :
    (∃ contributors, contributorsOf text rows outputs index output =
      .ok contributors) ↔ Citable (lookup sourceRowsKey output) := by
  rw [← @citedRows_ok_iff rows output]
  simp only [contributorsOf, bind_eq_ok_iff]
  constructor
  · rintro ⟨_, cited, hcited, -⟩
    exact ⟨cited, hcited⟩
  · rintro ⟨cited, hcited⟩
    refine exists_comm.mp ⟨cited, ?_⟩
    simp only [hcited, true_and]
    split
    · exact ⟨_, rfl⟩
    · split <;> exact ⟨_, rfl⟩

@[simp] theorem flagUngroundedRow_value (flag : Bool)
    (rows : List ExtractedField) (row : ExtractedField) :
    (flagUngroundedRow text flag rows row).value = row.value := by
  unfold flagUngroundedRow
  split <;> rfl

theorem rebuildRow_eq_ok {template row : ExtractedField}
    {rows : List ExtractedField} {outputs : List Members} {flag : Bool}
    {index : Nat} {output : Members}
    (h : rebuildRow text template rows outputs flag index output = .ok row) :
    ∃ cells, row.value = .list cells ∧
      List.Forall₂ (fun member cell => cell.name = member.1 ∧
        Postprocess.fieldValue text.toRuntime member.2 = .ok cell.value)
        (data output) cells := by
  simp only [rebuildRow, bind_eq_ok_iff] at h
  obtain ⟨contributors, -, cells, hcells, h⟩ := h
  cases h
  exact ⟨cells, by simp, (mapM_eq_ok_iff.mp hcells).imp
    fun _ _ hcell => rebuildCell_eq_ok hcell⟩

theorem rebuildRow_ok_iff {template : ExtractedField}
    {rows : List ExtractedField} {outputs : List Members} {flag : Bool}
    {index : Nat} {output : Members} :
    (∃ row, rebuildRow text template rows outputs flag index output = .ok row) ↔
      Citable (lookup sourceRowsKey output) ∧
        ∀ member ∈ data output, Representable text.toRuntime member.2 := by
  constructor
  · rintro ⟨row, h⟩
    simp only [rebuildRow, bind_eq_ok_iff] at h
    obtain ⟨contributors, hcontributors, cells, hcells, -⟩ := h
    refine ⟨contributorsOf_ok_iff.mp ⟨_, hcontributors⟩, ?_⟩
    intro member hmember
    exact rebuildCell_ok_iff.mp (exists_mapM_eq_ok_iff.mp ⟨_, hcells⟩ member
      hmember)
  · rintro ⟨hcitable, hdata⟩
    obtain ⟨contributors, hcontributors⟩ : ∃ contributors,
        contributorsOf text rows outputs index output = .ok contributors :=
      contributorsOf_ok_iff.mpr hcitable
    simp only [rebuildRow, bind_eq_ok_iff]
    refine exists_comm.mp ⟨contributors, ?_⟩
    obtain ⟨cells, hcells⟩ := exists_mapM_eq_ok_iff.mpr
      fun member hmember =>
        (@rebuildCell_ok_iff text contributors template _ _ _ _ _).mpr
          (hdata member hmember)
    exact ⟨_, hcontributors, cells, hcells, rfl⟩

/-! ## The invariant -/

/-- A share that is an integer fits into a float. -/
def Shareable (shareField : String) (output : Members) : Prop :=
  ∀ number, lookup shareField (data output) = some (.int number) →
    PythonNumber.floatOfInt number ≠ none

theorem shareValue_ok_iff {value : FieldValue} :
    (∃ share, shareValue text value = .ok share) ↔
      ∀ number, value = .int number →
        PythonNumber.floatOfInt number ≠ none := by
  cases value with
  | int number =>
      simp only [FieldValue.int.injEq, forall_eq', shareValue]
      cases PythonNumber.floatOfInt number <;> simp
  | _ => simp [shareValue]

theorem fieldValue_scalar_iff {runtime : Runtime} {json : JsonValue}
    {value : FieldValue} (h : Postprocess.fieldValue runtime json = .ok value) :
    (∀ number, value = .int number ↔ json = .int number) ∧
      ∀ string, value = .str string ↔ json = .str string := by
  cases json with
  | arr items =>
      cases hfields : runtime.fields items with
      | none => simp [Postprocess.fieldValue, hfields] at h
      | some fields =>
          simp only [Postprocess.fieldValue, hfields, Except.ok.injEq] at h
          simp [← h]
  | obj members => simp [Postprocess.fieldValue] at h
  | _ =>
      simp only [Postprocess.fieldValue, Except.ok.injEq] at h
      simp [← h]

theorem rowShare_ok_iff {row : ExtractedField} {cells : List ExtractedField}
    {members : Members} {shareField : String} (hvalue : row.value = .list cells)
    (hcells : List.Forall₂ (fun member cell => cell.name = member.1 ∧
      Postprocess.fieldValue text.toRuntime member.2 = .ok cell.value)
      members cells) :
    (∃ share, rowShare (.exact text) shareField row = .ok share) ↔
      ∀ number, lookup shareField members = some (.int number) →
        PythonNumber.floatOfInt number ≠ none := by
  have hrows : rowsOf row = cells := by simp [rowsOf, hvalue]
  rw [rowShare, hrows]
  clear hrows hvalue
  induction hcells with
  | nil => simp
  | @cons member cell members cells hcell _ ih =>
      obtain ⟨hname, hvalue⟩ := hcell
      obtain ⟨name, json⟩ := member
      simp only at hname hvalue
      by_cases hshare : name = shareField
      · have hfound : cell.name = shareField := hname.trans hshare
        simp only [List.find?_cons, hfound, decide_true, lookup_cons, hshare,
          if_true, Option.some.injEq, shareValue_ok_iff]
        refine forall_congr' fun number => ?_
        rw [(fieldValue_scalar_iff hvalue).1]
      · have hskipped : ¬ cell.name = shareField := hname ▸ hshare
        simp only [List.find?_cons, hskipped, decide_false, lookup_cons,
          hshare, if_false]
        exact ih

theorem sumShares_ok_iff {shares : ShareArithmetic} {shareField : String}
    {rows : List ExtractedField} :
    (∃ total, sumShares shares shareField rows = .ok total) ↔
      ∀ row ∈ rows, ∃ share, rowShare shares shareField row = .ok share := by
  rw [← exists_mapM_eq_ok_iff]
  simp only [sumShares, bind_eq_ok_iff]
  constructor
  · rintro ⟨_, values, hvalues, -⟩
    exact ⟨values, hvalues⟩
  · rintro ⟨values, hvalues⟩
    exact ⟨_, values, hvalues, rfl⟩

theorem exists_dropVictims {shares : ShareArithmetic} {shareField : String}
    (limit : shares.Share) (fuel : Nat) {rows : List ExtractedField}
    (h : ∀ row ∈ rows, ∃ share, rowShare shares shareField row = .ok share) :
    ∃ kept, dropVictims text shares shareField limit fuel rows = .ok kept := by
  induction fuel generalizing rows with
  | zero => exact ⟨rows, rfl⟩
  | succ fuel ih =>
      obtain ⟨total, htotal⟩ := sumShares_ok_iff.mpr h
      obtain ⟨kept, hkept⟩ : ∃ kept,
          dropVictims text shares shareField limit fuel
            (rows.eraseIdx (victimIndex text rows)) = .ok kept :=
        ih fun row hrow => h row (List.mem_of_mem_eraseIdx hrow)
      simp only [dropVictims, bind_eq_ok_iff]
      by_cases hover : shares.exceeds total limit ∧ 1 < rows.length
      · exact ⟨kept, total, htotal, by simp only [if_pos hover, hkept]⟩
      · exact ⟨rows, total, htotal, by simp only [if_neg hover]; rfl⟩

theorem enforceInvariant_ok_iff {shares : ShareArithmetic}
    {invariant : PartsOfWholeInvariant} {rows : List ExtractedField} :
    (∃ kept, enforceInvariant text shares invariant rows = .ok kept) ↔
      ∀ row ∈ rows, ∃ share,
        rowShare shares invariant.shareField row = .ok share := by
  simp only [enforceInvariant, bind_eq_ok_iff]
  constructor
  · rintro ⟨_, total, htotal, -⟩
    exact sumShares_ok_iff.mp ⟨total, htotal⟩
  · intro h
    obtain ⟨total, htotal⟩ := sumShares_ok_iff.mpr h
    obtain ⟨kept, hkept⟩ : ∃ kept, dropVictims text shares
        invariant.shareField (shares.limit invariant) rows.length rows =
          .ok kept :=
      exists_dropVictims _ _ h
    by_cases hfits : shares.within total (shares.limit invariant) = true
    · exact ⟨rows, total, htotal, by simp only [if_pos hfits]; rfl⟩
    · cases hviolation : invariant.onViolation with
      | repair => exact ⟨kept, total, htotal, by simp only [if_neg hfits, hkept]⟩
      | warn => exact ⟨rows, total, htotal, by simp only [if_neg hfits]; rfl⟩

/-! ## The whole transformation -/

/-- A row of the answer goes through every step after the call. -/
structure OutputBuilds (text : TextRuntime) (spec : LlmTransformation)
    (output : Members) : Prop where
  citable : Citable (lookup sourceRowsKey output)
  representable : ∀ member ∈ data output,
    Representable text.toRuntime member.2
  shareable : ∀ invariant, spec.invariant = some invariant →
    Shareable invariant.shareField output

theorem rebuildRows_ok_iff {template : ExtractedField}
    {rows : List ExtractedField} {outputs : List Members} {flag : Bool} :
    (∃ produced, rebuildRows text template rows outputs flag = .ok produced) ↔
      ∀ output ∈ outputs, Citable (lookup sourceRowsKey output) ∧
        ∀ member ∈ data output, Representable text.toRuntime member.2 := by
  rw [rebuildRows, exists_mapM_eq_ok_iff]
  simp only [rebuildRow_ok_iff]
  constructor
  · intro h output houtput
    obtain ⟨index, hindex⟩ := List.getElem?_of_mem houtput
    exact h (output, index) (List.mem_zipIdx_iff_getElem?.mpr hindex)
  · rintro h ⟨output, index⟩ hentry
    exact h output (List.fst_mem_of_mem_zipIdx hentry)

theorem rowShare_rebuilt {template : ExtractedField}
    {rows produced : List ExtractedField} {outputs : List Members}
    {flag : Bool} {shareField : String}
    (h : rebuildRows text template rows outputs flag = .ok produced) :
    (∀ row ∈ produced, ∃ share,
        rowShare (.exact text) shareField row = .ok share) ↔
      ∀ output ∈ outputs, Shareable shareField output := by
  have hrows := mapM_eq_ok_iff.mp h
  have hlength := hrows.length_eq
  rw [List.length_zipIdx] at hlength
  have hshare : ∀ index (hindex : index < outputs.length)
      (hlt : index < produced.length),
      (∃ share,
        rowShare (.exact text) shareField produced[index] = .ok share) ↔
        Shareable shareField outputs[index] := by
    intro index hindex hlt
    have hrow := hrows.get (by simpa using hindex) hlt
    simp only [List.get_eq_getElem, List.getElem_zipIdx] at hrow
    obtain ⟨cells, hvalue, hcells⟩ := rebuildRow_eq_ok hrow
    exact rowShare_ok_iff hvalue hcells
  constructor
  · intro hproduced output houtput
    obtain ⟨index, hindex, rfl⟩ := List.getElem_of_mem houtput
    have hlt : index < produced.length := by omega
    exact (hshare index hindex hlt).mp
      (hproduced _ (List.getElem_mem hlt))
  · intro houtputs row hrow
    obtain ⟨index, hlt, rfl⟩ := List.getElem_of_mem hrow
    have hindex : index < outputs.length := by omega
    exact (hshare index hindex hlt).mpr
      (houtputs _ (List.getElem_mem hindex))

theorem producedRows_ok_iff {spec : LlmTransformation}
    {template : ExtractedField} {rows : List ExtractedField}
    {outputs : List Members} :
    (∃ produced, producedRows text spec template rows outputs = .ok produced) ↔
      ∀ output ∈ outputs, OutputBuilds text spec output := by
  simp only [producedRows, bind_eq_ok_iff]
  constructor
  · rintro ⟨kept, produced, hproduced, hkept⟩ output houtput
    obtain ⟨hcitable, hdata⟩ :=
      rebuildRows_ok_iff.mp ⟨produced, hproduced⟩ output houtput
    refine ⟨hcitable, hdata, ?_⟩
    intro invariant hinvariant
    simp only [hinvariant] at hkept
    exact (rowShare_rebuilt hproduced).mp
      (enforceInvariant_ok_iff.mp ⟨kept, hkept⟩) output houtput
  · intro h
    obtain ⟨produced, hproduced⟩ : ∃ produced, rebuildRows text template rows
        outputs spec.invariant.isSome = .ok produced :=
      rebuildRows_ok_iff.mpr fun output houtput =>
        ⟨(h output houtput).citable, (h output houtput).representable⟩
    refine exists_comm.mp ⟨produced, ?_⟩
    simp only [hproduced, true_and]
    cases hinvariant : spec.invariant with
    | none => exact ⟨produced, rfl⟩
    | some invariant =>
        refine enforceInvariant_ok_iff.mpr ((rowShare_rebuilt hproduced).mpr ?_)
        intro output houtput
        exact (h output houtput).shareable invariant hinvariant

end

structure Builds {Raised : Type} (self : LlmTransformer Raised)
    (text : TextRuntime) (spec : LlmTransformation) (answer : Answer Raised)
    (rows : List ExtractedField) : Prop where
  serialisable : ∀ row ∈ rows, Serialisable spec.includeProvenance row
  agent : ∀ serialised,
    serialiseRows spec.includeProvenance rows = .ok serialised →
    self.buildAgent self.model
      (self.template spec.intention spec.targetGroup serialised).system = .ok ()
  outputs : ∀ serialised json outputs,
    serialiseRows spec.includeProvenance rows = .ok serialised →
    answer (self.template spec.intention spec.targetGroup serialised) =
      .ok json →
    transformOutput json = some outputs →
    ∀ output ∈ outputs, OutputBuilds text spec output

section

variable {Raised : Type} {self : LlmTransformer Raised} {text : TextRuntime}

theorem liftError_eq_ok_iff {Value : Type} {outcome : Except PyError Value}
    {value : Value} :
    self.liftError outcome = .ok value ↔ outcome = .ok value := by
  cases outcome <;> simp [liftError]

theorem transform_ok_iff {spec : LlmTransformation} {answer : Answer Raised}
    {rows : List ExtractedField} (hne : rows ≠ []) :
    (∃ produced, self.transform text spec answer rows = .ok produced) ↔
      Builds self text spec answer rows := by
  obtain ⟨template, rest, rfl⟩ := List.exists_cons_of_ne_nil hne
  simp only [transform, bind_eq_ok_iff, liftError_eq_ok_iff]
  constructor
  · rintro ⟨produced, serialised, hserialised, ⟨⟩, hagent, h⟩
    have hunique : ∀ other, serialiseRows spec.includeProvenance
        (template :: rest) = .ok other → other = serialised := by
      intro other hother
      exact Except.ok.inj (hother.symm.trans hserialised)
    refine ⟨serialiseRows_ok_iff.mp ⟨_, hserialised⟩, ?_, ?_⟩
    · intro other hother
      rw [hunique other hother]
      exact hagent
    · intro other json outputs hother hanswer houtputs
      rw [hunique other hother] at hanswer
      simp only [hanswer, houtputs, bind_eq_ok_iff, liftError_eq_ok_iff] at h
      obtain ⟨rows, hrows, -⟩ := h
      exact producedRows_ok_iff.mp ⟨rows, hrows⟩
  · rintro ⟨hserialisable, hagent, houtputs⟩
    obtain ⟨serialised, hserialised⟩ := serialiseRows_ok_iff.mpr hserialisable
    refine exists_comm.mp ⟨serialised, ?_⟩
    simp only [hserialised, true_and]
    refine exists_comm.mp ⟨(), ?_⟩
    simp only [hagent serialised hserialised, true_and]
    cases hanswer : answer
        (self.template spec.intention spec.targetGroup serialised) with
    | error raised => exact ⟨none, rfl⟩
    | ok json =>
        cases hjson : transformOutput json with
        | none => exact ⟨none, by simp only [hjson]; rfl⟩
        | some outputs =>
            obtain ⟨produced, hproduced⟩ := producedRows_ok_iff.mpr
              (houtputs serialised json outputs hserialised hanswer hjson)
            refine ⟨some produced, ?_⟩
            simp only [hjson, bind_eq_ok_iff, liftError_eq_ok_iff]
            exact ⟨produced, hproduced, rfl⟩

end

end LlmTransformer

end Flydocs
