import Flydocs.Escalation.Judge

/-!
# Verdicts on the rows of an array

The judge's answer names the sub-fields of an array once, not once for every
row.  So the verdicts that it can stamp are those in which the rows agree.
-/

namespace Flydocs

open Foundation Dtos

namespace Judge

/-! ## Assignments of verdicts -/

structure Verdict where
  status : JudgeStatus
  confidence : UnitInterval := 0
  evidence : String := ""
  notes : String := ""
  flagForReview : Bool := false

def Verdict.outcome (verdict : Verdict) : JudgeOutcome where
  status := verdict.status
  confidence := verdict.confidence
  evidence := some verdict.evidence
  notes := some verdict.notes
  flagForReview := verdict.flagForReview

theorem Verdict.outcome_injective : Function.Injective Verdict.outcome := by
  intro first second h
  cases first
  cases second
  simpa [Verdict.outcome] using h

abbrev Assignment := Nat → Nat → Verdict

def cellAt (field : ExtractedField) (row column : Nat) :
    Option ExtractedField :=
  field.items[row]?.bind fun row => row.items[column]?

def Stamped (field : ExtractedField) (assignment : Assignment) : Prop :=
  ∀ row column cell, cellAt field row column = some cell →
    cell.judge = (assignment row column).outcome

def Expressible (group : ExtractedFieldGroup) (field : ExtractedField)
    (assignment : Assignment) : Prop :=
  ∃ output, Stamped (applyField output group field) assignment

def Carried (field : ExtractedField) (assignment : Assignment)
    (name : String) : Prop :=
  ∀ row column cell, cellAt field row column = some cell → cell.name = name →
    cell.judge = (assignment row column).outcome

def Uniform (field : ExtractedField) (assignment : Assignment)
    (name : String) : Prop :=
  ∃ verdict, ∀ row column cell, cellAt field row column = some cell →
    cell.name = name → assignment row column = verdict

/-! ## What is stamped -/

def applyCell (items : List RawJudgeField) (cell : ExtractedField) :
    ExtractedField :=
  match lookupLast RawJudgeField.name items cell.name with
  | some raw => applyRaw raw cell
  | none => cell

theorem applyCells_eq_map (items : List RawJudgeField)
    (cells : List ExtractedField) :
    applyCells items cells = cells.map (applyCell items) := by
  induction cells with
  | nil => rfl
  | cons cell cells ih =>
      rw [applyCells, ih]
      rfl

theorem applyRows_eq_map (items : List RawJudgeField)
    (rows : List ExtractedField) :
    applyRows items rows = rows.map (applyRow items) := by
  induction rows with
  | nil => rfl
  | cons row rows ih =>
      rw [applyRows, ih]
      rfl

theorem items_applyRow (items : List RawJudgeField) (row : ExtractedField) :
    (applyRow items row).items = row.items.map (applyCell items) := by
  obtain ⟨name, value, pages, confidence, bbox, validation, judge, notes,
    source⟩ := row
  cases value with
  | list cells => exact applyCells_eq_map items cells
  | _ => rfl

theorem items_applyRaw (raw : RawJudgeField) (field : ExtractedField) :
    (applyRaw raw field).items =
      field.items.map (applyRow (raw.items.getD [])) := by
  obtain ⟨name, value, pages, confidence, bbox, validation, judge, notes,
    source⟩ := field
  cases value with
  | list rows => exact applyRows_eq_map _ rows
  | _ => rfl

theorem cellAt_applyRaw (raw : RawJudgeField) (field : ExtractedField)
    (row column : Nat) :
    cellAt (applyRaw raw field) row column =
      (cellAt field row column).map (applyCell (raw.items.getD [])) := by
  unfold cellAt
  rw [items_applyRaw, List.getElem?_map]
  cases field.items[row]? with
  | none => rfl
  | some found => simp [items_applyRow]

theorem stamped_applyRaw_iff {raw : RawJudgeField} {field : ExtractedField}
    {assignment : Assignment} :
    Stamped (applyRaw raw field) assignment ↔
      ∀ row column cell, cellAt field row column = some cell →
        (match lookupLast RawJudgeField.name (raw.items.getD []) cell.name with
          | some item => item.outcome
          | none => cell.judge) = (assignment row column).outcome := by
  have hjudge : ∀ cell, (applyCell (raw.items.getD []) cell).judge =
      match lookupLast RawJudgeField.name (raw.items.getD []) cell.name with
      | some item => item.outcome
      | none => cell.judge := by
    intro cell
    unfold applyCell
    split
    · exact judge_applyRaw _ cell
    · rfl
  unfold Stamped
  simp only [cellAt_applyRaw, Option.map_eq_some_iff]
  constructor
  · intro h row column cell hcell
    rw [← hjudge]
    exact h row column _ ⟨cell, hcell, rfl⟩
  · rintro h row column _ ⟨cell, hcell, rfl⟩
    rw [hjudge]
    exact h row column cell hcell

theorem carried_or_uniform {field : ExtractedField} {assignment : Assignment}
    {raw : RawJudgeField} (h : Stamped (applyRaw raw field) assignment)
    (name : String) :
    Carried field assignment name ∨ Uniform field assignment name := by
  rw [stamped_applyRaw_iff] at h
  cases hitem : lookupLast RawJudgeField.name (raw.items.getD []) name with
  | none =>
      left
      rintro row column cell hcell rfl
      simpa [hitem] using h row column cell hcell
  | some item =>
      right
      refine ⟨⟨item.status, item.confidence, item.evidence, item.notes,
        item.flagForReview⟩, ?_⟩
      rintro row column cell hcell rfl
      apply Verdict.outcome_injective
      have hstamp := h row column cell hcell
      rw [hitem] at hstamp
      exact hstamp.symm

theorem carried_or_uniform_of_expressible {group : ExtractedFieldGroup}
    {field : ExtractedField} {assignment : Assignment}
    (h : Expressible group field assignment) (name : String) :
    Carried field assignment name ∨ Uniform field assignment name := by
  obtain ⟨output, hstamped⟩ := h
  unfold applyField at hstamped
  split at hstamped
  · exact carried_or_uniform hstamped name
  · left
    intro row column cell hcell _
    exact hstamped row column cell hcell

/-! ## What can be expressed -/

def cellNames (field : ExtractedField) : List String :=
  field.items.flatMap fun row => row.items.map ExtractedField.name

theorem name_mem_cellNames {field cell : ExtractedField} {row column : Nat}
    (h : cellAt field row column = some cell) :
    cell.name ∈ cellNames field := by
  obtain ⟨found, hfound, hcell⟩ := Option.bind_eq_some_iff.mp h
  exact List.mem_flatMap.mpr ⟨found, List.mem_of_getElem? hfound,
    List.mem_map.mpr ⟨cell, List.mem_of_getElem? hcell, rfl⟩⟩

def Verdict.raw (verdict : Verdict) (name : String) : RawJudgeField where
  name := name
  status := verdict.status
  confidence := verdict.confidence
  evidence := verdict.evidence
  notes := verdict.notes
  flagForReview := verdict.flagForReview

def answerWith (group : ExtractedFieldGroup) (field : ExtractedField)
    (verdict : String → Verdict) (names : List String) : JudgeOutput :=
  [{ name := group.name
     fields :=
      [{ name := field.name
         items := some (names.map fun name => (verdict name).raw name) }] }]

theorem stamped_answerWith_iff {group : ExtractedFieldGroup}
    {field : ExtractedField} {verdict : String → Verdict} {names : List String}
    {assignment : Assignment} :
    Stamped (applyField (answerWith group field verdict names) group field)
        assignment ↔
      ∀ row column cell, cellAt field row column = some cell →
        (if cell.name ∈ names then (verdict cell.name).outcome
        else cell.judge) = (assignment row column).outcome := by
  have hraw : rawFor (answerWith group field verdict names) group field =
      some { name := field.name
             items := some (names.map fun name => (verdict name).raw name) } := by
    simp [rawFor, answerWith, lookupLast]
  rw [applyField, hraw, stamped_applyRaw_iff]
  refine forall₄_congr fun row column cell _ => ?_
  rw [Option.getD_some, lookupLast_map fun _ => rfl]
  by_cases hmem : cell.name ∈ names
  · simp only [if_pos hmem]
    rfl
  · simp only [if_neg hmem]

theorem exists_verdicts {field : ExtractedField} {assignment : Assignment}
    (h : ∀ name, Carried field assignment name ∨
      Uniform field assignment name) :
    ∃ verdict : String → Verdict, ∀ name, ¬ Carried field assignment name →
      ∀ row column cell, cellAt field row column = some cell →
        cell.name = name → assignment row column = verdict name := by
  have heach : ∀ name, ∃ verdict, ¬ Carried field assignment name →
      ∀ row column cell, cellAt field row column = some cell →
        cell.name = name → assignment row column = verdict := by
    intro name
    rcases h name with hcarried | ⟨verdict, huniform⟩
    · exact ⟨⟨.uncertain, 0, "", "", false⟩, fun hnot => absurd hcarried hnot⟩
    · exact ⟨verdict, fun _ => huniform⟩
  choose verdict hverdict using heach
  exact ⟨verdict, hverdict⟩

/--
The judge can stamp an assignment exactly when, name by name, either all rows
are assigned one verdict or the sub-fields already carry what they are assigned.
-/
theorem expressible_iff (group : ExtractedFieldGroup) (field : ExtractedField)
    (assignment : Assignment) :
    Expressible group field assignment ↔ ∀ name,
      Carried field assignment name ∨ Uniform field assignment name := by
  constructor
  · exact carried_or_uniform_of_expressible
  · intro h
    classical
    obtain ⟨verdict, hverdict⟩ := exists_verdicts h
    -- One item for every name that is not carried yet.
    refine ⟨answerWith group field verdict ((cellNames field).filter
      fun name => ¬ Carried field assignment name), ?_⟩
    rw [stamped_answerWith_iff]
    intro row column cell hcell
    have hmem := name_mem_cellNames hcell
    by_cases hcarried : Carried field assignment cell.name
    · rw [if_neg (by simp [hcarried])]
      exact hcarried row column cell hcell rfl
    · rw [if_pos (by simp [hcarried, hmem]),
        hverdict cell.name hcarried row column cell hcell rfl]

/-! ## Two rows that differ -/

def netLines : ExtractedField where
  name := "lines"
  value := .list
    [{ name := "row_1", value := .list [{ name := "net", value := .int 10 }] },
      { name := "row_2", value := .list [{ name := "net", value := .int 12 }] }]

def netFailsOnce : Assignment
  | 0, _ => { status := .fail, evidence := "10.50" }
  | _, _ => { status := .pass, evidence := "12" }

theorem not_expressible :
    ¬ ∀ (group : ExtractedFieldGroup) (field : ExtractedField)
      (assignment : Assignment), Expressible group field assignment := by
  intro h
  have hexpressible := h { name := "invoice", fields := [netLines] } netLines
    netFailsOnce
  rcases carried_or_uniform_of_expressible hexpressible "net" with
    hcarried | ⟨verdict, huniform⟩
  · have hfirst := hcarried 0 0 { name := "net", value := .int 10 } rfl rfl
    cases hfirst
  · have hfirst := huniform 0 0 { name := "net", value := .int 10 } rfl rfl
    have hsecond := huniform 1 0 { name := "net", value := .int 12 } rfl rfl
    have hsame := hfirst.trans hsecond.symm
    have hstatus := congrArg Verdict.status hsame
    simp [netFailsOnce] at hstatus

end Judge

end Flydocs
