import Mathlib.Algebra.Order.Field.Basic
import Mathlib.Tactic.Positivity
import Flydocs.Escalation.Outcome
import Flydocs.Extraction.FreshGroups

/-!
# Counting the second run

The fields of the second run with the answers of the second judge, and what the
counters of the escalator make of them.
-/

namespace Flydocs

open Foundation Dtos

/-- The groups of a task are none, or have the declared fields of its type. -/
structure ExtractedSession extends EscalationSession where
  extracted : ∀ task ∈ tasks,
    ObjectStore.read store task.extractedGroups = [] ∨
      task.sliceBytes ≠ [] ∧
        fieldCounts (ObjectStore.read store task.extractedGroups) =
          declaredCounts task.docSpec

namespace JudgeEscalator

variable {Raised : Type} (self : JudgeEscalator Raised)
  (request : Dtos.ExtractionRequest) (model : String)
  (session : EscalationSession)

/-! ## What the judges saw -/

/-- The judge gives every verdict an evidence; the default one has none. -/
def isJudged (outcome : JudgeOutcome) : Bool := outcome.evidence.isSome

def primaryFields (session : EscalationSession) : List ExtractedField :=
  session.tasks.flatMap fun task => fieldsOf (session.groups task)

def firstJudged (session : EscalationSession) : Nat :=
  (primaryFields session).countP fun field => isJudged field.judge

def firstFailing (session : EscalationSession) : Nat :=
  (primaryFields session).countP fun field =>
    isJudged field.judge && isFailing field.judge

abbrev Mark := ExtractedField × Option RawJudgeField

def groupMarks (output : Option JudgeOutput) (group : ExtractedFieldGroup) :
    List Mark :=
  group.fields.map fun field =>
    (field, output.bind fun output => Judge.rawFor output group field)

def marks (task : EscalationTask) (primary : List ExtractedFieldGroup) :
    List Mark :=
  let groups := self.candidateGroups request model task primary
  groups.flatMap (groupMarks (self.verdicts request model task groups))

def secondMarks : List Mark :=
  session.tasks.flatMap fun task =>
    self.marks request model task (session.groups task)

def isAnswered (mark : Mark) : Bool := mark.2.isSome

def answerFails (mark : Mark) : Bool :=
  mark.2.any fun raw => isFailing raw.outcome

def keptFails (mark : Mark) : Bool :=
  mark.2.isNone && isFailing mark.1.judge

def answered : Nat :=
  (self.secondMarks request model session).countP isAnswered

def failingAnswers : Nat :=
  (self.secondMarks request model session).countP answerFails

def keptFailing : Nat :=
  (self.secondMarks request model session).countP keptFails

/-! ## Counting the second run -/

def afterAnswer (mark : Mark) : ExtractedField :=
  match mark.2 with
  | some raw => Judge.applyRaw raw mark.1
  | none => mark.1

section

variable {self request model session}

theorem fieldsOf_judged {task : EscalationTask}
    {groups : List ExtractedFieldGroup} :
    fieldsOf (self.judged request model task groups) =
      (groups.flatMap (groupMarks (self.verdicts request model task groups))).map
        afterAnswer := by
  unfold judged fieldsOf
  rw [List.map_flatMap]
  cases self.verdicts request model task groups with
  | none =>
      apply List.flatMap_congr
      intro group _
      simp [groupMarks, afterAnswer, Function.comp_def]
  | some output =>
      rw [List.flatMap_map]
      apply List.flatMap_congr
      intro group _
      simp only [Judge.applyGroup, groupMarks, List.map_map]
      apply List.map_congr_left
      intro field _
      cases hraw : Judge.rawFor output group field <;>
        simp [Judge.applyField, afterAnswer, hraw]

theorem fieldsOf_judgedCandidate {task : EscalationTask}
    {primary : List ExtractedFieldGroup} :
    fieldsOf (self.judgedCandidate request model task primary) =
      (self.marks request model task primary).map afterAnswer := by
  exact fieldsOf_judged

theorem length_marks {task : EscalationTask}
    {primary : List ExtractedFieldGroup} :
    (self.marks request model task primary).length =
      (fieldsOf (self.candidateGroups request model task primary)).length := by
  simp [marks, groupMarks, fieldsOf]

theorem length_fieldsOf_judgedCandidate {task : EscalationTask}
    {primary : List ExtractedFieldGroup} :
    (fieldsOf (self.judgedCandidate request model task primary)).length =
      (fieldsOf (self.candidateGroups request model task primary)).length := by
  rw [fieldsOf_judgedCandidate, List.length_map, length_marks]

theorem isFailing_afterAnswer (mark : Mark) :
    isFailing (afterAnswer mark).judge = (answerFails mark || keptFails mark) := by
  obtain ⟨field, raw⟩ := mark
  cases raw with
  | none => simp [afterAnswer, answerFails, keptFails]
  | some raw => simp [afterAnswer, answerFails, keptFails, Judge.judge_applyRaw]

theorem countP_isFailing (list : List Mark) :
    list.countP (fun mark => isFailing (afterAnswer mark).judge) =
      list.countP answerFails + list.countP keptFails := by
  induction list with
  | nil => rfl
  | cons mark list ih =>
      simp only [List.countP_cons, isFailing_afterAnswer] at ih ⊢
      rw [ih]
      obtain ⟨field, raw⟩ := mark
      cases raw with
      | none =>
          cases hfails : isFailing field.judge <;>
            simp [answerFails, keptFails, hfails]
          omega
      | some raw =>
          cases hfails : isFailing raw.outcome <;>
            simp [answerFails, keptFails, hfails]
          omega

/-- The counter of the second run: failing answers, and the failing fields that
were left as they are. -/
theorem secondFailures_eq :
    self.secondFailures request session model =
      self.failingAnswers request model session +
        self.keptFailing request model session := by
  have hfields : (session.tasks.map fun task =>
      self.judgedCandidate request model task (session.groups task)).flatMap
        fieldsOf =
      (self.secondMarks request model session).map afterAnswer := by
    rw [List.flatMap_map, secondMarks, List.map_flatMap]
    simp only [fieldsOf_judgedCandidate]
  unfold secondFailures countFailures
  simp only [hfields, List.countP_map]
  exact countP_isFailing _

/-! ## Candidates -/

theorem fresh_of_reExtract {task : EscalationTask}
    {groups : List ExtractedFieldGroup}
    (h : self.reExtract request model task = .extracted groups) :
    Fresh task.docSpec groups := by
  unfold reExtract at h
  split at h
  · cases h
  · split at h
    · rename_i result used hresult
      cases h
      exact MultimodalExtractor.fresh_of_extract hresult
    · cases h

/-- Only a failed extraction leaves verdicts of the first judge behind. -/
theorem keptFails_of_not_failed {task : EscalationTask}
    {primary : List ExtractedFieldGroup}
    (h : self.reExtract request model task ≠ .failed) {mark : Mark}
    (hmark : mark ∈ self.marks request model task primary) :
    keptFails mark = false := by
  have hunjudged : ∀ group ∈ self.candidateGroups request model task primary,
      ∀ field ∈ group.fields, field.judge = {} := by
    unfold candidateGroups
    cases hextract : self.reExtract request model task with
    | skipped => simp
    | extracted groups => exact (fresh_of_reExtract hextract).unjudged
    | failed => exact absurd hextract h
  simp only [marks, List.mem_flatMap, groupMarks, List.mem_map] at hmark
  obtain ⟨group, hgroup, field, hfield, rfl⟩ := hmark
  simp [keptFails, hunjudged group hgroup field hfield, isFailing]

theorem length_fieldsOf (groups : List ExtractedFieldGroup) :
    (fieldsOf groups).length = (fieldCounts groups).sum := by
  unfold fieldsOf fieldCounts
  rw [List.length_flatMap]

theorem length_candidateGroups {session : ExtractedSession}
    {task : EscalationTask} (htask : task ∈ session.tasks) :
    (fieldsOf (session.groups task)).length ≤
      (fieldsOf (self.candidateGroups request model task
        (session.groups task))).length := by
  have hextracted := session.extracted task htask
  unfold candidateGroups
  cases hextract : self.reExtract request model task with
  | skipped =>
      obtain hnone | ⟨hbytes, -⟩ := hextracted
      · simp [EscalationSession.groups, hnone, fieldsOf]
      · unfold reExtract at hextract
        rw [if_neg hbytes] at hextract
        split at hextract <;> cases hextract
  | extracted groups =>
      obtain hnone | ⟨-, hcounts⟩ := hextracted
      · simp [EscalationSession.groups, hnone, fieldsOf]
      · rw [length_fieldsOf, length_fieldsOf, EscalationSession.groups, hcounts,
          (fresh_of_reExtract hextract).counts]
  | failed => exact le_refl _

/-! ## The audit block -/

theorem rate_mem_iff {count total : Nat} (h : 0 < total) :
    (0 ≤ (count / total : Rat) ∧ (count / total : Rat) ≤ 1) ↔
      count ≤ total := by
  have htotal : (0 : Rat) < total := by exact_mod_cast h
  rw [div_le_one htotal]
  constructor
  · rintro ⟨-, hle⟩
    exact_mod_cast hle
  · intro hle
    exact ⟨by positivity, by exact_mod_cast hle⟩

def audit (primaryModel model : String) (primaryFail newFail total : Nat) :
    Interfaces.EscalationInfo where
  triggered := true
  primaryModel := some primaryModel
  escalationModel := some model
  primaryFailRate := (primaryFail / total : Rat)
  escalationFailRate := (newFail / total : Rat)
  accepted := decide (newFail < primaryFail)

theorem escalationInfo_eq {primaryModel : String}
    {primaryFail newFail total : Nat} (htotal : 0 < total)
    (hprimary : primaryFail ≤ total) :
    escalationInfo primaryModel model primaryFail newFail total =
      if newFail ≤ total then
        .ok (audit primaryModel model primaryFail newFail total)
      else .error .validationError := by
  simp only [escalationInfo, rate_mem_iff htotal, hprimary, true_and]
  rfl

theorem primaryCounts_le (session : EscalationSession) :
    (primaryCounts session).1 ≤ (primaryCounts session).2 := by
  unfold primaryCounts countFailures
  exact List.countP_le_length

theorem primaryCounts_snd (session : EscalationSession) :
    (primaryCounts session).2 = (primaryFields session).length := by
  unfold primaryCounts countFailures primaryFields
  rw [List.flatMap_map]

theorem total_pos_of_fires {primaryModel : String}
    (h : self.firesWith request primaryModel session = some model) :
    0 < (primaryCounts session).2 := by
  by_contra hzero
  have hnone : (primaryCounts session).2 = 0 := by omega
  unfold firesWith escalationModel at h
  split at h
  · cases h
  · split at h
    · cases h
    · cases h
    · simp at h

/-! ## Rates over what was judged -/

theorem firstFailing_le (session : EscalationSession) :
    firstFailing session ≤ firstJudged session := by
  apply List.countP_mono_left
  intro field _ h
  rw [Bool.and_eq_true] at h
  exact h.1

/-- A rate is lower, and one of judged fields at all, as the products say. -/
theorem rate_lt_iff {failing judged fail total : Nat} (h : fail ≤ total) :
    (0 < judged ∧ (failing / judged : Rat) < fail / total) ↔
      failing * total < fail * judged := by
  by_cases htotal : total = 0
  · subst htotal
    have hfail : fail = 0 := by omega
    subst hfail
    simp only [Nat.cast_zero, div_zero, Nat.mul_zero, Nat.zero_mul,
      Nat.lt_irrefl, iff_false, not_and, not_lt]
    intro _
    positivity
  · have hpos : (0 : Rat) < total := by
      exact_mod_cast Nat.pos_of_ne_zero htotal
    constructor
    · rintro ⟨hjudged, hlt⟩
      have hpos' : (0 : Rat) < judged := by exact_mod_cast hjudged
      rw [div_lt_div_iff₀ hpos' hpos] at hlt
      exact_mod_cast hlt
    · intro hlt
      have hjudged : 0 < judged := by
        by_contra hzero
        have : judged = 0 := by omega
        simp [this] at hlt
      have hpos' : (0 : Rat) < judged := by exact_mod_cast hjudged
      refine ⟨hjudged, ?_⟩
      rw [div_lt_div_iff₀ hpos' hpos]
      exact_mod_cast hlt

end

end JudgeEscalator

end Flydocs
