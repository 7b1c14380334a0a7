import Flydocs.Escalation.Outcome

/-!
# Rejected escalations

An escalation that is not accepted is meant to leave the groups of the tasks
alone.  They change where a second extraction failed and the second judge
answered nevertheless.
-/

namespace Flydocs

open Foundation Dtos EscalationSession

namespace JudgeEscalationStep

variable {Raised : Type} (self : JudgeEscalationStep Raised)
  (request : Dtos.ExtractionRequest) (primaryModel : String)
  (session : EscalationSession)

def KeepsGroups (session : EscalationSession) (outcome : Outcome) : Prop :=
  groupsOf outcome.store outcome.tasks = groupsOf session.store session.tasks

/-- The second judge's answer to the groups of a task, if any, repeats the
verdicts that they carry. -/
def RepeatsVerdicts (escalator : JudgeEscalator Raised)
    (request : Dtos.ExtractionRequest) (model : String) (task : EscalationTask)
    (groups : List ExtractedFieldGroup) : Prop :=
  ∀ output, escalator.verdicts request model task groups = some output →
    groups.map (Judge.applyGroup output) = groups

section

variable {self request primaryModel session}

theorem groupsOf_after {model : String} {perDoc : List (List Nat)}
    {store : List ExtractedFieldGroup}
    (h : JudgeEscalator.SecondRun self.escalator request model session perDoc
      store) :
    groupsOf store session.tasks = session.tasks.map fun task =>
      JudgeEscalator.groupsAfter self.escalator request model task
        (session.groups task) := by
  apply List.map_congr_left
  intro task htask
  exact h.own task htask

theorem groupsAfter_eq_iff {model : String} {task : EscalationTask}
    {groups : List ExtractedFieldGroup} :
    JudgeEscalator.groupsAfter self.escalator request model task groups =
        groups ↔
      (self.escalator.reExtract request model task = .failed →
        RepeatsVerdicts self.escalator request model task groups) := by
  unfold JudgeEscalator.groupsAfter RepeatsVerdicts JudgeEscalator.judged
  cases hextract : self.escalator.reExtract request model task with
  | skipped => simp
  | extracted groups => simp
  | failed =>
      cases self.escalator.verdicts request model task groups with
      | none => simp
      | some output => simp

theorem run_of_not_accepted
    (h : ¬ (self.run request primaryModel session).Accepted) :
    (self.run request primaryModel session).tasks = session.tasks ∧
      (self.run request primaryModel session).store =
        (self.escalator.maybeEscalate request primaryModel session.tasks
          session.store).1 := by
  unfold run stepJudgeEscalation at h ⊢
  split
  · rename_i store raised houtcome
    simp [houtcome]
  · rename_i store houtcome
    simp [houtcome]
  · rename_i store escalated houtcome
    split
    · rename_i haccepted
      simp only [houtcome, haccepted, if_true] at h
      exact absurd ⟨_, rfl, haccepted⟩ h
    · simp [houtcome]

/--
A step that does not accept keeps the groups of every task exactly when the
second judge changes no verdict of a task whose second extraction failed.
-/
theorem keepsGroups_iff
    (h : ¬ (self.run request primaryModel session).Accepted) :
    KeepsGroups session (self.run request primaryModel session) ↔
      ∀ model, self.escalator.firesWith request primaryModel session =
          some model →
        ∀ task ∈ session.tasks,
          self.escalator.reExtract request model task = .failed →
          RepeatsVerdicts self.escalator request model task
            (session.groups task) := by
  obtain ⟨htasks, hstore⟩ := run_of_not_accepted h
  rw [KeepsGroups, htasks, hstore]
  cases hfires : self.escalator.firesWith request primaryModel session with
  | none =>
      rw [JudgeEscalator.maybeEscalate_of_not_fires hfires]
      simp
  | some model =>
      obtain ⟨perDoc, store, hrun, houtcome⟩ :=
        JudgeEscalator.maybeEscalate_of_fires hfires
      rw [houtcome]
      dsimp only
      rw [groupsOf_after hrun]
      simp only [Option.some.injEq, forall_eq']
      constructor
      · intro hkept task htask hfailed
        have hsame := List.map_inj_left.mp hkept task htask
        exact groupsAfter_eq_iff.mp hsame hfailed
      · intro hrepeats
        apply List.map_congr_left
        intro task htask
        exact groupsAfter_eq_iff.mpr (hrepeats task htask)

end

/-! ## A second judge without a second extraction -/

def rejectingStep : JudgeEscalationStep String where
  escalator := {
    extractor := {
      template _ := .error "timeout"
      model := "primary"
      anchor _ _ := none
      schemaPayload _ := ""
      buildAgent _ _ := .ok ()
      answer _ _ := .error "timeout"
      runtime := .ofJson
      ofPyError _ := "invalid" }
    judge := {
      template _ := .ok ⟨"", ""⟩
      model := "primary"
      dump _ := .ok ""
      buildAgent _ _ := .ok ()
      answer _ := .ok
        [{ name := "totals"
           fields :=
             [{ name := "net", status := .fail },
               { name := "gross", status := .fail }] }] }
    defaultThreshold := 1 / 2
    defaultModel := some "strong" }
  validateField field := field

theorem accepted_rejectingStep :
    ((rejectingStep.run invoiceRequest "primary" totalsSession).info.map
      Interfaces.EscalationInfo.accepted) = some false := by
  decide +kernel

theorem not_accepted_rejectingStep :
    ¬ (rejectingStep.run invoiceRequest "primary" totalsSession).Accepted := by
  rintro ⟨info, hinfo, haccepted⟩
  have hrejected := accepted_rejectingStep
  rw [hinfo, Option.map_some, haccepted] at hrejected
  cases hrejected

theorem keepsGroups_iff_rejectingStep :
    KeepsGroups totalsSession
        (rejectingStep.run invoiceRequest "primary" totalsSession) ↔
      ∀ model, rejectingStep.escalator.firesWith invoiceRequest "primary"
          totalsSession = some model →
        ∀ task ∈ totalsSession.tasks,
          rejectingStep.escalator.reExtract invoiceRequest model task =
            .failed →
          RepeatsVerdicts rejectingStep.escalator invoiceRequest model task
            (totalsSession.groups task) :=
  keepsGroups_iff not_accepted_rejectingStep

def statuses (perDoc : List (List ExtractedFieldGroup)) : List JudgeStatus :=
  (perDoc.flatMap JudgeEscalator.fieldsOf).map (·.judge.status)

theorem statuses_rejectingStep :
    statuses (groupsOf
      (rejectingStep.run invoiceRequest "primary" totalsSession).store
      (rejectingStep.run invoiceRequest "primary" totalsSession).tasks) =
      [.fail, .fail] := by
  decide +kernel

theorem not_keepsGroups :
    ¬ ∀ (Raised : Type) (self : JudgeEscalationStep Raised)
      (request : Dtos.ExtractionRequest) (primaryModel : String)
      (session : EscalationSession),
      ¬ (self.run request primaryModel session).Accepted →
      KeepsGroups session (self.run request primaryModel session) := by
  intro h
  have hkept := h String rejectingStep invoiceRequest "primary" totalsSession
    not_accepted_rejectingStep
  have hsame := congrArg statuses hkept
  rw [statuses_rejectingStep] at hsame
  revert hsame
  decide +kernel

end JudgeEscalationStep

end Flydocs
