import Flydocs.Escalation.Marks

/-!
# Accepted escalations

An escalation is accepted if the second run has fewer bad verdicts than the
first.  Fields that the second judge did not answer count as good, and the rate
that is reported divides by the number of fields of the first run.
-/

namespace Flydocs

open Foundation Dtos EscalationSession

namespace JudgeEscalationStep

open JudgeEscalator

variable {Raised : Type} (self : JudgeEscalationStep Raised)
  (request : Dtos.ExtractionRequest) (primaryModel : String)
  (session : EscalationSession)

/-! ## Grading keeps the number of fields -/

section

variable {self}

theorem fieldCounts_validateGroups (tasks : List EscalationTask)
    (store : List ExtractedFieldGroup) :
    fieldCounts (self.validateGroups tasks store) = fieldCounts store := by
  unfold fieldCounts validateGroups
  induction tasks generalizing store with
  | nil => rfl
  | cons task tasks ih =>
      rw [List.foldl_cons, ih]
      exact ObjectStore.map_update (fun group => by simp [validateGroup]) store

theorem length_fieldsOf_validateGroups (tasks : List EscalationTask)
    (store : List ExtractedFieldGroup) (references : List Nat) :
    (fieldsOf (ObjectStore.read (self.validateGroups tasks store)
      references)).length =
      (fieldsOf (ObjectStore.read store references)).length := by
  have hcounts := @fieldCounts_validateGroups _ self tasks store
  unfold fieldCounts at hcounts
  rw [length_fieldsOf, length_fieldsOf, fieldCounts, fieldCounts,
    ObjectStore.map_read, ObjectStore.map_read, hcounts]

/-! ## The step, case by case -/

variable {request primaryModel session}

theorem run_of_not_fires
    (h : self.escalator.firesWith request primaryModel session = none) :
    self.run request primaryModel session =
      { store := session.store, tasks := session.tasks } := by
  unfold run stepJudgeEscalation
  rw [maybeEscalate_of_not_fires h]

def acceptedTasks (model : String) (session : EscalationSession)
    (perDoc : List (List Nat)) : List EscalationTask :=
  session.tasks.zipWith (fun task references =>
    { task with extractedGroups := references, modelUsed := some model }) perDoc

theorem run_of_fires {model : String}
    (h : self.escalator.firesWith request primaryModel session = some model) :
    ∃ perDoc store, SecondRun self.escalator request model session perDoc store ∧
      self.run request primaryModel session =
        let primaryFail := (primaryCounts session).1
        let newFail := self.escalator.secondFailures request session model
        let total := (primaryCounts session).2
        let info := audit primaryModel model primaryFail newFail total
        if newFail ≤ total then
          if newFail < primaryFail then
            { store := self.validateGroups (acceptedTasks model session perDoc) store
              tasks := acceptedTasks model session perDoc
              info := some info }
          else { store, tasks := session.tasks, info := some info }
        else { store, tasks := session.tasks
               raised := some .validationError } := by
  obtain ⟨perDoc, store, hrun, houtcome⟩ := maybeEscalate_of_fires h
  refine ⟨perDoc, store, hrun, ?_⟩
  unfold run stepJudgeEscalation
  rw [houtcome,
    escalationInfo_eq (total_pos_of_fires h) (primaryCounts_le session)]
  by_cases hfits : self.escalator.secondFailures request session model ≤
      (primaryCounts session).2
  · by_cases hfewer : self.escalator.secondFailures request session model <
        (primaryCounts session).1
    · simp [hfits, hfewer, Except.map, audit, acceptedTasks]
    · simp [hfits, hfewer, Except.map, audit]
  · simp [hfits, Except.map]

/-- The bad verdicts of the second run: failing answers, and failing fields that
were left as they are. -/
def newFailures (escalator : JudgeEscalator Raised)
    (request : Dtos.ExtractionRequest) (model : String)
    (session : EscalationSession) : Nat :=
  escalator.failingAnswers request model session +
    escalator.keptFailing request model session

theorem report_of_fires {model : String}
    (h : self.escalator.firesWith request primaryModel session = some model) :
    let newFail := newFailures self.escalator request model session
    let total := (primaryFields session).length
    (self.run request primaryModel session).info =
        (if newFail ≤ total then
          some (audit primaryModel model (primaryCounts session).1 newFail total)
        else none) ∧
      (self.run request primaryModel session).raised =
        if newFail ≤ total then none else some .validationError := by
  obtain ⟨perDoc, store, -, houtcome⟩ := run_of_fires h
  rw [secondFailures_eq, primaryCounts_snd] at houtcome
  unfold newFailures
  dsimp only at houtcome ⊢
  rw [houtcome]
  split
  · split <;> exact ⟨rfl, rfl⟩
  · exact ⟨rfl, rfl⟩

theorem accepted_iff :
    (self.run request primaryModel session).Accepted ↔
      ∃ model,
        self.escalator.firesWith request primaryModel session = some model ∧
        newFailures self.escalator request model session ≤
          (primaryFields session).length ∧
        newFailures self.escalator request model session <
          (primaryCounts session).1 := by
  unfold Outcome.Accepted
  cases hfires : self.escalator.firesWith request primaryModel session with
  | none => simp [run_of_not_fires hfires]
  | some model =>
      have hreport := (report_of_fires hfires).1
      simp only [Option.some.injEq, exists_eq_left']
      rw [hreport]
      split
      · rename_i hfits
        simp [audit, hfits]
      · rename_i hfits
        simp [hfits]

theorem raised_iff :
    (self.run request primaryModel session).raised = none ↔
      ∀ model,
        self.escalator.firesWith request primaryModel session = some model →
        newFailures self.escalator request model session ≤
          (primaryFields session).length := by
  cases hfires : self.escalator.firesWith request primaryModel session with
  | none => simp [run_of_not_fires hfires]
  | some model =>
      rw [(report_of_fires hfires).2]
      simp

theorem rates_of_info {info : Interfaces.EscalationInfo}
    (h : (self.run request primaryModel session).info = some info) :
    (0 ≤ info.primaryFailRate ∧ info.primaryFailRate ≤ 1) ∧
      0 ≤ info.escalationFailRate ∧ info.escalationFailRate ≤ 1 := by
  cases hfires : self.escalator.firesWith request primaryModel session with
  | none =>
      rw [run_of_not_fires hfires] at h
      cases h
  | some model =>
      have htotal := total_pos_of_fires hfires
      have hprimary := primaryCounts_le session
      rw [primaryCounts_snd] at htotal hprimary
      rw [(report_of_fires hfires).1] at h
      split at h
      · rename_i hfits
        cases h
        exact ⟨(rate_mem_iff htotal).mpr hprimary,
          (rate_mem_iff htotal).mpr hfits⟩
      · cases h

theorem noneFewer_of_accepted {session : ExtractedSession}
    (h : (self.run request primaryModel session.toEscalationSession).Accepted) :
    List.Forall₂ (fun before after =>
        (fieldsOf before).length ≤ (fieldsOf after).length)
      (groupsOf session.store session.tasks)
      (groupsOf (self.run request primaryModel session.toEscalationSession).store
        (self.run request primaryModel session.toEscalationSession).tasks) := by
  obtain ⟨model, hfires, hfits, hfewer⟩ := accepted_iff.mp h
  obtain ⟨perDoc, store, hrun, houtcome⟩ := run_of_fires hfires
  rw [secondFailures_eq, primaryCounts_snd] at houtcome
  unfold newFailures at hfits hfewer
  simp only [hfits, hfewer, if_true] at houtcome
  rw [houtcome]
  unfold groupsOf acceptedTasks
  rw [List.map_zipWith]
  apply forall₂_map_zipWith
  refine List.forall₂_iff_zip.mpr ⟨hrun.candidates.length_eq, ?_⟩
  intro task references hmem
  have htask := (List.of_mem_zip hmem).1
  dsimp only
  rw [length_fieldsOf_validateGroups, List.forall₂_zip hrun.candidates hmem,
    length_fieldsOf_judgedCandidate]
  exact length_candidateGroups htask

end

/-! ## Real improvement -/

structure RealImprovement (step : JudgeEscalationStep Raised)
    (request : Dtos.ExtractionRequest) (primaryModel : String)
    (session : EscalationSession) : Prop where
  lowerRate : (step.run request primaryModel session).Accepted →
    ∀ model,
      step.escalator.firesWith request primaryModel session = some model →
      0 < step.escalator.answered request model session ∧
        (step.escalator.failingAnswers request model session /
          step.escalator.answered request model session : Rat) <
          firstFailing session / firstJudged session
  noneFewer : (step.run request primaryModel session).Accepted →
    List.Forall₂ (fun before after =>
      (fieldsOf before).length ≤ (fieldsOf after).length)
      (groupsOf session.store session.tasks)
      (groupsOf (step.run request primaryModel session).store
        (step.run request primaryModel session).tasks)
  rates : ∀ info, (step.run request primaryModel session).info = some info →
    (0 ≤ info.primaryFailRate ∧ info.primaryFailRate ≤ 1) ∧
      0 ≤ info.escalationFailRate ∧ info.escalationFailRate ≤ 1
  builds : (step.run request primaryModel session).raised = none

/-- The second run brings few enough failing fields and, where it would be
accepted, enough answers. -/
structure WellSupported (escalator : JudgeEscalator Raised)
    (request : Dtos.ExtractionRequest) (model : String)
    (session : EscalationSession) : Prop where
  fits : newFailures escalator request model session ≤
    (primaryFields session).length
  answers : newFailures escalator request model session <
      (primaryCounts session).1 →
    escalator.failingAnswers request model session * firstJudged session <
      firstFailing session * escalator.answered request model session

section

variable {self request primaryModel session}

/--
Acceptance is a real improvement, and the audit block is always built, exactly
when every run that the escalation fires is well supported.
-/
theorem realImprovement_iff {session : ExtractedSession} :
    RealImprovement self request primaryModel session.toEscalationSession ↔
      ∀ model, self.escalator.firesWith request primaryModel
          session.toEscalationSession = some model →
        WellSupported self.escalator request model
          session.toEscalationSession := by
  constructor
  · intro h model hfires
    have hfits := raised_iff.mp h.builds model hfires
    refine ⟨hfits, fun hfewer => ?_⟩
    have haccepted := accepted_iff.mpr ⟨model, hfires, hfits, hfewer⟩
    exact (rate_lt_iff (firstFailing_le _)).mp
      (h.lowerRate haccepted model hfires)
  · intro h
    constructor
    case lowerRate =>
      intro haccepted model hfires
      obtain ⟨other, hother, -, hfewer⟩ := accepted_iff.mp haccepted
      rw [hfires, Option.some.injEq] at hother
      subst hother
      exact (rate_lt_iff (firstFailing_le _)).mpr
        ((h model hfires).answers hfewer)
    case noneFewer => exact noneFewer_of_accepted
    case rates => exact fun info hinfo => rates_of_info hinfo
    case builds =>
      exact raised_iff.mpr fun model hfires => (h model hfires).fits

theorem length_secondMarks {model : String}
    (hsame : ∀ task ∈ session.tasks, (fieldsOf (session.groups task)).length =
      (fieldsOf (self.escalator.candidateGroups request model task
        (session.groups task))).length) :
    (self.escalator.secondMarks request model session).length =
      (primaryFields session).length := by
  unfold secondMarks primaryFields
  rw [List.length_flatMap, List.length_flatMap]
  congr 1
  apply List.map_congr_left
  intro task htask
  rw [hsame task htask, length_marks]

theorem keptFailing_of_answered {model : String}
    (hanswered : ∀ mark ∈ self.escalator.secondMarks request model session,
      isAnswered mark = true) :
    self.escalator.keptFailing request model session = 0 := by
  rw [keptFailing, List.countP_eq_zero]
  intro mark hmark
  have hanswer := hanswered mark hmark
  unfold isAnswered at hanswer
  simp [keptFails, Option.isNone_eq_false_iff.mpr hanswer]

theorem primaryCounts_fst_of_judged
    (hjudged : ∀ field ∈ primaryFields session,
      isFailing field.judge = true → isJudged field.judge = true) :
    (primaryCounts session).1 = firstFailing session := by
  have hfields : (session.tasks.map session.groups).flatMap fieldsOf =
      primaryFields session := by
    rw [List.flatMap_map, primaryFields]
  unfold primaryCounts countFailures firstFailing
  simp only [hfields]
  apply List.countP_congr
  intro field hfield
  cases hfails : isFailing field.judge
  · simp
  · simp [hjudged field hfield hfails]

/-- An accepted run is well supported if the second judge answers for all of its
fields and every document has as many as before. -/
theorem wellSupported_of_answered {model : String}
    (hjudged : ∀ field ∈ primaryFields session,
      isFailing field.judge = true → isJudged field.judge = true)
    (hanswered : ∀ mark ∈ self.escalator.secondMarks request model session,
      isAnswered mark = true)
    (hsame : ∀ task ∈ session.tasks, (fieldsOf (session.groups task)).length =
      (fieldsOf (self.escalator.candidateGroups request model task
        (session.groups task))).length) :
    WellSupported self.escalator request model session := by
  have hlength := length_secondMarks hsame
  have hall : self.escalator.answered request model session =
      (primaryFields session).length := by
    rw [answered, List.countP_eq_length.mpr hanswered, hlength]
  have hkept := keptFailing_of_answered hanswered
  have hfailing : self.escalator.failingAnswers request model session ≤
      (primaryFields session).length := by
    rw [← hlength]
    exact List.countP_le_length
  have hfirst := primaryCounts_fst_of_judged hjudged
  have hseen : firstJudged session ≤ (primaryFields session).length :=
    List.countP_le_length
  constructor
  case fits =>
    rw [newFailures]
    omega
  case answers =>
    intro hfewer
    rw [newFailures, hkept, hfirst] at hfewer
    have hpos := firstFailing_le session
    rw [hall]
    calc self.escalator.failingAnswers request model session *
          firstJudged session
        ≤ self.escalator.failingAnswers request model session *
          (primaryFields session).length := Nat.mul_le_mul_left _ hseen
      _ < firstFailing session * (primaryFields session).length :=
          Nat.mul_lt_mul_of_pos_right (by omega) (by omega)

end

/-! ## A second judge that times out -/

def unansweredStep : JudgeEscalationStep String where
  escalator := {
    extractor := {
      template _ := .ok ⟨"", ""⟩
      model := "primary"
      anchor _ _ := none
      schemaPayload _ := ""
      buildAgent _ _ := .ok ()
      answer _ _ := .ok (.obj [])
      runtime := .ofJson
      ofPyError _ := "invalid" }
    judge := {
      template _ := .ok ⟨"", ""⟩
      model := "primary"
      dump _ := .ok ""
      buildAgent _ _ := .ok ()
      answer _ := .error "timeout" }
    defaultThreshold := 1 / 2
    defaultModel := some "strong" }
  validateField field := field

def extractedTotals : ExtractedSession where
  toEscalationSession := totalsSession
  extracted := by
    intro task htask
    simp only [totalsSession, List.mem_singleton] at htask
    subst htask
    right
    exact ⟨by simp [totalsTask], rfl⟩

theorem accepted_unansweredStep :
    (unansweredStep.run invoiceRequest "primary" totalsSession).info.map
      Interfaces.EscalationInfo.accepted = some true := by
  decide +kernel

theorem firesWith_unansweredStep :
    unansweredStep.escalator.firesWith invoiceRequest "primary" totalsSession =
      some "strong" := by
  decide +kernel

theorem answered_unansweredStep :
    unansweredStep.escalator.answered invoiceRequest "strong" totalsSession =
      0 := by
  decide +kernel

theorem not_realImprovement :
    ¬ ∀ (Raised : Type) (self : JudgeEscalationStep Raised)
      (request : Dtos.ExtractionRequest) (primaryModel : String)
      (session : ExtractedSession),
      RealImprovement self request primaryModel
        session.toEscalationSession := by
  intro h
  have haccepted :
      (unansweredStep.run invoiceRequest "primary" totalsSession).Accepted := by
    obtain ⟨info, hinfo, haccepted⟩ :=
      Option.map_eq_some_iff.mp accepted_unansweredStep
    exact ⟨info, hinfo, haccepted⟩
  have hrate := (h String unansweredStep invoiceRequest "primary"
    extractedTotals).lowerRate haccepted "strong" firesWith_unansweredStep
  have hsome : 0 < unansweredStep.escalator.answered invoiceRequest "strong"
      totalsSession := hrate.1
  rw [answered_unansweredStep] at hsome
  omega

end JudgeEscalationStep

end Flydocs
