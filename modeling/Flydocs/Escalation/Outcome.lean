import Flydocs.Escalation.SecondRun

/-!
# The outcome of an escalation

What the escalator and the step around it return, in terms of the second run.
-/

namespace Flydocs

open Foundation Dtos

namespace JudgeEscalator

variable {Raised : Type} (self : JudgeEscalator Raised)
  (request : Dtos.ExtractionRequest) (primaryModel : String)
  (session : EscalationSession)

/-! ## The escalator -/

def primaryCounts (session : EscalationSession) : Nat × Nat :=
  countFailures (session.tasks.map session.groups)

def firesWith : Option String :=
  self.escalationModel request primaryModel (primaryCounts session).1
    (primaryCounts session).2

def secondFailures (model : String) : Nat :=
  (countFailures (session.tasks.map fun task =>
    self.judgedCandidate request model task (session.groups task))).1

section

variable {self request primaryModel session}

theorem readAll_eq_of_forall₂ {store : List ExtractedFieldGroup}
    {tasks : List EscalationTask} {perDoc : List (List Nat)}
    {values : EscalationTask → List ExtractedFieldGroup}
    (h : List.Forall₂ (fun task references =>
      ObjectStore.read store references = values task) tasks perDoc) :
    readAll store perDoc = tasks.map values := by
  unfold readAll
  induction h with
  | nil => rfl
  | cons hfirst _ ih => rw [List.map_cons, List.map_cons, hfirst, ih]

theorem readAll_primary (session : EscalationSession) :
    readAll session.store (session.tasks.map EscalationTask.extractedGroups) =
      session.tasks.map session.groups := by
  rw [readAll, List.map_map]
  rfl

theorem maybeEscalate_of_not_fires
    (h : self.firesWith request primaryModel session = none) :
    self.maybeEscalate request primaryModel session.tasks session.store =
      (session.store, .ok none) := by
  have hfires : self.escalationModel request primaryModel
      (countFailures (session.tasks.map session.groups)).1
      (countFailures (session.tasks.map session.groups)).2 = none := h
  unfold maybeEscalate
  rw [readAll_primary]
  cases hcounts : countFailures (session.tasks.map session.groups) with
  | mk primaryFail total =>
      rw [hcounts] at hfires
      dsimp only at hfires ⊢
      rw [hfires]

theorem maybeEscalate_of_fires {model : String}
    (h : self.firesWith request primaryModel session = some model) :
    ∃ perDoc store, SecondRun self request model session perDoc store ∧
      self.maybeEscalate request primaryModel session.tasks session.store =
        (store, (escalationInfo primaryModel model (primaryCounts session).1
          (self.secondFailures request session model)
          (primaryCounts session).2).map
            fun info => some { info, perDocExtracted := perDoc }) := by
  obtain ⟨perDoc, store, hextract⟩ : ∃ perDoc store,
      self.reExtractAll request model session.tasks session.store =
        (perDoc, store) := ⟨_, _, rfl⟩
  have hrun := secondRun_spec hextract
  have hcount := readAll_eq_of_forall₂ hrun.candidates
  refine ⟨perDoc, _, hrun, ?_⟩
  have hfires : self.escalationModel request primaryModel
      (countFailures (session.tasks.map session.groups)).1
      (countFailures (session.tasks.map session.groups)).2 = some model := h
  rw [secondFailures, primaryCounts, ← hcount]
  unfold maybeEscalate
  rw [readAll_primary]
  cases hcounts : countFailures (session.tasks.map session.groups) with
  | mk primaryFail total =>
      rw [hcounts] at hfires
      dsimp only at hfires ⊢
      rw [hfires]
      dsimp only
      rw [hextract]

end

end JudgeEscalator

namespace JudgeEscalationStep

variable {Raised : Type} (self : JudgeEscalationStep Raised)
  (request : Dtos.ExtractionRequest) (primaryModel : String)
  (session : EscalationSession)

/-! ## The step -/

def run : Outcome :=
  self.stepJudgeEscalation request primaryModel session.tasks session.store

def Outcome.Accepted (outcome : Outcome) : Prop :=
  ∃ info, outcome.info = some info ∧ info.accepted = true

def groupsOf (store : List ExtractedFieldGroup) (tasks : List EscalationTask) :
    List (List ExtractedFieldGroup) :=
  tasks.map fun task => ObjectStore.read store task.extractedGroups

end JudgeEscalationStep

/-! ## An invoice with two totals -/

namespace EscalationSession

def totalsDoc : DocumentTypeSpec where
  id := "invoice"
  fieldGroups :=
    [{ name := "totals", fields := [{ name := "net" }, { name := "gross" }] }]

def fieldWith (name : String) (status : JudgeStatus) : ExtractedField where
  name := name
  value := .int 12
  judge := { status, evidence := some "12" }

def totalsTask : EscalationTask where
  taskId := "file0/seg0/invoice"
  sliceBytes := [0]
  mediaType := "application/pdf"
  slicePages := 1
  docSpec := totalsDoc
  extractedGroups := [0]

def totalsSession : EscalationSession where
  store :=
    [{ name := "totals"
       fields := [fieldWith "net" .pass, fieldWith "gross" .fail] }]
  tasks := [totalsTask]
  bounded := by
    intro task htask reference hreference
    simp only [List.mem_singleton] at htask
    subst htask
    simp only [totalsTask, List.mem_singleton] at hreference
    subst hreference
    simp
  distinct := by simp [totalsTask]

def invoiceRequest : Dtos.ExtractionRequest where
  files := [⟨"invoice.pdf", none, none, none⟩]
  documentTypes := [totalsDoc]

end EscalationSession

end Flydocs
