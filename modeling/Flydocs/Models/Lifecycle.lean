import Mathlib.Logic.Relation
import Flydocs.Models.ExtractionRepository

/-!
# The row lifecycle

The nine transition methods keep the columns of a row in step with its two
status columns.  `Phase` is the lifecycle as documented, one main leg with a
bbox leg inside `succeeded`; `WellFormed` says which columns a phase may
populate.  Every update that returns a well-formed row is one step of the
documented lifecycle, so what the phases cannot do no schedule of calls does.
-/

namespace Flydocs

open Foundation ExtractionRepository

variable {Json : Type*}

/-! ## The documented state machine -/

inductive Phase where
  | queued
  | running
  | succeeded (leg : Option PostProcessingStatus)
  | failed
  | cancelled
  deriving DecidableEq, Repr

namespace Phase

def status : Phase → ExtractionStatus
  | queued => .queued
  | running => .running
  | succeeded _ => .succeeded
  | failed => .failed
  | cancelled => .cancelled

def leg : Phase → Option PostProcessingStatus
  | succeeded leg => leg
  | queued | running | failed | cancelled => none

/-- The bbox leg: pending and running alternate until it settles. -/
inductive LegStep : PostProcessingStatus → PostProcessingStatus → Prop
  | claim : LegStep .pending .running
  | reclaim : LegStep .running .running
  | requeue : LegStep .running .pending
  | complete : LegStep .running .succeeded
  | fail : LegStep .running .failed

inductive Step : Phase → Phase → Prop
  | claim : Step queued running
  | reclaim : Step running running
  | requeue : Step running queued
  | cancel : Step queued cancelled
  | succeed (leg) : leg = none ∨ leg = some .pending →
      Step running (succeeded leg)
  | fail : Step running failed
  | refine {leg next} : LegStep leg next →
      Step (succeeded (some leg)) (succeeded (some next))

theorem LegStep.not_terminal {leg next : PostProcessingStatus}
    (h : LegStep leg next) : leg.isTerminal = false := by
  cases h <;> rfl

theorem Step.status_of_terminal {phase next : Phase} (h : Step phase next)
    (hterminal : phase.status.isTerminal = true) :
    next.status = phase.status := by
  cases h with
  | refine hleg => rfl
  | _ => exact absurd hterminal (by decide)

theorem Step.leg_of_terminal {phase next : Phase} (h : Step phase next)
    {settled : PostProcessingStatus} (hleg : phase.leg = some settled)
    (hterminal : settled.isTerminal = true) : next.leg = some settled := by
  cases h with
  | refine hstep =>
      simp only [leg, Option.some.injEq] at hleg
      subst hleg
      rw [hstep.not_terminal] at hterminal
      exact absurd hterminal (by decide)
  | _ => simp [leg] at hleg

theorem status_of_terminal {phase later : Phase}
    (h : Relation.ReflTransGen Step phase later)
    (hterminal : phase.status.isTerminal = true) :
    later.status = phase.status := by
  induction h with
  | refl => rfl
  | tail _ hstep ih =>
      rw [← ih] at hterminal
      rw [hstep.status_of_terminal hterminal, ih]

theorem leg_of_terminal {phase later : Phase}
    (h : Relation.ReflTransGen Step phase later)
    {settled : PostProcessingStatus} (hleg : phase.leg = some settled)
    (hterminal : settled.isTerminal = true) : later.leg = some settled := by
  induction h with
  | refl => exact hleg
  | tail _ hstep ih => exact hstep.leg_of_terminal ih hterminal

end Phase

/-! ## Columns against phases -/

namespace Extraction

structure WellFormed (row : Extraction Json) : Prop where
  finishedAt_iff : row.finishedAt.isSome = true ↔ row.status.isTerminal = true
  errorCode_iff : row.errorCode.isSome = true ↔ row.status = .failed
  resultJson_iff : row.resultJson.isSome = true ↔ row.status = .succeeded
  bbox_only_succeeded :
    row.postProcessingBboxStatus.isSome = true → row.status = .succeeded
  bboxFinishedAt_iff :
    row.postProcessingBboxFinishedAt.isSome = true ↔
      row.postProcessingBboxStatus = some .succeeded ∨
        row.postProcessingBboxStatus = some .failed
  bboxErrorCode_iff :
    row.postProcessingBboxErrorCode.isSome = true ↔
      row.postProcessingBboxStatus = some .failed
  startedAt_iff : row.startedAt.isSome = true ↔ 0 < row.attempts
  attempted_of_running : row.status = .running → 0 < row.attempts
  bboxStartedAt_iff :
    row.postProcessingBboxStartedAt.isSome = true ↔
      0 < row.postProcessingBboxAttempts
  bbox_attempted_of_running :
    row.postProcessingBboxStatus = some .running →
      0 < row.postProcessingBboxAttempts

theorem submitted_wellFormed (submittedAt : Int) (callbackUrl : Option String) :
    (submitted submittedAt callbackUrl : Extraction Json).WellFormed := by
  constructor <;> simp [submitted, ExtractionStatus.isTerminal]

def phase (row : Extraction Json) : Phase :=
  match row.status with
  | .queued => .queued
  | .running => .running
  | .succeeded => .succeeded row.postProcessingBboxStatus
  | .failed => .failed
  | .cancelled => .cancelled

@[simp] theorem phase_status (row : Extraction Json) :
    row.phase.status = row.status := by
  unfold phase Phase.status
  cases row.status <;> rfl

theorem WellFormed.phase_leg {row : Extraction Json} (h : row.WellFormed) :
    row.phase.leg = row.postProcessingBboxStatus := by
  have honly := h.bbox_only_succeeded
  unfold phase Phase.leg
  cases hstatus : row.status <;> simp [hstatus] at honly ⊢ <;> simp [honly]

theorem WellFormed.bbox_eq_none {row : Extraction Json} (h : row.WellFormed)
    (hstatus : row.status ≠ .succeeded) :
    row.postProcessingBboxStatus = none := by
  cases hleg : row.postProcessingBboxStatus with
  | none => rfl
  | some leg => exact absurd (h.bbox_only_succeeded (by simp [hleg])) hstatus

end Extraction

/-! ## One call -/

namespace ExtractionRepository

open Extraction

theorem markRunning_guard {now : Int} {leaseSeconds : Int}
    {row : Extraction Json}
    (h : (markRunning now leaseSeconds).guard row = true) :
    row.status = .queued ∨ row.status = .running := by
  simp only [markRunning, Bool.or_eq_true, Bool.and_eq_true,
    decide_eq_true_eq] at h
  exact h.imp id And.left

theorem markSucceeded_guard {now : Int} {result : Json}
    {requestBboxRefinement : Bool} {row : Extraction Json}
    (h : (markSucceeded now result requestBboxRefinement).guard row = true) :
    row.status = .running :=
  of_decide_eq_true h

theorem markFailed_guard {now : Int} {code message : String}
    {row : Extraction Json}
    (h : (markFailed now code message).guard row = true) :
    row.status = .running :=
  of_decide_eq_true h

theorem markCancelled_guard {now : Int} {row : Extraction Json}
    (h : (markCancelled now).guard row = true) : row.status = .queued :=
  of_decide_eq_true h

theorem requeueForRetry_guard {row : Extraction Json}
    (h : (requeueForRetry).guard row = true) : row.status = .running :=
  of_decide_eq_true h

theorem claimBboxRefinement_guard {now : Int} {leaseSeconds : Int}
    {row : Extraction Json}
    (h : (claimBboxRefinement now leaseSeconds).guard row = true) :
    row.status = .succeeded ∧
      (row.postProcessingBboxStatus = some .pending ∨
        row.postProcessingBboxStatus = some .running) := by
  simp only [claimBboxRefinement, Bool.or_eq_true, Bool.and_eq_true,
    decide_eq_true_eq] at h
  exact ⟨h.1, h.2.imp id And.left⟩

theorem bboxRunning_iff {row : Extraction Json} :
    bboxRunning row = true ↔
      row.status = .succeeded ∧
        row.postProcessingBboxStatus = some .running := by
  simp [bboxRunning]

theorem wellFormed_of_main {row next : Extraction Json} (h : row.WellFormed)
    (hopen : row.status ≠ .succeeded)
    (hleg : next.postProcessingBboxStatus = none ∨
      next.status = .succeeded ∧
        next.postProcessingBboxStatus = some .pending)
    (hframe : next.postProcessingBboxFinishedAt =
        row.postProcessingBboxFinishedAt ∧
      next.postProcessingBboxErrorCode = row.postProcessingBboxErrorCode ∧
      next.postProcessingBboxStartedAt = row.postProcessingBboxStartedAt ∧
      next.postProcessingBboxAttempts = row.postProcessingBboxAttempts)
    (hfinished : next.finishedAt.isSome = true ↔
      next.status.isTerminal = true)
    (herror : next.errorCode.isSome = true ↔ next.status = .failed)
    (hresult : next.resultJson.isSome = true ↔ next.status = .succeeded)
    (hstarted : next.startedAt.isSome = true ↔ 0 < next.attempts)
    (hattempted : next.status = .running → 0 < next.attempts) :
    next.WellFormed := by
  obtain ⟨hbboxFinished, hbboxError, hbboxStarted, hbboxAttempts⟩ := hframe
  have hnone := h.bbox_eq_none hopen
  have hunfinished := h.bboxFinishedAt_iff
  have hunfailed := h.bboxErrorCode_iff
  refine ⟨hfinished, herror, hresult, ?_, ?_, ?_, hstarted, hattempted, ?_, ?_⟩
  · intro hsome
    rcases hleg with hleg | hleg
    · simp [hleg] at hsome
    · exact hleg.1
  · rw [hbboxFinished, hunfinished, hnone]
    rcases hleg with hleg | hleg <;> simp [hleg]
  · rw [hbboxError, hunfailed, hnone]
    rcases hleg with hleg | hleg <;> simp [hleg]
  · rw [hbboxStarted, hbboxAttempts]
    exact h.bboxStartedAt_iff
  · rcases hleg with hleg | hleg <;> simp [hleg]

theorem wellFormed_of_bbox {row next : Extraction Json} (h : row.WellFormed)
    (hstatus : row.status = .succeeded)
    (hframe : next.status = row.status ∧ next.finishedAt = row.finishedAt ∧
      next.errorCode = row.errorCode ∧ next.startedAt = row.startedAt ∧
      next.attempts = row.attempts)
    (hresult : next.resultJson.isSome = true)
    (hfinished : next.postProcessingBboxFinishedAt.isSome = true ↔
      next.postProcessingBboxStatus = some .succeeded ∨
        next.postProcessingBboxStatus = some .failed)
    (herror : next.postProcessingBboxErrorCode.isSome = true ↔
      next.postProcessingBboxStatus = some .failed)
    (hstarted : next.postProcessingBboxStartedAt.isSome = true ↔
      0 < next.postProcessingBboxAttempts)
    (hattempted : next.postProcessingBboxStatus = some .running →
      0 < next.postProcessingBboxAttempts) : next.WellFormed := by
  obtain ⟨hnext, hmainFinished, hmainError, hmainStarted, hmainAttempts⟩ :=
    hframe
  refine ⟨?_, ?_, ?_, ?_, hfinished, herror, ?_, ?_, hstarted, hattempted⟩
  · rw [hmainFinished, hnext]
    exact h.finishedAt_iff
  · rw [hmainError, hnext]
    exact h.errorCode_iff
  · simp [hresult, hnext, hstatus]
  · intro _
    rw [hnext, hstatus]
  · rw [hmainStarted, hmainAttempts]
    exact h.startedAt_iff
  · rw [hnext, hmainAttempts]
    exact h.attempted_of_running

theorem keeps_wellFormed (now : Int) (call : Call Json) :
    ConditionalUpdate.Keeps WellFormed (call.update now) := by
  intro row h hguard
  have hfinished := h.finishedAt_iff
  have herror := h.errorCode_iff
  have hresult := h.resultJson_iff
  have hattempted := h.attempted_of_running
  have hstarted := h.startedAt_iff
  have hbboxFinished := h.bboxFinishedAt_iff
  have hbboxError := h.bboxErrorCode_iff
  have hbboxAttempted := h.bbox_attempted_of_running
  have hbboxStarted := h.bboxStartedAt_iff
  cases call with
  | markRunning leaseSeconds =>
      have hstatus : row.status ≠ .succeeded := by
        rcases markRunning_guard hguard with hstatus | hstatus <;>
          simp [hstatus]
      refine wellFormed_of_main h hstatus (.inl (h.bbox_eq_none hstatus))
        ⟨rfl, rfl, rfl, rfl⟩ ?_ ?_ ?_ ?_ ?_ <;>
        rcases markRunning_guard hguard with hstatus | hstatus <;>
        simp [Call.update, markRunning, ExtractionStatus.isTerminal, hstatus,
          hfinished, herror, hresult]
  | markSucceeded result requestBboxRefinement =>
      have hstatus := markSucceeded_guard hguard
      have hnone := h.bbox_eq_none (by simp [hstatus])
      refine wellFormed_of_main h (by simp [hstatus]) ?_ ⟨rfl, rfl, rfl, rfl⟩
        ?_ ?_ ?_ hstarted (fun _ => hattempted hstatus) <;>
        simp [Call.update, markSucceeded, ExtractionStatus.isTerminal, hnone]
  | markFailed code message =>
      have hstatus := markFailed_guard hguard
      refine wellFormed_of_main h (by simp [hstatus])
        (.inl (h.bbox_eq_none (by simp [hstatus]))) ⟨rfl, rfl, rfl, rfl⟩
        ?_ ?_ ?_ hstarted (fun _ => hattempted hstatus) <;>
        simp [Call.update, markFailed, ExtractionStatus.isTerminal, hstatus,
          hresult]
  | markCancelled =>
      have hstatus := markCancelled_guard hguard
      refine wellFormed_of_main h (by simp [hstatus])
        (.inl (h.bbox_eq_none (by simp [hstatus]))) ⟨rfl, rfl, rfl, rfl⟩
        ?_ ?_ ?_ hstarted ?_ <;>
        simp [Call.update, markCancelled, ExtractionStatus.isTerminal, hstatus,
          herror, hresult]
  | requeueForRetry =>
      have hstatus := requeueForRetry_guard hguard
      refine wellFormed_of_main h (by simp [hstatus])
        (.inl (h.bbox_eq_none (by simp [hstatus]))) ⟨rfl, rfl, rfl, rfl⟩
        ?_ ?_ ?_ hstarted (fun _ => hattempted hstatus) <;>
        simp [Call.update, requeueForRetry, ExtractionStatus.isTerminal,
          hstatus, hfinished, herror, hresult]
  | claimBboxRefinement leaseSeconds =>
      obtain ⟨hstatus, hleg⟩ := claimBboxRefinement_guard hguard
      refine wellFormed_of_bbox h hstatus ⟨rfl, rfl, rfl, rfl, rfl⟩
        (hresult.mpr hstatus) ?_ ?_ ?_ ?_ <;>
        rcases hleg with hleg | hleg <;>
        simp [Call.update, claimBboxRefinement, hbboxFinished, hbboxError, hleg]
  | requeueBboxRefinement =>
      obtain ⟨hstatus, hleg⟩ := bboxRunning_iff.mp hguard
      refine wellFormed_of_bbox h hstatus ⟨rfl, rfl, rfl, rfl, rfl⟩
        (hresult.mpr hstatus) ?_ ?_ hbboxStarted
        (fun _ => hbboxAttempted hleg) <;>
        simp [Call.update, requeueBboxRefinement, hbboxFinished, hbboxError,
          hleg]
  | completeBboxRefinement result =>
      obtain ⟨hstatus, hleg⟩ := bboxRunning_iff.mp hguard
      refine wellFormed_of_bbox h hstatus ⟨rfl, rfl, rfl, rfl, rfl⟩ rfl
        ?_ ?_ hbboxStarted (fun _ => hbboxAttempted hleg) <;>
        simp [Call.update, completeBboxRefinement]
  | failBboxRefinement code message =>
      obtain ⟨hstatus, hleg⟩ := bboxRunning_iff.mp hguard
      refine wellFormed_of_bbox h hstatus ⟨rfl, rfl, rfl, rfl, rfl⟩
        (hresult.mpr hstatus) ?_ ?_ hbboxStarted
        (fun _ => hbboxAttempted hleg) <;>
        simp [Call.update, failBboxRefinement]

/-- A call that returns a well-formed row takes one step of the lifecycle. -/
theorem phase_step {now : Int} {call : Call Json} {row next : Extraction Json}
    (h : row.WellFormed) (hreturn : (call.update now).returning row = some next) :
    Phase.Step row.phase next.phase := by
  obtain ⟨hguard, rfl⟩ := ConditionalUpdate.returning_eq_some_iff.mp hreturn
  cases call with
  | markRunning leaseSeconds =>
      rcases markRunning_guard hguard with hstatus | hstatus <;>
        simp only [Call.update, markRunning, phase, hstatus]
      · exact .claim
      · exact .reclaim
  | markSucceeded result requestBboxRefinement =>
      have hstatus := markSucceeded_guard hguard
      have hleg := h.bbox_eq_none (by simp [hstatus])
      simp only [Call.update, markSucceeded, phase, hstatus, hleg]
      exact .succeed _ (by cases requestBboxRefinement <;> simp)
  | markFailed code message =>
      have hstatus := markFailed_guard hguard
      simp only [Call.update, markFailed, phase, hstatus]
      exact .fail
  | markCancelled =>
      have hstatus := markCancelled_guard hguard
      simp only [Call.update, markCancelled, phase, hstatus]
      exact .cancel
  | requeueForRetry =>
      have hstatus := requeueForRetry_guard hguard
      simp only [Call.update, requeueForRetry, phase, hstatus]
      exact .requeue
  | claimBboxRefinement leaseSeconds =>
      obtain ⟨hstatus, hleg⟩ := claimBboxRefinement_guard hguard
      rcases hleg with hleg | hleg <;>
        simp only [Call.update, claimBboxRefinement, phase, hstatus, hleg]
      · exact .refine .claim
      · exact .refine .reclaim
  | requeueBboxRefinement =>
      obtain ⟨hstatus, hleg⟩ := bboxRunning_iff.mp hguard
      simp only [Call.update, requeueBboxRefinement, phase, hstatus, hleg]
      exact .refine .requeue
  | completeBboxRefinement result =>
      obtain ⟨hstatus, hleg⟩ := bboxRunning_iff.mp hguard
      simp only [Call.update, completeBboxRefinement, phase, hstatus, hleg]
      exact .refine .complete
  | failBboxRefinement code message =>
      obtain ⟨hstatus, hleg⟩ := bboxRunning_iff.mp hguard
      simp only [Call.update, failBboxRefinement, phase, hstatus, hleg]
      exact .refine .fail

/-! ## Schedules of calls -/

/-- A call together with the clock reading of the process that issues it. -/
abbrev TimedCall (Json : Type*) := Int × Call Json

def TimedCall.update (call : TimedCall Json) :
    ConditionalUpdate (Extraction Json) :=
  call.2.update call.1

def afterCalls (calls : List (TimedCall Json)) (row : Extraction Json) :
    Extraction Json :=
  ConditionalUpdate.runAll TimedCall.update calls row

def claims (calls : List (TimedCall Json)) (row : Extraction Json) : Nat :=
  ConditionalUpdate.hits TimedCall.update (·.2.isMarkRunning) calls row

def bboxClaims (calls : List (TimedCall Json)) (row : Extraction Json) : Nat :=
  ConditionalUpdate.hits TimedCall.update (·.2.isClaimBboxRefinement) calls row

theorem TimedCall.keeps (call : TimedCall Json) :
    ConditionalUpdate.Keeps WellFormed call.update :=
  keeps_wellFormed call.1 call.2

theorem afterCalls_wellFormed (calls : List (TimedCall Json))
    {row : Extraction Json} (h : row.WellFormed) :
    (afterCalls calls row).WellFormed :=
  ConditionalUpdate.runAll_keeps TimedCall.keeps calls h

theorem phase_afterCalls (calls : List (TimedCall Json))
    {row : Extraction Json} (h : row.WellFormed) :
    Relation.ReflTransGen Phase.Step row.phase (afterCalls calls row).phase :=
  ConditionalUpdate.runAll_simulates TimedCall.keeps
    (fun _ _ _ hrow hreturn => phase_step hrow hreturn) calls h

theorem attempts_values (now : Int) (call : Call Json) (row : Extraction Json) :
    ((call.update now).values row).attempts =
      if call.isMarkRunning then row.attempts + 1 else row.attempts := by
  cases call <;> rfl

theorem bboxAttempts_values (now : Int) (call : Call Json)
    (row : Extraction Json) :
    ((call.update now).values row).postProcessingBboxAttempts =
      if call.isClaimBboxRefinement then row.postProcessingBboxAttempts + 1
      else row.postProcessingBboxAttempts := by
  cases call <;> rfl

theorem attempts_afterCalls (calls : List (TimedCall Json))
    (row : Extraction Json) :
    (afterCalls calls row).attempts = row.attempts + claims calls row := by
  refine ConditionalUpdate.counter_runAll attempts
    (fun call row hselected => ?_) (fun call row hselected => ?_) calls row
  · exact (attempts_values call.1 call.2 row).trans (if_pos hselected)
  · exact (attempts_values call.1 call.2 row).trans (by simp [hselected])

theorem bboxAttempts_afterCalls (calls : List (TimedCall Json))
    (row : Extraction Json) :
    (afterCalls calls row).postProcessingBboxAttempts =
      row.postProcessingBboxAttempts + bboxClaims calls row := by
  refine ConditionalUpdate.counter_runAll postProcessingBboxAttempts
    (fun call row hselected => ?_) (fun call row hselected => ?_) calls row
  · exact (bboxAttempts_values call.1 call.2 row).trans (if_pos hselected)
  · exact (bboxAttempts_values call.1 call.2 row).trans (by simp [hselected])

def reached (submittedAt : Int) (callbackUrl : Option String)
    (calls : List (TimedCall Json)) : Extraction Json :=
  afterCalls calls (submitted submittedAt callbackUrl)

theorem reached_wellFormed (submittedAt : Int) (callbackUrl : Option String)
    (calls : List (TimedCall Json)) :
    (reached submittedAt callbackUrl calls).WellFormed :=
  afterCalls_wellFormed calls (submitted_wellFormed submittedAt callbackUrl)

/--
The lifecycle invariant of every row that a schedule of calls reaches from a
submission, whatever the leases and the clock readings.
-/
theorem lifecycle_invariant (submittedAt : Int) (callbackUrl : Option String)
    (calls : List (TimedCall Json)) :
    (reached submittedAt callbackUrl calls).WellFormed ∧
      (∀ later, (reached submittedAt callbackUrl calls).status.isTerminal = true →
        (reached submittedAt callbackUrl (calls ++ later)).status =
          (reached submittedAt callbackUrl calls).status) ∧
      (∀ later settled, settled.isTerminal = true →
        (reached submittedAt callbackUrl calls).postProcessingBboxStatus =
          some settled →
        (reached submittedAt callbackUrl
          (calls ++ later)).postProcessingBboxStatus = some settled) ∧
      (reached submittedAt callbackUrl calls).attempts =
        claims calls (submitted submittedAt callbackUrl) ∧
      (reached submittedAt callbackUrl calls).postProcessingBboxAttempts =
        bboxClaims calls (submitted submittedAt callbackUrl) := by
  have hwell := reached_wellFormed submittedAt callbackUrl calls
  have happend (later) : reached submittedAt callbackUrl (calls ++ later) =
      afterCalls later (reached submittedAt callbackUrl calls) :=
    ConditionalUpdate.runAll_append _ _ _ _
  refine ⟨hwell, fun later hterminal => ?_,
    fun later settled hterminal hleg => ?_, ?_, ?_⟩
  · have h := Phase.status_of_terminal (phase_afterCalls later hwell)
      (by simpa using hterminal)
    rw [happend]
    simpa using h
  · have h := Phase.leg_of_terminal (phase_afterCalls later hwell)
      (hwell.phase_leg.trans hleg) hterminal
    rwa [(afterCalls_wellFormed later hwell).phase_leg, ← happend] at h
  · exact (attempts_afterCalls calls _).trans (Nat.zero_add _)
  · exact (bboxAttempts_afterCalls calls _).trans (Nat.zero_add _)

end ExtractionRepository

end Flydocs
