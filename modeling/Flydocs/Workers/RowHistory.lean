import Flydocs.Models.Orphans
import Flydocs.Workers.Claims

/-!
# What a row was and will be

A step of the async path changes the row by one call at most.  A terminal
status stays, a settled row is never written again, and the result a row holds
is one that some worker computed and finalised.
-/

namespace Flydocs

open Foundation ExtractionRepository Extraction

variable {Worker Json Result : Type*}

/-! ## Settled rows -/

namespace ExtractionRepository

theorem not_settled_of_guard {now : Int} {call : Call Json}
    {row : Extraction Json} (hguard : (call.update now).guard row = true) :
    ¬ Settled row := by
  rintro ⟨hterminal, hleg⟩
  cases call with
  | markRunning =>
      rcases markRunning_guard hguard with hstatus | hstatus <;>
        simp [hstatus, ExtractionStatus.isTerminal] at hterminal
  | markSucceeded =>
      simp [markSucceeded_guard hguard, ExtractionStatus.isTerminal]
        at hterminal
  | markFailed =>
      simp [markFailed_guard hguard, ExtractionStatus.isTerminal] at hterminal
  | markCancelled =>
      simp [markCancelled_guard hguard, ExtractionStatus.isTerminal]
        at hterminal
  | requeueForRetry =>
      simp [requeueForRetry_guard hguard, ExtractionStatus.isTerminal]
        at hterminal
  | claimBboxRefinement =>
      rcases (claimBboxRefinement_guard hguard).2 with hopen | hopen <;>
        simpa [PostProcessingStatus.isTerminal] using hleg _ hopen
  | requeueBboxRefinement | completeBboxRefinement | failBboxRefinement =>
      have hopen := (bboxRunning_iff.mp hguard).2
      simpa [PostProcessingStatus.isTerminal] using hleg _ hopen

theorem settled_of_unsuccessful {row : Extraction Json}
    (hwell : row.WellFormed) (hterminal : row.status.isTerminal = true)
    (hstatus : row.status ≠ .succeeded) : Settled row := by
  refine ⟨hterminal, ?_⟩
  simp [hwell.bbox_eq_none hstatus]

end ExtractionRepository

namespace AsyncPath

/-! ## Where the result of a row is from -/

/-- A worker was returned a row with this result after finalising it. -/
def Computed (modelDump : Result → Json)
    (history : List (Observation Worker Json Result)) (result : Result) :
    Prop :=
  ∃ (leg : Leg) (time : Int) (worker : Worker) (wantsBboxRefine : Bool)
    (row : Extraction Json),
    .returned time worker
        (leg.finaliseCall (modelDump result) wantsBboxRefine) row ∈ history ∧
      row.resultJson = some (modelDump result)

theorem Computed.append {modelDump : Result → Json}
    {history : List (Observation Worker Json Result)} {result : Result}
    (h : Computed modelDump history result)
    (new : List (Observation Worker Json Result)) :
    Computed modelDump (new ++ history) result := by
  obtain ⟨leg, time, worker, wantsBboxRefine, row, hmem, hresult⟩ := h
  exact ⟨leg, time, worker, wantsBboxRefine, row,
    List.mem_append_right new hmem, hresult⟩

def Stored (modelDump : Result → Json)
    (state : AsyncPath Worker Json Result) : Prop :=
  ∀ json, state.row.resultJson = some json →
    ∃ result, json = modelDump result ∧
      Computed modelDump state.history result

theorem resultJson_finaliseCall {leg : Leg} {json : Json}
    {wantsBboxRefine : Bool} {now : Int} {row next : Extraction Json}
    (hreturn : ((leg.finaliseCall json wantsBboxRefine).update
      now).returning row = some next) : next.resultJson = some json := by
  obtain ⟨-, rfl⟩ := ConditionalUpdate.returning_eq_some_iff.mp hreturn
  cases leg <;> rfl

theorem resultJson_claimCall {settings : IDPSettings} {leg : Leg} {now : Int}
    {row next : Extraction Json}
    (hreturn : ((leg.claimCall settings).update now).returning row =
      some next) : next.resultJson = row.resultJson := by
  obtain ⟨-, rfl⟩ := ConditionalUpdate.returning_eq_some_iff.mp hreturn
  cases leg <;> rfl

theorem resultJson_failCall {leg : Leg} {code message : String} {now : Int}
    {row next : Extraction Json}
    (hreturn : ((leg.failCall code message).update now).returning row =
      some next) : next.resultJson = row.resultJson := by
  obtain ⟨-, rfl⟩ := ConditionalUpdate.returning_eq_some_iff.mp hreturn
  cases leg <;> rfl

theorem resultJson_requeueCall {leg : Leg} {now : Int}
    {row next : Extraction Json}
    (hreturn : (leg.requeueCall.update now).returning row = some next) :
    next.resultJson = row.resultJson := by
  obtain ⟨-, rfl⟩ := ConditionalUpdate.returning_eq_some_iff.mp hreturn
  cases leg <;> rfl

theorem submitted_stored (modelDump : Result → Json) (submittedAt : Int) (callbackUrl : Option String) :
    Stored modelDump (submitted submittedAt callbackUrl :
      AsyncPath Worker Json Result) := by
  intro json hjson
  cases hjson

/-- The row is well formed, holds nothing that no worker computed, and has come
from the phase `origin` by steps of the lifecycle. -/
structure Sound (modelDump : Result → Json) (origin : Phase)
    (state : AsyncPath Worker Json Result) : Prop where
  wellFormed : state.row.WellFormed
  stored : Stored modelDump state
  since : Relation.ReflTransGen Phase.Step origin state.row.phase

theorem submitted_sound (modelDump : Result → Json) (submittedAt : Int)
    (callbackUrl : Option String) :
    Sound modelDump .queued (submitted submittedAt callbackUrl :
      AsyncPath Worker Json Result) :=
  ⟨submitted_wellFormed submittedAt callbackUrl,
    submitted_stored modelDump submittedAt callbackUrl, .refl⟩

theorem Sound.restart {modelDump : Result → Json} {origin : Phase}
    {state : AsyncPath Worker Json Result} (h : Sound modelDump origin state) :
    Sound modelDump state.row.phase state :=
  ⟨h.wellFormed, h.stored, .refl⟩

/-! ## One step -/

variable [DecidableEq Worker] {settings : IDPSettings}
  {modelDump : Result → Json} {state next : AsyncPath Worker Json Result}
  {label : Label Worker Result}

theorem row_step (hstep : step settings modelDump state label = some next) :
    next.row = state.row ∨
      ∃ call, (Call.update state.now call).returning state.row =
        some next.row := by
  cases stepped hstep with
  | processed _ hhandled =>
      rcases hhandled.writes with ⟨hrow, -⟩ | ⟨call, -, hreturn, -⟩
      · exact .inl hrow
      · exact .inr ⟨call, hreturn⟩
  | cancelled =>
      rcases ConditionalUpdate.apply_cases
          (Call.markCancelled.update state.now) state.row with
        ⟨-, -, happly⟩ | ⟨-, hreturn, happly⟩
      · exact .inl happly
      · exact .inr ⟨.markCancelled, by rw [hreturn, happly]⟩
  | delivered | polled | ticked | carried | swept => exact .inl rfl

theorem wellFormed_step (hwell : state.row.WellFormed)
    (hstep : step settings modelDump state label = some next) :
    next.row.WellFormed := by
  rcases row_step hstep with hrow | ⟨call, hreturn⟩
  · rwa [hrow]
  · exact (keeps_wellFormed state.now call).returning hwell hreturn

theorem phase_row_step (hwell : state.row.WellFormed)
    (hstep : step settings modelDump state label = some next) :
    Relation.ReflTransGen Phase.Step state.row.phase next.row.phase := by
  rcases row_step hstep with hrow | ⟨call, hreturn⟩
  · rw [hrow]
  · exact .single (phase_step hwell hreturn)

theorem status_step_of_terminal (hwell : state.row.WellFormed)
    (hterminal : state.row.status.isTerminal = true)
    (hstep : step settings modelDump state label = some next) :
    next.row.status = state.row.status := by
  simpa using Phase.status_of_terminal (phase_row_step hwell hstep)
    (by simpa using hterminal)

theorem row_step_of_settled (hsettled : Settled state.row)
    (hstep : step settings modelDump state label = some next) :
    next.row = state.row := by
  rcases row_step hstep with hrow | ⟨call, hreturn⟩
  · exact hrow
  · have hguard := (ConditionalUpdate.returning_eq_some_iff.mp hreturn).1
    exact absurd hsettled (not_settled_of_guard hguard)

theorem Stored.after {leg : Leg} {worker : Worker}
    {effect : Effect Worker Json Result} (h : Stored modelDump state)
    (hresult : effect.row.resultJson = state.row.resultJson) :
    Stored modelDump (state.after leg worker effect) := by
  intro json hjson
  obtain ⟨result, hdump, hcomputed⟩ := h json (hresult ▸ hjson)
  exact ⟨result, hdump, hcomputed.append effect.observed⟩

theorem submission_step
    (hstep : step settings modelDump state label = some next) :
    next.row.callbackUrl = state.row.callbackUrl ∧
      next.row.submittedAt = state.row.submittedAt := by
  rcases row_step hstep with hrow | ⟨call, hreturn⟩
  · simp [hrow]
  · obtain ⟨-, hvalues⟩ := ConditionalUpdate.returning_eq_some_iff.mp hreturn
    rw [← hvalues]
    cases call <;> exact ⟨rfl, rfl⟩

theorem stored_step (h : Stored modelDump state)
    (hstep : step settings modelDump state label = some next) :
    Stored modelDump next := by
  cases stepped hstep with
  | delivered | polled | ticked | carried | swept => exact h
  | cancelled =>
      intro json hjson
      refine h json ?_
      rw [← hjson]
      rcases ConditionalUpdate.apply_cases
          (Call.markCancelled.update state.now) state.row with
        ⟨-, -, happly⟩ | ⟨-, -, happly⟩
      · exact (congrArg resultJson happly).symm
      · exact (congrArg resultJson happly).symm
  | processed _ hhandled =>
      cases hhandled with
      | quiet => exact h.after rfl
      | claimed _ hreturn => exact h.after (resultJson_claimCall hreturn)
      | failed _ _ hreturn => exact h.after (resultJson_failCall hreturn)
      | requeued _ _ _ _ hreturn =>
          exact h.after (resultJson_requeueCall hreturn)
      | notified => exact h.after rfl
      | @finalised _ result wantsBboxRefine _ _ hreturn =>
          intro json hjson
          have hfinal := resultJson_finaliseCall hreturn
          have hdump : json = modelDump result :=
            Option.some.inj (hjson.symm.trans hfinal)
          exact ⟨result, hdump, _, _, _, _, _,
            List.mem_append_left _ (List.mem_singleton_self _), hfinal⟩

theorem sound_step (settings : IDPSettings) (modelDump : Result → Json)
    (origin : Phase) (state : AsyncPath Worker Json Result)
    (label : Label Worker Result) (next : AsyncPath Worker Json Result)
    (h : Sound modelDump origin state)
    (hstep : step settings modelDump state label = some next) :
    Sound modelDump origin next :=
  ⟨wellFormed_step h.wellFormed hstep, stored_step h.stored hstep,
    h.since.trans (phase_row_step h.wellFormed hstep)⟩

theorem history_step (hstep : step settings modelDump state label = some next) :
    ∃ new, next.history = new ++ state.history := by
  cases stepped hstep with
  | @processed _ _ _ _ effect => exact ⟨effect.observed, rfl⟩
  | cancelled | delivered | polled | ticked | carried | swept =>
      exact ⟨[], rfl⟩

/-! ## Rows that were read earlier -/

/-- What is still known of a row that somebody has read since `origin`. -/
structure Remembered (modelDump : Result → Json) (origin : Phase)
    (state : AsyncPath Worker Json Result) (row : Extraction Json) : Prop where
  wellFormed : row.WellFormed
  since : Relation.ReflTransGen Phase.Step origin row.phase
  computed : ∀ json, row.resultJson = some json →
    ∃ result, json = modelDump result ∧
      Computed modelDump state.history result
  status_eq : row.status.isTerminal = true → state.row.status = row.status
  row_eq : Settled row → state.row = row

theorem Remembered.step {origin : Phase} {row : Extraction Json}
    (hsound : Sound modelDump origin state)
    (h : Remembered modelDump origin state row)
    (hstep : step settings modelDump state label = some next) :
    Remembered modelDump origin next row := by
  obtain ⟨new, hhistory⟩ := history_step hstep
  refine ⟨h.wellFormed, h.since, ?_, ?_, ?_⟩
  · intro json hjson
    obtain ⟨result, hdump, hcomputed⟩ := h.computed json hjson
    exact ⟨result, hdump, hhistory ▸ hcomputed.append new⟩
  · intro hterminal
    have hnow := h.status_eq hterminal
    rw [← hnow] at hterminal ⊢
    exact status_step_of_terminal hsound.wellFormed hterminal hstep
  · intro hsettled
    have hnow := h.row_eq hsettled
    rw [← hnow] at hsettled ⊢
    exact row_step_of_settled hsettled hstep

omit [DecidableEq Worker]

theorem Sound.remembered {origin : Phase} (h : Sound modelDump origin state) :
    Remembered modelDump origin state state.row :=
  ⟨h.wellFormed, h.since, h.stored, fun _ => rfl, fun _ => rfl⟩

theorem Remembered.status_of_terminal {origin : Phase} {row : Extraction Json}
    (h : Remembered modelDump origin state row)
    (hterminal : origin.status.isTerminal = true) :
    row.status = origin.status := by
  simpa using Phase.status_of_terminal h.since hterminal

end AsyncPath

end Flydocs
