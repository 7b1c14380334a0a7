import Flydocs.Workers.Fencing

/-!
# The retry budget

`job_max_attempts` is consulted in one place, the `except` clause of the task
that failed.  A claim that takes over a stale running row and a requeue by a
superseded worker go past it; in runs where neither happens to a row that has
spent its budget, no execution exceeds the budget.
-/

namespace Flydocs

open Foundation ExtractionRepository Extraction

variable {Worker Json Result : Type*}

/-! ## Which updates leave a queued row -/

namespace ExtractionRepository

theorem queued_of_returning {now : Int} {call : Call Json}
    {row next : Extraction Json}
    (h : (call.update now).returning row = some next)
    (hqueued : next.status = .queued) :
    call = .requeueForRetry ∨
      call.isMarkRunning = false ∧ row.status = .queued := by
  obtain ⟨hguard, rfl⟩ := ConditionalUpdate.returning_eq_some_iff.mp h
  cases call with
  | requeueForRetry => exact .inl rfl
  | _ =>
      right
      simp_all [Call.update, markRunning, markSucceeded, markFailed,
        markCancelled, claimBboxRefinement, requeueBboxRefinement,
        completeBboxRefinement, failBboxRefinement, Call.isMarkRunning]

theorem claimable_of_markRunning {now lease : Int}
    {row next : Extraction Json}
    (h : ((Call.markRunning lease).update now).returning row = some next) :
    row.status = .queued ∨ findStaleRunning now lease row = true := by
  have hguard := (ConditionalUpdate.returning_eq_some_iff.mp h).1
  simp only [Call.update, markRunning, Bool.or_eq_true, Bool.and_eq_true,
    decide_eq_true_eq] at hguard
  simpa [findStaleRunning] using hguard

end ExtractionRepository

namespace AsyncPath

/-! ## Rows within budget -/

structure Budgeted (settings : IDPSettings)
    (state : AsyncPath Worker Json Result) : Prop where
  attempts_le : (state.row.attempts : Int) ≤ settings.jobMaxAttempts
  attempts_lt_of_queued : state.row.status = .queued →
    (state.row.attempts : Int) < settings.jobMaxAttempts

theorem Budgeted.of_returning {settings : IDPSettings}
    {state next : AsyncPath Worker Json Result} (h : Budgeted settings state)
    {now : Int} {call : Call Json} (hclaim : call.isMarkRunning = false)
    (hrequeue : call ≠ .requeueForRetry)
    (hreturn : (call.update now).returning state.row = some next.row) :
    Budgeted settings next := by
  have hattempts : next.row.attempts = state.row.attempts :=
    Leg.main.counter_of_not_claim hclaim hreturn
  constructor
  · rw [hattempts]
    exact h.attempts_le
  · intro hqueued
    rw [hattempts]
    rcases queued_of_returning hreturn hqueued with heq | ⟨-, hrow⟩
    · exact absurd heq hrequeue
    · exact h.attempts_lt_of_queued hrow

theorem Budgeted.of_row_eq {settings : IDPSettings}
    {state next : AsyncPath Worker Json Result} (h : Budgeted settings state)
    (hrow : next.row = state.row) : Budgeted settings next := by
  obtain ⟨hle, hlt⟩ := h
  constructor
  · rwa [hrow]
  · rwa [hrow]

theorem Budgeted.of_claim {settings : IDPSettings}
    {state next : AsyncPath Worker Json Result} {now lease : Int}
    (hlt : (state.row.attempts : Int) < settings.jobMaxAttempts)
    (hreturn : ((Call.markRunning lease).update now).returning state.row =
      some next.row) : Budgeted settings next := by
  have hattempts : next.row.attempts = state.row.attempts + 1 :=
    Leg.main.counter_returning hreturn
  constructor
  · rw [hattempts]
    omega
  · intro hqueued
    rcases queued_of_returning hreturn hqueued with heq | ⟨heq, -⟩
    · cases heq
    · cases heq

theorem Budgeted.of_requeue {settings : IDPSettings}
    {state next : AsyncPath Worker Json Result} {now : Int}
    (hlt : (state.row.attempts : Int) < settings.jobMaxAttempts)
    (hreturn : (Call.requeueForRetry.update now).returning state.row =
      some next.row) : Budgeted settings next := by
  have hattempts : next.row.attempts = state.row.attempts :=
    Leg.main.counter_of_not_claim rfl hreturn
  constructor
  · rw [hattempts]
    omega
  · intro _
    rwa [hattempts]

def retries (settings : IDPSettings) (state : AsyncPath Worker Json Result)
    (worker : Worker) : Bool :=
  match state.process .main worker with
  | some (.recovering claimed failure) =>
      !failure.isPermanent &&
        decide ((Leg.main.attempts claimed : Int) < settings.jobMaxAttempts)
  | _ => false

variable [DecidableEq Worker]

/-- A spent row is neither taken over nor requeued by a superseded worker. -/
def withinBudget (settings : IDPSettings)
    (state : AsyncPath Worker Json Result) : Label Worker Result → Bool
  | .process .main _ .claim =>
      !findStaleRunning state.now settings.jobRunLeaseS state.row ||
        decide ((state.row.attempts : Int) < settings.jobMaxAttempts)
  | .process .main worker (.recover _) =>
      !(state.superseded worker && state.retries settings worker &&
          decide (state.row.status = .running)) ||
        decide ((state.row.attempts : Int) < settings.jobMaxAttempts)
  | _ => true

variable {settings : IDPSettings} {modelDump : Result → Json}
  {state next : AsyncPath Worker Json Result} {label : Label Worker Result}

/-! ## The owner of the row -/

/-- A task that has not been superseded holds the attempt the row shows. -/
theorem Accounted.attempts_of_current (h : state.Accounted) {worker : Worker}
    {process : Process Json Result} {claimed : Extraction Json}
    (hprocess : state.process .main worker = some process)
    (hclaimed : process.claimed = some claimed)
    (hcurrent : state.superseded worker = false) :
    claimed.attempts = state.row.attempts := by
  have hown := h.claimed_eq .main worker process claimed hprocess hclaimed
  cases hlast : lastClaim .main state.history with
  | none =>
      have hnone := lastClaimBy_eq_none worker hlast
      rw [hnone] at hown
      cases hown
  | some newest =>
      have hworker : newest.1 = worker := by
        simpa [superseded, hown, hlast] using hcurrent
      have hlast' : lastClaim .main state.history =
          some (worker, newest.2) := by
        rw [hlast, ← hworker]
      have hsame := lastClaimBy_of_lastClaim hlast'
      rw [hown, Option.some.injEq] at hsame
      rw [hsame]
      exact h.counter_lastClaim .main worker newest.2 hlast'

/-! ## One step -/

theorem attempts_lt_of_requeue (haccounted : state.Accounted)
    {worker : Worker} {claimed : Extraction Json} {failure : Failure}
    {jitter : Int}
    (hprocess : state.process .main worker =
      some (.recovering claimed failure))
    (hpermanent : failure.isPermanent = false)
    (hbudget : (Leg.main.attempts claimed : Int) < settings.jobMaxAttempts)
    (hrunning : state.row.status = .running)
    (hwithin : withinBudget settings state
      (.process .main worker (.recover jitter)) = true) :
    (state.row.attempts : Int) < settings.jobMaxAttempts := by
  cases hsuperseded : state.superseded worker with
  | true => simpa [withinBudget, retries, hprocess, hpermanent, hbudget,
      hrunning, hsuperseded] using hwithin
  | false =>
      have hsame : claimed.attempts = state.row.attempts :=
        haccounted.attempts_of_current hprocess rfl hsuperseded
      simp only [Leg.attempts] at hbudget
      omega

theorem budgeted_step (haccounted : state.Accounted)
    (h : Budgeted settings state)
    (hwithin : withinBudget settings state label = true)
    (hstep : step settings modelDump state label = some next) :
    Budgeted settings next := by
  cases stepped hstep with
  | delivered | polled | ticked | carried | swept => exact h.of_row_eq rfl
  | cancelled =>
      rcases ConditionalUpdate.apply_cases
          (Call.markCancelled.update state.now) state.row with
        ⟨-, -, happly⟩ | ⟨-, hsome, happly⟩
      · exact h.of_row_eq happly
      · exact h.of_returning rfl (by simp) (happly ▸ hsome)
  | @processed leg worker action process effect hprocess hhandled =>
      cases hhandled with
      | quiet | notified => exact h.of_row_eq rfl
      | @claimed row hloaded hreturn =>
          cases leg with
          | bbox => exact h.of_returning rfl (by simp [Leg.claimCall]) hreturn
          | main =>
              refine Budgeted.of_claim ?_ hreturn
              rcases claimable_of_markRunning hreturn with hqueued | hstale
              · exact h.attempts_lt_of_queued hqueued
              · simpa [withinBudget, hstale] using hwithin
      | finalised _ hreturn =>
          cases leg <;>
            exact h.of_returning rfl (by simp [Leg.finaliseCall]) hreturn
      | failed _ _ hreturn =>
          cases leg <;>
            exact h.of_returning rfl (by simp [Leg.failCall]) hreturn
      | @requeued claimed failure jitter row hrecovering hpermanent hbudget _
          hreturn =>
          cases leg with
          | bbox => exact h.of_returning rfl (by simp [Leg.requeueCall]) hreturn
          | main =>
              subst hrecovering
              have hlt := attempts_lt_of_requeue haccounted hprocess
                hpermanent hbudget (running_of_closesClaim rfl hreturn) hwithin
              exact Budgeted.of_requeue hlt hreturn

/--
In a run that keeps `withinBudget` at every step, the executions started never
exceed the configured number of attempts.
-/
theorem executions_le_jobMaxAttempts (settings : IDPSettings)
    (modelDump : Result → Json) (submittedAt : Int)
    (callbackUrl : Option String) (labels : List (Label Worker Result))
    (state : AsyncPath Worker Json Result)
    (hmax : 1 ≤ settings.jobMaxAttempts)
    (hwithin : LabelledStep.EveryStep (step settings modelDump)
      (fun state label => withinBudget settings state label = true)
      (submitted submittedAt callbackUrl) labels)
    (hreaches : Reaches settings modelDump submittedAt callbackUrl labels
      state) :
    state.row.attempts = executions .main state.history ∧
      (executions .main state.history : Int) ≤ settings.jobMaxAttempts := by
  have hstart : Budgeted settings
      (submitted submittedAt callbackUrl : AsyncPath Worker Json Result) := by
    constructor
    · simp only [submitted, Extraction.submitted]
      omega
    · intro _
      simp only [submitted, Extraction.submitted]
      omega
  have hinvariant : state.Accounted ∧ Budgeted settings state :=
    LabelledStep.run_invariant_of_everyStep
      (fun state => state.Accounted ∧ Budgeted settings state)
      (fun _ _ _ hgood hmeets hstep =>
        ⟨accounted_step hgood.1 hstep,
          budgeted_step hgood.1 hgood.2 hmeets hstep⟩)
      ⟨submitted_accounted submittedAt callbackUrl, hstart⟩ hwithin hreaches
  obtain ⟨haccounted, hbudgeted⟩ := hinvariant
  have hcount := haccounted.executions_eq .main
  simp only [Leg.counter] at hcount
  refine ⟨hcount.symm, ?_⟩
  rw [hcount]
  exact hbudgeted.attempts_le

/-! ## Executions of one worker after another -/

def failedAttempt (failure : Failure) : List (Label Unit Unit) :=
  [.deliver .main (), .process .main () .get, .process .main () .claim,
    .process .main () (.raise failure), .process .main () (.recover 0)]

def timedOut : Failure where
  isValueError := false
  isTypeError := false
  message := "timed out"
  loweredMessage := "timed out"

theorem executions_le_jobMaxAttempts_timedOut :
    ∃ state : AsyncPath Unit Unit Unit,
      Reaches {} id 0 none (failedAttempt timedOut) state ∧
        (executions .main state.history : Int) ≤
          (({} : IDPSettings)).jobMaxAttempts := by
  have hrun : (LabelledStep.run (step {} id)
      (submitted 0 none : AsyncPath Unit Unit Unit)
      (failedAttempt timedOut)).isSome = true := by
    decide
  obtain ⟨state, hstate⟩ := Option.isSome_iff_exists.mp hrun
  refine ⟨state, hstate, ?_⟩
  exact (executions_le_jobMaxAttempts {} id 0 none (failedAttempt timedOut)
    state (by decide) (by decide) hstate).2

/-- A claim whose worker dies and whose event is redelivered after the lease. -/
def crashedAttempt : List (Label Unit Unit) :=
  [.bus .main .redeliver, .deliver .main (), .process .main () .get,
    .process .main () .claim, .process .main () .crash, .tick 1260000001]

theorem crashes_exceed_jobMaxAttempts :
    ¬ ∀ (labels : List (Label Unit Unit)) (state : AsyncPath Unit Unit Unit),
      Reaches {} id 0 none labels state →
        (executions .main state.history : Int) ≤
          (({} : IDPSettings)).jobMaxAttempts := by
  intro hbudget
  have hrun : (LabelledStep.run (step {} id)
      (submitted 0 none : AsyncPath Unit Unit Unit)
      (crashedAttempt ++ crashedAttempt ++ crashedAttempt ++
        crashedAttempt)).map (fun state => executions .main state.history) =
        some 4 := by
    decide
  obtain ⟨state, hstate, hfour⟩ := Option.map_eq_some_iff.mp hrun
  have hle := hbudget _ state hstate
  rw [hfour] at hle
  exact absurd hle (by decide)

end AsyncPath

end Flydocs
