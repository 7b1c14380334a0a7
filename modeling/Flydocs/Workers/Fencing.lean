import Flydocs.Workers.Claims

/-!
# Writes of a superseded worker

The three updates that close a claim check the status of the row and nothing
about the claim.  A worker whose stale claim was taken over is therefore held
off only while no newer claim is open: its late write is a no-op once that
claim has been closed, and takes effect before.
-/

namespace Flydocs

open Foundation ExtractionRepository Extraction

variable {Worker Json Result : Type*}

namespace ExtractionRepository

def Call.closesClaim : Call Json → Bool
  | markSucceeded _ _ | markFailed _ _ | requeueForRetry => true
  | markRunning _ | markCancelled | claimBboxRefinement _
  | requeueBboxRefinement | completeBboxRefinement _
  | failBboxRefinement _ _ => false

theorem running_of_returning {now : Int} {call : Call Json}
    {row next : Extraction Json}
    (h : (call.update now).returning row = some next) :
    next.status = .running ↔
      call.isMarkRunning = true ∨
        call.closesClaim = false ∧ row.status = .running := by
  obtain ⟨hguard, rfl⟩ := ConditionalUpdate.returning_eq_some_iff.mp h
  cases call with
  | markCancelled =>
      have hstatus := markCancelled_guard hguard
      simp [Call.update, markCancelled, Call.isMarkRunning, hstatus]
  | _ =>
      simp [Call.update, markRunning, markSucceeded, markFailed,
        requeueForRetry, claimBboxRefinement, requeueBboxRefinement,
        completeBboxRefinement, failBboxRefinement, Call.isMarkRunning,
        Call.closesClaim]

theorem running_of_closesClaim {now : Int} {call : Call Json}
    {row next : Extraction Json} (hcloses : call.closesClaim = true)
    (h : (call.update now).returning row = some next) :
    row.status = .running := by
  have hguard := (ConditionalUpdate.returning_eq_some_iff.mp h).1
  cases call with
  | markSucceeded => exact markSucceeded_guard hguard
  | markFailed => exact markFailed_guard hguard
  | requeueForRetry => exact requeueForRetry_guard hguard
  | _ => simp [Call.closesClaim] at hcloses

theorem returning_of_running {now : Int} {call : Call Json}
    {row : Extraction Json} (hcloses : call.closesClaim = true)
    (hrunning : row.status = .running) :
    (call.update now).returning row = some ((call.update now).values row) := by
  rw [ConditionalUpdate.returning_eq_some_iff]
  cases call with
  | markSucceeded | markFailed | requeueForRetry =>
      simp [Call.update, markSucceeded, markFailed, requeueForRetry, hrunning]
  | _ => simp [Call.closesClaim] at hcloses

end ExtractionRepository

/-! ## Closing updates of a running row -/

theorem Effect.observed_attempt {now : Int} {worker : Worker}
    {row : Extraction Json} {call : Call Json}
    {won : Extraction Json → Option (Process Json Result)}
    (hcloses : call.closesClaim = true) (hrunning : row.status = .running) :
    (Effect.attempt now worker row call won :
      Effect Worker Json Result).observed ≠ [] := by
  simp [attempt, returning_of_running hcloses hrunning]

theorem Effect.observed_recover {settings : IDPSettings} {now : Int}
    {worker : Worker} {row claimed : Extraction Json} {failure : Failure}
    {jitter : Int} {effect : Effect Worker Json Result}
    (h : Effect.recover .main settings now worker row claimed failure jitter =
      some effect)
    (hrunning : row.status = .running) : effect.observed ≠ [] := by
  unfold recover at h
  simp only at h
  split at h
  · cases h
    exact observed_attempt rfl hrunning
  · split at h
    · split at h
      next hlost =>
        rw [returning_of_running rfl hrunning] at hlost
        cases hlost
      next requeued _ =>
        cases h
        simp
    · cases h

theorem ExtractionWorker.observed_of_running {settings : IDPSettings}
    {modelDump : Result → Json} {now : Int} {worker : Worker}
    {row : Extraction Json} {process : Process Json Result}
    {action : Action Result} {effect : Effect Worker Json Result}
    (h : ExtractionWorker.process settings modelDump now worker row process
      action = some effect)
    (haction : action = .finalise ∨ ∃ jitter, action = .recover jitter)
    (hrunning : row.status = .running) : effect.observed ≠ [] := by
  rcases haction with rfl | ⟨jitter, rfl⟩
  · cases process with
    | finalising =>
        cases h
        exact Effect.observed_attempt rfl hrunning
    | _ => simp [ExtractionWorker.process] at h
  · cases process with
    | recovering => exact Effect.observed_recover h hrunning
    | _ => simp [ExtractionWorker.process] at h

/-! ## The open claim -/

/-- Whether the newest claim of the history has not been closed since. -/
def claimOpen : List (Observation Worker Json Result) → Bool
  | [] => false
  | .returned _ _ call _ :: older =>
      call.isMarkRunning || (!call.closesClaim && claimOpen older)
  | _ :: older => claimOpen older

theorem claimOpen_append_of_none
    {new history : List (Observation Worker Json Result)}
    (h : ∀ observation ∈ new, observation.call = none) :
    claimOpen (new ++ history) = claimOpen history := by
  induction new with
  | nil => rfl
  | cons observation new ih =>
      rw [List.forall_mem_cons] at h
      obtain ⟨hfirst, hrest⟩ := h
      cases observation with
      | returned => simp [Observation.call] at hfirst
      | backingOff | delivered => exact ih hrest

namespace AsyncPath

def closingWorker : Label Worker Result → Option Worker
  | .process .main worker .finalise => some worker
  | .process .main worker (.recover _) => some worker
  | _ => none

theorem closingWorker_eq_some {label : Label Worker Result} {worker : Worker}
    (h : closingWorker label = some worker) :
    ∃ action : Action Result, label = .process .main worker action ∧
      (action = .finalise ∨ ∃ jitter, action = .recover jitter) := by
  unfold closingWorker at h
  split at h
  · cases h
    exact ⟨_, rfl, .inl rfl⟩
  · cases h
    exact ⟨_, rfl, .inr ⟨_, rfl⟩⟩
  · cases h

def RunningIffOpen (state : AsyncPath Worker Json Result) : Prop :=
  state.row.status = .running ↔ claimOpen state.history = true

theorem submitted_runningIffOpen (submittedAt : Int)
    (callbackUrl : Option String) :
    (submitted submittedAt callbackUrl :
      AsyncPath Worker Json Result).RunningIffOpen := by
  simp [RunningIffOpen, submitted, Extraction.submitted, claimOpen]

variable [DecidableEq Worker] {settings : IDPSettings}
  {modelDump : Result → Json} {state next : AsyncPath Worker Json Result}
  {label : Label Worker Result}

theorem runningIffOpen_step (h : state.RunningIffOpen)
    (hstep : step settings modelDump state label = some next) :
    next.RunningIffOpen := by
  unfold RunningIffOpen at h ⊢
  cases stepped hstep with
  | processed _ hhandled =>
      simp only [after]
      rcases hhandled.writes with
        ⟨hrow, hnone⟩ | ⟨call, notes, hreturn, hobserved, hnotes⟩
      · rw [hrow, claimOpen_append_of_none hnone]
        exact h
      · rw [hobserved, List.append_assoc, claimOpen_append_of_none hnotes,
          running_of_returning hreturn, h]
        simp [claimOpen]
  | delivered | polled | ticked | carried | swept => exact h
  | cancelled =>
      rcases ConditionalUpdate.apply_cases
          (Call.markCancelled.update state.now) state.row with
        ⟨-, -, happly⟩ | ⟨-, hsome, happly⟩
      · simpa [happly] using h
      · simp only [happly, running_of_returning hsome, ← h]
        simp [Call.isMarkRunning, Call.closesClaim]

/-! ## Superseded workers -/

/-- `worker` claimed the row and another worker has claimed it since. -/
def superseded (state : AsyncPath Worker Json Result) (worker : Worker) :
    Bool :=
  (lastClaimBy .main worker state.history).isSome &&
    (lastClaim .main state.history).any fun claim =>
      decide (claim.1 ≠ worker)

section

variable (settings : IDPSettings) (modelDump : Result → Json)
  (state : AsyncPath Worker Json Result) (label : Label Worker Result)

def Fenced : Prop :=
  ∀ worker next, closingWorker label = some worker →
    state.superseded worker = true →
    step settings modelDump state label = some next →
    next.row = state.row ∧ next.history = state.history

/-- A superseded worker closes only after the newest claim was closed. -/
def AfterClose : Prop :=
  ∀ worker next, closingWorker label = some worker →
    state.superseded worker = true →
    step settings modelDump state label = some next →
    claimOpen state.history = false

end

theorem fenced_of_closed {worker : Worker}
    (hclosing : closingWorker label = some worker)
    (hstep : step settings modelDump state label = some next)
    (hclosed : state.row.status ≠ .running) :
    next.row = state.row ∧ next.history = state.history := by
  obtain ⟨action, rfl, haction⟩ := closingWorker_eq_some hclosing
  cases stepped hstep with
  | processed _ hhandled =>
      cases hhandled with
      | quiet => exact ⟨rfl, rfl⟩
      | claimed => simp at haction
      | finalised _ hreturn =>
          exact absurd (running_of_closesClaim rfl hreturn) hclosed
      | failed _ _ hreturn =>
          exact absurd (running_of_closesClaim rfl hreturn) hclosed
      | requeued _ _ _ _ hreturn =>
          exact absurd (running_of_closesClaim rfl hreturn) hclosed
      | notified _ _ hnotify =>
          rcases hnotify with rfl | rfl <;> simp at haction

theorem history_ne_of_running {worker : Worker}
    (hclosing : closingWorker label = some worker)
    (hstep : step settings modelDump state label = some next)
    (hrunning : state.row.status = .running) :
    next.history ≠ state.history := by
  obtain ⟨action, rfl, haction⟩ := closingWorker_eq_some hclosing
  simp only [step, Option.bind_eq_some_iff, Option.map_eq_some_iff] at hstep
  obtain ⟨process, -, effect, heffect, rfl⟩ := hstep
  have hobserved :=
    ExtractionWorker.observed_of_running heffect haction hrunning
  simpa [after] using hobserved

/-! ## Fencing over runs -/

theorem fenced_iff_afterClose (h : state.RunningIffOpen) :
    Fenced settings modelDump state label ↔
      AfterClose settings modelDump state label := by
  unfold RunningIffOpen at h
  constructor
  · intro hfenced worker next hclosing hsuperseded hstep
    by_contra hopen
    have hrunning : state.row.status = .running := by
      rw [h]
      simpa using hopen
    exact history_ne_of_running hclosing hstep hrunning
      (hfenced worker next hclosing hsuperseded hstep).2
  · intro hafter worker next hclosing hsuperseded hstep
    have hclosed := hafter worker next hclosing hsuperseded hstep
    exact fenced_of_closed hclosing hstep (by simp [h, hclosed])

/--
In a run, every closing update of a superseded worker is a no-op exactly when
each of them comes after the newest claim has been closed.
-/
theorem superseded_fenced_iff (settings : IDPSettings)
    (modelDump : Result → Json) (submittedAt : Int)
    (callbackUrl : Option String) (labels : List (Label Worker Result)) :
    LabelledStep.EveryStep (step settings modelDump)
        (Fenced settings modelDump) (submitted submittedAt callbackUrl)
        labels ↔
      LabelledStep.EveryStep (step settings modelDump)
        (AfterClose settings modelDump) (submitted submittedAt callbackUrl)
        labels :=
  LabelledStep.everyStep_congr RunningIffOpen
    (fun _ _ _ hgood hstep => runningIffOpen_step hgood hstep)
    (fun _ _ hgood => fenced_iff_afterClose hgood)
    (submitted_runningIffOpen submittedAt callbackUrl) labels

/-! ## A late success -/

/-- The lease of `false` expires, `true` takes over, `false` finishes first. -/
def takeover : List (Label Bool Unit) :=
  [.deliver .main false, .process .main false .get, .process .main false .claim,
    .process .main false (.execute () false), .tick 1260000001,
    .bus .main .redeliver, .deliver .main true, .process .main true .get,
    .process .main true .claim]

theorem late_success_takes_effect :
    ¬ ∀ labels : List (Label Bool Unit),
      LabelledStep.EveryStep (step {} id) (Fenced {} id)
        (submitted 0 none : AsyncPath Bool Unit Unit) labels := by
  intro hfenced
  have hrun : (LabelledStep.run (step {} id)
      (submitted 0 none : AsyncPath Bool Unit Unit)
      (takeover ++ [.process .main false .finalise])).map (·.row.status) =
        some .succeeded := by
    decide
  have hbefore : (LabelledStep.run (step {} id)
      (submitted 0 none : AsyncPath Bool Unit Unit) takeover).map
        (fun state => (state.superseded false, state.row.status)) =
        some (true, .running) := by
    decide
  obtain ⟨next, hnext, hsucceeded⟩ := Option.map_eq_some_iff.mp hrun
  obtain ⟨state, hstate, hstep⟩ := LabelledStep.run_snoc_eq_some.mp hnext
  rw [hstate, Option.map_some, Option.some.injEq, Prod.mk.injEq] at hbefore
  have hlate := (hfenced (takeover ++ [_])).meets hstate false next rfl
    hbefore.1 hstep
  rw [hlate.1, hbefore.2] at hsucceeded
  cases hsucceeded

end AsyncPath

end Flydocs
