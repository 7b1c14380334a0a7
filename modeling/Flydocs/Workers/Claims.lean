import Flydocs.Workers.AsyncPath

/-!
# Claims in a history

The claims a history shows agree with the attempts counter of the row, and a
task that is past its claim still holds the row its latest claim returned.
-/

namespace Flydocs

open Foundation ExtractionRepository Extraction

variable {Worker Json Result : Type*}

/-! ## Claims of a leg -/

namespace Leg

def isClaim : Leg → Call Json → Bool
  | main => Call.isMarkRunning
  | bbox => Call.isClaimBboxRefinement

def counter (row : Extraction Json) : Leg → Nat
  | main => row.attempts
  | bbox => row.postProcessingBboxAttempts

theorem counter_values (leg : Leg) (now : Int) (call : Call Json)
    (row : Extraction Json) :
    leg.counter ((call.update now).values row) =
      if leg.isClaim call then leg.counter row + 1 else leg.counter row := by
  cases leg with
  | main => exact attempts_values now call row
  | bbox => exact bboxAttempts_values now call row

theorem counter_returning (leg : Leg) {now : Int} {call : Call Json}
    {row next : Extraction Json}
    (h : (call.update now).returning row = some next) :
    leg.counter next =
      if leg.isClaim call then leg.counter row + 1 else leg.counter row := by
  obtain ⟨-, rfl⟩ := ConditionalUpdate.returning_eq_some_iff.mp h
  exact leg.counter_values now call row

theorem counter_of_not_claim (leg : Leg) {now : Int} {call : Call Json}
    {row next : Extraction Json} (hclaim : leg.isClaim call = false)
    (h : (call.update now).returning row = some next) :
    leg.counter next = leg.counter row := by
  rw [leg.counter_returning h, hclaim]
  simp

@[simp] theorem isClaim_claimCall (leg other : Leg) (settings : IDPSettings) :
    leg.isClaim (other.claimCall settings : Call Json) =
      decide (leg = other) := by
  cases leg <;> cases other <;> rfl

@[simp] theorem isClaim_finaliseCall (leg other : Leg) (result : Json)
    (wantsBboxRefine : Bool) :
    leg.isClaim (other.finaliseCall result wantsBboxRefine) = false := by
  cases leg <;> cases other <;> rfl

@[simp] theorem isClaim_failCall (leg other : Leg) (code message : String) :
    leg.isClaim (other.failCall code message : Call Json) = false := by
  cases leg <;> cases other <;> rfl

@[simp] theorem isClaim_requeueCall (leg other : Leg) :
    leg.isClaim (other.requeueCall : Call Json) = false := by
  cases leg <;> cases other <;> rfl

end Leg

namespace Observation

def claimed (leg : Leg) :
    Observation Worker Json Result → Option (Worker × Extraction Json)
  | returned _ worker call row =>
      if leg.isClaim call then some (worker, row) else none
  | backingOff _ _ _ _ | delivered _ _ _ _ => none

end Observation

def executions (leg : Leg) (history : List (Observation Worker Json Result)) :
    Nat :=
  history.countP fun observation => (observation.claimed leg).isSome

def lastClaim (leg : Leg) (history : List (Observation Worker Json Result)) :
    Option (Worker × Extraction Json) :=
  history.findSome? (Observation.claimed leg)

def lastClaimBy [DecidableEq Worker] (leg : Leg) (worker : Worker)
    (history : List (Observation Worker Json Result)) :
    Option (Extraction Json) :=
  history.findSome? fun observation =>
    ((observation.claimed leg).filter (decide <| ·.1 = worker)).map Prod.snd

section

variable {leg : Leg} {new history : List (Observation Worker Json Result)}

theorem executions_cons (observation : Observation Worker Json Result) :
    executions leg (observation :: history) =
      executions leg history +
        if (observation.claimed leg).isSome then 1 else 0 := by
  simp [executions, List.countP_cons]

theorem executions_append_of_none
    (h : ∀ observation ∈ new, observation.claimed leg = none) :
    executions leg (new ++ history) = executions leg history := by
  have hzero : new.countP
      (fun observation => (observation.claimed leg).isSome) = 0 := by
    rw [List.countP_eq_zero]
    intro observation hmem
    simp [h observation hmem]
  simp [executions, hzero]

theorem lastClaim_append_of_none
    (h : ∀ observation ∈ new, observation.claimed leg = none) :
    lastClaim leg (new ++ history) = lastClaim leg history := by
  have hnone : new.findSome? (Observation.claimed leg) = none :=
    List.findSome?_eq_none_iff.mpr h
  simp [lastClaim, List.findSome?_append, hnone]

theorem lastClaimBy_append_of_none [DecidableEq Worker] {worker : Worker}
    (h : ∀ observation ∈ new, ∀ row,
      observation.claimed leg ≠ some (worker, row)) :
    lastClaimBy leg worker (new ++ history) =
      lastClaimBy leg worker history := by
  have hnone : new.findSome? (fun observation =>
      ((observation.claimed leg).filter (decide <| ·.1 = worker)).map
        Prod.snd) = none := by
    rw [List.findSome?_eq_none_iff]
    intro observation hmem
    cases hclaimed : observation.claimed leg with
    | none => rfl
    | some pair =>
        have hne : pair.1 ≠ worker := by
          intro heq
          exact h observation hmem pair.2 (by rw [hclaimed, ← heq])
        simp [Option.filter, hne]
  simp [lastClaimBy, List.findSome?_append, hnone]

theorem lastClaimBy_of_lastClaim [DecidableEq Worker] {worker : Worker}
    {row : Extraction Json} (h : lastClaim leg history = some (worker, row)) :
    lastClaimBy leg worker history = some row := by
  induction history with
  | nil => simp [lastClaim] at h
  | cons observation older ih =>
      cases hclaimed : observation.claimed leg with
      | none =>
          have holder : lastClaim leg older = some (worker, row) := by
            simpa [lastClaim, hclaimed] using h
          have := ih holder
          simpa [lastClaimBy, hclaimed] using this
      | some pair =>
          have hpair : pair = (worker, row) := by
            simpa [lastClaim, hclaimed] using h
          simp [lastClaimBy, hclaimed, hpair, Option.filter]

theorem lastClaimBy_eq_none [DecidableEq Worker] (worker : Worker)
    (h : lastClaim leg history = none) :
    lastClaimBy leg worker history = none := by
  unfold lastClaim at h
  unfold lastClaimBy
  rw [List.findSome?_eq_none_iff] at h ⊢
  intro observation hmem
  simp [h observation hmem]

end

/-! ## What one step of a task claims -/

section

variable {settings : IDPSettings} {modelDump : Result → Json} {leg : Leg}
  {now : Int} {worker : Worker} {row : Extraction Json}
  {process : Process Json Result} {action : Action Result}
  {effect : Effect Worker Json Result}

structure Starts (settings : IDPSettings) (leg : Leg) (now : Int)
    (worker : Worker) (row : Extraction Json) (process : Process Json Result)
    (effect : Effect Worker Json Result) : Prop where
  process_eq : process = .loaded
  returning_eq : ((leg.claimCall settings).update now).returning row =
    some effect.row
  next_eq : effect.next = some (.executing effect.row)
  observed_eq : effect.observed =
    [.returned now worker (leg.claimCall settings) effect.row]

structure Keeps (row : Extraction Json) (process : Process Json Result)
    (effect : Effect Worker Json Result) : Prop where
  observed_claimed : ∀ (other : Leg), ∀ observation ∈ effect.observed,
    observation.claimed other = none
  next_claimed : ∀ claimed, effect.next.bind Process.claimed = some claimed →
    process.claimed = some claimed
  counter_eq : ∀ other : Leg, other.counter effect.row = other.counter row

theorem Starts.claimed_eq (h : Starts settings leg now worker row process effect)
    {other : Leg} : ∀ observation ∈ effect.observed,
      observation.claimed other =
        if other = leg then some (worker, effect.row) else none := by
  simp [h.observed_eq, Observation.claimed]

theorem Starts.counter_eq
    (h : Starts settings leg now worker row process effect) (other : Leg) :
    other.counter effect.row =
      if other = leg then other.counter row + 1 else other.counter row := by
  rw [other.counter_returning h.returning_eq]
  simp

theorem claimed_of_next {next : Option (Process Json Result)}
    (h : ∀ after ∈ next, after.claimed = process.claimed)
    {claimed : Extraction Json}
    (hclaimed : next.bind Process.claimed = some claimed) :
    process.claimed = some claimed := by
  obtain ⟨after, hafter, hheld⟩ := Option.bind_eq_some_iff.mp hclaimed
  rw [← h after hafter]
  exact hheld

theorem Handled.starts_or_keeps
    (h : Handled settings modelDump leg now worker row process action effect) :
    Starts settings leg now worker row process effect ∨
      Keeps row process effect := by
  cases h with
  | quiet hclaimed _ _ =>
      right
      constructor
      · simp
      · intro claimed hheld
        exact claimed_of_next hclaimed hheld
      · simp
  | claimed hloaded hreturn =>
      left
      exact ⟨hloaded, hreturn, rfl, rfl⟩
  | finalised hfinalising hreturn =>
      right
      subst hfinalising
      constructor
      · simp [Observation.claimed]
      · simp [Process.claimed]
      · intro other
        exact other.counter_of_not_claim (by simp) hreturn
  | failed hrecovering _ hreturn =>
      right
      subst hrecovering
      constructor
      · simp [Observation.claimed]
      · cases leg <;> simp [Leg.afterFailure, Process.claimed]
      · intro other
        exact other.counter_of_not_claim (by simp) hreturn
  | requeued hrecovering _ _ _ hreturn =>
      right
      constructor
      · simp [Observation.claimed]
      · simp
      · intro other
        exact other.counter_of_not_claim (by simp) hreturn
  | notified _ _ _ hclaimed _ =>
      right
      constructor
      · simp only [Effect.fireWebhook]
        split <;> simp [Observation.claimed]
      · intro claimed hheld
        exact claimed_of_next hclaimed hheld
      · intro other
        rfl

theorem Handled.wellFormed
    (h : Handled settings modelDump leg now worker row process action effect)
    (hwell : row.WellFormed) : effect.row.WellFormed := by
  rcases h.writes with ⟨hrow, -⟩ | ⟨call, -, hreturn, -⟩
  · rwa [hrow]
  · exact (keeps_wellFormed now call).returning hwell hreturn

end

/-! ## The invariant -/

namespace AsyncPath

variable [DecidableEq Worker]

@[simp] theorem setProcess_self (state : AsyncPath Worker Json Result)
    (leg : Leg) (worker : Worker) (next : Option (Process Json Result)) :
    state.setProcess leg worker next leg worker = next := by
  simp [setProcess]

theorem setProcess_other {state : AsyncPath Worker Json Result}
    {leg other : Leg} {worker agent : Worker}
    {next : Option (Process Json Result)}
    (h : other ≠ leg ∨ agent ≠ worker) :
    state.setProcess leg worker next other agent =
      state.process other agent := by
  unfold setProcess
  by_cases hleg : other = leg
  · subst hleg
    have hagent : agent ≠ worker := h.resolve_left (by simp)
    simp [hagent]
  · simp [hleg]

theorem setProcess_cases (state : AsyncPath Worker Json Result)
    (leg other : Leg) (worker agent : Worker)
    (next : Option (Process Json Result)) :
    (other = leg ∧ agent = worker ∧
        state.setProcess leg worker next other agent = next) ∨
      ((other ≠ leg ∨ agent ≠ worker) ∧
        state.setProcess leg worker next other agent =
          state.process other agent) := by
  by_cases hsame : other = leg ∧ agent = worker
  · obtain ⟨rfl, rfl⟩ := hsame
    exact .inl ⟨rfl, rfl, by simp⟩
  · have hother : other ≠ leg ∨ agent ≠ worker := by
      by_contra hneither
      push Not at hneither
      exact hsame hneither
    exact .inr ⟨hother, setProcess_other hother⟩

structure Accounted (state : AsyncPath Worker Json Result) : Prop where
  wellFormed : state.row.WellFormed
  executions_eq : ∀ leg : Leg,
    executions leg state.history = leg.counter state.row
  counter_lastClaim : ∀ (leg : Leg) (worker : Worker) (row : Extraction Json),
    lastClaim leg state.history = some (worker, row) →
      leg.counter row = leg.counter state.row
  claimed_eq : ∀ (leg : Leg) (worker : Worker)
    (process : Process Json Result) (claimed : Extraction Json),
    state.process leg worker = some process → process.claimed = some claimed →
      lastClaimBy leg worker state.history = some claimed

theorem submitted_accounted (submittedAt : Int)
    (callbackUrl : Option String) :
    (submitted submittedAt callbackUrl :
      AsyncPath Worker Json Result).Accounted := by
  constructor
  · exact submitted_wellFormed submittedAt callbackUrl
  · intro leg
    cases leg <;> rfl
  · simp [submitted, lastClaim]
  · simp [submitted]

theorem Accounted.of_frame {state next : AsyncPath Worker Json Result}
    (h : state.Accounted) (hwell : next.row.WellFormed)
    (hhistory : next.history = state.history)
    (hcounter : ∀ leg : Leg, leg.counter next.row = leg.counter state.row)
    (hprocess : ∀ leg worker process, next.process leg worker = some process →
      process.claimed = none ∨ state.process leg worker = some process) :
    next.Accounted := by
  constructor
  · exact hwell
  · intro leg
    rw [hhistory, hcounter]
    exact h.executions_eq leg
  · intro leg worker row hlast
    rw [hhistory] at hlast
    rw [hcounter]
    exact h.counter_lastClaim leg worker row hlast
  · intro leg worker process claimed hnext hclaimed
    rw [hhistory]
    rcases hprocess leg worker process hnext with hnone | hstate
    · simp [hnone] at hclaimed
    · exact h.claimed_eq leg worker process claimed hstate hclaimed

section

variable {settings : IDPSettings} {modelDump : Result → Json}
  {state next : AsyncPath Worker Json Result} {leg : Leg} {worker : Worker}
  {process : Process Json Result} {action : Action Result}
  {effect : Effect Worker Json Result}

theorem Accounted.after_starts (h : state.Accounted)
    (hwell : effect.row.WellFormed)
    (hstarts : Starts settings leg state.now worker state.row process effect) :
    (state.after leg worker effect).Accounted := by
  have hother : ∀ other : Leg, other ≠ leg →
      ∀ observation ∈ effect.observed, observation.claimed other = none := by
    intro other hne observation hmem
    rw [hstarts.claimed_eq observation hmem, if_neg hne]
  constructor
  · exact hwell
  · intro other
    simp only [after]
    rw [hstarts.counter_eq]
    by_cases hleg : other = leg
    · subst hleg
      rw [hstarts.observed_eq, List.singleton_append, executions_cons,
        h.executions_eq, if_pos rfl]
      simp [Observation.claimed]
    · rw [executions_append_of_none (hother other hleg), if_neg hleg]
      exact h.executions_eq other
  · intro other agent row hlast
    simp only [after] at hlast ⊢
    by_cases hleg : other = leg
    · subst hleg
      have hrow : row = effect.row := by
        simp [lastClaim, hstarts.observed_eq, Observation.claimed] at hlast
        exact hlast.2.symm
      rw [hrow]
    · rw [lastClaim_append_of_none (hother other hleg)] at hlast
      rw [hstarts.counter_eq, if_neg hleg]
      exact h.counter_lastClaim other agent row hlast
  · intro other agent process claimed hprocess hclaimed
    simp only [after] at hprocess ⊢
    rcases state.setProcess_cases leg other worker agent effect.next with
      ⟨rfl, rfl, hsame⟩ | ⟨hne, hframe⟩
    · rw [hsame, hstarts.next_eq] at hprocess
      cases hprocess
      simp only [Process.claimed, Option.some.injEq] at hclaimed
      simp [lastClaimBy, hstarts.observed_eq, Observation.claimed,
        Option.filter, hclaimed]
    · rw [hframe] at hprocess
      rw [lastClaimBy_append_of_none]
      · exact h.claimed_eq other agent process claimed hprocess hclaimed
      · intro observation hmem row hclaim
        rw [hstarts.claimed_eq observation hmem] at hclaim
        split at hclaim
        · rename_i hleg
          cases hclaim
          exact hne.elim (fun hnot => hnot hleg) fun hnot => hnot rfl
        · cases hclaim

theorem Accounted.after_keeps (h : state.Accounted)
    (hwell : effect.row.WellFormed)
    (hprocess : state.process leg worker = some process)
    (hkeeps : Keeps state.row process effect) :
    (state.after leg worker effect).Accounted := by
  constructor
  · exact hwell
  · intro other
    simp only [after]
    rw [executions_append_of_none (hkeeps.observed_claimed other),
      hkeeps.counter_eq]
    exact h.executions_eq other
  · intro other agent row hlast
    simp only [after] at hlast ⊢
    rw [lastClaim_append_of_none (hkeeps.observed_claimed other)] at hlast
    rw [hkeeps.counter_eq]
    exact h.counter_lastClaim other agent row hlast
  · intro other agent next claimed hnext hclaimed
    simp only [after] at hnext ⊢
    rw [lastClaimBy_append_of_none]
    · rcases state.setProcess_cases leg other worker agent effect.next with
        ⟨rfl, rfl, hsame⟩ | ⟨-, hframe⟩
      · rw [hsame] at hnext
        have hheld := hkeeps.next_claimed claimed (by simp [hnext, hclaimed])
        exact h.claimed_eq other agent process claimed hprocess hheld
      · rw [hframe] at hnext
        exact h.claimed_eq other agent next claimed hnext hclaimed
    · intro observation hmem row
      simp [hkeeps.observed_claimed other observation hmem]

theorem markCancelled_counter (leg : Leg) (now : Int) (row : Extraction Json) :
    leg.counter ((Call.markCancelled.update now).apply row) =
      leg.counter row := by
  rcases ConditionalUpdate.apply_cases (Call.markCancelled.update now) row with
    ⟨-, -, happly⟩ | ⟨-, -, happly⟩
  · rw [happly]
  · rw [happly, Leg.counter_values]
    cases leg <;> rfl

theorem received_cases {other : Leg} {agent : Worker}
    (h : state.setProcess leg worker (some .received) other agent =
      some process) :
    process = .received ∨ state.process other agent = some process := by
  rcases state.setProcess_cases leg other worker agent (some .received) with
    ⟨-, -, hsame⟩ | ⟨-, hframe⟩
  · left
    rw [hsame] at h
    cases h
    rfl
  · right
    rwa [hframe] at h

theorem accounted_step {label : Label Worker Result} (h : state.Accounted)
    (hstep : step settings modelDump state label = some next) :
    next.Accounted := by
  cases stepped hstep with
  | processed hprocess hhandled =>
      have hwell := hhandled.wellFormed h.wellFormed
      rcases hhandled.starts_or_keeps with hstarts | hkeeps
      · exact h.after_starts hwell hstarts
      · exact h.after_keeps hwell hprocess hkeeps
  | delivered | polled =>
      refine h.of_frame h.wellFormed rfl (fun _ => rfl) ?_
      intro other agent process hother
      rcases received_cases hother with hreceived | hframe
      · subst hreceived
        exact .inl rfl
      · exact .inr hframe
  | cancelled =>
      refine h.of_frame ?_ rfl ?_ (fun _ _ _ hother => .inr hother)
      · exact (keeps_wellFormed state.now .markCancelled).apply h.wellFormed
      · exact fun leg => markCancelled_counter leg state.now state.row
  | ticked | carried | swept =>
      exact h.of_frame h.wellFormed rfl (fun _ => rfl)
        (fun _ _ _ hother => .inr hother)

end

def Reaches (settings : IDPSettings) (modelDump : Result → Json)
    (submittedAt : Int) (callbackUrl : Option String)
    (labels : List (Label Worker Result))
    (state : AsyncPath Worker Json Result) : Prop :=
  LabelledStep.run (step settings modelDump)
    (submitted submittedAt callbackUrl) labels = some state

end AsyncPath

end Flydocs
