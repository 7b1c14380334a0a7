import Flydocs.Foundation.OneShot
import Flydocs.Workers.Claims

/-!
# Completion webhooks

The webhook of a leg is a one-shot obligation.  It falls due when an update
settles the leg, belongs to the task that update was returned to, and is
discharged when that task hands the envelope to the publisher.
-/

namespace Flydocs

open Foundation ExtractionRepository Extraction

variable {Worker Json Result : Type*}

/-! ## Settling a leg -/

namespace Leg

def settled (row : Extraction Json) : Leg → Bool
  | main => decide (row.status = .succeeded) || decide (row.status = .failed)
  | bbox => decide (row.postProcessingBboxStatus = some .succeeded)

def settles : Leg → Call Json → Bool
  | main, .markSucceeded _ _ | main, .markFailed _ _ => true
  | bbox, .completeBboxRefinement _ => true
  | _, _ => false

theorem settled_returning (leg : Leg) {now : Int} {call : Call Json}
    {row next : Extraction Json} (hwell : row.WellFormed)
    (h : (call.update now).returning row = some next) :
    leg.settled next = (leg.settles call || leg.settled row) ∧
      (leg.settles call = true → leg.settled row = false) := by
  obtain ⟨hguard, rfl⟩ := ConditionalUpdate.returning_eq_some_iff.mp h
  have hnone := hwell.bbox_eq_none
  cases call with
  | markRunning =>
      rcases markRunning_guard hguard with hstatus | hstatus <;>
        cases leg <;>
        simp_all [Call.update, markRunning, settled, settles]
  | markSucceeded result requestBboxRefinement =>
      have hstatus := markSucceeded_guard hguard
      cases requestBboxRefinement <;> cases leg <;>
        simp_all [Call.update, markSucceeded, settled, settles]
  | markFailed | markCancelled | requeueForRetry =>
      cases leg <;>
        simp_all [Call.update, markFailed, markCancelled, requeueForRetry,
          settled, settles]
  | claimBboxRefinement =>
      obtain ⟨hstatus, hleg⟩ := claimBboxRefinement_guard hguard
      cases leg <;> rcases hleg with hleg | hleg <;>
        simp_all [Call.update, claimBboxRefinement, settled, settles]
  | requeueBboxRefinement | completeBboxRefinement | failBboxRefinement =>
      obtain ⟨hstatus, hleg⟩ := bboxRunning_iff.mp hguard
      cases leg <;>
        simp_all [Call.update, requeueBboxRefinement, completeBboxRefinement,
          failBboxRefinement, settled, settles]

@[simp] theorem settles_claimCall (leg other : Leg) (settings : IDPSettings) :
    leg.settles (other.claimCall settings : Call Json) = false := by
  cases leg <;> cases other <;> rfl

@[simp] theorem settles_finaliseCall (leg other : Leg) (result : Json)
    (wantsBboxRefine : Bool) :
    leg.settles (other.finaliseCall result wantsBboxRefine) =
      decide (leg = other) := by
  cases leg <;> cases other <;> rfl

@[simp] theorem settles_failCall (leg other : Leg) (code message : String) :
    leg.settles (other.failCall code message : Call Json) =
      (decide (leg = .main) && decide (other = .main)) := by
  cases leg <;> cases other <;> rfl

@[simp] theorem settles_requeueCall (leg other : Leg) :
    leg.settles (other.requeueCall : Call Json) = false := by
  cases leg <;> cases other <;> rfl

end Leg

/-! ## The ledger of a leg -/

namespace Observation

def deliveredBy (leg : Leg) : Observation Worker Json Result → Option Worker
  | delivered other worker _ _ => if other = leg then some worker else none
  | returned _ _ _ _ | backingOff _ _ _ _ => none

end Observation

def deliveries (leg : Leg) (history : List (Observation Worker Json Result)) :
    List Worker :=
  history.filterMap (Observation.deliveredBy leg)

section

variable {settings : IDPSettings} {modelDump : Result → Json} {leg : Leg}
  {now : Int} {worker : Worker} {row : Extraction Json}
  {process : Process Json Result} {action : Action Result}
  {effect : Effect Worker Json Result}

theorem Handled.keeps_other {other : Leg} (hleg : other ≠ leg)
    (hwell : row.WellFormed)
    (h : Handled settings modelDump leg now worker row process action effect) :
    other.settled effect.row = other.settled row ∧
      deliveries other effect.observed = [] := by
  cases h with
  | quiet => exact ⟨rfl, rfl⟩
  | claimed _ hreturn =>
      have hsettled := (other.settled_returning hwell hreturn).1
      simp only [Leg.settles_claimCall, Bool.false_or] at hsettled
      exact ⟨hsettled, rfl⟩
  | finalised _ hreturn =>
      have hsettled := (other.settled_returning hwell hreturn).1
      simp only [Leg.settles_finaliseCall, hleg, decide_false,
        Bool.false_or] at hsettled
      exact ⟨hsettled, rfl⟩
  | failed _ _ hreturn =>
      have hsettled := (other.settled_returning hwell hreturn).1
      cases leg <;> cases other <;>
        simp_all [deliveries, Observation.deliveredBy]
  | requeued _ _ _ _ hreturn =>
      have hsettled := (other.settled_returning hwell hreturn).1
      simp only [Leg.settles_requeueCall, Bool.false_or] at hsettled
      exact ⟨hsettled, rfl⟩
  | notified =>
      refine ⟨rfl, ?_⟩
      simp only [Effect.fireWebhook]
      split
      · simp [deliveries, Observation.deliveredBy, hleg.symm]
      · rfl

end

namespace AsyncPath

def owes (state : AsyncPath Worker Json Result) (leg : Leg)
    (worker : Worker) : Bool :=
  ((state.process leg worker).bind Process.owed).isSome

def ledger (state : AsyncPath Worker Json Result) (leg : Leg) :
    Ledger Worker where
  due := leg.settled state.row
  holder := state.owes leg
  discharged := deliveries leg state.history

/-- The step stops a worker between settling the leg and announcing it. -/
def drops (leg : Leg) (state : AsyncPath Worker Json Result) :
    Label Worker Result → Bool
  | .process other worker action =>
      decide (other = leg) && action.stops && state.owes leg worker
  | _ => false

theorem owes_eq {state : AsyncPath Worker Json Result} {leg : Leg}
    {worker : Worker} {process : Process Json Result}
    (hprocess : state.process leg worker = some process) :
    state.owes leg worker = process.owed.isSome := by
  simp [owes, hprocess]

theorem drops_of_not_stops {state : AsyncPath Worker Json Result} {leg : Leg}
    {worker : Worker} {action : Action Result} (hstops : action.stops = false)
    (other : Leg) :
    state.drops other (.process leg worker action) = false := by
  simp [drops, hstops]

section

variable [DecidableEq Worker]

theorem owes_setProcess (state : AsyncPath Worker Json Result) (leg : Leg)
    (worker : Worker) (next : Option (Process Json Result)) :
    (fun agent => ((state.setProcess leg worker next leg agent).bind
        Process.owed).isSome) =
      Function.update (state.owes leg) worker
        (next.bind Process.owed).isSome := by
  funext agent
  by_cases hagent : agent = worker
  · subst hagent
    simp
  · rw [setProcess_other (.inr hagent), Function.update_of_ne hagent]
    rfl

theorem owes_setProcess_other (state : AsyncPath Worker Json Result)
    {leg other : Leg} (hleg : other ≠ leg) (worker : Worker)
    (next : Option (Process Json Result)) :
    (fun agent => ((state.setProcess leg worker next other agent).bind
        Process.owed).isSome) = state.owes other := by
  funext agent
  rw [setProcess_other (.inl hleg)]
  rfl

theorem ledger_after (state : AsyncPath Worker Json Result) (leg : Leg)
    (worker : Worker) (effect : Effect Worker Json Result) :
    (state.after leg worker effect).ledger leg =
      { due := leg.settled effect.row
        holder := Function.update (state.owes leg) worker
          (effect.next.bind Process.owed).isSome
        discharged := deliveries leg effect.observed ++
          deliveries leg state.history } := by
  have howes := state.owes_setProcess leg worker effect.next
  unfold owes at howes
  unfold ledger owes
  simp only [after, howes, deliveries, List.filterMap_append]

theorem ledger_after_other (state : AsyncPath Worker Json Result)
    {leg other : Leg} (hleg : other ≠ leg) (worker : Worker)
    (effect : Effect Worker Json Result) :
    (state.after leg worker effect).ledger other =
      { due := other.settled effect.row
        holder := state.owes other
        discharged := deliveries other effect.observed ++
          deliveries other state.history } := by
  have howes := state.owes_setProcess_other hleg worker effect.next
  unfold owes at howes
  unfold ledger owes
  simp only [after, howes, deliveries, List.filterMap_append]

section

variable {settings : IDPSettings} {modelDump : Result → Json}
  {state next : AsyncPath Worker Json Result} {leg : Leg} {worker : Worker}
  {process : Process Json Result} {action : Action Result}
  {effect : Effect Worker Json Result}

structure Booked (leg : Leg) (state : AsyncPath Worker Json Result)
    (label : Label Worker Result) (next : AsyncPath Worker Json Result)
    (event : Ledger.Event Worker) : Prop where
  allowed : event.Allowed (state.ledger leg)
  ledger_eq : next.ledger leg = event.apply (state.ledger leg)
  release_of_drops : state.drops leg label = true →
    ∃ worker, event = .release worker
  drops_of_release : (∃ worker, event = .release worker) →
    state.drops leg label = true ∨ ∃ worker process claimed,
      state.process leg worker = some process ∧
        process.claimed = some claimed ∧
        Projector.truthy claimed.callbackUrl = false

theorem Booked.keep {label : Label Worker Result}
    (hledger : next.ledger leg = state.ledger leg)
    (hdrops : state.drops leg label = false) :
    Booked leg state label next .keep := by
  constructor
  · trivial
  · exact hledger
  · simp [hdrops]
  · rintro ⟨worker, hevent⟩
    cases hevent

theorem ledger_keeps (hprocess : state.process leg worker = some process)
    (howed : process.owed = none)
    (hnext : effect.next.bind Process.owed = none)
    (hsettled : leg.settled effect.row = leg.settled state.row)
    (hobserved : deliveries leg effect.observed = []) :
    (state.after leg worker effect).ledger leg = state.ledger leg := by
  rw [ledger_after, hsettled, hobserved, hnext]
  have hfree : state.owes leg worker = false := by
    simp [owes_eq hprocess, howed]
  have hsame : Function.update (state.owes leg) worker false =
      state.owes leg := by
    rw [← hfree, Function.update_eq_self]
  simp [ledger, hsame]

theorem booked_issue (haccounted : state.Accounted) {call : Call Json}
    (hreturn : (call.update state.now).returning state.row = some effect.row)
    (hsettles : leg.settles call = true) (hstops : action.stops = false)
    (hnext : (effect.next.bind Process.owed).isSome = true)
    (hobserved : deliveries leg effect.observed = []) :
    Booked leg state (.process leg worker action)
      (state.after leg worker effect) (.issue worker) := by
  obtain ⟨hsettled, hopen⟩ :=
    leg.settled_returning haccounted.wellFormed hreturn
  constructor
  · exact hopen hsettles
  · rw [ledger_after, hsettled, hsettles, hnext, hobserved]
    rfl
  · simp [drops, hstops]
  · rintro ⟨worker, hevent⟩
    cases hevent

theorem booked_keep (haccounted : state.Accounted)
    (hprocess : state.process leg worker = some process)
    (howed : process.owed = none) {call : Call Json}
    (hreturn : (call.update state.now).returning state.row = some effect.row)
    (hsettles : leg.settles call = false) (hstops : action.stops = false)
    (hnext : effect.next.bind Process.owed = none)
    (hobserved : deliveries leg effect.observed = []) :
    Booked leg state (.process leg worker action)
      (state.after leg worker effect) .keep := by
  have hsettled := (leg.settled_returning haccounted.wellFormed hreturn).1
  rw [hsettles, Bool.false_or] at hsettled
  exact .keep (ledger_keeps hprocess howed hnext hsettled hobserved)
    (drops_of_not_stops hstops leg)

theorem booked_quiet (hprocess : state.process leg worker = some process)
    (hrow : effect.row = state.row) (hobserved : effect.observed = [])
    (hnext : effect.next.bind Process.owed = none)
    (howed : process.owed = none ∨ action.stops = true) :
    ∃ event, Booked leg state (.process leg worker action)
      (state.after leg worker effect) event := by
  cases hheld : process.owed with
  | none =>
      refine ⟨.keep, .keep (ledger_keeps hprocess hheld hnext ?_ ?_) ?_⟩
      · rw [hrow]
      · rw [hobserved]
        rfl
      · simp [drops, owes_eq hprocess, hheld]
  | some debt =>
      have howes : state.owes leg worker = true := by
        simp [owes_eq hprocess, hheld]
      have hstops : action.stops = true := by
        simpa [hheld] using howed
      have hdrops : state.drops leg (.process leg worker action) = true := by
        simp [drops, hstops, howes]
      refine ⟨.release worker, howes, ?_, ?_, ?_⟩
      · rw [ledger_after, hnext, hrow, hobserved]
        rfl
      · exact fun _ => ⟨worker, rfl⟩
      · exact fun _ => .inl hdrops

theorem booked_notified (hprocess : state.process leg worker = some process)
    {claimed : Extraction Json} (hclaimed : process.claimed = some claimed)
    (howes : state.owes leg worker = true) (hstops : action.stops = false)
    {envelope : Interfaces.EventEnvelope Result}
    {next : Option (Process Json Result)}
    (hnext : next.bind Process.owed = none) :
    ∃ event, Booked leg state (.process leg worker action)
      (state.after leg worker
        (Effect.fireWebhook leg worker state.row claimed.callbackUrl envelope
          next)) event := by
  cases htruthy : Projector.truthy claimed.callbackUrl with
  | true =>
      refine ⟨.discharge worker, howes, ?_, ?_, ?_⟩
      · rw [ledger_after]
        simp [Effect.fireWebhook, htruthy, hnext, deliveries,
          Observation.deliveredBy, Ledger.Event.apply, ledger]
      · simp [drops, hstops]
      · rintro ⟨other, hevent⟩
        cases hevent
  | false =>
      refine ⟨.release worker, howes, ?_, ?_, ?_⟩
      · rw [ledger_after]
        simp [Effect.fireWebhook, htruthy, hnext, deliveries,
          Ledger.Event.apply, ledger]
      · simp [drops, hstops]
      · exact fun _ => .inr ⟨worker, process, claimed, hprocess, hclaimed,
          htruthy⟩

theorem booked_same (haccounted : state.Accounted)
    (hprocess : state.process leg worker = some process)
    (h : Handled settings modelDump leg state.now worker state.row process
      action effect) :
    ∃ event, Booked leg state (.process leg worker action)
      (state.after leg worker effect) event := by
  cases h with
  | quiet _ hnext howed =>
      exact booked_quiet hprocess rfl rfl hnext howed
  | claimed hloaded hreturn =>
      subst hloaded
      exact ⟨.keep, booked_keep haccounted hprocess rfl hreturn (by simp) rfl
        rfl rfl⟩
  | finalised hfinalising hreturn =>
      exact ⟨.issue worker,
        booked_issue haccounted hreturn (by simp) rfl rfl rfl⟩
  | failed hrecovering _ hreturn =>
      subst hrecovering
      cases leg with
      | main =>
          exact ⟨.issue worker,
            booked_issue haccounted hreturn rfl rfl rfl rfl⟩
      | bbox =>
          exact ⟨.keep, booked_keep haccounted hprocess rfl hreturn rfl rfl rfl
            rfl⟩
  | requeued hrecovering _ _ _ hreturn =>
      subst hrecovering
      exact ⟨.keep, booked_keep haccounted hprocess rfl hreturn (by simp) rfl
        rfl rfl⟩
  | notified hclaimed hheld haction _ hnext =>
      have howes : state.owes leg worker = true := by
        simp [owes_eq hprocess, hheld]
      have hstops : action.stops = false := by
        rcases haction with rfl | rfl <;> rfl
      exact booked_notified hprocess hclaimed howes hstops hnext

theorem owes_received (hprocess : state.process leg worker = none)
    (other : Leg) :
    (fun agent => ((state.setProcess leg worker (some .received) other
        agent).bind Process.owed).isSome) = state.owes other := by
  by_cases hleg : other = leg
  · subst hleg
    rw [owes_setProcess, Function.update_eq_self_iff]
    simp [owes, hprocess, Process.owed]
  · exact state.owes_setProcess_other hleg worker _

theorem ledger_received (hprocess : state.process leg worker = none)
    (channel : Leg → Channel) (other : Leg) :
    ({ state with
        process := state.setProcess leg worker (some .received)
        channel := channel } : AsyncPath Worker Json Result).ledger other =
      state.ledger other := by
  have howes := owes_received hprocess other
  unfold owes at howes
  unfold ledger owes
  simp only [howes]

theorem booked_step {label : Label Worker Result} (leg : Leg)
    (haccounted : state.Accounted)
    (hstep : step settings modelDump state label = some next) :
    ∃ event, Booked leg state label next event := by
  cases stepped hstep with
  | @processed other worker action process effect hprocess hhandled =>
      by_cases hleg : leg = other
      · subst hleg
        exact booked_same haccounted hprocess hhandled
      · obtain ⟨hsettled, hobserved⟩ :=
          hhandled.keeps_other hleg haccounted.wellFormed
        refine ⟨.keep, .keep ?_ ?_⟩
        · rw [state.ledger_after_other hleg, hsettled, hobserved]
          rfl
        · simp [drops, Ne.symm hleg]
  | delivered _ hprocess | polled _ hprocess =>
      exact ⟨.keep, .keep (ledger_received hprocess _ leg) rfl⟩
  | ticked | carried | swept => exact ⟨.keep, .keep rfl rfl⟩
  | cancelled =>
      refine ⟨.keep, .keep ?_ rfl⟩
      rcases ConditionalUpdate.apply_cases
          (Call.markCancelled.update state.now) state.row with
        ⟨-, -, happly⟩ | ⟨-, hsome, happly⟩
      · simp only [ledger, happly]
      · have hsettled :=
          (leg.settled_returning haccounted.wellFormed hsome).1
        have hnot : leg.settles (Call.markCancelled : Call Json) = false := by
          cases leg <;> rfl
        rw [hnot, Bool.false_or] at hsettled
        simp only [ledger, happly, hsettled]
        rfl

end

end

/-! ## What backs a delivery -/

/-- `worker` was returned the terminal row that a payload of `leg` reports. -/
def BackedBy (modelDump : Result → Json) (leg : Leg) (worker : Worker)
    (row : Extraction Json) (result : Option Result)
    (history : List (Observation Worker Json Result)) : Prop :=
  (∃ time call, .returned time worker call row ∈ history ∧
      leg.settles call = true) ∧
    (result.isSome = true ↔ row.status = .succeeded) ∧
    ∀ value ∈ result, row.resultJson = some (modelDump value)

def JustifiedBy (modelDump : Result → Json)
    (older : List (Observation Worker Json Result)) :
    Observation Worker Json Result → Prop
  | .delivered leg worker _ envelope =>
      envelope.eventType = leg.completed ∧
        ∃ row : Extraction Json,
          envelope.extraction = Projector.rowToExtraction row ∧
            BackedBy modelDump leg worker row envelope.result older
  | .returned _ _ _ _ | .backingOff _ _ _ _ => True

def Justified (modelDump : Result → Json) :
    List (Observation Worker Json Result) → Prop
  | [] => True
  | observation :: older =>
      JustifiedBy modelDump older observation ∧ Justified modelDump older

structure Backed (modelDump : Result → Json)
    (state : AsyncPath Worker Json Result) : Prop where
  justified : Justified modelDump state.history
  owed : ∀ (leg : Leg) (worker : Worker) (process : Process Json Result)
    (row : Extraction Json) (result : Option Result),
    state.process leg worker = some process →
      process.owed = some (row, result) →
      BackedBy modelDump leg worker row result state.history

theorem BackedBy.append {modelDump : Result → Json} {leg : Leg}
    {worker : Worker} {row : Extraction Json} {result : Option Result}
    {history : List (Observation Worker Json Result)}
    (h : BackedBy modelDump leg worker row result history)
    (new : List (Observation Worker Json Result)) :
    BackedBy modelDump leg worker row result (new ++ history) := by
  obtain ⟨⟨time, call, hmem, hsettles⟩, hstatus, hpersisted⟩ := h
  exact ⟨⟨time, call, List.mem_append_right new hmem, hsettles⟩, hstatus,
    hpersisted⟩

theorem justified_append_of_none {modelDump : Result → Json}
    {new history : List (Observation Worker Json Result)}
    (h : Justified modelDump history)
    (hnone : ∀ leg : Leg, deliveries leg new = []) :
    Justified modelDump (new ++ history) := by
  induction new with
  | nil => exact h
  | cons observation new ih =>
      have hfirst : ∀ leg : Leg, observation.deliveredBy leg = none := by
        intro leg
        have := hnone leg
        cases hdelivered : observation.deliveredBy leg with
        | none => rfl
        | some worker => simp [deliveries, hdelivered] at this
      have hrest : ∀ leg : Leg, deliveries leg new = [] := by
        intro leg
        have := hnone leg
        simpa [deliveries, hfirst leg] using this
      refine ⟨?_, ih hrest⟩
      cases observation with
      | delivered leg => simpa [Observation.deliveredBy] using hfirst leg
      | returned | backingOff => trivial

theorem backedBy_finalised {modelDump : Result → Json} {leg : Leg}
    {now : Int} {worker : Worker} {row next : Extraction Json}
    {result : Result} {wantsBboxRefine : Bool}
    {history : List (Observation Worker Json Result)}
    (hreturn : ((leg.finaliseCall (modelDump result)
      wantsBboxRefine).update now).returning row = some next) :
    BackedBy modelDump leg worker next (some result)
      (.returned now worker
        (leg.finaliseCall (modelDump result) wantsBboxRefine) next ::
        history) := by
  refine ⟨⟨now, _, List.mem_cons_self, by simp⟩, ?_⟩
  obtain ⟨hguard, rfl⟩ := ConditionalUpdate.returning_eq_some_iff.mp hreturn
  cases leg with
  | main => simp [Leg.finaliseCall, Call.update, markSucceeded]
  | bbox =>
      have hstatus := (bboxRunning_iff.mp hguard).1
      simp [Leg.finaliseCall, Call.update, completeBboxRefinement, hstatus]

theorem backedBy_failed {modelDump : Result → Json} {now : Int}
    {worker : Worker} {row next : Extraction Json} {code message : String}
    {history : List (Observation Worker Json Result)}
    (hreturn : ((Leg.main.failCall code message).update now).returning row =
      some next) :
    BackedBy modelDump .main worker next none
      (.returned now worker (Leg.main.failCall code message) next ::
        history) := by
  refine ⟨⟨now, _, List.mem_cons_self, rfl⟩, ?_⟩
  obtain ⟨-, rfl⟩ := ConditionalUpdate.returning_eq_some_iff.mp hreturn
  simp [Leg.failCall, Call.update, markFailed]

theorem payload_eq {modelDump : Result → Json} {leg : Leg} {worker : Worker}
    {row : Extraction Json} {result : Option Result}
    {history : List (Observation Worker Json Result)}
    (h : BackedBy modelDump leg worker row result history) :
    leg.payload row result = result := by
  cases leg with
  | bbox => rfl
  | main =>
      cases result with
      | none => simp [Leg.payload]
      | some value =>
          have hstatus : row.status = .succeeded := h.2.1.mp rfl
          simp [Leg.payload, hstatus]

section

variable [DecidableEq Worker] {settings : IDPSettings}
  {modelDump : Result → Json} {state next : AsyncPath Worker Json Result}
  {leg : Leg} {worker : Worker} {process : Process Json Result}
  {action : Action Result} {effect : Effect Worker Json Result}

theorem Backed.after_quiet (h : Backed modelDump state)
    (hnext : effect.next.bind Process.owed = none)
    (hobserved : ∀ leg : Leg, deliveries leg effect.observed = []) :
    Backed modelDump (state.after leg worker effect) := by
  constructor
  · exact justified_append_of_none h.justified hobserved
  · intro other agent process row result hprocess howed
    simp only [after] at hprocess ⊢
    refine BackedBy.append ?_ effect.observed
    rcases state.setProcess_cases leg other worker agent effect.next with
      ⟨rfl, rfl, hsame⟩ | ⟨-, hframe⟩
    · rw [hsame] at hprocess
      simp [hprocess, howed] at hnext
    · rw [hframe] at hprocess
      exact h.owed other agent process row result hprocess howed

theorem Backed.after_settled (h : Backed modelDump state)
    (hobserved : ∀ leg : Leg, deliveries leg effect.observed = [])
    (hnext : ∀ row result, effect.next.bind Process.owed = some (row, result) →
      BackedBy modelDump leg worker row result
        (effect.observed ++ state.history)) :
    Backed modelDump (state.after leg worker effect) := by
  constructor
  · exact justified_append_of_none h.justified hobserved
  · intro other agent process row result hprocess howed
    simp only [after] at hprocess ⊢
    rcases state.setProcess_cases leg other worker agent effect.next with
      ⟨rfl, rfl, hsame⟩ | ⟨-, hframe⟩
    · rw [hsame] at hprocess
      exact hnext row result (by simp [hprocess, howed])
    · rw [hframe] at hprocess
      exact (h.owed other agent process row result hprocess howed).append _

theorem Backed.after_handled (h : Backed modelDump state)
    (hprocess : state.process leg worker = some process)
    (hhandled : Handled settings modelDump leg state.now worker state.row
      process action effect) :
    Backed modelDump (state.after leg worker effect) := by
  cases hhandled with
  | quiet _ hnext => exact h.after_quiet hnext fun _ => rfl
  | claimed => exact h.after_quiet rfl fun _ => rfl
  | requeued => exact h.after_quiet rfl fun _ => rfl
  | finalised _ hreturn =>
      refine h.after_settled (fun _ => rfl) ?_
      intro row result hnext
      cases hnext
      exact backedBy_finalised hreturn
  | failed _ _ hreturn =>
      refine h.after_settled (fun _ => rfl) ?_
      intro row result hnext
      cases leg with
      | bbox => simp [Leg.afterFailure] at hnext
      | main =>
          cases hnext
          exact backedBy_failed hreturn
  | @notified _ claimed finalised result nextProcess _ hheld _ _ hnext =>
      have hbacked := h.owed leg worker process finalised result hprocess hheld
      cases htruthy : Projector.truthy claimed.callbackUrl with
      | false =>
          refine h.after_quiet hnext ?_
          simp [Effect.fireWebhook, htruthy, deliveries]
      | true =>
          constructor
          · simp only [after, Effect.fireWebhook, htruthy, if_true,
              List.singleton_append]
            refine ⟨⟨rfl, finalised, rfl, ?_⟩, h.justified⟩
            simpa only [completionEnvelope, payload_eq hbacked] using hbacked
          · intro other agent process row result hother howed
            simp only [after] at hother ⊢
            refine BackedBy.append ?_ _
            rcases state.setProcess_cases leg other worker agent nextProcess
              with ⟨rfl, rfl, hsame⟩ | ⟨-, hframe⟩
            · rw [Effect.fireWebhook, hsame] at hother
              simp [hother, howed] at hnext
            · rw [Effect.fireWebhook, hframe] at hother
              exact h.owed other agent process row result hother howed

theorem backed_step {label : Label Worker Result} (h : Backed modelDump state)
    (hstep : step settings modelDump state label = some next) :
    Backed modelDump next := by
  cases stepped hstep with
  | processed hprocess hhandled => exact h.after_handled hprocess hhandled
  | ticked | carried | swept | cancelled =>
      exact ⟨h.justified, h.owed⟩
  | @delivered leg worker | @polled worker =>
      refine ⟨h.justified, ?_⟩
      intro other agent process row result hother howed
      rcases received_cases hother with hreceived | hframe
      · subst hreceived
        cases howed
      · exact h.owed other agent process row result hframe howed

end

/-! ## At most once -/

structure WebhooksAtMostOnce (modelDump : Result → Json)
    (state : AsyncPath Worker Json Result) : Prop where
  deliveries_le : ∀ leg : Leg, (deliveries leg state.history).length ≤ 1
  settled : ∀ leg : Leg, deliveries leg state.history ≠ [] →
    leg.settled state.row = true
  justified : Justified modelDump state.history
  not_cancelled : ∀ leg : Leg, deliveries leg state.history ≠ [] →
    state.row.status ≠ .cancelled
  succeeded_of_bbox : deliveries .bbox state.history ≠ [] →
    state.row.status = .succeeded

section

variable [DecidableEq Worker]

theorem submitted_ledger_valid (submittedAt : Int)
    (callbackUrl : Option String) (leg : Leg) :
    (submitted submittedAt callbackUrl :
      AsyncPath Worker Json Result).ledger leg =
      (Ticket.unissued : Ticket Worker).ledger := by
  cases leg <;> rfl

/--
After every run each leg was announced at most once, by a worker whose own
update settled the leg and with what that update persisted.
-/
theorem webhooks_at_most_once (settings : IDPSettings)
    (modelDump : Result → Json) (submittedAt : Int)
    (callbackUrl : Option String) (labels : List (Label Worker Result))
    (state : AsyncPath Worker Json Result)
    (hreaches : Reaches settings modelDump submittedAt callbackUrl labels
      state) :
    WebhooksAtMostOnce modelDump state := by
  have hinvariant : state.Accounted ∧ Backed modelDump state ∧
      ∀ leg, (state.ledger leg).Valid := by
    refine LabelledStep.run_invariant
      (fun state => state.Accounted ∧ Backed modelDump state ∧
        ∀ leg, (state.ledger leg).Valid) ?_ ?_ hreaches
    · rintro state label next ⟨haccounted, hbacked, hvalid⟩ hstep
      refine ⟨accounted_step haccounted hstep, backed_step hbacked hstep, ?_⟩
      intro leg
      obtain ⟨event, hbooked⟩ := booked_step leg haccounted hstep
      rw [hbooked.ledger_eq]
      exact (hvalid leg).apply hbooked.allowed
    · refine ⟨submitted_accounted submittedAt callbackUrl, ?_, ?_⟩
      · exact ⟨trivial, by simp [submitted]⟩
      · exact fun leg => ⟨.unissued, submitted_ledger_valid _ _ leg⟩
  obtain ⟨haccounted, hbacked, hvalid⟩ := hinvariant
  have hsettled : ∀ leg : Leg, deliveries leg state.history ≠ [] →
      leg.settled state.row = true := by
    intro leg hne
    obtain ⟨worker, hmem⟩ := List.exists_mem_of_ne_nil _ hne
    exact (hvalid leg).due_of_discharged hmem
  have hsucceeded : deliveries .bbox state.history ≠ [] →
      state.row.status = .succeeded := by
    intro hne
    have hbbox := hsettled .bbox hne
    simp only [Leg.settled, decide_eq_true_eq] at hbbox
    exact haccounted.wellFormed.bbox_only_succeeded (by simp [hbbox])
  constructor
  · exact fun leg => (hvalid leg).discharged_length_le
  · exact hsettled
  · exact hbacked.justified
  · intro leg hne hcancelled
    cases leg with
    | main => simpa [Leg.settled, hcancelled] using hsettled .main hne
    | bbox => simpa [hcancelled] using hsucceeded hne
  · exact hsucceeded

def refinedRun : List (Label Unit Unit) :=
  [.deliver .main (), .process .main () .get, .process .main () .claim,
    .process .main () (.execute () true), .process .main () .finalise,
    .process .main () .notify, .process .main () .announce,
    .deliver .bbox (), .process .bbox () .get, .process .bbox () .claim,
    .process .bbox () (.execute () false), .process .bbox () .finalise,
    .process .bbox () .notify]

theorem webhooks_at_most_once_refinedRun :
    ∃ state : AsyncPath Unit Unit Unit,
      Reaches {} id 0 (some "https://example.com") refinedRun state ∧
        deliveries .main state.history = [()] ∧
        deliveries .bbox state.history = [()] ∧
        WebhooksAtMostOnce id state := by
  have hrun : (LabelledStep.run (step {} id)
      (submitted 0 (some "https://example.com") : AsyncPath Unit Unit Unit)
      refinedRun).map (fun state => (deliveries .main state.history,
        deliveries .bbox state.history)) = some ([()], [()]) := by
    decide
  obtain ⟨state, hstate, hdeliveries⟩ := Option.map_eq_some_iff.mp hrun
  rw [Prod.mk.injEq] at hdeliveries
  exact ⟨state, hstate, hdeliveries.1, hdeliveries.2,
    webhooks_at_most_once {} id 0 _ refinedRun state hstate⟩

end

end AsyncPath

end Flydocs
