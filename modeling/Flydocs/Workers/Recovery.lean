import Flydocs.Workers.RowHistory
import Flydocs.Workers.Webhooks

/-!
# Recovery

However an extraction was left, by crashes, lost events or retries without end,
it can still be brought to its end: once the clock has passed the thresholds a
reaper selects an open leg, and a worker that meets no further failure claims,
executes, finalises and announces it.
-/

namespace Flydocs

open Foundation ExtractionRepository Extraction

variable {Worker Json Result : Type*}

/-! ## Open legs -/

namespace Leg

def opened (row : Extraction Json) : Leg → Bool
  | main => !row.status.isTerminal
  | bbox => row.postProcessingBboxStatus.any fun leg => !leg.isTerminal

def reviving (row : Extraction Json) : Leg → Sweep
  | main =>
      if row.status = .running then .staleRunning else .orphanQueued
  | bbox =>
      if row.postProcessingBboxStatus = some .running then .staleRunningBbox
      else .orphanPendingBbox

@[simp] theorem leg_reviving (row : Extraction Json) (leg : Leg) :
    (leg.reviving row).leg = leg := by
  cases leg <;> simp only [reviving] <;> split <;> rfl

theorem opened_main {row : Extraction Json} (h : main.opened row = true) :
    row.status = .queued ∨ row.status = .running := by
  cases hstatus : row.status <;>
    simp_all [opened, ExtractionStatus.isTerminal]

theorem opened_bbox {row : Extraction Json} (h : bbox.opened row = true) :
    row.postProcessingBboxStatus = some .pending ∨
      row.postProcessingBboxStatus = some .running := by
  cases hleg : row.postProcessingBboxStatus with
  | none => simp [opened, hleg] at h
  | some leg =>
      cases leg <;> simp_all [opened, PostProcessingStatus.isTerminal]

end Leg

theorem settled_of_not_opened {row : Extraction Json}
    (h : ∀ leg : Leg, leg.opened row = false) : Settled row := by
  refine ⟨by simpa [Leg.opened] using h .main, fun leg hleg => ?_⟩
  simpa [Leg.opened, Option.mem_def.mp hleg] using h .bbox

/-- A leg that nobody writes is selected after a while and can be claimed. -/
theorem selects_reviving {settings : IDPSettings} {row : Extraction Json}
    {last now : Int} {leg : Leg} (hwell : row.WellFormed)
    (hwritten : row.WrittenBy last)
    (hnow : last + settings.largestThreshold < now)
    (hopened : leg.opened row = true) :
    (leg.reviving row).selects settings now row = true ∧
      (((leg.claimCall settings).update now).returning row).isSome = true := by
  cases leg with
  | main =>
      rcases Leg.opened_main hopened with hstatus | hstatus
      · have hselect := findStaleQueued_of_frozen hwritten hnow hstatus
        exact ⟨by simpa [Leg.reviving, Sweep.selects, hstatus] using hselect,
          markRunning_of_queued now settings.jobRunLeaseS hstatus⟩
      · have hselect := findStaleRunning_of_frozen hwell hwritten hnow hstatus
        exact ⟨by simpa [Leg.reviving, Sweep.selects, hstatus] using hselect,
          markRunning_of_findStaleRunning hselect (Int.le_refl now)⟩
  | bbox =>
      have hpresent : row.postProcessingBboxStatus ≠ none := by
        rcases Leg.opened_bbox hopened with hleg | hleg <;> simp [hleg]
      have hstatus := hwell.bbox_only_succeeded
        (Option.isSome_iff_ne_none.mpr hpresent)
      rcases Leg.opened_bbox hopened with hleg | hleg
      · have hselect :=
          findPendingBboxRevive_of_frozen hwell hwritten hnow hstatus hleg
        exact ⟨by simpa [Leg.reviving, Sweep.selects, hleg] using hselect,
          claimBboxRefinement_of_pending now settings.bboxRefineLeaseS hstatus
            hleg⟩
      · have hselect :=
          findStaleBboxRefining_of_frozen hwell hwritten hnow hleg
        exact ⟨by simpa [Leg.reviving, Sweep.selects, hleg] using hselect,
          claimBboxRefinement_of_findStaleBboxRefining hstatus hselect
            (Int.le_refl now)⟩

namespace AsyncPath

/-! ## Dated rows -/

structure Dated (state : AsyncPath Worker Json Result) : Prop where
  wellFormed : state.row.WellFormed
  writtenBy : state.row.WrittenBy state.now

theorem submitted_dated (submittedAt : Int) (callbackUrl : Option String) :
    Dated (submitted submittedAt callbackUrl :
      AsyncPath Worker Json Result) :=
  ⟨submitted_wellFormed submittedAt callbackUrl,
    submitted_writtenBy submittedAt callbackUrl⟩

variable [DecidableEq Worker]

theorem now_le_step {settings : IDPSettings} {modelDump : Result → Json}
    {state next : AsyncPath Worker Json Result} {label : Label Worker Result}
    (hstep : step settings modelDump state label = some next) :
    state.now ≤ next.now := by
  cases stepped hstep with
  | ticked => exact Int.le_add_of_nonneg_right (Int.natCast_nonneg _)
  | processed | cancelled | delivered | polled | carried | swept =>
      exact Int.le_refl _

theorem dated_step (settings : IDPSettings) (modelDump : Result → Json)
    (state : AsyncPath Worker Json Result) (label : Label Worker Result)
    (next : AsyncPath Worker Json Result) (h : Dated state)
    (hstep : step settings modelDump state label = some next) :
    Dated next := by
  refine ⟨wellFormed_step h.wellFormed hstep, ?_⟩
  have hnow := now_le_step hstep
  rcases row_step hstep with hrow | ⟨call, hreturn⟩
  · rw [hrow]
    exact h.writtenBy.mono hnow
  · exact ((keeps_writtenBy state.now call).returning h.writtenBy
      hreturn).mono hnow

/-! ## What a recovery uses -/

/-- Moves of the one worker, the sweeps of the reapers, their events and time. -/
def OwnMove (worker : Worker) : Label Worker Result → Prop
  | .process _ other _ | .deliver _ other => other = worker
  | .bus _ action => action = .republish
  | .tick _ | .sweep _ => True
  | .poll _ | .cancel => False

/-! ## The event of a leg -/

/-- Nothing but the bus and the workers has moved. -/
structure Alike (state next : AsyncPath Worker Json Result) : Prop where
  row_eq : next.row = state.row
  now_eq : next.now = state.now
  history_eq : next.history = state.history

section Work

variable (settings : IDPSettings) (modelDump : Result → Json)
  {state : AsyncPath Worker Json Result} {leg : Leg} {worker : Worker}

theorem step_sweep {query : Sweep}
    (hselect : query.selects settings state.now state.row = true) :
    ∃ next, step settings modelDump state (.sweep query) = some next ∧
      Alike state next ∧ next.process = state.process ∧
      0 < (next.channel query.leg).reaping := by
  refine ⟨_, if_pos hselect, ⟨rfl, rfl, rfl⟩, rfl, ?_⟩
  simp [setChannel]

theorem step_republish (hreaping : 0 < (state.channel leg).reaping) :
    ∃ next, step settings modelDump state (.bus leg .republish) = some next ∧
      Alike state next ∧ next.process = state.process ∧
      0 < (next.channel leg).inFlight := by
  refine ⟨{ state with
    channel := state.setChannel leg
      { state.channel leg with
        reaping := (state.channel leg).reaping - 1 }.publish },
    ?_, ⟨rfl, rfl, rfl⟩, rfl, ?_⟩
  · simp [step, Channel.step, hreaping]
  · simp [setChannel, Channel.publish]

theorem step_deliver (hinFlight : 0 < (state.channel leg).inFlight)
    (hidle : state.process leg worker = none) :
    ∃ next, step settings modelDump state (.deliver leg worker) = some next ∧
      Alike state next ∧ next.process leg worker = some .received := by
  refine ⟨_, if_pos ⟨hinFlight, by simp [hidle]⟩, ⟨rfl, rfl, rfl⟩, ?_⟩
  simp [setProcess]

@[simp] theorem after_process (state : AsyncPath Worker Json Result)
    (leg : Leg) (worker : Worker) (effect : Effect Worker Json Result) :
    (state.after leg worker effect).process leg worker = effect.next := by
  simp [after, setProcess]

theorem step_process {process : Process Json Result} {action : Action Result}
    {effect : Effect Worker Json Result}
    (hprocess : state.process leg worker = some process)
    (heffect : processStep settings modelDump leg state.now worker state.row
      process action = some effect) :
    step settings modelDump state (.process leg worker action) =
      some (state.after leg worker effect) := by
  simp [step, hprocess, heffect]

theorem leads_idle (state : AsyncPath Worker Json Result) (leg : Leg)
    (worker : Worker) :
    ∃ after, LabelledStep.Leads (step settings modelDump) (OwnMove worker)
        state after ∧
      Alike state after ∧ after.process leg worker = none := by
  cases hprocess : state.process leg worker with
  | none => exact ⟨state, .refl _ _ state, ⟨rfl, rfl, rfl⟩, hprocess⟩
  | some process =>
      have heffect : processStep settings modelDump leg state.now worker
          state.row process .crash = some (.goTo state.row none) := by
        cases leg <;> cases process <;> rfl
      exact ⟨_, LabelledStep.leads_of_step
          (step_process settings modelDump hprocess heffect) rfl,
        ⟨rfl, rfl, rfl⟩, after_process state leg worker _⟩

theorem leads_received (worker : Worker) (hdated : Dated state)
    (hopened : leg.opened state.row = true) :
    ∃ after claimed, LabelledStep.Leads (step settings modelDump)
        (OwnMove worker) state after ∧
      after.row = state.row ∧ after.history = state.history ∧
      after.process leg worker = some .received ∧
      ((leg.claimCall settings).update after.now).returning after.row =
        some claimed := by
  obtain ⟨idle, hidle, halike, hfree⟩ :=
    leads_idle settings modelDump state leg worker
  -- long enough for every threshold
  let elapsed := (settings.largestThreshold + 1).toNat
  let later := { idle with now := idle.now + elapsed }
  have htick : step settings modelDump idle (.tick elapsed) = some later := rfl
  have hnow : state.now + settings.largestThreshold < idle.now + elapsed := by
    rw [halike.now_eq]
    omega
  have hrevive :=
    selects_reviving hdated.wellFormed hdated.writtenBy hnow hopened
  rw [← halike.row_eq] at hrevive
  obtain ⟨hselect, hclaim⟩ :
      (leg.reviving later.row).selects settings later.now later.row = true ∧
        (((leg.claimCall settings).update later.now).returning
          later.row).isSome = true := hrevive
  obtain ⟨swept, hsweep, hswept, hprocess, hreaping⟩ :=
    step_sweep settings modelDump hselect
  rw [Leg.leg_reviving] at hreaping
  obtain ⟨published, hrepublish, hpublished, hprocess', hinFlight⟩ :=
    step_republish settings modelDump hreaping
  have hstill : published.process leg worker = none := by
    rw [hprocess', hprocess]
    exact hfree
  obtain ⟨received, hdeliver, hreceived, hevent⟩ :=
    step_deliver settings modelDump hinFlight hstill
  obtain ⟨claimed, hclaimed⟩ := Option.isSome_iff_exists.mp hclaim
  have hrow : received.row = idle.row := by
    rw [hreceived.row_eq, hpublished.row_eq, hswept.row_eq]
  have htime : received.now = idle.now + elapsed := by
    rw [hreceived.now_eq, hpublished.now_eq, hswept.now_eq]
  refine ⟨received, claimed, ?_, hrow.trans halike.row_eq, ?_, hevent, ?_⟩
  · exact hidle.trans (LabelledStep.leads_cons htick trivial
      (LabelledStep.leads_cons hsweep trivial
        (LabelledStep.leads_cons hrepublish rfl
          (LabelledStep.leads_of_step hdeliver rfl))))
  · rw [hreceived.history_eq, hpublished.history_eq, hswept.history_eq]
    exact halike.history_eq
  · rwa [hrow, htime]

end Work

/-! ## One worker at work -/

def wants (wantsBboxRefine : Bool) : Leg → Bool
  | .main => wantsBboxRefine
  | .bbox => false

section Task

variable {settings : IDPSettings} {modelDump : Result → Json} {leg : Leg}
  {now : Int} {worker : Worker} {row claimed finalised : Extraction Json}
  {result : Result} {wantsBboxRefine : Bool}

omit [DecidableEq Worker]

theorem processStep_get (hopened : leg.opened row = true) :
    processStep settings modelDump leg now worker row .received .get =
      some (.goTo row (some .loaded)) := by
  cases leg with
  | main =>
      have hopen : row.status.isTerminal = false := by
        simpa [Leg.opened] using hopened
      simp [processStep, ExtractionWorker.process, hopen]
  | bbox => rfl

theorem processStep_claim
    (hclaim : ((leg.claimCall settings).update now).returning row =
      some claimed) :
    processStep settings modelDump leg now worker row .loaded .claim =
      some
        { row := claimed
          next := some (.executing claimed)
          observed :=
            [.returned now worker (leg.claimCall settings) claimed] } := by
  cases leg <;>
    simp only [Leg.claimCall] at hclaim <;>
    simp [processStep, ExtractionWorker.process, BboxRefineWorker.process,
      Effect.attempt, Leg.claimCall, hclaim]

theorem processStep_execute :
    processStep settings modelDump leg now worker row (.executing claimed)
        (.execute result wantsBboxRefine) =
      some (.goTo row (some (.finalising claimed result
        (wants wantsBboxRefine leg)))) := by
  cases leg <;> rfl

theorem processStep_finalise
    (hfinalise : ((leg.finaliseCall (modelDump result)
      wantsBboxRefine).update now).returning row = some finalised) :
    processStep settings modelDump leg now worker row
        (.finalising claimed result wantsBboxRefine) .finalise =
      some
        { row := finalised
          next := some (.notifying claimed finalised result wantsBboxRefine)
          observed :=
            [.returned now worker
              (leg.finaliseCall (modelDump result) wantsBboxRefine)
              finalised] } := by
  cases leg <;>
    simp only [Leg.finaliseCall] at hfinalise <;>
    simp [processStep, ExtractionWorker.process, BboxRefineWorker.process,
      Effect.attempt, Leg.finaliseCall, hfinalise]

theorem processStep_notify :
    processStep settings modelDump leg now worker row
        (.notifying claimed finalised result wantsBboxRefine) .notify =
      some (.fireWebhook leg worker row claimed.callbackUrl
        (completionEnvelope leg now finalised (some result))
        (some (.notified claimed finalised wantsBboxRefine))) := by
  cases leg <;> rfl

end Task

section Work

variable {settings : IDPSettings} {modelDump : Result → Json}
  {state : AsyncPath Worker Json Result} {leg : Leg} {worker : Worker}

theorem leads_finalised {claimed finalised : Extraction Json} (result : Result)
    (wantsBboxRefine : Bool)
    (hreceived : state.process leg worker = some .received)
    (hopened : leg.opened state.row = true)
    (hclaim : ((leg.claimCall settings).update state.now).returning state.row =
      some claimed)
    (hfinalise : ((leg.finaliseCall (modelDump result)
        (wants wantsBboxRefine leg)).update state.now).returning claimed =
      some finalised) :
    ∃ after told, LabelledStep.Leads (step settings modelDump)
        (OwnMove worker) state after ∧
      after.row = finalised ∧ after.history = told ++ state.history ∧
      (Projector.truthy claimed.callbackUrl = true →
        worker ∈ deliveries leg told) := by
  let loaded := state.after leg worker (.goTo state.row (some .loaded))
  have hget : step settings modelDump state (.process leg worker .get) =
      some loaded :=
    step_process settings modelDump hreceived (processStep_get hopened)
  let executing := loaded.after leg worker
    { row := claimed
      next := some (.executing claimed)
      observed :=
        [.returned state.now worker (leg.claimCall settings) claimed] }
  have hclaimed : step settings modelDump loaded (.process leg worker .claim) =
      some executing :=
    step_process settings modelDump (after_process _ _ _ _)
      (processStep_claim hclaim)
  let finalising := executing.after leg worker
    (.goTo claimed (some (.finalising claimed result
      (wants wantsBboxRefine leg))))
  have hexecute : step settings modelDump executing
      (.process leg worker (.execute result wantsBboxRefine)) =
        some finalising :=
    step_process settings modelDump (after_process _ _ _ _) processStep_execute
  let notifying := finalising.after leg worker
    { row := finalised
      next := some (.notifying claimed finalised result
        (wants wantsBboxRefine leg))
      observed :=
        [.returned state.now worker
          (leg.finaliseCall (modelDump result) (wants wantsBboxRefine leg))
          finalised] }
  have hfinal : step settings modelDump finalising
      (.process leg worker .finalise) = some notifying :=
    step_process settings modelDump (after_process _ _ _ _)
      (processStep_finalise hfinalise)
  let webhook : Effect Worker Json Result :=
    .fireWebhook leg worker finalised claimed.callbackUrl
      (completionEnvelope leg state.now finalised (some result))
      (some (.notified claimed finalised (wants wantsBboxRefine leg)))
  have hnotify : step settings modelDump notifying
      (.process leg worker .notify) =
        some (notifying.after leg worker webhook) :=
    step_process settings modelDump (after_process _ _ _ _) processStep_notify
  refine ⟨notifying.after leg worker webhook, webhook.observed ++
    [.returned state.now worker
        (leg.finaliseCall (modelDump result) (wants wantsBboxRefine leg))
        finalised,
      .returned state.now worker (leg.claimCall settings) claimed],
    ?_, rfl, ?_, ?_⟩
  · exact LabelledStep.leads_cons hget rfl
      (LabelledStep.leads_cons hclaimed rfl
        (LabelledStep.leads_cons hexecute rfl
          (LabelledStep.leads_cons hfinal rfl
            (LabelledStep.leads_of_step hnotify rfl))))
  · simp [after, Effect.goTo, notifying, finalising, executing, loaded]
  · intro htruthy
    simp [webhook, Effect.fireWebhook, htruthy, deliveries,
      Observation.deliveredBy]

structure Finished (modelDump : Result → Json) (leg : Leg) (worker : Worker)
    (result : Result) (state after : AsyncPath Worker Json Result) : Prop where
  dated : Dated after
  settled : leg.settled after.row = true
  closed : leg.opened after.row = false
  resultJson_eq : after.row.resultJson = some (modelDump result)
  callbackUrl_eq : after.row.callbackUrl = state.row.callbackUrl
  history_eq : ∃ told, after.history = told ++ state.history ∧
    (Projector.truthy state.row.callbackUrl = true →
      worker ∈ deliveries leg told)

theorem exists_finalised {now : Int} {row claimed : Extraction Json}
    (result : Json) (wantsBboxRefine : Bool) (hopened : leg.opened row = true)
    (hwell : row.WellFormed)
    (hclaim : ((leg.claimCall settings).update now).returning row =
      some claimed) :
    ∃ finalised,
      ((leg.finaliseCall result wantsBboxRefine).update now).returning claimed =
          some finalised ∧
        leg.settled finalised = true ∧ leg.opened finalised = false ∧
        finalised.resultJson = some result ∧
        finalised.callbackUrl = row.callbackUrl ∧
        (leg = .bbox → finalised.status = row.status) ∧
        (leg = .main → Leg.bbox.settled finalised = false) := by
  obtain ⟨hguard, rfl⟩ := ConditionalUpdate.returning_eq_some_iff.mp hclaim
  cases leg with
  | main =>
      have hleg : row.postProcessingBboxStatus = none := by
        refine hwell.bbox_eq_none ?_
        rcases Leg.opened_main hopened with hstatus | hstatus <;>
          simp [hstatus]
      refine ⟨_, ConditionalUpdate.returning_eq_some_iff.mpr ⟨?_, rfl⟩, ?_⟩
      · rfl
      · cases wantsBboxRefine <;>
          simp [Leg.settled, Leg.opened, Leg.finaliseCall, Leg.claimCall,
            Call.update, markSucceeded, markRunning, hleg,
            ExtractionStatus.isTerminal]
  | bbox =>
      have hstatus : row.status = .succeeded :=
        (claimBboxRefinement_guard hguard).1
      refine ⟨_, ConditionalUpdate.returning_eq_some_iff.mpr ⟨?_, rfl⟩, ?_⟩
      · exact bboxRunning_iff.mpr ⟨hstatus, rfl⟩
      · simp [Leg.settled, Leg.opened, Leg.finaliseCall, Leg.claimCall,
          Call.update, completeBboxRefinement, claimBboxRefinement,
          PostProcessingStatus.isTerminal]

theorem exists_finished (settings : IDPSettings) (modelDump : Result → Json)
    (worker : Worker) (result : Result) (wantsBboxRefine : Bool)
    (hdated : Dated state)
    (hopened : leg.opened state.row = true) :
    ∃ after, LabelledStep.Leads (step settings modelDump) (OwnMove worker)
        state after ∧
      Finished modelDump leg worker result state after ∧
      (leg = .bbox → after.row.status = state.row.status) ∧
      (leg = .main → Leg.bbox.settled after.row = false) := by
  obtain ⟨event, claimed, hevent, hrow, hhistory, hreceived, hclaim⟩ :=
    leads_received settings modelDump worker hdated hopened
  rw [← hrow] at hopened
  have hwell : event.row.WellFormed := hrow ▸ hdated.wellFormed
  obtain ⟨finalised, hfinalise, hsettled, hclosed, hresult, hurl, hstatus,
    hbbox⟩ := exists_finalised (modelDump result) (wants wantsBboxRefine leg)
      hopened hwell hclaim
  obtain ⟨after, told, hafter, rfl, htold, hmem⟩ :=
    leads_finalised result wantsBboxRefine hreceived hopened hclaim hfinalise
  have hleads := hevent.trans hafter
  have hclaimed : claimed.callbackUrl = state.row.callbackUrl := by
    obtain ⟨-, rfl⟩ := ConditionalUpdate.returning_eq_some_iff.mp hclaim
    rw [← hrow]
    cases leg <;> rfl
  refine ⟨after, hleads, ⟨?_, hsettled, hclosed, hresult, ?_, told, ?_, ?_⟩,
    ?_, hbbox⟩
  · obtain ⟨labels, -, hlabels⟩ := hleads
    exact LabelledStep.run_invariant Dated (dated_step settings modelDump)
      hdated hlabels
  · rw [hurl, hrow]
  · rw [htold, hhistory]
  · rwa [← hclaimed]
  · intro hleg
    rw [hstatus hleg, hrow]

end Work

/-! ## Recovery -/

/-- Both legs are closed.  What the recovery has settled, it has announced. -/
structure Recovered (modelDump : Result → Json) (worker : Worker)
    (result : Result) (state after : AsyncPath Worker Json Result) : Prop where
  settled : Settled after.row
  legs_settled : ∀ leg : Leg, leg.opened state.row = true →
    leg.settled after.row = true ∧
      after.row.resultJson = some (modelDump result)
  announced : ∀ leg : Leg, leg.settled state.row = false →
    leg.settled after.row = true →
      Projector.truthy state.row.callbackUrl = true →
        worker ∈ deliveries leg after.history
  history_eq : ∃ told, after.history = told ++ state.history

section

variable {modelDump : Result → Json} {state : AsyncPath Worker Json Result}

theorem exists_recovered_of_closed (settings : IDPSettings) (worker : Worker)
    (result : Result) (hdated : Dated state)
    (hclosed : Leg.main.opened state.row = false) :
    ∃ after, LabelledStep.Leads (step settings modelDump) (OwnMove worker)
        state after ∧
      Recovered modelDump worker result state after ∧
      after.row.status = state.row.status ∧
      (after.row.resultJson = state.row.resultJson ∨
        after.row.resultJson = some (modelDump result)) := by
  cases hopened : Leg.bbox.opened state.row with
  | false =>
      have hnone (leg : Leg) : leg.opened state.row = false := by
        cases leg
        · exact hclosed
        · exact hopened
      refine ⟨state, .refl _ _ state,
        ⟨settled_of_not_opened hnone, ?_, ?_, [], rfl⟩, rfl, .inl rfl⟩
      · intro leg hleg
        rw [hnone leg] at hleg
        cases hleg
      · intro leg hbefore hafter
        rw [hbefore] at hafter
        cases hafter
  | true =>
      obtain ⟨after, hleads, hfinished, hstatus, -⟩ :=
        exists_finished settings modelDump worker result false hdated hopened
      obtain ⟨told, hhistory, hmem⟩ := hfinished.history_eq
      have hsame : after.row.status = state.row.status := hstatus rfl
      refine ⟨after, hleads, ⟨settled_of_not_opened ?_, ?_, ?_, told,
        hhistory⟩, hsame, .inr hfinished.resultJson_eq⟩
      · intro leg
        cases leg
        · simpa [Leg.opened, hsame] using hclosed
        · exact hfinished.closed
      · intro leg hleg
        cases leg
        · rw [hclosed] at hleg
          cases hleg
        · exact ⟨hfinished.settled, hfinished.resultJson_eq⟩
      · intro leg hbefore hafter htruthy
        cases leg with
        | main =>
            rw [Leg.settled, hsame, ← Leg.settled, hbefore] at hafter
            cases hafter
        | bbox =>
            rw [hhistory, deliveries, List.filterMap_append]
            exact List.mem_append_left _ (hmem htruthy)

/--
From every state that any run has come to, whatever crashed or was lost on the
way, one worker can bring the extraction to its end by itself, and what it settles
then is announced.
-/
theorem recoverable (settings : IDPSettings) (modelDump : Result → Json)
    (submittedAt : Int) (callbackUrl : Option String)
    (labels : List (Label Worker Result)) (state : AsyncPath Worker Json Result)
    (hreaches : Reaches settings modelDump submittedAt callbackUrl labels state)
    (worker : Worker) (result : Result) (wantsBboxRefine : Bool) :
    ∃ after, LabelledStep.Leads (step settings modelDump) (OwnMove worker)
        state after ∧
      Recovered modelDump worker result state after := by
  have hdated : Dated state :=
    LabelledStep.run_invariant Dated (dated_step settings modelDump)
      (submitted_dated submittedAt callbackUrl) hreaches
  cases hopened : Leg.main.opened state.row with
  | false =>
      obtain ⟨after, hleads, hrecovered, -⟩ :=
        exists_recovered_of_closed settings worker result hdated hopened
      exact ⟨after, hleads, hrecovered⟩
  | true =>
      obtain ⟨middle, hmiddle, hfinished, -, hbbox⟩ :=
        exists_finished settings modelDump worker result wantsBboxRefine hdated
          hopened
      obtain ⟨after, hafter, hrecovered, hstatus, hresult⟩ :=
        exists_recovered_of_closed settings worker result hfinished.dated
          hfinished.closed
      obtain ⟨told, hhistory, hmem⟩ := hfinished.history_eq
      obtain ⟨later, hlater⟩ := hrecovered.history_eq
      have hmain : Leg.main.settled after.row = true := by
        rw [Leg.settled, hstatus]
        exact hfinished.settled
      rw [hfinished.resultJson_eq, or_self] at hresult
      refine ⟨after, hmiddle.trans hafter, hrecovered.settled, ?_, ?_,
        later ++ told, by rw [hlater, hhistory, List.append_assoc]⟩
      · intro leg hleg
        cases leg with
        | main => exact ⟨hmain, hresult⟩
        | bbox =>
            -- an open main leg has no other leg beside it yet
            have hnone : state.row.postProcessingBboxStatus = none := by
              refine hdated.wellFormed.bbox_eq_none ?_
              rcases Leg.opened_main hopened with h | h <;> simp [h]
            simp [Leg.opened, hnone] at hleg
      · intro leg hbefore hsettled htruthy
        cases leg with
        | main =>
            rw [hlater, hhistory, deliveries, List.filterMap_append,
              List.filterMap_append]
            exact List.mem_append_right _
              (List.mem_append_left _ (hmem htruthy))
        | bbox =>
            rw [← hfinished.callbackUrl_eq] at htruthy
            exact hrecovered.announced .bbox (hbbox rfl) hsettled htruthy

end

def crashedRun : List (Label Unit Unit) :=
  [.deliver .main (), .process .main () .get, .process .main () .claim,
    .process .main () .crash]

theorem recoverable_crashedRun :
    ∃ (state after : AsyncPath Unit Unit Unit),
      Reaches {} id 0 (some "https://example.com/hook") crashedRun state ∧
        state.row.status = .running ∧
        LabelledStep.Leads (step {} id) (OwnMove ()) state after ∧
        Recovered id () () state after := by
  have hrun : (LabelledStep.run (step {} id)
      (submitted 0 (some "https://example.com/hook") :
        AsyncPath Unit Unit Unit) crashedRun).map
        (fun state => state.row.status) = some .running := by
    decide
  obtain ⟨state, hreaches, hstatus⟩ := Option.map_eq_some_iff.mp hrun
  obtain ⟨after, hleads, hrecovered⟩ := recoverable {} id 0
    (some "https://example.com/hook") crashedRun state hreaches () () true
  exact ⟨state, after, hreaches, hstatus, hleads, hrecovered⟩

end AsyncPath

end Flydocs
