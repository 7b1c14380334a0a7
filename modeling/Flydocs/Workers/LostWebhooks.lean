import Flydocs.Workers.Webhooks

/-!
# Lost completion webhooks

No query of a reaper or of the poll sees a row whose main leg is terminal, so
the webhook of a worker that stops between its terminal update and the
publisher is never sent.  Every other way through the handler sends it.
-/

namespace Flydocs

open Foundation ExtractionRepository Extraction

variable {Worker Json Result : Type*}

namespace AsyncPath

/-! ## Quiescent states -/

/-- Nobody handles the row, nothing is in flight and no query selects it. -/
structure Quiescent (settings : IDPSettings)
    (state : AsyncPath Worker Json Result) : Prop where
  process_eq : ∀ leg worker, state.process leg worker = none
  inFlight_eq : ∀ leg, (state.channel leg).inFlight = 0
  delayed_eq : ∀ leg, (state.channel leg).delayed = []
  reaping_eq : ∀ leg, (state.channel leg).reaping = 0
  not_swept : ∀ query : Sweep,
    query.selects settings state.now state.row = false
  not_polled : settings.pollSelects state.now state.row = false

/-! ## The callback URL never changes -/

structure Addressed (callbackUrl : Option String)
    (state : AsyncPath Worker Json Result) : Prop where
  row_eq : state.row.callbackUrl = callbackUrl
  claimed_eq : ∀ (leg : Leg) (worker : Worker)
    (process : Process Json Result) (claimed : Extraction Json),
    state.process leg worker = some process →
      process.claimed = some claimed → claimed.callbackUrl = callbackUrl

theorem callbackUrl_values (now : Int) (call : Call Json)
    (row : Extraction Json) :
    ((call.update now).values row).callbackUrl = row.callbackUrl := by
  cases call <;> rfl

theorem callbackUrl_apply (now : Int) (call : Call Json)
    (row : Extraction Json) :
    ((call.update now).apply row).callbackUrl = row.callbackUrl := by
  rcases ConditionalUpdate.apply_cases (call.update now) row with
    ⟨-, -, happly⟩ | ⟨-, -, happly⟩
  · rw [happly]
  · rw [happly]
    exact callbackUrl_values now call row

theorem callbackUrl_handled {settings : IDPSettings}
    {modelDump : Result → Json} {leg : Leg} {now : Int} {worker : Worker}
    {row : Extraction Json} {process : Process Json Result}
    {action : Action Result} {effect : Effect Worker Json Result}
    (h : Handled settings modelDump leg now worker row process action
      effect) :
    effect.row.callbackUrl = row.callbackUrl := by
  rcases h.writes with ⟨hrow, -⟩ | ⟨call, -, hreturn, -⟩
  · rw [hrow]
  · rw [← ConditionalUpdate.apply_of_returning hreturn]
    exact callbackUrl_apply now call row

variable [DecidableEq Worker] {settings : IDPSettings}
  {modelDump : Result → Json} {callbackUrl : Option String}
  {state next : AsyncPath Worker Json Result} {label : Label Worker Result}

theorem addressed_step (h : Addressed callbackUrl state)
    (hstep : step settings modelDump state label = some next) :
    Addressed callbackUrl next := by
  cases stepped hstep with
  | ticked | carried | swept => exact ⟨h.row_eq, h.claimed_eq⟩
  | cancelled =>
      exact ⟨(callbackUrl_apply _ _ _).trans h.row_eq, h.claimed_eq⟩
  | delivered | polled =>
      refine ⟨h.row_eq, ?_⟩
      intro leg worker process claimed hprocess hclaimed
      rcases received_cases hprocess with hreceived | hframe
      · subst hreceived
        cases hclaimed
      · exact h.claimed_eq leg worker process claimed hframe hclaimed
  | @processed leg worker action process effect hprocess hhandled =>
      have hrow : effect.row.callbackUrl = callbackUrl :=
        (callbackUrl_handled hhandled).trans h.row_eq
      refine ⟨hrow, ?_⟩
      intro other agent after claimed hafter hclaimed
      simp only [AsyncPath.after] at hafter
      rcases state.setProcess_cases leg other worker agent effect.next with
        ⟨rfl, rfl, hsame⟩ | ⟨-, hframe⟩
      · rw [hsame] at hafter
        rcases hhandled.starts_or_keeps with hstarts | hkeeps
        · rw [hstarts.next_eq] at hafter
          cases hafter
          cases hclaimed
          exact hrow
        · have hheld := hkeeps.next_claimed claimed
            (by simp [hafter, hclaimed])
          exact h.claimed_eq other agent process claimed hprocess hheld
      · rw [hframe] at hafter
        exact h.claimed_eq other agent after claimed hafter hclaimed

/-! ## The ledger along a run -/

theorem release_iff_drops {leg : Leg} {event : Ledger.Event Worker}
    (haddressed : Addressed callbackUrl state)
    (hurl : Projector.truthy callbackUrl = true)
    (hbooked : Booked leg state label next event) :
    (∃ worker, event = .release worker) ↔ state.drops leg label = true := by
  constructor
  · intro hrelease
    rcases hbooked.drops_of_release hrelease with
      hdrops | ⟨worker, process, claimed, hprocess, hclaimed, hfalsy⟩
    · exact hdrops
    · rw [haddressed.claimed_eq leg worker process claimed hprocess hclaimed,
        hurl] at hfalsy
      cases hfalsy
  · exact hbooked.release_of_drops

theorem trace_of_run (leg : Leg) {labels : List (Label Worker Result)}
    {finish : AsyncPath Worker Json Result}
    (haccounted : state.Accounted) (haddressed : Addressed callbackUrl state)
    (hurl : Projector.truthy callbackUrl = true)
    (hrun : LabelledStep.run (step settings modelDump) state labels =
      some finish) :
    ∃ events, Ledger.Trace (state.ledger leg) events (finish.ledger leg) ∧
      ((∀ worker, Ledger.Event.release worker ∉ events) ↔
        LabelledStep.EveryStep (step settings modelDump)
          (fun state label => state.drops leg label = false) state labels) := by
  induction labels generalizing state with
  | nil =>
      cases hrun
      exact ⟨[], .nil _, by simp [LabelledStep.EveryStep]⟩
  | cons label labels ih =>
      obtain ⟨next, hstep, hrest⟩ := LabelledStep.run_cons_eq_some.mp hrun
      obtain ⟨event, hbooked⟩ := booked_step leg haccounted hstep
      obtain ⟨events, htrace, hiff⟩ := ih (accounted_step haccounted hstep)
        (addressed_step haddressed hstep) hrest
      refine ⟨event :: events, ?_, ?_⟩
      · refine .cons hbooked.allowed ?_
        rwa [hbooked.ledger_eq] at htrace
      · have hrelease := release_iff_drops haddressed hurl hbooked
        have hhead : (∀ worker, .release worker ≠ event) ↔
            state.drops leg label = false := by
          rw [← Bool.not_eq_true, ← hrelease]
          simp only [not_exists, ne_comm, ne_eq]
        rw [LabelledStep.everyStep_cons_iff hstep, ← hiff, ← hhead]
        simp only [List.mem_cons, not_or, forall_and]

/--
In a quiescent state with a succeeded or failed row and a callback URL, the
completion webhook was initiated exactly when no step of the run stopped the
worker that owed it.
-/
theorem webhook_initiated_iff (settings : IDPSettings)
    (modelDump : Result → Json) (submittedAt : Int)
    (callbackUrl : Option String) (labels : List (Label Worker Result))
    (state : AsyncPath Worker Json Result)
    (hreaches : Reaches settings modelDump submittedAt callbackUrl labels
      state)
    (hquiescent : Quiescent settings state)
    (hterminal : state.row.status = .succeeded ∨ state.row.status = .failed)
    (hurl : Projector.truthy callbackUrl = true) :
    deliveries .main state.history ≠ [] ↔
      LabelledStep.EveryStep (step settings modelDump)
        (fun state label => state.drops .main label = false)
        (submitted submittedAt callbackUrl) labels := by
  obtain ⟨events, htrace, hiff⟩ := trace_of_run .main
    (submitted_accounted submittedAt callbackUrl)
    ⟨rfl, by simp [submitted]⟩ hurl hreaches
  rw [submitted_ledger_valid] at htrace
  rw [← hiff]
  refine htrace.discharged_iff (.inl rfl) ?_ ?_
  · simpa [ledger, Leg.settled] using hterminal
  · intro worker
    simp [ledger, owes, hquiescent.process_eq]

/-! ## A crash after the terminal update -/

def succeededThen (last : List (Action Unit)) : List (Label Unit Unit) :=
  [.deliver .main (), .process .main () .get, .process .main () .claim,
    .process .main () (.execute () false), .process .main () .finalise] ++
    last.map (.process .main ())

structure Abandoned (state : AsyncPath Unit Unit Unit) : Prop where
  quiescent : Quiescent {} state
  succeeded : state.row.status = .succeeded

theorem abandoned_of_run {labels : List (Label Unit Unit)}
    {state : AsyncPath Unit Unit Unit}
    (hrun : Reaches {} id 0 (some "https://example.com") labels state)
    (hfinal : (LabelledStep.run (step {} id)
      (submitted 0 (some "https://example.com") : AsyncPath Unit Unit Unit)
      labels).map (fun state => ((state.process .main ()).isNone,
        (state.process .bbox ()).isNone, state.channel .main,
        state.channel .bbox, state.row.status,
        state.row.postProcessingBboxStatus)) =
      some (true, true, ⟨true, 0, [], 0⟩, .idle, .succeeded, none)) :
    Abandoned state := by
  unfold Reaches at hrun
  rw [hrun] at hfinal
  simp only [Option.map_some, Option.some.injEq, Prod.mk.injEq,
    Option.isNone_iff_eq_none] at hfinal
  obtain ⟨hmain, hbbox, hchannel, hidle, hstatus, hleg⟩ := hfinal
  refine ⟨?_, hstatus⟩
  constructor
  · intro leg worker
    cases leg with
    | main => exact hmain
    | bbox => exact hbbox
  · intro leg
    cases leg <;> simp [hchannel, hidle, Channel.idle]
  · intro leg
    cases leg <;> simp [hchannel, hidle, Channel.idle]
  · intro leg
    cases leg <;> simp [hchannel, hidle, Channel.idle]
  · intro query
    cases query <;>
      simp [Sweep.selects, findStaleRunning, findStaleQueued,
        findStaleBboxRefining, findPendingBboxRevive, hstatus, hleg]
  · simp [IDPSettings.pollSelects, findStaleQueued, hstatus]

theorem webhook_initiated_iff_undisturbed :
    ∃ state : AsyncPath Unit Unit Unit,
      Reaches {} id 0 (some "https://example.com")
          (succeededThen [.notify, .announce]) state ∧
        deliveries .main state.history ≠ [] := by
  have hrun : (LabelledStep.run (step {} id)
      (submitted 0 (some "https://example.com") : AsyncPath Unit Unit Unit)
      (succeededThen [.notify, .announce])).isSome = true := by
    decide
  obtain ⟨state, hstate⟩ := Option.isSome_iff_exists.mp hrun
  have habandoned := abandoned_of_run hstate rfl
  refine ⟨state, hstate, ?_⟩
  exact (webhook_initiated_iff {} id 0 _ _ state hstate habandoned.quiescent
    (.inl habandoned.succeeded) (by decide)).mpr (by decide)

theorem crash_loses_webhook :
    ¬ ∀ (labels : List (Label Unit Unit)) (state : AsyncPath Unit Unit Unit),
      Reaches {} id 0 (some "https://example.com") labels state →
        Quiescent {} state →
        state.row.status = .succeeded ∨ state.row.status = .failed →
        deliveries .main state.history ≠ [] := by
  intro hclaim
  have hrun : (LabelledStep.run (step {} id)
      (submitted 0 (some "https://example.com") : AsyncPath Unit Unit Unit)
      (succeededThen [.crash])).map (fun state =>
        deliveries .main state.history) = some [] := by
    decide
  obtain ⟨state, hstate, hnone⟩ := Option.map_eq_some_iff.mp hrun
  have habandoned := abandoned_of_run hstate rfl
  exact hclaim _ state hstate habandoned.quiescent
    (.inl habandoned.succeeded) hnone

end AsyncPath

end Flydocs
