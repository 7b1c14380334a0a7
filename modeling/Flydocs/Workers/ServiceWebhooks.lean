import Flydocs.Workers.Announcements
import Flydocs.Workers.ServiceProjection

/-!
# The webhooks of all extractions

What holds of the webhooks of one extraction along its async path holds of each
extraction of the service: no extraction is told about twice, and none to the
receiver of another.
-/

namespace Flydocs

open Foundation ExtractionRepository Extraction

variable {Id Worker Json Result : Type*} [DecidableEq Id] [DecidableEq Worker]

namespace Service

structure Announced (modelDump : Result → Json)
    (state : Service Id Worker Json Result) (id : Id)
    (row : Extraction Json) : Prop where
  executions_eq : ∀ leg : Leg,
    executions leg (historyOf state.history id) = leg.counter row
  deliveries_le : ∀ leg : Leg,
    (deliveries leg (historyOf state.history id)).length ≤ 1
  settled : ∀ leg : Leg,
    deliveries leg (historyOf state.history id) ≠ [] → leg.settled row = true
  justified : AsyncPath.Justified modelDump (historyOf state.history id)
  directed : ∀ leg worker url envelope,
    (id, .delivered leg worker url envelope) ∈ state.history →
      row.callbackUrl = some url

omit [DecidableEq Worker] in
theorem mem_historyOf {history : List (Id × Observation Worker Json Result)}
    {id : Id} {observation : Observation Worker Json Result}
    (h : (id, observation) ∈ history) :
    observation ∈ historyOf history id :=
  List.mem_filterMap.mpr ⟨(id, observation), h, if_pos rfl⟩

/--
Across all extractions, batches and workers: each leg of each extraction is
announced once at most, to the URL it was submitted with, by a worker whose own
update settled it; and an id that was never submitted is never heard of.
-/
theorem announced (settings : ServiceSettings) (modelDump : Result → Json)
    (start : Int) (labels : List (Label Id Worker Result))
    (state : Service Id Worker Json Result)
    (hreaches : Reaches settings modelDump start labels state) (id : Id) :
    (state.table id = none → ∀ entry ∈ state.history, entry.1 ≠ id) ∧
      ∀ row, state.table id = some row → Announced modelDump state id row := by
  have horderly : Orderly state :=
    LabelledStep.run_invariant Orderly
      (fun _ _ _ h hstep => orderly_step h hstep) (empty_orderly start) hreaches
  refine ⟨?_, fun row hrow => ?_⟩
  · rintro hnone ⟨other, observation⟩ hmem rfl
    simpa [horderly.history_empty other hnone] using mem_historyOf hmem
  · obtain ⟨taken, htaken⟩ :=
      reaches_asyncPath settings modelDump start labels state id row hreaches
        hrow
    have h : AsyncPath.Announcing modelDump row.callbackUrl
        (state.shown id row) :=
      LabelledStep.run_invariant
        (AsyncPath.Announcing modelDump row.callbackUrl)
        (fun _ _ _ h hstep => AsyncPath.announcing_step h hstep)
        (AsyncPath.submitted_announcing modelDump row.submittedAt
          row.callbackUrl) htaken
    exact
      { executions_eq := h.kept.accounted.executions_eq
        deliveries_le := fun leg => (h.kept.sent leg).1
        settled := fun leg => (h.kept.sent leg).2
        justified := h.backed.justified
        directed := fun leg worker url envelope hmem =>
          h.directed leg worker url envelope (mem_historyOf hmem) }

theorem announced_batchedRun :
    ∃ (state : Service Bool Unit Unit Unit) (row : Extraction Unit),
      Reaches {} (fun result => result) 0 batchedRun state ∧ state.table false = some row ∧
        deliveries .main (historyOf state.history false) = [()] ∧
        Announced (fun result => result) state false row := by
  have hrun : (LabelledStep.run (step {} fun result => result)
      (empty 0 : Service Bool Unit Unit Unit) batchedRun).map
        (fun state => ((state.table false).isSome,
          deliveries .main (historyOf state.history false))) =
      some (true, [()]) := by
    decide
  obtain ⟨state, hreaches, hboth⟩ := Option.map_eq_some_iff.mp hrun
  obtain ⟨hsome, hdeliveries⟩ := Prod.mk.inj hboth
  obtain ⟨row, hrow⟩ := Option.isSome_iff_exists.mp hsome
  exact ⟨state, row, hreaches, hrow, hdeliveries,
    (announced {} (fun result => result) 0 batchedRun state hreaches false).2 row hrow⟩

end Service

end Flydocs
