import Flydocs.Foundation.Projection
import Flydocs.Workers.RowHistory
import Flydocs.Workers.ServiceOrder

/-!
# Every extraction runs its own async path

A step of the service is a step of the async path of one extraction, or none
that it notices.  So the service, with its batches, its shared task slots and
its stale backlogs, does to each extraction what the async path does.
-/

namespace Flydocs

open Foundation ExtractionRepository Extraction

variable {Id Worker Json Result : Type*} [DecidableEq Id]

namespace Service

structure Unseen (id : Id) (state next : Service Id Worker Json Result) :
    Prop where
  now_eq : next.now = state.now
  table_eq : next.table id = state.table id
  process_eq : ∀ leg worker,
    next.processOf id leg worker = state.processOf id leg worker
  channel_eq : ∀ leg, next.channelOf id leg = state.channelOf id leg
  history_eq : historyOf next.history id = historyOf state.history id

theorem Unseen.shown_eq {id : Id} {state next : Service Id Worker Json Result}
    (h : Unseen id state next) (row : Extraction Json) :
    next.shown id row = state.shown id row := by
  have hprocess : next.processOf id = state.processOf id := by
    funext leg worker
    exact h.process_eq leg worker
  have hchannel : next.channelOf id = state.channelOf id := by
    funext leg
    exact h.channel_eq leg
  simp only [shown, h.now_eq, hprocess, hchannel, h.history_eq]

theorem Unseen.view_eq {id : Id} {state next : Service Id Worker Json Result}
    (h : Unseen id state next) : view id next = view id state := by
  unfold view
  rw [h.table_eq]
  exact Option.map_congr fun row _ => h.shown_eq row

structure Moves (id : Id) (leg : Leg) (state next : Service Id Worker Json Result) :
    Prop where
  now_eq : next.now = state.now
  process_eq : ∀ leg worker,
    next.processOf id leg worker = state.processOf id leg worker
  history_eq : historyOf next.history id = historyOf state.history id
  other_eq : ∀ other, other ≠ leg →
    next.channelOf id other = state.channelOf id other

theorem Moves.shown_eq {state next : Service Id Worker Json Result} {id : Id}
    {leg : Leg} (h : Moves id leg state next) (row : Extraction Json)
    {channel : Channel} (hchannel : next.channelOf id leg = channel) :
    { state.shown id row with
      channel := (state.shown id row).setChannel leg channel } =
      next.shown id row := by
  have hprocess : next.processOf id = state.processOf id := by
    funext leg worker
    exact h.process_eq leg worker
  have hupdate : Function.update (state.channelOf id) leg channel =
      next.channelOf id := by
    funext other
    by_cases hleg : other = leg
    · subst hleg
      simp [hchannel]
    · rw [Function.update_of_ne hleg, h.other_eq other hleg]
  simp only [shown, AsyncPath.setChannel, hupdate, h.now_eq, hprocess,
    h.history_eq]

/-! ## What one extraction sees of a step -/

variable [DecidableEq Worker] {settings : ServiceSettings}
  {modelDump : Result → Json} {state next : Service Id Worker Json Result}
  {id : Id}

def Follows (settings : ServiceSettings) (modelDump : Result → Json) (id : Id)
    (state next : Service Id Worker Json Result) : Prop :=
  ∀ row, state.table id = some row →
    ∃ taken after,
      LabelledStep.run (AsyncPath.step settings.toIDPSettings modelDump)
          (state.shown id row) taken = some after ∧
        view id next = some after

theorem Unseen.follows (h : Unseen id state next) :
    Follows settings modelDump id state next := by
  intro row hrow
  refine ⟨[], state.shown id row, rfl, ?_⟩
  rw [h.view_eq, view, hrow]
  rfl

theorem follows_of_step
    (h : ∀ row, state.table id = some row →
      ∃ (label : AsyncPath.Label Worker Result) (after : Extraction Json),
        AsyncPath.step settings.toIDPSettings modelDump (state.shown id row)
            label = some (next.shown id after) ∧
          next.table id = some after) :
    Follows settings modelDump id state next := by
  intro row hrow
  obtain ⟨label, after, hstep, hafter⟩ := h row hrow
  refine ⟨[label], next.shown id after, ?_, ?_⟩
  · simp [LabelledStep.run, hstep]
  · rw [view, hafter]
    rfl

theorem follows_of_moves (leg : Leg) (h : Moves id leg state next)
    (htable : next.table id = state.table id) (action : BusAction)
    (hstep : (state.channelOf id leg).step state.now action =
      some (next.channelOf id leg)) :
    Follows settings modelDump id state next := by
  refine follows_of_step fun row hrow =>
    ⟨.bus leg action, row, ?_, htable.trans hrow⟩
  have hcarried : AsyncPath.step settings.toIDPSettings modelDump
      (state.shown id row) (.bus leg action) =
      some { state.shown id row with
        channel := (state.shown id row).setChannel leg
          (next.channelOf id leg) } := by
    rw [AsyncPath.step]
    exact Option.map_eq_some_iff.mpr ⟨_, hstep, rfl⟩
  rw [hcarried, h.shown_eq row rfl]

/-! ### Submitting and publishing -/

theorem follows_submit {x : Id} {callbackUrl : Option String}
    (h : step settings modelDump state (.submit x callbackUrl) = some next) :
    Follows settings modelDump id state next := by
  simp only [step, Option.ite_none_right_eq_some, Option.some.injEq] at h
  obtain ⟨hnone, rfl⟩ := h
  by_cases hx : id = x
  · intro row hrow
    simp [← hx, hrow] at hnone
  · refine Unseen.follows ⟨rfl, ?_, fun _ _ => rfl, fun leg => ?_, rfl⟩
    · simp [setRow_apply, hx]
    · simp [channelOf, hx]

theorem follows_publish {x : Id}
    (h : step settings modelDump state (.publish x) = some next) :
    Follows settings modelDump id state next := by
  simp only [step, Option.ite_none_right_eq_some, Option.some.injEq] at h
  obtain ⟨hunpublished, rfl⟩ := h
  refine Unseen.follows ⟨rfl, rfl, fun _ _ => rfl, fun leg => ?_, rfl⟩
  by_cases hx : id = x
  · subst hx
    cases leg <;> simp [channelOf, setChannel_apply, shownChannel,
      Channel.publish, hunpublished]
  · simp [channelOf, setChannel_apply, hx]

theorem follows_abandonPublish {x : Id}
    (h : step settings modelDump state (.abandonPublish x) = some next) :
    Follows settings modelDump id state next := by
  simp only [step, Option.ite_none_right_eq_some, Option.some.injEq] at h
  obtain ⟨hunpublished, rfl⟩ := h
  by_cases hx : id = x
  · subst hx
    refine follows_of_moves .main
      ⟨rfl, fun _ _ => rfl, rfl, fun other hother => ?_⟩ rfl .drop ?_
    · cases other with
      | main => exact absurd rfl hother
      | bbox => rfl
    · simp [channelOf, shownChannel, Channel.step, hunpublished]
  · refine Unseen.follows ⟨rfl, rfl, fun _ _ => rfl, fun leg => ?_, rfl⟩
    simp [channelOf, hx]

/-! ### Topics -/

theorem follows_bus {leg : Leg} {x : Id} {action : BusAction}
    (h : step settings modelDump state (.bus leg x action) = some next) :
    Follows settings modelDump id state next := by
  simp only [step, Option.map_eq_some_iff] at h
  obtain ⟨channel, hchannel, rfl⟩ := h
  by_cases hx : id = x
  · subst hx
    refine follows_of_moves leg
      ⟨rfl, fun _ _ => rfl, rfl, fun other hother => ?_⟩ rfl action ?_
    · simp [channelOf, setChannel_apply, hother]
    · simpa [channelOf, setChannel_apply] using shownChannel_step leg hchannel
  · refine Unseen.follows ⟨rfl, rfl, fun _ _ => rfl, fun other => ?_, rfl⟩
    simp [channelOf, setChannel_apply, hx]

theorem follows_sweep {query : Sweep} {ids : List Id}
    (h : step settings modelDump state (.sweep query ids) = some next) :
    Follows settings modelDump id state next := by
  simp only [step, Option.ite_none_right_eq_some, Option.some.injEq] at h
  obtain ⟨hselected, hnext⟩ := h
  have hmoves : Moves id query.leg state next := by
    subst hnext
    refine ⟨rfl, fun _ _ => rfl, rfl, fun other hother => ?_⟩
    simp [channelOf, hother]
  by_cases hid : id ∈ ids
  · obtain ⟨found, hfound, hselects⟩ := (selected_iff hselected).2 id hid
    have hreaping : next.channelOf id query.leg =
        { state.channelOf id query.leg with
          reaping := (state.channelOf id query.leg).reaping + 1 } := by
      subst hnext
      cases query <;> simp [channelOf, shownChannel, hid, Sweep.leg]
    refine follows_of_step fun row hrow => ⟨.sweep query, row, ?_, ?_⟩
    · rw [hfound, Option.some.injEq] at hrow
      subst hrow
      rw [← hmoves.shown_eq found hreaping]
      exact if_pos hselects
    · rw [← hrow, ← hnext]
  · refine Unseen.follows ⟨hmoves.now_eq, by rw [← hnext], hmoves.process_eq,
      fun leg => ?_, hmoves.history_eq⟩
    subst hnext
    by_cases hleg : leg = query.leg <;> simp [channelOf, hleg, hid]

/-! ### The clock and the cancel endpoint -/

theorem follows_tick {elapsed : Nat}
    (h : step settings modelDump state (.tick elapsed) = some next) :
    Follows settings modelDump id state next := by
  cases h
  exact follows_of_step fun row hrow => ⟨.tick elapsed, row, rfl, hrow⟩

theorem follows_cancel {x : Id}
    (h : step settings modelDump state (.cancel x) = some next) :
    Follows settings modelDump id state next := by
  simp only [step, Option.map_eq_some_iff] at h
  obtain ⟨found, hfound, rfl⟩ := h
  by_cases hx : id = x
  · subst hx
    refine follows_of_step fun row hrow =>
      ⟨.cancel, (Call.markCancelled.update state.now).apply row, rfl, ?_⟩
    rw [hfound, Option.some.injEq] at hrow
    simp [setRow_apply, hrow]
  · refine Unseen.follows ⟨rfl, ?_, fun _ _ => rfl, fun _ => rfl, rfl⟩
    simp [setRow_apply, hx]

/-! ### Tasks -/

theorem follows_process {leg : Leg} {worker : Worker} {action : Action Result}
    (horderly : Orderly state)
    (h : step settings modelDump state (.process leg worker action) =
      some next) :
    Follows settings modelDump id state next := by
  simp only [step, Option.bind_eq_some_iff, Option.map_eq_some_iff] at h
  obtain ⟨⟨x, process⟩, htask, found, hfound, effect, heffect, rfl⟩ := h
  have hslot (other : Leg) (agent : Worker) :
      (state.after leg worker x effect).processOf id other agent =
        if other = leg ∧ agent = worker then
          processIn id (effect.next.map (x, ·))
            (state.waiting id other agent)
        else state.processOf id other agent := by
    simp only [processOf, after, setTask_apply]
    split <;> rfl
  by_cases hx : id = x
  · subst hx
    have hwaiting : state.waiting id leg worker = none := by
      refine if_neg ?_
      rintro ⟨rfl, hmem⟩
      exact horderly.current worker id process htask hmem
    have hprocess : (state.after leg worker id effect).processOf id =
        (state.shown id found).setProcess leg worker effect.next := by
      funext other agent
      rw [hslot, AsyncPath.setProcess, update_update_apply]
      split
      next hsame =>
        obtain ⟨rfl, rfl⟩ := hsame
        exact processIn_map effect.next hwaiting
      · rfl
    have hchannel : (state.after leg worker id effect).channelOf id =
        (state.shown id found).channelAfter leg effect := by
      funext other
      simp only [channelOf, after, Function.update_self]
      exact shownChannel_channelAfter _ _ _ _ _ _
    refine follows_of_step fun row hrow =>
      ⟨.process leg worker action, effect.row, ?_, ?_⟩
    · rw [hfound, Option.some.injEq] at hrow
      subst hrow
      have hheld : (state.shown id found).process leg worker =
          some process := by
        simp [shown, processOf, htask]
      have hafter : (state.shown id found).after leg worker effect =
          (state.after leg worker id effect).shown id effect.row := by
        refine AsyncPath.eq_of_fields rfl rfl hprocess.symm hchannel.symm ?_
        simp [AsyncPath.after, shown, after, historyOf_append]
      rw [← hafter, AsyncPath.step, hheld]
      exact Option.map_eq_some_iff.mpr ⟨effect, heffect, rfl⟩
    · simp [after, setRow_apply]
  · refine Unseen.follows ⟨rfl, ?_, fun other agent => ?_, fun other => ?_, ?_⟩
    · simp [after, setRow_apply, hx]
    · rw [hslot]
      split
      next hsame =>
        obtain ⟨rfl, rfl⟩ := hsame
        rw [processIn_other (Ne.symm hx), processOf, htask]
        exact (if_neg (Ne.symm hx)).symm
      · rfl
    · simp [channelOf, after, hx]
    · simp [after, historyOf_append, Ne.symm hx]

theorem follows_deliver {leg : Leg} {worker : Worker} {x : Id}
    (h : step settings modelDump state (.deliver leg worker x) = some next) :
    Follows settings modelDump id state next := by
  simp only [step, Option.ite_none_right_eq_some, Option.some.injEq] at h
  obtain ⟨⟨hflight, hidle⟩, hnext⟩ := h
  have hnone := (idle_iff.mp hidle).1
  have hslot (other : Leg) (agent : Worker) :
      next.processOf id other agent =
        if other = leg ∧ agent = worker then
          processIn id (some (x, .received)) (state.waiting id other agent)
        else state.processOf id other agent := by
    subst hnext
    simp only [processOf, setTask_apply]
    split <;> rfl
  by_cases hx : id = x
  · subst hx
    have hprocess (row : Extraction Json) : next.processOf id =
        (state.shown id row).setProcess leg worker (some .received) := by
      funext other agent
      rw [hslot, AsyncPath.setProcess, update_update_apply, processIn_self]
      rfl
    have hchannel (row : Extraction Json) : next.channelOf id =
        (state.shown id row).setChannel leg
          { state.channelOf id leg with
            inFlight := (state.channelOf id leg).inFlight - 1 } := by
      subst hnext
      funext other
      by_cases hleg : other = leg
      · subst hleg
        cases other with
        | bbox => simp [channelOf, setChannel_apply, AsyncPath.setChannel,
            shownChannel]
        | main =>
            simp only [channelOf, setChannel_apply, AsyncPath.setChannel,
              Function.update_self, shownChannel, and_self, if_true,
              Channel.mk.injEq, true_and, and_true]
            omega
      · simp [channelOf, setChannel_apply, AsyncPath.setChannel, hleg, shown]
    refine follows_of_step fun row hrow => ⟨.deliver leg worker, row, ?_, ?_⟩
    · have hshown : 0 < (state.channelOf id leg).inFlight := by
        cases leg <;> simp [channelOf, shownChannel] <;> omega
      have hfree : (state.processOf id leg worker).isNone = true := by
        simp [processOf_idle hidle]
      refine (if_pos ⟨hshown, hfree⟩).trans (congrArg some ?_)
      refine AsyncPath.eq_of_fields ?_ rfl (hprocess row).symm
        (hchannel row).symm ?_
      · rw [← hnext]
        rfl
      · rw [← hnext]
        rfl
    · rw [← hnext]
      exact hrow
  · refine Unseen.follows ⟨?_, ?_, fun other agent => ?_, fun other => ?_, ?_⟩
    · rw [← hnext]
    · rw [← hnext]
    · rw [hslot]
      split
      next hsame =>
        obtain ⟨rfl, rfl⟩ := hsame
        rw [processOf, hnone]
        exact if_neg (Ne.symm hx)
      · rfl
    · rw [← hnext]
      simp [channelOf, setChannel_apply, hx]
    · rw [← hnext]

/-! ### Polls -/

theorem processOf_backlog (id : Id) {backlog : List Id} {worker : Worker}
    (hnext : next =
      { state with
        backlog := Function.update state.backlog worker backlog })
    (hnone : state.task .main worker = none) (leg : Leg) (agent : Worker) :
    next.processOf id leg agent =
      if leg = .main ∧ agent = worker then
        if id ∈ backlog then some .received else none
      else state.processOf id leg agent := by
  subst hnext
  by_cases hagent : agent = worker
  · subst hagent
    cases leg <;> simp [processOf, waiting, hnone]
  · simp [processOf, waiting, hagent]

theorem follows_poll {worker : Worker} {ids : List Id}
    (h : step settings modelDump state (.poll worker ids) = some next) :
    Follows settings modelDump id state next := by
  simp only [step, Option.ite_none_right_eq_some, Option.some.injEq] at h
  obtain ⟨⟨hidle, hselected⟩, hnext⟩ := h
  have hslot := processOf_backlog id hnext.symm (idle_iff.mp hidle).1
  by_cases hid : id ∈ ids
  · obtain ⟨found, hfound, hselects⟩ := (selected_iff hselected).2 id hid
    have hprocess : next.processOf id =
        (state.shown id found).setProcess .main worker (some .received) := by
      funext leg agent
      rw [hslot, AsyncPath.setProcess, update_update_apply, if_pos hid]
      rfl
    refine follows_of_step fun row hrow => ⟨.poll worker, row, ?_, ?_⟩
    · rw [hfound, Option.some.injEq] at hrow
      subst hrow
      have hfree : (state.processOf id .main worker).isNone = true := by
        simp [processOf_idle hidle]
      refine (if_pos ⟨hselects, hfree⟩).trans (congrArg some ?_)
      subst hnext
      exact AsyncPath.eq_of_fields rfl rfl hprocess.symm rfl rfl
    · rw [← hnext]
      exact hrow
  · have hsame (leg : Leg) (agent : Worker) :
        next.processOf id leg agent = state.processOf id leg agent := by
      rw [hslot]
      split
      next hboth =>
        obtain ⟨rfl, rfl⟩ := hboth
        exact (processOf_idle hidle).symm
      · rfl
    subst hnext
    exact Unseen.follows ⟨rfl, rfl, hsame, fun _ => rfl, rfl⟩

theorem follows_next {worker : Worker}
    (h : step settings modelDump state (.next worker) = some next) :
    Follows settings modelDump id state next := by
  simp only [step] at h
  split at h
  next x rest htask hbacklog =>
    cases h
    refine Unseen.follows ⟨rfl, rfl, fun leg agent => ?_, fun _ => rfl, rfl⟩
    simp only [processOf, setTask_apply]
    by_cases hagent : agent = worker
    · subst hagent
      cases leg with
      | bbox => simp [waiting]
      | main =>
          by_cases hx : x = id
          · simp [waiting, htask, hbacklog, hx, processIn]
          · simp [waiting, htask, hbacklog, hx, Ne.symm hx, processIn]
    · simp [waiting, hagent]
  · cases h

theorem follows_stopPoll {worker : Worker}
    (h : step settings modelDump state (.stopPoll worker) = some next) :
    Follows settings modelDump id state next := by
  simp only [step, Option.ite_none_right_eq_some, Option.some.injEq,
    Option.isNone_iff_eq_none] at h
  obtain ⟨hnone, hnext⟩ := h
  have hslot := processOf_backlog id hnext.symm hnone
  by_cases hid : id ∈ state.backlog worker
  · -- the extraction takes it for a crash of the task that holds its event
    have hwaiting : state.processOf id .main worker = some .received := by
      simp [processOf, waiting, hnone, hid]
    refine follows_of_step fun row hrow =>
      ⟨.process .main worker .crash, row, ?_, ?_⟩
    · have hprocess : next.processOf id =
          (state.shown id row).setProcess .main worker none := by
        funext leg agent
        rw [hslot, AsyncPath.setProcess, update_update_apply]
        simp [shown]
      have hcrash : AsyncPath.step settings.toIDPSettings modelDump
          (state.shown id row) (.process .main worker .crash) =
          some ((state.shown id row).after .main worker (.goTo row none)) := by
        rw [AsyncPath.step]
        exact Option.bind_eq_some_iff.mpr ⟨.received, hwaiting, rfl⟩
      rw [hcrash]
      subst hnext
      refine congrArg some (AsyncPath.eq_of_fields rfl rfl hprocess.symm ?_ rfl)
      funext leg
      simp [AsyncPath.after, AsyncPath.channelAfter, Effect.goTo, shown]
      rfl
    · rw [← hnext]
      exact hrow
  · have hsame (leg : Leg) (agent : Worker) :
        next.processOf id leg agent = state.processOf id leg agent := by
      rw [hslot]
      split
      next hboth =>
        obtain ⟨rfl, rfl⟩ := hboth
        simp [processOf, waiting, hnone, hid]
      · rfl
    subst hnext
    exact Unseen.follows ⟨rfl, rfl, hsame, fun _ => rfl, rfl⟩

/-! ## The projection -/

theorem follows_step {label : Label Id Worker Result} (h : Orderly state)
    (hstep : step settings modelDump state label = some next) :
    Follows settings modelDump id state next := by
  cases label with
  | submit => exact follows_submit hstep
  | publish => exact follows_publish hstep
  | abandonPublish => exact follows_abandonPublish hstep
  | process => exact follows_process h hstep
  | deliver => exact follows_deliver hstep
  | poll => exact follows_poll hstep
  | next => exact follows_next hstep
  | stopPoll => exact follows_stopPoll hstep
  | cancel => exact follows_cancel hstep
  | tick => exact follows_tick hstep
  | bus => exact follows_bus hstep
  | sweep => exact follows_sweep hstep

theorem table_step {label : Label Id Worker Result}
    (hstep : step settings modelDump state label = some next)
    (hnone : state.table id = none) (hsome : next.table id ≠ none) :
    ∃ callbackUrl, label = .submit id callbackUrl := by
  cases label with
  | submit x callbackUrl =>
      simp only [step, Option.ite_none_right_eq_some, Option.some.injEq] at hstep
      obtain ⟨-, rfl⟩ := hstep
      by_cases hx : id = x
      · exact ⟨callbackUrl, by rw [hx]⟩
      · simp [setRow_apply, hx, hnone] at hsome
  | process leg worker action =>
      simp only [step, Option.bind_eq_some_iff, Option.map_eq_some_iff] at hstep
      obtain ⟨⟨x, process⟩, -, row, hrow, effect, -, rfl⟩ := hstep
      have hx : id ≠ x := by
        rintro rfl
        simp [hnone] at hrow
      simp [after, setRow_apply, hx, hnone] at hsome
  | cancel x =>
      simp only [step, Option.map_eq_some_iff] at hstep
      obtain ⟨row, hrow, rfl⟩ := hstep
      have hx : id ≠ x := by
        rintro rfl
        simp [hnone] at hrow
      simp [setRow_apply, hx, hnone] at hsome
  | next worker =>
      simp only [step] at hstep
      split at hstep
      · cases hstep
        exact absurd hnone hsome
      · cases hstep
  | tick =>
      cases hstep
      exact absurd hnone hsome
  | bus =>
      simp only [step, Option.map_eq_some_iff] at hstep
      obtain ⟨channel, -, rfl⟩ := hstep
      exact absurd hnone hsome
  | publish | abandonPublish | deliver | poll | stopPoll | sweep =>
      simp only [step, Option.ite_none_right_eq_some, Option.some.injEq] at hstep
      obtain ⟨-, rfl⟩ := hstep
      exact absurd hnone hsome

theorem shown_submit {callbackUrl : Option String} (h : Orderly state)
    (hnone : state.table id = none)
    (hstep : step settings modelDump state (.submit id callbackUrl) =
      some next) :
    view id next = some (AsyncPath.submitted state.now callbackUrl) := by
  simp only [step, Option.ite_none_right_eq_some, Option.some.injEq] at hstep
  obtain ⟨-, rfl⟩ := hstep
  have hidle := h.channel_idle
  rw [view]
  simp only [setRow_apply, if_true, Option.map_some, Option.some.injEq]
  refine AsyncPath.eq_of_fields rfl rfl ?_ ?_ (h.history_empty id hnone)
  · funext leg worker
    have hwaiting : id ∉ state.backlog worker := fun hid =>
      h.backlog_present worker id hid hnone
    cases htask : state.task leg worker with
    | none => simp [shown, processOf, waiting, htask, hwaiting,
        AsyncPath.submitted]
    | some task =>
        obtain ⟨x, process⟩ := task
        have hx : x ≠ id := by
          rintro rfl
          exact h.task_present leg worker x process htask hnone
        simp [shown, processOf, processIn, waiting, htask, hwaiting, hx,
          AsyncPath.submitted]
  · funext leg
    cases leg <;>
      simp [shown, channelOf, shownChannel, hidle _ id hnone, Channel.idle,
        Channel.publish, AsyncPath.submitted]

theorem born_step {label : Label Id Worker Result}
    {shown : AsyncPath Worker Json Result} (h : Orderly state)
    (hstep : step settings modelDump state label = some next)
    (hunborn : view id state = none) (hborn : view id next = some shown) :
    ∃ submittedAt callbackUrl,
      shown = AsyncPath.submitted submittedAt callbackUrl := by
  have hnone : state.table id = none := Option.map_eq_none_iff.mp hunborn
  obtain ⟨row, hrow, -⟩ := Option.map_eq_some_iff.mp hborn
  obtain ⟨callbackUrl, rfl⟩ := table_step hstep hnone (by simp [hrow])
  rw [shown_submit h hnone hstep, Option.some.injEq] at hborn
  exact ⟨state.now, callbackUrl, hborn.symm⟩

def projection (settings : ServiceSettings) (modelDump : Result → Json)
    (id : Id) :
    Projection
      (step settings modelDump :
        LabelledStep (Service Id Worker Json Result) (Label Id Worker Result))
      (AsyncPath.step settings.toIDPSettings modelDump :
        LabelledStep (AsyncPath Worker Json Result)
          (AsyncPath.Label Worker Result))
      Orderly
      (fun shown => ∃ submittedAt callbackUrl,
        shown = AsyncPath.submitted submittedAt callbackUrl) where
  view := view id
  good := orderly_step
  born := born_step
  follows := by
    intro state label next shown horderly hstep hshown
    obtain ⟨row, hrow, rfl⟩ := Option.map_eq_some_iff.mp hshown
    exact follows_step horderly hstep row hrow

def Reaches (settings : ServiceSettings) (modelDump : Result → Json)
    (start : Int) (labels : List (Label Id Worker Result))
    (state : Service Id Worker Json Result) : Prop :=
  LabelledStep.run (step settings modelDump) (empty start) labels = some state

/--
Whatever the service does with all its extractions, to each of them it is a run
of the async path from its own submission.
-/
theorem reaches_asyncPath (settings : ServiceSettings)
    (modelDump : Result → Json) (start : Int)
    (labels : List (Label Id Worker Result))
    (state : Service Id Worker Json Result) (id : Id) (row : Extraction Json)
    (hreaches : Reaches settings modelDump start labels state)
    (hrow : state.table id = some row) :
    ∃ taken,
      AsyncPath.Reaches settings.toIDPSettings modelDump row.submittedAt
        row.callbackUrl taken (state.shown id row) := by
  have hview : view id state = some (state.shown id row) := by
    simp [view, hrow]
  obtain ⟨_, taken, ⟨submittedAt, callbackUrl, rfl⟩, htaken⟩ :=
    (projection settings modelDump id).run_projects (empty_orderly start) rfl
      hreaches hview
  have hsubmission : row.callbackUrl = callbackUrl ∧
      row.submittedAt = submittedAt :=
    LabelledStep.run_invariant
      (fun shown : AsyncPath Worker Json Result =>
        shown.row.callbackUrl = callbackUrl ∧
          shown.row.submittedAt = submittedAt)
      (fun shown label next h hstep => by
        rwa [(AsyncPath.submission_step hstep).1,
          (AsyncPath.submission_step hstep).2])
      ⟨rfl, rfl⟩ htaken
  obtain ⟨rfl, rfl⟩ := hsubmission
  exact ⟨taken, htaken⟩

def batchedRun : List (Label Bool Unit Unit) :=
  [.submit true (some "https://example.com/a"),
    .submit false (some "https://example.com/b"), .publish true,
    .abandonPublish false, .tick 11000000, .poll () [true, false], .next (),
    .process .main () .get, .process .main () .claim,
    .process .main () (.execute () false), .process .main () .finalise,
    .process .main () .notify, .process .main () .announce, .next (),
    .process .main () .get, .process .main () .claim,
    .process .main () (.execute () false), .process .main () .finalise,
    .process .main () .notify]

theorem reaches_asyncPath_batchedRun :
    ∃ (state : Service Bool Unit Unit Unit) (row : Extraction Unit)
      (taken : List (AsyncPath.Label Unit Unit)),
      Reaches {} (fun result => result) 0 batchedRun state ∧ state.table false = some row ∧
        row.status = .succeeded ∧
        AsyncPath.Reaches {} (fun result => result) row.submittedAt row.callbackUrl taken
          (state.shown false row) := by
  have hrun : (LabelledStep.run (step {} fun result => result)
      (empty 0 : Service Bool Unit Unit Unit) batchedRun).map
        (fun state => (state.table false).map Extraction.status) =
      some (some .succeeded) := by
    decide
  obtain ⟨state, hreaches, hstatus⟩ := Option.map_eq_some_iff.mp hrun
  obtain ⟨row, hrow, hsucceeded⟩ := Option.map_eq_some_iff.mp hstatus
  obtain ⟨taken, htaken⟩ :=
    reaches_asyncPath {} (fun result => result) 0 batchedRun state false row hreaches hrow
  exact ⟨state, row, taken, hreaches, hrow, hsucceeded, htaken⟩

end Service

end Flydocs
