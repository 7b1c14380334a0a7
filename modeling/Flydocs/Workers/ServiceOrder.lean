import Flydocs.Workers.ServiceView

/-!
# Slots, backlogs and the table

What every step of the service keeps: a slot holds an id in one place at most,
and no slot, topic or history knows of an id that is not in the table.
-/

namespace Flydocs

open Foundation ExtractionRepository Extraction

variable {Id Worker Json Result : Type*} [DecidableEq Id]

namespace Service

/-- An id is in one place at most of a task slot, and none is of a row that is
not there. -/
structure Orderly (state : Service Id Worker Json Result) : Prop where
  nodup : ∀ worker, (state.backlog worker).Nodup
  current : ∀ worker id process,
    state.task .main worker = some (id, process) → id ∉ state.backlog worker
  task_present : ∀ leg worker id process,
    state.task leg worker = some (id, process) → state.table id ≠ none
  backlog_present : ∀ worker, ∀ id ∈ state.backlog worker,
    state.table id ≠ none
  unpublished_present : ∀ id, state.unpublished id = true →
    state.table id ≠ none
  channel_idle : ∀ leg id, state.table id = none →
    state.channel leg id = Channel.idle
  history_empty : ∀ id, state.table id = none →
    historyOf state.history id = []

theorem empty_orderly (now : Int) :
    Orderly (empty now : Service Id Worker Json Result) := by
  constructor <;> simp [empty, historyOf]

section

variable {settings : ServiceSettings} {modelDump : Result → Json}
  {state next : Service Id Worker Json Result}

theorem Orderly.of_frame (h : Orderly state)
    (htable : ∀ id, next.table id = none → state.table id = none)
    (htask : next.task = state.task) (hbacklog : next.backlog = state.backlog)
    (hunpublished : ∀ id, next.unpublished id = true →
      next.table id ≠ none)
    (hchannel : ∀ leg id, next.table id = none →
      next.channel leg id = state.channel leg id)
    (hhistory : next.history = state.history) : Orderly next where
  nodup := by
    rw [hbacklog]
    exact h.nodup
  current := by
    rw [hbacklog, htask]
    exact h.current
  task_present leg worker id process hprocess hnone := by
    rw [htask] at hprocess
    exact h.task_present leg worker id process hprocess (htable id hnone)
  backlog_present worker id hid hnone := by
    rw [hbacklog] at hid
    exact h.backlog_present worker id hid (htable id hnone)
  unpublished_present := hunpublished
  channel_idle leg id hnone := by
    rw [hchannel leg id hnone]
    exact h.channel_idle leg id (htable id hnone)
  history_empty id hnone := by
    rw [hhistory]
    exact h.history_empty id (htable id hnone)

theorem idle_step (now : Int) (action : BusAction) :
    Channel.idle.step now action = none := by
  cases action <;> simp [Channel.step, Channel.idle]

variable [DecidableEq Worker]

theorem Orderly.of_backlog {worker : Worker} {backlog : List Id}
    (h : Orderly state)
    (htable : next.table = state.table)
    (hbacklog : next.backlog = Function.update state.backlog worker backlog)
    (hother : ∀ leg agent, ¬ (leg = .main ∧ agent = worker) →
      next.task leg agent = state.task leg agent)
    (hnodup : backlog.Nodup)
    (hpresent : ∀ id ∈ backlog, state.table id ≠ none)
    (hslot : ∀ id process, next.task .main worker = some (id, process) →
      id ∉ backlog ∧ state.table id ≠ none)
    (hunpublished : next.unpublished = state.unpublished)
    (hchannel : next.channel = state.channel)
    (hhistory : next.history = state.history) : Orderly next where
  nodup agent := by
    by_cases hagent : agent = worker
    · simpa [hbacklog, hagent] using hnodup
    · simpa [hbacklog, hagent] using h.nodup agent
  current agent id process hprocess := by
    by_cases hagent : agent = worker
    · subst hagent
      simpa [hbacklog] using (hslot id process hprocess).1
    · rw [hother .main agent (by simp [hagent])] at hprocess
      simpa [hbacklog, hagent] using h.current agent id process hprocess
  task_present leg agent id process hprocess := by
    rw [htable]
    by_cases hsame : leg = .main ∧ agent = worker
    · obtain ⟨rfl, rfl⟩ := hsame
      exact (hslot id process hprocess).2
    · rw [hother leg agent hsame] at hprocess
      exact h.task_present leg agent id process hprocess
  backlog_present agent id hid := by
    rw [htable]
    by_cases hagent : agent = worker
    · simp only [hbacklog, hagent, Function.update_self] at hid
      exact hpresent id hid
    · simp only [hbacklog, Function.update_of_ne hagent] at hid
      exact h.backlog_present agent id hid
  unpublished_present := by
    rw [hunpublished, htable]
    exact h.unpublished_present
  channel_idle := by
    rw [hchannel, htable]
    exact h.channel_idle
  history_empty := by
    rw [hhistory, htable]
    exact h.history_empty

theorem Orderly.after_process {leg : Leg} {worker : Worker} {x : Id}
    {process : Process Json Result} {effect : Effect Worker Json Result}
    (h : Orderly state) (htask : state.task leg worker = some (x, process)) :
    Orderly (state.after leg worker x effect) := by
  have htable (id : Id) (hnone : (state.after leg worker x effect).table id =
      none) : id ≠ x ∧ state.table id = none := by
    by_cases hid : id = x
    · simp [after, setRow_apply, hid] at hnone
    · exact ⟨hid, by simpa [after, setRow_apply, hid] using hnone⟩
  constructor
  · exact h.nodup
  · intro agent id later hlater
    simp only [after, setTask_apply] at hlater
    split at hlater
    next hsame =>
      obtain ⟨rfl, rfl⟩ := hsame
      obtain ⟨_, -, heq⟩ := Option.map_eq_some_iff.mp hlater
      cases heq
      exact h.current agent x process htask
    · exact h.current agent id later hlater
  · intro other agent id later hlater hnone
    obtain ⟨hid, hbefore⟩ := htable id hnone
    simp only [after, setTask_apply] at hlater
    split at hlater
    next hsame =>
      obtain ⟨_, -, heq⟩ := Option.map_eq_some_iff.mp hlater
      cases heq
      exact hid rfl
    · exact h.task_present other agent id later hlater hbefore
  · exact fun agent id hid hnone =>
      h.backlog_present agent id hid (htable id hnone).2
  · exact fun id hid hnone =>
      h.unpublished_present id hid (htable id hnone).2
  · intro other id hnone
    obtain ⟨hid, hbefore⟩ := htable id hnone
    simpa [after, hid] using h.channel_idle other id hbefore
  · intro id hnone
    obtain ⟨hid, hbefore⟩ := htable id hnone
    simpa [after, historyOf_append, Ne.symm hid] using
      h.history_empty id hbefore

theorem Orderly.after_deliver {leg : Leg} {worker : Worker} {x : Id}
    {channel : Channel} (h : Orderly state) (hpresent : state.table x ≠ none)
    (hidle : state.idle leg worker = true) :
    Orderly { state with
      task := state.setTask leg worker (some (x, .received))
      channel := state.setChannel leg x channel } := by
  constructor
  · exact h.nodup
  · intro agent id process hprocess
    simp only [setTask_apply] at hprocess
    split at hprocess
    next hsame =>
      obtain ⟨rfl, rfl⟩ := hsame
      simp [(idle_iff.mp hidle).2 rfl]
    · exact h.current agent id process hprocess
  · intro other agent id process hprocess
    simp only [setTask_apply] at hprocess
    split at hprocess
    · cases hprocess
      exact hpresent
    · exact h.task_present other agent id process hprocess
  · exact h.backlog_present
  · exact h.unpublished_present
  · intro other id hnone
    have hid : id ≠ x := by
      rintro rfl
      exact hpresent hnone
    simpa [setChannel_apply, hid] using h.channel_idle other id hnone
  · exact h.history_empty

theorem orderly_step {label : Label Id Worker Result} (h : Orderly state)
    (hstep : step settings modelDump state label = some next) :
    Orderly next := by
  cases label with
  | submit x callbackUrl =>
      simp only [step, Option.ite_none_right_eq_some, Option.some.injEq] at hstep
      obtain ⟨-, rfl⟩ := hstep
      refine h.of_frame (fun id hnone => ?_) rfl rfl (fun id hid => ?_)
        (fun _ _ _ => rfl) rfl
      · by_cases hx : id = x <;> simp_all [setRow_apply]
      · by_cases hx : id = x
        · simp [setRow_apply, hx]
        · simp only [Function.update_of_ne hx] at hid
          simpa [setRow_apply, hx] using h.unpublished_present id hid
  | publish x =>
      simp only [step, Option.ite_none_right_eq_some, Option.some.injEq] at hstep
      obtain ⟨hunpublished, rfl⟩ := hstep
      have hpresent := h.unpublished_present x hunpublished
      refine h.of_frame (fun _ hnone => hnone) rfl rfl (fun id hid => ?_)
        (fun leg id hnone => ?_) rfl
      · by_cases hx : id = x
        · exact hx ▸ hpresent
        · simp only [Function.update_of_ne hx] at hid
          exact h.unpublished_present id hid
      · have hid : id ≠ x := by
          rintro rfl
          exact hpresent hnone
        simp [setChannel_apply, hid]
  | abandonPublish x =>
      simp only [step, Option.ite_none_right_eq_some, Option.some.injEq] at hstep
      obtain ⟨hunpublished, rfl⟩ := hstep
      refine h.of_frame (fun _ hnone => hnone) rfl rfl (fun id hid => ?_)
        (fun _ _ _ => rfl) rfl
      by_cases hx : id = x
      · exact hx ▸ h.unpublished_present x hunpublished
      · simp only [Function.update_of_ne hx] at hid
        exact h.unpublished_present id hid
  | process leg worker action =>
      simp only [step, Option.bind_eq_some_iff, Option.map_eq_some_iff] at hstep
      obtain ⟨⟨x, process⟩, htask, _, -, effect, -, rfl⟩ := hstep
      exact h.after_process htask
  | deliver leg worker x =>
      simp only [step, Option.ite_none_right_eq_some, Option.some.injEq] at hstep
      obtain ⟨⟨hflight, hidle⟩, rfl⟩ := hstep
      refine h.after_deliver (fun hnone => ?_) hidle
      simp [h.channel_idle leg x hnone, Channel.idle] at hflight
  | poll worker ids =>
      simp only [step, Option.ite_none_right_eq_some, Option.some.injEq] at hstep
      obtain ⟨⟨hidle, hselected⟩, rfl⟩ := hstep
      have hids := selected_iff hselected
      refine h.of_backlog rfl rfl (fun _ _ _ => rfl) hids.1 (fun id hid => ?_)
        (fun id process hprocess => ?_) rfl rfl rfl
      · obtain ⟨row, hrow, -⟩ := hids.2 id hid
        simp [hrow]
      · simp [(idle_iff.mp hidle).1] at hprocess
  | next worker =>
      simp only [step] at hstep
      split at hstep
      next x rest htask hbacklog =>
        cases hstep
        have hnodup := h.nodup worker
        rw [hbacklog, List.nodup_cons] at hnodup
        have hpresent := h.backlog_present worker
        rw [hbacklog] at hpresent
        refine h.of_backlog rfl rfl (fun leg agent hother => ?_) hnodup.2
          (fun id hid => hpresent id (List.mem_cons_of_mem _ hid))
          (fun id process hprocess => ?_) rfl rfl rfl
        · simp [setTask_apply, hother]
        · simp only [setTask_apply, and_self, if_true] at hprocess
          cases hprocess
          exact ⟨hnodup.1, hpresent x List.mem_cons_self⟩
      · cases hstep
  | stopPoll worker =>
      simp only [step, Option.ite_none_right_eq_some, Option.some.injEq,
        Option.isNone_iff_eq_none] at hstep
      obtain ⟨hnone, rfl⟩ := hstep
      refine h.of_backlog rfl rfl (fun _ _ _ => rfl) List.nodup_nil (by simp)
        (fun id process hprocess => ?_) rfl rfl rfl
      simp [hnone] at hprocess
  | cancel x =>
      simp only [step, Option.map_eq_some_iff] at hstep
      obtain ⟨row, hrow, rfl⟩ := hstep
      have htable (id : Id) (hnone : state.setRow x
          ((Call.markCancelled.update state.now).apply row) id = none) :
          state.table id = none := by
        by_cases hx : id = x
        · simp [setRow_apply, hx] at hnone
        · simpa [setRow_apply, hx] using hnone
      exact h.of_frame htable rfl rfl
        (fun id hid hnone => h.unpublished_present id hid (htable id hnone))
        (fun _ _ _ => rfl) rfl
  | tick elapsed =>
      cases hstep
      exact h.of_frame (fun _ hnone => hnone) rfl rfl h.unpublished_present
        (fun _ _ _ => rfl) rfl
  | bus leg x action =>
      simp only [step, Option.map_eq_some_iff] at hstep
      obtain ⟨channel, hchannel, rfl⟩ := hstep
      refine h.of_frame (fun _ hnone => hnone) rfl rfl h.unpublished_present
        (fun other id hnone => ?_) rfl
      have hid : id ≠ x ∨ other ≠ leg := by
        by_contra hsame
        push Not at hsame
        obtain ⟨rfl, rfl⟩ := hsame
        rw [h.channel_idle other id hnone, idle_step] at hchannel
        cases hchannel
      rcases hid with hid | hleg <;> simp [setChannel_apply, *]
  | sweep query ids =>
      simp only [step, Option.ite_none_right_eq_some, Option.some.injEq] at hstep
      obtain ⟨hselected, rfl⟩ := hstep
      refine h.of_frame (fun _ hnone => hnone) rfl rfl h.unpublished_present
        (fun leg id hnone => ?_) rfl
      have hid : id ∉ ids := by
        intro hmem
        obtain ⟨row, hrow, -⟩ := (selected_iff hselected).2 id hmem
        simp_all
      by_cases hleg : leg = query.leg <;> simp [hleg, hid]

end

end Service

end Flydocs
