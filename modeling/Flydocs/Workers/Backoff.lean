import Mathlib.Data.Fintype.Basic
import Flydocs.Workers.Fencing

/-!
# Backoff of a requeued row

The poll and the reaper date a queued row by `started_at`, the start of the
attempt that failed, while the backoff starts when it is requeued.  A requeued
row is therefore left alone for the whole of its backoff only if the backoff
ends within both windows counted from the failed attempt, and if no other event
or task for the row was around.
-/

namespace Flydocs

open Foundation ExtractionRepository Extraction

variable {Worker Json Result : Type*}

/-! ## Backoffs and claims in a history -/

namespace Observation

def backoffUntil : Observation Worker Json Result → Option Int
  | backingOff .main time _ delay => some (time + delay)
  | backingOff .bbox _ _ _ | returned _ _ _ _ | delivered _ _ _ _ => none

def claimTime : Observation Worker Json Result → Option Int
  | returned time _ call _ => if call.isMarkRunning then some time else none
  | backingOff _ _ _ _ | delivered _ _ _ _ => none

end Observation

def backoffs (history : List (Observation Worker Json Result)) : List Int :=
  history.filterMap Observation.backoffUntil

/-- No claim comes before the end of a backoff that was requeued earlier. -/
def HonoursBackoff (history : List (Observation Worker Json Result)) : Prop :=
  history.Pairwise fun newer older =>
    ∀ deadline ∈ older.backoffUntil, ∀ time ∈ newer.claimTime, deadline ≤ time

theorem mem_backoffs {history : List (Observation Worker Json Result)}
    {deadline : Int} :
    deadline ∈ backoffs history ↔
      ∃ observation ∈ history, observation.backoffUntil = some deadline := by
  simp [backoffs, List.mem_filterMap]

theorem honoursBackoff_cons_of_claim
    {history : List (Observation Worker Json Result)}
    {observation : Observation Worker Json Result}
    (h : HonoursBackoff history)
    (hclaim : ∀ time ∈ observation.claimTime,
      ∀ deadline ∈ backoffs history, deadline ≤ time) :
    HonoursBackoff (observation :: history) := by
  refine List.pairwise_cons.mpr ⟨?_, h⟩
  intro older hmem deadline hdeadline time htime
  exact hclaim time htime deadline (mem_backoffs.mpr ⟨older, hmem, hdeadline⟩)

theorem honoursBackoff_append {new history :
      List (Observation Worker Json Result)}
    (h : HonoursBackoff history)
    (hnew : ∀ observation ∈ new, observation.backoffUntil = none ∧
      observation.claimTime = none) :
    HonoursBackoff (new ++ history) ∧
      backoffs (new ++ history) = backoffs history := by
  induction new with
  | nil => exact ⟨h, rfl⟩
  | cons observation new ih =>
      rw [List.forall_mem_cons] at hnew
      obtain ⟨⟨hbackoff, hclaim⟩, hrest⟩ := hnew
      obtain ⟨hhonours, hsame⟩ := ih hrest
      constructor
      · exact honoursBackoff_cons_of_claim hhonours (by simp [hclaim])
      · simpa [backoffs, hbackoff] using hsame

/-! ## Stale-queued selection over time -/

theorem findStaleQueued_later {now later seconds : Int}
    {row : Extraction Json} (hle : now ≤ later)
    (h : findStaleQueued now seconds row = true) :
    findStaleQueued later seconds row = true := by
  simp only [findStaleQueued, Bool.and_eq_true, decide_eq_true_eq] at h ⊢
  obtain ⟨hstatus, hclock⟩ := h
  refine ⟨hstatus, ?_⟩
  unfold staleCutoff at hclock ⊢
  omega

theorem findStaleQueued_earlier {now later seconds : Int}
    {row : Extraction Json} (hle : now ≤ later)
    (h : findStaleQueued later seconds row = false) :
    findStaleQueued now seconds row = false := by
  cases hnow : findStaleQueued now seconds row with
  | false => rfl
  | true =>
      rw [findStaleQueued_later hle hnow] at h
      cases h

namespace AsyncPath

def unhandled (state : AsyncPath Worker Json Result) : Prop :=
  ∀ worker, (state.process .main worker).all
    (fun process => process.claimed.isSome) = true

/-- Nothing can make a worker claim `row` before `deadline`. -/
structure Undisturbed (settings : IDPSettings)
    (state : AsyncPath Worker Json Result) (row : Extraction Json)
    (deadline : Int) : Prop where
  unhandled : state.unhandled
  inFlight_eq : (state.channel .main).inFlight = 0
  reaping_eq : (state.channel .main).reaping = 0
  delayed_le : ∀ due ∈ (state.channel .main).delayed, deadline ≤ due
  not_polled : settings.pollSelects (deadline - 1) row = false
  not_swept : Sweep.orphanQueued.selects settings (deadline - 1) row = false

def requeueUntil (settings : IDPSettings)
    (state : AsyncPath Worker Json Result) :
    Label Worker Result → Option Int
  | .process .main worker (.recover jitter) =>
      match state.process .main worker with
      | some (.recovering claimed failure) =>
          let attempts := Leg.main.attempts claimed
          if failure.isPermanent = false ∧
              (attempts : Int) < settings.jobMaxAttempts ∧
              settings.jitterAllowed attempts jitter = true ∧
              state.row.status = .running then
            some (state.now + settings.backoffDelay attempts jitter)
          else none
      | _ => none
  | _ => none

/--
A requeue happens with nothing else around and within the windows of the poll
and the reaper, and the bus redelivers nothing while a backoff lasts.
-/
structure Patient (settings : IDPSettings)
    (state : AsyncPath Worker Json Result) (label : Label Worker Result) :
    Prop where
  requeues : ∀ deadline ∈ requeueUntil settings state label,
    Undisturbed settings state
      ((Call.requeueForRetry.update state.now).values state.row) deadline
  redelivers : label = .bus .main .redeliver →
    ∀ deadline ∈ (backoffs state.history).head?, deadline ≤ state.now

section

variable {settings : IDPSettings} {modelDump : Result → Json}
  {state next : AsyncPath Worker Json Result} {label : Label Worker Result}
  {deadline : Int} {row : Extraction Json}

/-! ## A row that waits -/

theorem Undisturbed.of_channel (h : Undisturbed settings state row deadline)
    (hunhandled : next.unhandled)
    (hinFlight : (next.channel .main).inFlight =
      (state.channel .main).inFlight)
    (hreaping : (next.channel .main).reaping = (state.channel .main).reaping)
    (hdelayed : (next.channel .main).delayed ⊆
      (state.channel .main).delayed) :
    Undisturbed settings next row deadline where
  unhandled := hunhandled
  inFlight_eq := hinFlight.trans h.inFlight_eq
  reaping_eq := hreaping.trans h.reaping_eq
  delayed_le due hdue := h.delayed_le due (hdelayed hdue)
  not_polled := h.not_polled
  not_swept := h.not_swept

theorem Undisturbed.of_frame (h : Undisturbed settings state row deadline)
    (hprocess : next.process .main = state.process .main)
    (hchannel : next.channel .main = state.channel .main) :
    Undisturbed settings next row deadline := by
  have hunhandled : next.unhandled := by
    intro worker
    rw [hprocess]
    exact h.unhandled worker
  exact h.of_channel hunhandled (by rw [hchannel]) (by rw [hchannel])
    (by rw [hchannel]; exact List.Subset.refl _)

theorem Undisturbed.of_row (h : Undisturbed settings state row deadline)
    {later : Extraction Json} (hlater : later = row ∨ later.status ≠ .queued) :
    Undisturbed settings state later deadline := by
  rcases hlater with rfl | hstatus
  · exact h
  · have hpolled : settings.pollSelects (deadline - 1) later = false := by
      simp [IDPSettings.pollSelects, findStaleQueued, hstatus]
    have hswept :
        Sweep.orphanQueued.selects settings (deadline - 1) later = false := by
      simp [Sweep.selects, findStaleQueued, hstatus]
    exact { h with not_polled := hpolled, not_swept := hswept }

theorem Undisturbed.not_polled_before
    (h : Undisturbed settings state row deadline) {now : Int}
    (hnow : now < deadline) : settings.pollSelects now row = false := by
  have hpolled := h.not_polled
  simp only [IDPSettings.pollSelects, Bool.and_eq_false_iff] at hpolled ⊢
  exact hpolled.imp_right (findStaleQueued_earlier (by omega))

theorem Undisturbed.not_swept_before
    (h : Undisturbed settings state row deadline) {now : Int}
    (hnow : now < deadline) :
    Sweep.orphanQueued.selects settings now row = false :=
  findStaleQueued_earlier (by omega) h.not_swept

theorem setChannel_other {leg other : Leg} (hleg : other ≠ leg)
    (channel : Channel) :
    state.setChannel leg channel other = state.channel other := by
  simp [setChannel, hleg]

theorem channelAfter_main {effect : Effect Worker Json Result} {leg : Leg}
    (h : leg = .bbox ∨ effect.delayed = none) :
    state.channelAfter leg effect .main = state.channel .main := by
  rcases h with rfl | hnone
  · simp only [channelAfter, reduceCtorEq, false_and, if_false]
    split <;> rfl
  · simp [channelAfter, hnone]

/-! ## The invariant -/

structure BackedOff (settings : IDPSettings)
    (state : AsyncPath Worker Json Result) : Prop where
  honours : HonoursBackoff state.history
  elapsed : ∀ deadline ∈ backoffs state.history,
    deadline ≤ state.now ∨ (backoffs state.history).head? = some deadline
  not_running : ∀ deadline ∈ (backoffs state.history).head?,
    state.now < deadline → state.row.status ≠ .running
  waiting : ∀ deadline ∈ (backoffs state.history).head?,
    state.now < deadline → Undisturbed settings state state.row deadline

theorem BackedOff.all_elapsed (h : BackedOff settings state)
    (hhead : ∀ deadline ∈ (backoffs state.history).head?,
      deadline ≤ state.now) :
    ∀ deadline ∈ backoffs state.history, deadline ≤ state.now := by
  intro deadline hmem
  rcases h.elapsed deadline hmem with hle | hnewest
  · exact hle
  · exact hhead deadline hnewest

theorem BackedOff.all_elapsed_of_running (h : BackedOff settings state)
    (hrunning : state.row.status = .running) :
    ∀ deadline ∈ backoffs state.history, deadline ≤ state.now := by
  refine h.all_elapsed ?_
  intro deadline hhead
  by_contra hlt
  exact h.not_running deadline hhead (by omega) hrunning

theorem BackedOff.of_frame (h : BackedOff settings state)
    {new : List (Observation Worker Json Result)}
    (hnew : ∀ observation ∈ new, observation.backoffUntil = none ∧
      observation.claimTime = none)
    (hhistory : next.history = new ++ state.history)
    (hnow : state.now ≤ next.now)
    (hrow : next.row.status = .running → state.row.status = .running)
    (hwaiting : ∀ deadline, next.now < deadline →
      state.row.status ≠ .running →
      Undisturbed settings state state.row deadline →
      Undisturbed settings next next.row deadline) :
    BackedOff settings next := by
  obtain ⟨hhonours, hsame⟩ := honoursBackoff_append h.honours hnew
  rw [← hhistory] at hhonours hsame
  constructor
  · exact hhonours
  · intro deadline hmem
    rw [hsame] at hmem ⊢
    exact (h.elapsed deadline hmem).imp_left fun hle => by omega
  · intro deadline hhead hlt hrunning
    rw [hsame] at hhead
    exact h.not_running deadline hhead (by omega) (hrow hrunning)
  · intro deadline hhead hlt
    rw [hsame] at hhead
    have hbefore : state.now < deadline := by omega
    exact hwaiting deadline hlt (h.not_running deadline hhead hbefore)
      (h.waiting deadline hhead hbefore)

theorem BackedOff.of_environment (h : BackedOff settings state)
    (hhistory : next.history = state.history) (hnow : state.now ≤ next.now)
    (hrow : next.row.status = .running → state.row.status = .running)
    (hwaiting : ∀ deadline, next.now < deadline →
      state.row.status ≠ .running →
      Undisturbed settings state state.row deadline →
      Undisturbed settings next next.row deadline) :
    BackedOff settings next :=
  h.of_frame (List.forall_mem_nil _) hhistory hnow hrow hwaiting

theorem BackedOff.after_carried (h : BackedOff settings state)
    {action : BusAction} {channel : Channel}
    (hpatient : Patient settings state (.bus .main action))
    (hchannel : (state.channel .main).step state.now action = some channel) :
    BackedOff settings
      { state with channel := state.setChannel .main channel } := by
  constructor
  · exact h.honours
  · exact h.elapsed
  · exact h.not_running
  · intro deadline hhead hlt
    have hwaiting := h.waiting deadline hhead hlt
    have hself : state.setChannel .main channel .main = channel := by
      simp [setChannel]
    cases action with
    | redeliver =>
        have hle := hpatient.redelivers rfl deadline hhead
        simp only at hlt
        omega
    | drop => simp [Channel.step, hwaiting.inFlight_eq] at hchannel
    | fireDelayed due =>
        simp only [Channel.step] at hchannel
        split at hchannel
        next hdue =>
          have hle := hwaiting.delayed_le due hdue.1
          simp only at hlt
          omega
        · cases hchannel
    | loseDelayed due =>
        simp only [Channel.step] at hchannel
        split at hchannel
        · cases hchannel
          refine hwaiting.of_channel hwaiting.unhandled ?_ ?_ ?_
          · simp only [hself]
          · simp only [hself]
          · simp only [hself]
            exact List.erase_subset
        · cases hchannel
    | republish | abandonRepublish =>
        simp [Channel.step, hwaiting.reaping_eq] at hchannel

end

/-! ## Steps of the bbox tasks -/

section

variable {settings : IDPSettings} {modelDump : Result → Json} {now : Int}
  {worker : Worker} {row : Extraction Json} {process : Process Json Result}
  {action : Action Result} {effect : Effect Worker Json Result}

theorem bbox_row (h : Handled settings modelDump .bbox now worker row process
      action effect) :
    effect.row = row ∨
      row.status = .succeeded ∧ effect.row.status = .succeeded := by
  cases h with
  | quiet | notified => exact .inl rfl
  | claimed _ hreturn =>
      obtain ⟨hguard, heq⟩ :=
        ConditionalUpdate.returning_eq_some_iff.mp hreturn
      have hstatus := (claimBboxRefinement_guard hguard).1
      subst heq
      exact .inr ⟨hstatus, hstatus⟩
  | finalised _ hreturn | failed _ _ hreturn | requeued _ _ _ _ hreturn =>
      obtain ⟨hguard, heq⟩ :=
        ConditionalUpdate.returning_eq_some_iff.mp hreturn
      have hstatus := (bboxRunning_iff.mp hguard).1
      subst heq
      exact .inr ⟨hstatus, hstatus⟩

theorem bbox_observed (h : Handled settings modelDump .bbox now worker row
      process action effect) :
    ∀ observation ∈ effect.observed, observation.backoffUntil = none ∧
      observation.claimTime = none := by
  cases h with
  | quiet => simp
  | claimed | finalised | failed =>
      simp [Observation.backoffUntil, Observation.claimTime, Leg.claimCall,
        Leg.finaliseCall, Leg.failCall, Call.isMarkRunning]
  | requeued =>
      simp [Observation.backoffUntil, Observation.claimTime, Leg.requeueCall,
        Call.isMarkRunning]
  | notified =>
      simp only [Effect.fireWebhook]
      split <;> simp [Observation.backoffUntil, Observation.claimTime]

end

/-! ## One step -/

section

variable [DecidableEq Worker] {settings : IDPSettings}
  {modelDump : Result → Json} {state next : AsyncPath Worker Json Result}
  {label : Label Worker Result} {deadline : Int} {row : Extraction Json}
  {leg : Leg} {worker : Worker} {process : Process Json Result}
  {action : Action Result} {effect : Effect Worker Json Result}

theorem setProcess_bbox_main (state : AsyncPath Worker Json Result)
    (worker : Worker) (next : Option (Process Json Result)) :
    state.setProcess .bbox worker next .main = state.process .main := by
  funext agent
  exact setProcess_other (.inl fun hleg => Leg.noConfusion hleg)

theorem BackedOff.after_bbox (h : BackedOff settings state)
    (hhandled : Handled settings modelDump .bbox state.now worker state.row
      process action effect) :
    BackedOff settings (state.after .bbox worker effect) := by
  have hrow := bbox_row hhandled
  refine h.of_frame (bbox_observed hhandled) rfl le_rfl ?_ ?_
  · intro hrunning
    simp only [after] at hrunning
    rcases hrow with hsame | ⟨-, hsucceeded⟩
    · rwa [hsame] at hrunning
    · rw [hsucceeded] at hrunning
      cases hrunning
  · intro deadline _ _ hwaiting
    have hlater : effect.row = state.row ∨ effect.row.status ≠ .queued := by
      refine hrow.imp_right ?_
      rintro ⟨-, hsucceeded⟩
      simp [hsucceeded]
    exact (hwaiting.of_row hlater).of_frame
      (setProcess_bbox_main state worker effect.next)
      (channelAfter_main (.inl rfl))

theorem unhandled_after (h : state.unhandled)
    (hnext : ∀ after ∈ effect.next, after.claimed.isSome = true) :
    (state.after .main worker effect).unhandled := by
  intro agent
  simp only [after]
  rcases state.setProcess_cases .main .main worker agent effect.next with
    ⟨-, -, hsame⟩ | ⟨-, hframe⟩
  · rw [hsame, Option.all_eq_true]
    exact hnext
  · rw [hframe]
    exact h agent

theorem Undisturbed.after_main (h : Undisturbed settings state row deadline)
    (hprocess : state.process .main worker = some process)
    (hnext : ∀ after ∈ effect.next, after.claimed = process.claimed)
    (hdelayed : effect.delayed = none) :
    Undisturbed settings (state.after .main worker effect) row deadline := by
  have hchannel : (state.after .main worker effect).channel .main =
      state.channel .main := channelAfter_main (.inr hdelayed)
  have hheld : process.claimed.isSome = true := by
    have hall := h.unhandled worker
    rwa [hprocess] at hall
  have hunhandled : (state.after .main worker effect).unhandled := by
    refine unhandled_after h.unhandled ?_
    intro after hafter
    rwa [hnext after hafter]
  exact h.of_channel hunhandled (by rw [hchannel]) (by rw [hchannel])
    (by rw [hchannel]; exact List.Subset.refl _)

theorem BackedOff.after_claimed (h : BackedOff settings state)
    (hprocess : state.process .main worker = some .loaded)
    (hobserved : effect.observed =
      [.returned state.now worker (Leg.main.claimCall settings) effect.row]) :
    BackedOff settings (state.after .main worker effect) := by
  have helapsed : ∀ deadline ∈ backoffs state.history,
      deadline ≤ state.now := by
    refine h.all_elapsed ?_
    intro deadline hhead
    by_contra hlt
    have hall := (h.waiting deadline hhead (by omega)).unhandled worker
    simp [hprocess, Process.claimed] at hall
  have hsame : backoffs (state.after .main worker effect).history =
      backoffs state.history := by
    simp only [after, hobserved]
    rfl
  have hnewest : ∀ deadline ∈
      (backoffs (state.after .main worker effect).history).head?,
      deadline ≤ state.now := by
    intro deadline hhead
    rw [hsame] at hhead
    exact helapsed deadline (List.mem_of_mem_head? hhead)
  constructor
  · simp only [after, hobserved, List.singleton_append]
    refine honoursBackoff_cons_of_claim h.honours ?_
    intro time htime
    have hnow : state.now = time := by
      simpa [Observation.claimTime, Leg.claimCall, Call.isMarkRunning] using
        htime
    rwa [← hnow]
  · intro deadline hmem
    rw [hsame] at hmem
    exact .inl (helapsed deadline hmem)
  · intro deadline hhead hlt
    have hle := hnewest deadline hhead
    simp only [after] at hlt
    omega
  · intro deadline hhead hlt
    have hle := hnewest deadline hhead
    simp only [after] at hlt
    omega

theorem BackedOff.after_closing (h : BackedOff settings state)
    {call : Call Json} (hcloses : call.closesClaim = true)
    (hreturn : (call.update state.now).returning state.row = some effect.row)
    (hobserved : ∀ observation ∈ effect.observed,
      observation.backoffUntil = none ∧ observation.claimTime = none) :
    BackedOff settings (state.after .main worker effect) := by
  have hrunning := running_of_closesClaim hcloses hreturn
  refine h.of_frame hobserved rfl le_rfl (fun _ => hrunning) ?_
  intro deadline _ hnot
  exact absurd hrunning hnot

theorem BackedOff.after_requeued (h : BackedOff settings state)
    {claimed : Extraction Json} {failure : Failure} {jitter : Int}
    (hprocess : state.process .main worker =
      some (.recovering claimed failure))
    (hpermanent : failure.isPermanent = false)
    (hbudget : (Leg.main.attempts claimed : Int) < settings.jobMaxAttempts)
    (hjitter : settings.jitterAllowed (Leg.main.attempts claimed) jitter =
      true)
    (hreturn : ((Leg.main.requeueCall : Call Json).update
      state.now).returning state.row = some row)
    (hpatient : Patient settings state
      (.process .main worker (.recover jitter))) :
    BackedOff settings (state.after .main worker
      { row := row
        next := none
        observed :=
          [.backingOff .main state.now worker
              (settings.backoffDelay (Leg.main.attempts claimed) jitter),
            .returned state.now worker Leg.main.requeueCall row]
        delayed := some
          (settings.backoffDelay (Leg.main.attempts claimed) jitter) }) := by
  have hrunning : state.row.status = .running :=
    running_of_closesClaim rfl hreturn
  have helapsed := h.all_elapsed_of_running hrunning
  obtain ⟨-, hrow⟩ := ConditionalUpdate.returning_eq_some_iff.mp hreturn
  have hqueued : row.status = .queued := by
    rw [← hrow]
    rfl
  have hclear := hpatient.requeues
    (state.now + settings.backoffDelay (Leg.main.attempts claimed) jitter) (by
      simp [requeueUntil, hprocess, hpermanent, hbudget, hjitter, hrunning])
  obtain ⟨hunhandled, hinFlight, hreaping, hdue, hpolled, hswept⟩ := hclear
  constructor
  · refine honoursBackoff_cons_of_claim
      (honoursBackoff_cons_of_claim h.honours ?_) ?_ <;>
      simp [Observation.claimTime, Leg.requeueCall, Call.isMarkRunning]
  · intro deadline hmem
    rw [after, List.cons_append, mem_backoffs] at hmem
    obtain ⟨observation, hobservation, hdeadline⟩ := hmem
    simp only [List.mem_cons, List.cons_append, List.nil_append] at hobservation
    rcases hobservation with rfl | rfl | hold
    · right
      exact hdeadline
    · cases hdeadline
    · left
      exact helapsed deadline (mem_backoffs.mpr ⟨_, hold, hdeadline⟩)
  · intro deadline _ _
    simp [after, hqueued]
  · intro deadline hhead _
    have hdeadline : state.now +
        settings.backoffDelay (Leg.main.attempts claimed) jitter =
          deadline := by
      simpa [after, backoffs, Observation.backoffUntil] using hhead
    subst hdeadline
    have hrowEq : row = (Call.requeueForRetry.update state.now).values
        state.row := hrow.symm
    constructor
    · exact unhandled_after hunhandled (by simp)
    · simpa [after, channelAfter, Channel.schedule] using hinFlight
    · simpa [after, channelAfter, Channel.schedule] using hreaping
    · simpa [after, channelAfter, Channel.schedule] using hdue
    · simpa only [after, hrowEq] using hpolled
    · simpa only [after, hrowEq] using hswept

theorem BackedOff.after_main (h : BackedOff settings state)
    (hprocess : state.process .main worker = some process)
    (hhandled : Handled settings modelDump .main state.now worker state.row
      process action effect)
    (hpatient : Patient settings state (.process .main worker action)) :
    BackedOff settings (state.after .main worker effect) := by
  cases hhandled with
  | quiet hnext =>
      refine h.of_frame (by simp) rfl le_rfl id ?_
      intro deadline _ _ hwaiting
      exact hwaiting.after_main hprocess hnext rfl
  | @notified _ claimed finalised result nextProcess _ _ _ hnext _ =>
      refine h.of_frame ?_ rfl le_rfl id ?_
      · simp only [Effect.fireWebhook]
        split <;> simp [Observation.backoffUntil, Observation.claimTime]
      · intro deadline _ _ hwaiting
        exact hwaiting.after_main hprocess hnext rfl
  | claimed hloaded =>
      subst hloaded
      exact h.after_claimed hprocess rfl
  | finalised _ hreturn =>
      refine h.after_closing rfl hreturn ?_
      simp [Observation.backoffUntil, Observation.claimTime,
        Leg.finaliseCall, Call.isMarkRunning]
  | failed _ _ hreturn =>
      refine h.after_closing rfl hreturn ?_
      simp [Observation.backoffUntil, Observation.claimTime, Leg.failCall,
        Call.isMarkRunning]
  | requeued hrecovering hpermanent hbudget hjitter hreturn =>
      subst hrecovering
      exact h.after_requeued hprocess hpermanent hbudget hjitter hreturn
        hpatient

theorem markCancelled_row (now : Int) (row : Extraction Json) :
    (Call.markCancelled.update now).apply row = row ∨
      ((Call.markCancelled.update now).apply row).status = .cancelled := by
  rcases ConditionalUpdate.apply_cases (Call.markCancelled.update now) row with
    ⟨-, -, happly⟩ | ⟨-, -, happly⟩
  · exact .inl happly
  · right
    rw [happly]
    rfl

theorem backedOff_step (h : BackedOff settings state)
    (hpatient : Patient settings state label)
    (hstep : step settings modelDump state label = some next) :
    BackedOff settings next := by
  have hmain : Leg.main ≠ Leg.bbox := by decide
  cases stepped hstep with
  | @processed leg worker action process effect hprocess hhandled =>
      cases leg with
      | main => exact h.after_main hprocess hhandled hpatient
      | bbox => exact h.after_bbox hhandled
  | @delivered leg worker hinFlight hnone =>
      refine h.of_environment rfl le_rfl id ?_
      intro deadline _ _ hwaiting
      cases leg with
      | main =>
          rw [hwaiting.inFlight_eq] at hinFlight
          cases hinFlight
      | bbox =>
          refine hwaiting.of_frame ?_ ?_
          · exact setProcess_bbox_main state worker (some .received)
          · simp only [setChannel_other hmain]
  | polled hpolled =>
      refine h.of_environment rfl le_rfl id ?_
      intro deadline hlt _ hwaiting
      rw [hwaiting.not_polled_before hlt] at hpolled
      cases hpolled
  | cancelled =>
      have hrow := markCancelled_row state.now state.row
      refine h.of_environment rfl le_rfl ?_ ?_
      · intro hrunning
        rcases hrow with hsame | hcancelled
        · simpa only [hsame] using hrunning
        · simp [hcancelled] at hrunning
      · intro deadline _ _ hwaiting
        refine Undisturbed.of_frame (hwaiting.of_row ?_) rfl rfl
        refine hrow.imp_right fun hcancelled => ?_
        simp [hcancelled]
  | ticked =>
      refine h.of_environment rfl (Int.le_add_of_nonneg_right (by omega)) id ?_
      intro deadline _ _ hwaiting
      exact hwaiting.of_frame rfl rfl
  | @carried leg action channel hchannel =>
      cases leg with
      | bbox =>
          refine h.of_environment rfl le_rfl id ?_
          intro deadline _ _ hwaiting
          refine hwaiting.of_frame rfl ?_
          simp only [setChannel_other hmain]
      | main => exact h.after_carried hpatient hchannel
  | @swept query hselects =>
      refine h.of_environment rfl le_rfl id ?_
      intro deadline hlt hnot hwaiting
      cases query with
      | staleRunning =>
          simp [Sweep.selects, findStaleRunning, hnot] at hselects
      | orphanQueued =>
          rw [hwaiting.not_swept_before hlt] at hselects
          cases hselects
      | staleRunningBbox | orphanPendingBbox =>
          refine hwaiting.of_frame rfl ?_
          simp only [Sweep.leg, setChannel_other hmain]

/--
In a run whose steps are all `Patient`, no claim returns the row before the
delay computed at an earlier requeue has passed.
-/
theorem backoff_honoured (settings : IDPSettings) (modelDump : Result → Json)
    (submittedAt : Int) (callbackUrl : Option String)
    (labels : List (Label Worker Result))
    (state : AsyncPath Worker Json Result)
    (hpatient : LabelledStep.EveryStep (step settings modelDump)
      (Patient settings) (submitted submittedAt callbackUrl) labels)
    (hreaches : Reaches settings modelDump submittedAt callbackUrl labels
      state) :
    HonoursBackoff state.history := by
  have hinvariant : BackedOff settings state := by
    refine LabelledStep.run_invariant_of_everyStep (BackedOff settings)
      (fun _ _ _ hgood hmeets hstep => backedOff_step hgood hmeets hstep) ?_
      hpatient hreaches
    constructor
    · exact List.Pairwise.nil
    · simp [submitted, backoffs]
    · simp [submitted, backoffs]
    · simp [submitted, backoffs]
  exact hinvariant.honours

end

/-! ## A requeue within the grace, and one after it -/

instance decidableHonoursBackoff
    (history : List (Observation Worker Json Result)) :
    Decidable (HonoursBackoff history) :=
  inferInstanceAs (Decidable (List.Pairwise _ history))

instance decidableUnhandled [Fintype Worker]
    (state : AsyncPath Worker Json Result) : Decidable state.unhandled :=
  inferInstanceAs (Decidable (∀ worker,
    (state.process .main worker).all
      (fun process => process.claimed.isSome) = true))

instance decidableUndisturbed [Fintype Worker] (settings : IDPSettings)
    (state : AsyncPath Worker Json Result) (row : Extraction Json)
    (deadline : Int) : Decidable (Undisturbed settings state row deadline) :=
  decidable_of_iff
    (state.unhandled ∧ (state.channel .main).inFlight = 0 ∧
      (state.channel .main).reaping = 0 ∧
      (∀ due ∈ (state.channel .main).delayed, deadline ≤ due) ∧
      settings.pollSelects (deadline - 1) row = false ∧
      Sweep.orphanQueued.selects settings (deadline - 1) row = false)
    ⟨fun ⟨h₁, h₂, h₃, h₄, h₅, h₆⟩ => ⟨h₁, h₂, h₃, h₄, h₅, h₆⟩,
      fun ⟨h₁, h₂, h₃, h₄, h₅, h₆⟩ => ⟨h₁, h₂, h₃, h₄, h₅, h₆⟩⟩

instance decidablePatient [Fintype Worker] [DecidableEq Worker]
    [DecidableEq Result] (settings : IDPSettings)
    (state : AsyncPath Worker Json Result) (label : Label Worker Result) :
    Decidable (Patient settings state label) :=
  decidable_of_iff
    ((∀ deadline ∈ requeueUntil settings state label,
        Undisturbed settings state
          ((Call.requeueForRetry.update state.now).values state.row)
          deadline) ∧
      (label = .bus .main .redeliver →
        ∀ deadline ∈ (backoffs state.history).head?, deadline ≤ state.now))
    ⟨fun ⟨h₁, h₂⟩ => ⟨h₁, h₂⟩, fun ⟨h₁, h₂⟩ => ⟨h₁, h₂⟩⟩

/-- An attempt that fails after `elapsed` and is requeued without jitter. -/
def requeuedAfter (elapsed : Nat) : List (Label Unit Unit) :=
  [.deliver .main (), .process .main () .get, .process .main () .claim,
    .tick elapsed,
    .process .main () (.raise ⟨false, false, "timed out", "timed out"⟩),
    .process .main () (.recover 0)]

def republished : List (Label Unit Unit) :=
  [.tick 5000000, .bus .main (.fireDelayed 6000000), .deliver .main (),
    .process .main () .get, .process .main () .claim]

theorem backoff_honoured_republished :
    ∃ state : AsyncPath Unit Unit Unit,
      Reaches {} id 0 none (requeuedAfter 1000000 ++ republished) state ∧
        executions .main state.history = 2 ∧
        HonoursBackoff state.history := by
  have hrun : (LabelledStep.run (step {} id)
      (submitted 0 none : AsyncPath Unit Unit Unit)
      (requeuedAfter 1000000 ++ republished)).map
        (fun state => executions .main state.history) = some 2 := by
    decide +kernel
  obtain ⟨state, hstate, htwo⟩ := Option.map_eq_some_iff.mp hrun
  exact ⟨state, hstate, htwo,
    backoff_honoured {} id 0 none _ state (by decide +kernel) hstate⟩

/-- The next poll sweep claims a row whose attempt ran for a minute. -/
def polledAtOnce : List (Label Unit Unit) :=
  requeuedAfter 60000000 ++
    [.poll (), .process .main () .get, .process .main () .claim]

theorem poll_claims_during_backoff :
    ¬ ∀ (labels : List (Label Unit Unit)) (state : AsyncPath Unit Unit Unit),
      Reaches {} id 0 none labels state → HonoursBackoff state.history := by
  intro hclaim
  have hrun : (LabelledStep.run (step {} id)
      (submitted 0 none : AsyncPath Unit Unit Unit) polledAtOnce).map
        (fun state => decide (HonoursBackoff state.history)) =
      some false := by
    decide +kernel
  obtain ⟨state, hstate, hearly⟩ := Option.map_eq_some_iff.mp hrun
  exact of_decide_eq_false hearly (hclaim polledAtOnce state hstate)

end AsyncPath

end Flydocs
