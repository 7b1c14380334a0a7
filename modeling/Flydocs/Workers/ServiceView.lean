import Flydocs.Foundation.Projection
import Flydocs.Workers.Claims
import Flydocs.Workers.Service

/-!
# One extraction of the service

What the service looks like from one extraction: its row, its topics, the tasks
that handle it and the polls that have picked it up.  An id in the backlog of a
poll is an event that its task has received, and an insert whose event is not
yet published has it in flight.
-/

namespace Flydocs

open Foundation ExtractionRepository Extraction

variable {Id Worker Json Result : Type*}

theorem AsyncPath.eq_of_fields {first second : AsyncPath Worker Json Result}
    (hnow : first.now = second.now) (hrow : first.row = second.row)
    (hprocess : first.process = second.process)
    (hchannel : first.channel = second.channel)
    (hhistory : first.history = second.history) : first = second := by
  cases first
  cases second
  simp_all

namespace Service

section View

variable [DecidableEq Id]

def waiting (state : Service Id Worker Json Result) (id : Id) (leg : Leg)
    (worker : Worker) : Option (Process Json Result) :=
  if leg = .main ∧ id ∈ state.backlog worker then some .received else none

/-- The process a slot holds for the extraction, else what waits there. -/
def processIn (id : Id) (task : Option (Id × Process Json Result))
    (waiting : Option (Process Json Result)) :
    Option (Process Json Result) :=
  match task with
  | some (other, process) => if other = id then some process else waiting
  | none => waiting

def processOf (state : Service Id Worker Json Result) (id : Id) (leg : Leg)
    (worker : Worker) : Option (Process Json Result) :=
  processIn id (state.task leg worker) (state.waiting id leg worker)

/-- To the extraction its event counts as published from the insert on. -/
def shownChannel (unpublished : Bool) (channel : Channel) : Leg → Channel
  | .main =>
      { channel with
        published := true
        inFlight := channel.inFlight + unpublished.toNat }
  | .bbox => channel

def channelOf (state : Service Id Worker Json Result) (id : Id) (leg : Leg) :
    Channel :=
  shownChannel (state.unpublished id) (state.channel leg id) leg

def historyOf (history : List (Id × Observation Worker Json Result)) (id : Id) :
    List (Observation Worker Json Result) :=
  history.filterMap fun entry => if entry.1 = id then some entry.2 else none

def shown (state : Service Id Worker Json Result) (id : Id)
    (row : Extraction Json) : AsyncPath Worker Json Result where
  now := state.now
  row := row
  process := state.processOf id
  channel := state.channelOf id
  history := historyOf state.history id

def view (id : Id) (state : Service Id Worker Json Result) :
    Option (AsyncPath Worker Json Result) :=
  (state.table id).map (state.shown id)

/-! ## Parts of the view -/

section

variable {id : Id} {waiting : Option (Process Json Result)}

@[simp] theorem processIn_none :
    processIn id none waiting = waiting := rfl

@[simp] theorem processIn_self (process : Process Json Result) :
    processIn id (some (id, process)) waiting = some process :=
  if_pos rfl

theorem processIn_other {x : Id} (hx : x ≠ id)
    (next : Option (Process Json Result)) :
    processIn id (next.map (x, ·)) waiting = waiting := by
  cases next with
  | none => rfl
  | some process => exact if_neg hx

theorem processIn_map (next : Option (Process Json Result))
    (h : waiting = none) :
    processIn id (next.map (id, ·)) waiting = next := by
  cases next with
  | none => exact h
  | some process => exact if_pos rfl

end

section

variable {state next : Service Id Worker Json Result} {id : Id}

theorem historyOf_append (new : List (Observation Worker Json Result)) (x : Id)
    (history : List (Id × Observation Worker Json Result)) :
    historyOf (new.map (x, ·) ++ history) id =
      if x = id then new ++ historyOf history id else historyOf history id := by
  by_cases hx : x = id
  · simp [historyOf, hx, List.filterMap_map]
  · simp [historyOf, hx, List.filterMap_map]

theorem shownChannel_publish (unpublished : Bool) (channel : Channel)
    (leg : Leg) :
    shownChannel unpublished channel.publish leg =
      (shownChannel unpublished channel leg).publish := by
  cases leg with
  | bbox => rfl
  | main =>
      simp only [shownChannel, Channel.publish, Channel.mk.injEq, true_and,
        and_true]
      omega

theorem shownChannel_schedule (unpublished : Bool) (channel : Channel)
    (due : Int) (leg : Leg) :
    shownChannel unpublished (channel.schedule due) leg =
      (shownChannel unpublished channel leg).schedule due := by
  cases leg <;> rfl

theorem shownChannel_channelAfter (unpublished : Bool) (now : Int) (leg : Leg)
    (effect : Effect Worker Json Result) (channel : Leg → Channel)
    (other : Leg) :
    shownChannel unpublished (channelAfter now leg effect channel other) other =
      channelAfter now leg effect
        (fun leg => shownChannel unpublished (channel leg) leg) other := by
  unfold channelAfter
  cases effect.delayed with
  | none =>
      by_cases hrequested : other = .bbox ∧ effect.requested = true
      · simp only [if_pos hrequested, shownChannel_publish]
      · simp only [if_neg hrequested]
  | some delay =>
      have hscheduled : shownChannel unpublished
          (if other = leg then (channel other).schedule (now + delay)
            else channel other) other =
          if other = leg then
            (shownChannel unpublished (channel other) other).schedule
              (now + delay)
          else shownChannel unpublished (channel other) other := by
        split
        · exact shownChannel_schedule _ _ _ _
        · rfl
      by_cases hrequested : other = .bbox ∧ effect.requested = true
      · simp only [if_pos hrequested, shownChannel_publish, hscheduled]
      · simp only [if_neg hrequested, hscheduled]

theorem shownChannel_step {unpublished : Bool} {channel after : Channel}
    {now : Int} {action : BusAction} (leg : Leg)
    (h : channel.step now action = some after) :
    (shownChannel unpublished channel leg).step now action =
      some (shownChannel unpublished after leg) := by
  cases leg with
  | bbox => exact h
  | main =>
      cases action <;>
        simp only [Channel.step, Option.ite_none_right_eq_some,
          Option.some.injEq] at h <;> obtain ⟨hguard, rfl⟩ := h
      · simp [Channel.step, shownChannel, Channel.publish]
        omega
      · have hdrop : channel.inFlight - 1 + unpublished.toNat =
            channel.inFlight + unpublished.toNat - 1 := by
          omega
        simp [Channel.step, shownChannel, hdrop, Nat.add_pos_left hguard]
      · simp [Channel.step, shownChannel, Channel.publish, hguard]
        omega
      · simp [Channel.step, shownChannel, hguard]
      · simp [Channel.step, shownChannel, Channel.publish, hguard]
        omega
      · simp [Channel.step, shownChannel, hguard]

theorem processOf_idle {leg : Leg} {worker : Worker}
    (h : state.idle leg worker = true) :
    state.processOf id leg worker = none := by
  obtain ⟨hnone, hempty⟩ := idle_iff.mp h
  simp only [processOf, hnone, processIn_none, waiting]
  rw [if_neg]
  rintro ⟨hleg, hmem⟩
  simp [hempty hleg] at hmem

end

end View

end Service

end Flydocs
