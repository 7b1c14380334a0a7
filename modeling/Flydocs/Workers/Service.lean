import Flydocs.Workers.AsyncPath

/-!
# The service: many extractions

The table, the topics and the tasks of the whole deployment.  A task handles
one extraction at a time; the poll takes a batch of ids and hands them to
`_process` one after the other, long after it has selected them.  `history`
lists what happened to which extraction, newest first.
-/

namespace Flydocs

open Foundation ExtractionRepository Extraction

variable {Id Worker Json Result : Type*}

structure ServiceSettings extends IDPSettings where
  jobPollBatch : Nat := 10
  reaperBatch : Nat := 100
  deriving DecidableEq, Repr

structure Service (Id Worker Json Result : Type*) where
  now : Int
  table : Id → Option (Extraction Json)
  /-- The inserted rows whose submit handler is about to publish. -/
  unpublished : Id → Bool
  task : Leg → Worker → Option (Id × Process Json Result)
  /-- What a poll has still to hand to `_process`. -/
  backlog : Worker → List Id
  channel : Leg → Id → Channel
  history : List (Id × Observation Worker Json Result)

theorem update_update_apply {First Second Value : Type*} [DecidableEq First]
    [DecidableEq Second] (values : First → Second → Value) (first : First)
    (second : Second) (value : Value) (other : First) (another : Second) :
    Function.update values first (Function.update (values first) second value)
        other another =
      if other = first ∧ another = second then value
      else values other another := by
  by_cases hfirst : other = first
  · subst hfirst
    by_cases hsecond : another = second <;> simp [hsecond]
  · simp [hfirst]

namespace Service

inductive Label (Id Worker Result : Type*) where
  | submit (id : Id) (callbackUrl : Option String)
  | publish (id : Id)
  | abandonPublish (id : Id)
  | process (leg : Leg) (worker : Worker) (action : Action Result)
  | deliver (leg : Leg) (worker : Worker) (id : Id)
  | poll (worker : Worker) (ids : List Id)
  | next (worker : Worker)
  | stopPoll (worker : Worker)
  | cancel (id : Id)
  | tick (elapsed : Nat)
  | bus (leg : Leg) (id : Id) (action : BusAction)
  | sweep (query : Sweep) (ids : List Id)
  deriving DecidableEq, Repr

def empty (now : Int) : Service Id Worker Json Result where
  now := now
  table _ := none
  unpublished _ := false
  task _ _ := none
  backlog _ := []
  channel _ _ := Channel.idle
  history := []

/-- A `select(Extraction.id) ... limit(...)`: any of the rows that match. -/
def selected [DecidableEq Id] (state : Service Id Worker Json Result)
    (limit : Nat) (ids : List Id) (selects : Extraction Json → Bool) : Bool :=
  decide ids.Nodup && decide (ids.length ≤ limit) &&
    ids.all fun id => (state.table id).any selects

def channelAfter (now : Int) (leg : Leg) (effect : Effect Worker Json Result)
    (channel : Leg → Channel) (other : Leg) : Channel :=
  let scheduled :=
    match effect.delayed with
    | some delay =>
        if other = leg then (channel other).schedule (now + delay)
        else channel other
    | none => channel other
  if other = .bbox ∧ effect.requested = true then scheduled.publish
  else scheduled

section Step

variable [DecidableEq Id] [DecidableEq Worker]

def setRow (state : Service Id Worker Json Result) (id : Id)
    (row : Extraction Json) : Id → Option (Extraction Json) :=
  Function.update state.table id (some row)

def setTask (state : Service Id Worker Json Result) (leg : Leg)
    (worker : Worker) (next : Option (Id × Process Json Result)) :
    Leg → Worker → Option (Id × Process Json Result) :=
  Function.update state.task leg
    (Function.update (state.task leg) worker next)

def setChannel (state : Service Id Worker Json Result) (leg : Leg) (id : Id)
    (channel : Channel) : Leg → Id → Channel :=
  Function.update state.channel leg
    (Function.update (state.channel leg) id channel)

/-- A task slot takes an event when it is idle and is not polling. -/
def idle (state : Service Id Worker Json Result) (leg : Leg)
    (worker : Worker) : Bool :=
  (state.task leg worker).isNone &&
    (decide (leg = .bbox) || (state.backlog worker).isEmpty)

def after (state : Service Id Worker Json Result) (leg : Leg)
    (worker : Worker) (id : Id) (effect : Effect Worker Json Result) :
    Service Id Worker Json Result where
  now := state.now
  table := state.setRow id effect.row
  unpublished := state.unpublished
  task := state.setTask leg worker (effect.next.map (id, ·))
  backlog := state.backlog
  channel other :=
    Function.update (state.channel other) id
      (channelAfter state.now leg effect (state.channel · id) other)
  history := effect.observed.map (id, ·) ++ state.history

variable (settings : ServiceSettings) (modelDump : Result → Json)

def step : LabelledStep (Service Id Worker Json Result)
    (Label Id Worker Result)
  | state, .submit id callbackUrl =>
      if (state.table id).isNone then
        some
          { state with
            table := state.setRow id (.submitted state.now callbackUrl)
            unpublished := Function.update state.unpublished id true }
      else none
  | state, .publish id =>
      if state.unpublished id then
        some
          { state with
            unpublished := Function.update state.unpublished id false
            channel := state.setChannel .main id
              (state.channel .main id).publish }
      else none
  | state, .abandonPublish id =>
      if state.unpublished id then
        some
          { state with
            unpublished := Function.update state.unpublished id false }
      else none
  | state, .process leg worker action =>
      (state.task leg worker).bind fun task =>
        (state.table task.1).bind fun row =>
          (AsyncPath.processStep settings.toIDPSettings modelDump leg state.now
            worker row task.2 action).map (state.after leg worker task.1)
  | state, .deliver leg worker id =>
      if 0 < (state.channel leg id).inFlight ∧ state.idle leg worker = true then
        some
          { state with
            task := state.setTask leg worker (some (id, .received))
            channel := state.setChannel leg id
              { state.channel leg id with
                inFlight := (state.channel leg id).inFlight - 1 } }
      else none
  | state, .poll worker ids =>
      if state.idle .main worker = true ∧
          state.selected settings.jobPollBatch ids
            (settings.pollSelects state.now) = true then
        some { state with backlog := Function.update state.backlog worker ids }
      else none
  | state, .next worker =>
      match state.task .main worker, state.backlog worker with
      | none, id :: rest =>
          some
            { state with
              task := state.setTask .main worker (some (id, .received))
              backlog := Function.update state.backlog worker rest }
      | _, _ => none
  | state, .stopPoll worker =>
      if (state.task .main worker).isNone then
        some { state with backlog := Function.update state.backlog worker [] }
      else none
  | state, .cancel id =>
      (state.table id).map fun row =>
        { state with
          table := state.setRow id
            ((Call.markCancelled.update state.now).apply row) }
  | state, .tick elapsed => some { state with now := state.now + elapsed }
  | state, .bus leg id action =>
      ((state.channel leg id).step state.now action).map fun channel =>
        { state with channel := state.setChannel leg id channel }
  | state, .sweep query ids =>
      if state.selected settings.reaperBatch ids
          (query.selects settings.toIDPSettings state.now) = true then
        some
          { state with
            channel := Function.update state.channel query.leg fun id =>
              let channel := state.channel query.leg id
              if id ∈ ids then { channel with reaping := channel.reaping + 1 }
              else channel }
      else none

end Step

/-! ## Reading an updated state -/

section

variable {state : Service Id Worker Json Result} {id : Id} {leg : Leg}
  {worker : Worker}

theorem idle_iff : state.idle leg worker = true ↔
    state.task leg worker = none ∧
      (leg = .main → state.backlog worker = []) := by
  cases leg <;> simp [idle]

variable [DecidableEq Worker]

theorem setTask_apply (next : Option (Id × Process Json Result)) (other : Leg)
    (agent : Worker) :
    state.setTask leg worker next other agent =
      if other = leg ∧ agent = worker then next else state.task other agent :=
  update_update_apply _ _ _ _ _ _

end

section

variable [DecidableEq Id] {state : Service Id Worker Json Result} {id : Id}
  {leg : Leg}

theorem setChannel_apply (channel : Channel) (other : Leg) (another : Id) :
    state.setChannel leg id channel other another =
      if other = leg ∧ another = id then channel
      else state.channel other another :=
  update_update_apply _ _ _ _ _ _

theorem setRow_apply (row : Extraction Json) (other : Id) :
    state.setRow id row other =
      if other = id then some row else state.table other := by
  by_cases hid : other = id <;> simp [setRow, hid]

theorem selected_iff {limit : Nat} {ids : List Id}
    {selects : Extraction Json → Bool}
    (h : state.selected limit ids selects = true) :
    ids.Nodup ∧ ∀ id ∈ ids, ∃ row, state.table id = some row ∧
      selects row = true := by
  simp only [selected, Bool.and_eq_true, decide_eq_true_eq,
    List.all_eq_true] at h
  refine ⟨h.1.1, fun id hid => ?_⟩
  simpa [Option.any_eq_true] using h.2 id hid

end

end Service

end Flydocs
