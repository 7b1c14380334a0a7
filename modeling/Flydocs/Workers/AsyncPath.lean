import Flydocs.Foundation.LabelledStep
import Flydocs.Models.Lifecycle
import Flydocs.Workers.BboxRefineWorker
import Flydocs.Workers.ExtractionWorker

/-!
# The async path of one extraction

Any number of workers of both kinds, the two reapers, the queued-backlog poll,
the cancel endpoint and the event bus, interleaved over one row.  The bus is
at-least-once and lossy: it may redeliver what was published, reorder, and
drop.  `history` lists what happened, newest first.
-/

namespace Flydocs

open Foundation ExtractionRepository Extraction

variable {Worker Json Result : Type*}

/-! ## The bus -/

/--
One topic: events in flight, the republishes that `_delayed_publish` tasks owe
with the time each is due, and the ones a reaper has selected the row for.
-/
structure Channel where
  published : Bool
  inFlight : Nat
  delayed : List Int
  reaping : Nat
  deriving DecidableEq, Repr

inductive BusAction where
  | redeliver
  | drop
  | fireDelayed (due : Int)
  | loseDelayed (due : Int)
  | republish
  | abandonRepublish
  deriving DecidableEq, Repr

namespace Channel

def idle : Channel := ⟨false, 0, [], 0⟩

def publish (channel : Channel) : Channel :=
  { channel with published := true, inFlight := channel.inFlight + 1 }

def schedule (channel : Channel) (due : Int) : Channel :=
  { channel with delayed := due :: channel.delayed }

def step (now : Int) (channel : Channel) : BusAction → Option Channel
  | .redeliver =>
      if channel.published then some channel.publish else none
  | .drop =>
      if 0 < channel.inFlight then
        some { channel with inFlight := channel.inFlight - 1 }
      else none
  | .fireDelayed due =>
      if due ∈ channel.delayed ∧ due ≤ now then
        some { channel with delayed := channel.delayed.erase due }.publish
      else none
  | .loseDelayed due =>
      if due ∈ channel.delayed then
        some { channel with delayed := channel.delayed.erase due }
      else none
  | .republish =>
      if 0 < channel.reaping then
        some { channel with reaping := channel.reaping - 1 }.publish
      else none
  | .abandonRepublish =>
      if 0 < channel.reaping then
        some { channel with reaping := channel.reaping - 1 }
      else none

end Channel

inductive Sweep where
  | staleRunning
  | orphanQueued
  | staleRunningBbox
  | orphanPendingBbox
  deriving DecidableEq, Repr

namespace Sweep

def leg : Sweep → Leg
  | staleRunning | orphanQueued => .main
  | staleRunningBbox | orphanPendingBbox => .bbox

def selects (settings : IDPSettings) (now : Int) (row : Extraction Json) :
    Sweep → Bool
  | staleRunning => findStaleRunning now settings.jobRunLeaseS row
  | orphanQueued => findStaleQueued now settings.queuedOrphanThresholdS row
  | staleRunningBbox => findStaleBboxRefining now settings.bboxRefineLeaseS row
  | orphanPendingBbox =>
      findPendingBboxRevive now settings.partialSucceededOrphanThresholdS
        settings.bboxRefineLeaseS row

end Sweep

def IDPSettings.pollSelects (settings : IDPSettings) (now : Int)
    (row : Extraction Json) : Bool :=
  decide (0 < settings.jobPollIntervalS) &&
    findStaleQueued now settings.jobPollGraceS row

/-! ## The system -/

structure AsyncPath (Worker Json Result : Type*) where
  now : Int
  row : Extraction Json
  process : Leg → Worker → Option (Process Json Result)
  channel : Leg → Channel
  history : List (Observation Worker Json Result)

namespace AsyncPath

inductive Label (Worker Result : Type*) where
  | process (leg : Leg) (worker : Worker) (action : Action Result)
  | deliver (leg : Leg) (worker : Worker)
  | poll (worker : Worker)
  | cancel
  | tick (elapsed : Nat)
  | bus (leg : Leg) (action : BusAction)
  | sweep (query : Sweep)
  deriving DecidableEq, Repr

/-- A fresh submission whose event has just been published. -/
def submitted (submittedAt : Int) (callbackUrl : Option String) :
    AsyncPath Worker Json Result where
  now := submittedAt
  row := Extraction.submitted submittedAt callbackUrl
  process _ _ := none
  channel leg :=
    match leg with
    | .main => Channel.idle.publish
    | .bbox => Channel.idle
  history := []

def processStep (settings : IDPSettings) (modelDump : Result → Json)
    (leg : Leg) (now : Int) (worker : Worker)
    (row : Extraction Json) (process : Process Json Result)
    (action : Action Result) : Option (Effect Worker Json Result) :=
  match leg with
  | .main =>
      ExtractionWorker.process settings modelDump now worker row process action
  | .bbox =>
      BboxRefineWorker.process settings modelDump now worker row process action

theorem processStep_handled {leg : Leg} {now : Int} {worker : Worker}
    {row : Extraction Json} {process : Process Json Result}
    {action : Action Result} {effect : Effect Worker Json Result}
    {settings : IDPSettings} {modelDump : Result → Json}
    (h : processStep settings modelDump leg now worker row process action =
      some effect) :
    Handled settings modelDump leg now worker row process action effect := by
  cases leg with
  | main => exact ExtractionWorker.process_handled h
  | bbox => exact BboxRefineWorker.process_handled h

variable [DecidableEq Worker]

def setProcess (state : AsyncPath Worker Json Result) (leg : Leg)
    (worker : Worker) (next : Option (Process Json Result)) :
    Leg → Worker → Option (Process Json Result) :=
  Function.update state.process leg
    (Function.update (state.process leg) worker next)

def setChannel (state : AsyncPath Worker Json Result) (leg : Leg)
    (channel : Channel) : Leg → Channel :=
  Function.update state.channel leg channel

def channelAfter (state : AsyncPath Worker Json Result) (leg : Leg)
    (effect : Effect Worker Json Result) (other : Leg) : Channel :=
  let scheduled :=
    match effect.delayed with
    | some delay =>
        if other = leg then (state.channel other).schedule (state.now + delay)
        else state.channel other
    | none => state.channel other
  if other = .bbox ∧ effect.requested = true then scheduled.publish
  else scheduled

def after (state : AsyncPath Worker Json Result) (leg : Leg) (worker : Worker)
    (effect : Effect Worker Json Result) : AsyncPath Worker Json Result where
  now := state.now
  row := effect.row
  process := state.setProcess leg worker effect.next
  channel := state.channelAfter leg effect
  history := effect.observed ++ state.history

section Step

variable (settings : IDPSettings) (modelDump : Result → Json)

def step : LabelledStep (AsyncPath Worker Json Result) (Label Worker Result)
  | state, .process leg worker action =>
      (state.process leg worker).bind fun process =>
        (processStep settings modelDump leg state.now worker state.row process
          action).map (state.after leg worker)
  | state, .deliver leg worker =>
      if 0 < (state.channel leg).inFlight ∧
          (state.process leg worker).isNone = true then
        some
          { state with
            process := state.setProcess leg worker (some .received)
            channel := state.setChannel leg
              { state.channel leg with
                inFlight := (state.channel leg).inFlight - 1 } }
      else none
  | state, .poll worker =>
      if settings.pollSelects state.now state.row = true ∧
          (state.process .main worker).isNone = true then
        some
          { state with
            process := state.setProcess .main worker (some .received) }
      else none
  | state, .cancel =>
      some
        { state with
          row := (Call.markCancelled.update state.now).apply state.row }
  | state, .tick elapsed => some { state with now := state.now + elapsed }
  | state, .bus leg action =>
      ((state.channel leg).step state.now action).map fun channel =>
        { state with channel := state.setChannel leg channel }
  | state, .sweep query =>
      if query.selects settings state.now state.row = true then
        some
          { state with
            channel := state.setChannel query.leg
              { state.channel query.leg with
                reaping := (state.channel query.leg).reaping + 1 } }
      else none

end Step

/-! ## Everything a step can do -/

section Stepped

variable (settings : IDPSettings) (modelDump : Result → Json)
  (state : AsyncPath Worker Json Result)

inductive Stepped :
    Label Worker Result → AsyncPath Worker Json Result → Prop
  | processed {leg worker action process effect} :
      state.process leg worker = some process →
      Handled settings modelDump leg state.now worker state.row process action
        effect →
      Stepped (.process leg worker action) (state.after leg worker effect)
  | delivered {leg worker} :
      0 < (state.channel leg).inFlight →
      state.process leg worker = none →
      Stepped (.deliver leg worker)
        { state with
          process := state.setProcess leg worker (some .received)
          channel := state.setChannel leg
            { state.channel leg with
              inFlight := (state.channel leg).inFlight - 1 } }
  | polled {worker} :
      settings.pollSelects state.now state.row = true →
      state.process .main worker = none →
      Stepped (.poll worker)
        { state with
          process := state.setProcess .main worker (some .received) }
  | cancelled :
      Stepped .cancel
        { state with
          row := (Call.markCancelled.update state.now).apply state.row }
  | ticked {elapsed} :
      Stepped (.tick elapsed) { state with now := state.now + elapsed }
  | carried {leg action channel} :
      (state.channel leg).step state.now action = some channel →
      Stepped (.bus leg action)
        { state with channel := state.setChannel leg channel }
  | swept {query} :
      query.selects settings state.now state.row = true →
      Stepped (.sweep query)
        { state with
          channel := state.setChannel query.leg
            { state.channel query.leg with
              reaping := (state.channel query.leg).reaping + 1 } }

end Stepped

variable {settings : IDPSettings} {modelDump : Result → Json}
  {state next : AsyncPath Worker Json Result} {label : Label Worker Result}

theorem stepped (h : step settings modelDump state label = some next) :
    Stepped settings modelDump state label next := by
  unfold step at h
  split at h
  · simp only [Option.bind_eq_some_iff, Option.map_eq_some_iff] at h
    obtain ⟨process, hprocess, effect, heffect, rfl⟩ := h
    exact .processed hprocess (processStep_handled heffect)
  · split at h
    next hguard =>
      cases h
      exact .delivered hguard.1 (Option.isNone_iff_eq_none.mp hguard.2)
    · cases h
  · split at h
    next hguard =>
      cases h
      exact .polled hguard.1 (Option.isNone_iff_eq_none.mp hguard.2)
    · cases h
  · cases h
    exact .cancelled
  · cases h
    exact .ticked
  · simp only [Option.map_eq_some_iff] at h
    obtain ⟨channel, hchannel, rfl⟩ := h
    exact .carried hchannel
  · split at h
    next hguard =>
      cases h
      exact .swept hguard
    · cases h

end AsyncPath

end Flydocs
