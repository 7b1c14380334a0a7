import Mathlib.Data.Int.Order.Basic
import Mathlib.Tactic.Ring
import Flydocs.Foundation.Client

/-!
# Polling up to a deadline

The loop that reads a snapshot, returns it when it is settled or when the
deadline has passed, and otherwise pauses and reads again.  The snapshot ages
from the read until the loop decides on it.  Times are readings of the clock of
the one who polls.
-/

namespace Flydocs.Foundation

/-- How a loop polls: what it waits for, and how long it pauses when so much
time remains. -/
structure PollLoop (Snapshot : Type*) where
  settled : Snapshot → Bool
  pause : Int → Int

inductive PollPhase (Snapshot : Type*) where
  | reading
  | looked (snapshot : Snapshot)
  | pausing (wakesAt : Int)
  | returned (snapshot : Snapshot) (expired : Bool)
  deriving DecidableEq, Repr

structure Poll (Snapshot : Type*) where
  time : Int
  deadline : Int
  reads : Nat
  phase : PollPhase Snapshot
  deriving DecidableEq, Repr

inductive PollAction where
  | elapse (duration : Nat)
  | read
  | decide
  | wake
  deriving DecidableEq, Repr

namespace Poll

variable {Snapshot : Type*}

def begun (time timeout : Int) : Poll Snapshot where
  time := time
  deadline := time + max 0 timeout
  reads := 0
  phase := .reading

def held (poll : Poll Snapshot) : Option Snapshot :=
  match poll.phase with
  | .looked snapshot | .returned snapshot _ => some snapshot
  | .reading | .pausing _ => none

def ended (poll : Poll Snapshot) : Option (Snapshot × Bool) :=
  match poll.phase with
  | .returned snapshot expired => some (snapshot, expired)
  | .reading | .looked _ | .pausing _ => none

theorem phase_of_ended {poll : Poll Snapshot} {snapshot : Snapshot}
    {expired : Bool} (h : poll.ended = some (snapshot, expired)) :
    poll.phase = .returned snapshot expired := by
  unfold ended at h
  split at h
  next hphase =>
    cases h
    exact hphase
  all_goals cases h

end Poll

namespace PollLoop

variable {Snapshot : Type*} (loop : PollLoop Snapshot)

def decided (time deadline : Int) (snapshot : Snapshot) : PollPhase Snapshot :=
  if loop.settled snapshot then .returned snapshot false
  else if deadline ≤ time then .returned snapshot true
  else .pausing (time + loop.pause (deadline - time))

def step (snapshot : Snapshot) : LabelledStep (Poll Snapshot) PollAction
  | poll, .elapse duration => some { poll with time := poll.time + duration }
  | poll, .read =>
      match poll.phase with
      | .reading =>
          some { poll with reads := poll.reads + 1, phase := .looked snapshot }
      | _ => none
  | poll, .decide =>
      match poll.phase with
      | .looked seen =>
          some { poll with phase := loop.decided poll.time poll.deadline seen }
      | _ => none
  | poll, .wake =>
      match poll.phase with
      | .pausing wakesAt =>
          if wakesAt ≤ poll.time then some { poll with phase := .reading }
          else none
      | _ => none

/-! ## Everything a step can do -/

inductive Stepped (snapshot : Snapshot) (poll : Poll Snapshot) :
    Poll Snapshot → Prop
  | elapsed {duration : Nat} :
      Stepped snapshot poll { poll with time := poll.time + duration }
  | read : poll.phase = .reading →
      Stepped snapshot poll
        { poll with reads := poll.reads + 1, phase := .looked snapshot }
  | settled {seen} : poll.phase = .looked seen → loop.settled seen = true →
      Stepped snapshot poll { poll with phase := .returned seen false }
  | expired {seen} : poll.phase = .looked seen → loop.settled seen = false →
      poll.deadline ≤ poll.time →
      Stepped snapshot poll { poll with phase := .returned seen true }
  | paused {seen} : poll.phase = .looked seen → loop.settled seen = false →
      poll.time < poll.deadline →
      Stepped snapshot poll
        { poll with
          phase :=
            .pausing (poll.time + loop.pause (poll.deadline - poll.time)) }
  | woke {wakesAt} : poll.phase = .pausing wakesAt → wakesAt ≤ poll.time →
      Stepped snapshot poll { poll with phase := .reading }

variable {loop} {snapshot : Snapshot} {poll next : Poll Snapshot}
  {action : PollAction}

theorem stepped (h : loop.step snapshot poll action = some next) :
    loop.Stepped snapshot poll next := by
  unfold step at h
  split at h
  · cases h
    exact .elapsed
  · split at h
    next hphase =>
      cases h
      exact .read hphase
    · cases h
  · split at h
    next seen hphase =>
      cases h
      unfold decided
      split
      next hsettled => exact .settled hphase hsettled
      next hsettled =>
        have hunsettled := Bool.eq_false_iff.mpr hsettled
        split
        next hdeadline => exact .expired hphase hunsettled hdeadline
        next hdeadline => exact .paused hphase hunsettled (by omega)
    · cases h
  · split at h
    next wakesAt hphase =>
      split at h
      next hwakes =>
        cases h
        exact .woke hphase hwakes
      · cases h
    · cases h

/-! ## What a loop returns -/

/-- A loop gives up only when its deadline has passed, on a snapshot that is
not what it waits for. -/
def Honest (loop : PollLoop Snapshot) (poll : Poll Snapshot) : Prop :=
  ∀ seen expired, poll.phase = .returned seen expired →
    loop.settled seen = !expired ∧
      (expired = true → poll.deadline ≤ poll.time)

theorem begun_honest (time timeout : Int) :
    loop.Honest (Poll.begun time timeout) := by
  intro seen expired hphase
  cases hphase

theorem Stepped.honest (hstep : loop.Stepped snapshot poll next)
    (h : loop.Honest poll) : loop.Honest next := by
  intro seen expired hphase
  cases hstep with
  | elapsed =>
      have hbefore := h seen expired hphase
      exact ⟨hbefore.1, fun hexpired => by have := hbefore.2 hexpired; simp; omega⟩
  | read | paused | woke => cases hphase
  | settled _ hsettled =>
      cases hphase
      exact ⟨hsettled, by simp⟩
  | expired _ hsettled hdeadline =>
      cases hphase
      exact ⟨hsettled, fun _ => hdeadline⟩

/-- The snapshot in hand is the one that was there already, or the present
one. -/
theorem Stepped.held (hstep : loop.Stepped snapshot poll next) {seen : Snapshot}
    (hheld : next.held = some seen) : poll.held = some seen ∨ seen = snapshot := by
  cases hstep with
  | elapsed => exact .inl hheld
  | read =>
      cases hheld
      exact .inr rfl
  | settled hphase | expired hphase =>
      cases hheld
      left
      simp [Poll.held, hphase]
  | paused | woke => cases hheld

/-! ## How often it reads -/

end PollLoop

namespace Poll

variable {Snapshot : Type*}

def pauses (poll : Poll Snapshot) : Nat :=
  match poll.phase with
  | .reading | .pausing _ => poll.reads
  | .looked _ | .returned _ _ => poll.reads - 1

def ripeAt (poll : Poll Snapshot) : Int :=
  match poll.phase with
  | .pausing wakesAt => wakesAt
  | .reading | .looked _ | .returned _ _ => poll.time

theorem ripeAt_le_elapsed (poll : Poll Snapshot) (duration : Nat) :
    poll.ripeAt ≤ ripeAt { poll with time := poll.time + duration } := by
  cases hphase : poll.phase <;> simp [ripeAt, hphase]

/-- Every pause but the last takes `δ`, so there is room for few of them. -/
structure Paced (start δ : Int) (poll : Poll Snapshot) : Prop where
  ripe : min (start + poll.pauses * δ) poll.deadline ≤ poll.ripeAt
  room : poll.pauses = 0 ∨ (poll.pauses - 1) * δ < poll.deadline - start
  read : poll.held.isSome = true → 0 < poll.reads

theorem begun_paced (time timeout δ : Int) :
    Paced time δ (begun time timeout : Poll Snapshot) := by
  constructor
  · simp [begun, pauses, ripeAt]
  · exact .inl rfl
  · simp [begun, held]

theorem Paced.reads_lt {start δ : Int} {poll : Poll Snapshot}
    (h : Paced start δ poll) (hreads : 2 ≤ poll.reads)
    (hheld : poll.held.isSome = true) :
    ((poll.reads : Int) - 2) * δ < poll.deadline - start := by
  have hpauses : poll.pauses = poll.reads - 1 := by
    unfold held at hheld
    unfold pauses
    split at hheld
    · simp_all
    · simp_all
    · simp at hheld
    · simp at hheld
  rcases h.room with hzero | hroom
  · omega
  · have hcast : ((poll.pauses : Int) - 1) = (poll.reads : Int) - 2 := by omega
    rwa [hcast] at hroom

end Poll

namespace PollLoop

variable {Snapshot : Type*} {loop : PollLoop Snapshot} {snapshot : Snapshot}
  {poll next : Poll Snapshot} {start δ : Int}

theorem Stepped.paced
    (hpause : ∀ remaining, 0 < remaining →
      min δ remaining ≤ loop.pause remaining)
    (hstep : loop.Stepped snapshot poll next) (h : poll.Paced start δ) :
    next.Paced start δ := by
  obtain ⟨hripe, hroom, hread⟩ := h
  cases hstep with
  | elapsed =>
      exact ⟨hripe.trans (poll.ripeAt_le_elapsed _), hroom, hread⟩
  | read hphase =>
      simp only [Poll.pauses, Poll.ripeAt, hphase] at hripe hroom
      exact ⟨hripe, hroom, fun _ => Nat.succ_pos _⟩
  | settled hphase | expired hphase =>
      simp only [Poll.pauses, Poll.ripeAt, hphase] at hripe hroom
      exact ⟨hripe, hroom, fun _ => hread (by simp [Poll.held, hphase])⟩
  | paused hphase _ htime =>
      have hpos := hread (by simp [Poll.held, hphase])
      have hlong := hpause (poll.deadline - poll.time) (by omega)
      simp only [Poll.pauses, Poll.ripeAt, hphase] at hripe hroom
      have hcast : ((poll.reads - 1 : Nat) : Int) = (poll.reads : Int) - 1 := by
        omega
      rw [hcast] at hripe
      have hearned : start + ((poll.reads : Int) - 1) * δ ≤ poll.time := by
        omega
      have hnext : (poll.reads : Int) * δ =
          ((poll.reads : Int) - 1) * δ + δ := by ring
      refine ⟨?_, .inr ?_, by simp [Poll.held]⟩
      · simp only [Poll.pauses, Poll.ripeAt]
        omega
      · simp only [Poll.pauses]
        omega
  | woke hphase hwakes =>
      simp only [Poll.pauses, Poll.ripeAt, hphase] at hripe hroom
      exact ⟨hripe.trans hwakes, hroom, by simp [Poll.held]⟩

theorem Stepped.pauses (hstep : loop.Stepped snapshot poll next) :
    next.pauses = poll.pauses ∨
      ∃ seen, poll.held = some seen ∧ loop.settled seen = false ∧
        next.held = none := by
  cases hstep with
  | elapsed => exact .inl rfl
  | paused hphase hunsettled =>
      exact .inr ⟨_, by simp [Poll.held, hphase], hunsettled, rfl⟩
  | read hphase | settled hphase | expired hphase | woke hphase =>
      left
      simp [Poll.pauses, hphase]

theorem Stepped.deadline_eq (hstep : loop.Stepped snapshot poll next) :
    next.deadline = poll.deadline := by
  cases hstep <;> rfl

/-! ## A loop beside a system -/

/-- What holds of a loop at any time: `Seen` is what is known of a snapshot
that was taken earlier, `After` what sets a later snapshot apart from it. -/
structure Faithful (loop : PollLoop Snapshot) (Seen : Snapshot → Prop)
    (After : Snapshot → Snapshot → Prop) (start timeout δ : Int)
    (poll : Poll Snapshot) : Prop where
  deadline_eq : poll.deadline = start + max 0 timeout
  honest : loop.Honest poll
  paced : poll.Paced start δ
  seen : ∀ snapshot, poll.held = some snapshot → Seen snapshot
  waited : 0 < poll.pauses →
    ∃ earlier, loop.settled earlier = false ∧ Seen earlier ∧
      ∀ snapshot, poll.held = some snapshot → After earlier snapshot

theorem begun_faithful (loop : PollLoop Snapshot) (Seen : Snapshot → Prop)
    (After : Snapshot → Snapshot → Prop) (start timeout δ : Int) :
    Faithful loop Seen After start timeout δ (Poll.begun start timeout) where
  deadline_eq := rfl
  honest := begun_honest start timeout
  paced := Poll.begun_paced start timeout δ
  seen := by simp [Poll.begun, Poll.held]
  waited := by simp [Poll.begun, Poll.pauses]

variable {Seen : Snapshot → Prop} {After : Snapshot → Snapshot → Prop}
  {timeout : Int}

theorem Faithful.mono {Later : Snapshot → Prop}
    (h : Faithful loop Seen After start timeout δ poll)
    (hmono : ∀ snapshot, Seen snapshot → Later snapshot) :
    Faithful loop Later After start timeout δ poll where
  deadline_eq := h.deadline_eq
  honest := h.honest
  paced := h.paced
  seen snapshot hheld := hmono snapshot (h.seen snapshot hheld)
  waited hpauses := by
    obtain ⟨earlier, hunsettled, hseen, hafter⟩ := h.waited hpauses
    exact ⟨earlier, hunsettled, hmono earlier hseen, hafter⟩

theorem Faithful.step {action : PollAction}
    (hpause : ∀ remaining, 0 < remaining →
      min δ remaining ≤ loop.pause remaining)
    (h : Faithful loop Seen After start timeout δ poll)
    (hpresent : Seen snapshot)
    (hafter : ∀ earlier, Seen earlier → After earlier snapshot)
    (hstep : loop.step snapshot poll action = some next) :
    Faithful loop Seen After start timeout δ next := by
  have hstepped := stepped hstep
  refine ⟨hstepped.deadline_eq.trans h.deadline_eq, hstepped.honest h.honest,
    hstepped.paced hpause h.paced, ?_, ?_⟩
  · intro seen hheld
    rcases hstepped.held hheld with hheld | rfl
    · exact h.seen seen hheld
    · exact hpresent
  · intro hpauses
    rcases hstepped.pauses with hsame | ⟨seen, hheld, hunsettled, hnone⟩
    · obtain ⟨earlier, hunsettled, hseen, hlater⟩ := h.waited (hsame ▸ hpauses)
      refine ⟨earlier, hunsettled, hseen, ?_⟩
      intro later hheld
      rcases hstepped.held hheld with hheld | rfl
      · exact hlater later hheld
      · exact hafter earlier hseen
    · exact ⟨seen, hunsettled, h.seen seen hheld, by simp [hnone]⟩

theorem Faithful.returned (h : Faithful loop Seen After start timeout δ poll)
    {last : Snapshot} {expired : Bool}
    (hphase : poll.phase = .returned last expired) :
    Seen last ∧ loop.settled last = !expired ∧
      (expired = true → start + max 0 timeout ≤ poll.time) ∧
      (2 ≤ poll.reads → ((poll.reads : Int) - 2) * δ < max 0 timeout ∧
        ∃ earlier, loop.settled earlier = false ∧ Seen earlier ∧
          After earlier last) := by
  have hheld : poll.held = some last := by simp [Poll.held, hphase]
  have hhonest := h.honest last expired hphase
  refine ⟨h.seen last hheld, hhonest.1, fun hexpired => ?_, fun hreads => ?_⟩
  · rw [← h.deadline_eq]
    exact hhonest.2 hexpired
  · have hlt := h.paced.reads_lt hreads (by simp [hheld])
    have hpauses : 0 < poll.pauses := by
      simp only [Poll.pauses, hphase]
      omega
    obtain ⟨earlier, hunsettled, hseen, hafter⟩ := h.waited hpauses
    rw [h.deadline_eq] at hlt
    exact ⟨by omega, earlier, hunsettled, hseen, hafter last hheld⟩

end PollLoop

end Flydocs.Foundation
