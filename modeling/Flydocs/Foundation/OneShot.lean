import Mathlib.Data.List.Basic
import Mathlib.Logic.Function.Basic

/-!
# One-shot obligations

An obligation that many agents compete for is created at most once, belongs
to one agent while it is open, and is then either discharged or dropped.
`Ledger` is what can be observed of it from outside; `Ticket` is where it is.
-/

namespace Flydocs.Foundation

structure Ledger (Agent : Type*) where
  due : Bool
  holder : Agent → Bool
  discharged : List Agent

inductive Ticket (Agent : Type*) where
  | unissued
  | held (agent : Agent)
  | spent (agent : Agent)
  | void

variable {Agent : Type*} [DecidableEq Agent]

def Ticket.ledger : Ticket Agent → Ledger Agent
  | unissued => ⟨false, fun _ => false, []⟩
  | held agent => ⟨true, Function.update (fun _ => false) agent true, []⟩
  | spent agent => ⟨true, fun _ => false, [agent]⟩
  | void => ⟨true, fun _ => false, []⟩

namespace Ledger

inductive Event (Agent : Type*) where
  | keep
  | issue (agent : Agent)
  | discharge (agent : Agent)
  | release (agent : Agent)

def Event.apply : Event Agent → Ledger Agent → Ledger Agent
  | keep, ledger => ledger
  | issue agent, ledger =>
      { ledger with
        due := true
        holder := Function.update ledger.holder agent true }
  | discharge agent, ledger =>
      { ledger with
        holder := Function.update ledger.holder agent false
        discharged := agent :: ledger.discharged }
  | release agent, ledger =>
      { ledger with holder := Function.update ledger.holder agent false }

def Event.Allowed (ledger : Ledger Agent) : Event Agent → Prop
  | keep => True
  | issue _ => ledger.due = false
  | discharge agent | release agent => ledger.holder agent = true

/-- The obligation is in exactly one place. -/
def Valid (ledger : Ledger Agent) : Prop :=
  ∃ ticket : Ticket Agent, ledger = ticket.ledger

/-! ## One event -/

theorem holder_unissued (ticket : Ticket Agent)
    (h : ticket.ledger.due = false) : ticket = .unissued := by
  cases ticket <;> simp_all [Ticket.ledger]

theorem holder_held {ticket : Ticket Agent} {agent : Agent}
    (h : ticket.ledger.holder agent = true) : ticket = .held agent := by
  cases ticket with
  | held other =>
      have heq : agent = other := by
        by_contra hne
        simp [Ticket.ledger, hne] at h
      rw [heq]
  | unissued | spent | void => simp [Ticket.ledger] at h

theorem release_held (agent : Agent) :
    (Event.release agent).apply (Ticket.held agent).ledger =
      (Ticket.void : Ticket Agent).ledger := by
  simp [Event.apply, Ticket.ledger]

theorem discharge_held (agent : Agent) :
    (Event.discharge agent).apply (Ticket.held agent).ledger =
      (Ticket.spent agent).ledger := by
  simp [Event.apply, Ticket.ledger]

theorem Valid.apply {ledger : Ledger Agent} (h : ledger.Valid)
    {event : Event Agent} (hallowed : event.Allowed ledger) :
    (event.apply ledger).Valid := by
  obtain ⟨ticket, rfl⟩ := h
  cases event with
  | keep => exact ⟨ticket, rfl⟩
  | issue agent =>
      cases holder_unissued ticket hallowed
      exact ⟨.held agent, rfl⟩
  | discharge agent =>
      cases holder_held hallowed
      exact ⟨.spent agent, discharge_held agent⟩
  | release agent =>
      cases holder_held hallowed
      exact ⟨.void, release_held agent⟩

theorem Valid.discharged_length_le {ledger : Ledger Agent} (h : ledger.Valid) :
    ledger.discharged.length ≤ 1 := by
  obtain ⟨ticket, rfl⟩ := h
  cases ticket <;> simp [Ticket.ledger]

theorem Valid.due_of_discharged {ledger : Ledger Agent} (h : ledger.Valid)
    {agent : Agent} (hmem : agent ∈ ledger.discharged) : ledger.due = true := by
  obtain ⟨ticket, rfl⟩ := h
  cases ticket <;> simp_all [Ticket.ledger]

/-! ## Sequences of events -/

/-- `events` lead from `ledger` to `finish`, each allowed where it happens. -/
inductive Trace : Ledger Agent → List (Event Agent) → Ledger Agent → Prop
  | nil (ledger) : Trace ledger [] ledger
  | cons {ledger finish event events} : event.Allowed ledger →
      Trace (event.apply ledger) events finish →
      Trace ledger (event :: events) finish

theorem Trace.valid {ledger finish : Ledger Agent} {events : List (Event Agent)}
    (h : Trace ledger events finish) (hvalid : ledger.Valid) : finish.Valid := by
  induction h with
  | nil => exact hvalid
  | cons hallowed _ ih => exact ih (hvalid.apply hallowed)

theorem Trace.of_closed {ledger finish : Ledger Agent}
    {events : List (Event Agent)} (h : Trace ledger events finish)
    (hdue : ledger.due = true) (hfree : ∀ agent, ledger.holder agent = false) :
    finish = ledger ∧ ∀ agent, Event.release agent ∉ events := by
  induction h with
  | nil => exact ⟨rfl, by simp⟩
  | @cons ledger finish event events hallowed _ ih =>
      cases event with
      | keep =>
          obtain ⟨hsame, hnone⟩ := ih hdue hfree
          exact ⟨hsame, by simpa using hnone⟩
      | issue agent => simp [Event.Allowed, hdue] at hallowed
      | discharge agent | release agent =>
          simp [Event.Allowed, hfree] at hallowed

/--
Once nobody holds an obligation that fell due, it was discharged exactly when
no holder ever released it.
-/
theorem Trace.discharged_iff {ticket : Ticket Agent} {finish : Ledger Agent}
    {events : List (Event Agent)} (h : Trace ticket.ledger events finish)
    (hopen : ticket = .unissued ∨ ∃ agent, ticket = .held agent)
    (hdue : finish.due = true) (hfree : ∀ agent, finish.holder agent = false) :
    finish.discharged ≠ [] ↔ ∀ agent, Event.release agent ∉ events := by
  generalize hledger : ticket.ledger = ledger at h
  induction h generalizing ticket with
  | nil =>
      subst hledger
      rcases hopen with rfl | ⟨agent, rfl⟩
      · simp [Ticket.ledger] at hdue
      · have := hfree agent
        simp [Ticket.ledger] at this
  | @cons ledger finish event events hallowed hrest ih =>
      subst hledger
      cases event with
      | keep => simpa using ih hopen hdue hfree rfl
      | issue agent =>
          cases holder_unissued ticket hallowed
          have hheld : (Ticket.held agent).ledger =
              (Event.issue agent).apply (Ticket.unissued).ledger := rfl
          simpa using ih (.inr ⟨agent, rfl⟩) hdue hfree hheld
      | discharge agent =>
          cases holder_held hallowed
          rw [discharge_held] at hrest
          obtain ⟨hsame, hnone⟩ := hrest.of_closed rfl fun _ => rfl
          simpa [hsame, Ticket.ledger] using hnone
      | release agent =>
          cases holder_held hallowed
          rw [release_held] at hrest
          obtain ⟨hsame, -⟩ := hrest.of_closed rfl fun _ => rfl
          have hdropped : finish.discharged = [] := by rw [hsame]; rfl
          simp only [hdropped, ne_eq, not_true_eq_false, false_iff]
          intro hnone
          exact hnone agent (by simp)

end Ledger

end Flydocs.Foundation
