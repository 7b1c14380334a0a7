import Flydocs.Workers.LostWebhooks
import Flydocs.Workers.RowHistory

/-!
# Who is told

The invariants behind the completion webhooks: the claims add up, each webhook
is in exactly one place, and it goes nowhere but to the URL the extraction was
submitted with.
-/

namespace Flydocs

open Foundation ExtractionRepository Extraction

variable {Worker Json Result : Type*}

namespace AsyncPath

/-! ## The ledgers along a run -/

structure Kept [DecidableEq Worker] (state : AsyncPath Worker Json Result) :
    Prop where
  accounted : state.Accounted
  valid : ∀ leg, (state.ledger leg).Valid

section

variable [DecidableEq Worker] {settings : IDPSettings}
  {modelDump : Result → Json} {state next : AsyncPath Worker Json Result}
  {label : Label Worker Result}

theorem submitted_kept (submittedAt : Int) (callbackUrl : Option String) :
    Kept (submitted submittedAt callbackUrl :
      AsyncPath Worker Json Result) :=
  ⟨submitted_accounted submittedAt callbackUrl, fun leg =>
    ⟨.unissued, submitted_ledger_valid submittedAt callbackUrl leg⟩⟩

theorem kept_step (settings : IDPSettings) (modelDump : Result → Json)
    (state : AsyncPath Worker Json Result) (label : Label Worker Result)
    (next : AsyncPath Worker Json Result) (h : Kept state)
    (hstep : step settings modelDump state label = some next) : Kept next := by
  refine ⟨accounted_step h.accounted hstep, fun leg => ?_⟩
  obtain ⟨event, hbooked⟩ := booked_step leg h.accounted hstep
  rw [hbooked.ledger_eq]
  exact (h.valid leg).apply hbooked.allowed

theorem Kept.silent (h : Kept state) {leg : Leg}
    (hopen : leg.settled state.row = false) :
    deliveries leg state.history = [] ∧
      ∀ worker, state.owes leg worker = false := by
  obtain ⟨ticket, hticket⟩ := h.valid leg
  have hdue : ticket.ledger.due = false := by
    rw [← hticket]
    exact hopen
  rw [Ledger.holder_unissued ticket hdue] at hticket
  refine ⟨congrArg Ledger.discharged hticket, fun worker => ?_⟩
  exact congrFun (congrArg Ledger.holder hticket) worker

/-! ## Where the webhooks go -/

def Directed (state : AsyncPath Worker Json Result) : Prop :=
  ∀ leg worker url envelope,
    .delivered leg worker url envelope ∈ state.history →
      state.row.callbackUrl = some url

theorem eq_some_of_truthy {text : Option String}
    (h : Projector.truthy text = true) : text = some (text.getD "") := by
  cases text with
  | none => simp [Projector.truthy] at h
  | some text => rfl

omit [DecidableEq Worker] in
theorem delivered_of_handled {leg other : Leg} {now : Int}
    {worker agent : Worker} {row : Extraction Json}
    {process : Process Json Result} {action : Action Result}
    {effect : Effect Worker Json Result} {url : String}
    {envelope : Interfaces.EventEnvelope Result}
    (h : Handled settings modelDump other now agent row process action effect)
    (hmem : .delivered leg worker url envelope ∈ effect.observed) :
    ∃ claimed, process.claimed = some claimed ∧
      claimed.callbackUrl = some url := by
  cases h with
  | quiet => cases hmem
  | claimed | finalised | failed | requeued => simp at hmem
  | @notified _ claimed _ _ _ hclaimed =>
      simp only [Effect.fireWebhook] at hmem
      split at hmem
      next htruthy =>
        rw [List.mem_singleton, Observation.delivered.injEq] at hmem
        exact ⟨claimed, hclaimed, hmem.2.2.1 ▸ eq_some_of_truthy htruthy⟩
      · cases hmem

theorem directed_step {callbackUrl : Option String}
    (haddressed : Addressed callbackUrl state) (h : Directed state)
    (hstep : step settings modelDump state label = some next) :
    Directed next := by
  have hurl := (submission_step hstep).1
  intro leg worker url envelope hmem
  rw [hurl]
  cases stepped hstep with
  | delivered | polled | ticked | carried | swept | cancelled =>
      exact h leg worker url envelope hmem
  | @processed other agent action process effect hprocess hhandled =>
      rcases List.mem_append.mp hmem with hnew | hold
      · obtain ⟨claimed, hclaimed, hdirected⟩ :=
          delivered_of_handled hhandled hnew
        rw [haddressed.row_eq, ← haddressed.claimed_eq other agent process
          claimed hprocess hclaimed]
        exact hdirected
      · exact h leg worker url envelope hold

structure Announcing (modelDump : Result → Json) (callbackUrl : Option String)
    (state : AsyncPath Worker Json Result) : Prop where
  kept : Kept state
  backed : Backed modelDump state
  addressed : Addressed callbackUrl state
  directed : Directed state

theorem submitted_announcing (modelDump : Result → Json) (submittedAt : Int)
    (callbackUrl : Option String) :
    Announcing modelDump callbackUrl (submitted submittedAt callbackUrl :
      AsyncPath Worker Json Result) := by
  refine ⟨submitted_kept submittedAt callbackUrl, ⟨trivial, ?_⟩, ⟨rfl, ?_⟩, ?_⟩
  · simp [submitted]
  · simp [submitted]
  · simp [Directed, submitted]

theorem announcing_step {callbackUrl : Option String}
    (h : Announcing modelDump callbackUrl state)
    (hstep : step settings modelDump state label = some next) :
    Announcing modelDump callbackUrl next :=
  ⟨kept_step settings modelDump state label next h.kept hstep,
    backed_step h.backed hstep, addressed_step h.addressed hstep,
    directed_step h.addressed h.directed hstep⟩

theorem Kept.sent (h : Kept state) (leg : Leg) :
    (deliveries leg state.history).length ≤ 1 ∧
      (deliveries leg state.history ≠ [] → leg.settled state.row = true) := by
  refine ⟨(h.valid leg).discharged_length_le, fun hne => ?_⟩
  obtain ⟨worker, hmem⟩ := List.exists_mem_of_ne_nil _ hne
  exact (h.valid leg).due_of_discharged hmem

end

end AsyncPath

end Flydocs
