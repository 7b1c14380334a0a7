import Flydocs.Foundation.Client
import Flydocs.Workers.Announcements
import Flydocs.Workers.RowHistory

/-!
# Cancelling while the workers run

`CancelExtractionHandler` beside the async path: the conditional update, and a
read to tell the caller why it matched nothing.  Between the two anything may
happen.
-/

namespace Flydocs

open Foundation ExtractionRepository AsyncPath

variable {Worker Json Result : Type*}

/-! ## The handler -/

inductive CancelExtractionResponse where
  | cancelled (extraction : Interfaces.Extraction)
  | notFound
  | extractionNotCancellable (status : ExtractionStatus)
  deriving DecidableEq, Repr

inductive CancelExtractionState where
  | received
  | refused
  | answered (response : CancelExtractionResponse)
  deriving DecidableEq, Repr

inductive CancelExtractionAction where
  | markCancelled
  | get
  deriving DecidableEq, Repr

namespace CancelExtractionHandler

/-- After `mark_cancelled` has returned the row, or nothing. -/
def marked (returned : Option (Extraction Json)) : CancelExtractionState :=
  match returned with
  | some cancelled =>
      .answered (.cancelled (Projector.rowToExtraction cancelled))
  | none => .refused

def explain (row : Option (Extraction Json)) : CancelExtractionResponse :=
  match row with
  | none => .notFound
  | some row => .extractionNotCancellable row.status

def doHandle : ClientStep (AsyncPath Worker Json Result) (Label Worker Result)
    CancelExtractionState CancelExtractionAction
  | state, .received, .markCancelled =>
      some (some .cancel,
        marked ((Call.markCancelled.update state.now).returning state.row))
  | state, .refused, .get =>
      some (none, .answered (explain (some state.row)))
  | _, _, _ => none

/-! ## Extractions that were cancelled -/

/-- The row is settled, nobody was or will be told that it completed, and it
was executed as often as the answer says. -/
structure CalledOff (state : AsyncPath Worker Json Result)
    (extraction : Interfaces.Extraction) : Prop where
  status_eq : extraction.status = .cancelled
  settled : Settled state.row
  shown : Projector.rowToExtraction state.row = extraction
  resultJson_eq : state.row.resultJson = none
  silent : ∀ leg : Leg, deliveries leg state.history = [] ∧
    ∀ worker, state.owes leg worker = false
  executions_eq : executions .main state.history = extraction.attempts

section

variable [DecidableEq Worker] {state : AsyncPath Worker Json Result}

theorem calledOff_of_kept (h : Kept state)
    (hstatus : state.row.status = .cancelled) :
    CalledOff state (Projector.rowToExtraction state.row) := by
  have hwell := h.accounted.wellFormed
  have hbbox := hwell.bbox_eq_none (by simp [hstatus])
  refine ⟨hstatus, ?_, rfl, ?_, fun leg => h.silent ?_, ?_⟩
  · exact settled_of_unsuccessful hwell (by simp [hstatus,
      ExtractionStatus.isTerminal]) (by simp [hstatus])
  · rw [← Option.not_isSome_iff_eq_none, hwell.resultJson_iff, hstatus]
    simp
  · cases leg <;> simp [Leg.settled, hstatus, hbbox]
  · exact h.accounted.executions_eq .main

end

/-! ## What the caller was told -/

def Told (state : AsyncPath Worker Json Result) :
    CancelExtractionState → Prop
  | .received | .refused => True
  | .answered (.cancelled extraction) =>
      extraction.status = .cancelled ∧ Settled state.row ∧
        Projector.rowToExtraction state.row = extraction
  | .answered .notFound => False
  | .answered (.extractionNotCancellable status) =>
      status.isTerminal = true → state.row.status = status

section

variable [DecidableEq Worker] (settings : IDPSettings)
  (modelDump : Result → Json)

abbrev CancelLabel (Worker Result : Type*) :=
  Label Worker Result ⊕ CancelExtractionAction

def Cancels (submittedAt : Int) (callbackUrl : Option String)
    (labels : List (CancelLabel Worker Result))
    (state : AsyncPath Worker Json Result) (request : CancelExtractionState) :
    Prop :=
  LabelledStep.run
    (ClientStep.withSystem (step settings modelDump) doHandle)
    (submitted submittedAt callbackUrl, .received) labels =
      some (state, request)

variable {settings modelDump} {state next : AsyncPath Worker Json Result}
  {request after : CancelExtractionState}

theorem told_step {label : Label Worker Result}
    (hwell : state.row.WellFormed) (h : Told state request)
    (hstep : step settings modelDump state label = some next) :
    Told next request := by
  cases request with
  | received | refused => trivial
  | answered response =>
      cases response with
      | cancelled extraction =>
          obtain ⟨hstatus, hsettled, hshown⟩ := h
          refine ⟨hstatus, ?_⟩
          rw [row_step_of_settled hsettled hstep]
          exact ⟨hsettled, hshown⟩
      | notFound => exact h
      | extractionNotCancellable status =>
          intro hterminal
          have hnow := h hterminal
          rw [← hnow] at hterminal ⊢
          exact status_step_of_terminal hwell hterminal hstep

theorem told_marked (hwell : state.row.WellFormed)
    (hstep : step settings modelDump state .cancel = some next) :
    Told next (CancelExtractionHandler.marked
      ((Call.markCancelled.update state.now).returning state.row)) := by
  cases hreturn :
      (Call.markCancelled.update state.now).returning state.row with
  | none => trivial
  | some cancelled =>
      obtain ⟨hguard, hvalues⟩ :=
        ConditionalUpdate.returning_eq_some_iff.mp hreturn
      have hwrote := (keeps_wellFormed state.now .markCancelled).returning hwell
        hreturn
      cases hstep
      have hstatus : cancelled.status = .cancelled := by
        rw [← hvalues]
        rfl
      refine ⟨hstatus, ?_⟩
      simp only [ConditionalUpdate.apply_of_returning hreturn, and_true]
      exact settled_of_unsuccessful hwrote
        (by simp [hstatus, ExtractionStatus.isTerminal]) (by simp [hstatus])

theorem told_of_cancels {submittedAt : Int} {callbackUrl : Option String}
    {labels : List (CancelLabel Worker Result)}
    (hcancels : Cancels settings modelDump submittedAt callbackUrl labels state
      request) : Kept state ∧ Told state request := by
  refine ClientStep.run_seen Kept Told (kept_step settings modelDump) ?_ ?_ ?_
    (submitted_kept submittedAt callbackUrl) ?_ hcancels
  · exact fun _ _ _ _ hkept htold hstep =>
      told_step hkept.accounted.wellFormed htold hstep
  · intro state request action after _ _ hhandle
    unfold doHandle at hhandle
    split at hhandle
    · cases hhandle
    · cases hhandle
      exact fun _ => rfl
    · cases hhandle
  · intro state request action label next after hkept _ hhandle hstep
    unfold doHandle at hhandle
    split at hhandle
    · cases hhandle
      exact told_marked hkept.accounted.wellFormed hstep
    · cases hhandle
    · cases hhandle
  · exact trivial

/-! ## When it was told -/

section

variable (settings modelDump) (submittedAt : Int) (callbackUrl : Option String)
  (labels : List (CancelLabel Worker Result))

def TookIn (action : CancelExtractionAction)
    (seen : AsyncPath Worker Json Result) : Prop :=
  ClientStep.Took (step settings modelDump) doHandle
    (submitted submittedAt callbackUrl, .received) labels action seen

def Refused : Prop :=
  ∃ tried, TookIn settings modelDump submittedAt callbackUrl labels
    .markCancelled tried ∧ tried.row.status ≠ .queued

def Asked : CancelExtractionState → Prop
  | .received | .answered .notFound => True
  | .refused => Refused settings modelDump submittedAt callbackUrl labels
  | .answered (.cancelled _) =>
      ∃ tried, TookIn settings modelDump submittedAt callbackUrl labels
        .markCancelled tried ∧ tried.row.status = .queued
  | .answered (.extractionNotCancellable status) =>
      Refused settings modelDump submittedAt callbackUrl labels ∧
      ∃ read, TookIn settings modelDump submittedAt callbackUrl labels .get
        read ∧ read.row.status = status

end

section

variable {submittedAt : Int} {callbackUrl : Option String}
  {labels : List (CancelLabel Worker Result)}

theorem Asked.snoc (h : Asked settings modelDump submittedAt callbackUrl labels
      request) (label : CancelLabel Worker Result) :
    Asked settings modelDump submittedAt callbackUrl (labels ++ [label])
      request := by
  have hrefused (hrefused : Refused settings modelDump submittedAt callbackUrl
      labels) : Refused settings modelDump submittedAt callbackUrl
        (labels ++ [label]) :=
    hrefused.imp fun tried => And.imp_left (ClientStep.Took.snoc · label)
  cases request with
  | received => trivial
  | refused => exact hrefused h
  | answered response =>
      cases response with
      | notFound => trivial
      | cancelled extraction =>
          exact h.imp fun tried => And.imp_left (ClientStep.Took.snoc · label)
      | extractionNotCancellable status =>
          exact ⟨hrefused h.1, h.2.imp fun read =>
            And.imp_left (ClientStep.Took.snoc · label)⟩

theorem asked_marked (hpast : Cancels settings modelDump submittedAt callbackUrl
      labels state request) :
    Asked settings modelDump submittedAt callbackUrl
      (labels ++ [.inr .markCancelled])
      (marked ((Call.markCancelled.update state.now).returning state.row)) := by
  have htook : TookIn settings modelDump submittedAt callbackUrl
      (labels ++ [.inr .markCancelled]) .markCancelled state :=
    ClientStep.took_snoc hpast
  cases hreturn :
      (Call.markCancelled.update state.now).returning state.row with
  | none =>
      refine ⟨state, htook, fun hqueued => ?_⟩
      simp [ConditionalUpdate.returning, Call.update, markCancelled,
        hqueued] at hreturn
  | some cancelled =>
      have hguard := (ConditionalUpdate.returning_eq_some_iff.mp hreturn).1
      exact ⟨state, htook, of_decide_eq_true hguard⟩

theorem asked_of_cancels (hcancels : Cancels settings modelDump submittedAt
      callbackUrl labels state request) :
    Asked settings modelDump submittedAt callbackUrl labels request := by
  refine LabelledStep.run_invariant_past
    (fun past (both : AsyncPath Worker Json Result × CancelExtractionState) =>
      Asked settings modelDump submittedAt callbackUrl past both.2)
    ?_ ?_ hcancels
  · rintro past ⟨state, before⟩ label ⟨next, after⟩ hpast hbefore hmoved
    cases ClientStep.moved hmoved with
    | system hstep => exact hbefore.snoc _
    | looked hclient =>
        unfold doHandle at hclient
        split at hclient
        · cases hclient
        · cases hclient
          exact ⟨hbefore.snoc _, state, ClientStep.took_snoc hpast, rfl⟩
        · cases hclient
    | acted hclient hstep =>
        unfold doHandle at hclient
        split at hclient
        · cases hclient
          exact asked_marked hpast
        · cases hclient
        · cases hclient
  · exact trivial

end

/-- What an answer to `DELETE` promises, whatever the workers are at: that the
extraction was queued and is called off, or that it was not queued any more, and
where it stood when the handler looked. -/
inductive Honoured (settings : IDPSettings) (modelDump : Result → Json)
    (submittedAt : Int) (callbackUrl : Option String)
    (labels : List (CancelLabel Worker Result))
    (state : AsyncPath Worker Json Result) : CancelExtractionResponse → Prop
  | cancelled {extraction tried} :
      TookIn settings modelDump submittedAt callbackUrl labels .markCancelled
        tried →
      tried.row.status = .queued →
      CalledOff state extraction →
      Honoured settings modelDump submittedAt callbackUrl labels state
        (.cancelled extraction)
  | extractionNotCancellable {status tried read} :
      TookIn settings modelDump submittedAt callbackUrl labels .markCancelled
        tried →
      tried.row.status ≠ .queued →
      TookIn settings modelDump submittedAt callbackUrl labels .get read →
      read.row.status = status →
      (status.isTerminal = true → state.row.status = status) →
      Honoured settings modelDump submittedAt callbackUrl labels state
        (.extractionNotCancellable status)

/--
A successful cancel is final: no result is stored, no webhook is sent and no
worker executes the extraction again, also not one that held its event.  Only an
extraction that is not queued is refused.
-/
theorem cancel_honoured (settings : IDPSettings) (modelDump : Result → Json)
    (submittedAt : Int) (callbackUrl : Option String)
    (labels : List (CancelLabel Worker Result))
    (state : AsyncPath Worker Json Result)
    (response : CancelExtractionResponse)
    (hcancels : Cancels settings modelDump submittedAt callbackUrl labels state
      (.answered response)) :
    Honoured settings modelDump submittedAt callbackUrl labels state
      response := by
  obtain ⟨hkept, htold⟩ := told_of_cancels hcancels
  have hasked := asked_of_cancels hcancels
  cases response with
  | cancelled extraction =>
      obtain ⟨hstatus, -, rfl⟩ := htold
      obtain ⟨tried, htried, hqueued⟩ := hasked
      exact .cancelled htried hqueued (calledOff_of_kept hkept hstatus)
  | notFound => exact htold.elim
  | extractionNotCancellable status =>
      obtain ⟨⟨tried, htried, hbusy⟩, read, hread, hstatus⟩ := hasked
      exact .extractionNotCancellable htried hbusy hread hstatus htold

def cancelledRun : List (CancelLabel Unit Unit) :=
  [.inl (.deliver .main ()), .inl (.process .main () .get),
    .inr .markCancelled, .inl (.process .main () .claim)]

theorem cancel_honoured_cancelledRun :
    ∃ (state : AsyncPath Unit Unit Unit) (response : CancelExtractionResponse),
      Cancels {} id 0 (some "https://example.com") cancelledRun state
          (.answered response) ∧
        Honoured {} id 0 (some "https://example.com") cancelledRun state
          response := by
  have hrun : (LabelledStep.run
      (ClientStep.withSystem (step {} id) doHandle)
      ((submitted 0 (some "https://example.com") : AsyncPath Unit Unit Unit),
        .received) cancelledRun).map
        (fun both =>
          match both.2 with
          | .answered (.cancelled extraction) => some extraction.status
          | _ => none) = some (some .cancelled) := by
    decide
  obtain ⟨⟨state, request⟩, hcancels, hanswered⟩ :=
    Option.map_eq_some_iff.mp hrun
  split at hanswered
  next extraction hrequest =>
    cases hrequest
    exact ⟨state, .cancelled extraction, hcancels,
      cancel_honoured {} id 0 _ cancelledRun state _ hcancels⟩
  · cases hanswered

end

end CancelExtractionHandler

end Flydocs
