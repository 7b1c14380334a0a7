import Flydocs.Extractions.GetExtractionResult

/-!
# Waiting for an extraction from outside

`wait_for_completion` of the Python client polls the status endpoint beside the
async path.  What it returns is final, and a result can be fetched after it
has returned a succeeded extraction.  Durations are in microseconds.
-/

namespace Flydocs

open Foundation ExtractionRepository AsyncPath

variable {Worker Json Result : Type*}

namespace AsyncClient

structure WaitForCompletion where
  pollInterval : Int := 2000000
  timeout : Int := 600000000
  deriving DecidableEq, Repr

def pause (wait : WaitForCompletion) (remaining : Int) : Int :=
  min wait.pollInterval (max remaining 10000)

def waitForCompletion (wait : WaitForCompletion) :
    PollLoop Interfaces.Extraction where
  settled extraction := extraction.status.isTerminal
  pause := pause wait

theorem min_le_pause (wait : WaitForCompletion) (remaining : Int) :
    min wait.pollInterval remaining ≤ pause wait remaining :=
  min_le_min_left _ (le_max_left _ _)

/-! ## Beside the async path -/

/-- What the status endpoint has shown of the row at some time. -/
def Shown (modelDump : Result → Json) (state : AsyncPath Worker Json Result)
    (extraction : Interfaces.Extraction) : Prop :=
  ∃ row, extraction = Projector.rowToExtraction row ∧
    Remembered modelDump .queued state row

abbrev WaitLabel (Worker Result : Type*) :=
  Label Worker Result ⊕ PollAction

variable [DecidableEq Worker]

def waitingStep (settings : IDPSettings) (modelDump : Result → Json)
    (wait : WaitForCompletion) :
    LabelledStep (AsyncPath Worker Json Result × Poll Interfaces.Extraction)
      (WaitLabel Worker Result) :=
  ClientStep.withSystem (step settings modelDump)
    (.reader fun state =>
      (waitForCompletion wait).step (Projector.rowToExtraction state.row))

def Waits (settings : IDPSettings) (modelDump : Result → Json)
    (wait : WaitForCompletion) (submittedAt : Int)
    (callbackUrl : Option String) (start : Int)
    (labels : List (WaitLabel Worker Result))
    (state : AsyncPath Worker Json Result) (poll : Poll Interfaces.Extraction) :
    Prop :=
  LabelledStep.run (waitingStep settings modelDump wait)
    (submitted submittedAt callbackUrl, .begun start wait.timeout) labels =
      some (state, poll)

variable {modelDump : Result → Json} {settings : IDPSettings}
  {wait : WaitForCompletion} {state : AsyncPath Worker Json Result}

theorem faithful_of_waits {submittedAt : Int} {callbackUrl : Option String}
    {start : Int} {labels : List (WaitLabel Worker Result)}
    {poll : Poll Interfaces.Extraction}
    (hwaits : Waits settings modelDump wait submittedAt callbackUrl start labels
      state poll) :
    Sound modelDump .queued state ∧
      (waitForCompletion wait).Faithful (Shown modelDump state)
        (fun _ _ => True) start wait.timeout wait.pollInterval poll := by
  refine ClientStep.run_seen_of_reader (Sound modelDump .queued)
    (fun state poll => (waitForCompletion wait).Faithful
      (Shown modelDump state) (fun _ _ => True) start wait.timeout
      wait.pollInterval poll) ?_ ?_ ?_ ?_ ?_ hwaits
  · exact sound_step settings modelDump .queued
  · intro state label next poll hsound hfaithful hstep
    refine hfaithful.mono ?_
    rintro extraction ⟨row, hshown, hremembered⟩
    exact ⟨row, hshown, hremembered.step hsound hstep⟩
  · intro state poll action after hsound hfaithful hstep
    exact hfaithful.step (fun remaining _ => min_le_pause wait remaining)
      ⟨state.row, rfl, hsound.remembered⟩ (fun _ _ => trivial) hstep
  · exact submitted_sound modelDump submittedAt callbackUrl
  · exact PollLoop.begun_faithful _ _ _ _ _ _

/-! ## How waiting ends -/

/-- Waiting ends with an extraction, or with a `TimeoutError` if `expired`. -/
structure Waited (wait : WaitForCompletion) (start : Int)
    (state : AsyncPath Worker Json Result) (poll : Poll Interfaces.Extraction)
    (last : Interfaces.Extraction) (expired : Bool) : Prop where
  reads_lt : 2 ≤ poll.reads →
    ((poll.reads : Int) - 2) * wait.pollInterval < max 0 wait.timeout
  timed_out : expired = true →
    last.status.isTerminal = false ∧ start + max 0 wait.timeout ≤ poll.time
  final : expired = false →
    last.status.isTerminal = true ∧ state.row.status = last.status
  unsuccessful : expired = false → last.status ≠ .succeeded →
    Projector.rowToExtraction state.row = last

/--
A client that waits is not told to go on while the extraction is open, nor to
give up before its deadline, and what it is told is still so ever after.
-/
theorem waited (settings : IDPSettings) (modelDump : Result → Json)
    (wait : WaitForCompletion) (submittedAt : Int)
    (callbackUrl : Option String) (start : Int)
    (labels : List (WaitLabel Worker Result))
    (state : AsyncPath Worker Json Result) (poll : Poll Interfaces.Extraction)
    (last : Interfaces.Extraction) (expired : Bool)
    (hwaits : Waits settings modelDump wait submittedAt callbackUrl start labels
      state poll)
    (hphase : poll.phase = .returned last expired) :
    Waited wait start state poll last expired := by
  obtain ⟨-, hfaithful⟩ := faithful_of_waits hwaits
  obtain ⟨⟨row, rfl, hremembered⟩, hsettled, htime, hreads⟩ :=
    hfaithful.returned hphase
  constructor
  · exact fun hslept => (hreads hslept).1
  · intro hexpired
    rw [hexpired] at hsettled
    exact ⟨hsettled, htime hexpired⟩
  · intro hexpired
    rw [hexpired] at hsettled
    exact ⟨hsettled, hremembered.status_eq hsettled⟩
  · intro hexpired hstatus
    rw [hexpired] at hsettled
    rw [hremembered.row_eq
      (settled_of_unsuccessful hremembered.wellFormed hsettled hstatus)]

def waitingRun (result : Result) : List (WaitLabel Unit Result) :=
  [.inr .read, .inr .decide, .inl (.deliver .main ()),
    .inl (.process .main () .get), .inl (.process .main () .claim),
    .inl (.process .main () (.execute result false)),
    .inl (.process .main () .finalise), .inr (.elapse 2000000), .inr .wake,
    .inr .read, .inr .decide]

theorem waited_waitingRun :
    ∃ (state : AsyncPath Unit Unit Unit) (poll : Poll Interfaces.Extraction)
      (last : Interfaces.Extraction),
      Waits {} id {} 0 none 0 (waitingRun ()) state poll ∧
        poll.phase = .returned last false ∧
        Waited {} 0 state poll last false := by
  have hrun : (LabelledStep.run (waitingStep {} id {})
      ((submitted 0 none : AsyncPath Unit Unit Unit), .begun 0 600000000)
      (waitingRun ())).map
        (fun both => both.2.ended.map Prod.snd) = some (some false) := by
    decide
  obtain ⟨⟨state, poll⟩, hwaits, hended⟩ := Option.map_eq_some_iff.mp hrun
  obtain ⟨⟨last, expired⟩, hreturned, rfl⟩ := Option.map_eq_some_iff.mp hended
  have hphase := Poll.phase_of_ended hreturned
  exact ⟨state, poll, last, hwaits, hphase,
    waited {} id {} 0 none 0 (waitingRun ()) state poll last false hwaits
      hphase⟩

/-! ## Fetching the result afterwards -/

open GetExtractionResultHandler

/--
After a wait that ended with `succeeded`, a request for the result is answered
with an envelope, whatever happens in the meantime.
-/
theorem envelope_after_wait (settings : IDPSettings)
    (scalars : Dtos.ResultScalars) (wait : WaitForCompletion)
    (query : GetExtractionResultQuery) (submittedAt : Int)
    (callbackUrl : Option String) (start : Int)
    (labels : List (WaitLabel Worker Dtos.ExtractionResult))
    (later : List (ResultLabel Worker)) (state after : ResultPath Worker)
    (poll : Poll Interfaces.Extraction) (last : Interfaces.Extraction)
    (request : GetExtractionResultState) (answer : GetExtractionResultResponse)
    (hwaits : Waits settings (dump scalars) wait submittedAt callbackUrl start
      labels state poll)
    (hphase : poll.phase = .returned last false)
    (hstatus : last.status = .succeeded)
    (hrun : LabelledStep.run (readingStep settings scalars query)
      (state, .received) later = some (after, request))
    (hanswer : response scalars request = some answer) :
    ∃ result, answer = .envelope result ∧
      Computed (dump scalars) after.history result := by
  obtain ⟨hsound, hfaithful⟩ := faithful_of_waits hwaits
  obtain ⟨⟨shown, rfl, hshown⟩, hsettled, -, -⟩ := hfaithful.returned hphase
  have hnow : state.row.status = .succeeded :=
    (hshown.status_eq hsettled).trans hstatus
  obtain ⟨-, hknown⟩ := known_of_run hsound.restart hrun
  obtain ⟨row, hremembered, rfl⟩ := hknown.response hanswer
  have hrow : row.status = .succeeded := by
    rw [hremembered.status_of_terminal] <;>
      simp [hnow, ExtractionStatus.isTerminal]
  obtain ⟨result, hrespond, -, hcomputed⟩ := respond_succeeded hremembered hrow
  exact ⟨result, hrespond, hcomputed⟩

theorem envelope_after_wait_waitingRun :
    ∃ (state : ResultPath Unit) (poll : Poll Interfaces.Extraction)
      (last : Interfaces.Extraction) (result : Dtos.ExtractionResult),
      Waits {} (dump .json) {} 0 none 0 (waitingRun emptyResult) state poll ∧
        poll.phase = .returned last false ∧ last.status = .succeeded ∧
        respond .json (some state.row) = .envelope result := by
  have hrun : (LabelledStep.run (waitingStep {} (dump .json) {})
      ((submitted 0 none : ResultPath Unit), .begun 0 600000000)
      (waitingRun emptyResult)).map
        (fun both => both.2.ended.map (Prod.map Interfaces.Extraction.status id)) =
      some (some (.succeeded, false)) := by
    decide
  obtain ⟨⟨state, poll⟩, hwaits, hended⟩ := Option.map_eq_some_iff.mp hrun
  obtain ⟨⟨last, expired⟩, hreturned, hlast⟩ :=
    Option.map_eq_some_iff.mp hended
  obtain ⟨hstatus, rfl⟩ := Prod.mk.inj hlast
  have hphase := Poll.phase_of_ended hreturned
  obtain ⟨result, hresult, -⟩ := envelope_after_wait {} .json {} {} 0 none 0
    (waitingRun emptyResult) [.inr (.get 0)] state state poll last
    (.answering (some state.row)) (respond .json (some state.row)) hwaits
    hphase hstatus rfl rfl
  exact ⟨state, poll, last, result, hwaits, hphase, hstatus, hresult⟩

end AsyncClient

end Flydocs
