import Flydocs.Dtos.EventDump
import Flydocs.Foundation.PollLoop
import Flydocs.Workers.RowHistory

/-!
# Reading a result while the workers run

`GetExtractionResultHandler` beside the async path: one read of the row, or a
long poll until the bbox leg is stable, and an answer made from the last row
read.  The workers store and the handler validates with the same model class.
Durations are in microseconds.
-/

namespace Flydocs

open Foundation ExtractionRepository

/-! ## The handler -/

structure GetExtractionResultQuery where
  waitForPostProcessing : Bool := false
  timeout : Int := 60000000
  pollInterval : Int := 1000000
  deriving DecidableEq, Repr

inductive GetExtractionResultResponse where
  | notFound
  | extractionNotReady (status : ExtractionStatus)
  | missingResultJson (status : ExtractionStatus)
  | validationError
  | envelope (result : Dtos.ExtractionResult)

inductive GetExtractionResultState where
  | received
  | answering (row : Option (Extraction JsonValue))
  | polling (poll : Poll (Option (Extraction JsonValue)))

namespace GetExtractionResultState

def poll : GetExtractionResultState → Option (Poll (Option (Extraction JsonValue)))
  | .polling poll => some poll
  | .received | .answering _ => none

theorem eq_polling {request : GetExtractionResultState}
    {poll : Poll (Option (Extraction JsonValue))}
    (h : request.poll = some poll) : request = .polling poll := by
  cases request with
  | polling _ =>
      cases h
      rfl
  | received | answering _ => cases h

end GetExtractionResultState

inductive GetExtractionResultAction where
  | get (time : Int)
  | poll (action : PollAction)
  deriving DecidableEq, Repr

namespace ExtractionStatus

def hasResult : ExtractionStatus → Bool
  | succeeded => true
  | queued | running | failed | cancelled => false

end ExtractionStatus

namespace GetExtractionResultHandler

def terminalNoResult (status : ExtractionStatus) : Bool :=
  decide (status = .failed) || decide (status = .cancelled)

/-- The stable states at which `_poll_for_terminal` stops. -/
def stable : Option (Extraction JsonValue) → Bool
  | none => true
  | some last =>
      terminalNoResult last.status ||
        match last.postProcessingBboxStatus with
        | none => true
        | some bboxStatus => bboxStatus.isTerminal

def interval (query : GetExtractionResultQuery) : Int :=
  max 100000 query.pollInterval

def pollForTerminal (query : GetExtractionResultQuery) :
    PollLoop (Option (Extraction JsonValue)) where
  settled := stable
  pause _ := interval query

variable (scalars : Dtos.ResultScalars)

def respond : Option (Extraction JsonValue) → GetExtractionResultResponse
  | none => .notFound
  | some row =>
      if row.status.hasResult then
        match row.resultJson.filter ExtractionWorker.truthy with
        | none => .missingResultJson row.status
        | some json =>
            match (Dtos.ExtractionResult.codec scalars).validate json with
            | none => .validationError
            | some result => .envelope result
      else .extractionNotReady row.status

def response : GetExtractionResultState → Option GetExtractionResultResponse
  | .received => none
  | .answering row => some (respond scalars row)
  | .polling poll =>
      match poll.phase with
      | .returned last _ => some (respond scalars last)
      | _ => none

/-- One step of `do_handle` while `repository.get` would return `row`. -/
def doHandle (query : GetExtractionResultQuery)
    (row : Option (Extraction JsonValue)) :
    LabelledStep GetExtractionResultState GetExtractionResultAction
  | .received, .get time =>
      match row with
      | none => some (.answering none)
      | some found =>
          if query.waitForPostProcessing then
            some (.polling (.begun time query.timeout))
          else some (.answering (some found))
  | .polling poll, .poll action =>
      ((pollForTerminal query).step row poll action).map .polling
  | _, _ => none

/-! ## What the handler knows -/

open AsyncPath

variable {Worker : Type*}

/-- The async path of an extraction whose results are dumped for the row. -/
abbrev ResultPath (Worker : Type*) :=
  AsyncPath Worker JsonValue Dtos.ExtractionResult

abbrev dump : Dtos.ExtractionResult → JsonValue :=
  (Dtos.ExtractionResult.codec scalars).dump

def Read (origin : Phase) (state : ResultPath Worker)
    (row : Option (Extraction JsonValue)) : Prop :=
  ∃ found, row = some found ∧ Remembered (dump scalars) origin state found

/-- A terminal status that was read before is read again. -/
def After (earlier later : Option (Extraction JsonValue)) : Prop :=
  ∀ first second, earlier = some first → later = some second →
    first.status.isTerminal = true → second.status = first.status

def Known (query : GetExtractionResultQuery) (origin : Phase)
    (state : ResultPath Worker) : GetExtractionResultState → Prop
  | .received => True
  | .answering row => Read scalars origin state row
  | .polling poll =>
      ∃ start, (pollForTerminal query).Faithful (Read scalars origin state) After
        start query.timeout (interval query) poll

variable {scalars} {origin : Phase} {state : ResultPath Worker}
  {query : GetExtractionResultQuery}

theorem Read.after {earlier : Option (Extraction JsonValue)}
    (h : Read scalars origin state earlier) : After earlier (some state.row) := by
  rintro first second rfl hsecond hterminal
  cases hsecond
  obtain ⟨found, hfound, hremembered⟩ := h
  cases hfound
  exact hremembered.status_eq hterminal

theorem Known.doHandle {request after : GetExtractionResultState}
    {action : GetExtractionResultAction} (hsound : Sound (dump scalars) origin state)
    (h : Known scalars query origin state request)
    (hstep : doHandle query (some state.row) request action = some after) :
    Known scalars query origin state after := by
  have hpresent : Read scalars origin state (some state.row) :=
    ⟨state.row, rfl, hsound.remembered⟩
  unfold GetExtractionResultHandler.doHandle at hstep
  split at hstep
  · simp only at hstep
    split at hstep
    · cases hstep
      exact ⟨_, PollLoop.begun_faithful _ _ _ _ _ _⟩
    · cases hstep
      exact hpresent
  · simp only [Option.map_eq_some_iff] at hstep
    obtain ⟨poll, hpoll, rfl⟩ := hstep
    obtain ⟨start, hfaithful⟩ := h
    refine ⟨start, hfaithful.step ?_ hpresent (fun _ hread => hread.after)
      hpoll⟩
    exact fun remaining _ => min_le_left _ _
  · cases hstep

theorem Known.response {request : GetExtractionResultState}
    {answer : GetExtractionResultResponse}
    (h : Known scalars query origin state request)
    (hanswer : response scalars request = some answer) :
    ∃ row, Remembered (dump scalars) origin state row ∧
      answer = respond scalars (some row) := by
  cases request with
  | received => cases hanswer
  | answering row =>
      obtain ⟨found, rfl, hremembered⟩ := h
      exact ⟨found, hremembered, (Option.some.inj hanswer).symm⟩
  | polling poll =>
      obtain ⟨start, hfaithful⟩ := h
      simp only [GetExtractionResultHandler.response] at hanswer
      split at hanswer
      next last expired hphase =>
        obtain ⟨found, rfl, hremembered⟩ := (hfaithful.returned hphase).1
        exact ⟨found, hremembered, (Option.some.inj hanswer).symm⟩
      · cases hanswer

/-! ## Answers -/

/-- What an answer says of the extraction stays true. -/
inductive Truthful (scalars : Dtos.ResultScalars) (state : ResultPath Worker) :
    GetExtractionResultResponse → Prop
  | extractionNotReady {status} : status.hasResult = false →
      (status.isTerminal = true →
        state.row.status = status ∧ state.row.resultJson = none) →
      Truthful scalars state (.extractionNotReady status)
  | envelope {result} : state.row.status = .succeeded →
      Computed (dump scalars) state.history result →
      Truthful scalars state (.envelope result)

theorem hasResult_iff {status : ExtractionStatus} :
    status.hasResult = true ↔ status = .succeeded := by
  cases status <;> simp [ExtractionStatus.hasResult]

theorem truthy_dump (scalars : Dtos.ResultScalars)
    (result : Dtos.ExtractionResult) :
    ExtractionWorker.truthy (dump scalars result) = true := rfl

theorem respond_succeeded {row : Extraction JsonValue}
    (hremembered : Remembered (dump scalars) origin state row)
    (hstatus : row.status = .succeeded) :
    ∃ result, respond scalars (some row) = .envelope result ∧
      row.resultJson = some (dump scalars result) ∧
      Computed (dump scalars) state.history result := by
  have hsome := hremembered.wellFormed.resultJson_iff.mpr hstatus
  obtain ⟨json, hjson⟩ := Option.isSome_iff_exists.mp hsome
  obtain ⟨result, rfl, hcomputed⟩ := hremembered.computed json hjson
  refine ⟨result, ?_, hjson, hcomputed⟩
  have hvalid := Codec.validate_dump_of_lossless
    (Dtos.ExtractionResult.codec scalars) result
  simp only [respond, hstatus, hasResult_iff.mpr, if_true, hjson,
    Option.filter_some, truthy_dump, hvalid]

theorem truthful_respond {row : Extraction JsonValue}
    (hsound : Sound (dump scalars) origin state)
    (hremembered : Remembered (dump scalars) origin state row) :
    Truthful scalars state (respond scalars (some row)) := by
  by_cases hstatus : row.status = .succeeded
  · obtain ⟨result, hrespond, -, hcomputed⟩ :=
      respond_succeeded hremembered hstatus
    rw [hrespond]
    have hnow := hremembered.status_eq (by simp [hstatus,
      ExtractionStatus.isTerminal])
    exact .envelope (hnow.trans hstatus) hcomputed
  · have hnone : row.status.hasResult = false := by
      rw [Bool.eq_false_iff, ne_eq, hasResult_iff]
      exact hstatus
    simp only [respond, hnone, Bool.false_eq_true, if_false]
    refine .extractionNotReady hnone fun hterminal => ?_
    have hnow := hremembered.status_eq hterminal
    refine ⟨hnow, ?_⟩
    rw [← Option.not_isSome_iff_eq_none, hsound.wellFormed.resultJson_iff, hnow]
    exact hstatus

/-! ## Beside the async path -/

abbrev ResultLabel (Worker : Type*) :=
  Label Worker Dtos.ExtractionResult ⊕ GetExtractionResultAction

variable [DecidableEq Worker] (settings : IDPSettings)
  (scalars : Dtos.ResultScalars) (query : GetExtractionResultQuery)

def readingStep :
    LabelledStep (ResultPath Worker × GetExtractionResultState)
      (ResultLabel Worker) :=
  ClientStep.withSystem
    (step settings (Dtos.ExtractionResult.codec scalars).dump)
    (.reader fun state => doHandle query (some state.row))

def ReadsResult (submittedAt : Int) (callbackUrl : Option String)
    (labels : List (ResultLabel Worker)) (state : ResultPath Worker)
    (request : GetExtractionResultState) : Prop :=
  LabelledStep.run (readingStep settings scalars query)
    (submitted submittedAt callbackUrl, .received) labels =
      some (state, request)

variable {settings scalars query} {state next : ResultPath Worker}

theorem Read.step {row : Option (Extraction JsonValue)}
    {label : Label Worker Dtos.ExtractionResult}
    (hsound : Sound (dump scalars) origin state) (h : Read scalars origin state row)
    (hstep : step settings (dump scalars) state label = some next) :
    Read scalars origin next row := by
  obtain ⟨found, hrow, hremembered⟩ := h
  exact ⟨found, hrow, hremembered.step hsound hstep⟩

theorem Known.step {request : GetExtractionResultState}
    {label : Label Worker Dtos.ExtractionResult}
    (hsound : Sound (dump scalars) origin state) (h : Known scalars query origin state request)
    (hstep : step settings (dump scalars) state label = some next) :
    Known scalars query origin next request := by
  cases request with
  | received => trivial
  | answering row => exact Read.step hsound h hstep
  | polling poll =>
      obtain ⟨start, hfaithful⟩ := h
      exact ⟨start, hfaithful.mono fun _ hread => hread.step hsound hstep⟩

theorem known_of_run {start : ResultPath Worker}
    {labels : List (ResultLabel Worker)} {request : GetExtractionResultState}
    (hsound : Sound (dump scalars) origin start)
    (hrun : LabelledStep.run (readingStep settings scalars query)
      (start, .received) labels = some (state, request)) :
    Sound (dump scalars) origin state ∧
      Known scalars query origin state request := by
  refine ClientStep.run_seen_of_reader (Sound (dump scalars) origin)
    (Known scalars query origin) ?_ ?_ ?_ hsound ?_ hrun
  · exact sound_step settings (dump scalars) origin
  · exact fun _ _ _ _ hsound hknown hstep => hknown.step hsound hstep
  · exact fun _ _ _ _ hsound hknown hstep => hknown.doHandle hsound hstep
  · exact trivial

theorem known_of_readsResult {submittedAt : Int} {callbackUrl : Option String}
    {labels : List (ResultLabel Worker)} {request : GetExtractionResultState}
    (hreads : ReadsResult settings scalars query submittedAt callbackUrl labels
      state request) :
    Sound (dump scalars) .queued state ∧
      Known scalars query .queued state request :=
  known_of_run (submitted_sound (dump scalars) submittedAt callbackUrl) hreads

/--
Whatever the workers, the reapers and the bus do meanwhile, the endpoint never
fails on a succeeded extraction, and serves what a worker computed.
-/
theorem response_truthful (settings : IDPSettings)
    (scalars : Dtos.ResultScalars) (query : GetExtractionResultQuery)
    (submittedAt : Int) (callbackUrl : Option String)
    (labels : List (ResultLabel Worker)) (state : ResultPath Worker)
    (request : GetExtractionResultState)
    (answer : GetExtractionResultResponse)
    (hreads : ReadsResult settings scalars query submittedAt callbackUrl labels
      state request)
    (hanswer : response scalars request = some answer) :
    Truthful scalars state answer := by
  obtain ⟨hsound, hknown⟩ := known_of_readsResult hreads
  obtain ⟨row, hremembered, rfl⟩ := hknown.response hanswer
  exact truthful_respond hsound hremembered

def emptyResult : Dtos.ExtractionResult where
  id := "e"
  pipeline := { model := "m", latencyMs := 0 }

def succeeding : List (ResultLabel Unit) :=
  [.inl (.deliver .main ()), .inl (.process .main () .get),
    .inl (.process .main () .claim),
    .inl (.process .main () (.execute emptyResult true)),
    .inl (.process .main () .finalise)]

def refining : List (ResultLabel Unit) :=
  [.inl (.process .main () .notify), .inl (.process .main () .announce),
    .inl (.deliver .bbox ()), .inl (.process .bbox () .get),
    .inl (.process .bbox () .claim),
    .inl (.process .bbox () (.execute emptyResult false)),
    .inl (.process .bbox () .finalise)]

theorem response_truthful_succeeding :
    ∃ (state : ResultPath Unit) (request : GetExtractionResultState)
      (answer : GetExtractionResultResponse),
      ReadsResult {} .json {} 0 none (succeeding ++ [.inr (.get 0)]) state
          request ∧
        response .json request = some answer ∧ Truthful .json state answer := by
  have hrun : (LabelledStep.run (readingStep {} .json {})
      (submitted 0 none, .received)
      (succeeding ++ [.inr (.get 0)])).map
        (fun both => (response .json both.2).isSome) = some true := by
    decide
  obtain ⟨⟨state, request⟩, hreads, hsome⟩ := Option.map_eq_some_iff.mp hrun
  obtain ⟨answer, hanswer⟩ := Option.isSome_iff_exists.mp hsome
  exact ⟨state, request, answer, hreads, hanswer,
    response_truthful {} .json {} 0 none _ state request answer hreads hanswer⟩

structure LongPolled (scalars : Dtos.ResultScalars)
    (query : GetExtractionResultQuery) (state : ResultPath Worker)
    (poll : Poll (Option (Extraction JsonValue))) (expired : Bool)
    (answer : GetExtractionResultResponse) : Prop where
  reads_lt : 2 ≤ poll.reads →
    ((poll.reads : Int) - 2) * interval query < max 0 query.timeout
  envelope_of_slept : 2 ≤ poll.reads → ∃ result, answer = .envelope result
  envelope_of_expired : expired = true → ∃ result, answer = .envelope result
  final : expired = false → ∀ result, answer = .envelope result →
    Settled state.row ∧ state.row.resultJson = some (dump scalars result)

omit [DecidableEq Worker] in
theorem succeeded_of_unstable {row : Extraction JsonValue}
    (hwell : row.WellFormed) (hunstable : stable (some row) = false) :
    row.status = .succeeded := by
  refine hwell.bbox_only_succeeded ?_
  simp only [stable, Bool.or_eq_false_iff] at hunstable
  cases hleg : row.postProcessingBboxStatus with
  | none => simp [hleg] at hunstable
  | some bboxStatus => rfl

omit [DecidableEq Worker] in
theorem settled_of_stable {row : Extraction JsonValue}
    (hstatus : row.status = .succeeded) (hstable : stable (some row) = true) :
    Settled row := by
  refine ⟨by simp [hstatus, ExtractionStatus.isTerminal], ?_⟩
  intro leg hleg
  simpa [stable, terminalNoResult, hstatus, Option.mem_def.mp hleg] using
    hstable

omit [DecidableEq Worker] in
theorem succeeded_of_envelope {row : Extraction JsonValue}
    {result : Dtos.ExtractionResult}
    (h : respond scalars (some row) = .envelope result) :
    row.status = .succeeded := by
  rw [← hasResult_iff]
  by_contra hnone
  simp [respond, hnone] at h

/--
A long poll reads at most once per interval; once it has paused it ends with an
envelope, and if it ends in time the result is the last there will be.
-/
theorem longPolled (settings : IDPSettings) (scalars : Dtos.ResultScalars)
    (query : GetExtractionResultQuery) (submittedAt : Int)
    (callbackUrl : Option String) (labels : List (ResultLabel Worker))
    (state : ResultPath Worker)
    (poll : Poll (Option (Extraction JsonValue)))
    (last : Option (Extraction JsonValue)) (expired : Bool)
    (hreads : ReadsResult settings scalars query submittedAt callbackUrl labels
      state (.polling poll))
    (hphase : poll.phase = .returned last expired) :
    LongPolled scalars query state poll expired (respond scalars last) := by
  obtain ⟨-, start, hfaithful⟩ := known_of_readsResult hreads
  obtain ⟨⟨row, rfl, hremembered⟩, hsettled, -, hslept⟩ :=
    hfaithful.returned hphase
  have henvelope (hstatus : row.status = .succeeded) :
      ∃ result, respond scalars (some row) = .envelope result :=
    (respond_succeeded hremembered hstatus).imp fun _ h => h.1
  constructor
  · exact fun hreads => (hslept hreads).1
  · intro hreads
    obtain ⟨-, _, hunstable, ⟨earlier, rfl, hbefore⟩, hafter⟩ := hslept hreads
    have hstatus := succeeded_of_unstable hbefore.wellFormed hunstable
    refine henvelope ((hafter earlier row rfl rfl ?_).trans hstatus)
    simp [hstatus, ExtractionStatus.isTerminal]
  · intro hexpired
    rw [hexpired] at hsettled
    exact henvelope (succeeded_of_unstable hremembered.wellFormed hsettled)
  · intro hexpired result hrespond
    rw [hexpired] at hsettled
    have hstatus := succeeded_of_envelope hrespond
    have hlast := settled_of_stable hstatus hsettled
    obtain ⟨found, hfound, hjson, -⟩ := respond_succeeded hremembered hstatus
    rw [hfound] at hrespond
    cases hrespond
    rw [hremembered.row_eq hlast]
    exact ⟨hlast, hjson⟩

def pollingRun : List (ResultLabel Unit) :=
  succeeding ++
    [.inr (.get 0), .inr (.poll .read), .inr (.poll .decide)] ++ refining ++
      [.inr (.poll (.elapse 1000000)), .inr (.poll .wake), .inr (.poll .read),
        .inr (.poll .decide)]

theorem longPolled_pollingRun :
    ∃ (state : ResultPath Unit)
      (poll : Poll (Option (Extraction JsonValue)))
      (last : Option (Extraction JsonValue)),
      ReadsResult {} .json { waitForPostProcessing := true } 0 none pollingRun
          state (.polling poll) ∧
        poll.reads = 2 ∧ poll.phase = .returned last false ∧
        LongPolled .json { waitForPostProcessing := true } state poll false
          (respond .json last) := by
  have hrun : (LabelledStep.run
      (readingStep {} .json { waitForPostProcessing := true })
      (submitted 0 none, .received) pollingRun).map
        (fun both => both.2.poll.map fun poll =>
          (poll.reads, poll.ended.map Prod.snd)) =
      some (some (2, some false)) := by
    decide
  obtain ⟨⟨state, request⟩, hreads, hsome⟩ := Option.map_eq_some_iff.mp hrun
  obtain ⟨poll, hpoll, hboth⟩ := Option.map_eq_some_iff.mp hsome
  obtain ⟨htwice, hended⟩ := Prod.mk.inj hboth
  obtain ⟨⟨last, expired⟩, hreturned, rfl⟩ := Option.map_eq_some_iff.mp hended
  have hphase := Poll.phase_of_ended hreturned
  obtain rfl : request = .polling poll :=
    GetExtractionResultState.eq_polling hpoll
  exact ⟨state, poll, last, hreads, htwice, hphase, longPolled {} .json _ 0
    none pollingRun state poll last false hreads hphase⟩

end GetExtractionResultHandler

end Flydocs
