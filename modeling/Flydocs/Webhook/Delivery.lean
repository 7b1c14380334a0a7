import Flydocs.Foundation.Retrying
import Flydocs.Webhook.Headers
import Flydocs.Workers.ExtractionWorker

/-!
# The outcome of a delivery

`deliver` posts until a response settles it or its attempts are used up.  The
retries end in the exception of the last attempt, which none of the handlers
of `deliver` catches; a delivery that is settled in time is a boolean, and the
worker goes on to announce the bbox leg.
-/

namespace Flydocs

open Foundation

namespace Webhook

inductive HttpOutcome where
  | response (status : Nat)
  | requestError (name : String)
  deriving DecidableEq, Repr

inductive PostError where
  | retryableWebhook (message : String)
  | requestError (name : String)
  deriving DecidableEq, Repr

def retryableStatus (status : Nat) : Bool :=
  decide (500 ≤ status ∧ status < 600) || decide (status = 429)

def HttpOutcome.retryable : HttpOutcome → Bool
  | response status => retryableStatus status
  | requestError _ => false

def doPost (url : String) : HttpOutcome → Except PostError Bool
  | .requestError name => .error (.requestError name)
  | .response status =>
      if retryableStatus status then
        .error (.retryableWebhook ("webhook " ++ url ++
          " returned retryable status " ++ toString status))
      else if 400 ≤ status then .ok false
      else .ok true

/-- `retry_if_exception_type(_RetryableWebhook)` with `reraise=True`. -/
def retryPolicy : Retrying.Policy PostError where
  retries
    | .retryableWebhook _ => true
    | .requestError _ => false
  reraise := true

namespace HttpPublisher

variable (publisher : HttpPublisher) (lower : String → String) (url : String)
  (outcomes : Nat → HttpOutcome)

def attempts : Nat := (max 1 publisher.maxAttempts).toNat

def retryableWebhook (message : String) : Failure where
  isValueError := false
  isTypeError := false
  message := message
  loweredMessage := lower message

/-- `deliver`, where request number `n` from zero comes to `outcomes n`. -/
def deliver : Except Failure Bool :=
  match Retrying.call retryPolicy (fun number => doPost url (outcomes number))
      (publisher.attempts - 1) 0 with
  | .ok delivered => .ok delivered
  | .error (.retryError _) => .ok false
  | .error (.own (.requestError _)) => .ok false
  | .error (.own (.retryableWebhook message)) =>
      .error (retryableWebhook lower message)

/-- A response below 400 in time, with only retryable statuses before it. -/
def Succeeds : Prop :=
  ∃ number < publisher.attempts,
    (∃ status < 400, outcomes number = .response status) ∧
      ∀ earlier < number, (outcomes earlier).retryable = true

end HttpPublisher

def webhookAction {Result : Type*} : Except Failure Bool → Action Result
  | .ok _ => .notify
  | .error failure => .raise failure

variable {url : String} {outcomes : Nat → HttpOutcome}

theorem again_doPost (outcome : HttpOutcome) :
    retryPolicy.again (doPost url outcome) = outcome.retryable := by
  cases outcome with
  | requestError name => rfl
  | response status =>
      simp only [doPost, HttpOutcome.retryable]
      split
      · rename_i hretryable
        rw [hretryable]
        rfl
      · rename_i hfinal
        rw [Bool.not_eq_true] at hfinal
        rw [hfinal]
        split <;> rfl

namespace HttpPublisher

variable {publisher : HttpPublisher} {lower : String → String}

theorem attempts_pos (publisher : HttpPublisher) : 0 < publisher.attempts := by
  unfold attempts
  omega

theorem deliver_of_settled {number : Nat} (hnumber : number < publisher.attempts)
    (hearlier : ∀ earlier < number, (outcomes earlier).retryable = true)
    (hsettled : (outcomes number).retryable = false) :
    ∃ delivered, publisher.deliver lower url outcomes = .ok delivered ∧
      (delivered = true ↔ ∃ status < 400, outcomes number = .response status) := by
  have hcall : Retrying.call retryPolicy
      (fun number => doPost url (outcomes number)) (publisher.attempts - 1) 0 =
        Retrying.settled (doPost url (outcomes (0 + number))) := by
    refine Retrying.call_of_first_settled (by omega) ?_ ?_
    · intro earlier hlt
      rw [again_doPost, Nat.zero_add]
      exact hearlier earlier hlt
    · rw [again_doPost, Nat.zero_add]
      exact hsettled
  rw [Nat.zero_add] at hcall
  rw [deliver, hcall]
  cases houtcome : outcomes number with
  | requestError name => exact ⟨false, rfl, by simp⟩
  | response status =>
      have hfinal : retryableStatus status = false := by
        rw [houtcome] at hsettled
        exact hsettled
      by_cases hclient : 400 ≤ status
      · refine ⟨false, by simp [doPost, hfinal, hclient, Retrying.settled], ?_⟩
        simp
        omega
      · refine ⟨true, by simp [doPost, hfinal, hclient, Retrying.settled], ?_⟩
        simp
        omega

/-- Where every attempt meets a retryable status, `deliver` raises. -/
theorem deliver_of_exhausted
    (h : ∀ number < publisher.attempts, (outcomes number).retryable = true) :
    ∃ failure, publisher.deliver lower url outcomes = .error failure := by
  have hpositive := publisher.attempts_pos
  have hagain : ∀ index ≤ publisher.attempts - 1,
      retryPolicy.again (doPost url (outcomes (0 + index))) = true := by
    intro index hindex
    rw [again_doPost, Nat.zero_add]
    exact h index (by omega)
  obtain ⟨last, hlast, hcall⟩ := Retrying.call_of_exhausted retryPolicy
    (fun number => doPost url (outcomes number)) hagain
  have hretries := hagain _ le_rfl
  rw [hlast] at hretries
  rw [deliver, hcall]
  cases last with
  | requestError name => cases hretries
  | retryableWebhook message => exact ⟨_, rfl⟩

theorem succeeds_iff {number : Nat} (hnumber : number < publisher.attempts)
    (hearlier : ∀ earlier < number, (outcomes earlier).retryable = true)
    (hsettled : (outcomes number).retryable = false) :
    publisher.Succeeds outcomes ↔
      ∃ status < 400, outcomes number = .response status := by
  constructor
  · rintro ⟨other, -, ⟨status, hstatus, hother⟩, hbefore⟩
    have hfinal : (outcomes other).retryable = false := by
      rw [hother]
      simp [HttpOutcome.retryable, retryableStatus]
      omega
    have hsame : other = number := by
      rcases Nat.lt_trichotomy other number with hlt | heq | hlt
      · rw [hearlier other hlt] at hfinal
        cases hfinal
      · exact heq
      · rw [hbefore number hlt] at hsettled
        cases hsettled
    exact ⟨status, hstatus, hsame ▸ hother⟩
  · intro hresponse
    exact ⟨number, hnumber, hresponse, hearlier⟩

end HttpPublisher

section

variable {Worker Json Result : Type*}

/-- After the webhook the worker's next step announces the bbox leg. -/
def GoesOn (settings : IDPSettings) (modelDump : Result → Json)
    (Worker : Type*) (delivery : Except Failure Bool) : Prop :=
  ∀ (now : Int) (worker : Worker) (row claimed finalised : Extraction Json)
    (result : Result) (wantsBboxRefine : Bool),
    ∃ effect, ExtractionWorker.process settings modelDump now worker row
        (.notifying claimed finalised result wantsBboxRefine)
        (webhookAction delivery) = some effect ∧
      effect.next = some (.notified claimed finalised wantsBboxRefine)

theorem goesOn_ok (settings : IDPSettings) (modelDump : Result → Json)
    (delivered : Bool) : GoesOn settings modelDump Worker (.ok delivered) :=
  fun _ _ _ _ _ _ _ => ⟨_, rfl, rfl⟩

/-- A delivery is a total boolean, and the worker goes on, exactly where one of
the attempts meets something else than a retryable status. -/
theorem deliver_total_iff (publisher : HttpPublisher) (lower : String → String)
    (url : String) (outcomes : Nat → HttpOutcome) (settings : IDPSettings)
    (modelDump : Result → Json) :
    (∃ delivered, publisher.deliver lower url outcomes = .ok delivered ∧
      (delivered = true ↔ publisher.Succeeds outcomes) ∧
      GoesOn settings modelDump Worker
        (publisher.deliver lower url outcomes)) ↔
    ∃ number < publisher.attempts, (outcomes number).retryable = false := by
  constructor
  · rintro ⟨delivered, hdelivered, -, -⟩
    by_contra hnone
    push Not at hnone
    have hraised : ∃ failure, publisher.deliver lower url outcomes =
        .error failure :=
      HttpPublisher.deliver_of_exhausted fun number hnumber => by
        simpa using hnone number hnumber
    obtain ⟨failure, hraised⟩ := hraised
    rw [hdelivered] at hraised
    cases hraised
  · intro hsettled
    have hfirst := Nat.find_spec hsettled
    have hearlier : ∀ earlier < Nat.find hsettled,
        (outcomes earlier).retryable = true := by
      intro earlier hlt
      have hnot := Nat.find_min hsettled hlt
      have hlimit := hlt.trans hfirst.1
      simpa [hlimit] using hnot
    have hdecided : ∃ delivered,
        publisher.deliver lower url outcomes = .ok delivered ∧ _ :=
      HttpPublisher.deliver_of_settled hfirst.1 hearlier hfirst.2
    obtain ⟨delivered, hdelivered, htrue⟩ := hdecided
    refine ⟨delivered, hdelivered, ?_, ?_⟩
    · rw [htrue, HttpPublisher.succeeds_iff hfirst.1 hearlier hfirst.2]
    · rw [hdelivered]
      exact goesOn_ok settings modelDump delivered

end

/-! ## A receiver that stays unavailable -/

/-- Five times 503, and the exception of the last one leaves `deliver`. -/
theorem not_deliver_total :
    ¬ ∀ (publisher : HttpPublisher) (lower : String → String) (url : String)
      (outcomes : Nat → HttpOutcome) (settings : IDPSettings)
      (modelDump : Unit → Unit),
      ∃ delivered, publisher.deliver lower url outcomes = .ok delivered ∧
        (delivered = true ↔ publisher.Succeeds outcomes) ∧
        GoesOn settings modelDump Unit
          (publisher.deliver lower url outcomes) := by
  intro h
  obtain ⟨delivered, hdelivered, -⟩ := h { hmacSecret := "" } id
    "https://receiver.example/hook" (fun _ => .response 503) {} id
  have hraised : HttpPublisher.deliver { hmacSecret := "" } id
      "https://receiver.example/hook" (fun _ => .response 503) =
        .error (HttpPublisher.retryableWebhook id
          "webhook https://receiver.example/hook returned retryable status 503") :=
    by decide
  rw [hraised] at hdelivered
  cases hdelivered

end Webhook

end Flydocs
