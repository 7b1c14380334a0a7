import Flydocs.Config
import Flydocs.Models.Lifecycle

/-!
# Orphaned rows

A row that nobody writes any more has frozen timestamps, so every staleness
query that reads one of them eventually selects it.  The two main-leg queries
cover the queued and running rows, the two bbox-leg queries the pending and
running legs, and each selection is backed by the claim its event triggers.
-/

namespace Flydocs

open Foundation ExtractionRepository Extraction

variable {Json : Type*}

namespace IDPSettings

def largestThreshold (settings : IDPSettings) : Int :=
  timedelta (max (max (max 0 settings.jobRunLeaseS)
    (max 0 settings.queuedOrphanThresholdS))
    (max (max 0 settings.bboxRefineLeaseS)
      (max 0 settings.partialSucceededOrphanThresholdS)))

end IDPSettings

/-! ## The last write of a schedule -/

namespace Extraction

structure WrittenBy (last : Int) (row : Extraction Json) : Prop where
  submittedAt_le : row.submittedAt ≤ last
  startedAt_le : ∀ time ∈ row.startedAt, time ≤ last
  finishedAt_le : ∀ time ∈ row.finishedAt, time ≤ last
  bboxStartedAt_le : ∀ time ∈ row.postProcessingBboxStartedAt, time ≤ last

theorem submitted_writtenBy (submittedAt : Int) (callbackUrl : Option String) :
    (submitted submittedAt callbackUrl : Extraction Json).WrittenBy
      submittedAt := by
  constructor <;> simp [submitted]

theorem WrittenBy.mono {last later : Int} {row : Extraction Json}
    (h : row.WrittenBy last) (hle : last ≤ later) : row.WrittenBy later where
  submittedAt_le := Int.le_trans h.submittedAt_le hle
  startedAt_le time htime := Int.le_trans (h.startedAt_le time htime) hle
  finishedAt_le time htime := Int.le_trans (h.finishedAt_le time htime) hle
  bboxStartedAt_le time htime :=
    Int.le_trans (h.bboxStartedAt_le time htime) hle

end Extraction

namespace ExtractionRepository

theorem keeps_writtenBy (now : Int) (call : Call Json) :
    ConditionalUpdate.Keeps (WrittenBy now) (call.update now) := by
  intro row h hguard
  obtain ⟨hsubmitted, hstarted, hfinished, hbbox⟩ := h
  cases call <;> constructor <;>
    simp_all [Call.update, markRunning, markSucceeded, markFailed,
      markCancelled, requeueForRetry, claimBboxRefinement,
      requeueBboxRefinement, completeBboxRefinement, failBboxRefinement]

def lastWrite : List (TimedCall Json) → Extraction Json → Int → Int
  | [], _, last => last
  | call :: calls, row, last =>
      lastWrite calls (call.update.apply row)
        (if (call.update.returning row).isSome then call.1 else last)

theorem afterCalls_writtenBy (calls : List (TimedCall Json))
    {row : Extraction Json} {last : Int} (h : row.WrittenBy last)
    (hclock : (last :: calls.map Prod.fst).Pairwise (· ≤ ·)) :
    (afterCalls calls row).WrittenBy (lastWrite calls row last) := by
  induction calls generalizing row last with
  | nil => exact h
  | cons call calls ih =>
      rw [List.map_cons, List.pairwise_cons] at hclock
      obtain ⟨hfirst, hrest⟩ := hclock
      have hle : last ≤ call.1 := hfirst call.1 (by simp)
      simp only [lastWrite]
      rcases ConditionalUpdate.apply_cases call.update row with
        ⟨-, hnone, happly⟩ | ⟨-, hsome, happly⟩
      · rw [afterCalls, ConditionalUpdate.runAll_cons, happly, hnone]
        refine ih h (List.pairwise_cons.mpr ⟨fun time htime => ?_, ?_⟩)
        · exact hfirst time (List.mem_cons_of_mem _ htime)
        · exact (List.pairwise_cons.mp hrest).2
      · have hwritten : (call.update.apply row).WrittenBy call.1 :=
          (keeps_writtenBy call.1 call.2).apply (h.mono hle)
        simpa [hsome, afterCalls] using ih hwritten hrest

/-! ## Selection once the clock has moved on -/

theorem isBefore_of_le {column : Option Int} {last cutoff : Int}
    (hsome : column.isSome = true) (hle : ∀ time ∈ column, time ≤ last)
    (hlt : last < cutoff) : isBefore column cutoff = true := by
  cases column with
  | none => exact absurd hsome (by decide)
  | some time =>
      have htime : time ≤ last := hle time rfl
      simp
      omega

theorem isBefore_later {column : Option Int} {seconds : Int} {now later : Int}
    (h : isBefore column (staleCutoff now seconds) = true) (hle : now ≤ later) :
    isBefore column (staleCutoff later seconds) = true := by
  cases column with
  | none => exact h
  | some time =>
      simp only [isBefore_some, staleCutoff, decide_eq_true_eq] at h ⊢
      omega

section Selection

variable {settings : IDPSettings} {row : Extraction Json} {last now : Int}

theorem lt_staleCutoff {seconds : Int}
    (hseconds : timedelta (max 0 seconds) ≤ settings.largestThreshold)
    (hnow : last + settings.largestThreshold < now) :
    last < staleCutoff now seconds := by
  simp only [staleCutoff]
  omega

theorem jobRunLease_le :
    timedelta (max 0 settings.jobRunLeaseS) ≤ settings.largestThreshold := by
  simp only [timedelta, IDPSettings.largestThreshold]
  omega

theorem queuedOrphanThreshold_le :
    timedelta (max 0 settings.queuedOrphanThresholdS) ≤
      settings.largestThreshold := by
  simp only [timedelta, IDPSettings.largestThreshold]
  omega

theorem bboxRefineLease_le :
    timedelta (max 0 settings.bboxRefineLeaseS) ≤
      settings.largestThreshold := by
  simp only [timedelta, IDPSettings.largestThreshold]
  omega

theorem partialSucceededOrphanThreshold_le :
    timedelta (max 0 settings.partialSucceededOrphanThresholdS) ≤
      settings.largestThreshold := by
  simp only [timedelta, IDPSettings.largestThreshold]
  omega

theorem findStaleQueued_of_frozen (hwritten : row.WrittenBy last)
    (hnow : last + settings.largestThreshold < now)
    (hstatus : row.status = .queued) :
    findStaleQueued now settings.queuedOrphanThresholdS row = true := by
  have hcutoff := lt_staleCutoff queuedOrphanThreshold_le hnow
  have hclock : row.startedAt.getD row.submittedAt ≤ last := by
    cases hstarted : row.startedAt with
    | none => exact hwritten.submittedAt_le
    | some time => exact hwritten.startedAt_le time (by simp [hstarted])
  simp only [findStaleQueued, hstatus, decide_true, Bool.true_and,
    decide_eq_true_eq]
  omega

theorem findStaleRunning_of_frozen (hwell : row.WellFormed)
    (hwritten : row.WrittenBy last)
    (hnow : last + settings.largestThreshold < now)
    (hstatus : row.status = .running) :
    findStaleRunning now settings.jobRunLeaseS row = true := by
  have hstarted : row.startedAt.isSome = true :=
    hwell.startedAt_iff.mpr (hwell.attempted_of_running hstatus)
  have hcutoff := lt_staleCutoff jobRunLease_le hnow
  simp [findStaleRunning, hstatus,
    isBefore_of_le hstarted hwritten.startedAt_le hcutoff]

theorem findStaleBboxRefining_of_frozen (hwell : row.WellFormed)
    (hwritten : row.WrittenBy last)
    (hnow : last + settings.largestThreshold < now)
    (hleg : row.postProcessingBboxStatus = some .running) :
    findStaleBboxRefining now settings.bboxRefineLeaseS row = true := by
  have hstarted : row.postProcessingBboxStartedAt.isSome = true :=
    hwell.bboxStartedAt_iff.mpr (hwell.bbox_attempted_of_running hleg)
  have hcutoff := lt_staleCutoff bboxRefineLease_le hnow
  simp [findStaleBboxRefining, hleg,
    isBefore_of_le hstarted hwritten.bboxStartedAt_le hcutoff]

theorem findPendingBboxRevive_of_frozen (hwell : row.WellFormed)
    (hwritten : row.WrittenBy last)
    (hnow : last + settings.largestThreshold < now)
    (hstatus : row.status = .succeeded)
    (hleg : row.postProcessingBboxStatus = some .pending) :
    findPendingBboxRevive now settings.partialSucceededOrphanThresholdS
      settings.bboxRefineLeaseS row = true := by
  have hfinished : row.finishedAt.isSome = true :=
    hwell.finishedAt_iff.mpr (by simp [hstatus, ExtractionStatus.isTerminal])
  have hmain := isBefore_of_le hfinished hwritten.finishedAt_le
    (lt_staleCutoff partialSucceededOrphanThreshold_le hnow)
  have hrefine := lt_staleCutoff bboxRefineLease_le hnow
  -- A leg that was never claimed is dated by the main run, a requeued one by
  -- the claim it was requeued from.
  cases hstarted : row.postProcessingBboxStartedAt with
  | none => simp [findPendingBboxRevive, hstatus, hleg, hstarted, hmain]
  | some time =>
      have htime : time ≤ last :=
        hwritten.bboxStartedAt_le time (by simp [hstarted])
      simp [findPendingBboxRevive, hstatus, hleg, hstarted]
      omega

end Selection

/-! ## The claim behind a selection -/

theorem markRunning_of_queued (now : Int) (leaseSeconds : Int)
    {row : Extraction Json} (h : row.status = .queued) :
    ((markRunning now leaseSeconds).returning row).isSome = true := by
  simp [ConditionalUpdate.returning, markRunning, h]

theorem markRunning_of_findStaleRunning {now later : Int} {leaseSeconds : Int}
    {row : Extraction Json} (h : findStaleRunning now leaseSeconds row = true)
    (hle : now ≤ later) :
    ((markRunning later leaseSeconds).returning row).isSome = true := by
  simp only [findStaleRunning, Bool.and_eq_true, decide_eq_true_eq] at h
  have hstale := isBefore_later h.2 hle
  simp [ConditionalUpdate.returning, markRunning, h.1, hstale]

theorem claimBboxRefinement_of_pending (now : Int) (leaseSeconds : Int)
    {row : Extraction Json} (hstatus : row.status = .succeeded)
    (hleg : row.postProcessingBboxStatus = some .pending) :
    ((claimBboxRefinement now leaseSeconds).returning row).isSome = true := by
  simp [ConditionalUpdate.returning, claimBboxRefinement, hstatus, hleg]

theorem claimBboxRefinement_of_findStaleBboxRefining {now later : Int}
    {leaseSeconds : Int} {row : Extraction Json}
    (hstatus : row.status = .succeeded)
    (h : findStaleBboxRefining now leaseSeconds row = true)
    (hle : now ≤ later) :
    ((claimBboxRefinement later leaseSeconds).returning row).isSome = true := by
  simp only [findStaleBboxRefining, Bool.and_eq_true, decide_eq_true_eq] at h
  have hstale := isBefore_later h.2 hle
  simp [ConditionalUpdate.returning, claimBboxRefinement, hstatus, h.1, hstale]

/-! ## No orphaned row -/

/-- Some reaper query selects the row and the claim its event triggers succeeds. -/
def RevivedMain (settings : IDPSettings) (now : Int)
    (row : Extraction Json) : Prop :=
  (findStaleRunning now settings.jobRunLeaseS row = true ∨
      findStaleQueued now settings.queuedOrphanThresholdS row = true) ∧
    ∀ later, now ≤ later →
      ((markRunning later settings.jobRunLeaseS).returning row).isSome = true

def RevivedBbox (settings : IDPSettings) (now : Int)
    (row : Extraction Json) : Prop :=
  (findStaleBboxRefining now settings.bboxRefineLeaseS row = true ∨
      findPendingBboxRevive now settings.partialSucceededOrphanThresholdS
        settings.bboxRefineLeaseS row = true) ∧
    ∀ later, now ≤ later →
      ((claimBboxRefinement later settings.bboxRefineLeaseS).returning
        row).isSome = true

def NeverSelected (row : Extraction Json) : Prop :=
  ∀ (now : Int) (first second : Int),
    findStaleRunning now first row = false ∧
      findStaleQueued now first row = false ∧
      findStaleBboxRefining now first row = false ∧
      findPendingBboxRevive now first second row = false

def Settled (row : Extraction Json) : Prop :=
  row.status.isTerminal = true ∧
    ∀ leg ∈ row.postProcessingBboxStatus, leg.isTerminal = true

theorem neverSelected_of_settled {row : Extraction Json} (h : Settled row) :
    NeverSelected row := by
  obtain ⟨hterminal, hleg⟩ := h
  have hqueued : row.status ≠ .queued := by
    intro hstatus
    simp [hstatus, ExtractionStatus.isTerminal] at hterminal
  have hrunning : row.status ≠ .running := by
    intro hstatus
    simp [hstatus, ExtractionStatus.isTerminal] at hterminal
  have hopen : ∀ leg, leg.isTerminal = false →
      row.postProcessingBboxStatus ≠ some leg := by
    intro leg hfalse heq
    have := hleg leg heq
    simp [hfalse] at this
  have hpending := hopen .pending rfl
  have hrefining := hopen .running rfl
  intro now first second
  simp [findStaleRunning, findStaleQueued, findStaleBboxRefining,
    findPendingBboxRevive, hqueued, hrunning, hpending, hrefining]

/--
Once the clock has passed the largest threshold after the last write of a
reachable row, an open main leg or an open bbox leg is selected and claimable;
a settled row is never selected.
-/
theorem no_orphaned_row (settings : IDPSettings) (submittedAt : Int)
    (callbackUrl : Option String) (calls : List (TimedCall Json)) (now : Int)
    (hclock : (submittedAt :: calls.map Prod.fst).Pairwise (· ≤ ·))
    (hnow : lastWrite calls (submitted submittedAt callbackUrl) submittedAt +
      settings.largestThreshold < now) :
    ((reached submittedAt callbackUrl calls).status.isTerminal = false →
        RevivedMain settings now (reached submittedAt callbackUrl calls)) ∧
      (∀ leg, leg.isTerminal = false →
        (reached submittedAt callbackUrl calls).postProcessingBboxStatus =
          some leg →
        RevivedBbox settings now (reached submittedAt callbackUrl calls)) ∧
      (Settled (reached submittedAt callbackUrl calls) →
        NeverSelected (reached submittedAt callbackUrl calls)) := by
  have hwell := reached_wellFormed submittedAt callbackUrl calls
  have hwritten : (reached submittedAt callbackUrl calls).WrittenBy _ :=
    afterCalls_writtenBy calls
      (submitted_writtenBy submittedAt callbackUrl) hclock
  refine ⟨fun hterminal => ?_, fun leg hterminal hleg => ?_,
    neverSelected_of_settled⟩
  · cases hstatus : (reached submittedAt callbackUrl calls).status with
    | queued =>
        exact ⟨.inr (findStaleQueued_of_frozen hwritten hnow hstatus),
          fun later _ => markRunning_of_queued later _ hstatus⟩
    | running =>
        have hstale := findStaleRunning_of_frozen hwell hwritten hnow hstatus
        exact ⟨.inl hstale,
          fun later hle => markRunning_of_findStaleRunning hstale hle⟩
    | succeeded | failed | cancelled =>
        simp [hstatus, ExtractionStatus.isTerminal] at hterminal
  · have hstatus := hwell.bbox_only_succeeded (by simp [hleg])
    cases leg with
    | pending =>
        exact ⟨.inr (findPendingBboxRevive_of_frozen hwell hwritten hnow
            hstatus hleg),
          fun later _ => claimBboxRefinement_of_pending later _ hstatus hleg⟩
    | running =>
        have hstale :=
          findStaleBboxRefining_of_frozen hwell hwritten hnow hleg
        exact ⟨.inl hstale, fun later hle =>
          claimBboxRefinement_of_findStaleBboxRefining hstatus hstale hle⟩
    | succeeded | failed =>
        simp [PostProcessingStatus.isTerminal] at hterminal

theorem no_orphaned_row_running :
    RevivedMain {} 2000000000
      (reached 0 none [(1000000, .markRunning 1260)] : Extraction Unit) :=
  (no_orphaned_row {} 0 none [(1000000, .markRunning 1260)] 2000000000
    (by decide) (by decide)).1 rfl

end ExtractionRepository

end Flydocs
