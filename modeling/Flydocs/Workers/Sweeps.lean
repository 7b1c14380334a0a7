import Flydocs.Foundation.StopAtFirst
import Flydocs.Interfaces.Event
import Flydocs.Workers.AsyncPath

/-!
# One bad row in a sweep

A sweep of a reaper asks its two queries one after the other and republishes
every row a query selects; the poll asks one query and processes every row.
None of these steps has an exception handler of its own: the handler stands
around the whole sweep, so the first step that raises is the sweep's last.
-/

namespace Flydocs

open Foundation Interfaces

variable {Failure Json : Type}

/-! ## Loops and their queries -/

inductive Scan where
  | reaper (query : Sweep)
  | poll
  deriving DecidableEq, Repr

inductive RecoveryLoop where
  | extractionReaper
  | bboxReaper
  | pollQueuedBacklog
  deriving DecidableEq, Repr

def RecoveryLoop.scans : RecoveryLoop → List Scan
  | extractionReaper => [.reaper .staleRunning, .reaper .orphanQueued]
  | bboxReaper => [.reaper .staleRunningBbox, .reaper .orphanPendingBbox]
  | pollQueuedBacklog => [.poll]

theorem RecoveryLoop.nodup_scans (loop : RecoveryLoop) :
    loop.scans.Nodup := by
  cases loop <;> decide

/-- The rows of a `select(Extraction.id)`: ids of one table, each once. -/
structure Selection where
  ids : List String
  nodup : ids.Nodup

/--
What the repository, the bus and the worker answer during one sweep.  `get`
includes the conversion of the row's status columns, the part of
`row_to_extraction` that raises on a value outside the enumeration.
-/
structure Pass (Failure Json : Type) where
  now : Int
  find : Scan → Except Failure Selection
  get : Sweep → String → Except Failure (Option (Extraction Json))
  publish : Sweep → String → EventEnvelope Json → Except Failure Unit
  process : String → Except Failure Unit
  stopped : String → Bool

namespace Pass

def eventType (query : Sweep) : EventType :=
  match query.leg with
  | .main => .extractionSubmitted
  | .bbox => .extractionPostProcessingRequested

def republish (pass : Pass Failure Json) (query : Sweep) (id : String) :
    Except Failure Unit := do
  match ← pass.get query id with
  | none => pure ()
  | some row =>
      pass.publish query id
        { eventType := eventType query
          occurredAt := pass.now
          extraction := Projector.rowToExtraction row
          result := none }

def attempt (pass : Pass Failure Json) :
    Scan → String → Except Failure Unit
  | .reaper query, id => pass.republish query id
  | .poll, id => pass.process id

/-- The selected rows a pass turns to: a stop ends the poll before the next. -/
def rows (pass : Pass Failure Json) (scan : Scan)
    (selection : Selection) : List String :=
  match scan with
  | .reaper _ => selection.ids
  | .poll => selection.ids.takeWhile fun id => !pass.stopped id

/-- The rows one pass attempts, and the exception that ended it, if any. -/
def sweep (pass : Pass Failure Json) :
    List Scan → List (Scan × String) × Option Failure
  | [] => ([], none)
  | scan :: scans =>
      match pass.find scan with
      | .error failure => ([], some failure)
      | .ok selection =>
          match forEach (pass.attempt scan) (pass.rows scan selection) with
          | (ids, some failure) => (ids.map (scan, ·), some failure)
          | (ids, none) =>
              let (later, failure) := pass.sweep scans
              (ids.map (scan, ·) ++ later, failure)

def Fails (pass : Pass Failure Json) (scan : Scan) (id : String) : Prop :=
  raisesIn (pass.attempt scan) id = true

def Selects (pass : Pass Failure Json) (scan : Scan) (id : String) : Prop :=
  ∃ selection, pass.find scan = .ok selection ∧ id ∈ pass.rows scan selection

def AttemptsAll (pass : Pass Failure Json) (loop : RecoveryLoop) : Prop :=
  ∀ scan ∈ loop.scans, ∀ id, pass.Selects scan id → ¬ pass.Fails scan id →
    (scan, id) ∈ (pass.sweep loop.scans).1

/-! ## A pass as one sequence of steps -/

def stepsOf (pass : Pass Failure Json) (scan : Scan) :
    List (Scan × Option String) :=
  match pass.find scan with
  | .error _ => [(scan, none)]
  | .ok selection => (pass.rows scan selection).map fun id => (scan, some id)

def steps (pass : Pass Failure Json) (scans : List Scan) :
    List (Scan × Option String) :=
  scans.flatMap pass.stepsOf

def raises (pass : Pass Failure Json) : Scan × Option String → Bool
  | (_, none) => true
  | (scan, some id) => raisesIn (pass.attempt scan) id

theorem nodup_rows (pass : Pass Failure Json) (scan : Scan)
    (selection : Selection) : (pass.rows scan selection).Nodup := by
  cases scan with
  | reaper => exact selection.nodup
  | poll => exact selection.nodup.sublist (List.takeWhile_sublist _)

theorem nodup_stepsOf (pass : Pass Failure Json) (scan : Scan) :
    (pass.stepsOf scan).Nodup := by
  unfold stepsOf
  split
  · exact List.nodup_singleton _
  · refine (pass.nodup_rows scan _).map ?_
    intro first second h
    simpa using h

theorem fst_of_mem_stepsOf {pass : Pass Failure Json} {scan : Scan}
    {step : Scan × Option String} (h : step ∈ pass.stepsOf scan) :
    step.1 = scan := by
  unfold stepsOf at h
  split at h
  · rw [List.mem_singleton.mp h]
  · obtain ⟨id, -, rfl⟩ := List.mem_map.mp h
    rfl

theorem nodup_steps (pass : Pass Failure Json) {scans : List Scan}
    (hnodup : scans.Nodup) : (pass.steps scans).Nodup := by
  refine List.nodup_flatMap.mpr ⟨fun scan _ => pass.nodup_stepsOf scan, ?_⟩
  refine hnodup.imp ?_
  intro first second hne step hfirst hsecond
  exact hne ((fst_of_mem_stepsOf hfirst).symm.trans
    (fst_of_mem_stepsOf hsecond))

theorem mem_steps_some_iff {pass : Pass Failure Json} {scans : List Scan}
    {scan : Scan} {id : String} :
    (scan, some id) ∈ pass.steps scans ↔
      scan ∈ scans ∧ pass.Selects scan id := by
  have hof : ∀ other, (scan, some id) ∈ pass.stepsOf other ↔
      other = scan ∧ pass.Selects scan id := by
    intro other
    unfold stepsOf Selects
    split
    · rename_i failure hfind
      simp only [List.mem_singleton, Prod.mk.injEq, reduceCtorEq, and_false,
        false_iff]
      rintro ⟨rfl, selection, hok, -⟩
      simp [hfind] at hok
    · rename_i selection hfind
      simp only [List.mem_map, Prod.mk.injEq, Option.some.injEq]
      constructor
      · rintro ⟨row, hrow, rfl, rfl⟩
        exact ⟨rfl, selection, hfind, hrow⟩
      · rintro ⟨rfl, other, hother, hrow⟩
        rw [hfind] at hother
        cases hother
        exact ⟨id, hrow, rfl, rfl⟩
  unfold steps
  simp only [List.mem_flatMap, hof]
  constructor
  · rintro ⟨other, hmem, rfl, hselects⟩
    exact ⟨hmem, hselects⟩
  · rintro ⟨hmem, hselects⟩
    exact ⟨scan, hmem, rfl, hselects⟩

theorem steps_cons (pass : Pass Failure Json) (scan : Scan)
    (scans : List Scan) :
    pass.steps (scan :: scans) = pass.stepsOf scan ++ pass.steps scans :=
  List.flatMap_cons

/-- The nested loops of a sweep reach what one loop over its steps reaches. -/
theorem mem_sweep_iff {pass : Pass Failure Json} {scan : Scan}
    {id : String} (scans : List Scan) :
    (scan, id) ∈ (pass.sweep scans).1 ↔
      (scan, some id) ∈ reached pass.raises (pass.steps scans) := by
  induction scans with
  | nil => simp [sweep, steps, reached]
  | cons first scans ih =>
      rw [steps_cons, sweep, stepsOf]
      cases hfind : pass.find first with
      | error failure => simp [reached, raises]
      | ok selection =>
          have hfst := fst_forEach (pass.attempt first)
            (pass.rows first selection)
          have hsnd := snd_forEach_eq_none_iff (pass.attempt first)
            (pass.rows first selection)
          have hraises : ∀ id, pass.raises (first, some id) =
              raisesIn (pass.attempt first) id := fun _ => rfl
          simp only
          rcases hloop : forEach (pass.attempt first)
              (pass.rows first selection) with ⟨ids, _ | failure⟩
          · rw [hloop] at hfst hsnd
            have hfine := hsnd.mp rfl
            rw [reached_eq_self hfine] at hfst
            rw [reached_append_of_forall (by simpa [hraises] using hfine),
              List.mem_append, List.mem_append, ← ih, ← hfst]
            simp
          · rw [hloop] at hfst hsnd
            have hsome : ∃ id ∈ pass.rows first selection,
                raisesIn (pass.attempt first) id = true := by
              simpa using hsnd
            rw [reached_append_of_exists (by simpa [hraises] using hsome),
              reached_map]
            simp only [hraises, ← hfst]
            simp

theorem nodup_fine_steps {pass : Pass Failure Json}
    (loop : RecoveryLoop) :
    ((pass.steps loop.scans).filter fun step => !pass.raises step).Nodup :=
  (pass.nodup_steps loop.nodup_scans).filter _

theorem attemptsAll_iff {pass : Pass Failure Json} {loop : RecoveryLoop} :
    pass.AttemptsAll loop ↔
      Unblocked pass.raises (pass.steps loop.scans) := by
  rw [← all_reached_iff (nodup_fine_steps loop)]
  constructor
  · rintro h ⟨scan, _ | id⟩ hmem hfine
    · simp [raises] at hfine
    · obtain ⟨hscan, hselects⟩ := mem_steps_some_iff.mp hmem
      refine (mem_sweep_iff _).mp (h scan hscan id hselects ?_)
      simpa [Fails, raises] using hfine
  · intro h scan hscan id hselects hfine
    refine (mem_sweep_iff _).mpr (h _ ?_ (by simpa [Fails, raises] using hfine))
    exact mem_steps_some_iff.mpr ⟨hscan, hselects⟩

end Pass

/-! ## Repeated sweeps -/

namespace RecoveryLoop

/--
The rows each pass of `run_forever` attempts.  A failed pass is logged and the
next one starts from its first query again.
-/
def runForever (loop : RecoveryLoop) (passes : List (Pass Failure Json)) :
    List (List (Scan × String)) :=
  passes.map fun pass => (pass.sweep loop.scans).1

/-- A row some pass selects and could recover is attempted in some pass. -/
def Recovers (loop : RecoveryLoop) (passes : List (Pass Failure Json)) :
    Prop :=
  ∀ scan ∈ loop.scans, ∀ id,
    (∃ pass ∈ passes, pass.Selects scan id ∧ ¬ pass.Fails scan id) →
      ∃ attempted ∈ loop.runForever passes, (scan, id) ∈ attempted

theorem recovers_of_attemptsAll {loop : RecoveryLoop}
    {passes : List (Pass Failure Json)}
    (h : ∀ pass ∈ passes, pass.AttemptsAll loop) : loop.Recovers passes := by
  rintro scan hscan id ⟨pass, hpass, hselects, hfine⟩
  exact ⟨_, List.mem_map_of_mem hpass, h pass hpass scan hscan id hselects hfine⟩

/--
No bad row starves another exactly when, in every pass, nothing that raises
stands before a row that would not.
-/
theorem starves_no_row_iff (loop : RecoveryLoop)
    (passes : List (Pass Failure Json)) :
    ((∀ pass ∈ passes, pass.AttemptsAll loop) ∧ loop.Recovers passes) ↔
      ∀ pass ∈ passes,
        Unblocked pass.raises (pass.steps loop.scans) := by
  simp only [← Pass.attemptsAll_iff]
  exact ⟨And.left, fun h => ⟨h, recovers_of_attemptsAll h⟩⟩

/-- Two stale rows; in every pass the bus refuses the event of the first. -/
def refusedFirst : Pass String Unit where
  now := 86400000000
  find
    | .reaper .staleRunning => .ok ⟨["a", "b"], by decide⟩
    | _ => .ok ⟨[], .nil⟩
  get _ _ := .ok (some { Extraction.submitted 0 none with
    status := .running
    startedAt := some 0
    attempts := 1 })
  publish _ id _ :=
    if id = "a" then .error "the broker is not available" else .ok ()
  process _ := .ok ()
  stopped _ := false

theorem not_starves_no_row :
    ¬ (∀ (loop : RecoveryLoop) (passes : List (Pass String Unit)),
      (∀ pass ∈ passes, pass.AttemptsAll loop) ∧ loop.Recovers passes) ∧
    ∀ count, ∀ attempted ∈
      extractionReaper.runForever (List.replicate count refusedFirst),
      (.reaper .staleRunning, "b") ∉ attempted := by
  have hsweep : (refusedFirst.sweep extractionReaper.scans).1 =
      [(.reaper .staleRunning, "a")] := by decide
  constructor
  · intro h
    have hall := (h extractionReaper [refusedFirst]).1 refusedFirst
      (List.mem_singleton_self _) (.reaper .staleRunning) (by decide) "b"
      ⟨_, rfl, by decide⟩ (by simp only [Pass.Fails]; decide)
    rw [hsweep] at hall
    exact absurd hall (by decide)
  · intro count attempted hmem
    obtain ⟨pass, hpass, rfl⟩ := List.mem_map.mp hmem
    rw [List.eq_of_mem_replicate hpass, hsweep]
    decide

end RecoveryLoop

end Flydocs
