import Flydocs.Extractions.ConcurrentSubmits

/-!
# Idempotent submits

The event of a row is a one-shot obligation: it falls due when the insert
commits, belongs to the submitter whose insert that was, and is discharged
when that submitter publishes.  Together with the unique index this makes
concurrent submits of one key a single extraction.
-/

namespace Flydocs

open Foundation

namespace Submits

variable {Submitter Json : Type*} [DecidableEq Submitter]
  {commands : Submitter → SubmitExtractionCommand}
  {state : Submits Submitter Json} {submitter : Submitter}

/-! ## The ledger of a row's event -/

def ledger (state : Submits Submitter Json) (id : String) :
    Ledger Submitter where
  due := state.table.any fun stored => stored.id = id
  holder submitter := decide ((state.position submitter).owes = some id)
  discharged :=
    (state.published.filter fun publication => publication.id = id).map
      Publication.submitter

theorem holder_update (position : Submitter → SubmitPosition Json)
    (next : SubmitPosition Json) (id : String) :
    (fun other => decide
      ((Function.update position submitter next other).owes = some id)) =
      Function.update (fun other => decide ((position other).owes = some id))
        submitter (decide (next.owes = some id)) := by
  funext other
  by_cases hsame : other = submitter
  · subst hsame
    simp
  · simp [Function.update_of_ne hsame]

theorem ledger_moveTo (next : SubmitPosition Json) (id : String) :
    (state.moveTo submitter next).ledger id =
      { state.ledger id with
        holder := Function.update (state.ledger id).holder submitter
          (decide (next.owes = some id)) } := by
  simp only [ledger, moveTo, Ledger.mk.injEq, true_and, and_true]
  exact holder_update state.position next id

theorem ledger_moveTo_same (state : Submits Submitter Json)
    (submitter : Submitter) {next : SubmitPosition Json} {id : String}
    (hsame : (next.owes = some id) ↔
      ((state.position submitter).owes = some id)) :
    (state.moveTo submitter next).ledger id = state.ledger id := by
  rw [ledger_moveTo, decide_eq_decide.mpr hsame]
  have hholder : decide ((state.position submitter).owes = some id) =
      (state.ledger id).holder submitter := rfl
  rw [hholder, Function.update_eq_self]

theorem ledger_valid_moveTo {next : SubmitPosition Json} {id : String}
    (h : (state.ledger id).Valid)
    (howes : next.owes = (state.position submitter).owes ∨ next.owes = none) :
    ((state.moveTo submitter next).ledger id).Valid := by
  by_cases hsame : (next.owes = some id) ↔
      ((state.position submitter).owes = some id)
  · rwa [ledger_moveTo_same state submitter hsame]
  · have hheld : (state.position submitter).owes = some id := by
      rcases howes with howes | howes <;> simp_all
    have hnext : next.owes ≠ some id := fun hnext =>
      hsame (by simp [hnext, hheld])
    have hallowed :
        (Ledger.Event.release submitter).Allowed (state.ledger id) := by
      simpa [Ledger.Event.Allowed, ledger] using hheld
    rw [ledger_moveTo]
    simpa [Ledger.Event.apply, hnext] using h.apply hallowed

theorem ledger_commit_other {stored : StoredExtraction Json}
    {acknowledged : Bool} {id : String}
    (hposition : state.position submitter = .committing stored)
    (hid : stored.id ≠ id) :
    (state.apply submitter (.commit stored acknowledged)).ledger id =
      state.ledger id := by
  have hkept : ∀ next : SubmitPosition Json, next.owes ≠ some id →
      (state.moveTo submitter next).ledger id = state.ledger id :=
    fun next hnext => ledger_moveTo_same state submitter
      (iff_of_false hnext (by simp [hposition, SubmitPosition.owes]))
  cases acknowledged with
  | true =>
      rw [← hkept (.refreshing stored.id) (by simpa using hid)]
      simp [ledger, Submits.apply, moveTo, hid]
      rfl
  | false =>
      rw [← hkept .raised (by simp)]
      simp [ledger, Submits.apply, moveTo, hid]
      rfl

theorem ledger_publish_other {snapshot : ExtractionSnapshot}
    {acknowledged : Bool} {id : String}
    (hposition : state.position submitter = .publishing snapshot)
    (hid : snapshot.id ≠ id) :
    (state.apply submitter (.publish snapshot acknowledged)).ledger id =
      state.ledger id := by
  have hkept : ∀ next : SubmitPosition Json, next.owes ≠ some id →
      (state.moveTo submitter next).ledger id = state.ledger id :=
    fun next hnext => ledger_moveTo_same state submitter
      (iff_of_false hnext (by simp [hposition, SubmitPosition.owes, hid]))
  cases acknowledged with
  | true =>
      rw [← hkept (.returned snapshot) (by simp)]
      simp [ledger, Submits.apply, moveTo, hid]
      rfl
  | false =>
      rw [← hkept .raised (by simp)]
      simp [ledger, Submits.apply, moveTo, hid]
      rfl

/-- A commit issues the event of its row, which a submitter that does not learn
of the commit gives up at once. -/
theorem ledger_valid_commit {stored : StoredExtraction Json}
    {acknowledged : Bool} {id : String} (h : (state.ledger id).Valid)
    (hposition : state.position submitter = .committing stored)
    (hfresh : ∀ other ∈ state.table, other.id ≠ stored.id) :
    ((state.apply submitter (.commit stored acknowledged)).ledger id).Valid := by
  by_cases hid : stored.id = id
  · subst hid
    have hissue : (Ledger.Event.issue submitter).Allowed
        (state.ledger stored.id) := by
      simpa [Ledger.Event.Allowed, ledger] using hfresh
    have hissued := h.apply hissue
    cases acknowledged with
    | true =>
        have hcommitted : (state.apply submitter (.commit stored true)).ledger
            stored.id = (Ledger.Event.issue submitter).apply
              (state.ledger stored.id) := by
          simp [Ledger.Event.apply, ledger, Submits.apply, moveTo,
            holder_update]
        rwa [hcommitted]
    | false =>
        have hrelease : (Ledger.Event.release submitter).Allowed
            ((Ledger.Event.issue submitter).apply (state.ledger stored.id)) := by
          simp [Ledger.Event.Allowed, Ledger.Event.apply]
        have hlost : (state.apply submitter (.commit stored false)).ledger
            stored.id = (Ledger.Event.release submitter).apply
              ((Ledger.Event.issue submitter).apply
                (state.ledger stored.id)) := by
          simp [Ledger.Event.apply, ledger, Submits.apply, moveTo,
            holder_update]
        rw [hlost]
        exact hissued.apply hrelease
  · rwa [ledger_commit_other hposition hid]

theorem ledger_valid_publish {snapshot : ExtractionSnapshot}
    {acknowledged : Bool} {id : String} (h : (state.ledger id).Valid)
    (hposition : state.position submitter = .publishing snapshot) :
    ((state.apply submitter
      (.publish snapshot acknowledged)).ledger id).Valid := by
  by_cases hid : snapshot.id = id
  · subst hid
    have hallowed : (Ledger.Event.discharge submitter).Allowed
        (state.ledger snapshot.id) := by
      simp [Ledger.Event.Allowed, ledger, hposition, SubmitPosition.owes]
    have hpublished : (state.apply submitter
        (.publish snapshot acknowledged)).ledger snapshot.id =
          (Ledger.Event.discharge submitter).apply
            (state.ledger snapshot.id) := by
      cases acknowledged <;>
        simp [Ledger.Event.apply, ledger, Submits.apply, moveTo,
          holder_update]
    rw [hpublished]
    exact h.apply hallowed
  · rwa [ledger_publish_other hposition hid]

omit [DecidableEq Submitter] in
theorem ledger_lifecycle (id other : String)
    (update : Extraction Json → Extraction Json) :
    (state.lifecycle other update).ledger id = state.ledger id := by
  have hdue : ((state.lifecycle other update).table.any fun stored =>
      stored.id = id) = state.table.any fun stored => stored.id = id := by
    simp only [lifecycle, List.any_map]
    congr 1
    funext stored
    simp only [Function.comp]
    split <;> rfl
  simp only [ledger, hdue]
  rfl

theorem ledger_valid_apply (hconsistent : Consistent commands state)
    {effect : SubmitEffect Json} {id : String} (h : (state.ledger id).Valid)
    (hreaction : Reaction (commands submitter) state
      (state.position submitter) effect) :
    ((state.apply submitter effect).ledger id).Valid := by
  cases effect with
  | move next => exact ledger_valid_moveTo h hreaction.2.2.2
  | flush stored =>
      have howes : (SubmitPosition.committing stored).owes = none := rfl
      exact ledger_valid_moveTo h (.inr howes)
  | commit stored acknowledged =>
      have hposition : state.position submitter = .committing stored :=
        hreaction
      have hopened := hconsistent.opened submitter stored hposition
      refine ledger_valid_commit h hposition fun other hother => ?_
      have hfresh := hconsistent.fresh _ hopened other hother
      exact (StoredExtraction.conflicts_eq_false_iff.mp hfresh).1.symm
  | rollback =>
      have howes : (SubmitPosition.raised : SubmitPosition Json).owes = none :=
        rfl
      exact ledger_valid_moveTo h (.inr howes)
  | publish snapshot acknowledged => exact ledger_valid_publish h hreaction

/-! ## Runs -/

structure Idempotent (commands : Submitter → SubmitExtractionCommand)
    (state : Submits Submitter Json) : Prop where
  consistent : Consistent commands state
  ledger : ∀ id, (state.ledger id).Valid

theorem Idempotent.step {handler : SubmitExtractionHandler}
    {label : SubmitLabel Submitter Json} {next : Submits Submitter Json}
    (h : Idempotent commands state)
    (hstep : step handler commands state label = some next) :
    Idempotent commands next := by
  cases label with
  | handle submitter move =>
      obtain ⟨effect, heffect, rfl⟩ := Option.map_eq_some_iff.mp hstep
      have hreaction := react_cases heffect
      exact ⟨h.consistent.apply hreaction, fun id =>
        ledger_valid_apply h.consistent (h.ledger id) hreaction⟩
  | lifecycle other update =>
      cases hstep
      refine ⟨h.consistent.lifecycle other update, fun id => ?_⟩
      rw [ledger_lifecycle]
      exact h.ledger id

structure Initial (state : Submits Submitter Json) : Prop where
  unique : state.table.Pairwise fun first second =>
    first.conflicts second = false
  pending : state.pending = []
  position : ∀ submitter, state.position submitter = .start
  published : state.published = []

theorem Initial.idempotent (h : Initial state) : Idempotent commands state where
  consistent :=
    { unique := h.unique
      fresh := by simp [h.pending]
      unique_pending := by simp [h.pending]
      opened := by simp [h.position]
      sound := by simp [h.position, Sound] }
  ledger := by
    intro id
    have hledger : state.ledger id =
        ⟨state.table.any fun stored => stored.id = id, fun _ => false, []⟩ := by
      simp [ledger, h.position, h.published, SubmitPosition.owes]
    rw [hledger]
    cases state.table.any fun stored => stored.id = id with
    | false => exact ⟨.unissued, rfl⟩
    | true => exact ⟨.void, rfl⟩

theorem run_idempotent {handler : SubmitExtractionHandler}
    {finish : Submits Submitter Json}
    {labels : List (SubmitLabel Submitter Json)} (hinitial : Initial state)
    (hrun : LabelledStep.run (step handler commands) state labels =
      some finish) : Idempotent commands finish :=
  LabelledStep.run_invariant (Idempotent commands)
    (fun _ _ _ h hstep => h.step hstep) hinitial.idempotent hrun

theorem filter_key_length_le {table : List (StoredExtraction Json)}
    (h : table.Pairwise fun first second => first.conflicts second = false)
    (key : String) :
    (table.filter fun stored => stored.idempotencyKey = some key).length ≤
      1 := by
  induction table with
  | nil => simp
  | cons stored table ih =>
      obtain ⟨hstored, htable⟩ := List.pairwise_cons.mp h
      rw [List.filter_cons]
      split
      · rename_i hkey
        have hnone : (table.filter fun other =>
            other.idempotencyKey = some key) = [] := by
          apply List.filter_eq_nil_iff.mpr
          intro other hother
          have hfree := StoredExtraction.conflicts_eq_false_iff.mp
            (hstored other hother)
          simpa using hfree.2 key (by simpa using hkey)
        simp [hnone]
      · exact ih htable

/--
Submits that share a key: one row at most, every success names it, and its
event is published at most once.
-/
theorem submit_idempotent (handler : SubmitExtractionHandler)
    {start finish : Submits Submitter Json}
    {labels : List (SubmitLabel Submitter Json)} (hinitial : Initial start)
    (hrun : LabelledStep.run (step handler commands) start labels =
      some finish) (key : String) :
    (finish.table.filter fun stored =>
      stored.idempotencyKey = some key).length ≤ 1 ∧
    (∀ submitter snapshot, (commands submitter).idempotencyKey = some key →
      finish.position submitter = .returned snapshot →
      ∃ stored ∈ finish.table, stored.idempotencyKey = some key ∧
        stored.id = snapshot.id) ∧
    ∀ stored ∈ finish.table, stored.idempotencyKey = some key →
      (finish.published.filter fun publication =>
        publication.id = stored.id).length ≤ 1 := by
  have hidempotent : Idempotent commands finish := run_idempotent hinitial hrun
  refine ⟨filter_key_length_le hidempotent.consistent.unique key, ?_, ?_⟩
  · intro submitter snapshot hkey hreturned
    have hsound := hidempotent.consistent.sound submitter
    rw [hreturned] at hsound
    obtain ⟨stored, hmem, hid, hstored⟩ := hsound
    exact ⟨stored, hmem, hstored.trans hkey, hid⟩
  · intro stored _ _
    simpa [ledger] using (hidempotent.ledger stored.id).discharged_length_le

/-! ## Two submits that race -/

def racingHandler : SubmitExtractionHandler where
  validator := ⟨fun _ => true, .peeling⟩
  scalars := .json
  sha256 _ := "digest"
  correlation := []

def racingCommand : SubmitExtractionCommand where
  request :=
    { files := [⟨"a.pdf", some "", none, none⟩]
      documentTypes :=
        [{ id := "invoice"
           fieldGroups := [{ name := "totals", fields := [{ name := "net" }] }] }] }
  idempotencyKey := some "order-7"

def racingStart : Submits Bool Unit :=
  ⟨[], [], fun _ => .start, []⟩

/-- Both lookups miss; the loser of the insert re-reads the winner's row. -/
def race : List (SubmitLabel Bool Unit) :=
  [.handle false .lookup, .handle true .lookup, .handle false .build,
    .handle true .build, .handle false (.insert "first" 0),
    .handle false (.commit true), .handle true (.insert "second" 1),
    .handle true .reread, .handle false .refresh,
    .handle false (.publish true)]

theorem submit_idempotent_race :
    ∃ finish, LabelledStep.run (step racingHandler fun _ => racingCommand)
        racingStart race = some finish ∧
      (finish.table.filter fun stored =>
        stored.idempotencyKey = some "order-7").length ≤ 1 ∧
      (∀ submitter snapshot, racingCommand.idempotencyKey = some "order-7" →
        finish.position submitter = .returned snapshot →
        ∃ stored ∈ finish.table, stored.idempotencyKey = some "order-7" ∧
          stored.id = snapshot.id) ∧
      ∀ stored ∈ finish.table, stored.idempotencyKey = some "order-7" →
        (finish.published.filter fun publication =>
          publication.id = stored.id).length ≤ 1 := by
  have hruns : (LabelledStep.run (step racingHandler fun _ => racingCommand)
      racingStart race).isSome = true := by decide
  obtain ⟨finish, hrun⟩ := Option.isSome_iff_exists.mp hruns
  have hinitial : Initial racingStart := ⟨.nil, rfl, fun _ => rfl, rfl⟩
  exact ⟨finish, hrun, submit_idempotent racingHandler hinitial hrun "order-7"⟩

end Submits

end Flydocs
