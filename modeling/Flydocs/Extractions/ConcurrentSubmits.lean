import Mathlib.Data.List.Pairwise
import Flydocs.Extractions.SubmitExtraction
import Flydocs.Foundation.LabelledStep
import Flydocs.Foundation.OneShot

/-!
# Concurrent submits

Any number of submit handlers share the table and the publisher.  Every
database call and the publish are steps of their own; an insert is open from
its flush to its commit, and the unique index makes a second insert of the
same key wait for it.  The environment runs the lifecycle of stored rows.
-/

namespace Flydocs

open Foundation

variable {Submitter Json : Type*}

/-! ## Table and publisher -/

structure StoredExtraction (Json : Type*) where
  id : String
  entity : ExtractionEntity
  row : Extraction Json
  deriving Repr

namespace StoredExtraction

def idempotencyKey (stored : StoredExtraction Json) : Option String :=
  stored.entity.idempotencyKey

/-- The primary key and the partial unique index refuse one of the two rows. -/
def conflicts (first second : StoredExtraction Json) : Bool :=
  decide (first.id = second.id) ||
    (first.idempotencyKey.isSome &&
      decide (first.idempotencyKey = second.idempotencyKey))

theorem conflicts_eq_false_iff {first second : StoredExtraction Json} :
    first.conflicts second = false ↔
      first.id ≠ second.id ∧
        ∀ key, first.idempotencyKey = some key →
          second.idempotencyKey ≠ some key := by
  cases hkey : first.idempotencyKey with
  | none => simp [conflicts, hkey]
  | some key =>
      have hcomm : some key = second.idempotencyKey ↔
          second.idempotencyKey = some key := eq_comm
      simp [conflicts, hkey, hcomm]

theorem conflicts_symm {first second : StoredExtraction Json}
    (h : first.conflicts second = false) : second.conflicts first = false := by
  rw [conflicts_eq_false_iff] at h ⊢
  exact ⟨h.1.symm, fun key hsecond hfirst => h.2 key hfirst hsecond⟩

end StoredExtraction

structure ExtractionSnapshot where
  id : String
  extraction : Interfaces.Extraction
  deriving DecidableEq, Repr

def StoredExtraction.snapshot (stored : StoredExtraction Json) :
    ExtractionSnapshot :=
  ⟨stored.id, Projector.rowToExtraction stored.row⟩

structure Publication (Submitter : Type*) where
  submitter : Submitter
  id : String
  envelope : Interfaces.EventEnvelope Empty

def ExtractionSnapshot.submittedEvent (snapshot : ExtractionSnapshot) :
    Interfaces.EventEnvelope Empty where
  eventType := .extractionSubmitted
  occurredAt := snapshot.extraction.submittedAt
  extraction := snapshot.extraction
  result := none

/-! ## Submitters -/

inductive SubmitPosition (Json : Type*) where
  | start
  | building
  | inserting (entity : ExtractionEntity)
  | committing (stored : StoredExtraction Json)
  | refreshing (id : String)
  | recovering
  | publishing (snapshot : ExtractionSnapshot)
  | returned (snapshot : ExtractionSnapshot)
  | raised

def SubmitPosition.owes : SubmitPosition Json → Option String
  | refreshing id => some id
  | publishing snapshot => some snapshot.id
  | start | building | inserting _ | committing _ | recovering | returned _
  | raised => none

namespace SubmitPosition

@[simp] theorem owes_refreshing (id : String) :
    (refreshing id : SubmitPosition Json).owes = some id := rfl

@[simp] theorem owes_publishing (snapshot : ExtractionSnapshot) :
    (publishing snapshot : SubmitPosition Json).owes = some snapshot.id := rfl

@[simp] theorem owes_committing (stored : StoredExtraction Json) :
    (committing stored).owes = none := rfl

@[simp] theorem owes_returned (snapshot : ExtractionSnapshot) :
    (returned snapshot : SubmitPosition Json).owes = none := rfl

@[simp] theorem owes_raised :
    (raised : SubmitPosition Json).owes = none := rfl

end SubmitPosition

/-- `pending` are the flushed inserts whose transaction is still open. -/
structure Submits (Submitter Json : Type*) where
  table : List (StoredExtraction Json)
  pending : List (Submitter × StoredExtraction Json)
  position : Submitter → SubmitPosition Json
  published : List (Publication Submitter)

/--
What a submitter does next.  `insert` names the id and the clock reading the
new row gets; a commit or a publish may take effect and still raise.
-/
inductive SubmitMove where
  | lookup
  | build
  | insert (id : String) (now : Int)
  | commit (acknowledged : Bool)
  | reread
  | refresh
  | publish (acknowledged : Bool)
  | raise
  deriving DecidableEq, Repr

inductive SubmitLabel (Submitter Json : Type*) where
  | handle (submitter : Submitter) (move : SubmitMove)
  | lifecycle (id : String) (update : Extraction Json → Extraction Json)

inductive SubmitEffect (Json : Type*) where
  | move (position : SubmitPosition Json)
  | flush (stored : StoredExtraction Json)
  | commit (stored : StoredExtraction Json) (acknowledged : Bool)
  | rollback
  | publish (snapshot : ExtractionSnapshot) (acknowledged : Bool)

namespace Submits

def getByIdempotencyKey (table : List (StoredExtraction Json))
    (key : String) : Option (StoredExtraction Json) :=
  table.find? fun stored => stored.idempotencyKey = some key

def get (table : List (StoredExtraction Json)) (id : String) :
    Option (StoredExtraction Json) :=
  table.find? fun stored => stored.id = id

/-- The steps of `do_handle`; a disabled one is `none`. -/
def react (handler : SubmitExtractionHandler)
    (command : SubmitExtractionCommand) (state : Submits Submitter Json) :
    SubmitPosition Json → SubmitMove → Option (SubmitEffect Json)
  | .start, .lookup =>
      if Projector.truthy command.idempotencyKey then
        match getByIdempotencyKey state.table
            (command.idempotencyKey.getD "") with
        | some existing => some (.move (.returned existing.snapshot))
        | none => some (.move .building)
      else some (.move .building)
  | .building, .build =>
      match handler.buildEntity command with
      | .ok entity => some (.move (.inserting entity))
      | .error _ => some (.move .raised)
  | .inserting entity, .insert id now =>
      let stored : StoredExtraction Json :=
        { id, entity, row := Extraction.submitted now entity.callbackUrl }
      if state.table.any stored.conflicts then
        -- `IntegrityError`, handled only where a key was given
        if Projector.truthy command.idempotencyKey then
          some (.move .recovering)
        else some (.move .raised)
      else if state.pending.any fun entry => stored.conflicts entry.2 then
        none
      else some (.flush stored)
  | .committing stored, .commit acknowledged =>
      some (.commit stored acknowledged)
  | .recovering, .reread =>
      match getByIdempotencyKey state.table
          (command.idempotencyKey.getD "") with
      | some winner => some (.move (.returned winner.snapshot))
      | none => some (.move .raised)
  | .refreshing id, .refresh =>
      match get state.table id with
      | some stored => some (.move (.publishing stored.snapshot))
      | none => some (.move .raised)
  | .publishing snapshot, .publish acknowledged =>
      some (.publish snapshot acknowledged)
  | .committing _, .raise => some .rollback
  | .returned _, .raise | .raised, .raise => none
  | _, .raise => some (.move .raised)
  | _, _ => none

section

variable [DecidableEq Submitter]

def moveTo (state : Submits Submitter Json) (submitter : Submitter)
    (position : SubmitPosition Json) : Submits Submitter Json :=
  { state with position := Function.update state.position submitter position }

def close (state : Submits Submitter Json) (submitter : Submitter) :
    List (Submitter × StoredExtraction Json) :=
  state.pending.filter fun entry => entry.1 ≠ submitter

def apply (state : Submits Submitter Json) (submitter : Submitter) :
    SubmitEffect Json → Submits Submitter Json
  | .move position => state.moveTo submitter position
  | .flush stored =>
      { state.moveTo submitter (.committing stored) with
        pending := (submitter, stored) :: state.pending }
  | .commit stored acknowledged =>
      { state.moveTo submitter
          (if acknowledged then .refreshing stored.id else .raised) with
        table := state.table ++ [stored]
        pending := state.close submitter }
  | .rollback =>
      { state.moveTo submitter .raised with pending := state.close submitter }
  | .publish snapshot acknowledged =>
      { state.moveTo submitter
          (if acknowledged then .returned snapshot else .raised) with
        published := ⟨submitter, snapshot.id, snapshot.submittedEvent⟩ ::
          state.published }

def lifecycle (state : Submits Submitter Json) (id : String)
    (update : Extraction Json → Extraction Json) : Submits Submitter Json :=
  { state with
    table := state.table.map fun stored =>
      if stored.id = id then { stored with row := update stored.row }
      else stored }

def step (handler : SubmitExtractionHandler)
    (commands : Submitter → SubmitExtractionCommand) :
    LabelledStep (Submits Submitter Json) (SubmitLabel Submitter Json)
  | state, .handle submitter move =>
      (react handler (commands submitter) state (state.position submitter)
        move).map (state.apply submitter)
  | state, .lifecycle id update => some (state.lifecycle id update)

end

/-! ## What a step can do -/

def StoredAs (table : List (StoredExtraction Json))
    (command : SubmitExtractionCommand) (id : String) : Prop :=
  ∃ stored ∈ table, stored.id = id ∧
    stored.idempotencyKey = command.idempotencyKey

def Sound (table : List (StoredExtraction Json))
    (command : SubmitExtractionCommand) : SubmitPosition Json → Prop
  | .inserting entity => entity.idempotencyKey = command.idempotencyKey
  | .committing stored => stored.idempotencyKey = command.idempotencyKey
  | .refreshing id => StoredAs table command id
  | .publishing snapshot | .returned snapshot =>
      StoredAs table command snapshot.id
  | .recovering => Projector.truthy command.idempotencyKey = true
  | .start | .building | .raised => True

def Opened : SubmitPosition Json → Prop
  | .committing _ => True
  | _ => False

def Reaction (command : SubmitExtractionCommand)
    (state : Submits Submitter Json) (position : SubmitPosition Json) :
    SubmitEffect Json → Prop
  | .move next =>
      (Sound state.table command position → Sound state.table command next) ∧
        ¬ Opened position ∧ ¬ Opened next ∧
        (next.owes = position.owes ∨ next.owes = none)
  | .flush stored =>
      position = .inserting stored.entity ∧
        (∀ other ∈ state.table, stored.conflicts other = false) ∧
        ∀ entry ∈ state.pending, stored.conflicts entry.2 = false
  | .commit stored _ => position = .committing stored
  | .rollback => Opened position
  | .publish snapshot _ => position = .publishing snapshot

theorem storedAs_of_getByIdempotencyKey {table : List (StoredExtraction Json)}
    {command : SubmitExtractionCommand} {stored : StoredExtraction Json}
    (hkey : Projector.truthy command.idempotencyKey = true)
    (h : getByIdempotencyKey table (command.idempotencyKey.getD "") =
      some stored) : StoredAs table command stored.id := by
  have hstored := List.find?_some h
  refine ⟨stored, List.mem_of_find?_eq_some h, rfl, ?_⟩
  cases hgiven : command.idempotencyKey with
  | none => simp [hgiven, Projector.truthy] at hkey
  | some key => simpa [hgiven] using hstored

theorem react_cases {handler : SubmitExtractionHandler}
    {command : SubmitExtractionCommand} {state : Submits Submitter Json}
    {position : SubmitPosition Json} {move : SubmitMove}
    {effect : SubmitEffect Json}
    (h : react handler command state position move = some effect) :
    Reaction command state position effect := by
  unfold react at h
  split at h
  · -- lookup
    split at h
    · rename_i hkey
      split at h
      · cases h
        rename_i hfound
        refine ⟨fun _ => ?_, by simp [Opened], by simp [Opened], .inr rfl⟩
        exact storedAs_of_getByIdempotencyKey hkey hfound
      · cases h
        simp [Reaction, Sound, Opened, SubmitPosition.owes]
    · cases h
      simp [Reaction, Sound, Opened, SubmitPosition.owes]
  · -- build
    split at h
    · cases h
      rename_i hbuilt
      have hkey := (handler.buildEntity_eq_ok hbuilt).2.1
      exact ⟨fun _ => hkey, by simp [Opened], by simp [Opened], .inr rfl⟩
    · cases h
      simp [Reaction, Sound, Opened, SubmitPosition.owes]
  · -- insert
    simp only at h
    split at h
    · split at h <;> cases h <;>
        simp_all [Reaction, Sound, Opened, SubmitPosition.owes]
    · rename_i htable
      split at h
      · cases h
      · cases h
        rename_i hpending
        exact ⟨rfl, by simpa using htable, by simpa using hpending⟩
  · cases h
    rfl
  · -- reread
    split at h
    · cases h
      rename_i hfound
      refine ⟨fun hkey => ?_, by simp [Opened], by simp [Opened], .inr rfl⟩
      exact storedAs_of_getByIdempotencyKey hkey hfound
    · cases h
      simp [Reaction, Sound, Opened, SubmitPosition.owes]
  · -- refresh
    split at h
    · cases h
      rename_i hfound
      have hid := List.find?_some hfound
      simp only [decide_eq_true_eq] at hid
      subst hid
      exact ⟨fun hsound => hsound, by simp [Opened], by simp [Opened],
        .inl rfl⟩
    · cases h
      simp [Reaction, Sound, Opened, SubmitPosition.owes]
  · cases h
    rfl
  · cases h
    simp [Reaction, Opened]
  · cases h
  · cases h
  · cases h
    cases position <;>
      simp_all [Reaction, Sound, Opened, SubmitPosition.owes]
  · cases h

/-! ## The unique index -/

theorem StoredAs.mono {table later : List (StoredExtraction Json)}
    {command : SubmitExtractionCommand} {id : String}
    (h : StoredAs table command id)
    (hlater : ∀ stored ∈ table, ∃ kept ∈ later, kept.id = stored.id ∧
      kept.idempotencyKey = stored.idempotencyKey) :
    StoredAs later command id := by
  obtain ⟨stored, hmem, hid, hkey⟩ := h
  obtain ⟨kept, hkept, hsame, hsameKey⟩ := hlater stored hmem
  exact ⟨kept, hkept, hsame.trans hid, hsameKey.trans hkey⟩

theorem Sound.mono {table later : List (StoredExtraction Json)}
    {command : SubmitExtractionCommand} {position : SubmitPosition Json}
    (h : Sound table command position)
    (hlater : ∀ stored ∈ table, ∃ kept ∈ later, kept.id = stored.id ∧
      kept.idempotencyKey = stored.idempotencyKey) :
    Sound later command position := by
  cases position with
  | refreshing _ | publishing _ | returned _ => exact StoredAs.mono h hlater
  | _ => exact h

structure Consistent [DecidableEq Submitter]
    (commands : Submitter → SubmitExtractionCommand)
    (state : Submits Submitter Json) : Prop where
  unique : state.table.Pairwise fun first second =>
    first.conflicts second = false
  fresh : ∀ entry ∈ state.pending, ∀ stored ∈ state.table,
    entry.2.conflicts stored = false
  unique_pending : ∀ entry ∈ state.pending, ∀ other ∈ state.pending,
    entry.1 ≠ other.1 → entry.2.conflicts other.2 = false
  opened : ∀ submitter stored, state.position submitter = .committing stored →
    (submitter, stored) ∈ state.pending
  sound : ∀ submitter,
    Sound state.table (commands submitter) (state.position submitter)

section

variable [DecidableEq Submitter]
  {commands : Submitter → SubmitExtractionCommand}
  {state : Submits Submitter Json} {submitter : Submitter}

theorem Consistent.moveTo (h : Consistent commands state)
    (submitter : Submitter) (position : SubmitPosition Json)
    (hclosed : ¬ Opened position)
    (hsound : Sound state.table (commands submitter) position) :
    Consistent commands (state.moveTo submitter position) where
  unique := h.unique
  fresh := h.fresh
  unique_pending := h.unique_pending
  opened := by
    intro other stored hother
    by_cases hsame : other = submitter
    · subst hsame
      simp only [Submits.moveTo, Function.update_self] at hother
      subst hother
      exact absurd trivial hclosed
    · simp only [Submits.moveTo, Function.update_of_ne hsame] at hother
      exact h.opened other stored hother
  sound := by
    intro other
    by_cases hsame : other = submitter
    · subst hsame
      simpa [Submits.moveTo] using hsound
    · simpa [Submits.moveTo, Function.update_of_ne hsame] using h.sound other

theorem Consistent.flush (h : Consistent commands state)
    {stored : StoredExtraction Json}
    (hposition : state.position submitter = .inserting stored.entity)
    (htable : ∀ other ∈ state.table, stored.conflicts other = false)
    (hpending : ∀ entry ∈ state.pending, stored.conflicts entry.2 = false) :
    Consistent commands (state.apply submitter (.flush stored)) where
  unique := h.unique
  fresh := by
    intro entry hentry other hother
    rcases List.mem_cons.mp hentry with rfl | hentry
    · exact htable other hother
    · exact h.fresh entry hentry other hother
  unique_pending := by
    intro entry hentry other hother hne
    rcases List.mem_cons.mp hentry with rfl | hentry
    · rcases List.mem_cons.mp hother with rfl | hother
      · exact absurd rfl hne
      · exact hpending other hother
    · rcases List.mem_cons.mp hother with rfl | hother
      · exact StoredExtraction.conflicts_symm (hpending entry hentry)
      · exact h.unique_pending entry hentry other hother hne
  opened := by
    intro other given hother
    by_cases hsame : other = submitter
    · subst hsame
      simp only [Submits.apply, Submits.moveTo, Function.update_self,
        SubmitPosition.committing.injEq] at hother
      subst hother
      exact List.mem_cons_self
    · simp only [Submits.apply, Submits.moveTo,
        Function.update_of_ne hsame] at hother
      exact List.mem_cons_of_mem _ (h.opened other given hother)
  sound := by
    intro other
    by_cases hsame : other = submitter
    · subst hsame
      have hsound := h.sound other
      rw [hposition] at hsound
      simpa [Submits.apply, Submits.moveTo, Sound,
        StoredExtraction.idempotencyKey] using hsound
    · simpa [Submits.apply, Submits.moveTo, Function.update_of_ne hsame]
        using h.sound other

theorem mem_close {entry : Submitter × StoredExtraction Json} :
    entry ∈ state.close submitter ↔
      entry ∈ state.pending ∧ entry.1 ≠ submitter := by
  simp [close]

theorem Consistent.close (h : Consistent commands state)
    (submitter : Submitter) (position : SubmitPosition Json)
    (hclosed : ¬ Opened position)
    (hsound : Sound state.table (commands submitter) position) :
    Consistent commands
      { state.moveTo submitter position with
        pending := state.close submitter } where
  unique := h.unique
  fresh := fun entry hentry => h.fresh entry (mem_close.mp hentry).1
  unique_pending := fun entry hentry other hother =>
    h.unique_pending entry (mem_close.mp hentry).1 other (mem_close.mp hother).1
  opened := by
    intro other stored hother
    have hmem :=
      (h.moveTo submitter position hclosed hsound).opened other stored hother
    refine mem_close.mpr ⟨hmem, ?_⟩
    rintro rfl
    simp only [Submits.moveTo, Function.update_self] at hother
    subst hother
    exact hclosed trivial
  sound := (h.moveTo submitter position hclosed hsound).sound

theorem Consistent.append (h : Consistent commands state)
    {stored : StoredExtraction Json}
    (htable : ∀ other ∈ state.table, stored.conflicts other = false)
    (hpending : ∀ entry ∈ state.pending, stored.conflicts entry.2 = false) :
    Consistent commands { state with table := state.table ++ [stored] } where
  unique := by
    refine List.pairwise_append.mpr ⟨h.unique, List.pairwise_singleton .., ?_⟩
    intro first hfirst second hsecond
    cases List.mem_singleton.mp hsecond
    exact StoredExtraction.conflicts_symm (htable first hfirst)
  fresh := by
    intro entry hentry other hother
    rcases List.mem_append.mp hother with hother | hother
    · exact h.fresh entry hentry other hother
    · cases List.mem_singleton.mp hother
      exact StoredExtraction.conflicts_symm (hpending entry hentry)
  unique_pending := h.unique_pending
  opened := h.opened
  sound := fun other => (h.sound other).mono fun kept hkept =>
    ⟨kept, List.mem_append_left _ hkept, rfl, rfl⟩

theorem Consistent.apply (h : Consistent commands state)
    {effect : SubmitEffect Json}
    (hreaction : Reaction (commands submitter) state
      (state.position submitter) effect) :
    Consistent commands (state.apply submitter effect) := by
  cases effect with
  | move next =>
      obtain ⟨hsound, -, hclosed, -⟩ := hreaction
      exact h.moveTo submitter next hclosed (hsound (h.sound submitter))
  | flush stored =>
      obtain ⟨hposition, htable, hpending⟩ := hreaction
      exact h.flush hposition htable hpending
  | commit stored acknowledged =>
      have hposition : state.position submitter = .committing stored :=
        hreaction
      have hopened := h.opened submitter stored hposition
      have hsound := h.sound submitter
      rw [hposition] at hsound
      have hclosed : Consistent commands
          { state.moveTo submitter .raised with
            pending := state.close submitter } :=
        h.close submitter .raised id trivial
      have hstored := hclosed.append (h.fresh _ hopened) fun entry hentry =>
        h.unique_pending _ hopened entry (mem_close.mp hentry).1
          (mem_close.mp hentry).2.symm
      have hmoved := hstored.moveTo submitter
        (if acknowledged then .refreshing stored.id else .raised)
        (by cases acknowledged <;> simp [Opened])
        (by
          cases acknowledged with
          | false => exact trivial
          | true => exact ⟨stored, by simp, rfl, hsound⟩)
      simpa [Submits.apply, Submits.moveTo] using hmoved
  | rollback => exact h.close submitter .raised id trivial
  | publish snapshot acknowledged =>
      have hposition : state.position submitter = .publishing snapshot :=
        hreaction
      have hsound := h.sound submitter
      rw [hposition] at hsound
      cases acknowledged with
      | true =>
          have hmoved := h.moveTo submitter (.returned snapshot) id hsound
          exact { hmoved with }
      | false =>
          have hmoved := h.moveTo submitter .raised id trivial
          exact { hmoved with }

def refreshed (id : String) (update : Extraction Json → Extraction Json)
    (stored : StoredExtraction Json) : StoredExtraction Json :=
  if stored.id = id then { stored with row := update stored.row } else stored

@[simp] theorem id_refreshed (id : String)
    (update : Extraction Json → Extraction Json)
    (stored : StoredExtraction Json) :
    (refreshed id update stored).id = stored.id := by
  unfold refreshed
  split <;> rfl

@[simp] theorem idempotencyKey_refreshed (id : String)
    (update : Extraction Json → Extraction Json)
    (stored : StoredExtraction Json) :
    (refreshed id update stored).idempotencyKey = stored.idempotencyKey := by
  unfold refreshed
  split <;> rfl

theorem conflicts_refreshed (id : String)
    (update : Extraction Json → Extraction Json)
    (first second : StoredExtraction Json) :
    first.conflicts (refreshed id update second) = first.conflicts second ∧
      (refreshed id update first).conflicts second =
        first.conflicts second := by
  simp [StoredExtraction.conflicts]

theorem Consistent.lifecycle (h : Consistent commands state) (id : String)
    (update : Extraction Json → Extraction Json) :
    Consistent commands (state.lifecycle id update) := by
  have htable : (state.lifecycle id update).table =
      state.table.map (refreshed id update) := rfl
  constructor
  case unique =>
    rw [htable]
    refine List.pairwise_map.mpr (h.unique.imp fun {first second} hpair => ?_)
    rw [(conflicts_refreshed id update first _).2,
      (conflicts_refreshed id update first second).1]
    exact hpair
  case fresh =>
    intro entry hentry stored hstored
    rw [htable] at hstored
    obtain ⟨kept, hkept, rfl⟩ := List.mem_map.mp hstored
    rw [(conflicts_refreshed id update entry.2 kept).1]
    exact h.fresh entry hentry kept hkept
  case unique_pending => exact h.unique_pending
  case opened => exact h.opened
  case sound =>
    intro other
    refine (h.sound other).mono fun kept hkept => ?_
    exact ⟨refreshed id update kept, List.mem_map_of_mem hkept, by simp, by simp⟩

end

end Submits

end Flydocs
