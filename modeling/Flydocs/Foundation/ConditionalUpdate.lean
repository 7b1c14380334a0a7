import Mathlib.Data.List.Basic
import Mathlib.Logic.Relation

/-!
# Conditional updates of one row

A conditional update is the row-level effect of
`UPDATE ... SET values WHERE guard RETURNING *`: it either rewrites the row and
hands the new row back, or leaves the row alone and hands back nothing.  A
schedule is a list of such updates in the order in which the row lock
serialises them.
-/

namespace Flydocs.Foundation

structure ConditionalUpdate (Row : Type*) where
  guard : Row → Bool
  values : Row → Row

namespace ConditionalUpdate

variable {Row Call : Type*}

def returning (update : ConditionalUpdate Row) (row : Row) : Option Row :=
  if update.guard row then some (update.values row) else none

def apply (update : ConditionalUpdate Row) (row : Row) : Row :=
  (update.returning row).getD row

theorem returning_eq_some_iff {update : ConditionalUpdate Row} {row next : Row} :
    update.returning row = some next ↔
      update.guard row = true ∧ update.values row = next := by
  simp [returning]

theorem apply_of_returning {update : ConditionalUpdate Row} {row next : Row}
    (h : update.returning row = some next) : update.apply row = next := by
  simp [apply, h]

/-- The loser of a race changes nothing, the winner is handed what it wrote. -/
theorem apply_cases (update : ConditionalUpdate Row) (row : Row) :
    (update.guard row = false ∧ update.returning row = none ∧
        update.apply row = row) ∨
      (update.guard row = true ∧
        update.returning row = some (update.values row) ∧
        update.apply row = update.values row) := by
  cases hguard : update.guard row with
  | false => exact .inl ⟨rfl, by simp [returning, hguard],
      by simp [apply, returning, hguard]⟩
  | true => exact .inr ⟨rfl, by simp [returning, hguard],
      by simp [apply, returning, hguard]⟩

/-! ## Properties of rows kept by an update -/

def Keeps (Good : Row → Prop) (update : ConditionalUpdate Row) : Prop :=
  ∀ row, Good row → update.guard row = true → Good (update.values row)

theorem Keeps.apply {Good : Row → Prop} {update : ConditionalUpdate Row}
    (h : Keeps Good update) {row : Row} (hrow : Good row) :
    Good (update.apply row) := by
  rcases apply_cases update row with ⟨-, -, happly⟩ | ⟨hguard, -, happly⟩
  · rw [happly]
    exact hrow
  · rw [happly]
    exact h row hrow hguard

theorem Keeps.returning {Good : Row → Prop} {update : ConditionalUpdate Row}
    (h : Keeps Good update) {row next : Row} (hrow : Good row)
    (hreturn : update.returning row = some next) : Good next := by
  obtain ⟨hguard, rfl⟩ := returning_eq_some_iff.mp hreturn
  exact h row hrow hguard

/-! ## Schedules -/

def runAll (update : Call → ConditionalUpdate Row) (calls : List Call)
    (row : Row) : Row :=
  calls.foldl (fun current call => (update call).apply current) row

@[simp] theorem runAll_nil (update : Call → ConditionalUpdate Row) (row : Row) :
    runAll update [] row = row := rfl

@[simp] theorem runAll_cons (update : Call → ConditionalUpdate Row) (call : Call)
    (calls : List Call) (row : Row) :
    runAll update (call :: calls) row =
      runAll update calls ((update call).apply row) := rfl

theorem runAll_append (update : Call → ConditionalUpdate Row)
    (first second : List Call) (row : Row) :
    runAll update (first ++ second) row =
      runAll update second (runAll update first row) := by
  simp [runAll, List.foldl_append]

theorem runAll_keeps {update : Call → ConditionalUpdate Row}
    {Good : Row → Prop} (h : ∀ call, Keeps Good (update call))
    (calls : List Call) {row : Row} (hrow : Good row) :
    Good (runAll update calls row) := by
  induction calls generalizing row with
  | nil => exact hrow
  | cons call calls ih => exact ih ((h call).apply hrow)

/--
When every returned row is one step of an abstract relation away from the row
it replaces, a schedule is a path of that relation.
-/
theorem runAll_simulates {Abstract : Type*}
    {update : Call → ConditionalUpdate Row} {Good : Row → Prop}
    {view : Row → Abstract} {Step : Abstract → Abstract → Prop}
    (hkeeps : ∀ call, Keeps Good (update call))
    (hstep : ∀ call row next, Good row →
      (update call).returning row = some next → Step (view row) (view next))
    (calls : List Call) {row : Row} (hrow : Good row) :
    Relation.ReflTransGen Step (view row) (view (runAll update calls row)) := by
  induction calls generalizing row with
  | nil => exact .refl
  | cons call calls ih =>
      have hrest := ih ((hkeeps call).apply hrow)
      rw [runAll_cons]
      rcases apply_cases (update call) row with
        ⟨-, -, happly⟩ | ⟨-, hsome, happly⟩
      · rwa [happly] at hrest ⊢
      · rw [happly] at hrest ⊢
        exact .head (hstep call row _ hrow hsome) hrest

def hits (update : Call → ConditionalUpdate Row) (selected : Call → Bool) :
    List Call → Row → Nat
  | [], _ => 0
  | call :: calls, row =>
      (if selected call && ((update call).returning row).isSome then 1 else 0) +
        hits update selected calls ((update call).apply row)

/--
A counter column that exactly the selected updates bump counts the selected
calls that returned the row.
-/
theorem counter_runAll {update : Call → ConditionalUpdate Row}
    {selected : Call → Bool} (counter : Row → Nat)
    (hbump : ∀ call row, selected call = true →
      counter ((update call).values row) = counter row + 1)
    (hkeep : ∀ call row, selected call = false →
      counter ((update call).values row) = counter row)
    (calls : List Call) (row : Row) :
    counter (runAll update calls row) =
      counter row + hits update selected calls row := by
  induction calls generalizing row with
  | nil => simp [hits]
  | cons call calls ih =>
      rw [runAll_cons, ih, hits]
      rcases apply_cases (update call) row with
        ⟨-, hnone, happly⟩ | ⟨-, hsome, happly⟩
      · simp [hnone, happly]
      · cases hselected : selected call with
        | false => simp [happly, hkeep call row hselected]
        | true =>
            simp [hsome, happly, hbump call row hselected]
            omega

end ConditionalUpdate

end Flydocs.Foundation
