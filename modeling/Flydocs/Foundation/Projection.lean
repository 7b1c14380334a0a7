import Mathlib.Data.Option.Basic
import Flydocs.Foundation.LabelledStep

/-!
# Projecting a system on one of its parts

A part of a system may come to life while the system runs; from then on the
steps of the system are, as seen by the part, steps of a system of its own, or
none.  Every run of the whole then is a run of the part, and what all runs of
the part have in common the whole has too.
-/

namespace Flydocs.Foundation

/-- `view` shows the part once it is there.  `Good` is an invariant of the
whole that its steps may rely on. -/
structure Projection {State Label Part PartLabel : Type*}
    (step : LabelledStep State Label) (part : LabelledStep Part PartLabel)
    (Good : State → Prop) (Initial : Part → Prop) where
  view : State → Option Part
  good : ∀ {state label next}, Good state → step state label = some next →
    Good next
  born : ∀ {state label next shown}, Good state → step state label = some next →
    view state = none → view next = some shown → Initial shown
  follows : ∀ {state label next shown}, Good state →
    step state label = some next → view state = some shown →
      ∃ taken after, LabelledStep.run part shown taken = some after ∧
        view next = some after

namespace Projection

variable {State Label Part PartLabel : Type*} {step : LabelledStep State Label}
  {part : LabelledStep Part PartLabel} {Good : State → Prop}
  {Initial : Part → Prop}

variable (projection : Projection step part Good Initial)

/-- A part that is there takes a run of its own during a run of the whole. -/
theorem run_follows {start finish : State} {labels : List Label}
    {shown : Part} (hgood : Good start)
    (hshown : projection.view start = some shown)
    (hrun : LabelledStep.run step start labels = some finish) :
    ∃ taken after, LabelledStep.run part shown taken = some after ∧
      projection.view finish = some after := by
  induction labels generalizing start shown with
  | nil =>
      cases hrun
      exact ⟨[], shown, rfl, hshown⟩
  | cons label labels ih =>
      obtain ⟨next, hnext, hrest⟩ := LabelledStep.run_cons_eq_some.mp hrun
      obtain ⟨taken, middle, htaken, hmiddle⟩ :=
        projection.follows hgood hnext hshown
      obtain ⟨later, after, hlater, hafter⟩ :=
        ih (projection.good hgood hnext) hmiddle hrest
      exact ⟨taken ++ later, after, LabelledStep.run_append htaken hlater, hafter⟩

/-- A part that came to life during the run began in an initial state. -/
theorem run_projects {start finish : State} {labels : List Label} {after : Part}
    (hgood : Good start) (hunborn : projection.view start = none)
    (hrun : LabelledStep.run step start labels = some finish)
    (hafter : projection.view finish = some after) :
    ∃ initial taken, Initial initial ∧
      LabelledStep.run part initial taken = some after := by
  induction labels generalizing start with
  | nil =>
      cases hrun
      rw [hunborn] at hafter
      cases hafter
  | cons label labels ih =>
      obtain ⟨next, hnext, hrest⟩ := LabelledStep.run_cons_eq_some.mp hrun
      have hlater := projection.good hgood hnext
      cases hshown : projection.view next with
      | none => exact ih hlater hshown hrest
      | some shown =>
          obtain ⟨taken, _, htaken, hfinish⟩ :=
            projection.run_follows hlater hshown hrest
          rw [hafter] at hfinish
          cases hfinish
          exact ⟨shown, taken, projection.born hgood hnext hunborn hshown,
            htaken⟩

end Projection

end Flydocs.Foundation
