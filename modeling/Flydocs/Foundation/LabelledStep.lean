import Mathlib.Data.List.Induction
import Mathlib.Data.Option.Basic

/-!
# Runs of a labelled partial step function

A nondeterministic system is given by an executable step function that is
partial in its label: the label resolves every choice of the environment and
`none` says that the label is not enabled.  A run is a list of labels.
-/

namespace Flydocs.Foundation

abbrev LabelledStep (State Label : Type*) := State → Label → Option State

namespace LabelledStep

variable {State Label : Type*}

def run (step : LabelledStep State Label) : State → List Label → Option State
  | state, [] => some state
  | state, label :: labels =>
      (step state label).bind fun next => run step next labels

theorem run_cons_eq_some {step : LabelledStep State Label}
    {state finish : State} {label : Label} {labels : List Label} :
    run step state (label :: labels) = some finish ↔
      ∃ next, step state label = some next ∧
        run step next labels = some finish := by
  simp [run, Option.bind_eq_some_iff]

theorem run_snoc_eq_some {step : LabelledStep State Label}
    {start finish : State} {labels : List Label} {label : Label} :
    run step start (labels ++ [label]) = some finish ↔
      ∃ state, run step start labels = some state ∧
        step state label = some finish := by
  induction labels generalizing start with
  | nil => simp [run]
  | cons first labels ih =>
      rw [List.cons_append, run_cons_eq_some]
      simp only [run_cons_eq_some, ih]
      constructor
      · rintro ⟨next, hnext, state, hstate, hfinish⟩
        exact ⟨state, ⟨next, hnext, hstate⟩, hfinish⟩
      · rintro ⟨state, ⟨next, hnext, hstate⟩, hfinish⟩
        exact ⟨next, hnext, state, hstate, hfinish⟩

/-- What one step preserves holds at the end of every run. -/
theorem run_invariant {step : LabelledStep State Label} (Good : State → Prop)
    (hstep : ∀ state label next, Good state →
      step state label = some next → Good next)
    {start finish : State} {labels : List Label} (hstart : Good start)
    (hrun : run step start labels = some finish) : Good finish := by
  induction labels generalizing start with
  | nil =>
      cases hrun
      exact hstart
  | cons label labels ih =>
      obtain ⟨next, hnext, hrest⟩ := run_cons_eq_some.mp hrun
      exact ih (hstep start label next hstart hnext) hrest

/-- The same for what holds of a state and the labels that led to it. -/
theorem run_invariant_past {step : LabelledStep State Label} {start : State}
    (Good : List Label → State → Prop)
    (hstep : ∀ past state label next, run step start past = some state →
      Good past state → step state label = some next →
      Good (past ++ [label]) next)
    (hstart : Good [] start) {finish : State} {labels : List Label}
    (hrun : run step start labels = some finish) : Good labels finish := by
  induction labels using List.reverseRecOn generalizing finish with
  | nil =>
      cases hrun
      exact hstart
  | append_singleton past label ih =>
      obtain ⟨state, hpast, hnext⟩ := run_snoc_eq_some.mp hrun
      exact hstep past state label finish hpast (ih hpast) hnext

theorem run_append {step : LabelledStep State Label}
    {start middle finish : State} {first second : List Label}
    (hfirst : run step start first = some middle)
    (hsecond : run step middle second = some finish) :
    run step start (first ++ second) = some finish := by
  induction first generalizing start with
  | nil =>
      cases hfirst
      exact hsecond
  | cons label first ih =>
      obtain ⟨next, hnext, hrest⟩ := run_cons_eq_some.mp hfirst
      exact run_cons_eq_some.mpr ⟨next, hnext, ih hrest⟩

/-! ## What a state can still become -/

def Leads (step : LabelledStep State Label) (Allowed : Label → Prop)
    (start finish : State) : Prop :=
  ∃ labels, (∀ label ∈ labels, Allowed label) ∧
    run step start labels = some finish

section

variable {step : LabelledStep State Label} {Allowed : Label → Prop}

theorem Leads.refl (step : LabelledStep State Label) (Allowed : Label → Prop)
    (state : State) : Leads step Allowed state state :=
  ⟨[], by simp, rfl⟩

theorem leads_of_step {state next : State} {label : Label}
    (hstep : step state label = some next) (hallowed : Allowed label) :
    Leads step Allowed state next :=
  ⟨[label], by simpa using hallowed,
    run_cons_eq_some.mpr ⟨next, hstep, rfl⟩⟩

theorem leads_cons {state next finish : State} {label : Label}
    (hstep : step state label = some next) (hallowed : Allowed label)
    (hrest : Leads step Allowed next finish) :
    Leads step Allowed state finish := by
  obtain ⟨labels, hlabels, hrun⟩ := hrest
  exact ⟨label :: labels, List.forall_mem_cons.mpr ⟨hallowed, hlabels⟩,
    run_cons_eq_some.mpr ⟨next, hstep, hrun⟩⟩

theorem Leads.trans {start middle finish : State}
    (hfirst : Leads step Allowed start middle)
    (hsecond : Leads step Allowed middle finish) :
    Leads step Allowed start finish := by
  obtain ⟨first, hallowed, hfirst⟩ := hfirst
  obtain ⟨second, hallowed', hsecond⟩ := hsecond
  refine ⟨first ++ second, fun label hlabel => ?_, run_append hfirst hsecond⟩
  exact (List.mem_append.mp hlabel).elim (hallowed label) (hallowed' label)

end

/-! ## Conditions on the steps of a run -/

/-- Every step the run takes meets `Meets` in the state it is taken from. -/
def EveryStep (step : LabelledStep State Label)
    (Meets : State → Label → Prop) : State → List Label → Prop
  | _, [] => True
  | state, label :: labels =>
      Meets state label ∧
        ∀ next, step state label = some next →
          EveryStep step Meets next labels

instance decidableEveryStep {step : LabelledStep State Label}
    {Meets : State → Label → Prop}
    [∀ state label, Decidable (Meets state label)] (labels : List Label) :
    ∀ start, Decidable (EveryStep step Meets start labels) :=
  match labels with
  | [] => fun _ => isTrue trivial
  | label :: labels => fun start =>
      have : ∀ next, Decidable (EveryStep step Meets next labels) :=
        decidableEveryStep labels
      decidable_of_iff
        (Meets start label ∧
          ((step start label).all fun next =>
            decide (EveryStep step Meets next labels)) = true) <| by
        simp [EveryStep, Option.all_eq_true]

theorem everyStep_cons_iff {step : LabelledStep State Label}
    {Meets : State → Label → Prop} {state next : State} {label : Label}
    {labels : List Label} (hstep : step state label = some next) :
    EveryStep step Meets state (label :: labels) ↔
      Meets state label ∧ EveryStep step Meets next labels := by
  simp [EveryStep, hstep]

theorem EveryStep.meets {step : LabelledStep State Label}
    {Meets : State → Label → Prop} {start state : State}
    {before after : List Label} {label : Label}
    (h : EveryStep step Meets start (before ++ label :: after))
    (hrun : run step start before = some state) : Meets state label := by
  induction before generalizing start with
  | nil =>
      cases hrun
      exact h.1
  | cons first before ih =>
      obtain ⟨next, hnext, hrest⟩ := run_cons_eq_some.mp hrun
      exact ih (h.2 next hnext) hrest

theorem run_invariant_of_everyStep {step : LabelledStep State Label}
    {Meets : State → Label → Prop} (Good : State → Prop)
    (hstep : ∀ state label next, Good state → Meets state label →
      step state label = some next → Good next)
    {start finish : State} {labels : List Label} (hstart : Good start)
    (hmeets : EveryStep step Meets start labels)
    (hrun : run step start labels = some finish) : Good finish := by
  induction labels generalizing start with
  | nil =>
      cases hrun
      exact hstart
  | cons label labels ih =>
      obtain ⟨next, hnext, hrest⟩ := run_cons_eq_some.mp hrun
      exact ih (hstep start label next hstart hmeets.1 hnext)
        (hmeets.2 next hnext) hrest

/-- Two step conditions that agree on reachable states agree on runs. -/
theorem everyStep_congr {step : LabelledStep State Label}
    {First Second : State → Label → Prop} (Good : State → Prop)
    (hstep : ∀ state label next, Good state →
      step state label = some next → Good next)
    (hiff : ∀ state label, Good state →
      (First state label ↔ Second state label))
    {start : State} (hstart : Good start) (labels : List Label) :
    EveryStep step First start labels ↔ EveryStep step Second start labels := by
  induction labels generalizing start with
  | nil => exact Iff.rfl
  | cons label labels ih =>
      refine and_congr (hiff start label hstart) ?_
      refine forall₂_congr fun next hnext => ?_
      exact ih (hstep start label next hstart hnext)

end LabelledStep

end Flydocs.Foundation
