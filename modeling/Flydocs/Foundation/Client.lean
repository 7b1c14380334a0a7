import Flydocs.Foundation.LabelledStep

/-!
# A system and a client of it

A client runs beside a system: between any two steps of the system it may take
steps of its own, looking at the state as it is then, and a step of the client
may have the system take one.  What the client has seen is an invariant that
the steps of the system leave standing.
-/

namespace Flydocs.Foundation

/-- What the client does next: the label it has the system take, if any, and
where that leaves the client. -/
abbrev ClientStep (State Label Client Action : Type*) :=
  State → Client → Action → Option (Option Label × Client)

namespace ClientStep

variable {State Label Client Action : Type*}

def reader (observe : State → LabelledStep Client Action) :
    ClientStep State Label Client Action := fun state client action =>
  (observe state client action).map (none, ·)

variable (step : LabelledStep State Label)
  (client : ClientStep State Label Client Action)

def withSystem : LabelledStep (State × Client) (Label ⊕ Action)
  | (state, here), .inl label => (step state label).map (·, here)
  | (state, here), .inr action =>
      (client state here action).bind fun move =>
        match move.1 with
        | none => some (state, move.2)
        | some label => (step state label).map (·, move.2)

/-! ## Everything a step can do -/

inductive Moved (state : State) (here : Client) :
    Label ⊕ Action → State → Client → Prop
  | system {label next} : step state label = some next →
      Moved state here (.inl label) next here
  | looked {action there} : client state here action = some (none, there) →
      Moved state here (.inr action) state there
  | acted {action label next there} :
      client state here action = some (some label, there) →
      step state label = some next →
      Moved state here (.inr action) next there

variable {step client}

theorem moved {state next : State} {here there : Client}
    {label : Label ⊕ Action}
    (h : withSystem step client (state, here) label = some (next, there)) :
    Moved step client state here label next there := by
  cases label with
  | inl label =>
      simp only [withSystem, Option.map_eq_some_iff, Prod.mk.injEq] at h
      obtain ⟨_, hstep, rfl, rfl⟩ := h
      exact .system hstep
  | inr action =>
      simp only [withSystem, Option.bind_eq_some_iff] at h
      obtain ⟨⟨acted, after⟩, hclient, h⟩ := h
      cases acted with
      | none =>
          cases h
          exact .looked hclient
      | some label =>
          simp only [Option.map_eq_some_iff, Prod.mk.injEq] at h
          obtain ⟨_, hstep, rfl, rfl⟩ := h
          exact .acted hclient hstep

/-! ## Runs -/

def Took (step : LabelledStep State Label)
    (client : ClientStep State Label Client Action) (start : State × Client)
    (labels : List (Label ⊕ Action)) (action : Action) (state : State) : Prop :=
  ∃ before after here, labels = before ++ .inr action :: after ∧
    LabelledStep.run (withSystem step client) start before = some (state, here)

theorem Took.snoc {start : State × Client} {labels : List (Label ⊕ Action)}
    {action : Action} {state : State}
    (h : Took step client start labels action state) (label : Label ⊕ Action) :
    Took step client start (labels ++ [label]) action state := by
  obtain ⟨before, after, here, rfl, hrun⟩ := h
  exact ⟨before, after ++ [label], here, by simp, hrun⟩

theorem took_snoc {start : State × Client} {labels : List (Label ⊕ Action)}
    {action : Action} {state : State} {here : Client}
    (hrun : LabelledStep.run (withSystem step client) start labels =
      some (state, here)) :
    Took step client start (labels ++ [.inr action]) action state :=
  ⟨labels, [], here, rfl, hrun⟩

/-- `Seen` relates the client to the present state.  It has to stand whatever
the system does, and the client has to keep it by what it does itself. -/
theorem run_seen (Good : State → Prop) (Seen : State → Client → Prop)
    (hgood : ∀ state label next, Good state →
      step state label = some next → Good next)
    (hstands : ∀ state label next here, Good state → Seen state here →
      step state label = some next → Seen next here)
    (hlooks : ∀ state here action there, Good state → Seen state here →
      client state here action = some (none, there) → Seen state there)
    (hacts : ∀ state here action label next there, Good state →
      Seen state here → client state here action = some (some label, there) →
      step state label = some next → Seen next there)
    {start finish : State} {here there : Client}
    {labels : List (Label ⊕ Action)} (hstart : Good start)
    (hseen : Seen start here)
    (hrun : LabelledStep.run (withSystem step client) (start, here) labels =
      some (finish, there)) : Good finish ∧ Seen finish there := by
  refine LabelledStep.run_invariant
    (fun both : State × Client => Good both.1 ∧ Seen both.1 both.2) ?_
    ⟨hstart, hseen⟩ hrun
  rintro ⟨state, before⟩ label ⟨next, after⟩ ⟨hbefore, hsaw⟩ hmoved
  cases moved hmoved with
  | system hstep =>
      exact ⟨hgood state _ next hbefore hstep,
        hstands state _ next before hbefore hsaw hstep⟩
  | looked hclient =>
      exact ⟨hbefore, hlooks state before _ after hbefore hsaw hclient⟩
  | acted hclient hstep =>
      exact ⟨hgood state _ next hbefore hstep,
        hacts state before _ _ next after hbefore hsaw hclient hstep⟩

/-- The rule for a client that only looks. -/
theorem run_seen_of_reader {observe : State → LabelledStep Client Action}
    (Good : State → Prop) (Seen : State → Client → Prop)
    (hgood : ∀ state label next, Good state →
      step state label = some next → Good next)
    (hstands : ∀ state label next here, Good state → Seen state here →
      step state label = some next → Seen next here)
    (hlooks : ∀ state here action there, Good state → Seen state here →
      observe state here action = some there → Seen state there)
    {start finish : State} {here there : Client}
    {labels : List (Label ⊕ Action)} (hstart : Good start)
    (hseen : Seen start here)
    (hrun : LabelledStep.run (withSystem step (reader observe)) (start, here)
      labels = some (finish, there)) : Good finish ∧ Seen finish there := by
  refine run_seen Good Seen hgood hstands ?_ ?_ hstart hseen hrun
  · intro state before action after hbefore hsaw hclient
    simp only [reader, Option.map_eq_some_iff, Prod.mk.injEq] at hclient
    obtain ⟨_, hobserve, -, rfl⟩ := hclient
    exact hlooks state before action _ hbefore hsaw hobserve
  · intro state before action label next after _ _ hclient
    simp [reader] at hclient

end ClientStep

end Flydocs.Foundation
