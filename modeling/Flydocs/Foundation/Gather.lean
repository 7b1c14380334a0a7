import Mathlib.Data.List.Basic

/-!
# Concurrent calls behind one barrier

A step makes one call for each of its items that needs one and waits for all
of them.  The calls settle in any order, each with a value or an exception,
and the wait itself may be cut short, which leaves some without an outcome.
-/

namespace Flydocs.Foundation

/-! ## Lists whose items change in place -/

variable {Item View : Type*}

theorem map_mapIdx_eq (view : Item → View) {change : Nat → Item → Item}
    (hview : ∀ index item, view (change index item) = view item)
    (items : List Item) :
    (items.mapIdx change).map view = items.map view := by
  apply List.ext_getElem?
  intro index
  simp only [List.getElem?_map, List.getElem?_mapIdx, Option.map_map]
  congr 1
  funext item
  exact hview index item

theorem forall_mem_mapIdx (Good : Item → Prop) {change : Nat → Item → Item}
    (hchange : ∀ index item, Good item → Good (change index item))
    {items : List Item} (hitems : ∀ item ∈ items, Good item) :
    ∀ item ∈ items.mapIdx change, Good item := by
  intro item hitem
  obtain ⟨index, hindex, rfl⟩ := List.mem_mapIdx.mp hitem
  exact hchange index _ (hitems _ (List.getElem_mem hindex))

theorem forall_mem_mapIdx_of_getElem? {Before After : Item → Prop}
    {change : Nat → Item → Item} {items : List Item}
    (hchange : ∀ index item, items[index]? = some item → Before item →
      After (change index item))
    (hitems : ∀ item ∈ items, Before item) :
    ∀ item ∈ items.mapIdx change, After item := by
  intro item hitem
  obtain ⟨index, hindex, rfl⟩ := List.mem_mapIdx.mp hitem
  exact hchange index _ (List.getElem?_eq_getElem hindex)
    (hitems _ (List.getElem_mem hindex))

/-! ## The barrier -/

/-- What became of a set of concurrent calls, in the order they settled. -/
structure Gathered (Key Error Value : Type*) where
  settled : List (Key × Except Error Value)
  stopped : Bool

namespace Gathered

variable {Key Error Value : Type*}

def callKeys (key : Nat → Key) (calls : Item → Bool) (items : List Item) :
    List Key :=
  (items.zipIdx.filter fun (item, _) => calls item).map
    fun (_, index) => key index

/-- Only what was called settles, once, and all of it unless stopped. -/
def Settles (called : List Key) (gathered : Gathered Key Error Value) : Prop :=
  (gathered.settled.map Prod.fst).Nodup ∧
    gathered.settled.map Prod.fst ⊆ called ∧
    (gathered.stopped = false → called ⊆ gathered.settled.map Prod.fst)

instance [DecidableEq Key] (called : List Key)
    (gathered : Gathered Key Error Value) :
    Decidable (gathered.Settles called) :=
  inferInstanceAs (Decidable (_ ∧ _ ∧ _))

/-! ## The calls that raised -/

def failures (gathered : Gathered Key Error Value) : List (Key × Error) :=
  gathered.settled.filterMap fun (key, outcome) =>
    match outcome with
    | .ok _ => none
    | .error error => some (key, error)

def raised (gathered : Gathered Key Error Value) : Bool :=
  !gathered.failures.isEmpty

theorem raised_iff {gathered : Gathered Key Error Value} :
    gathered.raised = true ↔ ∃ failure, failure ∈ gathered.failures := by
  rw [raised, Bool.not_eq_true', List.isEmpty_eq_false_iff_exists_mem]

theorem Settles.failures_eq_nil {gathered : Gathered Key Error Value}
    (h : gathered.Settles []) : gathered.failures = [] := by
  have hnone : gathered.settled = [] := by
    simpa using h.2.1
  simp [failures, hnone]

/-! ## Items that receive the outcome of their call -/

variable [DecidableEq Key]

def outcome (gathered : Gathered Key Error Value) (key : Key) :
    Option (Except Error Value) :=
  gathered.settled.lookup key

def deliver (gathered : Gathered Key Error Value) (key : Nat → Key)
    (calls : Item → Bool) (receive : Item → Except Error Value → Item)
    (items : List Item) : List Item :=
  items.mapIdx fun index item =>
    if calls item then
      match gathered.outcome (key index) with
      | none => item
      | some outcome => receive item outcome
    else item

theorem map_deliver (view : Item → View) {calls : Item → Bool}
    {receive : Item → Except Error Value → Item}
    (hview : ∀ item outcome, view (receive item outcome) = view item)
    (gathered : Gathered Key Error Value) (key : Nat → Key)
    (items : List Item) :
    (gathered.deliver key calls receive items).map view = items.map view := by
  refine map_mapIdx_eq view ?_ items
  intro index item
  split
  · split
    · rfl
    · exact hview item _
  · rfl

theorem forall_mem_deliver (Good : Item → Prop) {calls : Item → Bool}
    {receive : Item → Except Error Value → Item}
    (hreceive : ∀ item outcome, calls item = true → Good item →
      Good (receive item outcome))
    (gathered : Gathered Key Error Value) (key : Nat → Key)
    {items : List Item} (hitems : ∀ item ∈ items, Good item) :
    ∀ item ∈ gathered.deliver key calls receive items, Good item := by
  refine forall_mem_mapIdx Good ?_ hitems
  intro index item hitem
  split
  · rename_i hcalls
    split
    · exact hitem
    · exact hreceive item _ hcalls hitem
  · exact hitem

end Gathered

end Flydocs.Foundation
