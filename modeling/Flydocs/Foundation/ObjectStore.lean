import Mathlib.Data.List.Basic

/-!
# Shared objects

A list of objects, referred to by their positions.  Allocation appends, and an
update in place is seen through every reference to the object.
-/

namespace Flydocs.Foundation.ObjectStore

variable {Object : Type*}

def read (store : List Object) (references : List Nat) : List Object :=
  references.filterMap (store[·]?)

def newReferences (store objects : List Object) : List Nat :=
  List.range' store.length objects.length

/-- Changes the objects in place, one reference after the other. -/
def update (change : Object → Object) (references : List Nat)
    (store : List Object) : List Object :=
  references.foldl (fun store reference => store.modify reference change) store

def Bounded (store : List Object) (references : List Nat) : Prop :=
  ∀ reference ∈ references, reference < store.length

theorem Bounded.append {store : List Object} {references : List Nat}
    (h : Bounded store references) (more : List Object) :
    Bounded (store ++ more) references := by
  intro reference hreference
  have := h reference hreference
  simp only [List.length_append]
  omega

theorem bounded_newReferences (store objects : List Object) :
    Bounded (store ++ objects) (newReferences store objects) := by
  intro reference hreference
  simp only [newReferences, List.mem_range'_1] at hreference
  simp only [List.length_append]
  omega

theorem le_of_mem_newReferences {store objects : List Object} {reference : Nat}
    (h : reference ∈ newReferences store objects) : store.length ≤ reference := by
  simp only [newReferences, List.mem_range'_1] at h
  omega

/-! ## Allocation -/

theorem read_append {store more : List Object} {references : List Nat}
    (h : Bounded store references) :
    read (store ++ more) references = read store references := by
  apply List.filterMap_congr
  intro reference hreference
  rw [List.getElem?_append_left (h reference hreference)]

theorem read_newReferences (store objects : List Object) :
    read (store ++ objects) (newReferences store objects) = objects := by
  unfold read newReferences
  induction objects generalizing store with
  | nil => rfl
  | cons object objects ih =>
      have hfirst : (store ++ object :: objects)[store.length]? = some object := by
        simp
      rw [List.length_cons, List.range'_succ, List.filterMap_cons, hfirst]
      have hrest := ih (store ++ [object])
      simpa using hrest

/-! ## Updates -/

section

variable {change : Object → Object} {references : List Nat}

theorem getElem?_update_of_notMem {store : List Object} {other : Nat}
    (h : other ∉ references) :
    (update change references store)[other]? = store[other]? := by
  unfold update
  induction references generalizing store with
  | nil => rfl
  | cons reference references ih =>
      simp only [List.mem_cons, not_or] at h
      rw [List.foldl_cons, ih h.2]
      simp [Ne.symm h.1]

theorem getElem?_update_of_mem {store : List Object} {reference : Nat}
    (hnodup : references.Nodup) (h : reference ∈ references) :
    (update change references store)[reference]? =
      store[reference]?.map change := by
  induction references generalizing store with
  | nil => cases h
  | cons first rest ih =>
      rw [List.nodup_cons] at hnodup
      show (update change rest (store.modify first change))[reference]? = _
      by_cases hfirst : reference = first
      · subst hfirst
        rw [getElem?_update_of_notMem hnodup.1]
        simp
      · have hrest : reference ∈ rest := by
          simpa [hfirst] using h
        rw [ih hnodup.2 hrest]
        simp [Ne.symm hfirst]

theorem read_update_of_disjoint {store : List Object} {others : List Nat}
    (h : ∀ other ∈ others, other ∉ references) :
    read (update change references store) others = read store others := by
  apply List.filterMap_congr
  intro other hother
  rw [getElem?_update_of_notMem (h other hother)]

theorem read_update {store : List Object} (hnodup : references.Nodup) :
    read (update change references store) references =
      (read store references).map change := by
  unfold read
  rw [List.map_filterMap]
  apply List.filterMap_congr
  intro reference hreference
  rw [getElem?_update_of_mem hnodup hreference]

/-! ## Measures -/

theorem map_read {Value : Type*} (measure : Object → Value)
    (store : List Object) (references : List Nat) :
    (read store references).map measure =
      read (store.map measure) references := by
  unfold read
  rw [List.map_filterMap]
  apply List.filterMap_congr
  intro reference _
  rw [List.getElem?_map]

theorem map_update {Value : Type*} {measure : Object → Value}
    (h : ∀ object, measure (change object) = measure object)
    (store : List Object) :
    (update change references store).map measure = store.map measure := by
  unfold update
  induction references generalizing store with
  | nil => rfl
  | cons reference references ih =>
      rw [List.foldl_cons, ih]
      apply List.ext_getElem?
      intro index
      by_cases hindex : reference = index
      · subst hindex
        simp [Function.comp_def, h]
      · simp [hindex]

end

end Flydocs.Foundation.ObjectStore
