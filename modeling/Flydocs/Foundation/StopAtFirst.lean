import Mathlib.Data.List.Nodup

/-!
# Loops that end at the first exception

A loop acts on one item after the other and is left by the first exception.
It reaches every item that would not raise exactly where what follows an item
that raises would raise as well.
-/

namespace Flydocs.Foundation

variable {Item Error : Type*}

/-- The items a loop has acted on, and the exception that ended it, if any. -/
def forEach (act : Item → Except Error Unit) :
    List Item → List Item × Option Error
  | [] => ([], none)
  | item :: items =>
      match act item with
      | .error error => ([item], some error)
      | .ok () =>
          let (reached, error) := forEach act items
          (item :: reached, error)

def reached (raises : Item → Bool) : List Item → List Item
  | [] => []
  | item :: items =>
      if raises item then [item] else item :: reached raises items

def raisesIn (act : Item → Except Error Unit) (item : Item) : Bool :=
  match act item with
  | .error _ => true
  | .ok () => false

theorem fst_forEach (act : Item → Except Error Unit) (items : List Item) :
    (forEach act items).1 = reached (raisesIn act) items := by
  induction items with
  | nil => rfl
  | cons item items ih =>
      cases hact : act item with
      | error error => simp [forEach, reached, raisesIn, hact]
      | ok _ => simp [forEach, reached, raisesIn, hact, ih]

theorem snd_forEach_eq_none_iff (act : Item → Except Error Unit)
    (items : List Item) :
    (forEach act items).2 = none ↔
      ∀ item ∈ items, raisesIn act item = false := by
  induction items with
  | nil => simp [forEach]
  | cons item items ih =>
      rw [List.forall_mem_cons, ← ih]
      cases hact : act item with
      | error error => simp [forEach, raisesIn, hact]
      | ok _ => simp [forEach, raisesIn, hact]

theorem reached_map {Other : Type*} (raises : Item → Bool)
    (f : Other → Item) (items : List Other) :
    reached raises (items.map f) =
      (reached (fun item => raises (f item)) items).map f := by
  induction items with
  | nil => rfl
  | cons item items ih =>
      rw [List.map_cons, reached, reached, ih]
      split <;> rfl

theorem reached_append_of_forall {raises : Item → Bool}
    {items : List Item} (h : ∀ item ∈ items, raises item = false)
    (later : List Item) :
    reached raises (items ++ later) = items ++ reached raises later := by
  induction items with
  | nil => rfl
  | cons item items ih =>
      rw [List.forall_mem_cons] at h
      rw [List.cons_append, reached, h.1, ih h.2]
      rfl

theorem reached_eq_self {raises : Item → Bool} {items : List Item}
    (h : ∀ item ∈ items, raises item = false) :
    reached raises items = items := by
  simpa [reached] using reached_append_of_forall h []

theorem reached_append_of_exists {raises : Item → Bool}
    {items : List Item} (h : ∃ item ∈ items, raises item = true)
    (later : List Item) :
    reached raises (items ++ later) = reached raises items := by
  induction items with
  | nil => simp at h
  | cons item items ih =>
      rw [List.cons_append, reached, reached]
      cases hraises : raises item with
      | true => rfl
      | false =>
          rw [ih]
          simpa [hraises] using h

def Unblocked (raises : Item → Bool) (items : List Item) : Prop :=
  items.Pairwise fun first second =>
    raises first = true → raises second = true

theorem unblocked_cons_of_raises {raises : Item → Bool} {item : Item}
    {items : List Item} (hraises : raises item = true) :
    Unblocked raises (item :: items) ↔
      ∀ other ∈ items, raises other = true := by
  unfold Unblocked
  rw [List.pairwise_cons]
  simp only [hraises, forall_const]
  refine and_iff_left_of_imp fun hall => ?_
  refine List.pairwise_of_forall_mem_list ?_
  exact fun _ _ other hother _ => hall other hother

theorem unblocked_cons_of_fine {raises : Item → Bool} {item : Item}
    {items : List Item} (hfine : raises item = false) :
    Unblocked raises (item :: items) ↔ Unblocked raises items := by
  unfold Unblocked
  rw [List.pairwise_cons]
  simp [hfine]

theorem all_reached_iff {raises : Item → Bool} {items : List Item}
    (hnodup : (items.filter fun item => !raises item).Nodup) :
    (∀ item ∈ items, raises item = false → item ∈ reached raises items) ↔
      Unblocked raises items := by
  induction items with
  | nil => simp [Unblocked]
  | cons item items ih =>
      rw [reached]
      cases hraises : raises item with
      | true =>
          rw [unblocked_cons_of_raises hraises]
          simp only [if_true, List.mem_singleton]
          constructor
          · intro h other hother
            by_contra hfine
            rw [Bool.not_eq_true] at hfine
            rw [h other (List.mem_cons_of_mem _ hother) hfine, hraises] at hfine
            cases hfine
          · intro hall other hother hfine
            rcases List.mem_cons.mp hother with rfl | hlater
            · rfl
            · rw [hall other hlater] at hfine
              cases hfine
      | false =>
          rw [List.filter_cons_of_pos (by simp [hraises]),
            List.nodup_cons] at hnodup
          obtain ⟨hnew, hrest⟩ := hnodup
          rw [unblocked_cons_of_fine hraises, ← ih hrest]
          simp only [Bool.false_eq_true, if_false, List.mem_cons]
          constructor
          · intro h other hother hfine
            refine (h other (.inr hother) hfine).resolve_left ?_
            rintro rfl
            exact hnew (List.mem_filter.mpr ⟨hother, by simp [hfine]⟩)
          · rintro h other (rfl | hother) hfine
            · exact .inl rfl
            · exact .inr (h other hother hfine)

end Flydocs.Foundation
