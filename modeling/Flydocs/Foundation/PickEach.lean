import Mathlib.Data.List.Nodup
import Flydocs.Foundation.LeaderClusters

/-!
# One item of each key

Of the items of a list that have the same key one is picked, and the picks stand
in the order in which their keys are first seen.
-/

namespace Flydocs.Foundation

/-! ## Lists without duplicates -/

section

variable {Item : Type*} [DecidableEq Item]

theorem nodup_eraseDups (items : List Item) : items.eraseDups.Nodup := by
  induction items using filter_induction with
  | nil => simp
  | cons item items ih =>
      rw [List.eraseDups_cons, List.nodup_cons]
      exact ⟨by simp, ih _⟩

theorem eraseDups_of_nodup {items : List Item} (h : items.Nodup) :
    items.eraseDups = items := by
  induction items with
  | nil => rfl
  | cons item items ih =>
      obtain ⟨hitem, h⟩ := List.nodup_cons.mp h
      have hall : items.filter (fun other => !other == item) = items := by
        rw [List.filter_eq_self]
        intro other hother
        have hne : other ≠ item := fun heq => hitem (heq ▸ hother)
        simpa using hne
      rw [List.eraseDups_cons, hall, ih h]

end

/-! ## Picks -/

variable {Item Key : Type*} [DecidableEq Key] (key : Item → Key)
  (pick : Item → List Item → Item)

def pickOf : List Item → Option Item
  | [] => none
  | first :: rest => some (pick first rest)

def pickEach (items : List Item) : List Item :=
  (items.map key).eraseDups.filterMap fun wanted =>
    pickOf pick (items.filter (key · = wanted))

section

variable {key pick}

/-- The first key is the first one seen, and the other picks are those of the
items of other keys. -/
theorem pickEach_cons (item : Item) (items : List Item) :
    pickEach key pick (item :: items) =
      pick item (items.filter (key · = key item)) ::
        pickEach key pick (items.filter (key · ≠ key item)) := by
  have hkeys : ((item :: items).map key).eraseDups =
      key item :: ((items.filter (key · ≠ key item)).map key).eraseDups := by
    rw [List.map_cons, List.eraseDups_cons, List.filter_map]
    simp [Function.comp_def, beq_eq_decide]
  have hfirst : (item :: items).filter (key · = key item) =
      item :: items.filter (key · = key item) :=
    List.filter_cons_of_pos (by simp)
  rw [pickEach, hkeys, List.filterMap_cons, hfirst, pickOf]
  refine congrArg (pick item _ :: ·) (List.filterMap_congr ?_)
  intro wanted hwanted
  obtain ⟨other, hother, rfl⟩ :=
    List.mem_map.mp (List.mem_eraseDups.mp hwanted)
  have hne : key other ≠ key item := by
    simpa using (List.mem_filter.mp hother).2
  rw [List.filter_cons_of_neg (by simpa using hne.symm), List.filter_filter]
  congr 2
  funext x
  by_cases hx : key x = key other <;> simp [hx, hne]

variable (hpick : ∀ first rest, pick first rest ∈ first :: rest)

include hpick

theorem key_pick (item : Item) (items : List Item) :
    key (pick item (items.filter (key · = key item))) = key item := by
  rcases List.mem_cons.mp (hpick item _) with heq | hmem
  · exact congrArg key heq
  · simpa using (List.mem_filter.mp hmem).2

theorem mem_of_mem_pickEach {items : List Item} {item : Item}
    (h : item ∈ pickEach key pick items) : item ∈ items := by
  induction items using filter_induction with
  | nil => cases h
  | cons first items ih =>
      rw [pickEach_cons] at h
      rcases List.mem_cons.mp h with rfl | h
      · exact List.cons_subset_cons _ (List.filter_subset_self _) (hpick first _)
      · exact List.mem_cons_of_mem _ (List.mem_filter.mp (ih _ h)).1

theorem filter_pickEach (items : List Item) (wanted : Key) :
    (pickEach key pick items).filter (key · = wanted) =
      (pickOf pick (items.filter (key · = wanted))).toList := by
  induction items using filter_induction with
  | nil => rfl
  | cons item items ih =>
      rw [pickEach_cons]
      by_cases hkey : key item = wanted
      · subst hkey
        have hrest : (pickEach key pick
            (items.filter (key · ≠ key item))).filter (key · = key item) =
            [] := by
          rw [ih, List.filter_filter]
          simp [pickOf]
        rw [List.filter_cons_of_pos (by simp [key_pick hpick]), hrest,
          List.filter_cons_of_pos (by simp)]
        rfl
      · have hsame : (items.filter (key · ≠ key item)).filter
            (key · = wanted) = items.filter (key · = wanted) := by
          rw [List.filter_filter]
          congr 1
          funext x
          by_cases hx : key x = wanted
          · simp [hx, Ne.symm hkey]
          · simp [hx]
        rw [List.filter_cons_of_neg (by simp [key_pick hpick, hkey]), ih, hsame,
          List.filter_cons_of_neg (by simpa using hkey)]

theorem nodup_pickEach (items : List Item) :
    ((pickEach key pick items).map key).Nodup := by
  induction items using filter_induction with
  | nil => exact List.nodup_nil
  | cons item items ih =>
      have hfirst : key (pick item (items.filter (key · = key item))) =
          key item := key_pick hpick item items
      rw [pickEach_cons, List.map_cons, hfirst, List.nodup_cons]
      refine ⟨fun hmem => ?_, ih _⟩
      obtain ⟨other, hother, hkey⟩ := List.mem_map.mp hmem
      have hne := (List.mem_filter.mp (mem_of_mem_pickEach hpick hother)).2
      simp [hkey] at hne

theorem pickEach_of_nodup {items : List Item} (h : (items.map key).Nodup) :
    pickEach key pick items = items := by
  induction items with
  | nil => rfl
  | cons item items ih =>
      obtain ⟨hitem, h⟩ := List.nodup_cons.mp h
      have hne : ∀ other ∈ items, key other ≠ key item :=
        fun other hother heq => hitem (heq ▸ List.mem_map_of_mem hother)
      have hnone : items.filter (key · = key item) = [] := by
        simpa [List.filter_eq_nil_iff] using hne
      have hall : items.filter (key · ≠ key item) = items := by
        simpa [List.filter_eq_self] using hne
      have hsingle : pick item [] = item := by simpa using hpick item []
      rw [pickEach_cons, hnone, hall, ih h, hsingle]

end

end Flydocs.Foundation
