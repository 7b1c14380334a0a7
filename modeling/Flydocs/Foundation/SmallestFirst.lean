import Mathlib.Data.List.Sort
import Mathlib.Order.Bounds.Basic

/-!
# Dropping the smallest items first

Items are dropped one at a time, each time the first of those with the least
key.  `without count items` says at once what `count` such drops leave, in the
order of the items.
-/

namespace Flydocs.Foundation

namespace SmallestFirst

variable {Item Key : Type*} [LinearOrder Key] (key : Item → Key)

/-- How many items go before an item that stands between two lists: those of a
smaller key, and on the left those of the same key. -/
def rank (left right : List Item) (item : Item) : Nat :=
  left.countP (fun other => decide (key other ≤ key item)) +
    right.countP (fun other => decide (key other < key item))

def keepFrom (count : Nat) : List Item → List Item → List Item
  | _, [] => []
  | left, item :: right =>
      if count ≤ rank key left right item then
        item :: keepFrom count (item :: left) right
      else keepFrom count (item :: left) right

def without (count : Nat) (items : List Item) : List Item :=
  keepFrom key count [] items

def order (items : List Item) : List Item :=
  items.insertionSort fun first second => key first ≤ key second

structure FirstLeast (before : List Item) (item : Item) (after : List Item) :
    Prop where
  before : ∀ other ∈ before, key item < key other
  after : ∀ other ∈ after, key item ≤ key other

/-! ## One drop -/

theorem exists_firstLeast {items : List Item} (hne : items ≠ []) :
    ∃ before item after, items = before ++ item :: after ∧
      FirstLeast key before item after := by
  induction items with
  | nil => exact absurd rfl hne
  | cons first rest ih =>
      by_cases hrest : rest = []
      · subst hrest
        exact ⟨[], first, [], rfl, by simp, by simp⟩
      · obtain ⟨before, item, after, rfl, hbefore, hafter⟩ := ih hrest
        by_cases hfirst : key first ≤ key item
        · refine ⟨[], first, before ++ item :: after, rfl, by simp, ?_⟩
          intro other hother
          rcases List.mem_append.mp hother with hmem | hmem
          · exact hfirst.trans (hbefore other hmem).le
          · rcases List.mem_cons.mp hmem with rfl | hmem
            · exact hfirst
            · exact hfirst.trans (hafter other hmem)
        · exact ⟨first :: before, item, after, rfl,
            List.forall_mem_cons.mpr ⟨not_le.mp hfirst, hbefore⟩, hafter⟩

section

variable {key : Item → Key}

theorem keepFrom_perm {left left' : List Item} (h : left.Perm left')
    (count : Nat) (right : List Item) :
    keepFrom key count left right = keepFrom key count left' right := by
  induction right generalizing left left' with
  | nil => rfl
  | cons item right ih =>
      have hrank : rank key left right item = rank key left' right item := by
        rw [rank, rank, h.countP_eq]
      rw [keepFrom, keepFrom, hrank, ih (h.cons item)]

theorem keepFrom_cons_left {item : Item} {right : List Item}
    (hright : ∀ other ∈ right, key item ≤ key other) (count : Nat)
    (left : List Item) :
    keepFrom key (count + 1) (item :: left) right =
      keepFrom key count left right := by
  induction right generalizing left with
  | nil => rfl
  | cons other right ih =>
      obtain ⟨hother, hright⟩ := List.forall_mem_cons.mp hright
      have hrank : rank key (item :: left) right other =
          rank key left right other + 1 := by
        simp only [rank, List.countP_cons, hother, decide_true, if_true]
        omega
      rw [keepFrom, keepFrom, hrank, keepFrom_perm (List.Perm.swap _ _ _),
        ih hright]
      simp only [Nat.add_le_add_iff_right]

theorem keepFrom_append_cons {before : List Item} {item : Item}
    {after : List Item} (h : FirstLeast key before item after) (count : Nat)
    {left : List Item} (hleft : ∀ other ∈ left, key item < key other) :
    keepFrom key (count + 1) left (before ++ item :: after) =
      keepFrom key count left (before ++ after) := by
  obtain ⟨hbefore, hafter⟩ := h
  induction before generalizing left with
  | nil =>
      have hrank : rank key left after item = 0 := by
        rw [rank, List.countP_eq_zero.mpr, List.countP_eq_zero.mpr]
        · simpa using hafter
        · simpa using hleft
      rw [List.nil_append, List.nil_append, keepFrom, hrank, if_neg (by omega)]
      exact keepFrom_cons_left hafter count left
  | cons other before ih =>
      obtain ⟨hother, hbefore⟩ := List.forall_mem_cons.mp hbefore
      have hrank : rank key left (before ++ item :: after) other =
          rank key left (before ++ after) other + 1 := by
        simp only [rank, List.countP_append, List.countP_cons, hother,
          decide_true, if_true]
        omega
      have hleft : ∀ earlier ∈ other :: left, key item < key earlier :=
        List.forall_mem_cons.mpr ⟨hother, hleft⟩
      rw [List.cons_append, List.cons_append, keepFrom, keepFrom, hrank,
        ih hleft hbefore]
      simp only [Nat.add_le_add_iff_right]

theorem without_succ {before : List Item} {item : Item} {after : List Item}
    (h : FirstLeast key before item after) (count : Nat) :
    without key (count + 1) (before ++ item :: after) =
      without key count (before ++ after) :=
  keepFrom_append_cons h count (by simp)

@[simp] theorem without_zero (items : List Item) :
    without key 0 items = items := by
  unfold without
  generalize ([] : List Item) = left
  induction items generalizing left with
  | nil => rfl
  | cons item items ih => rw [keepFrom, if_pos (Nat.zero_le _), ih]

theorem order_append_cons {before : List Item} {item : Item}
    {after : List Item} (h : FirstLeast key before item after) :
    order key (before ++ item :: after) = item :: order key (before ++ after) := by
  obtain ⟨hbefore, hafter⟩ := h
  unfold order
  induction before with
  | nil => exact List.insertionSort_cons_of_forall_rel _ hafter
  | cons other before ih =>
      obtain ⟨hother, hbefore⟩ := List.forall_mem_cons.mp hbefore
      rw [List.cons_append, List.cons_append, List.insertionSort_cons,
        List.insertionSort_cons, ih hbefore,
        List.orderedInsert_cons, if_neg (not_le.mpr hother)]

/-! ## Many drops -/

theorem without_perm (count : Nat) (items : List Item) :
    (without key count items).Perm ((order key items).drop count) := by
  induction count generalizing items with
  | zero =>
      rw [without_zero, List.drop_zero]
      exact (List.perm_insertionSort _ items).symm
  | succ count ih =>
      by_cases hne : items = []
      · subst hne
        rfl
      · obtain ⟨before, item, after, rfl, hleast⟩ :=
          exists_firstLeast key hne
        rw [without_succ hleast, order_append_cons hleast, List.drop_succ_cons]
        exact ih _

/-- Where the items do not fit yet, the least number of drops after which they
fit counts the next drop. -/
theorem isLeast_succ {fits : List Item → Prop} {before : List Item}
    {item : Item} {after : List Item} (h : FirstLeast key before item after)
    (hfits : ¬ fits (before ++ item :: after)) {count : Nat}
    (hcount : IsLeast {count | fits (without key count (before ++ after))}
      count) :
    IsLeast {count | fits (without key count (before ++ item :: after))}
      (count + 1) := by
  obtain ⟨hmem, hleast⟩ := hcount
  constructor
  · rw [Set.mem_ofPred_eq, without_succ h]
    exact hmem
  · intro other hother
    cases other with
    | zero =>
        rw [Set.mem_ofPred_eq, without_zero] at hother
        exact absurd hother hfits
    | succ other =>
        rw [Set.mem_ofPred_eq, without_succ h] at hother
        exact Nat.succ_le_succ (hleast hother)

theorem isLeast_zero {fits : List Item → Prop} {items : List Item}
    (hfits : fits items) :
    IsLeast {count | fits (without key count items)} 0 := by
  constructor
  · rwa [Set.mem_ofPred_eq, without_zero]
  · exact fun other _ => Nat.zero_le other

end

end SmallestFirst

end Flydocs.Foundation
