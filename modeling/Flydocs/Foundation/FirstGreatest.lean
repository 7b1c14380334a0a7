import Mathlib.Data.List.Find
import Mathlib.Data.List.MinMax
import Mathlib.Data.List.Perm.Basic
import Mathlib.Data.Prod.Lex

/-!
# The first of the greatest

`List.argmax` yields the first of the items that no other one exceeds.  What is
found first in a list depends on its order, unless an observation tells none of
the things that may be found apart.
-/

namespace Flydocs.Foundation

section

variable {Item Key : Type*} [LinearOrder Key] (key : Item → Key)

theorem argmax_eq_find? (items : List Item) :
    items.argmax key =
      items.find? fun item => decide (∀ other ∈ items, key other ≤ key item) := by
  induction items with
  | nil => rfl
  | cons first items ih =>
      rw [List.argmax_cons, List.find?_cons]
      cases hrest : items.argmax key with
      | none =>
          obtain rfl := List.argmax_eq_none.mp hrest
          simp
      | some best =>
          have hbest : ∀ other ∈ items, key other ≤ key best :=
            fun other hother => List.le_of_mem_argmax hother hrest
          by_cases hlt : key first < key best
          · have hnot : ¬ ∀ other ∈ first :: items, key other ≤ key first :=
              fun hall => (hall best (List.mem_cons_of_mem _
                (List.argmax_mem hrest))).not_gt hlt
            simp only [hlt, if_true, hnot, decide_false]
            rw [← hrest, ih]
            refine List.find?_congr fun item hitem => decide_eq_decide.mpr ?_
            rw [List.forall_mem_cons]
            refine ⟨fun hall => ⟨?_, hall⟩, And.right⟩
            exact hlt.le.trans (hall best (List.argmax_mem hrest))
          · have hall : ∀ other ∈ first :: items, key other ≤ key first :=
              List.forall_mem_cons.mpr ⟨le_rfl, fun other hother =>
                (hbest other hother).trans (not_lt.mp hlt)⟩
            simp only [hlt, if_false, decide_eq_true hall]

end

section

variable {Item Found Seen : Type*} {find : Item → Option Found}
  {observe : Found → Seen}

/-- In every order of the items what is found first looks the same exactly when
all that may be found looks the same. -/
theorem findSome?_perm_iff (items : List Item) :
    (∀ arranged : List Item, arranged.Perm items →
      (arranged.findSome? find).map observe =
        (items.findSome? find).map observe) ↔
      ∀ first ∈ items, ∀ second ∈ items, ∀ found found',
        find first = some found → find second = some found' →
        observe found = observe found' := by
  constructor
  · intro h first hfirst second hsecond found found' hfound hfound'
    have hleads : ∀ item ∈ items, ∀ found, find item = some found →
        (items.findSome? find).map observe = some (observe found) := by
      intro item hitem found hfound
      obtain ⟨before, after, rfl⟩ := List.append_of_mem hitem
      rw [← h _ List.perm_middle.symm, List.findSome?_cons, hfound]
      rfl
    have heq := (hleads first hfirst found hfound).symm.trans
      (hleads second hsecond found' hfound')
    exact Option.some.inj heq
  · intro h arranged hperm
    cases hfirst : arranged.findSome? find with
    | none =>
        have hnone : items.findSome? find = none := by
          rw [List.findSome?_eq_none_iff] at hfirst ⊢
          exact fun item hitem => hfirst item (hperm.mem_iff.mpr hitem)
        rw [hnone]
    | some found =>
        obtain ⟨item, hitem, hfound⟩ := List.exists_of_findSome?_eq_some hfirst
        cases hsecond : items.findSome? find with
        | none =>
            rw [List.findSome?_eq_none_iff] at hsecond
            rw [hsecond item (hperm.mem_iff.mp hitem)] at hfound
            cases hfound
        | some found' =>
            obtain ⟨item', hitem', hfound'⟩ :=
              List.exists_of_findSome?_eq_some hsecond
            exact congrArg some (h item (hperm.mem_iff.mp hitem) item' hitem'
              found found' hfound hfound')

end

/-! ## Tuples as keys -/

/-- Tuples are compared element by element: the later elements count where the
first ones are equal. -/
theorem tuple_lt_iff {First Rest : Type*} [LinearOrder First] [LT Rest]
    {first second : First} {rest rest' : Rest} {ahead : Bool}
    (hrest : ahead = true ↔ rest < rest') :
    (if first ≠ second then decide (first < second) else ahead) = true ↔
      toLex (first, rest) < toLex (second, rest') := by
  rw [Prod.Lex.toLex_lt_toLex]
  by_cases heq : first = second
  · simp [heq, hrest]
  · simp [heq]

end Flydocs.Foundation
