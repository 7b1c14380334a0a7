import Mathlib.Data.List.Basic
import Mathlib.Data.List.Induction
import Mathlib.Data.Prod.Lex

/-!
# Searching for the best hit

`visit` is a loop that keeps the item with the greatest score and, among those,
the one with the least order.  `searchUntil` keeps the best hit of the items it
has come to, and ends at the first one that reaches a bar.
-/

namespace Flydocs.Foundation

/-! ## The best item -/

section

variable {Item Score Order : Type*} [LinearOrder Score] [LinearOrder Order]

structure Best (Item Score Order : Type*) where
  score : Score
  order : Order
  item : Option Item

variable (score : Item → Score) (order : Item → Order)

def Best.visit (best : Best Item Score Order) (item : Item) :
    Best Item Score Order :=
  if best.score < score item ∨
      (score item = best.score ∧ order item < best.order) then
    ⟨score item, order item, some item⟩
  else best

def rank (item : Item) : Lex (OrderDual Score × Order) :=
  toLex (OrderDual.toDual (score item), order item)

def Best.rank (best : Best Item Score Order) : Lex (OrderDual Score × Order) :=
  toLex (OrderDual.toDual best.score, best.order)

theorem visit_eq (best : Best Item Score Order) (item : Item) :
    best.visit score order item =
      if Foundation.rank score order item < best.rank then
        ⟨score item, order item, some item⟩
      else best := by
  simp only [Best.visit, Foundation.rank, Best.rank, Prod.Lex.toLex_lt_toLex,
    OrderDual.toDual_lt_toDual, OrderDual.toDual_inj]

/-- The loop ends with the first of the items that rank first, unless none ranks
before its start. -/
theorem foldl_visit_first (items : List Item) (start : Best Item Score Order) :
    (items.foldl (Best.visit score order) start = start ∧
      ∀ item ∈ items, start.rank ≤ rank score order item) ∨
    ∃ before item after, items = before ++ item :: after ∧
      items.foldl (Best.visit score order) start =
        ⟨score item, order item, some item⟩ ∧
      rank score order item < start.rank ∧
      (∀ other ∈ before, rank score order item < rank score order other) ∧
      ∀ other ∈ after, rank score order item ≤ rank score order other := by
  induction items using List.reverseRecOn with
  | nil => exact .inl ⟨rfl, by simp⟩
  | append_singleton items last ih =>
      rw [List.foldl_concat, visit_eq]
      rcases ih with ⟨hstart, hitems⟩ |
        ⟨before, item, after, rfl, hfinal, hless, hbefore, hafter⟩
      · rw [hstart]
        split
        · rename_i hlast
          exact .inr ⟨items, last, [], rfl, rfl, hlast,
            fun other hother => hlast.trans_le (hitems other hother), by simp⟩
        · rename_i hlast
          refine .inl ⟨rfl, fun other hother => ?_⟩
          rcases List.mem_append.mp hother with hother | hother
          · exact hitems other hother
          · rw [List.mem_singleton.mp hother]
            exact not_lt.mp hlast
      · rw [hfinal]
        split
        · rename_i hlast
          refine .inr ⟨before ++ item :: after, last, [], rfl, rfl,
            hlast.trans hless, fun other hother => ?_, by simp⟩
          rcases List.mem_append.mp hother with hother | hother
          · exact hlast.trans (hbefore other hother)
          · rcases List.mem_cons.mp hother with rfl | hother
            · exact hlast
            · exact hlast.trans_le (hafter other hother)
        · rename_i hlast
          refine .inr ⟨before, item, after ++ [last], by simp, rfl, hless,
            hbefore, fun other hother => ?_⟩
          rcases List.mem_append.mp hother with hother | hother
          · exact hafter other hother
          · rw [List.mem_singleton.mp hother]
            exact not_lt.mp hlast

/-- The loop ends with the greatest score, and with an item that has it unless
no item beats the score it started with. -/
theorem foldl_visit_spec (items : List Item)
    (start : Best Item Score Order) :
    let final := items.foldl (Best.visit score order) start
    start.score ≤ final.score ∧ (∀ item ∈ items, score item ≤ final.score) ∧
      ((final.item = start.item ∧ final.score = start.score) ∨
        ∃ item ∈ items, final.item = some item ∧ score item = final.score) := by
  rcases foldl_visit_first score order items start with ⟨hstart, hitems⟩ |
    ⟨before, item, after, rfl, hfinal, hless, hbefore, hafter⟩
  · rw [hstart]
    exact ⟨le_rfl, fun item hmem => Prod.Lex.monotone_fst _ _ (hitems item hmem),
      .inl ⟨rfl, rfl⟩⟩
  · rw [hfinal]
    refine ⟨Prod.Lex.monotone_fst _ _ hless.le, fun other hother => ?_,
      .inr ⟨item, by simp, rfl, rfl⟩⟩
    rcases List.mem_append.mp hother with hother | hother
    · exact Prod.Lex.monotone_fst _ _ (hbefore other hother).le
    · rcases List.mem_cons.mp hother with rfl | hother
      · exact le_rfl
      · exact Prod.Lex.monotone_fst _ _ (hafter other hother)

end

/-! ## Searching with a bar -/

section

variable {Item Hit Score : Type*} [LinearOrder Score]

variable (find : Item → Option Hit) (score : Hit → Score) (bar : Score)

def searchUntil : List Item → Option Hit → Option Hit
  | [], best => best
  | item :: items, best =>
      match find item with
      | none => searchUntil items best
      | some hit =>
          if best.all fun other => decide (score other < score hit) then
            if bar ≤ score hit then some hit
            else searchUntil items (some hit)
          else searchUntil items best

def Below (best : Option Hit) : Prop := ∀ hit ∈ best, score hit < bar

def FirstReaching (items : List Item) (hit : Hit) : Prop :=
  ∃ before item after, items = before ++ item :: after ∧
    find item = some hit ∧ bar ≤ score hit ∧
    ∀ other ∈ before, Below score bar (find other)

variable {find score bar}

theorem find_of_searchUntil {items : List Item} {best : Option Hit} {hit : Hit}
    (h : searchUntil find score bar items best = some hit) :
    best = some hit ∨ ∃ item ∈ items, find item = some hit := by
  induction items generalizing best with
  | nil => exact .inl h
  | cons first items ih =>
      have hlater (former : Option Hit)
          (h : searchUntil find score bar items former = some hit) :
          former = some hit ∨
            ∃ item ∈ first :: items, find item = some hit := by
        refine (ih h).imp_right ?_
        rintro ⟨item, hmem, hfind⟩
        exact ⟨item, List.mem_cons_of_mem _ hmem, hfind⟩
      rw [searchUntil] at h
      split at h
      · exact hlater best h
      next other hfind =>
        have hfirst (hother : some other = some hit) :
            ∃ item ∈ first :: items, find item = some hit :=
          ⟨first, List.mem_cons_self, hfind.trans hother⟩
        split at h
        · split at h
          · exact .inr (hfirst h)
          · exact .inr ((hlater _ h).elim hfirst fun hmem => hmem)
        · exact hlater best h

theorem firstReaching_cons_iff {first : Item} {items : List Item} {hit : Hit} :
    FirstReaching find score bar (first :: items) hit ↔
      (find first = some hit ∧ bar ≤ score hit) ∨
        (Below score bar (find first) ∧
          FirstReaching find score bar items hit) := by
  constructor
  · rintro ⟨before, item, after, hitems, hfind, hbar, hbelow⟩
    cases before with
    | nil =>
        cases hitems
        exact .inl ⟨hfind, hbar⟩
    | cons other before =>
        cases hitems
        rw [List.forall_mem_cons] at hbelow
        exact .inr ⟨hbelow.1, before, item, after, rfl, hfind, hbar, hbelow.2⟩
  · rintro (⟨hfind, hbar⟩ | ⟨hfirst, before, item, after, rfl, h⟩)
    · exact ⟨[], first, items, rfl, hfind, hbar, by simp⟩
    · exact ⟨first :: before, item, after, rfl, h.1, h.2.1,
        List.forall_mem_cons.mpr ⟨hfirst, h.2.2⟩⟩

theorem FirstReaching.append {items : List Item} {hit : Hit}
    (h : FirstReaching find score bar items hit) (rest : List Item) :
    FirstReaching find score bar (items ++ rest) hit := by
  obtain ⟨before, item, after, rfl, hfirst⟩ := h
  exact ⟨before, item, after ++ rest, by simp, hfirst⟩

theorem exists_firstReaching {items : List Item}
    (h : ∃ item ∈ items, ¬ Below score bar (find item)) :
    ∃ hit, FirstReaching find score bar items hit := by
  induction items with
  | nil => simp at h
  | cons first items ih =>
      simp only [firstReaching_cons_iff]
      by_cases hfirst : Below score bar (find first)
      · obtain ⟨item, hmem, hitem⟩ := h
        rcases List.mem_cons.mp hmem with rfl | hlater
        · exact absurd hfirst hitem
        · obtain ⟨hit, hreaching⟩ := ih ⟨item, hlater, hitem⟩
          exact ⟨hit, .inr ⟨hfirst, hreaching⟩⟩
      · simp only [Below, Option.mem_def, not_forall, not_lt] at hfirst
        obtain ⟨hit, hfind, hbar⟩ := hfirst
        exact ⟨hit, .inl ⟨hfind, hbar⟩⟩

theorem FirstReaching.of_append {first rest : List Item} {hit : Hit}
    (h : FirstReaching find score bar (first ++ rest) hit)
    (hreached : ∃ item ∈ first, ¬ Below score bar (find item)) :
    FirstReaching find score bar first hit := by
  induction first with
  | nil => simp at hreached
  | cons item items ih =>
      rw [List.cons_append, firstReaching_cons_iff] at h
      rw [firstReaching_cons_iff]
      rcases h with h | ⟨hbelow, h⟩
      · exact .inl h
      · rcases hreached with ⟨other, hother, hnot⟩
        rcases List.mem_cons.mp hother with rfl | hlater
        · exact absurd hbelow hnot
        · exact .inr ⟨hbelow, ih h ⟨other, hlater, hnot⟩⟩

theorem searchUntil_reaches_iff {items : List Item} {best : Option Hit}
    (hbest : Below score bar best) {hit : Hit} :
    (searchUntil find score bar items best = some hit ∧ bar ≤ score hit) ↔
      FirstReaching find score bar items hit := by
  induction items generalizing best with
  | nil =>
      simp only [searchUntil, FirstReaching, List.nil_eq,
        List.append_eq_nil_iff, reduceCtorEq, and_false, false_and,
        exists_false, iff_false, not_and, not_le]
      exact fun h => hbest hit h
  | cons first items ih =>
      rw [firstReaching_cons_iff, searchUntil]
      cases hfind : find first with
      | none => simp [ih hbest, Below]
      | some other =>
          simp only [Option.some.injEq]
          by_cases hbar : bar ≤ score other
          · have hbetter : best.all
                (fun former => decide (score former < score other)) = true := by
              rw [Option.all_eq_true]
              intro former hformer
              simpa using (hbest former hformer).trans_le hbar
            have hreached : ¬ Below score bar (some other) :=
              fun h => (h other rfl).not_ge hbar
            simp [hbetter, hbar, hreached]
          · have hlow : Below score bar (some other) := by
              rintro former ⟨⟩
              exact not_le.mp hbar
            have hnot : ¬ (other = hit ∧ bar ≤ score hit) := by
              rintro ⟨rfl, h⟩
              exact hbar h
            split
            · rw [ih hlow]
              simp [hnot, hlow]
            · rw [ih hbest]
              simp [hnot, hlow]

end

end Flydocs.Foundation
