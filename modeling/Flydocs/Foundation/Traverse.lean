import Mathlib.Data.List.Forall2

/-!
# Traversals that may fail

`List.mapM` in `Option` and in `Except`, as a relation between the two lists.
-/

namespace Flydocs.Foundation

universe u

variable {Item Error : Type*} {Result : Type u}

theorem bind_eq_ok_iff {Value : Type u} {outcome : Except Error Value}
    {next : Value → Except Error Result} {result : Result} :
    outcome >>= next = .ok result ↔
      ∃ value, outcome = .ok value ∧ next value = .ok result := by
  cases outcome <;> simp [bind, Except.bind]

theorem mapError_eq_ok_iff {Value : Type u} {Other : Type*}
    {outcome : Except Error Value} {wrap : Error → Other} {value : Value} :
    outcome.mapError wrap = .ok value ↔ outcome = .ok value := by
  cases outcome <;> simp [Except.mapError]

theorem mapM_eq_some_iff {step : Item → Option Result} {items : List Item}
    {results : List Result} :
    items.mapM step = some results ↔
      List.Forall₂ (fun item result => step item = some result) items
        results := by
  induction items generalizing results with
  | nil => cases results <;> simp
  | cons item items ih =>
      rw [List.mapM_cons]
      cases hstep : step item with
      | none => cases results <;> simp [hstep]
      | some first =>
          cases hrest : items.mapM step with
          | none => cases results <;> simp [← ih, hrest]
          | some rest => cases results <;> simp [← ih, hrest, hstep]

theorem mapM_eq_ok_iff {step : Item → Except Error Result} {items : List Item}
    {results : List Result} :
    items.mapM step = .ok results ↔
      List.Forall₂ (fun item result => step item = .ok result) items
        results := by
  induction items generalizing results with
  | nil => cases results <;> simp [pure, Except.pure]
  | cons item items ih =>
      rw [List.mapM_cons]
      cases hstep : step item with
      | error raised => cases results <;> simp [hstep, bind, Except.bind]
      | ok first =>
          cases hrest : items.mapM step with
          | error raised =>
              cases results <;> simp [← ih, hrest, bind, Except.bind]
          | ok rest =>
              cases results <;>
                simp [← ih, hrest, hstep, bind, Except.bind, pure, Except.pure]

theorem exists_mapM_eq_ok_iff {step : Item → Except Error Result}
    {items : List Item} :
    (∃ results, items.mapM step = .ok results) ↔
      ∀ item ∈ items, ∃ result, step item = .ok result := by
  constructor
  · rintro ⟨results, h⟩ item hitem
    obtain ⟨index, hindex, rfl⟩ := List.getElem_of_mem hitem
    have hresults := mapM_eq_ok_iff.mp h
    exact ⟨_, hresults.get hindex (hresults.length_eq ▸ hindex)⟩
  · intro h
    induction items with
    | nil => exact ⟨[], rfl⟩
    | cons item items ih =>
        obtain ⟨first, hfirst⟩ := h item (by simp)
        obtain ⟨rest, hrest⟩ := ih fun other hother =>
          h other (by simp [hother])
        refine ⟨first :: rest, ?_⟩
        rw [List.mapM_cons, hfirst, hrest]
        rfl

theorem mapM_congr_mem {step other : Item → Except Error Result}
    {items : List Item} (h : ∀ item ∈ items, step item = other item) :
    items.mapM step = items.mapM other := by
  induction items with
  | nil => rfl
  | cons item items ih =>
      obtain ⟨hitem, hitems⟩ := List.forall_mem_cons.mp h
      rw [List.mapM_cons, List.mapM_cons, hitem, ih hitems]

theorem exists_mem_of_mapM_error {step : Item → Except Error Result}
    {items : List Item} {error : Error} (h : items.mapM step = .error error) :
    ∃ item ∈ items, step item = .error error := by
  induction items with
  | nil => cases h
  | cons item items ih =>
      rw [List.mapM_cons] at h
      cases hstep : step item with
      | error other =>
          rw [hstep] at h
          cases h
          exact ⟨item, List.mem_cons_self, hstep⟩
      | ok result =>
          cases hrest : items.mapM step with
          | error other =>
              rw [hstep, hrest] at h
              cases h
              obtain ⟨later, hlater, herror⟩ := ih hrest
              exact ⟨later, List.mem_cons_of_mem _ hlater, herror⟩
          | ok results =>
              rw [hstep, hrest] at h
              cases h

/-- A traversal with related results is one that has them item by item. -/
theorem exists_mapM_forall₂_iff {step : Item → Except Error Result}
    {relation : Item → Result → Prop} {items : List Item} :
    (∃ results, items.mapM step = .ok results ∧
      List.Forall₂ relation items results) ↔
      ∀ item ∈ items, ∃ result, step item = .ok result ∧
        relation item result := by
  constructor
  · rintro ⟨results, h, hrelation⟩ item hitem
    obtain ⟨index, hindex, rfl⟩ := List.getElem_of_mem hitem
    have hresults := mapM_eq_ok_iff.mp h
    have hlt := hresults.length_eq ▸ hindex
    exact ⟨_, hresults.get hindex hlt, hrelation.get hindex hlt⟩
  · intro h
    induction items with
    | nil => exact ⟨[], rfl, .nil⟩
    | cons item items ih =>
        obtain ⟨first, hfirst, hrelated⟩ := h item (by simp)
        obtain ⟨rest, hrest, hrelation⟩ := ih fun other hother =>
          h other (by simp [hother])
        refine ⟨first :: rest, ?_, .cons hrelated hrelation⟩
        rw [List.mapM_cons, hfirst, hrest]
        rfl

theorem mapM_zip_left {Other : Type*} {items : List Item} {others : List Other}
    (hlength : items.length ≤ others.length)
    (step : Item → Except Error Result) :
    items.mapM step = (items.zip others).mapM fun entry => step entry.1 := by
  conv_lhs => rw [← List.map_fst_zip hlength]
  rw [List.mapM_map]
  rfl

theorem mapM_eq_ok_iff_map {step : Item → Except Error Result}
    {good : Item → Prop} {make : Item → Result} {items : List Item}
    (h : ∀ item ∈ items, ∀ result,
      step item = .ok result ↔ good item ∧ result = make item)
    {results : List Result} :
    items.mapM step = .ok results ↔
      (∀ item ∈ items, good item) ∧ results = items.map make := by
  rw [mapM_eq_ok_iff]
  induction items generalizing results with
  | nil => cases results <;> simp
  | cons item items ih =>
      have hrest := @ih fun other hother => h other (by simp [hother])
      cases results with
      | nil => simp
      | cons result results =>
          rw [List.forall₂_cons, h item (by simp), hrest]
          simp only [List.forall_mem_cons, List.map_cons, List.cons.injEq]
          tauto

theorem exists_forall₂_iff {Left Right : Type*}
    {relation : Left → Right → Prop} {lefts : List Left} :
    (∃ rights, List.Forall₂ relation lefts rights) ↔
      ∀ left ∈ lefts, ∃ right, relation left right := by
  induction lefts with
  | nil => simp
  | cons left lefts ih =>
      simp only [List.forall₂_cons_left_iff, List.forall_mem_cons, ← ih]
      constructor
      · rintro ⟨_, right, rights, hfirst, hrest, rfl⟩
        exact ⟨⟨right, hfirst⟩, rights, hrest⟩
      · rintro ⟨⟨right, hfirst⟩, rights, hrest⟩
        exact ⟨_, right, rights, hfirst, hrest, rfl⟩

theorem exists_of_forall₂ {Left Right : Type*} {relation : Left → Right → Prop}
    {lefts : List Left} {rights : List Right}
    (h : List.Forall₂ relation lefts rights) {right : Right}
    (hright : right ∈ rights) : ∃ left ∈ lefts, relation left right := by
  induction h with
  | nil => cases hright
  | cons hfirst _ ih =>
      obtain rfl | hrest := List.mem_cons.mp hright
      · exact ⟨_, by simp, hfirst⟩
      · obtain ⟨left, hleft, hrelation⟩ := ih hrest
        exact ⟨left, by simp [hleft], hrelation⟩

theorem forall₂_iff_forall_mem {Left Right : Type*}
    {given wanted : Left → Right → Prop} {property : Left → Prop}
    {lefts : List Left} {rights : List Right}
    (h : List.Forall₂ given lefts rights)
    (hwanted : ∀ left right, given left right →
      (wanted left right ↔ property left)) :
    List.Forall₂ wanted lefts rights ↔ ∀ left ∈ lefts, property left := by
  induction h with
  | nil => simp
  | cons hfirst _ ih =>
      rw [List.forall₂_cons, List.forall_mem_cons, ih, hwanted _ _ hfirst]

theorem exists_mem_zip {Left Right : Type*} {relation : Left → Right → Prop}
    {lefts : List Left} {rights : List Right}
    (h : List.Forall₂ relation lefts rights) {left : Left}
    (hleft : left ∈ lefts) :
    ∃ right, (left, right) ∈ lefts.zip rights ∧ relation left right := by
  induction h with
  | nil => cases hleft
  | cons hfirst _ ih =>
      obtain rfl | hrest := List.mem_cons.mp hleft
      · exact ⟨_, by simp, hfirst⟩
      · obtain ⟨right, hmem, hrelation⟩ := ih hrest
        exact ⟨right, by simp [hmem], hrelation⟩

theorem forall₂_map_zipWith {Left Right First Second : Type*}
    {relation : First → Second → Prop} {before : Left → First}
    {after : Left → Right → Second} {lefts : List Left} {rights : List Right}
    (h : List.Forall₂ (fun left right =>
      relation (before left) (after left right)) lefts rights) :
    List.Forall₂ relation (lefts.map before) (lefts.zipWith after rights) := by
  induction h with
  | nil => exact .nil
  | cons hfirst _ ih => exact .cons hfirst ih

/-! ## Loops -/

section

variable {State : Type u} {step : State → Item → Except Error State}

theorem foldlM_cons_eq_ok_iff {item : Item} {items : List Item}
    {state final : State} :
    (item :: items).foldlM step state = .ok final ↔
      ∃ next, step state item = .ok next ∧
        items.foldlM step next = .ok final := by
  rw [List.foldlM_cons, bind_eq_ok_iff]

theorem foldlM_append_eq_ok_iff {before after : List Item}
    {state final : State} :
    (before ++ after).foldlM step state = .ok final ↔
      ∃ middle, before.foldlM step state = .ok middle ∧
        after.foldlM step middle = .ok final := by
  rw [List.foldlM_append, bind_eq_ok_iff]

/-- A loop returns exactly when every turn that it reaches does. -/
theorem exists_foldlM_eq_ok_iff {items : List Item} {state : State} :
    (∃ final, items.foldlM step state = .ok final) ↔
      ∀ before item after, items = before ++ item :: after →
        ∀ middle, before.foldlM step state = .ok middle →
          ∃ next, step middle item = .ok next := by
  constructor
  · rintro ⟨final, h⟩ before item after rfl middle hmiddle
    obtain ⟨middle', hmiddle', hrest⟩ := foldlM_append_eq_ok_iff.mp h
    rw [hmiddle, Except.ok.injEq] at hmiddle'
    subst hmiddle'
    obtain ⟨next, hnext, -⟩ := foldlM_cons_eq_ok_iff.mp hrest
    exact ⟨next, hnext⟩
  · intro h
    induction items generalizing state with
    | nil => exact ⟨state, rfl⟩
    | cons item items ih =>
        obtain ⟨next, hnext⟩ := h [] item items rfl state rfl
        have hrest : ∃ final, items.foldlM step next = .ok final := by
          refine ih ?_
          rintro before other after rfl middle hmiddle
          exact h (item :: before) other after rfl middle
            (foldlM_cons_eq_ok_iff.mpr ⟨next, hnext, hmiddle⟩)
        obtain ⟨final, hfinal⟩ := hrest
        exact ⟨final, foldlM_cons_eq_ok_iff.mpr ⟨next, hnext, hfinal⟩⟩

end

end Flydocs.Foundation
