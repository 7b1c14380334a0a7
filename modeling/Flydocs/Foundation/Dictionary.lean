import Mathlib.Data.List.Nodup
import Mathlib.Data.List.Induction

/-!
# Dictionaries built from a list

`lookupLast key items` reads the dictionary that maps the key of each item to
the item: of two items with one key, the later one is kept.  `position` says
where in the list the item that it binds stands.
-/

namespace Flydocs.Foundation

variable {Key Item : Type*} [DecidableEq Key]

def lookupLast (key : Item → Key) (items : List Item) (wanted : Key) :
    Option Item :=
  items.reverse.find? fun item => key item = wanted

theorem lookupLast_eq_some_iff {key : Item → Key} {items : List Item}
    {wanted : Key} {item : Item} :
    lookupLast key items wanted = some item ↔
      ∃ before after, items = before ++ item :: after ∧
        key item = wanted ∧ ∀ later ∈ after, key later ≠ wanted := by
  unfold lookupLast
  rw [List.find?_eq_some_iff_append]
  constructor
  · rintro ⟨hkey, after, before, hitems, hafter⟩
    refine ⟨before.reverse, after.reverse, ?_, by simpa using hkey, ?_⟩
    · rw [← List.reverse_reverse items, hitems]
      simp
    · intro later hlater
      simpa using hafter later (List.mem_reverse.mp hlater)
  · rintro ⟨before, after, rfl, hkey, hafter⟩
    refine ⟨by simpa using hkey, after.reverse, before.reverse, by simp, ?_⟩
    intro later hlater
    simpa using hafter later (List.mem_reverse.mp hlater)

theorem mem_of_lookupLast {key : Item → Key} {items : List Item} {wanted : Key}
    {item : Item} (h : lookupLast key items wanted = some item) :
    item ∈ items :=
  List.mem_reverse.mp (List.mem_of_find?_eq_some h)

theorem key_of_lookupLast {key : Item → Key} {items : List Item} {wanted : Key}
    {item : Item} (h : lookupLast key items wanted = some item) :
    key item = wanted := by
  simpa using List.find?_some h

theorem exists_lookupLast_iff {key : Item → Key} {items : List Item}
    {wanted : Key} :
    (∃ item, lookupLast key items wanted = some item) ↔
      wanted ∈ items.map key := by
  rw [← Option.isSome_iff_exists, lookupLast, List.find?_isSome]
  simp

theorem lookupLast_of_nodup {key : Item → Key} {items : List Item}
    (hnodup : (items.map key).Nodup) {item : Item} (hmem : item ∈ items) :
    lookupLast key items (key item) = some item := by
  obtain ⟨before, after, rfl⟩ := List.append_of_mem hmem
  refine lookupLast_eq_some_iff.mpr ⟨before, after, rfl, rfl, ?_⟩
  intro later hlater hkey
  simp only [List.map_append, List.map_cons, List.nodup_append,
    List.nodup_cons] at hnodup
  exact hnodup.2.1.1 (List.mem_map.mpr ⟨later, hlater, hkey⟩)

theorem lookupLast_map {key : Item → Key} {make : Key → Item}
    (hkey : ∀ name, key (make name) = name) (names : List Key) (wanted : Key) :
    lookupLast key (names.map make) wanted =
      if wanted ∈ names then some (make wanted) else none := by
  have hnames : (names.map make).map key = names := by
    simp [Function.comp_def, hkey]
  have hsome : (∃ item, lookupLast key (names.map make) wanted = some item) ↔
      wanted ∈ names := by
    rw [exists_lookupLast_iff, hnames]
  cases hlookup : lookupLast key (names.map make) wanted with
  | none =>
      rw [if_neg]
      intro hmem
      obtain ⟨item, hitem⟩ := hsome.mpr hmem
      rw [hlookup] at hitem
      cases hitem
  | some item =>
      rw [if_pos (hsome.mp ⟨item, hlookup⟩)]
      obtain ⟨name, -, rfl⟩ := List.mem_map.mp (mem_of_lookupLast hlookup)
      have hname := key_of_lookupLast hlookup
      rw [hkey] at hname
      rw [hname]

@[simp] theorem lookupLast_append_singleton (key : Item → Key)
    (items : List Item) (last : Item) (wanted : Key) :
    lookupLast key (items ++ [last]) wanted =
      if key last = wanted then some last else lookupLast key items wanted := by
  by_cases h : key last = wanted <;> simp [lookupLast, h]

/-! ## Positions -/

def position (key : Item → Key) (items : List Item) (wanted : Key) :
    Option Nat :=
  (lookupLast (fun entry => key entry.1) items.zipIdx wanted).map Prod.snd

theorem lookupLast_eq_getElem {key : Item → Key} {items : List Item}
    {wanted : Key} :
    lookupLast key items wanted =
      (position key items wanted).bind (items[·]?) := by
  induction items using List.reverseRecOn with
  | nil => rfl
  | append_singleton items last ih =>
      rw [lookupLast_append_singleton, position, List.zipIdx_append,
        List.zipIdx_singleton, lookupLast_append_singleton]
      split
      · simp
      · rw [ih, position]
        cases hentry : lookupLast (fun entry => key entry.1) items.zipIdx
            wanted with
        | none => rfl
        | some entry =>
            obtain ⟨before, after, hitems, -, -⟩ :=
              lookupLast_eq_some_iff.mp hentry
            have hmem : entry ∈ items.zipIdx := by simp [hitems]
            have hlt := (List.mem_zipIdx hmem).2.1
            simp only [Option.map_some, Option.bind_some]
            rw [List.getElem?_append_left (by omega)]

/-- Every item is bound to its own key exactly when the keys are distinct. -/
theorem position_self_iff {key : Item → Key} {items : List Item} :
    (∀ index item, items[index]? = some item →
      position key items (key item) = some index) ↔
      (items.map key).Nodup := by
  constructor
  · intro hself
    rw [List.nodup_iff_getElem?_ne_getElem?]
    intro first second hlt hlength hsame
    rw [List.length_map] at hlength
    have hfirst := hself first _ (List.getElem?_eq_getElem (by omega))
    have hsecond := hself second _ (List.getElem?_eq_getElem hlength)
    simp only [List.getElem?_map, List.getElem?_eq_getElem hlength,
      List.getElem?_eq_getElem (show first < items.length by omega),
      Option.map_some, Option.some.injEq] at hsame
    rw [hsame, hsecond] at hfirst
    simp only [Option.some.injEq] at hfirst
    omega
  · intro hnodup index item hitem
    have hmem : (item, index) ∈ items.zipIdx := by
      rw [List.mem_zipIdx_iff_getElem?]
      exact hitem
    have hkeys : (items.zipIdx.map fun entry => key entry.1) =
        items.map key := by
      calc (items.zipIdx.map fun entry => key entry.1)
          = (items.zipIdx.map Prod.fst).map key := by
            simp only [List.map_map]
            rfl
        _ = items.map key := by rw [List.zipIdx_map_fst]
    have hlookup : lookupLast (fun entry => key entry.1) items.zipIdx
        (key item) = some (item, index) :=
      lookupLast_of_nodup (by rw [hkeys]; exact hnodup) hmem
    simp [position, hlookup]

/-! ## Assignment -/

section

variable {Value : Type*}

def assign (key : Key) (value : Value) :
    List (Key × Value) → List (Key × Value)
  | [] => [(key, value)]
  | (name, former) :: items =>
      if name = key then (name, value) :: items
      else (name, former) :: assign key value items

theorem map_fst_assign (key : Key) (value : Value) (items : List (Key × Value)) :
    (assign key value items).map Prod.fst =
      if key ∈ items.map Prod.fst then items.map Prod.fst
      else items.map Prod.fst ++ [key] := by
  induction items with
  | nil => simp [assign]
  | cons item items ih =>
      obtain ⟨name, former⟩ := item
      by_cases hname : name = key
      · simp [assign, hname]
      · have hne : key ≠ name := Ne.symm hname
        simp only [assign, if_neg hname, List.map_cons, ih, List.mem_cons,
          hne, false_or]
        split <;> simp

theorem nodup_assign {key : Key} {value : Value} {items : List (Key × Value)}
    (h : (items.map Prod.fst).Nodup) :
    ((assign key value items).map Prod.fst).Nodup := by
  rw [map_fst_assign]
  split
  · exact h
  · rename_i hnew
    rw [List.nodup_append]
    refine ⟨h, by simp, ?_⟩
    intro first hfirst last hlast
    rw [List.mem_singleton.mp hlast]
    rintro rfl
    exact hnew hfirst

theorem mem_map_fst_assign {key wanted : Key} {value : Value}
    {items : List (Key × Value)} :
    wanted ∈ (assign key value items).map Prod.fst ↔
      wanted = key ∨ wanted ∈ items.map Prod.fst := by
  rw [map_fst_assign]
  split
  · rename_i hmem
    constructor
    · exact .inr
    · rintro (rfl | hwanted)
      · exact hmem
      · exact hwanted
  · rw [List.mem_append, List.mem_singleton, or_comm]

theorem filter_assign_of_neg (asks : Key → Bool) {key : Key} {value : Value}
    (hkey : asks key = false) (items : List (Key × Value)) :
    (assign key value items).filter (fun entry => asks entry.1) =
      items.filter fun entry => asks entry.1 := by
  induction items with
  | nil => simp [assign, hkey]
  | cons item items ih =>
      obtain ⟨name, former⟩ := item
      by_cases hname : name = key
      · subst hname
        simp [assign, hkey]
      · simp only [assign, if_neg hname, List.filter_cons, ih]

theorem lookup_assign_eq (key wanted : Key) (value : Value)
    (items : List (Key × Value)) :
    (assign key value items).lookup wanted =
      if key = wanted then some value else items.lookup wanted := by
  induction items with
  | nil =>
      by_cases hkey : key = wanted
      · simp [assign, hkey]
      · have hne : (wanted == key) = false := by simpa using Ne.symm hkey
        simp [assign, List.lookup_cons, hkey, hne]
  | cons item items ih =>
      obtain ⟨name, former⟩ := item
      by_cases hname : name = key
      · subst hname
        by_cases hkey : name = wanted
        · simp [assign, hkey]
        · have hne : (wanted == name) = false := by simpa using Ne.symm hkey
          simp [assign, List.lookup_cons, hkey, hne]
      · simp only [assign, if_neg hname, List.lookup_cons, ih]
        split
        · rename_i hwanted
          rw [if_neg]
          rintro rfl
          exact hname (eq_of_beq hwanted).symm
        · rfl

theorem mem_assign_iff {key : Key} {value : Value} {items : List (Key × Value)}
    (h : (items.map Prod.fst).Nodup) {entry : Key × Value} :
    entry ∈ assign key value items ↔
      entry = (key, value) ∨ (entry ∈ items ∧ entry.1 ≠ key) := by
  induction items with
  | nil => simp [assign]
  | cons item items ih =>
      obtain ⟨name, former⟩ := item
      rw [List.map_cons, List.nodup_cons] at h
      by_cases hname : name = key
      · subst hname
        have hrest : ∀ other ∈ items, other.1 ≠ name := by
          intro other hother heq
          exact h.1 (List.mem_map.mpr ⟨other, hother, heq⟩)
        simp only [assign, if_true, List.mem_cons]
        constructor
        · rintro (rfl | hmem)
          · exact .inl rfl
          · exact .inr ⟨.inr hmem, hrest entry hmem⟩
        · rintro (rfl | ⟨rfl | hmem, hne⟩)
          · exact .inl rfl
          · exact absurd rfl hne
          · exact .inr hmem
      · simp only [assign, if_neg hname, List.mem_cons, ih h.2]
        constructor
        · rintro (rfl | rfl | ⟨hmem, hne⟩)
          · exact .inr ⟨.inl rfl, hname⟩
          · exact .inl rfl
          · exact .inr ⟨.inr hmem, hne⟩
        · rintro (rfl | ⟨rfl | hmem, hne⟩)
          · exact .inr (.inl rfl)
          · exact .inl rfl
          · exact .inr (.inr ⟨hmem, hne⟩)

/-! ## Update -/

def update (base items : List (Key × Value)) : List (Key × Value) :=
  items.foldl (fun entries item => assign item.1 item.2 entries) base

variable {base items : List (Key × Value)}

theorem nodup_update (h : (base.map Prod.fst).Nodup) :
    ((update base items).map Prod.fst).Nodup := by
  induction items generalizing base with
  | nil => exact h
  | cons item items ih => exact ih (nodup_assign h)

theorem mem_of_mem_update (h : (base.map Prod.fst).Nodup)
    {entry : Key × Value} (hentry : entry ∈ update base items) :
    entry ∈ base ∨ entry ∈ items := by
  induction items generalizing base with
  | nil => exact .inl hentry
  | cons item items ih =>
      obtain hbase | hitems := ih (nodup_assign h) hentry
      · rcases (mem_assign_iff h).mp hbase with rfl | ⟨hbase, -⟩
        · exact .inr List.mem_cons_self
        · exact .inl hbase
      · exact .inr (List.mem_cons_of_mem _ hitems)

theorem mem_map_fst_update {wanted : Key} :
    wanted ∈ (update base items).map Prod.fst ↔
      wanted ∈ base.map Prod.fst ∨ wanted ∈ items.map Prod.fst := by
  induction items generalizing base with
  | nil => simp [update]
  | cons item items ih =>
      have hstep : update base (item :: items) =
          update (assign item.1 item.2 base) items := rfl
      rw [hstep, ih, mem_map_fst_assign, List.map_cons, List.mem_cons]
      tauto

theorem lookup_update (hnodup : (items.map Prod.fst).Nodup) (wanted : Key) :
    (update base items).lookup wanted =
      (items.lookup wanted).or (base.lookup wanted) := by
  induction items generalizing base with
  | nil => rfl
  | cons item items ih =>
      obtain ⟨key, value⟩ := item
      rw [List.map_cons, List.nodup_cons] at hnodup
      have hstep : update base ((key, value) :: items) =
          update (assign key value base) items := rfl
      rw [hstep, ih hnodup.2, lookup_assign_eq, List.lookup_cons]
      by_cases hkey : key = wanted
      · subst hkey
        have hnone : items.lookup key = none := by
          rw [List.lookup_eq_none_iff]
          intro other hother
          rw [bne_iff_ne]
          rintro rfl
          exact hnodup.1 (List.mem_map.mpr ⟨other, hother, rfl⟩)
        simp [hnone]
      · have hne : (wanted == key) = false := by simpa using Ne.symm hkey
        simp [hkey, hne]

theorem mem_of_lookup {key : Key} {value : Value}
    (h : items.lookup key = some value) : (key, value) ∈ items := by
  obtain ⟨before, after, rfl, -⟩ := List.lookup_eq_some_iff.mp h
  simp

theorem lookup_of_nodup (hnodup : (items.map Prod.fst).Nodup)
    {entry : Key × Value} (hmem : entry ∈ items) :
    items.lookup entry.1 = some entry.2 := by
  induction items with
  | nil => cases hmem
  | cons item items ih =>
      obtain ⟨key, value⟩ := item
      rw [List.map_cons, List.nodup_cons] at hnodup
      rcases List.mem_cons.mp hmem with rfl | hrest
      · simp
      · have hne : (entry.1 == key) = false := by
          rw [beq_eq_false_iff_ne]
          rintro rfl
          exact hnodup.1 (List.mem_map.mpr ⟨entry, hrest, rfl⟩)
        rw [List.lookup_cons, hne]
        exact ih hnodup.2 hrest

theorem filter_update_of_neg (asks : Key → Bool)
    (h : ∀ item ∈ items, asks item.1 = false) :
    (update base items).filter (fun entry => asks entry.1) =
      base.filter fun entry => asks entry.1 := by
  induction items generalizing base with
  | nil => rfl
  | cons item items ih =>
      obtain ⟨hitem, hitems⟩ := List.forall_mem_cons.mp h
      have hstep : update base (item :: items) =
          update (assign item.1 item.2 base) items := rfl
      rw [hstep, ih hitems, filter_assign_of_neg asks hitem]

end

end Flydocs.Foundation
