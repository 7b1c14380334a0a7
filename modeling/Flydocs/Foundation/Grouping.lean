import Flydocs.Foundation.Dictionary

/-!
# Dictionaries of lists

`grouped key values items` extends, for one item after the other, the list that
is kept under the key of the item.  Under each key then stand the values of the
items of that key, in their order.
-/

namespace Flydocs.Foundation

variable {Key Value Item Row : Type*} [DecidableEq Key]

def listAt (entries : List (Key × List Value)) (key : Key) : List Value :=
  (entries.lookup key).getD []

/-- `entries.setdefault(key, []).extend(values)`. -/
def extend (key : Key) (values : List Value)
    (entries : List (Key × List Value)) : List (Key × List Value) :=
  assign key (listAt entries key ++ values) entries

def grouped (key : Item → Key) (values : Item → List Value)
    (items : List Item) : List (Key × List Value) :=
  items.foldl (fun entries item => extend (key item) (values item) entries) []

theorem listAt_extend (key wanted : Key) (values : List Value)
    (entries : List (Key × List Value)) :
    listAt (extend key values entries) wanted =
      listAt entries wanted ++ if key = wanted then values else [] := by
  unfold listAt extend
  rw [lookup_assign_eq]
  by_cases hkey : key = wanted
  · subst hkey
    simp [listAt]
  · simp [hkey]

theorem listAt_grouped (key : Item → Key) (values : Item → List Value)
    (items : List Item) (wanted : Key) :
    listAt (grouped key values items) wanted =
      (items.filter fun item => key item = wanted).flatMap values := by
  have hloop : ∀ (items : List Item) (entries : List (Key × List Value)),
      listAt (items.foldl (fun entries item =>
          extend (key item) (values item) entries) entries) wanted =
        listAt entries wanted ++
          (items.filter fun item => key item = wanted).flatMap values := by
    intro items
    induction items with
    | nil => simp
    | cons item items ih =>
        intro entries
        rw [List.foldl_cons, ih, listAt_extend, List.append_assoc,
          List.filter_cons]
        by_cases hkey : key item = wanted <;> simp [hkey]
  exact hloop items []

/-! ## Questions about one key -/

theorem filter_flatMap_of_lookup {entries : List (Key × Value)}
    (hnodup : (entries.map Prod.fst).Nodup) {key : Key} {value : Value}
    (hlookup : entries.lookup key = some value) (rows : Key × Value → List Row)
    (asks : Row → Bool)
    (hother : ∀ entry, entry.1 ≠ key → (rows entry).filter asks = []) :
    (entries.flatMap rows).filter asks = (rows (key, value)).filter asks := by
  obtain ⟨before, after, rfl, hbefore⟩ :=
    List.lookup_eq_some_iff.mp hlookup
  rw [List.map_append, List.map_cons, List.nodup_append,
    List.nodup_cons] at hnodup
  have hsilent : ∀ part : List (Key × Value), (∀ entry ∈ part, entry.1 ≠ key) →
      (part.flatMap rows).filter asks = [] := by
    intro part hpart
    rw [List.filter_flatMap, List.flatMap_eq_nil_iff]
    exact fun entry hentry => hother entry (hpart entry hentry)
  rw [List.flatMap_append, List.filter_append, List.flatMap_cons,
    List.filter_append, hsilent before, hsilent after, List.nil_append,
    List.append_nil]
  · rintro entry hentry rfl
    exact hnodup.2.1.1 (List.mem_map.mpr ⟨entry, hentry, rfl⟩)
  · intro entry hentry hkey
    simpa [hkey] using hbefore entry hentry

theorem filter_eq_singleton_of_nodup {key : Item → Key} {items : List Item}
    (hnodup : (items.map key).Nodup) {item : Item} (hmem : item ∈ items) :
    (items.filter fun other => key other = key item) = [item] := by
  obtain ⟨before, after, rfl⟩ := List.append_of_mem hmem
  rw [List.map_append, List.map_cons, List.nodup_append,
    List.nodup_cons] at hnodup
  obtain ⟨-, ⟨hafter, -⟩, hbefore⟩ := hnodup
  have hnone : (after.filter fun other => key other = key item) = [] := by
    refine List.filter_eq_nil_iff.mpr fun other hother hkey => hafter ?_
    rw [← of_decide_eq_true hkey]
    exact List.mem_map_of_mem hother
  have hfirst : (before.filter fun other => key other = key item) = [] := by
    refine List.filter_eq_nil_iff.mpr fun other hother hkey => ?_
    exact hbefore _ (List.mem_map_of_mem hother) _ List.mem_cons_self
      (of_decide_eq_true hkey)
  rw [List.filter_append, List.filter_cons, hnone, hfirst]
  simp

theorem forall₂_filter_flatMap {Fits : Item → Row → Prop} {items : List Item}
    {keeps : Item → Bool} {rows : Item → List Row}
    (hkept : ∀ item ∈ items, keeps item = true →
      ∃ row, rows item = [row] ∧ Fits item row)
    (hleft : ∀ item ∈ items, keeps item = false → rows item = []) :
    List.Forall₂ Fits (items.filter keeps) (items.flatMap rows) := by
  induction items with
  | nil => exact .nil
  | cons item items ih =>
      obtain ⟨hkeptItem, hkeptRest⟩ := List.forall_mem_cons.mp hkept
      obtain ⟨hleftItem, hleftRest⟩ := List.forall_mem_cons.mp hleft
      have hrest := ih hkeptRest hleftRest
      rw [List.filter_cons, List.flatMap_cons]
      cases hkeeps : keeps item with
      | false =>
          rw [hleftItem hkeeps]
          exact hrest
      | true =>
          obtain ⟨row, hrow, hfits⟩ := hkeptItem hkeeps
          rw [hrow]
          exact .cons hfits hrest

end Flydocs.Foundation
