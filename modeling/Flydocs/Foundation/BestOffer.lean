import Flydocs.Foundation.Dictionary
import Flydocs.Foundation.FirstGreatest

/-!
# A dictionary of best offers

Offers come in one after the other, and a key holds the first of the greatest
ones it has been offered.  Two rounds of offers, each in an order of its own,
leave the same in every order exactly when the round that decides has one best
offer only.
-/

namespace Flydocs.Foundation

variable {Key Item Score : Type*} [DecidableEq Key] [LinearOrder Score]

/-! ## One key -/

section

variable (score : Item → Score)

def keepBetter (best : Option Item) (item : Item) : Option Item :=
  match best with
  | none => some item
  | some former =>
      if score former < score item then some item else some former

theorem foldl_keepBetter (items : List Item) :
    items.foldl (keepBetter score) none = items.argmax score := by
  unfold List.argmax
  congr 1
  funext best item
  cases best <;> rfl

end

/-! ## The dictionary -/

/-- `entries.get(key)` of a dictionary that binds some keys to `None`. -/
def held (entries : List (Key × Option Item)) (key : Key) : Option Item :=
  (entries.lookup key).join

def offer (score : Item → Score) (entries : List (Key × Option Item))
    (offered : Key × Item) : List (Key × Option Item) :=
  match held entries offered.1 with
  | none => assign offered.1 (some offered.2) entries
  | some former =>
      if score former < score offered.2 then
        assign offered.1 (some offered.2) entries
      else entries

def offersFor (wanted : Key) (offers : List (Key × Item)) : List Item :=
  offers.filterMap fun offered =>
    if offered.1 = wanted then some offered.2 else none

section

variable {score : Item → Score} {entries : List (Key × Option Item)}
  {offers : List (Key × Item)}

theorem offersFor_cons (wanted : Key) (offered : Key × Item) :
    offersFor wanted (offered :: offers) =
      if offered.1 = wanted then offered.2 :: offersFor wanted offers
      else offersFor wanted offers := by
  unfold offersFor
  rw [List.filterMap_cons]
  split
  · rename_i hnone
    rw [if_neg (by simpa using hnone)]
  · rename_i item hsome
    split at hsome
    · rename_i hkey
      cases hsome
      rw [if_pos hkey]
    · cases hsome

theorem mem_offersFor {wanted : Key} {item : Item} :
    item ∈ offersFor wanted offers ↔ (wanted, item) ∈ offers := by
  simp only [offersFor, List.mem_filterMap, Prod.exists]
  constructor
  · rintro ⟨key, other, hmem, h⟩
    split at h
    · rename_i hkey
      cases h
      exact hkey ▸ hmem
    · cases h
  · intro hmem
    exact ⟨wanted, item, hmem, if_pos rfl⟩

theorem mem_of_held {key : Key} {item : Item}
    (h : held entries key = some item) : (key, some item) ∈ entries :=
  mem_of_lookup (Option.join_eq_some_iff.mp h)

theorem mem_keys_of_held {key : Key} {item : Item}
    (h : held entries key = some item) : key ∈ entries.map Prod.fst :=
  List.mem_map.mpr ⟨_, mem_of_held h, rfl⟩

theorem lookup_eq_held (entries : List (Key × Option Item)) (wanted : Key) :
    entries.lookup wanted =
      if wanted ∈ entries.map Prod.fst then some (held entries wanted)
      else none := by
  cases hlookup : entries.lookup wanted with
  | none =>
      rw [if_neg]
      intro hmem
      obtain ⟨entry, hentry, rfl⟩ := List.mem_map.mp hmem
      simpa using List.lookup_eq_none_iff.mp hlookup entry hentry
  | some value =>
      have hmem : wanted ∈ entries.map Prod.fst :=
        List.mem_map.mpr ⟨_, mem_of_lookup hlookup, rfl⟩
      rw [if_pos hmem, held, hlookup]
      rfl

theorem held_offer (offered : Key × Item) (wanted : Key) :
    held (offer score entries offered) wanted =
      if offered.1 = wanted then
        keepBetter score (held entries wanted) offered.2
      else held entries wanted := by
  obtain ⟨key, item⟩ := offered
  have hassign : held (assign key (some item) entries) wanted =
      if key = wanted then some item else held entries wanted := by
    unfold held
    rw [lookup_assign_eq]
    split <;> rfl
  by_cases hkey : key = wanted
  · subst hkey
    rw [if_pos rfl] at hassign ⊢
    unfold offer
    simp only
    cases hheld : held entries key with
    | none => simpa [keepBetter] using hassign
    | some former =>
        simp only [keepBetter]
        split
        · exact hassign
        · exact hheld
  · rw [if_neg hkey] at hassign ⊢
    unfold offer
    simp only
    split
    · exact hassign
    · split
      · exact hassign
      · rfl

theorem held_foldl_offer (wanted : Key) :
    held (offers.foldl (offer score) entries) wanted =
      (offersFor wanted offers).foldl (keepBetter score)
        (held entries wanted) := by
  induction offers generalizing entries with
  | nil => rfl
  | cons offered offers ih =>
      rw [List.foldl_cons, ih, held_offer, offersFor_cons]
      by_cases hkey : offered.1 = wanted
      · simp only [hkey, if_true, List.foldl_cons]
      · simp only [hkey, if_false]

theorem mem_keys_offer {offered : Key × Item} {wanted : Key} :
    wanted ∈ (offer score entries offered).map Prod.fst ↔
      wanted ∈ entries.map Prod.fst ∨ wanted = offered.1 := by
  unfold offer
  split
  · rw [mem_map_fst_assign, or_comm]
  · rename_i former hformer
    split
    · rw [mem_map_fst_assign, or_comm]
    · constructor
      · exact .inl
      · rintro (hmem | rfl)
        · exact hmem
        · exact mem_keys_of_held hformer

theorem nodup_foldl_offer (h : (entries.map Prod.fst).Nodup) :
    ((offers.foldl (offer score) entries).map Prod.fst).Nodup := by
  induction offers generalizing entries with
  | nil => exact h
  | cons offered offers ih =>
      refine ih ?_
      unfold offer
      split
      · exact nodup_assign h
      · split
        · exact nodup_assign h
        · exact h

theorem mem_keys_foldl_offer {wanted : Key} :
    wanted ∈ (offers.foldl (offer score) entries).map Prod.fst ↔
      wanted ∈ entries.map Prod.fst ∨ offersFor wanted offers ≠ [] := by
  induction offers generalizing entries with
  | nil => simp [offersFor]
  | cons offered offers ih =>
      rw [List.foldl_cons, ih, mem_keys_offer, offersFor_cons]
      by_cases hkey : offered.1 = wanted
      · simp [hkey]
      · simp [hkey, Ne.symm hkey]

end

/-! ## Two rounds -/

section

variable {Caller Found : Type*} {find : Caller → Option Found}

def Agree (find : Caller → Option Found) (callers : List Caller) : Prop :=
  ∀ first ∈ callers, ∀ second ∈ callers, ∀ found found',
    find first = some found → find second = some found' → found = found'

theorem findSome?_perm_iff_agree (callers : List Caller) :
    (∀ arranged : List Caller, arranged.Perm callers →
      arranged.findSome? find = callers.findSome? find) ↔
      Agree find callers := by
  have h : (∀ arranged : List Caller, arranged.Perm callers →
      (arranged.findSome? find).map id = (callers.findSome? find).map id) ↔
      Agree find callers := findSome?_perm_iff callers
  simpa using h

theorem findSome?_eq_none_of_perm {callers arranged : List Caller}
    (hperm : arranged.Perm callers) :
    arranged.findSome? find = none ↔ callers.findSome? find = none := by
  simp only [List.findSome?_eq_none_iff, hperm.mem_iff]

/-- The second round decides only where nothing is found in the first. -/
theorem findSome?_or_perm_iff (first second : List Caller) :
    (∀ first' second' : List Caller, first'.Perm first → second'.Perm second →
      (first'.findSome? find).or (second'.findSome? find) =
        (first.findSome? find).or (second.findSome? find)) ↔
      Agree find first ∧
        ((∀ caller ∈ first, find caller = none) → Agree find second) := by
  rw [← List.findSome?_eq_none_iff]
  cases hfirst : first.findSome? find with
  | none =>
      have hagree : Agree find first := by
        intro caller hcaller _ _ found _ hfound
        rw [List.findSome?_eq_none_iff] at hfirst
        rw [hfirst caller hcaller] at hfound
        cases hfound
      simp only [Option.none_or, forall_const, hagree, true_and]
      rw [← findSome?_perm_iff_agree]
      constructor
      · intro h second' hsecond
        have hor := h first second' (List.Perm.refl _) hsecond
        rwa [hfirst, Option.none_or] at hor
      · intro h first' second' hfirst' hsecond
        rw [(findSome?_eq_none_of_perm hfirst').mpr hfirst, Option.none_or]
        exact h second' hsecond
  | some found =>
      simp only [Option.some_or, reduceCtorEq, false_implies, and_true]
      rw [← findSome?_perm_iff_agree, hfirst]
      constructor
      · intro h first' hfirst'
        have hor := h first' second hfirst' (List.Perm.refl _)
        cases hfind : first'.findSome? find with
        | none =>
            rw [(findSome?_eq_none_of_perm hfirst').mp hfind] at hfirst
            cases hfirst
        | some other =>
            rw [hfind, Option.some_or] at hor
            exact hor
      · intro h first' second' hfirst' _
        rw [h first' hfirst', Option.some_or]

end

end Flydocs.Foundation
