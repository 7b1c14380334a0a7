import Flydocs.Foundation.SmallestFirst

/-!
# Ties

Items are dropped in the order of their keys until the rest fits.  Items of one
key may stand in any order; whether that makes a difference to what is kept is
decided by the items of the key at which the drops end.
-/

namespace Flydocs.Foundation

namespace SmallestFirst

variable {Item Key : Type*} [LinearOrder Key]

structure Arranges (key : Item → Key) (items arranged : List Item) : Prop where
  perm : arranged.Perm items
  sorted : arranged.Pairwise fun first second => key first ≤ key second

/-- Of a key that some dropped item shares with a kept one, there are no two
different items. -/
def Untied (key : Item → Key) (items arranged : List Item) (count : Nat) :
    Prop :=
  ∀ dropped ∈ arranged.take count, ∀ kept ∈ arranged.drop count,
    key dropped = key kept → ∀ first ∈ items, ∀ second ∈ items,
      key first = key dropped → key second = key dropped → first = second

/-! ## The items of one key -/

section

variable (key : Item → Key)

def lower (bound : Key) (items : List Item) : List Item :=
  items.filter fun item => key item < bound

def same (bound : Key) (items : List Item) : List Item :=
  items.filter fun item => key item = bound

def higher (bound : Key) (items : List Item) : List Item :=
  items.filter fun item => bound < key item

end

section

variable {key : Item → Key} {items arranged : List Item} {count : Nat}

theorem sorted_split
    (hsorted : arranged.Pairwise fun first second => key first ≤ key second)
    (bound : Key) :
    arranged = lower key bound arranged ++
      (same key bound arranged ++ higher key bound arranged) := by
  unfold lower same higher
  induction arranged with
  | nil => rfl
  | cons item arranged ih =>
      obtain ⟨hitem, hsorted⟩ := List.pairwise_cons.mp hsorted
      have ih := ih hsorted
      have hnone : ∀ smaller : Item → Bool,
          (∀ other, smaller other = true → key other < key item) →
          arranged.filter smaller = [] := by
        intro smaller hsmaller
        rw [List.filter_eq_nil_iff]
        intro other hother hlt
        exact absurd (hsmaller other hlt) (hitem other hother).not_gt
      rcases lt_trichotomy (key item) bound with hlt | heq | hgt
      · simp only [List.filter_cons, hlt, hlt.ne, hlt.not_gt, decide_true,
          decide_false, if_true, Bool.false_eq_true, if_false, List.cons_append]
        rw [← ih]
      · have hsmaller := hnone (fun other => key other < bound)
          (by simp [heq])
        rw [hsmaller, List.nil_append] at ih
        simp only [List.filter_cons, heq, lt_irrefl, decide_true, decide_false,
          if_true, Bool.false_eq_true, if_false, hsmaller, List.nil_append,
          List.cons_append]
        rw [← ih]
      · have hsmaller := hnone (fun other => key other < bound)
          (fun other hother => (of_decide_eq_true hother).trans hgt)
        have hsame := hnone (fun other => key other = bound)
          (fun other hother => (of_decide_eq_true hother).symm ▸ hgt)
        rw [hsmaller, hsame, List.nil_append, List.nil_append] at ih
        simp only [List.filter_cons, hgt, hgt.ne', hgt.not_gt, decide_true,
          decide_false, if_true, Bool.false_eq_true, if_false, hsmaller, hsame,
          List.nil_append]
        rw [← ih]

theorem eq_of_drop_perm (hpos : 0 < count)
    (hlt : count < items.length)
    (h : ∀ arranged : List Item, arranged.Perm items →
      (arranged.drop count).Perm (items.drop count))
    {first second : Item} (hfirst : first ∈ items) (hsecond : second ∈ items) :
    first = second := by
  classical
  by_contra hne
  have hmem : second ∈ items.erase first :=
    (List.mem_erase_of_ne (Ne.symm hne)).mpr hsecond
  obtain ⟨rest, hrest⟩ : ∃ rest, items.Perm (first :: second :: rest) :=
    ⟨_, (List.perm_cons_erase hfirst).trans
      ((List.perm_cons_erase hmem).cons first)⟩
  have hlength := hrest.length_eq
  simp only [List.length_cons] at hlength
  have htake : (rest.take (count - 1)).length = count - 1 := by
    rw [List.length_take]
    omega
  have hdrop : ∀ one other : Item,
      ((one :: rest.take (count - 1)) ++ other ::
        rest.drop (count - 1)).drop count = other :: rest.drop (count - 1) := by
    intro one other
    exact List.drop_left' (by rw [List.length_cons, htake]; omega)
  have hperm : ∀ one other : Item,
      (one :: other :: rest).Perm
        ((one :: rest.take (count - 1)) ++ other ::
          rest.drop (count - 1)) := by
    intro one other
    have hsplit := List.take_append_drop (count - 1) rest
    rw [List.cons_append]
    refine List.Perm.cons one (.trans ?_ List.perm_middle.symm)
    rw [hsplit]
  have hkept := h _ ((hperm first second).symm.trans hrest.symm)
  have hkept' := h _ ((hperm second first).symm.trans
    ((List.Perm.swap first second rest).trans hrest.symm))
  rw [hdrop] at hkept hkept'
  have hcount := (hkept.trans hkept'.symm).count_eq first
  simp [Ne.symm hne] at hcount

/-! ## Where the drops end -/

theorem drop_append_of_le {before middle after : List Item}
    (hlow : before.length ≤ count)
    (hhigh : count ≤ before.length + middle.length) :
    (before ++ (middle ++ after)).drop count =
      middle.drop (count - before.length) ++ after := by
  rw [List.drop_append, List.drop_eq_nil_of_le hlow, List.nil_append,
    List.drop_append_of_le_length (by omega)]

structure CutsAt (key : Item → Key) (bound : Key) (arranged : List Item)
    (count : Nat) : Prop where
  dropped : ∀ item ∈ arranged.take count, key item ≤ bound
  kept : ∀ item ∈ arranged.drop count, bound ≤ key item
  le_length : count ≤ arranged.length

theorem CutsAt.length_lower {bound : Key} (h : CutsAt key bound arranged count) :
    (lower key bound arranged).length =
      (arranged.take count).countP fun item => key item < bound := by
  have hkept : (arranged.drop count).countP (fun item => key item < bound) =
      0 := by
    rw [List.countP_eq_zero]
    intro item hitem
    simpa using h.kept item hitem
  rw [lower, ← List.countP_eq_length_filter]
  conv_lhs => rw [← List.take_append_drop count arranged]
  rw [List.countP_append, hkept, Nat.add_zero]

theorem CutsAt.length_le {bound : Key} (h : CutsAt key bound arranged count) :
    (lower key bound arranged).length + (same key bound arranged).length =
      count + (arranged.drop count).countP fun item => key item ≤ bound := by
  have hdropped : (arranged.take count).countP (fun item => key item ≤ bound) =
      count := by
    rw [List.countP_eq_length.mpr]
    · exact List.length_take_of_le h.le_length
    · intro item hitem
      simpa using h.dropped item hitem
  have hcount : ∀ items : List Item,
      (lower key bound items).length + (same key bound items).length =
        items.countP fun item => key item ≤ bound := by
    intro items
    induction items with
    | nil => rfl
    | cons item items ih =>
        rw [List.countP_cons, ← ih, lower, lower, same, same,
          List.filter_cons, List.filter_cons]
        rcases lt_trichotomy (key item) bound with hlt | heq | hgt
        · simp [hlt, hlt.ne, hlt.le]
          omega
        · simp [heq]
          omega
        · simp [hgt.not_gt, hgt.ne', hgt.not_ge]
  rw [hcount]
  conv_lhs => rw [← List.take_append_drop count arranged]
  rw [List.countP_append, hdropped]

theorem cutsAt_of_sorted (hsorted : arranged.Pairwise fun first second =>
      key first ≤ key second) {before after : Item}
    (hbefore : before ∈ arranged.take count)
    (hafter : after ∈ arranged.drop count) (heq : key before = key after) :
    CutsAt key (key after) arranged count := by
  rw [← List.take_append_drop count arranged, List.pairwise_append] at hsorted
  refine ⟨fun item hitem => hsorted.2.2 item hitem after hafter,
    fun item hitem => heq ▸ hsorted.2.2 before hbefore item hitem, ?_⟩
  by_contra hlong
  rw [List.drop_eq_nil_of_le (not_le.mp hlong).le] at hafter
  cases hafter

/-- The next item decides at which key the drops end. -/
theorem cutsAt_getElem (hsorted : arranged.Pairwise fun first second =>
      key first ≤ key second) (hlt : count < arranged.length) :
    CutsAt key (key arranged[count]) arranged count := by
  rw [← List.take_append_drop count arranged, List.drop_eq_getElem_cons hlt,
    List.pairwise_append, List.pairwise_cons] at hsorted
  obtain ⟨-, ⟨hnext, -⟩, hdropped⟩ := hsorted
  refine ⟨fun item hitem => hdropped item hitem _ List.mem_cons_self, ?_,
    hlt.le⟩
  intro item hitem
  rw [List.drop_eq_getElem_cons hlt] at hitem
  rcases List.mem_cons.mp hitem with rfl | hmem
  · exact le_rfl
  · exact hnext item hmem

theorem CutsAt.length_lower_lt_iff {bound : Key}
    (h : CutsAt key bound arranged count) :
    (lower key bound arranged).length < count ↔
      ∃ item ∈ arranged.take count, key item = bound := by
  have hlength := List.length_take_of_le h.le_length
  have hle : (arranged.take count).countP (fun item => key item < bound) ≤
      (arranged.take count).length := List.countP_le_length
  have hall : (arranged.take count).countP (fun item => key item < bound) =
      (arranged.take count).length ↔
      ∀ item ∈ arranged.take count, key item < bound := by
    simp only [List.countP_eq_length, decide_eq_true_eq]
  rw [h.length_lower]
  constructor
  · intro hlt
    by_contra hnone
    push Not at hnone
    have hcount := hall.mpr fun item hitem =>
      lt_of_le_of_ne (h.dropped item hitem) (hnone item hitem)
    omega
  · rintro ⟨item, hitem, heq⟩
    refine lt_of_lt_of_eq (lt_of_le_of_ne hle fun hcount => ?_) hlength
    exact (hall.mp hcount item hitem).ne heq

theorem CutsAt.lt_length {bound : Key} (h : CutsAt key bound arranged count)
    {kept : Item} (hkept : kept ∈ arranged.drop count) (hkey : key kept = bound) :
    count < (lower key bound arranged).length +
      (same key bound arranged).length := by
  rw [h.length_le]
  exact Nat.lt_add_of_pos_right
    (List.countP_pos_iff.mpr ⟨kept, hkept, by simp [hkey]⟩)

theorem CutsAt.drop_eq {bound : Key} (h : CutsAt key bound arranged count)
    (hsorted : arranged.Pairwise fun first second => key first ≤ key second) :
    arranged.drop count =
      (same key bound arranged).drop (count - (lower key bound arranged).length) ++
        higher key bound arranged := by
  have hlow : (lower key bound arranged).length ≤ count := by
    rw [h.length_lower]
    exact List.countP_le_length.trans (List.length_take_le _ _)
  conv_lhs => rw [sorted_split hsorted bound]
  exact drop_append_of_le hlow (h.length_le ▸ Nat.le_add_right _ _)

theorem Arranges.map_key (h : Arranges key items arranged) {other : List Item}
    (hother : Arranges key items other) :
    arranged.map key = other.map key := by
  have hfirst : (arranged.map key).Pairwise (· ≤ ·) :=
    List.pairwise_map.mpr h.sorted
  have hsecond : (other.map key).Pairwise (· ≤ ·) :=
    List.pairwise_map.mpr hother.sorted
  exact List.Perm.eq_of_pairwise' hfirst hsecond
    ((h.perm.trans hother.perm.symm).map key)

theorem CutsAt.of_map_key {bound : Key} (h : CutsAt key bound arranged count)
    {other : List Item} (hkeys : arranged.map key = other.map key) :
    CutsAt key bound other count := by
  constructor
  case dropped =>
    intro item hitem
    have hmem : key item ∈ (arranged.map key).take count := by
      rw [hkeys, ← List.map_take]
      exact List.mem_map_of_mem hitem
    rw [← List.map_take, List.mem_map] at hmem
    obtain ⟨dropped, hdropped, heq⟩ := hmem
    exact heq ▸ h.dropped dropped hdropped
  case kept =>
    intro item hitem
    have hmem : key item ∈ (arranged.map key).drop count := by
      rw [hkeys, ← List.map_drop]
      exact List.mem_map_of_mem hitem
    rw [← List.map_drop, List.mem_map] at hmem
    obtain ⟨kept, hkept, heq⟩ := hmem
    exact heq ▸ h.kept kept hkept
  case le_length =>
    have hlength := congrArg List.length hkeys
    rw [List.length_map, List.length_map] at hlength
    exact hlength ▸ h.le_length

theorem drop_perm_of_untied (h : Arranges key items arranged)
    (huntied : Untied key items arranged count) {other : List Item}
    (hother : Arranges key items other) :
    (arranged.drop count).Perm (other.drop count) := by
  have hperm : arranged.Perm other := h.perm.trans hother.perm.symm
  rcases le_or_gt arranged.length count with hle | hlt
  · rw [List.drop_eq_nil_of_le hle,
      List.drop_eq_nil_of_le (hperm.length_eq ▸ hle)]
  · have hcuts := cutsAt_getElem h.sorted hlt
    have hnext : arranged[count] ∈ arranged.drop count := by
      rw [List.drop_eq_getElem_cons hlt]
      exact List.mem_cons_self
    have hcuts' := hcuts.of_map_key (h.map_key hother)
    rw [hcuts.drop_eq h.sorted, hcuts'.drop_eq hother.sorted]
    have hlower : (lower key (key arranged[count]) arranged).length =
        (lower key (key arranged[count]) other).length :=
      (hperm.filter _).length_eq
    have hsame : (same key (key arranged[count]) arranged).Perm
        (same key (key arranged[count]) other) := hperm.filter _
    refine List.Perm.append ?_ (hperm.filter _)
    rw [← hlower]
    by_cases hzero : count ≤ (lower key (key arranged[count]) arranged).length
    · rw [Nat.sub_eq_zero_of_le hzero, List.drop_zero, List.drop_zero]
      exact hsame
    · -- Some item of the next key is dropped, so all of them are the same.
      obtain ⟨dropped, hdropped, hkey⟩ :=
        hcuts.length_lower_lt_iff.mp (not_le.mp hzero)
      have hequal : ∀ first ∈ same key (key arranged[count]) arranged,
          first = arranged[count] := by
        intro first hfirst
        obtain ⟨hmem, hfirstKey⟩ := List.mem_filter.mp hfirst
        refine huntied dropped hdropped _ hnext hkey first
          (h.perm.mem_iff.mp hmem) _
          (h.perm.mem_iff.mp (List.getElem_mem hlt)) ?_ hkey.symm
        rw [hkey]
        simpa using hfirstKey
      have hequal' : ∀ first ∈ same key (key arranged[count]) other,
          first = arranged[count] :=
        fun first hfirst => hequal first (hsame.mem_iff.mpr hfirst)
      rw [List.eq_replicate_of_mem hequal, List.eq_replicate_of_mem hequal',
        hsame.length_eq]

theorem Arranges.exchange (h : Arranges key items arranged) {bound : Key}
    {exchanged : List Item}
    (hperm : exchanged.Perm (same key bound arranged)) :
    Arranges key items
      (lower key bound arranged ++ (exchanged ++ higher key bound arranged)) := by
  have hsplit := sorted_split h.sorted bound
  constructor
  case perm =>
    refine List.Perm.trans ?_ h.perm
    conv_rhs => rw [hsplit]
    exact (hperm.append_right _).append_left _
  case sorted =>
    have hkeys : exchanged.map key = (same key bound arranged).map key := by
      have hbound : ∀ item ∈ same key bound arranged, key item = bound := by
        intro item hitem
        simpa using (List.mem_filter.mp hitem).2
      have hfirst : ∀ other ∈ exchanged.map key, other = bound := by
        intro other hother
        obtain ⟨item, hitem, rfl⟩ := List.mem_map.mp hother
        exact hbound item (hperm.mem_iff.mp hitem)
      have hsecond : ∀ other ∈ (same key bound arranged).map key,
          other = bound := by
        intro other hother
        obtain ⟨item, hitem, rfl⟩ := List.mem_map.mp hother
        exact hbound item hitem
      rw [List.eq_replicate_of_mem hfirst, List.eq_replicate_of_mem hsecond,
        List.length_map, List.length_map, hperm.length_eq]
    have hsorted : (arranged.map key).Pairwise (· ≤ ·) :=
      List.pairwise_map.mpr h.sorted
    rw [hsplit] at hsorted
    refine List.pairwise_map.mp (?_ : List.Pairwise (· ≤ ·) _)
    simpa only [List.map_append, hkeys] using hsorted

theorem drop_same_perm (halike : ∀ arranged other, Arranges key items arranged →
      Arranges key items other → (arranged.drop count).Perm (other.drop count))
    (h : Arranges key items arranged) {bound : Key}
    (hcuts : CutsAt key bound arranged count)
    (hlow : (lower key bound arranged).length ≤ count)
    {exchanged : List Item}
    (hexchanged : exchanged.Perm (same key bound arranged)) :
    (exchanged.drop (count - (lower key bound arranged).length)).Perm
      ((same key bound arranged).drop
        (count - (lower key bound arranged).length)) := by
  have hperm := halike _ _ (h.exchange hexchanged) h
  have hhigh := hcuts.length_le ▸ Nat.le_add_right count _
  rw [hcuts.drop_eq h.sorted,
    drop_append_of_le hlow (by rwa [hexchanged.length_eq])] at hperm
  exact (List.perm_append_right_iff _).mp hperm

theorem untied_of_forall_perm
    (halike : ∀ arranged other, Arranges key items arranged →
      Arranges key items other → (arranged.drop count).Perm (other.drop count))
    (h : Arranges key items arranged) :
    Untied key items arranged count := by
  intro dropped hdropped kept hkept hkey first hfirst second hsecond
    hfirstKey hsecondKey
  have hcuts := cutsAt_of_sorted h.sorted hdropped hkept hkey
  have hpos := hcuts.length_lower_lt_iff.mpr ⟨dropped, hdropped, hkey⟩
  have hlt := hcuts.lt_length hkept rfl
  have hmem : ∀ item ∈ items, key item = key dropped →
      item ∈ same key (key kept) arranged := by
    intro item hitem heq
    refine List.mem_filter.mpr ⟨h.perm.mem_iff.mpr hitem, ?_⟩
    simpa using heq.trans hkey
  exact eq_of_drop_perm (by omega) (by omega)
    (fun _ hexchanged => drop_same_perm halike h hcuts hpos.le hexchanged)
    (hmem first hfirst hfirstKey) (hmem second hsecond hsecondKey)

/--
Every order of the items keeps the same ones exactly when, in no order, the
drops end between two items of a key that different items have.
-/
theorem alike_iff_untied :
    (∀ arranged other, Arranges key items arranged →
      Arranges key items other →
      (arranged.drop count).Perm (other.drop count)) ↔
    ∀ arranged, Arranges key items arranged →
      Untied key items arranged count := by
  constructor
  · intro halike arranged h
    exact untied_of_forall_perm halike h
  · intro huntied arranged other h hother
    exact drop_perm_of_untied h (huntied arranged h) hother

end

end SmallestFirst

end Flydocs.Foundation
