import Mathlib.Data.List.Rotate
import Flydocs.Foundation.Ties

/-!
# Pages of a sorted list

A list is read page by page, and every page is cut from an order of its own.
All that the orders have in common is the sort key: what they agree on is the
page of an item whose key has no tie across the end of a page.
-/

namespace Flydocs.Foundation

namespace SmallestFirst

variable {Item Key : Type*} [LinearOrder Key]

def page (size index : Nat) (arranged : List Item) : List Item :=
  (arranged.drop (index * size)).take size

/-- The pages that `orders` arrange, one after the other. -/
def pages (size count : Nat) (orders : Nat → List Item) : List Item :=
  (List.range count).flatMap fun index => page size index (orders index)

/-- The first and the last of the items with the key of this one stand on the
same page. -/
def OnOnePage (key : Item → Key) (items : List Item) (size : Nat)
    (item : Item) : Prop :=
  (lower key (key item) items).length / size =
    ((lower key (key item) items).length +
      (same key (key item) items).length - 1) / size

instance [DecidableEq Key] (key : Item → Key) (items : List Item) (size : Nat)
    (item : Item) : Decidable (OnOnePage key items size item) :=
  inferInstanceAs (Decidable (_ = _))

theorem mem_page_iff {size : Nat} (hsize : 0 < size) {index : Nat}
    {arranged : List Item} {item : Item} :
    item ∈ page size index arranged ↔
      ∃ position, arranged[position]? = some item ∧ position / size = index := by
  simp only [page, List.mem_iff_getElem?, List.getElem?_take,
    List.getElem?_drop]
  constructor
  · rintro ⟨offset, hoffset⟩
    split at hoffset
    · rename_i hlt
      refine ⟨_, hoffset, ?_⟩
      rw [Nat.add_comm, Nat.add_mul_div_right _ _ hsize, Nat.div_eq_of_lt hlt,
        Nat.zero_add]
    · cases hoffset
  · rintro ⟨position, hposition, rfl⟩
    refine ⟨position % size, ?_⟩
    rw [if_pos (Nat.mod_lt _ hsize), Nat.div_add_mod']
    exact hposition

theorem page_sublist (size index : Nat) (arranged : List Item) :
    (page size index arranged).Sublist arranged :=
  (List.take_sublist _ _).trans (List.drop_sublist _ _)

section

variable {key : Item → Key} {items arranged : List Item}

theorem exists_arranges (key : Item → Key) (items : List Item) :
    ∃ arranged, Arranges key items arranged := by
  refine ⟨items.insertionSort fun first second => key first ≤ key second,
    List.perm_insertionSort _ _, ?_⟩
  exact List.pairwise_insertionSort _ _

theorem Arranges.position_mem (h : Arranges key items arranged)
    {position : Nat} {item : Item} (hitem : arranged[position]? = some item) :
    (lower key (key item) items).length ≤ position ∧
      position < (lower key (key item) items).length +
        (same key (key item) items).length := by
  obtain ⟨hlt, rfl⟩ := List.getElem?_eq_some_iff.mp hitem
  have hcuts := cutsAt_getElem h.sorted hlt
  have hnext : arranged[position] ∈ arranged.drop position := by
    rw [List.drop_eq_getElem_cons hlt]
    exact List.mem_cons_self
  have hlower : (lower key (key arranged[position]) arranged).length =
      (lower key (key arranged[position]) items).length :=
    (h.perm.filter _).length_eq
  have hsame : (same key (key arranged[position]) arranged).length =
      (same key (key arranged[position]) items).length :=
    (h.perm.filter _).length_eq
  rw [← hlower, ← hsame]
  refine ⟨?_, hcuts.lt_length hnext rfl⟩
  rw [hcuts.length_lower]
  exact List.countP_le_length.trans (List.length_take_le _ _)

theorem Arranges.mem_page_iff (h : Arranges key items arranged) {size : Nat}
    (hsize : 0 < size) {item : Item} (hone : OnOnePage key items size item)
    {index : Nat} :
    item ∈ page size index arranged ↔
      item ∈ items ∧ (lower key (key item) items).length / size = index := by
  have hindex : ∀ position, arranged[position]? = some item →
      position / size = (lower key (key item) items).length / size := by
    intro position hposition
    obtain ⟨hlow, hhigh⟩ := h.position_mem hposition
    refine le_antisymm ?_ (Nat.div_le_div_right hlow)
    rw [show _ = _ from hone]
    exact Nat.div_le_div_right (by omega)
  rw [SmallestFirst.mem_page_iff hsize, ← h.perm.mem_iff,
    List.mem_iff_getElem?]
  constructor
  · rintro ⟨position, hposition, rfl⟩
    exact ⟨⟨position, hposition⟩, (hindex position hposition).symm⟩
  · rintro ⟨⟨position, hposition⟩, rfl⟩
    exact ⟨position, hposition, hindex position hposition⟩

theorem pages_perm_of_onOnePage (hnodup : items.Nodup) {size count : Nat}
    (hsize : 0 < size) (hcount : items.length ≤ count * size)
    (hone : ∀ item ∈ items, OnOnePage key items size item)
    {orders : Nat → List Item}
    (h : ∀ index, Arranges key items (orders index)) :
    (pages size count orders).Perm items := by
  have hmem : ∀ index item, item ∈ page size index (orders index) ↔
      item ∈ items ∧ (lower key (key item) items).length / size = index := by
    intro index item
    by_cases hitem : item ∈ items
    · exact (h index).mem_page_iff hsize (hone item hitem)
    · refine iff_of_false (fun hpage => hitem ?_) fun hin => hitem hin.1
      exact (h index).perm.mem_iff.mp ((page_sublist _ _ _).subset hpage)
  rw [List.perm_ext_iff_of_nodup _ hnodup]
  · intro item
    simp only [pages, List.mem_flatMap, List.mem_range, hmem]
    constructor
    · rintro ⟨index, -, hitem, -⟩
      exact hitem
    · intro hitem
      refine ⟨_, ?_, hitem, rfl⟩
      have hlt : (lower key (key item) items).length < items.length :=
        List.length_filter_lt_length_iff_exists.mpr ⟨item, hitem, by simp⟩
      exact Nat.div_lt_of_lt_mul (by rw [Nat.mul_comm]; omega)
  · rw [pages, List.nodup_flatMap]
    refine ⟨fun index _ => ((h index).perm.nodup_iff.mpr hnodup).sublist
      (page_sublist _ _ _), ?_⟩
    refine List.nodup_range.imp fun {first second} hne => ?_
    intro item hfirst hsecond
    exact hne (((hmem first item).mp hfirst).2.symm.trans
      ((hmem second item).mp hsecond).2)

theorem getElem?_middle (before after : List Item) {middle : List Item}
    {place : Nat} (hlt : place < middle.length) :
    (before ++ (middle ++ after))[before.length + place]? =
      some middle[place] := by
  rw [List.getElem?_append_right (by omega), Nat.add_sub_cancel_left,
    List.getElem?_append_left hlt, List.getElem?_eq_getElem hlt]

theorem exists_item_on_two_pages {size : Nat} (hsize : 0 < size) {bound : Key}
    (hstraddles : (lower key bound items).length / size <
      ((lower key bound items).length +
        (same key bound items).length - 1) / size) :
    ∃ before after item index, Arranges key items before ∧
      Arranges key items after ∧ item ∈ page size index before ∧
      item ∈ page size (index + 1) after := by
  obtain ⟨arranged, h⟩ := exists_arranges key items
  have hlower : (lower key bound arranged).length =
      (lower key bound items).length := (h.perm.filter _).length_eq
  have hsame : (same key bound arranged).length =
      (same key bound items).length := (h.perm.filter _).length_eq
  rw [← hlower, ← hsame] at hstraddles
  have hnext := Nat.lt_mul_div_succ (lower key bound arranged).length hsize
  have hlast := Nat.mul_le_of_le_div _ _ _ hstraddles
  rw [Nat.mul_comm, Nat.succ_eq_add_one] at hlast
  generalize hindex : (lower key bound arranged).length / size = index at *
  -- the place among the ties at which the next page begins
  obtain ⟨place, hplace⟩ : ∃ place, size * (index + 1) =
      (lower key bound arranged).length + (place + 1) :=
    ⟨size * (index + 1) - (lower key bound arranged).length - 1, by omega⟩
  have hlt : place + 1 < (same key bound arranged).length := by omega
  have hafter : arranged[size * (index + 1)]? =
      some (same key bound arranged)[place + 1] := by
    have hsplit := sorted_split h.sorted bound
    calc arranged[size * (index + 1)]?
        = (lower key bound arranged ++ (same key bound arranged ++
            higher key bound arranged))[size * (index + 1)]? := by
          rw [← hsplit]
      _ = some (same key bound arranged)[place + 1] := by
          rw [hplace, getElem?_middle _ _ hlt]
  have hbefore : (lower key bound arranged ++
      ((same key bound arranged).rotate 1 ++
        higher key bound arranged))[size * (index + 1) - 1]? =
      some (same key bound arranged)[place + 1] := by
    have hrotated : place < ((same key bound arranged).rotate 1).length := by
      rw [List.length_rotate]
      omega
    rw [hplace, ← Nat.add_assoc, Nat.add_sub_cancel,
      getElem?_middle _ _ hrotated]
    simp only [List.getElem_rotate, Nat.mod_eq_of_lt hlt]
  have hexchange := h.exchange
    (List.rotate_perm (same key bound arranged) 1)
  refine ⟨_, arranged, (same key bound arranged)[place + 1], index,
    hexchange, h, ?_, ?_⟩
  · refine (mem_page_iff hsize).mpr ⟨_, hbefore, ?_⟩
    have hmul : size * (index + 1) = size * index + size := Nat.mul_succ _ _
    refine Nat.div_eq_of_lt_le ?_ ?_
    · rw [Nat.mul_comm index]
      omega
    · rw [Nat.mul_comm (index + 1)]
      omega
  · refine (mem_page_iff hsize).mpr ⟨_, hafter, ?_⟩
    exact Nat.mul_div_cancel_left _ hsize

/-- A tie across the end of a page lets some orders repeat an item. -/
theorem onOnePage_of_nodup_pages {size : Nat} (hsize : 0 < size)
    (hpages : ∀ orders : Nat → List Item,
      (∀ index, Arranges key items (orders index)) →
      ∀ count, items.length ≤ count * size →
        (pages size count orders).Nodup) :
    ∀ item ∈ items, OnOnePage key items size item := by
  intro item hitem
  by_contra hone
  have hpos : 0 < (same key (key item) items).length :=
    List.length_pos_of_mem (List.mem_filter.mpr ⟨hitem, by simp⟩)
  have hle : (lower key (key item) items).length / size ≤
      ((lower key (key item) items).length +
        (same key (key item) items).length - 1) / size :=
    Nat.div_le_div_right (by omega)
  obtain ⟨before, after, twice, index, hbefore, hafter, hmem, hmem'⟩ :=
    exists_item_on_two_pages hsize (lt_of_le_of_ne hle hone)
  have harranges : ∀ other, Arranges key items
      (if other = index then before else after) := by
    intro other
    split
    · exact hbefore
    · exact hafter
  have hcount : items.length ≤ (items.length + index + 2) * size :=
    (by omega : _ ≤ items.length + index + 2).trans
      (Nat.le_mul_of_pos_right _ hsize)
  have hdisjoint := hpages _ harranges _ hcount
  rw [pages, List.nodup_flatMap, List.pairwise_iff_getElem] at hdisjoint
  have htwice := hdisjoint.2 index (index + 1)
    (by rw [List.length_range]; omega) (by rw [List.length_range]; omega)
    (Nat.lt_succ_self index)
  simp only [Function.onFun, List.getElem_range, if_true,
    Nat.succ_ne_self, if_false] at htwice
  exact htwice hmem hmem'

end

end SmallestFirst

end Flydocs.Foundation
