import Mathlib.Data.List.Basic
import Mathlib.Data.List.Infix
import Mathlib.Data.Prod.Lex

/-!
# Slices of a list

All runs of consecutive items whose length is among the sizes, by their start.
-/

namespace Flydocs.Foundation

variable {Item : Type*}

/-- Two nested loops, the inner one left at the first run past the end. -/
def slices (sizes : List Nat) (items : List Item) : List (List Item) :=
  (List.range items.length).flatMap fun start =>
    (sizes.takeWhile fun size => decide (start + size ≤ items.length)).map
      fun size => (items.drop start).take size

theorem mem_takeWhile_range'_iff {smallest count start bound size : Nat} :
    size ∈ (List.range' smallest count).takeWhile
        (fun size => decide (start + size ≤ bound)) ↔
      size ∈ List.range' smallest count ∧ start + size ≤ bound := by
  induction count generalizing smallest with
  | zero => simp
  | succ count ih =>
      rw [List.range'_succ, List.takeWhile_cons]
      split
      · rename_i hfirst
        rw [decide_eq_true_eq] at hfirst
        rw [List.mem_cons, ih, List.mem_cons, or_and_right]
        constructor
        · rintro (rfl | h)
          · exact .inl ⟨rfl, hfirst⟩
          · exact .inr h
        · rintro (⟨rfl, -⟩ | h)
          · exact .inl rfl
          · exact .inr h
      · rename_i hfirst
        rw [decide_eq_true_eq] at hfirst
        rw [← List.range'_succ, List.mem_range'_1]
        simp only [List.not_mem_nil, false_iff, not_and, not_le]
        omega

/-- The slices are the runs of consecutive items of one of the sizes. -/
theorem mem_slices_range'_iff {smallest count : Nat} (hsmallest : 0 < smallest)
    {items slice : List Item} :
    slice ∈ slices (List.range' smallest count) items ↔
      slice <:+: items ∧ slice.length ∈ List.range' smallest count := by
  simp only [slices, List.mem_flatMap, List.mem_range, List.mem_map,
    mem_takeWhile_range'_iff]
  constructor
  · rintro ⟨start, hstart, size, ⟨hsize, hle⟩, rfl⟩
    have hlength : ((items.drop start).take size).length = size := by
      rw [List.length_take, List.length_drop]
      omega
    exact ⟨(List.take_prefix _ _).isInfix.trans (List.drop_suffix _ _).isInfix,
      by rwa [hlength]⟩
  · rintro ⟨⟨before, after, rfl⟩, hsize⟩
    have hpos : 0 < slice.length :=
      hsmallest.trans_le (List.mem_range'_1.mp hsize).1
    refine ⟨before.length, ?_, slice.length, ⟨hsize, ?_⟩, ?_⟩
    · simp only [List.length_append]
      omega
    · simp only [List.length_append]
      omega
    · simp

/-! ## Positions -/

def spans (sizes : List Nat) (length : Nat) : List (Nat × Nat) :=
  (List.range length).flatMap fun start =>
    (sizes.takeWhile fun size => decide (start + size ≤ length)).map
      fun size => (start, size)

def sliceAt (items : List Item) (span : Nat × Nat) : List Item :=
  (items.drop span.1).take span.2

theorem slices_eq_map_spans (sizes : List Nat) (items : List Item) :
    slices sizes items = (spans sizes items.length).map (sliceAt items) := by
  simp only [slices, spans, List.map_flatMap, List.map_map]
  rfl

theorem mem_spans_range'_iff {smallest count length : Nat}
    (hsmallest : 0 < smallest) {span : Nat × Nat} :
    span ∈ spans (List.range' smallest count) length ↔
      span.2 ∈ List.range' smallest count ∧ span.1 + span.2 ≤ length := by
  obtain ⟨start, size⟩ := span
  simp only [spans, List.mem_flatMap, List.mem_range, List.mem_map,
    mem_takeWhile_range'_iff, Prod.mk.injEq]
  constructor
  · rintro ⟨_, -, _, hsize, rfl, rfl⟩
    exact hsize
  · rintro ⟨hsize, hle⟩
    have hpos := (List.mem_range'_1.mp hsize).1
    exact ⟨start, by omega, size, ⟨hsize, hle⟩, rfl, rfl⟩

theorem pairwise_spans {sizes : List Nat} (hsizes : sizes.Pairwise (· < ·))
    (length : Nat) :
    (spans sizes length).Pairwise fun first second =>
      toLex first < toLex second := by
  rw [spans, List.pairwise_flatMap]
  constructor
  · intro start _
    rw [List.pairwise_map]
    refine (hsizes.sublist (List.takeWhile_sublist _)).imp
      fun {first second} h => ?_
    exact Prod.Lex.toLex_lt_toLex.mpr (.inr ⟨rfl, h⟩)
  · refine List.pairwise_lt_range.imp fun {first second} h => ?_
    intro left hleft right hright
    obtain ⟨_, -, rfl⟩ := List.mem_map.mp hleft
    obtain ⟨_, -, rfl⟩ := List.mem_map.mp hright
    exact Prod.Lex.toLex_lt_toLex.mpr (.inl h)

end Flydocs.Foundation
