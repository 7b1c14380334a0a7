import Mathlib.Data.List.Basic
import Mathlib.Order.Lattice

/-!
# Ranges laid edge to edge
-/

namespace Flydocs.Foundation

variable {Point : Type*} [LinearOrder Point]

/-- The ranges lead from the left edge to the right one, and none is empty. -/
inductive Tiles : Point → List (Point × Point) → Point → Prop
  | nil (edge : Point) : Tiles edge [] edge
  | cons {left edge right : Point} {ranges : List (Point × Point)}
      (hlt : left < edge) (hrest : Tiles edge ranges right) :
      Tiles left ((left, edge) :: ranges) right

namespace Tiles

variable {left right : Point} {ranges : List (Point × Point)}

theorem le (h : Tiles left ranges right) : left ≤ right := by
  induction h with
  | nil edge => exact le_rfl
  | cons hlt _ ih => exact hlt.le.trans ih

theorem bounds (h : Tiles left ranges right) :
    ∀ range ∈ ranges,
      left ≤ range.1 ∧ range.1 < range.2 ∧ range.2 ≤ right := by
  induction h with
  | nil edge => simp
  | cons hlt hrest ih =>
      refine List.forall_mem_cons.mpr ⟨⟨le_rfl, hlt, hrest.le⟩, ?_⟩
      intro range hrange
      obtain ⟨hleft, hrange, hright⟩ := ih range hrange
      exact ⟨hlt.le.trans hleft, hrange, hright⟩

theorem pairwise (h : Tiles left ranges right) :
    ranges.Pairwise fun first second => first.2 ≤ second.1 := by
  induction h with
  | nil edge => exact .nil
  | cons hlt hrest ih =>
      exact .cons (fun range hrange => (hrest.bounds range hrange).1) ih

theorem covers (h : Tiles left ranges right) (hlt : left < right)
    (point : Point) :
    (∃ range ∈ ranges, range.1 ≤ point ∧ point ≤ range.2) ↔
      left ≤ point ∧ point ≤ right := by
  constructor
  · rintro ⟨range, hrange, hlow, hhigh⟩
    obtain ⟨hleft, -, hright⟩ := h.bounds range hrange
    exact ⟨hleft.trans hlow, hhigh.trans hright⟩
  · rintro ⟨hlow, hhigh⟩
    induction h with
    | nil edge => exact absurd hlt (lt_irrefl edge)
    | @cons left edge right ranges hfirst hrest ih =>
        rcases le_or_gt point edge with hin | hout
        · exact ⟨(left, edge), List.mem_cons_self, hlow, hin⟩
        · obtain ⟨range, hrange, hpoint⟩ :=
            ih (hout.trans_le hhigh) hout.le hhigh
          exact ⟨range, List.mem_cons_of_mem _ hrange, hpoint⟩

theorem exists_edges (h : Tiles left ranges right) (hlt : left < right) :
    (∃ range ∈ ranges, range.1 = left) ∧
      ∃ range ∈ ranges, range.2 = right := by
  induction h with
  | nil edge => exact absurd hlt (lt_irrefl edge)
  | @cons left edge right ranges hfirst hrest ih =>
      refine ⟨⟨(left, edge), List.mem_cons_self, rfl⟩, ?_⟩
      rcases hrest.le.lt_or_eq with hmore | rfl
      · obtain ⟨range, hrange, hright⟩ := (ih hmore).2
        exact ⟨range, List.mem_cons_of_mem _ hrange, hright⟩
      · exact ⟨(left, edge), List.mem_cons_self, rfl⟩

end Tiles

end Flydocs.Foundation
