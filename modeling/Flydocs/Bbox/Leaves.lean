import Flydocs.Dtos.Extracted

/-!
# The leaves of extracted groups

The leaves are the fields whose value is not a list, in the order in which a
walk comes to them.  `putLeaves` is the tree after its leaves have been changed
in place.
-/

namespace Flydocs

open Dtos

namespace Bbox

/-! ## Collecting and changing -/

mutual

def collectLeaves : ExtractedField → List ExtractedField
  | ⟨name, value, pages, confidence, bbox, validation, judge, notes, source⟩ =>
      match value with
      | .list items => collectAll items
      | value =>
          [⟨name, value, pages, confidence, bbox, validation, judge, notes,
            source⟩]

def collectAll : List ExtractedField → List ExtractedField
  | [] => []
  | item :: items => collectLeaves item ++ collectAll items

end

mutual

def putLeaves : ExtractedField → List ExtractedField → ExtractedField
  | ⟨name, value, pages, confidence, bbox, validation, judge, notes, source⟩,
      leaves =>
      match value with
      | .list items =>
          ⟨name, .list (putAll items leaves), pages, confidence, bbox,
            validation, judge, notes, source⟩
      | value =>
          leaves.headD ⟨name, value, pages, confidence, bbox, validation,
            judge, notes, source⟩

def putAll : List ExtractedField → List ExtractedField → List ExtractedField
  | [], _ => []
  | item :: items, leaves =>
      let count := (collectLeaves item).length
      putLeaves item (leaves.take count) :: putAll items (leaves.drop count)

end

/-! ## Everything but the boxes of leaves -/

def eraseBox (leaf : ExtractedField) : ExtractedField :=
  { leaf with bbox := none, pages := [] }

mutual

def eraseBoxes : ExtractedField → ExtractedField
  | ⟨name, value, pages, confidence, bbox, validation, judge, notes, source⟩ =>
      match value with
      | .list items =>
          ⟨name, .list (eraseAll items), pages, confidence, bbox, validation,
            judge, notes, source⟩
      | value =>
          ⟨name, value, [], confidence, none, validation, judge, notes, source⟩

def eraseAll : List ExtractedField → List ExtractedField
  | [] => []
  | item :: items => eraseBoxes item :: eraseAll items

end

/-- Changed in nothing but its box and its pages. -/
def SameLeaf (before after : ExtractedField) : Prop :=
  eraseBox before = eraseBox after

theorem SameLeaf.value_eq {before after : ExtractedField}
    (h : SameLeaf before after) : after.value = before.value :=
  (congrArg ExtractedField.value h).symm

theorem forall₂_sameLeaf_iff {before after : List ExtractedField} :
    List.Forall₂ SameLeaf before after ↔
      before.map eraseBox = after.map eraseBox := by
  rw [← List.forall₂_eq_eq_eq, List.forall₂_map_left_iff,
    List.forall₂_map_right_iff]
  rfl

def IsLeaf (field : ExtractedField) : Prop :=
  ∀ items, field.value ≠ .list items

theorem collectLeaves_of_isLeaf {field : ExtractedField}
    (h : IsLeaf field) : collectLeaves field = [field] := by
  obtain ⟨name, value, _⟩ := field
  cases value with
  | list items => exact absurd rfl (h items)
  | _ =>
      rw [collectLeaves]
      exact h

theorem eraseBoxes_of_isLeaf {field : ExtractedField} (h : IsLeaf field) :
    eraseBoxes field = eraseBox field := by
  obtain ⟨name, value, _⟩ := field
  cases value with
  | list items => exact absurd rfl (h items)
  | _ =>
      rw [eraseBoxes, eraseBox]
      exact h

theorem putLeaves_of_isLeaf {field leaf : ExtractedField}
    (h : IsLeaf field) : putLeaves field [leaf] = leaf := by
  obtain ⟨name, value, _⟩ := field
  cases value with
  | list items => exact absurd rfl (h items)
  | _ =>
      rw [putLeaves, List.headD_cons]
      exact h

theorem sameLeaf_split {first second leaves : List ExtractedField}
    (h : List.Forall₂ SameLeaf (first ++ second) leaves) :
    List.Forall₂ SameLeaf first (leaves.take first.length) ∧
      List.Forall₂ SameLeaf second (leaves.drop first.length) :=
  ⟨(List.forall₂_take_append _ _ _ h.flip).flip,
    (List.forall₂_drop_append _ _ _ h.flip).flip⟩

/-! ## A tree whose leaves have been changed -/

structure Put (before after : ExtractedField) (leaves : List ExtractedField) :
    Prop where
  erased : eraseBoxes after = eraseBoxes before
  leaves : collectLeaves after = leaves

theorem put_of_isLeaf {field : ExtractedField} {leaves : List ExtractedField}
    (hleaf : IsLeaf field)
    (h : List.Forall₂ SameLeaf (collectLeaves field) leaves) :
    Put field (putLeaves field leaves) leaves := by
  rw [collectLeaves_of_isLeaf hleaf] at h
  obtain ⟨leaf, rest, hsame, hrest, rfl⟩ := List.forall₂_cons_left_iff.mp h
  obtain rfl := List.forall₂_nil_left_iff.mp hrest
  have hafter : IsLeaf leaf := fun items => by
    rw [hsame.value_eq]
    exact hleaf items
  rw [putLeaves_of_isLeaf hleaf]
  constructor
  · rw [eraseBoxes_of_isLeaf hafter, eraseBoxes_of_isLeaf hleaf]
    exact hsame.symm
  · exact collectLeaves_of_isLeaf hafter

mutual

theorem put_putLeaves : ∀ (field : ExtractedField)
    (leaves : List ExtractedField),
    List.Forall₂ SameLeaf (collectLeaves field) leaves →
      Put field (putLeaves field leaves) leaves
  | ⟨name, .list items, pages, confidence, bbox, validation, judge, notes,
      source⟩, leaves, h => by
      rw [collectLeaves] at h
      obtain ⟨herased, hleaves⟩ := putAll_spec items leaves h
      rw [putLeaves]
      constructor
      · rw [eraseBoxes, eraseBoxes, herased]
      · rw [collectLeaves, hleaves]
  | ⟨_, .null, _, _, _, _, _, _, _⟩, _, h
  | ⟨_, .str _, _, _, _, _, _, _, _⟩, _, h
  | ⟨_, .int _, _, _, _, _, _, _, _⟩, _, h
  | ⟨_, .float _, _, _, _, _, _, _, _⟩, _, h
  | ⟨_, .bool _, _, _, _, _, _, _, _⟩, _, h =>
      put_of_isLeaf (fun items hvalue => by cases hvalue) h

theorem putAll_spec : ∀ items leaves : List ExtractedField,
    List.Forall₂ SameLeaf (collectAll items) leaves →
      eraseAll (putAll items leaves) = eraseAll items ∧
        collectAll (putAll items leaves) = leaves
  | [], leaves, h => by
      rw [collectAll, List.forall₂_nil_left_iff] at h
      rw [putAll, collectAll, h]
      exact ⟨rfl, rfl⟩
  | item :: items, leaves, h => by
      rw [collectAll] at h
      obtain ⟨hitem, hitems⟩ := sameLeaf_split h
      obtain ⟨herased, hleaves⟩ := put_putLeaves item _ hitem
      obtain ⟨heraseds, hrest⟩ := putAll_spec items _ hitems
      rw [putAll]
      constructor
      · rw [eraseAll, eraseAll, herased, heraseds]
      · rw [collectAll, hleaves, hrest, List.take_append_drop]

end

/-! ## Groups -/

def groupLeaves (groups : List ExtractedFieldGroup) : List ExtractedField :=
  groups.flatMap fun group => collectAll group.fields

def putGroups : List ExtractedFieldGroup → List ExtractedField →
    List ExtractedFieldGroup
  | [], _ => []
  | group :: groups, leaves =>
      let count := (collectAll group.fields).length
      { group with fields := putAll group.fields (leaves.take count) } ::
        putGroups groups (leaves.drop count)

def eraseGroups (groups : List ExtractedFieldGroup) :
    List ExtractedFieldGroup :=
  groups.map fun group => { group with fields := eraseAll group.fields }

theorem putGroups_spec {groups : List ExtractedFieldGroup}
    {leaves : List ExtractedField}
    (h : List.Forall₂ SameLeaf (groupLeaves groups) leaves) :
    eraseGroups (putGroups groups leaves) = eraseGroups groups ∧
      groupLeaves (putGroups groups leaves) = leaves := by
  induction groups generalizing leaves with
  | nil =>
      rw [groupLeaves, List.flatMap_nil, List.forall₂_nil_left_iff] at h
      rw [h]
      exact ⟨rfl, rfl⟩
  | cons group groups ih =>
      rw [groupLeaves, List.flatMap_cons] at h
      obtain ⟨hgroup, hgroups⟩ := sameLeaf_split h
      obtain ⟨herased, hleaves⟩ := putAll_spec group.fields _ hgroup
      obtain ⟨heraseds, hrest⟩ := ih hgroups
      rw [putGroups]
      constructor
      · rw [eraseGroups, List.map_cons, herased]
        exact congrArg _ heraseds
      · rw [groupLeaves, List.flatMap_cons, hleaves]
        rw [groupLeaves] at hrest
        rw [hrest, List.take_append_drop]

end Bbox

end Flydocs
