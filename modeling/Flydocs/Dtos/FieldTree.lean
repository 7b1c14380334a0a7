import Mathlib.Data.List.Basic
import Flydocs.Dtos.Extracted

/-!
# Fields as trees

An extracted field contains the rows of an array or the cells of a row.  This
file has the induction over such trees, walks that change every field of a tree,
and what is left of a tree when nothing but its names and values counts.
-/

namespace Flydocs.Dtos

/-! ## Induction -/

theorem ExtractedField.items_lt {field item : ExtractedField}
    (h : item ∈ field.items) : sizeOf item < sizeOf field := by
  obtain ⟨name, value, pages, confidence, bbox, validation, judge, notes,
    source⟩ := field
  cases value with
  | list items =>
      have hlt := List.sizeOf_lt_of_mem h
      simp only [ExtractedField.mk.sizeOf_spec, FieldValue.list.sizeOf_spec,
        ExtractedField.items] at hlt ⊢
      omega
  | _ => cases h

/-- What passes from the items of a field to the field holds of every field. -/
theorem ExtractedField.tree_induction {motive : ExtractedField → Prop}
    (step : ∀ field, (∀ item ∈ field.items, motive item) → motive field)
    (field : ExtractedField) : motive field :=
  step field fun item _ => tree_induction step item
termination_by sizeOf field
decreasing_by exact items_lt ‹_›

/-! ## Walks -/

def FieldValue.mapItems (change : ExtractedField → ExtractedField) :
    FieldValue → FieldValue
  | .list items => .list (items.map change)
  | value => value

def ExtractedField.mapItems (change : ExtractedField → ExtractedField)
    (field : ExtractedField) : ExtractedField :=
  { field with value := field.value.mapItems change }

@[simp] theorem FieldValue.mapItems_id (value : FieldValue) :
    value.mapItems id = value := by
  cases value <;> simp [mapItems]

@[simp] theorem ExtractedField.items_mapItems
    (change : ExtractedField → ExtractedField) (field : ExtractedField) :
    (field.mapItems change).items = field.items.map change := by
  unfold items ExtractedField.mapItems FieldValue.mapItems
  cases field.value <;> rfl

theorem ExtractedField.mapItems_congr {first second : ExtractedField →
    ExtractedField} {field : ExtractedField}
    (h : ∀ item ∈ field.items, first item = second item) :
    field.mapItems first = field.mapItems second := by
  obtain ⟨name, value, pages, confidence, bbox, validation, judge, notes,
    source⟩ := field
  cases value with
  | list items =>
      have hitems : items.map first = items.map second := List.map_congr_left h
      simp only [ExtractedField.mapItems, FieldValue.mapItems, hitems]
  | _ => rfl

theorem ExtractedField.mapItems_eq_self {change : ExtractedField →
    ExtractedField} {field : ExtractedField}
    (h : ∀ item ∈ field.items, change item = item) :
    field.mapItems change = field := by
  rw [mapItems_congr h]
  obtain ⟨name, value, pages, confidence, bbox, validation, judge, notes,
    source⟩ := field
  exact congrArg (ExtractedField.mk name · pages confidence bbox validation
    judge notes source) (FieldValue.mapItems_id value)

theorem ExtractedField.mapItems_mapItems (first second : ExtractedField →
    ExtractedField) (field : ExtractedField) :
    (field.mapItems first).mapItems second =
      field.mapItems (second ∘ first) := by
  obtain ⟨name, value, pages, confidence, bbox, validation, judge, notes,
    source⟩ := field
  cases value with
  | list items =>
      simp [ExtractedField.mapItems, FieldValue.mapItems, List.map_map]
  | _ => rfl

mutual

/-- Every field is changed once, after the fields that it contains. -/
def ExtractedField.walk (own : ExtractedField → ExtractedField) :
    ExtractedField → ExtractedField
  | ⟨name, value, pages, confidence, bbox, validation, judge, notes, source⟩ =>
      own ⟨name, FieldValue.walk own value, pages, confidence, bbox,
        validation, judge, notes, source⟩

def FieldValue.walk (own : ExtractedField → ExtractedField) :
    FieldValue → FieldValue
  | .list items => .list (ExtractedField.walkAll own items)
  | value => value

def ExtractedField.walkAll (own : ExtractedField → ExtractedField) :
    List ExtractedField → List ExtractedField
  | [] => []
  | item :: items =>
      ExtractedField.walk own item :: ExtractedField.walkAll own items

end

theorem ExtractedField.walkAll_eq (own : ExtractedField → ExtractedField)
    (items : List ExtractedField) :
    walkAll own items = items.map (walk own) := by
  induction items with
  | nil => rfl
  | cons item items ih => rw [walkAll, ih, List.map_cons]

theorem ExtractedField.walk_eq (own : ExtractedField → ExtractedField)
    (field : ExtractedField) :
    walk own field = own (field.mapItems (walk own)) := by
  obtain ⟨name, value, pages, confidence, bbox, validation, judge, notes,
    source⟩ := field
  cases value with
  | list items =>
      simp only [walk, FieldValue.walk, walkAll_eq, mapItems,
        FieldValue.mapItems]
  | _ => simp only [walk, FieldValue.walk, mapItems, FieldValue.mapItems]

/-- Two walks are one, if the first of them leaves the items to the second. -/
theorem ExtractedField.walk_walk {first second both : ExtractedField →
    ExtractedField}
    (hitems : ∀ change field, first (field.mapItems change) =
      (first field).mapItems change)
    (hboth : ∀ field, second (first field) = both field)
    (field : ExtractedField) :
    (field.walk first).walk second = field.walk both := by
  induction field using tree_induction with
  | step field ih =>
      rw [walk_eq first, walk_eq second, ← hitems, hboth, mapItems_mapItems,
        walk_eq both]
      congr 1
      exact mapItems_congr ih

inductive ExtractedField.Everywhere (Good : ExtractedField → Prop) :
    ExtractedField → Prop
  | intro {field : ExtractedField} (own : Good field)
      (items : ∀ item ∈ field.items, Everywhere Good item) :
      Everywhere Good field

theorem ExtractedField.everywhere_walk {own : ExtractedField → ExtractedField}
    {Good : ExtractedField → Prop}
    (hvalue : ∀ field, (own field).value = field.value)
    (hgood : ∀ field, Good (own field)) (field : ExtractedField) :
    Everywhere Good (walk own field) := by
  induction field using tree_induction with
  | step field ih =>
      rw [walk_eq]
      refine .intro (hgood _) fun item hitem => ?_
      have hitems : item ∈ (field.mapItems (walk own)).items := by
        unfold items at hitem ⊢
        rwa [hvalue] at hitem
      rw [items_mapItems] at hitems
      obtain ⟨child, hchild, rfl⟩ := List.mem_map.mp hitems
      exact ih child hchild

/-! ## What was read -/

def ExtractedField.asRead : ExtractedField → ExtractedField :=
  walk fun field => { name := field.name, value := field.value }

theorem ExtractedField.asRead_eq (field : ExtractedField) :
    field.asRead =
      { name := field.name, value := field.value.mapItems asRead } :=
  walk_eq _ field

@[simp] theorem ExtractedField.name_asRead (field : ExtractedField) :
    field.asRead.name = field.name := by
  rw [asRead_eq]

@[simp] theorem ExtractedField.value_asRead (field : ExtractedField) :
    field.asRead.value = field.value.mapItems asRead := by
  rw [asRead_eq]

theorem ExtractedField.name_eq_of_asRead {first second : ExtractedField}
    (h : first.asRead = second.asRead) : first.name = second.name := by
  have hname := congrArg ExtractedField.name h
  rwa [name_asRead, name_asRead] at hname

/-- Fields read alike that contain the same, up to a change in what they contain
that does not change what was read there. -/
theorem ExtractedField.asRead_eq_of_mapItems {before after : ExtractedField}
    (hname : after.name = before.name)
    {change : ExtractedField → ExtractedField}
    (hvalue : after.value = before.value.mapItems change)
    (hitems : ∀ item ∈ before.items, (change item).asRead = item.asRead) :
    after.asRead = before.asRead := by
  rw [asRead_eq, asRead_eq, hname, hvalue, ExtractedField.mk.injEq]
  refine ⟨rfl, ?_, rfl, rfl, rfl, rfl, rfl, rfl, rfl⟩
  unfold items at hitems
  cases hlist : before.value with
  | list items =>
      rw [hlist] at hitems
      simp only [FieldValue.mapItems, List.map_map, FieldValue.list.injEq]
      exact List.map_congr_left hitems
  | _ => rfl

theorem ExtractedField.asRead_eq_of_value_eq {before after : ExtractedField}
    (hname : after.name = before.name) (hvalue : after.value = before.value) :
    after.asRead = before.asRead := by
  have hsame : after.value = before.value.mapItems id := by
    rw [hvalue, FieldValue.mapItems_id]
  exact asRead_eq_of_mapItems hname hsame fun item _ => rfl

theorem ExtractedField.asRead_walk {own : ExtractedField → ExtractedField}
    (hown : ∀ field, (own field).name = field.name ∧
      (own field).value = field.value) (field : ExtractedField) :
    (walk own field).asRead = field.asRead := by
  induction field using tree_induction with
  | step field ih =>
      rw [walk_eq]
      exact asRead_eq_of_mapItems (hown _).1 (hown _).2 ih

/-! ## Groups -/

def ExtractedFieldGroup.asRead (group : ExtractedFieldGroup) :
    ExtractedFieldGroup :=
  { group with fields := group.fields.map ExtractedField.asRead }

theorem ExtractedFieldGroup.asRead_map_fields {group : ExtractedFieldGroup}
    {change : ExtractedField → ExtractedField}
    (h : ∀ field, (change field).asRead = field.asRead) :
    ExtractedFieldGroup.asRead
      { group with fields := group.fields.map change } = group.asRead := by
  simp only [asRead, List.map_map]
  congr 1
  exact List.map_congr_left fun field _ => h field

end Flydocs.Dtos
