import Mathlib.Algebra.Order.Field.Basic
import Mathlib.Tactic.Linarith
import Mathlib.Tactic.NormNum
import Mathlib.Tactic.Ring
import Flydocs.Dtos.FieldTree
import Flydocs.Foundation.PythonNumber

/-!
# The bbox validator

A box is graded by its shape and its place on the page, without a look at the
document.  The walk over a field comes to the cells of its rows twice, and to
what lies deeper more often; one visit would do.
-/

namespace Flydocs

open Foundation Dtos PythonNumber

def Dtos.UnitInterval.round (digits : Nat) (value : UnitInterval) :
    UnitInterval :=
  ⟨roundTo digits value.val,
    by simpa using roundTo_mono value.property.1,
    by simpa using roundTo_mono value.property.2⟩

namespace BboxValidator

/-! ## One box -/

def areaMin : Rat := 5 / 100000
def areaTypMin : Rat := 1 / 10000
def areaTypMax : Rat := 1 / 2
def areaSuspicious : Rat := 7 / 10
def aspectMin : Rat := 1 / 30
def aspectMax : Rat := 30
def edgeEpsilon : Rat := 1 / 1000

def width (bbox : BoundingBox) : Rat := bbox.xmax.val - bbox.xmin.val

def height (bbox : BoundingBox) : Rat := bbox.ymax.val - bbox.ymin.val

def isZeroPlaceholder (bbox : BoundingBox) : Bool :=
  decide (width bbox ≤ 2 / 10 ^ 9) && decide (height bbox ≤ 2 / 10 ^ 9)

def areaScore (area : Rat) : Rat :=
  if areaTypMin ≤ area ∧ area ≤ areaTypMax then 1
  else if area < areaTypMin then
    if area ≤ areaMin then 0
    else (area - areaMin) / (areaTypMin - areaMin)
  else if areaSuspicious ≤ area then 0
  else 1 - (area - areaTypMax) / (areaSuspicious - areaTypMax)

def aspectScore (aspect : Rat) : Rat :=
  if 1 / 20 ≤ aspect ∧ aspect ≤ 25 then 1
  else if aspect < 1 / 20 then aspect / (1 / 20)
  else max 0 (1 - (aspect - 25) / 30)

/-- The edges of the page that the box lies at. -/
def hugs (bbox : BoundingBox) : Nat :=
  [decide (bbox.xmin.val ≤ edgeEpsilon), decide (bbox.ymin.val ≤ edgeEpsilon),
    decide (1 - edgeEpsilon ≤ bbox.xmax.val),
    decide (1 - edgeEpsilon ≤ bbox.ymax.val)].count true

def marginScore (bbox : BoundingBox) : Rat := max 0 (1 - hugs bbox * (1 / 4))

def classify (bbox : BoundingBox) : BboxQuality × Rat :=
  let area := width bbox * height bbox
  let aspect := if 0 < height bbox then width bbox / height bbox else 0
  if width bbox ≤ 0 ∨ height bbox ≤ 0 ∨ area ≤ 0 then (.invalid, 0)
  else if areaSuspicious < area ∨ 9 / 10 < width bbox ∨
      9 / 10 < height bbox then (.suspicious, 1 / 5)
  else if area < areaMin ∨ aspectMax < aspect ∨ aspect < aspectMin then
    (.poor, 2 / 5)
  else
    (.good, 1 / 2 * areaScore area + 3 / 10 * aspectScore aspect +
      1 / 5 * marginScore bbox)

def stamp (bbox : BoundingBox) : BoundingBox :=
  { bbox with
    quality := some (classify bbox).1
    qualityScore := (UnitInterval.clamp (classify bbox).2).round 4 }

/-! ## The walk -/

def gradeBox (field : ExtractedField) : ExtractedField :=
  { field with
    bbox := field.bbox.bind fun bbox =>
      match field.value with
      | .null => none
      | _ => if isZeroPlaceholder bbox then none else some (stamp bbox) }

mutual

def depth : ExtractedField → Nat
  | ⟨_, value, _, _, _, _, _, _, _⟩ => depthOfValue value

def depthOfValue : FieldValue → Nat
  | .list items => depthAll items
  | _ => 0

def depthAll : List ExtractedField → Nat
  | [] => 0
  | item :: items => max (depth item + 1) (depthAll items)

end

/-- Each child is visited, and after that each of the fields in it again. -/
def validateWithin : Nat → ExtractedField → ExtractedField
  | 0, field => gradeBox field
  | levels + 1, field =>
      gradeBox (field.mapItems fun child =>
        (validateWithin levels child).mapItems (validateWithin levels))

def validateField (field : ExtractedField) : ExtractedField :=
  validateWithin (depth field) field

def validateGroup (group : ExtractedFieldGroup) : ExtractedFieldGroup :=
  { group with fields := group.fields.map validateField }

def validateGroups (groups : List ExtractedFieldGroup) :
    List ExtractedFieldGroup :=
  groups.map validateGroup

/-! ## One visit would do -/

@[simp] theorem name_gradeBox (field : ExtractedField) :
    (gradeBox field).name = field.name := rfl

@[simp] theorem value_gradeBox (field : ExtractedField) :
    (gradeBox field).value = field.value := rfl

@[simp] theorem classify_stamp (bbox : BoundingBox) :
    classify (stamp bbox) = classify bbox := rfl

@[simp] theorem isZeroPlaceholder_stamp (bbox : BoundingBox) :
    isZeroPlaceholder (stamp bbox) = isZeroPlaceholder bbox := rfl

theorem stamp_stamp (bbox : BoundingBox) : stamp (stamp bbox) = stamp bbox := by
  unfold stamp
  rfl

theorem gradeBox_gradeBox (field : ExtractedField) :
    gradeBox (gradeBox field) = gradeBox field := by
  obtain ⟨name, value, pages, confidence, bbox, validation, judge, notes,
    source⟩ := field
  cases bbox with
  | none => rfl
  | some bbox =>
      cases hzero : isZeroPlaceholder bbox <;> cases value <;>
        simp [gradeBox, hzero, stamp_stamp]

theorem gradeBox_mapItems (change : ExtractedField → ExtractedField)
    (field : ExtractedField) :
    gradeBox (field.mapItems change) = (gradeBox field).mapItems change := by
  obtain ⟨name, value, pages, confidence, bbox, validation, judge, notes,
    source⟩ := field
  cases value <;> rfl

theorem depth_eq (field : ExtractedField) :
    depth field = depthAll field.items := by
  obtain ⟨name, value, pages, confidence, bbox, validation, judge, notes,
    source⟩ := field
  cases value <;>
    simp only [depth, depthOfValue, depthAll, ExtractedField.items]

theorem depth_lt {field item : ExtractedField} (h : item ∈ field.items) :
    depth item < depth field := by
  rw [depth_eq field]
  generalize field.items = items at h
  induction items with
  | nil => cases h
  | cons first items ih =>
      rw [depthAll]
      rcases List.mem_cons.mp h with rfl | hrest
      · omega
      · have hlt := ih hrest
        omega

theorem depthAll_map {change : ExtractedField → ExtractedField}
    {items : List ExtractedField}
    (h : ∀ item ∈ items, depth (change item) = depth item) :
    depthAll (items.map change) = depthAll items := by
  induction items with
  | nil => rfl
  | cons item items ih =>
      rw [List.forall_mem_cons] at h
      rw [List.map_cons, depthAll, depthAll, h.1, ih h.2]

theorem walk_gradeBox_idempotent (field : ExtractedField) :
    (field.walk gradeBox).walk gradeBox = field.walk gradeBox :=
  ExtractedField.walk_walk gradeBox_mapItems gradeBox_gradeBox field

theorem items_walk_gradeBox (field : ExtractedField) :
    (field.walk gradeBox).items =
      field.items.map (ExtractedField.walk gradeBox) := by
  rw [ExtractedField.walk_eq, ← ExtractedField.items_mapItems]
  rfl

theorem depth_walk_gradeBox (field : ExtractedField) :
    depth (field.walk gradeBox) = depth field := by
  induction field using ExtractedField.tree_induction with
  | step field ih =>
      rw [depth_eq, depth_eq, items_walk_gradeBox]
      exact depthAll_map ih

theorem validateWithin_eq {levels : Nat} {field : ExtractedField}
    (h : depth field ≤ levels) :
    validateWithin levels field = field.walk gradeBox := by
  induction levels generalizing field with
  | zero =>
      have hnone (item : ExtractedField) (hitem : item ∈ field.items) :
          False := by
        have hlt := depth_lt hitem
        omega
      rw [validateWithin, ExtractedField.walk_eq,
        ExtractedField.mapItems_eq_self]
      exact fun item hitem => (hnone item hitem).elim
  | succ levels ih =>
      rw [validateWithin, ExtractedField.walk_eq]
      congr 1
      refine ExtractedField.mapItems_congr fun child hchild => ?_
      have hlt := depth_lt hchild
      rw [ih (by omega)]
      refine ExtractedField.mapItems_eq_self fun item hitem => ?_
      rw [items_walk_gradeBox] at hitem
      obtain ⟨sub, hsub, rfl⟩ := List.mem_map.mp hitem
      have hbelow := depth_lt hsub
      rw [ih (by rw [depth_walk_gradeBox]; omega), walk_gradeBox_idempotent]

theorem validateField_eq (field : ExtractedField) :
    validateField field = field.walk gradeBox :=
  validateWithin_eq le_rfl

theorem asRead_validateField (field : ExtractedField) :
    (validateField field).asRead = field.asRead := by
  rw [validateField_eq]
  exact ExtractedField.asRead_walk
    (fun field => ⟨name_gradeBox field, value_gradeBox field⟩) field

theorem asRead_validateGroup (group : ExtractedFieldGroup) :
    (validateGroup group).asRead = group.asRead :=
  ExtractedFieldGroup.asRead_map_fields asRead_validateField

/-! ## Verdicts and scores -/

def Band : BboxQuality → Rat → Prop
  | .invalid, score => score = 0
  | .suspicious, score => score = 1 / 5
  | .poor, score => score = 2 / 5
  | .good, score => 3 / 10 ≤ score

theorem areaScore_nonneg (area : Rat) : 0 ≤ areaScore area := by
  unfold areaScore areaTypMin areaTypMax areaMin areaSuspicious
  split
  · norm_num
  · split
    · split
      · exact le_rfl
      next hmin => exact div_nonneg (by linarith) (by norm_num)
    · split
      · exact le_rfl
      next hlarge =>
        rw [sub_nonneg, div_le_one (by norm_num)]
        linarith

theorem le_aspectScore {aspect : Rat} (hmin : aspectMin ≤ aspect)
    (hmax : aspect ≤ aspectMax) : 2 / 3 ≤ aspectScore aspect := by
  unfold aspectMin at hmin
  unfold aspectMax at hmax
  unfold aspectScore
  split
  · norm_num
  · split
    · rw [le_div_iff₀ (by norm_num)]
      linarith
    · exact le_max_of_le_right (by linarith)

theorem hugs_le {bbox : BoundingBox} (hwidth : width bbox ≤ 9 / 10)
    (hheight : height bbox ≤ 9 / 10) : hugs bbox ≤ 2 := by
  have hside : ¬ (bbox.xmin.val ≤ edgeEpsilon ∧
      1 - edgeEpsilon ≤ bbox.xmax.val) := by
    rintro ⟨hleft, hright⟩
    unfold width at hwidth
    unfold edgeEpsilon at hleft hright
    linarith
  have hend : ¬ (bbox.ymin.val ≤ edgeEpsilon ∧
      1 - edgeEpsilon ≤ bbox.ymax.val) := by
    rintro ⟨htop, hbottom⟩
    unfold height at hheight
    unfold edgeEpsilon at htop hbottom
    linarith
  unfold hugs
  by_cases hleft : bbox.xmin.val ≤ edgeEpsilon <;>
    by_cases htop : bbox.ymin.val ≤ edgeEpsilon <;>
    by_cases hright : 1 - edgeEpsilon ≤ bbox.xmax.val <;>
    by_cases hbottom : 1 - edgeEpsilon ≤ bbox.ymax.val <;>
    simp [hleft, htop, hright, hbottom] at hside hend ⊢

theorem le_marginScore {bbox : BoundingBox} (hwidth : width bbox ≤ 9 / 10)
    (hheight : height bbox ≤ 9 / 10) : 1 / 2 ≤ marginScore bbox := by
  have hhugs : (hugs bbox : Rat) ≤ 2 := by
    exact_mod_cast hugs_le hwidth hheight
  refine le_max_of_le_right ?_
  linarith

theorem band_classify (bbox : BoundingBox) :
    Band (classify bbox).1 (classify bbox).2 := by
  have hheight : 0 < height bbox := sub_pos.mpr bbox.corners.2
  unfold classify
  simp only [if_pos hheight]
  split
  · rfl
  · split
    · rfl
    next hregion =>
      split
      · rfl
      next hshape =>
        simp only [not_or, not_lt] at hregion hshape
        have harea := areaScore_nonneg (width bbox * height bbox)
        have haspect := le_aspectScore hshape.2.2 hshape.2.1
        have hmargin := le_marginScore hregion.2.1 hregion.2.2
        simp only [Band]
        linarith

theorem roundTo_tenths (tenths : Int) :
    roundTo 4 (tenths / 10) = tenths / 10 := by
  have hdigits : (tenths / 10 : Rat) = (1000 * tenths : Int) / 10 ^ 4 := by
    push_cast
    ring
  rw [hdigits, roundTo_div_pow]

theorem band_round {quality : BboxQuality} {score : Rat}
    (h : Band quality score) :
    Band quality (roundTo 4 (max 0 (min 1 score))) := by
  cases quality with
  | invalid =>
      simp only [Band] at h ⊢
      simp [h]
  | suspicious =>
      simp only [Band] at h ⊢
      have hround := roundTo_tenths 2
      norm_num at hround
      norm_num [h, hround]
  | poor =>
      simp only [Band] at h ⊢
      have hround := roundTo_tenths 4
      norm_num at hround
      norm_num [h, hround]
  | good =>
      have hround := roundTo_tenths 3
      push_cast at hround
      change 3 / 10 ≤ roundTo 4 (max 0 (min 1 score))
      rw [← hround]
      exact roundTo_mono (le_max_of_le_right (le_min (by norm_num) h))

theorem band_stamp (bbox : BoundingBox) :
    Band (classify bbox).1 (stamp bbox).qualityScore.val :=
  band_round (band_classify bbox)

theorem Band.lt_iff {quality : BboxQuality} {score : Rat}
    (h : Band quality score) :
    score < 3 / 10 ↔ quality = .suspicious ∨ quality = .invalid := by
  cases quality with
  | good => simpa [Band] using h
  | poor =>
      simp only [Band] at h
      exact iff_of_false (by norm_num [h]) (by decide)
  | invalid | suspicious =>
      simp only [Band] at h
      exact iff_of_true (by norm_num [h]) (by decide)

/-! ## Graded groups -/

def eraseBbox (field : ExtractedField) : ExtractedField :=
  { field with bbox := none }

def Graded (field : ExtractedField) : Prop :=
  ∀ bbox, field.bbox = some bbox →
    field.value ≠ .null ∧ isZeroPlaceholder bbox = false ∧
      ∃ quality, bbox.quality = some quality ∧
        Band quality bbox.qualityScore.val ∧
        (bbox.qualityScore.val < 3 / 10 ↔
          quality = .suspicious ∨ quality = .invalid)

theorem graded_gradeBox (field : ExtractedField) : Graded (gradeBox field) := by
  intro bbox hbbox
  obtain ⟨before, -, hgrade⟩ := Option.bind_eq_some_iff.mp hbbox
  rw [value_gradeBox]
  split at hgrade
  · cases hgrade
  next hvalue =>
    split at hgrade
    · cases hgrade
    next hzero =>
      cases hgrade
      refine ⟨hvalue, ?_, (classify before).1, rfl, band_stamp before,
        (band_stamp before).lt_iff⟩
      rw [isZeroPlaceholder_stamp]
      simpa using hzero

structure Validated (before after : List ExtractedFieldGroup) : Prop where
  /-- The repeated visits do what one visit to every field does. -/
  once : after = before.map fun group =>
    { group with fields := group.fields.map (ExtractedField.walk gradeBox) }
  again : validateGroups after = after
  boxesOnly : (after.map fun group => (group.name,
      group.fields.map (ExtractedField.walk eraseBbox))) =
    before.map fun group => (group.name,
      group.fields.map (ExtractedField.walk eraseBbox))
  graded : ∀ group ∈ after, ∀ field ∈ group.fields,
    field.Everywhere Graded

theorem validateGroups_eq (groups : List ExtractedFieldGroup) :
    validateGroups groups = groups.map fun group =>
      { group with
        fields := group.fields.map (ExtractedField.walk gradeBox) } := by
  unfold validateGroups validateGroup
  rw [funext validateField_eq]

/-- The boxes of all groups are graded, and nothing else is changed. -/
theorem validateGroups_validated (groups : List ExtractedFieldGroup) :
    Validated groups (validateGroups groups) where
  once := validateGroups_eq groups
  again := by
    rw [validateGroups_eq (validateGroups groups), validateGroups_eq,
      List.map_map]
    refine List.map_congr_left fun group _ => ?_
    simp only [Function.comp_apply, List.map_map]
    congr 1
    exact List.map_congr_left fun field _ => walk_gradeBox_idempotent field
  boxesOnly := by
    rw [validateGroups_eq, List.map_map]
    refine List.map_congr_left fun group _ => ?_
    simp only [Function.comp_apply, List.map_map, Prod.mk.injEq, true_and]
    exact List.map_congr_left fun field _ =>
      ExtractedField.walk_walk gradeBox_mapItems (fun _ => rfl) field
  graded group hgroup field hfield := by
    rw [validateGroups_eq] at hgroup
    obtain ⟨before, -, rfl⟩ := List.mem_map.mp hgroup
    obtain ⟨old, -, rfl⟩ := List.mem_map.mp hfield
    exact ExtractedField.everywhere_walk value_gradeBox graded_gradeBox old

end BboxValidator

end Flydocs
