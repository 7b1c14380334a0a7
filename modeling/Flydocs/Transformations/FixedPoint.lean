import Flydocs.Transformations.Canonical
import Flydocs.Transformations.Strangers

/-!
# Fixed points of entity resolution

A canonical row is not changed by a second run, but its name may be fuller than
the one its cluster was formed around.  The output is a fixed point unless such a
name, or such a key, matches that of another cluster.
-/

namespace Flydocs

open Foundation Dtos Transformations

namespace EntityResolution

variable (text : TextRuntime) (spec : EntityResolutionTransformation)

/-- No two rows of the output match, and a second run changes nothing. -/
structure FixedPoint (rows : List ExtractedField) : Prop where
  apart : (dedupeRows text spec rows).Pairwise fun first second =>
    sameEntity text spec first second = false
  again : dedupeRows text spec (dedupeRows text spec rows) =
    dedupeRows text spec rows

def keptValue (rows : List ExtractedField) (fieldName : String) : String :=
  if rows.head?.any isList then
    (((candidates rows fieldName).argmax (score text)).bind fun sub =>
      scalarText text sub.value).getD ""
  else ""

def keptIdentity (rows : List ExtractedField) : Identity where
  key :=
    if strongKey spec = "" then "" else keptValue text rows (strongKey spec)
  name := keptValue text rows (nameField spec)

def KeptApart (rows others : List ExtractedField) : Prop :=
  (keptIdentity text spec rows).same text spec
    (keptIdentity text spec others) = false

section

variable {text : TextRuntime} {spec : EntityResolutionTransformation}

/-! ## The match rules are symmetric -/

theorem Identity.same_comm (first second : Identity) :
    first.same text spec second = second.same text spec first := by
  have hname : nameVariantMatch text first.name second.name
      spec.minSharedTokens =
      nameVariantMatch text second.name first.name spec.minSharedTokens := by
    rw [Bool.eq_iff_iff, nameVariantMatch_iff, nameVariantMatch_iff]
    constructor <;> exact fun ⟨hfirst, hsecond, hshared⟩ =>
      ⟨hsecond, hfirst, hshared.symm⟩
  unfold Identity.same
  by_cases hfirst : first.key = "" <;> by_cases hsecond : second.key = ""
  · simp [hfirst, hsecond, hname]
  · simp [hfirst, hsecond]
  · simp [hfirst, hsecond]
  · have hkeys : normaliseKey text first.key = normaliseKey text second.key ↔
        normaliseKey text second.key = normaliseKey text first.key := eq_comm
    simp [hfirst, hsecond, hkeys]

/-! ## Canonical rows -/

theorem rowValue_eq (row : ExtractedField) (fieldName : String) :
    rowValue text row fieldName =
      (((rowsOf row).filter (·.name = fieldName)).findSome? fun sub =>
        scalarText text sub.value).getD "" := by
  unfold rowValue
  induction rowsOf row with
  | nil => rfl
  | cons sub subs ih =>
      by_cases hname : sub.name = fieldName
      · rw [List.findSome?_cons, if_pos hname,
          List.filter_cons_of_pos (by simpa using hname), List.findSome?_cons]
        cases scalarText text sub.value with
        | none => exact ih
        | some value => rfl
      · rw [List.findSome?_cons, if_neg hname,
          List.filter_cons_of_neg (by simpa using hname)]
        exact ih

theorem rowValue_canonicalise (base : ExtractedField)
    (members : List ExtractedField) (fieldName : String) :
    rowValue text (canonicalise text (base :: members)) fieldName =
      keptValue text (base :: members) fieldName := by
  rw [rowValue_eq, rowsOf_canonicalise, keptValue, List.head?_cons,
    Option.any_some]
  by_cases hlist : isList base = true
  · rw [if_pos hlist, if_pos hlist, filter_mergeSubs, candidates]
    cases ((base :: members).flatMap rowsOf |>.filter
      (·.name = fieldName)).argmax (score text) with
    | none => rfl
    | some sub =>
        cases hscalar : scalarText text sub.value <;> simp [hscalar]
  · rw [if_neg hlist, if_neg hlist]
    rfl

theorem identity_canonicalise (base : ExtractedField)
    (members : List ExtractedField) :
    identity text spec (canonicalise text (base :: members)) =
      keptIdentity text spec (base :: members) := by
  simp only [identity, keptIdentity, keyValue, nameValue, rowValue_canonicalise]

theorem nodup_mergeSubs (subs : List ExtractedField) :
    ((mergeSubs text subs).map ExtractedField.name).Nodup := by
  rw [mergeSubs_eq]
  exact nodup_pickEach pickCanonical_mem subs

theorem mergeSubs_of_nodup {subs : List ExtractedField}
    (h : (subs.map ExtractedField.name).Nodup) : mergeSubs text subs = subs := by
  rw [mergeSubs_eq]
  exact pickEach_of_nodup pickCanonical_mem h

theorem maxConfidence_singleton (row : ExtractedField) :
    maxConfidence [row] = row.confidence := by
  have hnonneg : (0 : UnitInterval).val ≤ row.confidence.val :=
    row.confidence.property.1
  rw [maxConfidence, List.foldl_cons, List.foldl_nil]
  split
  · rfl
  · rename_i hle
    exact Subtype.ext (le_antisymm hnonneg (not_lt.mp hle))

theorem canonicalise_canonicalise (cluster : List ExtractedField) :
    canonicalise text [canonicalise text cluster] =
      canonicalise text cluster := by
  cases cluster with
  | nil => rfl
  | cons base members =>
      cases hvalue : base.value with
      | list subs =>
          simp only [canonicalise, hvalue, List.flatMap_singleton, rowsOf,
            mergeSubs_of_nodup (nodup_mergeSubs _), maxConfidence_singleton,
            mergePages, Postprocess.sorted_eq_self_iff.mpr
              (Postprocess.pairwise_sorted _)]
      | _ => simp only [canonicalise, hvalue]

/-! ## The output -/

theorem pairwise_dedupeRows_iff (rows : List ExtractedField) :
    (dedupeRows text spec rows).Pairwise (fun first second =>
        sameEntity text spec first second = false) ↔
      (LeaderClusters.clusters (sameEntity text spec) rows).Pairwise
        (KeptApart text spec) := by
  have hrows : dedupeRows text spec rows =
      (LeaderClusters.clusters (sameEntity text spec) rows).map
        (canonicalise text) := by
    rw [← rowClusters_eq]
    rfl
  rw [hrows, List.pairwise_map]
  refine List.Pairwise.iff_of_mem ?_
  intro earlier later hearlier hlater
  obtain ⟨base, members, rfl, -⟩ := LeaderClusters.exists_leader hearlier
  obtain ⟨base', members', rfl, -⟩ := LeaderClusters.exists_leader hlater
  rw [sameEntity, identity_canonicalise, identity_canonicalise, KeptApart]

theorem dedupeRows_of_apart {rows : List ExtractedField}
    (h : (dedupeRows text spec rows).Pairwise fun first second =>
      sameEntity text spec first second = false) :
    dedupeRows text spec (dedupeRows text spec rows) =
      dedupeRows text spec rows := by
  have hclusters : rowClusters text spec (dedupeRows text spec rows) =
      (dedupeRows text spec rows).map fun row => [row] := by
    rw [rowClusters_eq, LeaderClusters.clusters_eq_singletons_iff]
    exact h.imp fun hfalse => (Identity.same_comm _ _).trans hfalse
  have hself : ∀ row ∈ dedupeRows text spec rows,
      canonicalise text [row] = row := by
    intro row hrow
    obtain ⟨cluster, -, rfl⟩ := List.mem_map.mp hrow
    exact canonicalise_canonicalise cluster
  calc dedupeRows text spec (dedupeRows text spec rows)
      = (rowClusters text spec (dedupeRows text spec rows)).map
          (canonicalise text) := rfl
    _ = (dedupeRows text spec rows).map fun row =>
          canonicalise text [row] := by
        rw [hclusters, List.map_map]
        rfl
    _ = dedupeRows text spec rows :=
        (List.map_congr_left hself).trans (List.map_id _)

variable (text spec)

/--
The output is a fixed point exactly when, as the rows are taken apart by the
match rules, the best key and name of those taken away together never match those
of the ones taken away before.
-/
theorem fixedPoint_iff (rows : List ExtractedField) :
    FixedPoint text spec rows ↔
      LeaderClusters.Spread (sameEntity text spec) (KeptApart text spec) []
        rows := by
  rw [LeaderClusters.spread_iff, ← pairwise_dedupeRows_iff]
  constructor
  · intro h
    exact ⟨by simp, h.apart⟩
  · rintro ⟨-, h⟩
    exact ⟨h, dedupeRows_of_apart h⟩

end

/-! ## A name that fills up -/

def namesakes : List ExtractedField :=
  [person "" "Ana Gil", person "" "Gil Roa", person "" "Ana Gil Roa"]

/-- The third row joins the first, and gives it a name that the second matches. -/
theorem not_fixedPoint :
    ¬ ∀ (text : TextRuntime) (spec : EntityResolutionTransformation)
      (rows : List ExtractedField), FixedPoint text spec rows := by
  intro h
  have hroa : sameEntity .ascii personas (person "" "Gil Roa")
      (person "" "Ana Gil") = false := by decide +kernel
  have hfull : sameEntity .ascii personas (person "" "Ana Gil Roa")
      (person "" "Ana Gil") = true := by decide +kernel
  have hclusters : rowClusters .ascii personas namesakes =
      [[person "" "Ana Gil", person "" "Ana Gil Roa"],
        [person "" "Gil Roa"]] := by
    rw [rowClusters_eq, namesakes, LeaderClusters.clusters_cons]
    simp [hroa, hfull, LeaderClusters.clusters_cons]
  have hrows : dedupeRows .ascii personas namesakes =
      (rowClusters .ascii personas namesakes).map (canonicalise .ascii) := rfl
  have hapart := (h .ascii personas namesakes).apart
  rw [hrows, hclusters] at hapart
  have hpair := (List.pairwise_cons.mp hapart).1 _ (List.mem_singleton_self _)
  revert hpair
  decide +kernel

end EntityResolution

end Flydocs
