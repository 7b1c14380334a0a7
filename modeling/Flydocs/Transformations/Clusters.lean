import Flydocs.Foundation.LeaderClusters
import Flydocs.Transformations.EntityResolution

/-!
# The clusters of entity resolution

The loop over the rows clusters them around leaders, by the strong key or by
variants of a name.  The partition is sound except for the rows whose key has no
letter or digit: they all have the same normalised key, the empty one.
-/

namespace Flydocs

open Foundation Dtos Transformations

namespace EntityResolution

variable (text : TextRuntime) (spec : EntityResolutionTransformation)

/-! ## When a row joins another -/

def keyValue (row : ExtractedField) : String :=
  if strongKey spec = "" then "" else rowValue text row (strongKey spec)

def nameField : String := selectNameField spec.matchBy (strongKey spec)

def nameValue (row : ExtractedField) : String :=
  rowValue text row (nameField spec)

/-- What the rules compare, empty where the row has no such value. -/
structure Identity where
  key : String
  name : String

/-- The strong-key rule, and where there is no key the name-variant rule. -/
def Identity.same (identity representative : Identity) : Bool :=
  if identity.key ≠ "" then
    decide (representative.key ≠ "" ∧
      normaliseKey text identity.key = normaliseKey text representative.key)
  else
    decide (nameField spec ≠ "" ∧ representative.key = "") &&
      nameVariantMatch text identity.name representative.name
        spec.minSharedTokens

def identity (row : ExtractedField) : Identity where
  key := keyValue text spec row
  name := nameValue text spec row

def sameEntity (row representative : ExtractedField) : Bool :=
  (identity text spec row).same text spec (identity text spec representative)

def rowClusters (rows : List ExtractedField) : List (List ExtractedField) :=
  (rows.foldl (addRow text spec) {}).clusters

/-- The index of keys finds the cluster that a row with a key joins. -/
def Indexed (state : Clusters) : Prop :=
  ∀ row, keyValue text spec row ≠ "" →
    state.byStrongKey.lookup (normaliseKey text (keyValue text spec row)) =
      state.clusters.findIdx? (LeaderClusters.joins (sameEntity text spec) row)

def BlankKey (row : ExtractedField) : Prop :=
  keyValue text spec row ≠ "" ∧ normaliseKey text (keyValue text spec row) = ""

structure SoundPartition (rows : List ExtractedField)
    (clusters : List (List ExtractedField)) : Prop where
  partition : clusters.flatten.Perm rows
  keys : ∀ cluster ∈ clusters, cluster.Pairwise fun first second =>
    keyValue text spec first ≠ "" → keyValue text spec second ≠ "" →
      normaliseKey text (keyValue text spec first) =
        normaliseKey text (keyValue text spec second) ∧
      normaliseKey text (keyValue text spec first) ≠ ""
  together : clusters.Pairwise fun earlier later =>
    ∀ first ∈ earlier, ∀ second ∈ later,
      keyValue text spec first ≠ "" → keyValue text spec second ≠ "" →
      normaliseKey text (keyValue text spec first) ≠ "" →
      normaliseKey text (keyValue text spec first) ≠
        normaliseKey text (keyValue text spec second)
  unmixed : ∀ cluster ∈ clusters, ∀ first ∈ cluster, ∀ second ∈ cluster,
    keyValue text spec first ≠ "" → keyValue text spec second ≠ ""

/-! ## The loop -/

section

variable {text : TextRuntime} {spec : EntityResolutionTransformation}

theorem sameEntity_of_key {row : ExtractedField}
    (hkey : keyValue text spec row ≠ "") (representative : ExtractedField) :
    sameEntity text spec row representative =
      decide (keyValue text spec representative ≠ "" ∧
        normaliseKey text (keyValue text spec row) =
          normaliseKey text (keyValue text spec representative)) :=
  if_pos hkey

theorem sameEntity_of_no_key {row : ExtractedField}
    (hkey : keyValue text spec row = "") (representative : ExtractedField) :
    sameEntity text spec row representative =
      (decide (nameField spec ≠ "" ∧ keyValue text spec representative = "") &&
        nameVariantMatch text (nameValue text spec row)
          (nameValue text spec representative) spec.minSharedTokens) :=
  if_neg (not_not.mpr hkey)

theorem joins_eq {row : ExtractedField} (hkey : keyValue text spec row = "")
    (hname : nameField spec ≠ "") :
    joins text spec (nameField spec) (nameValue text spec row) =
      LeaderClusters.joins (sameEntity text spec) row := by
  funext cluster
  cases cluster with
  | nil => rfl
  | cons representative members =>
      have hrow := sameEntity_of_no_key hkey representative
      by_cases hstrong : strongKey spec = ""
      · have hrep : keyValue text spec representative = "" := by
          rw [keyValue, if_pos hstrong]
        simp [joins, LeaderClusters.joins, hrow, hstrong, hname, hrep,
          nameValue]
      · have hrep : keyValue text spec representative =
            rowValue text representative (strongKey spec) := by
          rw [keyValue, if_neg hstrong]
        by_cases hvalue : rowValue text representative (strongKey spec) = "" <;>
          simp [joins, LeaderClusters.joins, hrow, hstrong, hname, hrep,
            hvalue, nameValue]

theorem addRow_of_key (state : Clusters) {row : ExtractedField}
    (hkey : keyValue text spec row ≠ "") :
    addRow text spec state row =
      match state.byStrongKey.lookup
          (normaliseKey text (keyValue text spec row)) with
      | some index => state.addTo index row
      | none =>
          { state.start row with
            byStrongKey := state.byStrongKey ++
              [(normaliseKey text (keyValue text spec row),
                state.clusters.length)] } :=
  if_pos hkey

theorem addRow_of_no_key (state : Clusters) {row : ExtractedField}
    (hkey : keyValue text spec row = "") :
    addRow text spec state row =
      match state.clusters.findIdx?
          (LeaderClusters.joins (sameEntity text spec) row) with
      | some index => state.addTo index row
      | none => state.start row := by
  have hrow : addRow text spec state row =
      if nameField spec = "" then state.start row
      else
        match state.clusters.findIdx?
            (joins text spec (nameField spec) (nameValue text spec row)) with
        | some index => state.addTo index row
        | none => state.start row := if_neg (not_not.mpr hkey)
  by_cases hname : nameField spec = ""
  · have hnone : state.clusters.findIdx?
        (LeaderClusters.joins (sameEntity text spec) row) = none := by
      refine List.findIdx?_eq_none_iff.mpr fun cluster _ => ?_
      cases cluster with
      | nil => rfl
      | cons representative members =>
          simp [LeaderClusters.joins, sameEntity_of_no_key hkey, hname]
    rw [hrow, if_pos hname, hnone]
  · rw [hrow, if_neg hname, joins_eq hkey hname]

structure Stepped (text : TextRuntime) (spec : EntityResolutionTransformation)
    (state : Clusters) (row : ExtractedField) (next : Clusters) : Prop where
  clusters : next.clusters =
    LeaderClusters.place (sameEntity text spec) state.clusters row
  indexed : Indexed text spec next

theorem stepped_of_no_key {state : Clusters} (h : Indexed text spec state)
    {row : ExtractedField} (hkey : keyValue text spec row = "") :
    Stepped text spec state row (addRow text spec state row) := by
  have hclusters : (addRow text spec state row).clusters =
      LeaderClusters.place (sameEntity text spec) state.clusters row := by
    rw [addRow_of_no_key state hkey, LeaderClusters.place]
    cases state.clusters.findIdx?
      (LeaderClusters.joins (sameEntity text spec) row) <;> rfl
  have hindex : (addRow text spec state row).byStrongKey =
      state.byStrongKey := by
    rw [addRow_of_no_key state hkey]
    split <;> rfl
  refine ⟨hclusters, fun other hother => ?_⟩
  have hapart : sameEntity text spec other row = false := by
    simp [sameEntity_of_key hother, hkey]
  rw [hclusters, hindex, LeaderClusters.findIdx?_place, hapart, h other hother]
  split <;> simp

theorem stepped_of_key {state : Clusters} (h : Indexed text spec state)
    {row : ExtractedField} (hkey : keyValue text spec row ≠ "") :
    Stepped text spec state row (addRow text spec state row) := by
  have hlookup := h row hkey
  rw [addRow_of_key state hkey, hlookup]
  cases hindex : state.clusters.findIdx?
      (LeaderClusters.joins (sameEntity text spec) row) with
  | some index =>
      have hclusters : (state.addTo index row).clusters =
          LeaderClusters.place (sameEntity text spec) state.clusters row := by
        rw [LeaderClusters.place, hindex]
        rfl
      refine ⟨hclusters, fun other hother => ?_⟩
      rw [hclusters, LeaderClusters.findIdx?_place, hindex]
      exact h other hother
  | none =>
      have hclusters : (state.start row).clusters =
          LeaderClusters.place (sameEntity text spec) state.clusters row := by
        rw [LeaderClusters.place, hindex]
        rfl
      refine ⟨hclusters, fun other hother => ?_⟩
      simp only [hclusters, LeaderClusters.findIdx?_place, hindex,
        List.lookup_append, h other hother, sameEntity_of_key hother]
      by_cases hsame : normaliseKey text (keyValue text spec other) =
          normaliseKey text (keyValue text spec row)
      · simp [hsame, hkey]
      · simp [List.lookup_cons, beq_eq_false_iff_ne.mpr hsame, hsame]

theorem addRow_step {state : Clusters} (h : Indexed text spec state)
    (row : ExtractedField) :
    Stepped text spec state row (addRow text spec state row) := by
  by_cases hkey : keyValue text spec row = ""
  · exact stepped_of_no_key h hkey
  · exact stepped_of_key h hkey

theorem rowClusters_eq (rows : List ExtractedField) :
    rowClusters text spec rows =
      LeaderClusters.clusters (sameEntity text spec) rows := by
  have hrun : ∀ state : Clusters, Indexed text spec state →
      (rows.foldl (addRow text spec) state).clusters =
        rows.foldl (LeaderClusters.place (sameEntity text spec))
          state.clusters := by
    induction rows with
    | nil => exact fun state _ => rfl
    | cons row rows ih =>
        intro state hstate
        obtain ⟨hclusters, hindexed⟩ := addRow_step hstate row
        rw [List.foldl_cons, List.foldl_cons, ih _ hindexed, hclusters]
  exact hrun {} fun row _ => rfl

/-! ## Soundness -/

theorem keys_of_cluster {rows cluster : List ExtractedField}
    (hcluster : cluster ∈ rowClusters text spec rows)
    {first second : ExtractedField} (hfirst : first ∈ cluster)
    (hsecond : second ∈ cluster) (hkey : keyValue text spec first ≠ "") :
    keyValue text spec second ≠ "" ∧
      normaliseKey text (keyValue text spec first) =
        normaliseKey text (keyValue text spec second) := by
  rw [rowClusters_eq] at hcluster
  obtain ⟨leader, members, rfl, hfollow⟩ :=
    LeaderClusters.exists_leader hcluster
  have hleader : ∀ row ∈ leader :: members,
      (keyValue text spec row ≠ "" ↔ keyValue text spec leader ≠ "") ∧
      (keyValue text spec leader ≠ "" →
        normaliseKey text (keyValue text spec row) =
          normaliseKey text (keyValue text spec leader)) := by
    refine List.forall_mem_cons.mpr ⟨⟨Iff.rfl, fun _ => rfl⟩, ?_⟩
    intro row hrow
    have hsame := hfollow row hrow
    by_cases hkey : keyValue text spec row = ""
    · rw [sameEntity_of_no_key hkey, Bool.and_eq_true, decide_eq_true_eq] at hsame
      obtain ⟨⟨-, hnone⟩, -⟩ := hsame
      exact ⟨by rw [hkey, hnone], fun hsome => absurd hnone hsome⟩
    · rw [sameEntity_of_key hkey, decide_eq_true_eq] at hsame
      exact ⟨iff_of_true hkey hsame.1, fun _ => hsame.2⟩
  have hsome := (hleader first hfirst).1.mp hkey
  exact ⟨(hleader second hsecond).1.mpr hsome,
    ((hleader first hfirst).2 hsome).trans
      ((hleader second hsecond).2 hsome).symm⟩

theorem keys_of_clusters (rows : List ExtractedField) :
    (rowClusters text spec rows).Pairwise fun earlier later =>
      ∀ first ∈ earlier, ∀ second ∈ later,
        keyValue text spec first ≠ "" → keyValue text spec second ≠ "" →
        normaliseKey text (keyValue text spec first) ≠
          normaliseKey text (keyValue text spec second) := by
  have hpairwise :=
    LeaderClusters.clusters_pairwise (sameEntity text spec) rows
  rw [← rowClusters_eq] at hpairwise
  refine hpairwise.imp_of_mem ?_
  intro earlier later hearlier hlater hapart first hfirst second hsecond
    hkey hkey' hsame
  have hleads : earlier ∈ LeaderClusters.clusters (sameEntity text spec) rows :=
    rowClusters_eq rows ▸ hearlier
  obtain ⟨leader, members, rfl, -⟩ := LeaderClusters.exists_leader hleads
  obtain ⟨hleader, hnormal⟩ := keys_of_cluster hearlier hfirst
    List.mem_cons_self hkey
  have hno := hapart second hsecond
  rw [LeaderClusters.joins, sameEntity_of_key hkey'] at hno
  exact of_decide_eq_false hno ⟨hleader, hsame.symm.trans hnormal⟩

variable (text spec)

/--
The partition is sound exactly when no two rows have a key that is empty when it
is normalised.
-/
theorem soundPartition_iff (rows : List ExtractedField) :
    SoundPartition text spec rows (rowClusters text spec rows) ↔
      rows.Pairwise fun first second =>
        ¬ (BlankKey text spec first ∧ BlankKey text spec second) := by
  have hpartition : (rowClusters text spec rows).flatten.Perm rows := by
    rw [rowClusters_eq]
    exact LeaderClusters.flatten_perm rows
  rw [← hpartition.pairwise_iff fun h hboth => h hboth.symm,
    List.pairwise_flatten]
  constructor
  · intro h
    refine ⟨fun cluster hcluster => ?_, ?_⟩
    · refine (h.keys cluster hcluster).imp ?_
      rintro first second hkeys ⟨⟨hfirst, hblank⟩, hsecond, -⟩
      exact (hkeys hfirst hsecond).2 hblank
    · refine (keys_of_clusters rows).imp ?_
      rintro earlier later hkeys first hfirst second hsecond
        ⟨⟨hkey, hblank⟩, hkey', hblank'⟩
      exact hkeys first hfirst second hsecond hkey hkey'
        (hblank.trans hblank'.symm)
  · rintro ⟨hwithin, -⟩
    refine ⟨hpartition, fun cluster hcluster => ?_, ?_, ?_⟩
    · refine (hwithin cluster hcluster).imp_of_mem ?_
      intro first second hfirst hsecond hblank hkey hkey'
      obtain ⟨-, hsame⟩ := keys_of_cluster hcluster hfirst hsecond hkey
      exact ⟨hsame, fun hempty =>
        hblank ⟨⟨hkey, hempty⟩, hkey', hsame.symm.trans hempty⟩⟩
    · refine (keys_of_clusters rows).imp ?_
      intro earlier later hkeys first hfirst second hsecond hkey hkey' _
      exact hkeys first hfirst second hsecond hkey hkey'
    · intro cluster hcluster first hfirst second hsecond hkey
      exact (keys_of_cluster hcluster hfirst hsecond hkey).1

end

/-! ## Two people without an identity number -/

def person (dni nombre : String) : ExtractedField where
  name := "row"
  value := .list
    [{ name := "dni", value := .str dni },
      { name := "nombre", value := .str nombre }]

def personas : EntityResolutionTransformation where
  id := "personas"
  targetGroup := "personas"
  matchBy := ["dni", "nombre"]

/-- Dashes stand for a missing number in two ways, and the two are merged. -/
theorem not_soundPartition :
    ¬ SoundPartition .ascii personas
      [person "-" "Ana Gil", person "--" "Eva Ruiz"]
      (rowClusters .ascii personas
        [person "-" "Ana Gil", person "--" "Eva Ruiz"]) := by
  intro h
  have hclusters : rowClusters .ascii personas
      [person "-" "Ana Gil", person "--" "Eva Ruiz"] =
        [[person "-" "Ana Gil", person "--" "Eva Ruiz"]] := rfl
  have hkeys := h.keys [person "-" "Ana Gil", person "--" "Eva Ruiz"]
    (by rw [hclusters]; exact List.mem_singleton_self _)
  have hpair := (List.pairwise_cons.mp hkeys).1 (person "--" "Eva Ruiz")
    (List.mem_singleton_self _)
  exact (hpair (by decide +kernel) (by decide +kernel)).2 (by decide +kernel)

end EntityResolution

end Flydocs
