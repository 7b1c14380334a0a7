import Mathlib.Data.Finset.Card
import Flydocs.Foundation.PickEach
import Flydocs.Transformations.Clusters

/-!
# Strangers

Every row of a cluster shares its name with the first one, by the name-variant
rule.  The rule is not transitive, so two rows that match the same fuller name
may be strangers to each other.
-/

namespace Flydocs

open Foundation Dtos Transformations

namespace EntityResolution

variable (text : TextRuntime) (spec : EntityResolutionTransformation)

def tokenSet (name : String) : Finset String := (nameTokens text name).toFinset

/-- One token set contains the other, and enough tokens are shared. -/
def Variants (minShared : Int) (firsts seconds : Finset String) : Prop :=
  (firsts ⊆ seconds ∨ seconds ⊆ firsts) ∧ minShared ≤ (firsts ∩ seconds).card

instance (minShared : Int) (firsts seconds : Finset String) :
    Decidable (Variants minShared firsts seconds) :=
  inferInstanceAs (Decidable (_ ∧ _))

def ShareName (first second : ExtractedField) : Prop :=
  Variants spec.minSharedTokens (tokenSet text (nameValue text spec first))
    (tokenSet text (nameValue text spec second))

/-! ## The name-variant rule -/

theorem Variants.symm {minShared : Int} {firsts seconds : Finset String}
    (h : Variants minShared firsts seconds) :
    Variants minShared seconds firsts := by
  obtain ⟨hsubset, hshared⟩ := h
  rw [Finset.inter_comm] at hshared
  exact ⟨hsubset.symm, hshared⟩

theorem card_inter_of_subset {firsts seconds : Finset String}
    (h : firsts ⊆ seconds ∨ seconds ⊆ firsts) :
    (firsts ∩ seconds).card = min firsts.card seconds.card := by
  rcases h with h | h
  · rw [Finset.inter_eq_left.mpr h, min_eq_left (Finset.card_le_card h)]
  · rw [Finset.inter_eq_right.mpr h, min_eq_right (Finset.card_le_card h)]

section

variable {text : TextRuntime} {spec : EntityResolutionTransformation}

theorem variants_toFinset_iff {firsts seconds : List String}
    (hfirsts : firsts.Nodup) (hseconds : seconds.Nodup) (minShared : Int) :
    (if firsts = [] ∨ seconds = [] then false
      else if firsts.all (· ∈ seconds) || seconds.all (· ∈ firsts) then
        decide (minShared ≤ min firsts.length seconds.length)
      else false) = true ↔
      firsts.toFinset ≠ ∅ ∧ seconds.toFinset ≠ ∅ ∧
        Variants minShared firsts.toFinset seconds.toFinset := by
  have hsubset : ∀ ones others : List String,
      ones.all (· ∈ others) = true ↔ ones.toFinset ⊆ others.toFinset := by
    simp [Finset.subset_iff]
  by_cases hnone : firsts = [] ∨ seconds = []
  · rw [if_pos hnone]
    rcases hnone with rfl | rfl <;> simp
  · obtain ⟨hfirst, hsecond⟩ := not_or.mp hnone
    have hall : (firsts.all (· ∈ seconds) || seconds.all (· ∈ firsts)) = true ↔
        firsts.toFinset ⊆ seconds.toFinset ∨
          seconds.toFinset ⊆ firsts.toFinset := by
      rw [Bool.or_eq_true, hsubset, hsubset]
    rw [if_neg hnone]
    by_cases hcontains : firsts.toFinset ⊆ seconds.toFinset ∨
        seconds.toFinset ⊆ firsts.toFinset
    · rw [if_pos (hall.mpr hcontains), decide_eq_true_eq, Variants,
        card_inter_of_subset hcontains, List.toFinset_card_of_nodup hfirsts,
        List.toFinset_card_of_nodup hseconds]
      simp [hfirst, hsecond, hcontains]
    · rw [if_neg (mt hall.mp hcontains)]
      simp [Variants, hcontains]

theorem nameVariantMatch_iff (first second : String) (minShared : Int) :
    nameVariantMatch text first second minShared = true ↔
      tokenSet text first ≠ ∅ ∧ tokenSet text second ≠ ∅ ∧
        Variants minShared (tokenSet text first) (tokenSet text second) := by
  have hnodup : ∀ name, (nameTokens text name).Nodup :=
    fun _ => nodup_eraseDups _
  exact variants_toFinset_iff (hnodup first) (hnodup second) minShared

theorem shareName_of_sameEntity {first second : ExtractedField}
    (hkey : keyValue text spec second = "")
    (h : sameEntity text spec second first = true) :
    ShareName text spec first second := by
  rw [sameEntity_of_no_key hkey, Bool.and_eq_true, nameVariantMatch_iff] at h
  exact h.2.2.2.symm

/--
Without keys, any two rows of a cluster share their name exactly when the rows
that match the first row share theirs with each other, and so on with the rows
that do not match it.
-/
theorem shareName_iff {rows : List ExtractedField}
    (hrows : ∀ row ∈ rows, keyValue text spec row = "") :
    (∀ cluster ∈ rowClusters text spec rows,
        cluster.Pairwise (ShareName text spec)) ↔
      LeaderClusters.Agreeing (sameEntity text spec) (ShareName text spec)
        rows := by
  rw [rowClusters_eq]
  exact LeaderClusters.forall_pairwise_iff_agreeing
    fun first _ second hsecond => shareName_of_sameEntity (hrows second hsecond)

end

/-! ## Two people of one first name -/

def anas : List ExtractedField :=
  [person "" "Ana Gil Roa", person "" "Ana Gil", person "" "Ana Roa"]

theorem keyValue_anas : ∀ row ∈ anas, keyValue .ascii personas row = "" := by
  have hperson : ∀ nombre, keyValue .ascii personas (person "" nombre) = "" :=
    fun nombre => rfl
  simp [anas, hperson]

theorem shareName_iff_anas :
    (∀ cluster ∈ rowClusters .ascii personas anas,
        cluster.Pairwise (ShareName .ascii personas)) ↔
      LeaderClusters.Agreeing (sameEntity .ascii personas)
        (ShareName .ascii personas) anas :=
  shareName_iff keyValue_anas

theorem rowClusters_anas :
    rowClusters .ascii personas anas = [anas] := by
  have hgil : sameEntity .ascii personas (person "" "Ana Gil")
      (person "" "Ana Gil Roa") = true := by decide +kernel
  have hroa : sameEntity .ascii personas (person "" "Ana Roa")
      (person "" "Ana Gil Roa") = true := by decide +kernel
  rw [rowClusters_eq, anas, LeaderClusters.clusters_cons]
  simp [hgil, hroa]

/-- Both match the full name of the first row, and share one token only. -/
theorem not_shareName :
    ¬ ∀ (text : TextRuntime) (spec : EntityResolutionTransformation)
      (rows : List ExtractedField),
      (∀ row ∈ rows, keyValue text spec row = "") →
      ∀ cluster ∈ rowClusters text spec rows,
        cluster.Pairwise (ShareName text spec) := by
  intro h
  have hanas := h .ascii personas anas keyValue_anas anas
    (by rw [rowClusters_anas]; exact List.mem_singleton_self _)
  have hpair := (List.pairwise_cons.mp (List.pairwise_cons.mp hanas).2).1
    (person "" "Ana Roa") (List.mem_singleton_self _)
  have hstrangers : ¬ ShareName .ascii personas (person "" "Ana Gil")
      (person "" "Ana Roa") := by
    unfold ShareName
    decide +kernel
  exact hstrangers hpair

end EntityResolution

end Flydocs
