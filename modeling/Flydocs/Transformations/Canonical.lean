import Mathlib.Data.String.Basic
import Flydocs.Foundation.FirstGreatest
import Flydocs.Foundation.PickEach
import Flydocs.Transformations.EntityResolution

/-!
# Canonical rows

For each field name the canonical row has the first of the best candidates of its
cluster.  The score orders the candidates by their values alone, so the order of
the rows decides between candidates of one value that differ in what else is kept.
-/

namespace Flydocs

open Foundation Dtos Transformations

namespace EntityResolution

/-! ## The order of the scores -/

namespace Score

def ordering (score : Score) : Nat ×ₗ Nat ×ₗ String :=
  toLex (score.filled, toLex (score.length, score.tie))

theorem ordering_injective : Function.Injective ordering := by
  rintro ⟨_, _, _⟩ ⟨_, _, _⟩ h
  simpa [ordering] using h

instance : LinearOrder Score := LinearOrder.lift' ordering ordering_injective

@[simp] theorem lt_eq_true_iff {first second : Score} :
    first.lt second = true ↔ first < second :=
  tuple_lt_iff (tuple_lt_iff decide_eq_true_iff)

end Score

variable (text : TextRuntime)

/-! ## What a canonical row keeps -/

structure Kept where
  value : FieldValue
  pages : List Int
  confidence : UnitInterval
  bbox : Option BoundingBox
  judge : JudgeOutcome

def kept (sub : ExtractedField) : Kept where
  value := sub.value
  pages := sub.pages
  confidence := sub.confidence
  bbox := sub.bbox
  judge := sub.judge

def fieldOf (row : ExtractedField) (name : String) : Option ExtractedField :=
  (rowsOf row).find? (·.name = name)

/-- In every order of the rows the canonical row has the same fields. -/
def OrderIndependent (cluster : List ExtractedField) : Prop :=
  ∀ arranged : List ExtractedField, arranged.Perm cluster →
    ∀ name, (fieldOf (canonicalise text arranged) name).map kept =
      (fieldOf (canonicalise text cluster) name).map kept

/-! ## The candidates -/

def candidates (cluster : List ExtractedField) (name : String) :
    List ExtractedField :=
  (cluster.flatMap rowsOf).filter (·.name = name)

/-- The first of a row's sub-fields that no candidate of the cluster exceeds. -/
def firstBest (cluster : List ExtractedField) (name : String)
    (row : ExtractedField) : Option ExtractedField :=
  ((rowsOf row).filter (·.name = name)).find? fun sub =>
    decide (∀ other ∈ candidates cluster name, score text other ≤ score text sub)

/-- All rows have sub-fields to merge, or none has any. -/
def Uniform (cluster : List ExtractedField) : Prop :=
  (∀ row ∈ cluster, isList row = true) ∨ ∀ row ∈ cluster, rowsOf row = []

/-- Best candidates of different rows differ in nothing that is kept. -/
def TiesAgree (cluster : List ExtractedField) (name : String) : Prop :=
  ∀ first ∈ cluster, ∀ second ∈ cluster, ∀ found found',
    firstBest text cluster name first = some found →
    firstBest text cluster name second = some found' → kept found = kept found'

section

variable {text : TextRuntime}

theorem pickOf_eq_argmax (subs : List ExtractedField) :
    pickOf (pickCanonical text) subs = subs.argmax (score text) := by
  cases subs with
  | nil => rfl
  | cons first rest =>
      change some (pickCanonical text first rest) =
        rest.foldl (List.argAux fun sub best => score text best < score text sub)
          (some first)
      induction rest generalizing first with
      | nil => rfl
      | cons sub rest ih =>
          rw [List.foldl_cons]
          by_cases hlt : score text first < score text sub
          · have hpick : pickCanonical text first (sub :: rest) =
                pickCanonical text sub rest := by
              simp [pickCanonical, hlt]
            rw [hpick, ih, List.argAux]
            simp [hlt]
          · have hpick : pickCanonical text first (sub :: rest) =
                pickCanonical text first rest := by
              simp [pickCanonical, hlt]
            rw [hpick, ih, List.argAux]
            simp [hlt]

theorem pickCanonical_mem (first : ExtractedField) (rest : List ExtractedField) :
    pickCanonical text first rest ∈ first :: rest := by
  have hargmax : some (pickCanonical text first rest) =
      (first :: rest).argmax (score text) := pickOf_eq_argmax (first :: rest)
  exact List.argmax_mem hargmax.symm

theorem mergeSubs_eq (subs : List ExtractedField) :
    mergeSubs text subs =
      pickEach ExtractedField.name (pickCanonical text) subs := by
  refine List.filterMap_congr fun name _ => ?_
  cases subs.filter (·.name = name) <;> rfl

theorem filter_mergeSubs (subs : List ExtractedField) (name : String) :
    (mergeSubs text subs).filter (·.name = name) =
      ((subs.filter (·.name = name)).argmax (score text)).toList := by
  rw [mergeSubs_eq, filter_pickEach pickCanonical_mem, pickOf_eq_argmax]

theorem rowsOf_canonicalise (base : ExtractedField)
    (members : List ExtractedField) :
    rowsOf (canonicalise text (base :: members)) =
      if isList base then mergeSubs text ((base :: members).flatMap rowsOf)
      else [] := by
  cases hvalue : base.value <;> simp [canonicalise, isList, rowsOf, hvalue]

theorem fieldOf_canonicalise (base : ExtractedField)
    (members : List ExtractedField) (name : String) :
    fieldOf (canonicalise text (base :: members)) name =
      if isList base then
        (candidates (base :: members) name).argmax (score text)
      else none := by
  rw [fieldOf, rowsOf_canonicalise]
  split
  · rw [← List.head?_filter, filter_mergeSubs, candidates,
      Option.head?_toList]
  · rfl

theorem argmax_candidates (cluster : List ExtractedField) (name : String) :
    (candidates cluster name).argmax (score text) =
      cluster.findSome? (firstBest text cluster name) := by
  rw [argmax_eq_find?]
  conv_lhs => arg 2; rw [candidates, List.filter_flatMap]
  exact List.find?_flatMap

theorem firstBest_perm {cluster arranged : List ExtractedField}
    (hperm : arranged.Perm cluster) (name : String) :
    firstBest text arranged name = firstBest text cluster name := by
  have hmem : ∀ sub, sub ∈ candidates arranged name ↔
      sub ∈ candidates cluster name :=
    fun sub => ((hperm.flatMap_right rowsOf).filter _).mem_iff
  funext row
  simp only [firstBest, hmem]

theorem fieldOf_arranged {cluster arranged : List ExtractedField}
    (hlist : ∀ row ∈ cluster, isList row = true)
    (hperm : arranged.Perm cluster) (name : String) :
    fieldOf (canonicalise text arranged) name =
      arranged.findSome? (firstBest text cluster name) := by
  cases arranged with
  | nil => rfl
  | cons base members =>
      have hbase := hlist base (hperm.mem_iff.mp List.mem_cons_self)
      rw [fieldOf_canonicalise, if_pos hbase, argmax_candidates,
        firstBest_perm hperm]

theorem fieldOf_of_empty {cluster : List ExtractedField}
    (hempty : ∀ row ∈ cluster, rowsOf row = []) (name : String) :
    fieldOf (canonicalise text cluster) name = none := by
  cases cluster with
  | nil => rfl
  | cons base members =>
      have hnone : candidates (base :: members) name = [] := by
        rw [candidates, List.flatMap_eq_nil_iff.mpr hempty, List.filter_nil]
      rw [fieldOf_canonicalise, hnone]
      simp

theorem OrderIndependent.uniform {cluster : List ExtractedField}
    (h : OrderIndependent text cluster) : Uniform cluster := by
  rw [Uniform, or_iff_not_imp_left]
  intro hlist row hrow
  push Not at hlist
  obtain ⟨scalar, hscalar, hnot⟩ := hlist
  by_contra hne
  obtain ⟨sub, subs, hsubs⟩ := List.exists_cons_of_ne_nil hne
  have hfront : ∀ base ∈ cluster, ∃ members,
      (base :: members).Perm cluster := by
    intro base hbase
    obtain ⟨before, after, rfl⟩ := List.append_of_mem hbase
    exact ⟨before ++ after, List.perm_middle.symm⟩
  obtain ⟨others, hothers⟩ := hfront scalar hscalar
  obtain ⟨members, hmembers⟩ := hfront row hrow
  have hsame := (h _ hothers sub.name).trans (h _ hmembers sub.name).symm
  have hisList : isList row = true := by
    cases hvalue : row.value <;> simp_all [isList, rowsOf]
  rw [fieldOf_canonicalise, if_neg hnot, fieldOf_canonicalise, if_pos hisList]
    at hsame
  have hnone := List.argmax_eq_none.mp (Option.map_eq_none_iff.mp hsame.symm)
  have hmem : sub ∈ candidates (row :: members) sub.name := by
    simp [candidates, hsubs]
  simp [hnone] at hmem

variable (text)

/--
The canonical row does not depend on the order of its cluster exactly when the
rows are uniform and, for each name, equally good candidates agree in all that is
kept.
-/
theorem orderIndependent_iff (cluster : List ExtractedField) :
    OrderIndependent text cluster ↔
      Uniform cluster ∧ ∀ name, TiesAgree text cluster name := by
  have hmerged : (∀ row ∈ cluster, isList row = true) →
      (OrderIndependent text cluster ↔
        ∀ name, TiesAgree text cluster name) := by
    intro hlist
    have hname : ∀ name, TiesAgree text cluster name ↔
        ∀ arranged : List ExtractedField, arranged.Perm cluster →
          (fieldOf (canonicalise text arranged) name).map kept =
            (fieldOf (canonicalise text cluster) name).map kept := by
      intro name
      rw [TiesAgree, ← findSome?_perm_iff]
      refine forall₂_congr fun arranged hperm => ?_
      rw [fieldOf_arranged hlist hperm, fieldOf_arranged hlist (.refl _)]
    exact ⟨fun h name => (hname name).mpr fun arranged hperm =>
      h arranged hperm name, fun h arranged hperm name =>
      (hname name).mp (h name) arranged hperm⟩
  constructor
  · intro h
    refine ⟨h.uniform, ?_⟩
    rcases h.uniform with hlist | hempty
    · exact (hmerged hlist).mp h
    · intro name first hfirst _ _ found _ hfound
      simp [firstBest, hempty first hfirst] at hfound
  · rintro ⟨hlist | hempty, hties⟩
    · exact (hmerged hlist).mpr hties
    · intro arranged hperm name
      have harranged : ∀ row ∈ arranged, rowsOf row = [] :=
        fun row hrow => hempty row (hperm.mem_iff.mp hrow)
      rw [fieldOf_of_empty hempty, fieldOf_of_empty harranged]

end

/-! ## One name on two pages -/

def foundOn (page : Int) : ExtractedField where
  name := "row"
  value := .list [{ name := "nombre", value := .str "Ana", pages := [page] }]

theorem not_orderIndependent :
    ¬ ∀ (text : TextRuntime) (cluster : List ExtractedField),
      OrderIndependent text cluster := by
  intro h
  have hsame := h .ascii [foundOn 1, foundOn 2] [foundOn 2, foundOn 1]
    (List.Perm.swap _ _ _) "nombre"
  have hpages := congrArg (Option.map Kept.pages) hsame
  revert hpages
  decide +kernel

end EntityResolution

end Flydocs
