import Mathlib.Data.List.Pairwise
import Mathlib.Data.List.Perm.Basic

/-!
# Clusters around leaders

Items are put one after the other into the first cluster whose leader they
follow; an item that follows none leads a cluster of its own.  The leader of a
cluster is its first item.
-/

namespace Flydocs.Foundation

/-- What holds of the empty list, and of a list if it holds of all selections
from its tail, holds of every list. -/
theorem filter_induction {Item : Type*} {motive : List Item → Prop}
    (nil : motive [])
    (cons : ∀ item items, (∀ keep : Item → Bool, motive (items.filter keep)) →
      motive (item :: items)) (items : List Item) : motive items := by
  induction hlength : items.length using Nat.strongRecOn
    generalizing items with
  | _ length ih =>
      cases items with
      | nil => exact nil
      | cons item items =>
          refine cons item items fun keep => ih _ ?_ _ rfl
          rw [← hlength, List.length_cons]
          exact Nat.lt_succ_of_le (List.length_filter_le _ _)

namespace LeaderClusters

variable {Item : Type*} (follows : Item → Item → Bool)

def joins (item : Item) : List Item → Bool
  | [] => false
  | leader :: _ => follows item leader

def place (clusters : List (List Item)) (item : Item) : List (List Item) :=
  match clusters.findIdx? (joins follows item) with
  | some index => clusters.modify index (· ++ [item])
  | none => clusters ++ [[item]]

def clusters (items : List Item) : List (List Item) :=
  items.foldl (place follows) []

/-- The items that follow the first one agree, and so do, in the same way, the
items that do not follow it. -/
inductive Agreeing (agree : Item → Item → Prop) : List Item → Prop
  | nil : Agreeing agree []
  | cons {leader : Item} {items : List Item}
      (followers : (items.filter (follows · leader)).Pairwise agree)
      (rest : Agreeing agree (items.filter fun item => !follows item leader)) :
      Agreeing agree (leader :: items)

/-- Each first item, taken away with those that follow it, is apart from what
was taken away before. -/
inductive Spread (apart : List Item → List Item → Prop) :
    List (List Item) → List Item → Prop
  | nil {taken : List (List Item)} : Spread apart taken []
  | cons {taken : List (List Item)} {leader : Item} {items : List Item}
      (first : ∀ earlier ∈ taken,
        apart earlier (leader :: items.filter (follows · leader)))
      (rest : Spread apart
        (taken ++ [leader :: items.filter (follows · leader)])
        (items.filter fun item => !follows item leader)) :
      Spread apart taken (leader :: items)

section

variable {follows : Item → Item → Bool}

/-! ## Where an item goes -/

theorem joins_append {cluster : List Item} (hne : cluster ≠ [])
    (other item : Item) :
    joins follows other (cluster ++ [item]) = joins follows other cluster := by
  cases cluster with
  | nil => exact absurd rfl hne
  | cons leader members => rfl

theorem findIdx?_place (clusters : List (List Item)) (item other : Item) :
    (place follows clusters item).findIdx? (joins follows other) =
      match clusters.findIdx? (joins follows item) with
      | some _ => clusters.findIdx? (joins follows other)
      | none => (clusters.findIdx? (joins follows other)).or
          (if follows other item then some clusters.length else none) := by
  induction clusters with
  | nil =>
      cases hfollows : follows other item <;>
        simp [place, joins, List.findIdx?_cons, hfollows]
  | cons cluster clusters ih =>
      unfold place at ih ⊢
      simp only [List.findIdx?_cons]
      cases hjoins : joins follows item cluster with
      | true =>
          have hne : cluster ≠ [] := by rintro rfl; cases hjoins
          simp [List.findIdx?_cons, joins_append hne]
      | false =>
          cases hindex : clusters.findIdx? (joins follows item) with
          | some index =>
              rw [hindex] at ih
              simp [List.findIdx?_cons, ih]
          | none =>
              rw [hindex] at ih
              cases hother : joins follows other cluster with
              | true => simp [List.findIdx?_cons, hother]
              | false =>
                  cases hfollows : follows other item <;>
                    simp_all [List.findIdx?_cons]

/-! ## The first cluster -/

/-- The first leader takes all the items that follow it, and the other clusters
are those of the rest. -/
theorem foldl_place_cons (leader : Item) (members : List Item)
    (rest : List (List Item)) (items : List Item) :
    items.foldl (place follows) ((leader :: members) :: rest) =
      (leader :: members ++ items.filter (follows · leader)) ::
        (items.filter fun item => !follows item leader).foldl (place follows)
          rest := by
  induction items generalizing members rest with
  | nil => simp
  | cons item items ih =>
      rw [List.foldl_cons, List.filter_cons, List.filter_cons]
      cases hfollows : follows item leader with
      | true =>
          have hplace : place follows ((leader :: members) :: rest) item =
              (leader :: (members ++ [item])) :: rest := by
            simp [place, joins, List.findIdx?_cons, hfollows]
          rw [hplace, ih]
          simp
      | false =>
          have hplace : place follows ((leader :: members) :: rest) item =
              (leader :: members) :: place follows rest item := by
            simp only [place, List.findIdx?_cons, joins, hfollows]
            cases rest.findIdx? (joins follows item) <;> simp
          rw [hplace, ih]
          simp

@[simp] theorem clusters_nil : clusters follows [] = [] := rfl

theorem clusters_cons (leader : Item) (items : List Item) :
    clusters follows (leader :: items) =
      (leader :: items.filter (follows · leader)) ::
        clusters follows (items.filter fun item => !follows item leader) := by
  have hplace : place follows [] leader = [[leader]] := rfl
  rw [clusters, List.foldl_cons, hplace, foldl_place_cons]
  rfl

/-! ## Partition -/

theorem flatten_perm (items : List Item) :
    (clusters follows items).flatten.Perm items := by
  induction items using filter_induction with
  | nil => rfl
  | cons leader items ih =>
      rw [clusters_cons, List.flatten_cons, List.cons_append]
      exact (((ih _).append_left _).trans
        (List.filter_append_perm _ items)).cons leader

theorem cluster_sublist {items cluster : List Item}
    (hcluster : cluster ∈ clusters follows items) : cluster.Sublist items := by
  induction items using filter_induction with
  | nil => simp at hcluster
  | cons leader items ih =>
      rw [clusters_cons] at hcluster
      rcases List.mem_cons.mp hcluster with rfl | hcluster
      · exact List.filter_sublist.cons_cons leader
      · exact ((ih _ hcluster).trans List.filter_sublist).cons leader

theorem exists_leader {items cluster : List Item}
    (hcluster : cluster ∈ clusters follows items) :
    ∃ leader members, cluster = leader :: members ∧
      ∀ item ∈ members, follows item leader = true := by
  induction items using filter_induction with
  | nil => simp at hcluster
  | cons leader items ih =>
      rw [clusters_cons] at hcluster
      rcases List.mem_cons.mp hcluster with rfl | hcluster
      · exact ⟨leader, _, rfl, fun item hitem => (List.mem_filter.mp hitem).2⟩
      · exact ih _ hcluster

theorem leaders_sublist (items : List Item) :
    ((clusters follows items).filterMap List.head?).Sublist items := by
  induction items using filter_induction with
  | nil => exact .slnil
  | cons leader items ih =>
      rw [clusters_cons, List.filterMap_cons, List.head?_cons]
      exact ((ih _).trans List.filter_sublist).cons_cons leader

theorem clusters_pairwise (follows : Item → Item → Bool) (items : List Item) :
    (clusters follows items).Pairwise fun earlier later =>
      ∀ item ∈ later, joins follows item earlier = false := by
  induction items using filter_induction with
  | nil => simp
  | cons leader items ih =>
      rw [clusters_cons, List.pairwise_cons]
      refine ⟨fun later hlater item hitem => ?_, ih _⟩
      have hmem := (cluster_sublist hlater).subset hitem
      simpa [joins] using (List.mem_filter.mp hmem).2

/-! ## Agreement within the clusters -/

theorem forall_pairwise_iff_agreeing {agree : Item → Item → Prop}
    {items : List Item}
    (hagree : ∀ leader ∈ items, ∀ item ∈ items, follows item leader = true →
      agree leader item) :
    (∀ cluster ∈ clusters follows items, cluster.Pairwise agree) ↔
      Agreeing follows agree items := by
  induction items using filter_induction with
  | nil => exact iff_of_true (by simp) .nil
  | cons leader items ih =>
      have hmem : ∀ item ∈ items.filter (fun item => !follows item leader),
          item ∈ leader :: items := fun item hitem =>
        List.mem_cons_of_mem _ (List.mem_filter.mp hitem).1
      rw [clusters_cons, List.forall_mem_cons, List.pairwise_cons,
        ih _ fun earlier hearlier later hlater =>
          hagree earlier (hmem _ hearlier) later (hmem _ hlater)]
      constructor
      · rintro ⟨⟨-, hfollowers⟩, hrest⟩
        exact .cons hfollowers hrest
      · rintro (_ | ⟨hfollowers, hrest⟩)
        refine ⟨⟨fun item hitem => ?_, hfollowers⟩, hrest⟩
        obtain ⟨hitem, hfollows⟩ := List.mem_filter.mp hitem
        exact hagree leader List.mem_cons_self item
          (List.mem_cons_of_mem _ hitem) hfollows

/-! ## Clusters apart from each other -/

theorem spread_iff {apart : List Item → List Item → Prop}
    (taken : List (List Item)) (items : List Item) :
    Spread follows apart taken items ↔
      (∀ earlier ∈ taken, ∀ later ∈ clusters follows items,
        apart earlier later) ∧
      (clusters follows items).Pairwise apart := by
  induction items using filter_induction generalizing taken with
  | nil => exact iff_of_true .nil (by simp)
  | cons leader items ih =>
      rw [clusters_cons, List.pairwise_cons]
      constructor
      · rintro (_ | ⟨hfirst, hrest⟩)
        obtain ⟨hlater, hpairwise⟩ := (ih _ _).mp hrest
        refine ⟨fun earlier hearlier => List.forall_mem_cons.mpr
          ⟨hfirst earlier hearlier,
            hlater earlier (List.mem_append_left _ hearlier)⟩, ?_, hpairwise⟩
        exact hlater _ (List.mem_append_right _ (List.mem_singleton_self _))
      · rintro ⟨htaken, hleader, hpairwise⟩
        refine .cons (fun earlier hearlier => htaken earlier hearlier _
          List.mem_cons_self) ((ih _ _).mpr ⟨?_, hpairwise⟩)
        intro earlier hearlier later hlater
        rcases List.mem_append.mp hearlier with hearlier | hearlier
        · exact htaken earlier hearlier later (List.mem_cons_of_mem _ hlater)
        · obtain rfl := List.mem_singleton.mp hearlier
          exact hleader later hlater

/-! ## Items that do not follow one another -/

theorem clusters_eq_singletons_iff (items : List Item) :
    clusters follows items = items.map (fun item => [item]) ↔
      items.Pairwise fun leader item => follows item leader = false := by
  induction items with
  | nil => simp
  | cons leader items ih =>
      rw [clusters_cons, List.map_cons, List.cons.injEq, List.cons.injEq,
        List.pairwise_cons, ← ih, List.filter_eq_nil_iff]
      constructor
      · rintro ⟨⟨-, hnone⟩, hrest⟩
        have hall : items.filter (fun item => !follows item leader) = items :=
          List.filter_eq_self.mpr (by simpa using hnone)
        rw [hall] at hrest
        exact ⟨by simpa using hnone, hrest⟩
      · rintro ⟨hnone, hrest⟩
        have hall : items.filter (fun item => !follows item leader) = items :=
          List.filter_eq_self.mpr (by simpa using hnone)
        rw [hall]
        exact ⟨⟨rfl, by simpa using hnone⟩, hrest⟩

end

end LeaderClusters

end Flydocs.Foundation
