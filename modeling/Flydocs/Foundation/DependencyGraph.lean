import Mathlib.Data.Fintype.Card
import Mathlib.Data.Set.Finite.List
import Mathlib.Logic.Relation
import Mathlib.Order.WellFounded

/-!
# Dependency graphs and their cycles

A graph is the list of its declarations, a node with the nodes that come
before it; declarations of one node add up.  `TopologicalSorter` is a cycle
detector that is right, and `peeling` is one: it takes away the nodes without
predecessors until none is left or every node left has a predecessor.
-/

namespace Flydocs.Foundation

abbrev DependencyGraph (Node : Type*) := List (Node × List Node)

namespace DependencyGraph

variable {Node : Type*}

def Edge (graph : DependencyGraph Node) (before node : Node) : Prop :=
  ∃ declared, (node, declared) ∈ graph ∧ before ∈ declared

def Cyclic (graph : DependencyGraph Node) : Prop :=
  ∃ node, Relation.TransGen graph.Edge node node

def nodes (graph : DependencyGraph Node) : List Node :=
  graph.flatMap fun declaration => declaration.1 :: declaration.2

theorem Edge.mem_nodes {graph : DependencyGraph Node} {before node : Node}
    (h : graph.Edge before node) : node ∈ graph.nodes := by
  obtain ⟨declared, hmem, -⟩ := h
  simp only [nodes, List.mem_flatMap]
  exact ⟨(node, declared), hmem, by simp⟩

def PrecedesIn (graph : DependencyGraph Node) (left : List Node)
    (first second : {node // node ∈ left}) : Prop :=
  Relation.TransGen graph.Edge first.1 second.1

def OnCycleWith (graph : DependencyGraph Node) (node other : Node) : Prop :=
  Relation.TransGen graph.Edge node other ∧
    Relation.TransGen graph.Edge other node

theorem OnCycleWith.exists_predecessor {graph : DependencyGraph Node}
    {node other : Node} (h : graph.OnCycleWith node other) :
    ∃ before, graph.OnCycleWith node before ∧ graph.Edge before other := by
  obtain ⟨hto, hback⟩ := h
  obtain ⟨before, hreach, hedge⟩ :=
    Relation.TransGen.tail'_iff.mp (hback.trans hto)
  rcases Relation.reflTransGen_iff_eq_or_transGen.mp hreach with rfl | hpath
  · exact ⟨before, ⟨hto, hback⟩, hedge⟩
  · exact ⟨before, ⟨hto.trans hpath, .trans (.single hedge) hback⟩, hedge⟩

theorem OnCycleWith.mem_nodes {graph : DependencyGraph Node}
    {node other : Node} (h : graph.OnCycleWith node other) :
    other ∈ graph.nodes := by
  obtain ⟨_, -, hedge⟩ := Relation.TransGen.tail'_iff.mp h.1
  exact hedge.mem_nodes

/-- A finite set whose members all have a predecessor in it runs in a cycle. -/
theorem cyclic_of_forall_predecessor {graph : DependencyGraph Node}
    {left : List Node} (hne : left ≠ [])
    (hleft : ∀ node ∈ left, ∃ before ∈ left, graph.Edge before node) :
    graph.Cyclic := by
  by_contra hacyclic
  have hfinite : Finite {node // node ∈ left} := List.finite_toSet left
  have htrans : IsTrans _ (graph.PrecedesIn left) :=
    ⟨fun _ _ _ => Relation.TransGen.trans⟩
  have hirrefl : Std.Irrefl (graph.PrecedesIn left) :=
    ⟨fun node hcycle => hacyclic ⟨node.1, hcycle⟩⟩
  have hwf := Finite.wellFounded_of_trans_of_irrefl (graph.PrecedesIn left)
  obtain ⟨node, hnode⟩ := List.exists_mem_of_ne_nil left hne
  obtain ⟨least, -, hleast⟩ :=
    hwf.has_min Set.univ ⟨⟨node, hnode⟩, Set.mem_univ _⟩
  obtain ⟨before, hbefore, hedge⟩ := hleft least.1 least.2
  exact hleast ⟨before, hbefore⟩ (Set.mem_univ _) (.single hedge)

/-! ## Peeling -/

variable [DecidableEq Node]

def hasPredecessor (graph : DependencyGraph Node) (left : List Node)
    (node : Node) : Bool :=
  graph.any fun declaration =>
    decide (declaration.1 = node) && declaration.2.any (left.contains ·)

theorem hasPredecessor_iff {graph : DependencyGraph Node} {left : List Node}
    {node : Node} :
    graph.hasPredecessor left node = true ↔
      ∃ before ∈ left, graph.Edge before node := by
  simp only [hasPredecessor, List.any_eq_true, Bool.and_eq_true,
    decide_eq_true_eq, List.contains_iff_mem, Edge]
  constructor
  · rintro ⟨⟨_, declared⟩, hmem, rfl, before, hbefore, hleft⟩
    exact ⟨before, hleft, declared, hmem, hbefore⟩
  · rintro ⟨before, hleft, declared, hmem, hbefore⟩
    exact ⟨(node, declared), hmem, rfl, before, hbefore, hleft⟩

def peel (graph : DependencyGraph Node) (left : List Node) : List Node :=
  left.filter (graph.hasPredecessor left)

def peeled (graph : DependencyGraph Node) : Nat → List Node → List Node
  | 0, left => left
  | rounds + 1, left => peeled graph rounds (graph.peel left)

def leftover (graph : DependencyGraph Node) : List Node :=
  graph.peeled graph.nodes.length graph.nodes

theorem peel_peeled {graph : DependencyGraph Node} {rounds : Nat}
    {left : List Node} (h : left.length ≤ rounds) :
    graph.peel (graph.peeled rounds left) = graph.peeled rounds left := by
  induction rounds generalizing left with
  | zero =>
      have hnil : left = [] := List.eq_nil_of_length_eq_zero (by omega)
      subst hnil
      rfl
  | succ rounds ih =>
      rw [peeled]
      by_cases hstable : graph.peel left = left
      · have hfixed : ∀ count, graph.peeled count left = left := by
          intro count
          induction count with
          | zero => rfl
          | succ count ihcount => rw [peeled, hstable, ihcount]
        rw [hstable, hfixed, hstable]
      · apply ih
        have hlt : (graph.peel left).length < left.length := by
          refine lt_of_le_of_ne (List.length_filter_le ..) fun heq => ?_
          exact hstable (List.filter_sublist.eq_of_length heq)
        omega

theorem subset_peeled {graph : DependencyGraph Node} {core : Node → Prop}
    (hcore : ∀ node, core node → ∃ before, core before ∧
      graph.Edge before node) {rounds : Nat} {left : List Node}
    (hleft : ∀ node, core node → node ∈ left) :
    ∀ node, core node → node ∈ graph.peeled rounds left := by
  induction rounds generalizing left with
  | zero => exact hleft
  | succ rounds ih =>
      apply ih
      intro node hnode
      obtain ⟨before, hbefore, hedge⟩ := hcore node hnode
      refine List.mem_filter.mpr ⟨hleft node hnode, ?_⟩
      exact hasPredecessor_iff.mpr ⟨before, hleft before hbefore, hedge⟩

theorem leftover_ne_nil_iff {graph : DependencyGraph Node} :
    graph.leftover ≠ [] ↔ graph.Cyclic := by
  constructor
  · intro hne
    apply cyclic_of_forall_predecessor hne
    intro node hnode
    have hstable : graph.peel graph.leftover = graph.leftover :=
      peel_peeled (le_refl graph.nodes.length)
    rw [← hstable, peel, List.mem_filter] at hnode
    exact hasPredecessor_iff.mp hnode.2
  · rintro ⟨node, hcycle⟩
    have hmem : node ∈ graph.leftover :=
      subset_peeled (fun _ => OnCycleWith.exists_predecessor)
        (fun _ => OnCycleWith.mem_nodes) node ⟨hcycle, hcycle⟩
    exact List.ne_nil_of_mem hmem

end DependencyGraph

/-- A cycle detector: it reports a cycle exactly when there is one. -/
structure TopologicalSorter (Node : Type*) where
  findCycle : DependencyGraph Node → Option (List Node)
  findCycle_isSome (graph : DependencyGraph Node) :
    (findCycle graph).isSome = true ↔ graph.Cyclic

namespace TopologicalSorter

variable {Node : Type*}

def peeling [DecidableEq Node] : TopologicalSorter Node where
  findCycle graph :=
    if graph.leftover = [] then none else some graph.leftover
  findCycle_isSome graph := by
    rw [← DependencyGraph.leftover_ne_nil_iff]
    split <;> simp [*]

def prepare (sorter : TopologicalSorter Node)
    (graph : DependencyGraph Node) : Except (List Node) Unit :=
  match sorter.findCycle graph with
  | some cycle => .error cycle
  | none => .ok ()

theorem prepare_eq_ok_iff {sorter : TopologicalSorter Node}
    {graph : DependencyGraph Node} :
    sorter.prepare graph = .ok () ↔ ¬ graph.Cyclic := by
  rw [← sorter.findCycle_isSome, prepare]
  cases sorter.findCycle graph <;> simp

end TopologicalSorter

end Flydocs.Foundation
