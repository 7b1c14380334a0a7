import Mathlib.Data.List.Chain
import Flydocs.Foundation.DependencyGraph
import Flydocs.Foundation.PickEach

/-!
# Schedules by level

A sorter that is asked for the nodes that are ready, and told that all of them
are done, hands out a graph level by level.  On an acyclic graph every node
stands on one level, right above the highest of its predecessors, and there
are as many levels as the longest chain has nodes.
-/

namespace Flydocs.Foundation

namespace DependencyGraph

variable {Node : Type*}

theorem Edge.before_mem_nodes {graph : DependencyGraph Node}
    {before node : Node} (h : graph.Edge before node) :
    before ∈ graph.nodes := by
  obtain ⟨declared, hmem, hbefore⟩ := h
  simp only [nodes, List.mem_flatMap]
  exact ⟨(node, declared), hmem, by simp [hbefore]⟩

variable [DecidableEq Node]

def ready (graph : DependencyGraph Node) (done : List Node) : List Node :=
  graph.nodes.eraseDups.filter fun node =>
    decide (node ∉ done) && graph.all fun declaration =>
      decide (declaration.1 = node → declaration.2 ⊆ done)

/-- The levels of a loop that marks done whatever is ready, until nothing is. -/
inductive Schedule (graph : DependencyGraph Node) :
    List Node → List (List Node) → Prop
  | finished {done : List Node} :
      graph.ready done = [] → Schedule graph done []
  | level {done : List Node} {levels : List (List Node)} :
      graph.ready done ≠ [] →
        Schedule graph (done ++ graph.ready done) levels →
          Schedule graph done (graph.ready done :: levels)

/-- The same loop, executable, for as many rounds as are given. -/
def levels (graph : DependencyGraph Node) :
    Nat → List Node → List (List Node)
  | 0, _ => []
  | rounds + 1, done =>
      if graph.ready done = [] then []
      else graph.ready done ::
        levels graph rounds (done ++ graph.ready done)

variable {graph : DependencyGraph Node}

theorem mem_ready_iff {done : List Node} {node : Node} :
    node ∈ graph.ready done ↔ node ∈ graph.nodes ∧ node ∉ done ∧
      ∀ before, graph.Edge before node → before ∈ done := by
  simp only [ready, List.mem_filter, List.mem_eraseDups, Bool.and_eq_true,
    decide_eq_true_eq, List.all_eq_true]
  refine and_congr_right fun _ => and_congr_right fun _ => ?_
  constructor
  · rintro hall before ⟨declared, hmem, hbefore⟩
    exact hall _ hmem rfl hbefore
  · rintro hall ⟨_, declared⟩ hmem rfl before hbefore
    exact hall before ⟨declared, hmem, hbefore⟩

theorem nodup_ready (graph : DependencyGraph Node) (done : List Node) :
    (graph.ready done).Nodup :=
  (nodup_eraseDups graph.nodes).filter _

/-! ## The loop ends -/

def pending (graph : DependencyGraph Node) (done : List Node) : List Node :=
  graph.nodes.eraseDups.filter (· ∉ done)

theorem mem_pending_iff {done : List Node} {node : Node} :
    node ∈ graph.pending done ↔ node ∈ graph.nodes ∧ node ∉ done := by
  simp only [pending, List.mem_filter, List.mem_eraseDups, decide_eq_true_eq]

theorem pending_append_lt {done : List Node} (h : graph.ready done ≠ []) :
    (graph.pending (done ++ graph.ready done)).length <
      (graph.pending done).length := by
  obtain ⟨node, hnode⟩ := List.exists_mem_of_ne_nil _ h
  obtain ⟨hmem, hnew, -⟩ := mem_ready_iff.mp hnode
  have hsplit : graph.pending (done ++ graph.ready done) =
      (graph.pending done).filter (· ∉ graph.ready done) := by
    rw [pending, pending, List.filter_filter]
    refine List.filter_congr fun other _ => ?_
    simp only [List.mem_append, not_or, ← Bool.decide_and]
    exact decide_eq_decide.mpr and_comm
  rw [hsplit, List.length_filter_lt_length_iff_exists]
  exact ⟨node, mem_pending_iff.mpr ⟨hmem, hnew⟩, by simpa using hnode⟩

theorem schedule_levels {rounds : Nat} {done : List Node}
    (h : (graph.pending done).length ≤ rounds) :
    Schedule graph done (graph.levels rounds done) := by
  induction rounds generalizing done with
  | zero =>
      refine .finished (List.eq_nil_iff_forall_not_mem.mpr fun node hnode => ?_)
      obtain ⟨hmem, hnew, -⟩ := mem_ready_iff.mp hnode
      have hnil := List.eq_nil_of_length_eq_zero (Nat.le_zero.mp h)
      have hpending := mem_pending_iff.mpr ⟨hmem, hnew⟩
      simp [hnil] at hpending
  | succ rounds ih =>
      rw [levels]
      split
      · rename_i hnone
        exact .finished hnone
      · rename_i hsome
        have hlt := pending_append_lt hsome
        exact .level hsome (ih (by omega))

theorem pending_nil_length_le (graph : DependencyGraph Node) :
    (graph.pending []).length ≤ graph.nodes.length :=
  ((nodup_eraseDups graph.nodes).filter _).subperm (fun _ hnode =>
    (mem_pending_iff.mp hnode).1) |>.length_le

/-! ## What stands on which level -/

section

omit [DecidableEq Node]

def OnLevel (levels : List (List Node)) (index : Nat) (node : Node) : Prop :=
  ∃ level, levels[index]? = some level ∧ node ∈ level

theorem exists_onLevel_iff {levels : List (List Node)} {node : Node} :
    (∃ index, OnLevel levels index node) ↔ node ∈ levels.flatten := by
  rw [List.mem_flatten]
  constructor
  · rintro ⟨index, level, hlevel, hnode⟩
    exact ⟨level, List.mem_of_getElem? hlevel, hnode⟩
  · rintro ⟨level, hlevel, hnode⟩
    obtain ⟨index, hindex⟩ := List.mem_iff_getElem?.mp hlevel
    exact ⟨index, level, hindex, hnode⟩

theorem mem_flatten_take_iff {levels : List (List Node)} {count : Nat}
    {node : Node} :
    node ∈ (levels.take count).flatten ↔
      ∃ index < count, OnLevel levels index node := by
  rw [← exists_onLevel_iff]
  refine exists_congr fun index => ?_
  simp only [OnLevel, List.getElem?_take]
  split <;> simp_all

theorem OnLevel.lt_length {levels : List (List Node)} {index : Nat}
    {node : Node} (h : OnLevel levels index node) : index < levels.length := by
  obtain ⟨level, hlevel, -⟩ := h
  exact (List.getElem?_eq_some_iff.mp hlevel).1

end

namespace Schedule

variable {done : List Node} {levels : List (List Node)}

theorem getElem?_eq (h : Schedule graph done levels) {index : Nat}
    {level : List Node} (hlevel : levels[index]? = some level) :
    level = graph.ready (done ++ (levels.take index).flatten) ∧
      level ≠ [] := by
  induction h generalizing index with
  | finished => simp at hlevel
  | level hsome _ ih =>
      cases index with
      | zero =>
          cases hlevel
          simpa using hsome
      | succ index =>
          obtain ⟨hready, hne⟩ := ih (by simpa using hlevel)
          exact ⟨by simpa using hready, hne⟩

theorem ready_eq_nil (h : Schedule graph done levels) :
    graph.ready (done ++ levels.flatten) = [] := by
  induction h with
  | finished hnone => simpa using hnone
  | level _ _ ih => simpa using ih

theorem nodup (h : Schedule graph done levels) :
    levels.flatten.Nodup ∧ ∀ node ∈ levels.flatten, node ∉ done := by
  induction h with
  | finished => simp
  | @level done levels _ _ ih =>
      obtain ⟨hnodup, hnew⟩ := ih
      have hready : ∀ node ∈ graph.ready done, node ∉ done :=
        fun node hnode => (mem_ready_iff.mp hnode).2.1
      refine ⟨?_, ?_⟩
      · rw [List.flatten_cons, List.nodup_append]
        refine ⟨nodup_ready graph done, hnodup, ?_⟩
        rintro node hnode other hother rfl
        exact hnew node hother (List.mem_append_right _ hnode)
      · intro node hnode
        rcases List.mem_append.mp (List.flatten_cons ▸ hnode) with
          hlevel | hlater
        · exact hready node hlevel
        · exact fun hmem => hnew node hlater (List.mem_append_left _ hmem)

section

variable (h : Schedule graph [] levels)

include h

theorem onLevel_iff {index : Nat} {node : Node} (hindex : index < levels.length) :
    OnLevel levels index node ↔ node ∈ graph.nodes ∧
      node ∉ (levels.take index).flatten ∧
        ∀ before, graph.Edge before node →
          before ∈ (levels.take index).flatten := by
  have hlevel := List.getElem?_eq_getElem hindex
  have hready := (h.getElem?_eq hlevel).1
  rw [List.nil_append] at hready
  rw [← mem_ready_iff, ← hready]
  simp [OnLevel, hlevel]

theorem onLevel_unique {first second : Nat} {node : Node}
    (hfirst : OnLevel levels first node)
    (hsecond : OnLevel levels second node) : first = second := by
  have hnever : ∀ {low high : Nat}, OnLevel levels low node →
      OnLevel levels high node → ¬ low < high := by
    intro low high hlow hhigh hlt
    have hnew := ((h.onLevel_iff (hhigh.lt_length)).mp hhigh).2.1
    exact hnew (mem_flatten_take_iff.mpr ⟨low, hlt, hlow⟩)
  exact Nat.le_antisymm (not_lt.mp (hnever hsecond hfirst))
    (not_lt.mp (hnever hfirst hsecond))

theorem predecessor_below {index : Nat} {before node : Node}
    (hnode : OnLevel levels index node) (hedge : graph.Edge before node) :
    ∃ lower < index, OnLevel levels lower before := by
  have hbefore := ((h.onLevel_iff (hnode.lt_length)).mp hnode).2.2
  exact mem_flatten_take_iff.mp (hbefore before hedge)

theorem predecessor_just_below {index : Nat} {node : Node}
    (hnode : OnLevel levels (index + 1) node) :
    ∃ before, graph.Edge before node ∧ OnLevel levels index before := by
  have hlt := hnode.lt_length
  obtain ⟨hmem, hnew, hbefore⟩ := (h.onLevel_iff hlt).mp hnode
  by_contra hnone
  push Not at hnone
  have hsooner : OnLevel levels index node := by
    rw [h.onLevel_iff (by omega)]
    refine ⟨hmem, fun hlow => hnew ?_, fun before hedge => ?_⟩
    · obtain ⟨lower, hlower, hon⟩ := mem_flatten_take_iff.mp hlow
      exact mem_flatten_take_iff.mpr ⟨lower, by omega, hon⟩
    · obtain ⟨lower, hlower, hon⟩ :=
        mem_flatten_take_iff.mp (hbefore before hedge)
      have hne : lower ≠ index := by
        rintro rfl
        exact hnone before hedge hon
      exact mem_flatten_take_iff.mpr ⟨lower, by omega, hon⟩
  have hsame := h.onLevel_unique hsooner hnode
  omega

/-- What a node never handed out waits for is never handed out either. -/
theorem complete (hacyclic : ¬ graph.Cyclic) {node : Node} :
    node ∈ levels.flatten ↔ node ∈ graph.nodes := by
  constructor
  · intro hnode
    obtain ⟨index, hon⟩ := exists_onLevel_iff.mpr hnode
    exact ((h.onLevel_iff (hon.lt_length)).mp hon).1
  · intro hnode
    have hnil := h.ready_eq_nil
    rw [List.nil_append] at hnil
    by_contra hmissing
    have hleft : graph.pending levels.flatten ≠ [] :=
      List.ne_nil_of_mem (mem_pending_iff.mpr ⟨hnode, hmissing⟩)
    refine hacyclic (cyclic_of_forall_predecessor hleft ?_)
    intro other hother
    obtain ⟨hmem, hnew⟩ := mem_pending_iff.mp hother
    have hwaits : other ∉ graph.ready levels.flatten := by simp [hnil]
    rw [mem_ready_iff] at hwaits
    push Not at hwaits
    obtain ⟨before, hedge, hbefore⟩ := hwaits hmem hnew
    exact ⟨before, mem_pending_iff.mpr ⟨hedge.before_mem_nodes, hbefore⟩, hedge⟩

/-! ## Chains -/

theorem length_le_of_chain {path : List Node} {node : Node} {index : Nat}
    (hchain : (path ++ [node]).IsChain graph.Edge)
    (hnode : OnLevel levels index node) : path.length ≤ index := by
  induction path using List.reverseRecOn generalizing node index with
  | nil => exact Nat.zero_le _
  | append_singleton path before ih =>
      rw [List.append_assoc, List.isChain_append] at hchain
      obtain ⟨hpath, hlast, hjoin⟩ := hchain
      have hedge : graph.Edge before node := by simpa using hlast
      obtain ⟨lower, hlower, hbefore⟩ := h.predecessor_below hnode hedge
      have hshorter := ih (List.isChain_append.mpr
        ⟨hpath, List.isChain_singleton _, by simpa using hjoin⟩) hbefore
      rw [List.length_append, List.length_singleton]
      omega

theorem exists_chain {index : Nat} {node : Node}
    (hnode : OnLevel levels index node) :
    ∃ path, (path ++ [node]).IsChain graph.Edge ∧ path.length = index := by
  induction index generalizing node with
  | zero => exact ⟨[], List.isChain_singleton _, rfl⟩
  | succ index ih =>
      obtain ⟨before, hedge, hbefore⟩ := h.predecessor_just_below hnode
      obtain ⟨path, hchain, hlength⟩ := ih hbefore
      refine ⟨path ++ [before], ?_, by simp [hlength]⟩
      rw [List.isChain_append]
      exact ⟨hchain, List.isChain_singleton _, by simpa using hedge⟩

/-- There are as many levels as the longest chain has nodes. -/
theorem longest_chain (hacyclic : ¬ graph.Cyclic) :
    (∃ path : List Node, path.IsChain graph.Edge ∧ path ⊆ graph.nodes ∧
      path.length = levels.length) ∧
    ∀ path : List Node, path.IsChain graph.Edge → path ⊆ graph.nodes →
      path.length ≤ levels.length := by
  constructor
  · by_cases hnone : levels = []
    · exact ⟨[], List.isChain_nil, by simp, by simp [hnone]⟩
    · have hpositive := List.length_pos_iff.mpr hnone
      have hlast := List.getElem?_eq_getElem
        (show levels.length - 1 < levels.length by omega)
      obtain ⟨node, hmem⟩ :=
        List.exists_mem_of_ne_nil _ (h.getElem?_eq hlast).2
      obtain ⟨path, hchain, hlength⟩ := h.exists_chain ⟨_, hlast, hmem⟩
      refine ⟨path ++ [node], hchain, ?_, by simp; omega⟩
      intro other hother
      rw [List.mem_append, List.mem_singleton] at hother
      rcases hother with hpath | rfl
      · obtain ⟨before, after, rfl⟩ := List.append_of_mem hpath
        rw [List.append_assoc, List.isChain_append, List.cons_append,
          List.isChain_cons] at hchain
        obtain ⟨next, hnext⟩ : ∃ next, next ∈ (after ++ [node]).head? := by
          cases after <;> simp
        exact (hchain.2.1.1 next hnext).before_mem_nodes
      · exact (h.complete hacyclic).mp
          (exists_onLevel_iff.mp ⟨_, _, hlast, hmem⟩)
  · intro path hchain hnodes
    cases path using List.reverseRecOn with
    | nil => exact Nat.zero_le _
    | append_singleton path node =>
        have hmem := hnodes (List.mem_append_right _
          (List.mem_singleton_self node))
        obtain ⟨index, hnode⟩ := exists_onLevel_iff.mpr
          ((h.complete hacyclic).mpr hmem)
        have hle := h.length_le_of_chain hchain hnode
        have hlt := hnode.lt_length
        rw [List.length_append, List.length_singleton]
        omega

end

end Schedule

end DependencyGraph

end Flydocs.Foundation
