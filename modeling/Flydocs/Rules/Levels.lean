import Flydocs.Foundation.LevelSchedule
import Flydocs.Rules.Acceptance

/-!
# The levels of an evaluation

`evaluate` asks the agent about one level of rules at a time.  The calls follow
the level schedule of the dependency graph, whatever the agent answers, and
each of them is given what earlier calls found about the parents of its rules.
-/

namespace Flydocs

open Foundation DependencyGraph Dtos RequestValidator

namespace RuleEngine

/-! ## Calls -/

structure LevelCall where
  active : List RuleSpec
  previous : List Interfaces.RuleResult
  answer : Except Failure (List RawRuleResult)

def LevelCall.results (rules : List RuleSpec) (call : LevelCall) :
    List Interfaces.RuleResult :=
  match call.answer with
  | .error _ => []
  | .ok raws => raws.map (ruleResult rules)

section

variable (self : RuleEngine) (rules : List RuleSpec)

/-- The calls that `evaluateLevels` makes; one that raises is the last. -/
def levelCalls (graph : DependencyGraph String) :
    Nat → Nat → List String → List Interfaces.RuleResult → List LevelCall
  | 0, _, _, _ => []
  | rounds + 1, level, done, results =>
      let ready := getReady graph done
      if ready = [] then []
      else
        let active := ready.filterMap (ruleById rules)
        let previous := results.filter (usedByAny ·.ruleId active)
        match self.agent (level + 1) active previous with
        | .error failure => [⟨active, previous, .error failure⟩]
        | .ok raws =>
            ⟨active, previous, .ok raws⟩ ::
              levelCalls graph rounds (level + 1) (done ++ ready)
                (results ++ raws.map (ruleResult rules))

def calls : List LevelCall :=
  let graph := buildDag rules
  match self.sorter.prepare graph with
  | .error _ => []
  | .ok () => self.levelCalls rules graph graph.nodes.length 0 [] []

end

variable {self : RuleEngine} {rules : List RuleSpec}
  {graph : DependencyGraph String}

theorem evaluateLevels_cases (rounds level : Nat) (done : List String)
    (results : List Interfaces.RuleResult) :
    (∃ failure,
      self.evaluateLevels rules graph rounds level done results =
        .error (.agent failure) ∧
      ∃ call ∈ self.levelCalls rules graph rounds level done results,
        call.answer = .error failure) ∨
    (self.evaluateLevels rules graph rounds level done results =
        .ok (results ++
          (self.levelCalls rules graph rounds level done results).flatMap
            (·.results rules)) ∧
      (self.levelCalls rules graph rounds level done results).map (·.active) =
        (graph.levels rounds done).map (·.filterMap (ruleById rules))) := by
  induction rounds generalizing level done results with
  | zero => exact .inr ⟨by simp [evaluateLevels, levelCalls], rfl⟩
  | succ rounds ih =>
      simp only [evaluateLevels, levelCalls, levels]
      by_cases hready : getReady graph done = []
      · have hnone : graph.ready done = [] := hready
        simp [hready, hnone]
      · have hsome : graph.ready done ≠ [] := hready
        simp only [if_neg hready, if_neg hsome]
        cases self.agent (level + 1)
            ((getReady graph done).filterMap (ruleById rules))
            (results.filter (usedByAny ·.ruleId
              ((getReady graph done).filterMap (ruleById rules)))) with
        | error failure =>
            exact .inl ⟨failure, rfl, _, List.mem_singleton_self _, rfl⟩
        | ok raws =>
            simp only
            rcases ih (level + 1) (done ++ getReady graph done)
                (results ++ raws.map (ruleResult rules)) with
              ⟨failure, hraised, call, hcall, hanswer⟩ | ⟨hreturned, hactive⟩
            · exact .inl ⟨failure, hraised, call,
                List.mem_cons_of_mem _ hcall, hanswer⟩
            · refine .inr ⟨?_, ?_⟩
              · rw [hreturned, List.flatMap_cons, List.append_assoc]
                rfl
              · rw [List.map_cons, List.map_cons, hactive]
                rfl

theorem levelCalls_previous {rounds level : Nat} {done : List String}
    {results : List Interfaces.RuleResult} {index : Nat} {call : LevelCall}
    (h : (self.levelCalls rules graph rounds level done results)[index]? =
      some call) :
    call.previous =
      (results ++
        ((self.levelCalls rules graph rounds level done results).take
          index).flatMap (·.results rules)).filter
        (usedByAny ·.ruleId call.active) := by
  induction rounds generalizing level done results index with
  | zero => simp [levelCalls] at h
  | succ rounds ih =>
      simp only [levelCalls] at h ⊢
      split at h
      · simp at h
      · rename_i hready
        rw [if_neg hready]
        split at h
        · cases index with
          | zero =>
              cases h
              simp
          | succ index => simp at h
        · cases index with
          | zero =>
              cases h
              simp
          | succ index =>
              rw [ih (by simpa using h), List.take_succ_cons,
                List.flatMap_cons, List.append_assoc]
              rfl

theorem levelCalls_answer {rounds level : Nat} {done : List String}
    {results : List Interfaces.RuleResult} {call : LevelCall}
    (h : call ∈ self.levelCalls rules graph rounds level done results) :
    ∃ asked, call.answer = self.agent asked call.active call.previous := by
  induction rounds generalizing level done results with
  | zero => simp [levelCalls] at h
  | succ rounds ih =>
      simp only [levelCalls] at h
      split at h
      · simp at h
      · split at h
        · rename_i hanswer
          rw [List.mem_singleton] at h
          exact ⟨level + 1, h ▸ hanswer.symm⟩
        · rename_i hanswer
          rcases List.mem_cons.mp h with rfl | hlater
          · exact ⟨level + 1, hanswer.symm⟩
          · exact ih hlater

theorem evaluateLevels_of_pending_le {rounds level : Nat} {done : List String}
    {results : List Interfaces.RuleResult}
    (h : (graph.pending done).length ≤ rounds) (more : Nat) :
    self.evaluateLevels rules graph (rounds + more) level done results =
      self.evaluateLevels rules graph rounds level done results := by
  induction rounds generalizing level done results with
  | zero =>
      have hnone : getReady graph done = [] := by
        by_contra hsome
        have hlt := pending_append_lt hsome
        omega
      cases more <;> simp [evaluateLevels, hnone]
  | succ rounds ih =>
      rw [Nat.add_right_comm]
      simp only [evaluateLevels]
      split
      · rfl
      · rename_i hsome
        have hlt : (graph.pending (done ++ getReady graph done)).length <
            (graph.pending done).length := pending_append_lt hsome
        split
        · rfl
        · exact ih (by omega)

/-! ## Respecting dependencies -/

/-- Rule ids, each the id of a direct parent of the rule after it. -/
def DependencyChain (rules : List RuleSpec) (path : List String) : Prop :=
  path.IsChain (HasRuleParent rules) ∧ path ⊆ rules.map (·.id)

def ActiveIn (calls : List LevelCall) (index : Nat) (rule : RuleSpec) : Prop :=
  ∃ call, calls[index]? = some call ∧ rule ∈ call.active

structure RespectsDependencies (rules : List RuleSpec)
    (calls : List LevelCall) : Prop where
  active_once : (calls.flatMap (·.active)).Perm rules
  after_parents : ∀ (index : Nat) (rule parent : RuleSpec),
    ActiveIn calls index rule → parent ∈ rules →
      .rule parent.id ∈ rule.parents →
        ∃ earlier < index, ActiveIn calls earlier parent
  one_per_link : ∃ path, DependencyChain rules path ∧
    path.length = calls.length
  no_longer_chain : ∀ path, DependencyChain rules path →
    path.length ≤ calls.length
  given : ∀ (index : Nat) (call : LevelCall), calls[index]? = some call →
    call.previous =
      ((calls.take index).flatMap (·.results rules)).filter fun result =>
        decide (∃ rule ∈ call.active,
          RuleParent.rule result.ruleId ∈ rule.parents)

theorem usedByAny_eq (id : String) (active : List RuleSpec) :
    usedByAny id active =
      decide (∃ rule ∈ active, RuleParent.rule id ∈ rule.parents) := by
  rw [Bool.eq_iff_iff]
  simp [usedByAny]

theorem edge_buildDag_iff {parent child : String} :
    (buildDag rules).Edge parent child ↔
      HasRuleParent rules parent child ∧ parent ∈ rules.map (·.id) := by
  rw [buildDag_eq_ruleGraph, edge_ruleGraph_iff]

theorem mem_nodes_buildDag_iff {id : String} :
    id ∈ (buildDag rules).nodes ↔ id ∈ rules.map (·.id) := by
  constructor
  · intro hmem
    obtain ⟨declaration, hdeclared, hid⟩ := List.mem_flatMap.mp hmem
    obtain ⟨rule, hrule, rfl⟩ := List.mem_map.mp hdeclared
    rcases List.mem_cons.mp hid with rfl | hparent
    · exact List.mem_map_of_mem hrule
    · exact (edge_buildDag_iff.mp ⟨_, hdeclared, hparent⟩).2
  · intro hmem
    obtain ⟨rule, hrule, rfl⟩ := List.mem_map.mp hmem
    exact List.mem_flatMap.mpr
      ⟨_, List.mem_map_of_mem hrule, List.mem_cons_self⟩

theorem dependencyChain_iff {path : List String} :
    DependencyChain rules path ↔
      path.IsChain (buildDag rules).Edge ∧ path ⊆ (buildDag rules).nodes := by
  have hnodes : path ⊆ (buildDag rules).nodes ↔ path ⊆ rules.map (·.id) :=
    forall₂_congr fun _ _ => mem_nodes_buildDag_iff
  rw [DependencyChain, hnodes]
  refine and_congr_left fun hdeclared => ⟨fun hchain => ?_, fun hchain => ?_⟩
  · refine List.IsChain.imp_of_mem_imp ?_ hchain
    intro parent child hparent _ hedge
    exact edge_buildDag_iff.mpr ⟨hedge, hdeclared hparent⟩
  · exact hchain.imp fun _ _ hedge => (edge_buildDag_iff.mp hedge).1

theorem ruleById_eq_some_iff (hids : (rules.map (·.id)).Nodup) {id : String}
    {rule : RuleSpec} :
    ruleById rules id = some rule ↔ rule ∈ rules ∧ rule.id = id := by
  constructor
  · intro h
    have hid := key_of_lookupLast h
    exact ⟨mem_of_lookupLast h, hid⟩
  · rintro ⟨hmem, rfl⟩
    exact lookupLast_of_nodup hids hmem

section

variable {calls : List LevelCall} {levels : List (List String)}
  (hids : (rules.map (·.id)).Nodup)
  (hactive : calls.map (·.active) =
    levels.map (·.filterMap (ruleById rules)))

include hids hactive

theorem activeIn_iff {index : Nat} {rule : RuleSpec} :
    ActiveIn calls index rule ↔ rule ∈ rules ∧ OnLevel levels index rule.id := by
  have hindex := congrArg (·[index]?) hactive
  simp only [List.getElem?_map] at hindex
  have hleft : ActiveIn calls index rule ↔
      ∃ active, (calls[index]?).map (·.active) = some active ∧
        rule ∈ active := by
    simp [ActiveIn]
  rw [hleft, hindex]
  simp only [Option.map_eq_some_iff, exists_exists_and_eq_and,
    List.mem_filterMap, ruleById_eq_some_iff hids, OnLevel]
  constructor
  · rintro ⟨level, hlevel, id, hid, hrule, rfl⟩
    exact ⟨hrule, level, hlevel, hid⟩
  · rintro ⟨hrule, level, hlevel, hid⟩
    exact ⟨level, hlevel, rule.id, hid, hrule, rfl⟩

theorem active_perm_of_schedule (hgraph : ¬ (buildDag rules).Cyclic)
    (hschedule : Schedule (buildDag rules) [] levels) :
    (calls.flatMap (·.active)).Perm rules := by
  have hflat : calls.flatMap (·.active) =
      levels.flatten.filterMap (ruleById rules) := by
    rw [List.flatMap_def, hactive, List.filterMap_flatten]
  rw [hflat]
  refine (List.perm_ext_iff_of_nodup ?_ hids.of_map).mpr fun rule => ?_
  · refine hschedule.nodup.1.filterMap fun id other rule hid hother => ?_
    rw [← ((ruleById_eq_some_iff hids).mp hid).2,
      ← ((ruleById_eq_some_iff hids).mp hother).2]
  · simp only [List.mem_filterMap, ruleById_eq_some_iff hids,
      hschedule.complete hgraph, mem_nodes_buildDag_iff]
    constructor
    · rintro ⟨_, -, hrule, -⟩
      exact hrule
    · intro hrule
      exact ⟨rule.id, List.mem_map_of_mem hrule, hrule, rfl⟩

theorem respectsDependencies_of_schedule
    (hacyclic : ¬ RulesCyclic rules)
    (hschedule : Schedule (buildDag rules) [] levels)
    (hprevious : ∀ (index : Nat) (call : LevelCall),
      calls[index]? = some call →
        call.previous = ((calls.take index).flatMap (·.results rules)).filter
          (usedByAny ·.ruleId call.active)) :
    RespectsDependencies rules calls := by
  have hgraph : ¬ (buildDag rules).Cyclic := by
    rw [buildDag_eq_ruleGraph, cyclic_ruleGraph_iff]
    exact hacyclic
  have hlength : calls.length = levels.length := by
    simpa using congrArg List.length hactive
  obtain ⟨hlongest, hshorter⟩ := hschedule.longest_chain hgraph
  refine ⟨active_perm_of_schedule hids hactive hgraph hschedule,
    ?_, ?_, ?_, ?_⟩
  · intro index rule parent hrule hparent hdeclared
    obtain ⟨hmem, hon⟩ := (activeIn_iff hids hactive).mp hrule
    have hedge : (buildDag rules).Edge parent.id rule.id :=
      edge_buildDag_iff.mpr
        ⟨⟨rule, hmem, rfl, hdeclared⟩, List.mem_map_of_mem hparent⟩
    obtain ⟨earlier, hearlier, hbefore⟩ :=
      hschedule.predecessor_below hon hedge
    exact ⟨earlier, hearlier, (activeIn_iff hids hactive).mpr
      ⟨hparent, hbefore⟩⟩
  · obtain ⟨path, hchain, hnodes, hpath⟩ := hlongest
    exact ⟨path, dependencyChain_iff.mpr ⟨hchain, hnodes⟩,
      hpath.trans hlength.symm⟩
  · intro path hpath
    obtain ⟨hchain, hnodes⟩ := dependencyChain_iff.mp hpath
    exact hlength ▸ hshorter path hchain hnodes
  · intro index call hcall
    rw [hprevious index call hcall]
    simp only [usedByAny_eq]

end

/-- On acyclic rules the engine returns what its calls found, or one raised. -/
theorem evaluate_cases (self : RuleEngine) (hacyclic : ¬ RulesCyclic rules) :
    (∃ failure, self.evaluate rules = .error (.agent failure) ∧
      ∃ call ∈ self.calls rules, call.answer = .error failure) ∨
    (self.evaluate rules =
        .ok ((self.calls rules).flatMap (·.results rules)) ∧
      (self.calls rules).map (·.active) =
        ((buildDag rules).levels (buildDag rules).nodes.length []).map
          (·.filterMap (ruleById rules))) := by
  have hprepare := self.prepare_buildDag_eq_ok_iff.mpr hacyclic
  by_cases hrules : rules = []
  · subst hrules
    right
    simp only [calls, hprepare]
    exact ⟨rfl, rfl⟩
  · simp only [evaluate, if_neg hrules, calls, hprepare]
    simpa using @evaluateLevels_cases self rules (buildDag rules)
      (buildDag rules).nodes.length 0 [] []

/-- `evaluate` is the loop run to its end; it raises only where a call does,
and when it returns, its calls respect the dependencies of the rules. -/
theorem evaluate_respectsDependencies (self : RuleEngine)
    {rules : List RuleSpec} (hids : (rules.map (·.id)).Nodup)
    (hacyclic : ¬ RulesCyclic rules) :
    (rules ≠ [] → ∀ more,
      self.evaluateLevels rules (buildDag rules)
          ((buildDag rules).nodes.length + more) 0 [] [] =
        self.evaluate rules) ∧
    (∀ error, self.evaluate rules = .error error →
      ∃ failure, error = .agent failure ∧
        ∃ call ∈ self.calls rules, call.answer = .error failure) ∧
    ∀ results, self.evaluate rules = .ok results →
      RespectsDependencies rules (self.calls rules) := by
  have hprepare := self.prepare_buildDag_eq_ok_iff.mpr hacyclic
  have hpending := pending_nil_length_le (buildDag rules)
  refine ⟨fun hrules more => ?_, fun error herror => ?_, fun results hok => ?_⟩
  · rw [evaluateLevels_of_pending_le hpending]
    simp only [evaluate, if_neg hrules, hprepare]
  · rcases self.evaluate_cases hacyclic with
      ⟨failure, hraised, hcall⟩ | ⟨hreturned, -⟩
    · rw [hraised] at herror
      cases herror
      exact ⟨failure, rfl, hcall⟩
    · rw [hreturned] at herror
      cases herror
  · rcases self.evaluate_cases hacyclic with ⟨_, hraised, -⟩ | ⟨-, hactive⟩
    · rw [hraised] at hok
      cases hok
    · refine respectsDependencies_of_schedule hids hactive hacyclic
        (schedule_levels hpending) fun index call hcall => ?_
      have hprevious := hcall
      simp only [calls, hprepare] at hprevious ⊢
      simpa using levelCalls_previous hprevious

/-! ## A rule with two parents -/

def approving : RuleEngine where
  isPrintable _ := true
  sorter := .peeling
  agent _ active _ :=
    .ok (active.map fun rule => { ruleId := rule.id, output := "true" })

def acceptance : List RuleSpec :=
  [{ id := "acceptable", predicate := "the invoice may be paid",
     parents := [.rule "totals", .rule "vat_id"] },
    { id := "totals", predicate := "the totals add up" },
    { id := "vat_id", predicate := "the VAT id is valid",
      parents := [.rule "totals"] }]

theorem acceptance_respectsDependencies :
    (approving.calls acceptance).length = 3 ∧
      RespectsDependencies acceptance (approving.calls acceptance) := by
  have hacyclic : ¬ RulesCyclic acceptance := by
    rw [← cyclic_ruleGraph_iff, ← leftover_ne_nil_iff]
    decide
  refine ⟨by decide, ?_⟩
  exact (approving.evaluate_respectsDependencies (by decide) hacyclic).2.2 _ rfl

end RuleEngine

end Flydocs
