import Flydocs.Rules.Levels

/-!
# Results that are closed over the declared rules

The engine appends whatever the agent answers.  So there is one result for each
declared rule, and one that strays from its valid outputs asks for a human,
exactly where the answers of the agent already are so.
-/

namespace Flydocs

open Foundation DependencyGraph Dtos RequestValidator

namespace RuleEngine

def OutsideValid (rule : RuleSpec) (output : String) : Prop :=
  ∃ valid, rule.output.validOutputs = some valid ∧ output ∉ valid

structure Closed (rules : List RuleSpec) (results : List Interfaces.RuleResult) :
    Prop where
  one_each : (results.map (·.ruleId)).Perm (rules.map (·.id))
  flagged : ∀ result ∈ results, ∀ rule ∈ rules, rule.id = result.ruleId →
    OutsideValid rule result.output → result.humanRevision ≠ none

structure ClosedAnswers (rules : List RuleSpec) (raws : List RawRuleResult) :
    Prop where
  one_each : (raws.map (·.ruleId)).Perm (rules.map (·.id))
  flagged : ∀ raw ∈ raws, ∀ rule ∈ rules, rule.id = raw.ruleId →
    OutsideValid rule raw.output → raw.humanRevision ≠ ""

def LongestChain (rules : List RuleSpec) (depth : Nat) : Prop :=
  (∃ path, DependencyChain rules path ∧ path.length = depth) ∧
    ∀ path, DependencyChain rules path → path.length ≤ depth

def answering (self : RuleEngine) (outputs : Nat → List RawRuleResult) :
    RuleEngine :=
  { self with agent := fun level _ _ => .ok (outputs level) }

variable {self : RuleEngine} {rules : List RuleSpec}
  {outputs : Nat → List RawRuleResult}

theorem closed_map_iff {raws : List RawRuleResult} :
    Closed rules (raws.map (ruleResult rules)) ↔ ClosedAnswers rules raws := by
  have hids : (raws.map (ruleResult rules)).map (·.ruleId) =
      raws.map (·.ruleId) := by
    rw [List.map_map]
    rfl
  have hflag : ∀ raw, (ruleResult rules raw).humanRevision ≠ none ↔
      raw.humanRevision ≠ "" := by
    intro raw
    simp [ruleResult, orNone]
  constructor
  · rintro ⟨hone, hflagged⟩
    refine ⟨hids ▸ hone, fun raw hraw rule hrule hid houtside => ?_⟩
    exact (hflag raw).mp (hflagged _ (List.mem_map_of_mem hraw) rule hrule hid
      houtside)
  · rintro ⟨hone, hflagged⟩
    refine ⟨hids.symm ▸ hone, fun result hresult rule hrule hid houtside => ?_⟩
    obtain ⟨raw, hraw, rfl⟩ := List.mem_map.mp hresult
    exact (hflag raw).mpr (hflagged raw hraw rule hrule hid houtside)

theorem levelCalls_answering (graph : DependencyGraph String)
    (rounds level : Nat) (done : List String)
    (results : List Interfaces.RuleResult) :
    ((self.answering outputs).levelCalls rules graph rounds level done
        results).flatMap (·.results rules) =
      ((List.range (graph.levels rounds done).length).flatMap fun index =>
        outputs (level + index + 1)).map (ruleResult rules) := by
  induction rounds generalizing level done results with
  | zero => rfl
  | succ rounds ih =>
      simp only [levelCalls, levels]
      by_cases hready : getReady graph done = []
      · have hnone : graph.ready done = [] := hready
        simp [hready, hnone]
      · have hsome : graph.ready done ≠ [] := hready
        simp only [if_neg hready, if_neg hsome, answering, List.flatMap_cons,
          List.length_cons, List.range_succ_eq_map, List.flatMap_map,
          List.map_append]
        have hrest := ih (level + 1) (done ++ getReady graph done)
          (results ++ (outputs (level + 1)).map (ruleResult rules))
        simp only [answering, Nat.add_right_comm level 1] at hrest
        rw [hrest]
        rfl

theorem LongestChain.unique {depth other : Nat}
    (h : LongestChain rules depth) (hother : LongestChain rules other) :
    depth = other := by
  obtain ⟨⟨path, hpath, rfl⟩, hlonger⟩ := h
  obtain ⟨⟨path', hpath', rfl⟩, hlonger'⟩ := hother
  exact le_antisymm (hlonger' path hpath) (hlonger path' hpath')

theorem evaluate_answering (self : RuleEngine)
    (outputs : Nat → List RawRuleResult) (hids : (rules.map (·.id)).Nodup)
    (hacyclic : ¬ RulesCyclic rules) :
    ∃ depth, LongestChain rules depth ∧
      (self.answering outputs).evaluate rules =
        .ok (((List.range depth).flatMap fun index =>
          outputs (index + 1)).map (ruleResult rules)) := by
  have hprepare := (self.answering outputs).prepare_buildDag_eq_ok_iff.mpr
    hacyclic
  have hcalls : (self.answering outputs).calls rules =
      (self.answering outputs).levelCalls rules (buildDag rules)
        (buildDag rules).nodes.length 0 [] [] := by
    simp only [calls, hprepare]
  rcases (self.answering outputs).evaluate_cases hacyclic with
    ⟨failure, -, call, hcall, hraised⟩ | ⟨hreturned, hactive⟩
  · rw [hcalls] at hcall
    obtain ⟨asked, hanswer⟩ := levelCalls_answer hcall
    rw [hraised] at hanswer
    cases hanswer
  · have hrespects := ((self.answering outputs).evaluate_respectsDependencies
      hids hacyclic).2.2 _ hreturned
    refine ⟨_, ⟨hrespects.one_per_link, hrespects.no_longer_chain⟩, ?_⟩
    have hlength : ((self.answering outputs).calls rules).length =
        ((buildDag rules).levels (buildDag rules).nodes.length []).length := by
      simpa using congrArg List.length hactive
    rw [hreturned, hlength, hcalls, levelCalls_answering]
    simp

theorem not_cyclic_of_evaluate {results : List Interfaces.RuleResult}
    (h : self.evaluate rules = .ok results) : ¬ RulesCyclic rules := by
  by_cases hrules : rules = []
  · subst hrules
    rintro ⟨id, hcycle⟩
    obtain ⟨_, -, rule, hrule, -⟩ := Relation.TransGen.tail'_iff.mp hcycle
    cases hrule
  · rw [← self.prepare_buildDag_eq_ok_iff]
    simp only [evaluate, if_neg hrules] at h
    split at h
    · cases h
    · assumption

/-- The results are closed over the rules exactly where the answers are. -/
theorem evaluate_closed_iff (self : RuleEngine) (rules : List RuleSpec)
    (hids : (rules.map (·.id)).Nodup) (outputs : Nat → List RawRuleResult) :
    (∃ results, (self.answering outputs).evaluate rules = .ok results ∧
      Closed rules results) ↔
    ¬ RulesCyclic rules ∧ ∀ depth, LongestChain rules depth →
      ClosedAnswers rules
        ((List.range depth).flatMap fun index => outputs (index + 1)) := by
  constructor
  · rintro ⟨results, hok, hclosed⟩
    have hacyclic := not_cyclic_of_evaluate hok
    obtain ⟨depth, hdepth, hevaluate⟩ :=
      self.evaluate_answering outputs hids hacyclic
    rw [hevaluate] at hok
    cases hok
    refine ⟨hacyclic, fun other hother => ?_⟩
    rw [hother.unique hdepth]
    exact closed_map_iff.mp hclosed
  · rintro ⟨hacyclic, hanswers⟩
    obtain ⟨depth, hdepth, hevaluate⟩ :=
      self.evaluate_answering outputs hids hacyclic
    exact ⟨_, hevaluate, closed_map_iff.mpr (hanswers depth hdepth)⟩

/-! ## An output off the list -/

def vatRule : List RuleSpec :=
  [{ id := "vat_id", predicate := "the VAT id is valid"
     output := { validOutputs := some ["true", "false"] } }]

theorem vatRule_closedAnswers :
    ¬ RulesCyclic vatRule ∧ ∀ depth, LongestChain vatRule depth →
      ClosedAnswers vatRule ((List.range depth).flatMap fun _ =>
        [{ ruleId := "vat_id", output := "true" }]) := by
  refine (approving.evaluate_closed_iff vatRule (by decide) fun _ =>
    [{ ruleId := "vat_id", output := "true" }]).mp ⟨_, rfl, .refl _, ?_⟩
  intro result hresult rule hrule _ houtside
  obtain ⟨valid, hvalid, hnew⟩ := houtside
  rw [List.mem_singleton.mp hrule] at hvalid
  rw [List.mem_singleton.mp hresult] at hnew
  cases hvalid
  exact absurd (by decide) hnew

/-- An output that is not valid comes back with nothing for a human to do. -/
theorem not_evaluate_closed :
    ¬ ∀ (self : RuleEngine) (rules : List RuleSpec),
      (rules.map (·.id)).Nodup → ∀ outputs : Nat → List RawRuleResult,
        ∃ results, (self.answering outputs).evaluate rules = .ok results ∧
          Closed rules results := by
  intro h
  obtain ⟨results, hok, hclosed⟩ := h approving vatRule (by decide) fun _ =>
    [{ ruleId := "vat_id", output := "maybe" }]
  have hanswer : (approving.answering fun _ =>
      [{ ruleId := "vat_id", output := "maybe" }]).evaluate vatRule =
        .ok [{ ruleId := "vat_id", predicate := "the VAT id is valid",
               output := "maybe" }] := rfl
  rw [hanswer] at hok
  cases hok
  refine hclosed.flagged _ (List.mem_singleton_self _) _
    (List.mem_singleton_self _) rfl ?_ rfl
  exact ⟨["true", "false"], rfl, by decide⟩

end RuleEngine

end Flydocs
