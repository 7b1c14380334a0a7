import Flydocs.Rules.RuleEngine

/-!
# What rule validation accepts

The validator reports no rule error exactly on the rule lists whose ids are
distinct, whose parents all resolve and whose rule parents form no cycle; on
these the engine's own graph holds every declared rule parent and is acyclic.
-/

namespace Flydocs

open Foundation Dtos

namespace RequestValidator

def ruleErrorCodes : List String :=
  ["duplicate_rule_id", "rule_unknown_doctype", "rule_unknown_field",
    "rule_unknown_validator", "rule_unknown_parent", "rule_self_reference",
    "rule_cycle"]

def isRuleError (issue : ValidationIssue) : Bool :=
  decide (issue.severity = .error) && ruleErrorCodes.contains issue.code

def NoRuleError (report : ValidationReport) : Prop :=
  ∀ issue ∈ report.issues, isRuleError issue = false

/-! ## References -/

/-- A document type id that is declared twice stands for its last declaration. -/
def Resolves (request : ExtractionRequest) : RuleParent → Prop
  | .field documentType fields =>
      ∃ spec, docIndex request.documentTypes documentType = some spec ∧
        ∀ name ∈ fields, name ∈ fieldNames spec
  | .validator documentType validator =>
      ∃ spec, docIndex request.documentTypes documentType = some spec ∧
        validator ∈ spec.visualChecks.map (·.name)
  | .rule parent => parent ∈ request.rules.map (·.id)

/-- Resolution in whichever declaration of the document type fits. -/
def ResolvesInSome (request : ExtractionRequest) : RuleParent → Prop
  | .field documentType fields =>
      documentType ∈ request.documentTypes.map (·.id) ∧
        ∀ name ∈ fields, ∃ spec ∈ request.documentTypes,
          spec.id = documentType ∧ name ∈ fieldNames spec
  | .validator documentType validator =>
      ∃ spec ∈ request.documentTypes, spec.id = documentType ∧
        validator ∈ spec.visualChecks.map (·.name)
  | .rule parent => parent ∈ request.rules.map (·.id)

def HasRuleParent (rules : List RuleSpec) (parent child : String) : Prop :=
  ∃ rule ∈ rules, rule.id = child ∧ .rule parent ∈ rule.parents

def RulesCyclic (rules : List RuleSpec) : Prop :=
  ∃ id, Relation.TransGen (HasRuleParent rules) id id

/-! ## The two checks -/

theorem checkParent_eq_nil_iff (self : RequestValidator)
    (request : ExtractionRequest) (rule : RuleSpec) (path : String)
    (parent : RuleParent) :
    self.checkParent request rule path parent = [] ↔
      Resolves request parent ∧ parent ≠ .rule rule.id := by
  cases parent with
  | field documentType fields =>
      simp only [checkParent, Resolves]
      cases docIndex request.documentTypes documentType with
      | none => simp
      | some spec => simp [List.flatMap_eq_nil_iff]
  | validator documentType validator =>
      simp only [checkParent, Resolves]
      cases docIndex request.documentTypes documentType with
      | none => simp
      | some spec => simp
  | rule parent =>
      simp only [checkParent, Resolves]
      split
      · simp_all
      · split <;> simp_all

theorem checkParents_eq_nil_iff (self : RequestValidator)
    (request : ExtractionRequest) (rule : RuleSpec) (declaration : String) :
    (rule.parents.zipIdx.flatMap fun entry =>
      self.checkParent request rule
        (declaration ++ ".parents[" ++ toString entry.2 ++ "]") entry.1) = [] ↔
      ∀ parent ∈ rule.parents,
        Resolves request parent ∧ parent ≠ .rule rule.id := by
  simp only [List.flatMap_eq_nil_iff, checkParent_eq_nil_iff]
  constructor
  · intro h parent hparent
    obtain ⟨index, hindex⟩ := List.mem_iff_getElem?.mp hparent
    exact h (parent, index) (List.mem_zipIdx_iff_getElem?.mpr hindex)
  · intro h entry hentry
    exact h entry.1 (List.fst_mem_of_mem_zipIdx hentry)

theorem checkRules_eq_nil_iff (self : RequestValidator)
    (request : ExtractionRequest) (index : Nat) (seen : List String)
    (rules : List RuleSpec) :
    self.checkRules request index seen rules = [] ↔
      (rules.map (·.id)).Nodup ∧ (∀ rule ∈ rules, rule.id ∉ seen) ∧
        ∀ rule ∈ rules, ∀ parent ∈ rule.parents,
          Resolves request parent ∧ parent ≠ .rule rule.id := by
  induction rules generalizing index seen with
  | nil => simp [checkRules]
  | cons rule rules ih =>
      simp only [checkRules, List.append_eq_nil_iff, checkParents_eq_nil_iff,
        ih, List.map_cons, List.nodup_cons, List.mem_cons, forall_eq_or_imp,
        not_or]
      have hseen : ((if rule.id ∈ seen then
          [fieldError "duplicate_rule_id"
            ("Rule id " ++ self.repr rule.id ++ " is declared more than once.")
            ("rules[" ++ toString index ++ "]" ++ ".id")]
          else []) = []) ↔ rule.id ∉ seen := by
        split <;> simp_all
      have hrest : (∀ other ∈ rules, other.id ≠ rule.id ∧ other.id ∉ seen) ↔
          rule.id ∉ rules.map (·.id) ∧ ∀ other ∈ rules, other.id ∉ seen := by
        simp only [List.mem_map, not_exists, not_and, forall_and]
      rw [hseen, hrest]
      tauto

theorem checkRuleDag_eq_nil_iff (self : RequestValidator)
    (request : ExtractionRequest) :
    self.checkRuleDag request = [] ↔ ¬ (ruleGraph request.rules).Cyclic := by
  rw [← self.sorter.prepare_eq_ok_iff, checkRuleDag]
  cases self.sorter.prepare (ruleGraph request.rules) <;> simp

/-! ## The graph -/

theorem mem_knownParents_iff {ids : List String} {rule : RuleSpec}
    {parent : String} :
    parent ∈ knownParents ids rule ↔
      parent ∈ ids ∧ .rule parent ∈ rule.parents := by
  simp only [knownParents, List.mem_filterMap]
  constructor
  · rintro ⟨given, hgiven, hsome⟩
    cases given with
    | field _ _ | validator _ _ => simp at hsome
    | rule name =>
        simp only [Option.ite_none_right_eq_some, Option.some.injEq] at hsome
        obtain ⟨hmem, rfl⟩ := hsome
        exact ⟨hmem, hgiven⟩
  · rintro ⟨hmem, hgiven⟩
    exact ⟨.rule parent, hgiven, by simp [hmem]⟩

theorem edge_ruleGraph_iff {rules : List RuleSpec} {parent child : String} :
    (ruleGraph rules).Edge parent child ↔
      HasRuleParent rules parent child ∧ parent ∈ rules.map (·.id) := by
  simp only [DependencyGraph.Edge, ruleGraph, List.mem_map, Prod.mk.injEq,
    HasRuleParent]
  constructor
  · rintro ⟨declared, ⟨rule, hrule, rfl, rfl⟩, hparent⟩
    obtain ⟨hmem, hdeclared⟩ := mem_knownParents_iff.mp hparent
    exact ⟨⟨rule, hrule, rfl, hdeclared⟩, List.mem_map.mp hmem⟩
  · rintro ⟨⟨rule, hrule, rfl, hdeclared⟩, hmem⟩
    refine ⟨_, ⟨rule, hrule, rfl, rfl⟩, ?_⟩
    exact mem_knownParents_iff.mpr ⟨List.mem_map.mpr hmem, hdeclared⟩

/-- Undeclared parents have no parents of their own, so they close no cycle. -/
theorem cyclic_ruleGraph_iff {rules : List RuleSpec} :
    (ruleGraph rules).Cyclic ↔ RulesCyclic rules := by
  constructor
  · rintro ⟨id, hcycle⟩
    refine ⟨id, Relation.TransGen.mono (fun parent child hedge => ?_) _ _ hcycle⟩
    exact (edge_ruleGraph_iff.mp hedge).1
  · rintro ⟨id, hcycle⟩
    have hdeclared : ∀ {parent child},
        Relation.TransGen (HasRuleParent rules) parent child →
        child ∈ rules.map (·.id) := by
      intro parent child hpath
      obtain ⟨_, -, rule, hrule, hid, -⟩ := Relation.TransGen.tail'_iff.mp hpath
      exact List.mem_map.mpr ⟨rule, hrule, hid⟩
    -- every node on the way is the child of the one before, the first included
    have hlift : ∀ {child}, Relation.TransGen (HasRuleParent rules) id child →
        Relation.TransGen (ruleGraph rules).Edge id child := by
      intro child hpath
      induction hpath with
      | single hstep =>
          exact .single (edge_ruleGraph_iff.mpr ⟨hstep, hdeclared hcycle⟩)
      | tail hbefore hstep ih =>
          exact ih.tail (edge_ruleGraph_iff.mpr ⟨hstep, hdeclared hbefore⟩)
    exact ⟨id, hlift hcycle⟩

theorem ruleIssues_eq_nil_iff (self : RequestValidator)
    (request : ExtractionRequest) :
    self.checkRuleReferences request = [] ∧ self.checkRuleDag request = [] ↔
      (request.rules.map (·.id)).Nodup ∧
        (∀ rule ∈ request.rules, ∀ parent ∈ rule.parents,
          Resolves request parent) ∧
        ¬ RulesCyclic request.rules := by
  rw [checkRuleReferences, checkRules_eq_nil_iff, checkRuleDag_eq_nil_iff,
    cyclic_ruleGraph_iff]
  constructor
  · rintro ⟨⟨hnodup, -, hparents⟩, hacyclic⟩
    exact ⟨hnodup, fun rule hrule parent hparent =>
      (hparents rule hrule parent hparent).1, hacyclic⟩
  · rintro ⟨hnodup, hresolve, hacyclic⟩
    refine ⟨⟨hnodup, by simp, fun rule hrule parent hparent => ?_⟩, hacyclic⟩
    refine ⟨hresolve rule hrule parent hparent, ?_⟩
    rintro rfl
    exact hacyclic ⟨rule.id, .single ⟨rule, hrule, rfl, hparent⟩⟩

/-! ## The report -/

theorem not_isRuleError_checkFiles {self : RequestValidator}
    {request : ExtractionRequest} {issue : ValidationIssue}
    (h : issue ∈ self.checkFiles request) : isRuleError issue = false := by
  simp only [checkFiles, List.mem_flatMap] at h
  obtain ⟨⟨file, index⟩, -, hissue⟩ := h
  split at hissue
  · cases hissue
  · split at hissue
    · cases hissue
    · cases List.mem_singleton.mp hissue
      rfl

theorem not_isRuleError_duplicateNames {self : RequestValidator}
    {docType path : String} {seen names : List String}
    {issue : ValidationIssue}
    (h : issue ∈ self.duplicateNames docType path seen names) :
    isRuleError issue = false := by
  induction names generalizing seen with
  | nil => cases h
  | cons name names ih =>
      rcases List.mem_append.mp h with hhead | htail
      · split at hhead
        · cases List.mem_singleton.mp hhead
          rfl
        · cases hhead
      · exact ih htail

theorem not_isRuleError_checkDocumentType {self : RequestValidator}
    {index : Nat} {spec : DocumentTypeSpec} {issue : ValidationIssue}
    (h : issue ∈ self.checkDocumentType index spec) :
    isRuleError issue = false := by
  unfold checkDocumentType at h
  split at h
  · cases List.mem_singleton.mp h
    rfl
  · rcases List.mem_append.mp h with hgroup | hname
    · obtain ⟨⟨group, groupIndex⟩, -, hissue⟩ := List.mem_flatMap.mp hgroup
      simp only at hissue
      split at hissue
      · cases List.mem_singleton.mp hissue
        rfl
      · cases hissue
    · exact not_isRuleError_duplicateNames hname

theorem not_isRuleError_checkDocumentTypes {self : RequestValidator}
    {request : ExtractionRequest} {issue : ValidationIssue}
    (h : issue ∈ self.checkDocumentTypes request) :
    isRuleError issue = false := by
  rcases List.mem_append.mp h with hspec | hid
  · obtain ⟨⟨spec, index⟩, -, hissue⟩ := List.mem_flatMap.mp hspec
    exact not_isRuleError_checkDocumentType hissue
  · obtain ⟨id, -, hissue⟩ := List.mem_flatMap.mp hid
    split at hissue
    · cases List.mem_singleton.mp hissue
      rfl
    · cases hissue

theorem severity_of_mem_checkStageConsistency {request : ExtractionRequest}
    {sync : Bool} {issue : ValidationIssue}
    (h : issue ∈ checkStageConsistency request sync) :
    issue.severity = .warning := by
  simp only [checkStageConsistency, List.mem_append] at h
  rcases h with (((h | h) | h) | h) | h
  all_goals
    split at h
    · cases List.mem_singleton.mp h
      rfl
    · cases h

theorem isRuleError_checkParent {self : RequestValidator}
    {request : ExtractionRequest} {rule : RuleSpec} {path : String}
    {parent : RuleParent} {issue : ValidationIssue}
    (h : issue ∈ self.checkParent request rule path parent) :
    isRuleError issue = true := by
  cases parent with
  | field documentType fields =>
      simp only [checkParent] at h
      split at h
      · cases List.mem_singleton.mp h
        rfl
      · obtain ⟨name, -, hissue⟩ := List.mem_flatMap.mp h
        split at hissue
        · cases hissue
        · cases List.mem_singleton.mp hissue
          rfl
  | validator documentType validator =>
      simp only [checkParent] at h
      split at h
      · cases List.mem_singleton.mp h
        rfl
      · split at h
        · cases h
        · cases List.mem_singleton.mp h
          rfl
  | rule parent =>
      simp only [checkParent] at h
      split at h
      · cases List.mem_singleton.mp h
        rfl
      · split at h
        · cases List.mem_singleton.mp h
          rfl
        · cases h

theorem isRuleError_checkRules {self : RequestValidator}
    {request : ExtractionRequest} {index : Nat} {seen : List String}
    {rules : List RuleSpec} {issue : ValidationIssue}
    (h : issue ∈ self.checkRules request index seen rules) :
    isRuleError issue = true := by
  induction rules generalizing index seen with
  | nil => cases h
  | cons rule rules ih =>
      simp only [checkRules, List.mem_append] at h
      rcases h with (hid | hparent) | hrest
      · split at hid
        · cases List.mem_singleton.mp hid
          rfl
        · cases hid
      · obtain ⟨entry, -, hissue⟩ := List.mem_flatMap.mp hparent
        exact isRuleError_checkParent hissue
      · exact ih hrest

theorem isRuleError_checkRuleDag {self : RequestValidator}
    {request : ExtractionRequest} {issue : ValidationIssue}
    (h : issue ∈ self.checkRuleDag request) : isRuleError issue = true := by
  unfold checkRuleDag at h
  split at h
  · cases h
  · cases List.mem_singleton.mp h
    rfl

theorem noRuleError_validate_iff (self : RequestValidator)
    (request : ExtractionRequest) (sync : Bool) :
    NoRuleError (self.validate request sync) ↔
      self.checkRuleReferences request = [] ∧
        self.checkRuleDag request = [] := by
  simp only [NoRuleError, validate, List.mem_append]
  constructor
  · intro h
    constructor
    · apply List.eq_nil_iff_forall_not_mem.mpr
      intro issue hissue
      have hno := h issue (.inl (.inl (.inr hissue)))
      rw [isRuleError_checkRules hissue] at hno
      cases hno
    · apply List.eq_nil_iff_forall_not_mem.mpr
      intro issue hissue
      have hno := h issue (.inl (.inr hissue))
      rw [isRuleError_checkRuleDag hissue] at hno
      cases hno
  · rintro ⟨hreferences, hdag⟩ issue
      ((((hfiles | hdocs) | hrules) | hcycle) | hstage)
    · exact not_isRuleError_checkFiles hfiles
    · exact not_isRuleError_checkDocumentTypes hdocs
    · simp [hreferences] at hrules
    · simp [hdag] at hcycle
    · simp [isRuleError, severity_of_mem_checkStageConsistency hstage]

end RequestValidator

/-! ## The engine -/

namespace RuleEngine

open RequestValidator

theorem ruleById_isSome_iff {rules : List RuleSpec} {id : String} :
    (ruleById rules id).isSome = true ↔ id ∈ rules.map (·.id) := by
  simp [ruleById, lookupLast]

/-- The engine builds the graph that the validator checked. -/
theorem buildDag_eq_ruleGraph (rules : List RuleSpec) :
    buildDag rules = ruleGraph rules := by
  refine List.map_congr_left fun rule _ => ?_
  refine congrArg (Prod.mk rule.id) (List.filterMap_congr fun parent _ => ?_)
  cases parent with
  | field _ _ | validator _ _ => rfl
  | rule parent => simp only [ruleById_isSome_iff]

theorem prepare_buildDag_eq_ok_iff (self : RuleEngine) {rules : List RuleSpec} :
    self.sorter.prepare (buildDag rules) = .ok () ↔
      ¬ RequestValidator.RulesCyclic rules := by
  rw [self.sorter.prepare_eq_ok_iff, buildDag_eq_ruleGraph,
    cyclic_ruleGraph_iff]

theorem evaluateLevels_ne_cycle (self : RuleEngine) (rules : List RuleSpec)
    (graph : DependencyGraph String) (rounds level : Nat) (done : List String)
    (results : List Interfaces.RuleResult) (message : String) :
    self.evaluateLevels rules graph rounds level done results ≠
      .error (.cycle message) := by
  induction rounds generalizing level done results with
  | zero => simp [evaluateLevels]
  | succ rounds ih =>
      rw [evaluateLevels]
      split
      · simp
      · dsimp only
        split
        · simp
        · exact ih _ _ _

theorem evaluate_ne_cycle (self : RuleEngine) {rules : List RuleSpec}
    (hacyclic : ¬ RulesCyclic rules) (message : String) :
    self.evaluate rules ≠ .error (.cycle message) := by
  have hprepare := self.prepare_buildDag_eq_ok_iff.mpr hacyclic
  unfold evaluate
  split
  · simp
  · simp only [hprepare]
    exact self.evaluateLevels_ne_cycle _ _ _ _ _ _ message

end RuleEngine

namespace RequestValidator

/--
Exactness of the rule checks, and what the engine may rely on once they pass.
-/
theorem rules_accepted_iff (validator : RequestValidator)
    (request : ExtractionRequest) (sync : Bool) :
    (NoRuleError (validator.validate request sync) ↔
      (request.rules.map (·.id)).Nodup ∧
        (∀ rule ∈ request.rules, ∀ parent ∈ rule.parents,
          Resolves request parent) ∧
        ¬ RulesCyclic request.rules) ∧
    (NoRuleError (validator.validate request sync) →
      (∀ (engine : RuleEngine) (message : String),
        engine.evaluate request.rules ≠ .error (.cycle message)) ∧
      ∀ rule ∈ request.rules, ∀ parent, .rule parent ∈ rule.parents →
        (RuleEngine.buildDag request.rules).Edge parent rule.id) := by
  have hexact : NoRuleError (validator.validate request sync) ↔ _ :=
    (noRuleError_validate_iff validator request sync).trans
      (ruleIssues_eq_nil_iff validator request)
  refine ⟨hexact, fun haccepted => ?_⟩
  obtain ⟨-, hresolve, hacyclic⟩ := hexact.mp haccepted
  refine ⟨fun engine => engine.evaluate_ne_cycle hacyclic, ?_⟩
  intro rule hrule parent hparent
  rw [RuleEngine.buildDag_eq_ruleGraph, edge_ruleGraph_iff]
  exact ⟨⟨rule, hrule, rfl, hparent⟩, hresolve rule hrule _ hparent⟩

/-! ## A document type declared twice -/

def declaring (name : String) : DocumentTypeSpec where
  id := "invoice"
  fieldGroups := [{ name := "totals", fields := [{ name }] }]

def declaredTwice : ExtractionRequest where
  files := [⟨"invoice.pdf", some "", none, none⟩]
  documentTypes := [declaring "net", declaring "gross"]
  rules :=
    [{ id := "has_net", predicate := "net is given",
       parents := [.field "invoice" ["net"]] }]

/-- Only the last of two declarations of an id resolves. -/
theorem not_rules_accepted_iff_resolvesInSome :
    ¬ ∀ (validator : RequestValidator) (request : ExtractionRequest),
      NoRuleError (validator.validate request false) ↔
        (request.rules.map (·.id)).Nodup ∧
          (∀ rule ∈ request.rules, ∀ parent ∈ rule.parents,
            ResolvesInSome request parent) ∧
          ¬ RulesCyclic request.rules := by
  intro h
  have hleft := (h ⟨fun _ => true, .peeling⟩ declaredTwice).mpr
  have hrejected : ¬ NoRuleError (RequestValidator.validate
      ⟨fun _ => true, .peeling⟩ declaredTwice false) := by
    rw [noRuleError_validate_iff]
    rintro ⟨hreferences, -⟩
    revert hreferences
    decide
  refine hrejected (hleft ⟨by decide, ?_, ?_⟩)
  · simp [declaredTwice, ResolvesInSome, declaring, fieldNames]
  · rw [← cyclic_ruleGraph_iff, ← DependencyGraph.leftover_ne_nil_iff]
    decide

end RequestValidator

end Flydocs
