import Flydocs.Validation.RequestValidator

/-!
# The rule engine

`evaluate` runs the rules level by level along their dependency graph, one
agent call for each level.  `agent` answers a call; which rules it is asked
about and what was found before are in the prompt.
-/

namespace Flydocs

open Foundation Dtos

structure RawRuleResult where
  ruleId : String
  predicate : String := ""
  output : String := ""
  summary : String := ""
  notes : List String := []
  humanRevision : String := ""
  deriving DecidableEq, Repr

inductive RuleEngineError where
  | cycle (message : String)
  | agent (failure : Failure)
  deriving DecidableEq, Repr

structure RuleEngine where
  isPrintable : Char → Bool
  sorter : TopologicalSorter String
  agent : (level : Nat) → (active : List RuleSpec) →
    (previous : List Interfaces.RuleResult) →
    Except Failure (List RawRuleResult)

namespace RuleEngine

def ruleById (rules : List RuleSpec) (id : String) : Option RuleSpec :=
  lookupLast (fun rule => rule.id) rules id

def buildDag (rules : List RuleSpec) : DependencyGraph String :=
  rules.map fun rule =>
    (rule.id, rule.parents.filterMap fun
      | .rule parent =>
          if (ruleById rules parent).isSome then some parent else none
      | _ => none)

def orNone (text : String) : Option String :=
  if text = "" then none else some text

def ruleResult (rules : List RuleSpec) (raw : RawRuleResult) :
    Interfaces.RuleResult where
  ruleId := raw.ruleId
  predicate :=
    if raw.predicate = "" then
      ((ruleById rules raw.ruleId).map (·.predicate)).getD ""
    else raw.predicate
  output := raw.output
  summary := orNone raw.summary
  notes := raw.notes
  humanRevision := orNone raw.humanRevision

def usedByAny (id : String) (active : List RuleSpec) : Bool :=
  active.any fun rule => rule.parents.contains (.rule id)

/-- `get_ready()` once all of `done` is marked done.  The nodes of a level stand
in the order of the graph; the sorter returns the same ones in the order in
which they became ready. -/
def getReady (graph : DependencyGraph String) (done : List String) :
    List String :=
  graph.nodes.eraseDups.filter fun node =>
    decide (node ∉ done) && graph.all fun declaration =>
      decide (declaration.1 = node → declaration.2 ⊆ done)

variable (self : RuleEngine)

/-- The loop over the levels; every round marks at least one node done. -/
def evaluateLevels (rules : List RuleSpec) (graph : DependencyGraph String) :
    Nat → Nat → List String → List Interfaces.RuleResult →
      Except RuleEngineError (List Interfaces.RuleResult)
  | 0, _, _, results => .ok results
  | rounds + 1, level, done, results =>
      let ready := getReady graph done
      if ready = [] then .ok results
      else
        let active := ready.filterMap (ruleById rules)
        let previous := results.filter (usedByAny ·.ruleId active)
        match self.agent (level + 1) active previous with
        | .error failure => .error (.agent failure)
        | .ok raws =>
            evaluateLevels rules graph rounds (level + 1) (done ++ ready)
              (results ++ raws.map (ruleResult rules))

def cycleText (cycle : List String) : String :=
  "('nodes are in a cycle', [" ++
    ", ".intercalate (cycle.map (PythonText.repr self.isPrintable)) ++ "])"

def evaluate (rules : List RuleSpec) :
    Except RuleEngineError (List Interfaces.RuleResult) :=
  if rules = [] then .ok []
  else
    let graph := buildDag rules
    match self.sorter.prepare graph with
    | .error cycle =>
        .error (.cycle ("Rule graph contains a cycle: " ++
          self.cycleText cycle))
    | .ok () => self.evaluateLevels rules graph graph.nodes.length 0 [] []

end RuleEngine

end Flydocs
