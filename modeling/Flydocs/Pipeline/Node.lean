import Mathlib.Data.List.Nodup
import Flydocs.Interfaces.Extract

/-!
# The nodes of a pipeline run

`chain` is the linear order in which a request's nodes run.  Which of them are
there depends on the request's stage toggles only.
-/

namespace Flydocs

open Interfaces

inductive Node where
  | load
  | discover
  | classify
  | planTasks
  | extract
  | bboxValidation
  | bboxRefine
  | fieldValidation
  | visualAuthenticity
  | contentAuthenticity
  | judge
  | repair
  | judgeEscalation
  | transform
  | rules
  | assemble
  deriving DecidableEq, Repr

namespace Node

def name : Node → String
  | load => "load"
  | discover => "discover"
  | classify => "classify"
  | planTasks => "plan_tasks"
  | extract => "extract"
  | bboxValidation => "bbox_validation"
  | bboxRefine => "bbox_refine"
  | fieldValidation => "field_validation"
  | visualAuthenticity => "visual_authenticity"
  | contentAuthenticity => "content_authenticity"
  | judge => "judge"
  | repair => "repair"
  | judgeEscalation => "judge_escalation"
  | transform => "transform"
  | rules => "rules"
  | assemble => "assemble"

def all : List Node :=
  [load, discover, classify, planTasks, extract, bboxValidation, bboxRefine,
    fieldValidation, visualAuthenticity, contentAuthenticity, judge, repair,
    judgeEscalation, transform, rules, assemble]

theorem mem_all (node : Node) : node ∈ all := by
  cases node <;> decide

theorem name_injective : Function.Injective name := by
  have hnodup : (all.map name).Nodup := by decide
  intro first second h
  exact List.inj_on_of_nodup_map hnodup (mem_all first) (mem_all second) h

def position (node : Node) : Nat := all.idxOf node

/-! ## The chain of a request -/

/-- Pinned files skip discovery, so it needs a file without a pin. -/
def needsDiscover (request : ExtractionRequest) : Bool :=
  request.options.stages.splitter &&
    request.files.any fun file => !Projector.truthy file.expectedType

def appended (condition : Bool) (node : Node) : List Node :=
  if condition then [node] else []

def chain (request : ExtractionRequest) : List Node :=
  let stages := request.options.stages
  [load] ++
  appended (needsDiscover request) discover ++
  appended stages.classifier classify ++
  [planTasks, extract, bboxValidation] ++
  appended stages.bboxRefine bboxRefine ++
  appended stages.fieldValidation fieldValidation ++
  appended stages.visualAuthenticity visualAuthenticity ++
  appended stages.contentAuthenticity contentAuthenticity ++
  appended stages.judge judge ++
  -- a repair needs verdicts or validation findings to act on
  appended (stages.repair && (stages.judge || stages.fieldValidation)) repair ++
  appended (stages.judge && stages.judgeEscalation) judgeEscalation ++
  appended (stages.transform && !request.options.transformations.isEmpty)
    transform ++
  appended (stages.ruleEngine && !request.rules.isEmpty) rules ++
  [assemble]

theorem appended_sublist (condition : Bool) (node : Node) :
    (appended condition node).Sublist [node] := by
  cases condition
  · exact List.nil_sublist _
  · exact List.Sublist.refl _

theorem chain_sublist (request : ExtractionRequest) :
    (chain request).Sublist all := by
  change (chain request).Sublist ([load] ++ [discover] ++ [classify] ++
    [planTasks, extract, bboxValidation] ++ [bboxRefine] ++
    [fieldValidation] ++ [visualAuthenticity] ++ [contentAuthenticity] ++
    [judge] ++ [repair] ++ [judgeEscalation] ++ [transform] ++ [rules] ++
    [assemble])
  unfold chain
  repeat' apply List.Sublist.append
  all_goals first | exact List.Sublist.refl _ | exact appended_sublist _ _

theorem chain_ordered (request : ExtractionRequest) :
    (chain request).Pairwise fun first second =>
      first.position < second.position := by
  have hall : all.Pairwise fun first second =>
      first.position < second.position := by
    decide
  exact hall.sublist (chain_sublist request)

end Node

end Flydocs
