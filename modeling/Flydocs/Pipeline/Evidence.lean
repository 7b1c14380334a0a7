import Flydocs.Pipeline.Conformance
import Flydocs.Rules.DocumentsContext

/-!
# The evidence of the rules

`_step_rules` gathers the groups and the visual checks of all tasks by document
type.  Along every run of an accepted request the extracted documents conform
to their types, so that each of them shows each field that a rule asks for, and
shows it once.
-/

namespace Flydocs

open Foundation Dtos RuleEngine

/-! ## What the rules step hands to the engine -/

def extractedByDoc (tasks : List FieldTask) :
    List (String × List ExtractedFieldGroup) :=
  grouped (fun task => task.docSpec.id) (fun task => task.extractedGroups) tasks

def visualByDoc (tasks : List FieldTask) :
    List (String × List Interfaces.VisualCheckResult) :=
  grouped (fun task => task.docSpec.id) (fun task => task.visual) tasks

def documentsContext (request : Dtos.ExtractionRequest)
    (tasks : List FieldTask) (active : List RuleSpec) : List DocumentRow :=
  buildDocumentsContext active request.documentTypes (extractedByDoc tasks)
    (visualByDoc tasks)

def ofType (documentType : String) (tasks : List FieldTask) : List FieldTask :=
  tasks.filter fun task => task.docSpec.id = documentType

/-! ## Evidence -/

def Shows (request : Dtos.ExtractionRequest) (name : String) (task : FieldTask)
    (row : DocumentRow) : Prop :=
  ∃ doc, docOf request task = some doc ∧ ∃ spec ∈ declaredFields doc,
    spec.name = name ∧ ∃ group ∈ task.extractedGroups,
      ∃ field ∈ group.fields, FieldConforms spec field ∧
        row = fieldRow task.docSpec.id group field

/-- Each document that was extracted shows each field that is asked for, once;
each check that is asked for is shown with its outcomes; nothing else is. -/
structure Evidence (request : Dtos.ExtractionRequest) (tasks : List FieldTask)
    (active : List RuleSpec) (rows : List DocumentRow) : Prop where
  fields : ∀ rule ∈ active, ∀ documentType names,
    .field documentType names ∈ rule.parents → ∀ name ∈ names,
      List.Forall₂ (Shows request name)
        ((ofType documentType tasks).filter ExtractionTask.hasGroups)
        (rows.filter (isField documentType name))
  validators : ∀ rule ∈ active, ∀ documentType name,
    .validator documentType name ∈ rule.parents →
      rows.filter (isValidator documentType name) =
        (ofType documentType tasks).flatMap fun task =>
          validatorRowsOf documentType name task.visual
  asked : ∀ row ∈ rows, ∃ rule ∈ active, ∃ parent ∈ rule.parents,
    row.AskedBy parent

section

variable {request : Dtos.ExtractionRequest} {task : FieldTask}

theorem exists_fieldRowsOf_eq_singleton {doc : DocumentTypeSpec}
    {groups : List ExtractedFieldGroup} (hconforms : Conforms doc groups)
    (hdistinct : ((declaredFields doc).map Field.name).Nodup) {spec : Field}
    (hspec : spec ∈ declaredFields doc) (documentType : String) :
    ∃ group ∈ groups, ∃ field ∈ group.fields, FieldConforms spec field ∧
      fieldRowsOf documentType spec.name groups =
        [fieldRow documentType group field] := by
  have hfields := hconforms.fields
  obtain ⟨field, hfield, hof⟩ := exists_of_forall₂ hfields.flip hspec
  obtain ⟨group, hgroup, hmem⟩ := List.mem_flatMap.mp hfield
  refine ⟨group, hgroup, field, hmem, hof, ?_⟩
  have hnames : (declaredFields doc).map Field.name =
      (allFields groups).map ExtractedField.name := by
    rw [← List.forall₂_eq_eq_eq, List.forall₂_map_left_iff,
      List.forall₂_map_right_iff]
    exact hfields.imp fun _ _ hof => hof.name_eq.symm
  let entries := groups.flatMap fun group =>
    group.fields.map fun field => (group, field)
  let entryName := fun entry : ExtractedFieldGroup × ExtractedField =>
    entry.2.name
  have hentry : (group, field) ∈ entries :=
    List.mem_flatMap.mpr ⟨group, hgroup, List.mem_map_of_mem hmem⟩
  have hnodup : (entries.map entryName).Nodup := by
    have hsame : entries.map entryName =
        (allFields groups).map ExtractedField.name := by
      simp [entries, entryName, allFields, List.map_flatMap,
        Function.comp_def]
    rw [hsame, ← hnames]
    exact hdistinct
  have hrows : fieldRowsOf documentType field.name groups =
      (entries.filter fun entry => entryName entry = field.name).map
        fun entry => fieldRow documentType entry.1 entry.2 := by
    simp [fieldRowsOf, entries, entryName, List.filter_flatMap,
      List.map_flatMap, List.filter_map, Function.comp_def]
  rw [← hof.name_eq, hrows, filter_eq_singleton_of_nodup hnodup hentry]
  rfl

theorem fieldRowsOf_extractedByDoc (documentType name : String)
    (tasks : List FieldTask) :
    fieldRowsOf documentType name
        (listAt (extractedByDoc tasks) documentType) =
      (ofType documentType tasks).flatMap fun task =>
        fieldRowsOf documentType name task.extractedGroups := by
  rw [extractedByDoc, listAt_grouped]
  exact List.flatMap_assoc

theorem validatorRowsOf_visualByDoc (documentType name : String)
    (tasks : List FieldTask) :
    validatorRowsOf documentType name
        (listAt (visualByDoc tasks) documentType) =
      (ofType documentType tasks).flatMap fun task =>
        validatorRowsOf documentType name task.visual := by
  rw [visualByDoc, listAt_grouped, validatorRowsOf, List.filter_flatMap,
    List.map_flatMap]
  rfl

theorem exists_shows (hdistinct : NamesApart request)
    (hconforms : TaskConforms request task)
    (hgroups : task.extractedGroups ≠ []) {doc : DocumentTypeSpec}
    (hdoc : docOf request task = some doc) {name : String}
    (hname : name ∈ RequestValidator.fieldNames doc) :
    ∃ row, fieldRowsOf task.docSpec.id name task.extractedGroups = [row] ∧
      Shows request name task row := by
  obtain ⟨other, hother, hof⟩ := hconforms.resolve_left hgroups
  obtain rfl : other = doc := Option.some_injective _ (hother.symm.trans hdoc)
  have hnames : RequestValidator.fieldNames other =
      (declaredFields other).map Field.name := List.map_flatMap.symm
  rw [hnames] at hname
  obtain ⟨spec, hspec, rfl⟩ := List.mem_map.mp hname
  obtain ⟨group, hgroup, field, hfield, hfits, hrows⟩ :=
    exists_fieldRowsOf_eq_singleton hof
      (hdistinct other (mem_of_docOf hdoc).1) hspec task.docSpec.id
  exact ⟨_, hrows, other, hdoc, spec, hspec, rfl, group, hgroup, field, hfield,
    hfits, rfl⟩

theorem evidence_of_conforms (hdistinct : NamesApart request)
    {tasks : List FieldTask} (htasks : ∀ task ∈ tasks, TaskConforms request task)
    {active : List RuleSpec}
    (hresolves : ∀ rule ∈ active, ∀ parent ∈ rule.parents,
      RequestValidator.Resolves request parent) :
    Evidence request tasks active (documentsContext request tasks active) where
  fields rule hrule documentType names hparent name hname := by
    obtain ⟨doc, hdoc, hfields⟩ := hresolves rule hrule _ hparent
    have hasked : ∃ rule ∈ active, ∃ parent ∈ rule.parents,
        AsksField documentType name parent :=
      ⟨rule, hrule, _, hparent, rfl, hname⟩
    rw [documentsContext, filter_isField_buildDocumentsContext hasked
      (Option.isSome_iff_exists.mpr ⟨doc, hdoc⟩), fieldRowsOf_extractedByDoc]
    refine forall₂_filter_flatMap (fun task htask hgroups => ?_)
      fun task _ hgroups => ?_
    · obtain ⟨hmem, htype⟩ := List.mem_filter.mp htask
      obtain rfl := of_decide_eq_true htype
      refine exists_shows hdistinct (htasks task hmem) ?_ hdoc
        (hfields name hname)
      rintro hnone
      simp [ExtractionTask.hasGroups, hnone] at hgroups
    · have hnone : task.extractedGroups = [] := by
        simpa [ExtractionTask.hasGroups] using hgroups
      rw [hnone]
      rfl
  validators rule hrule documentType name hparent := by
    obtain ⟨doc, hdoc, -⟩ := hresolves rule hrule _ hparent
    have hasked : ∃ rule ∈ active, ∃ parent ∈ rule.parents,
        AsksValidator documentType name parent :=
      ⟨rule, hrule, _, hparent, rfl, rfl⟩
    rw [documentsContext, filter_isValidator_buildDocumentsContext hasked
      (Option.isSome_iff_exists.mpr ⟨doc, hdoc⟩), validatorRowsOf_visualByDoc]
  asked _ hrow := askedBy_of_mem_buildDocumentsContext hrow

theorem resolves_of_accepted {validator : RequestValidator} {sync : Bool}
    (h : (validator.validate request sync).hasErrors = false) :
    ∀ rule ∈ request.rules, ∀ parent ∈ rule.parents,
      RequestValidator.Resolves request parent := by
  have hnone : RequestValidator.NoRuleError
      (validator.validate request sync) := by
    intro issue hissue
    simp only [ValidationReport.hasErrors, List.any_eq_false,
      decide_eq_true_eq] at h
    simp [RequestValidator.isRuleError, h issue hissue]
  exact ((RequestValidator.ruleIssues_eq_nil_iff validator request).mp
    ((RequestValidator.noRuleError_validate_iff validator request sync).mp
      hnone)).2.1

end

/-! ## Along a run -/

section

variable {Raised : Type}

/--
Of an accepted request that rewrites no task, in every state of every run: at
each level of its rules the engine is told of each document that was extracted
the one field under each name that an active rule has as a parent, which
conforms to what the request declares under that name, of each check that is a
parent all outcomes, and of nothing else.
-/
theorem rules_see_evidence (pdf : PdfLibrary) (defaultModel : String)
    (validator : RequestValidator) (sync : Bool)
    (request : Dtos.ExtractionRequest)
    (haccepted : (validator.validate request sync).hasErrors = false)
    (hscope : ∀ spec ∈ request.options.transformations,
      spec.base.scope = .request)
    (labels : List (Option (Response ExtractedFieldGroup)))
    (hserved : LabelledStep.EveryStep (PipelineState.step pdf)
      (StepFromServices Raised request)
      (PipelineState.initial defaultModel request.toPipeline) labels)
    (state : PipelineState ExtractedFieldGroup)
    (hruns : PipelineState.Runs pdf defaultModel request.toPipeline labels
      state) (engine : RuleEngine) :
    ∀ call ∈ engine.calls request.rules,
      Evidence request (state.ctx.tasks.getD []) call.active
        (documentsContext request (state.ctx.tasks.getD []) call.active) := by
  intro call hcall
  have hdistinct := namesApart_of_accepted haccepted
  have hconforms := conform_of_runs hdistinct hscope hserved hruns
  refine evidence_of_conforms hdistinct
    (fun task htask => allTasks_getD hconforms htask) ?_
  intro rule hrule
  exact resolves_of_accepted haccepted rule (mem_rules_of_mem_calls hcall hrule)

def auditedRequest : Dtos.ExtractionRequest :=
  { FieldRepairer.rejectedRequest with
    rules := [{ id := "lines_add_up", predicate := "the lines add up to the net",
                parents := [.field "form" ["net", "lines"]] }] }

theorem rules_see_evidence_form :
    ∃ state, PipelineState.Runs bytePages "primary" auditedRequest.toPipeline
        formLabels state ∧
      (state.ctx.tasks.getD []).length = 1 ∧
      (approving.calls auditedRequest.rules).length = 1 ∧
      ∀ call ∈ approving.calls auditedRequest.rules,
        Evidence auditedRequest (state.ctx.tasks.getD []) call.active
          (documentsContext auditedRequest (state.ctx.tasks.getD [])
            call.active) := by
  have hserved : LabelledStep.EveryStep (PipelineState.step bytePages)
      (StepFromServices String auditedRequest)
      (PipelineState.initial "primary" auditedRequest.toPipeline)
      formLabels := by
    refine (LabelledStep.everyStep_cons_iff rfl).mpr ⟨trivial, ?_⟩
    refine (LabelledStep.everyStep_cons_iff rfl).mpr ⟨trivial, ?_⟩
    refine (LabelledStep.everyStep_cons_iff rfl).mpr ⟨trivial, ?_⟩
    refine (LabelledStep.everyStep_cons_iff rfl).mpr ⟨?_, ?_⟩
    · intro index task answer htask hanswer
      cases List.mem_singleton.mp hanswer
      cases htask
      exact extracts_form _ rfl rfl rfl rfl
    · exact (LabelledStep.everyStep_cons_iff rfl).mpr ⟨rfl, trivial⟩
  have hrun : (LabelledStep.run (PipelineState.step bytePages)
      (PipelineState.initial "primary" auditedRequest.toPipeline)
      formLabels).map (fun state => (state.ctx.tasks.getD []).length) =
        some 1 :=
    rfl
  obtain ⟨state, hstate, hlength⟩ := Option.map_eq_some_iff.mp hrun
  exact ⟨state, hstate, hlength, by decide, rules_see_evidence bytePages
    "primary" ⟨fun _ => true, .peeling⟩ false auditedRequest (by decide)
    (by simp [auditedRequest, FieldRepairer.rejectedRequest]) formLabels hserved
    state hstate approving⟩

end

end Flydocs
