import Flydocs.Extraction.Extractor

/-!
# The empty-array retry

The second call runs outside of any handler: where one of its steps fails, the
groups of the first pass are lost with it.
-/

namespace Flydocs

open Foundation Dtos

namespace MultimodalExtractor

/-! ## When the retry runs -/

/-- Some declared array came back as an empty list, and none was filled. -/
def AllArraysEmpty (doc : DocumentTypeSpec)
    (groups : List ExtractedFieldGroup) : Prop :=
  (∃ group ∈ groups, ∃ field ∈ group.fields,
    field.name ∈ arrayFieldNames doc ∧ field.value = .list []) ∧
  ∀ group ∈ groups, ∀ field ∈ group.fields,
    field.name ∈ arrayFieldNames doc →
    ∀ first rest, field.value ≠ .list (first :: rest)

theorem isFilled_iff (field : ExtractedField) :
    isFilled field = true ↔ ∃ first rest, field.value = .list (first :: rest) := by
  unfold isFilled
  split
  · rename_i first rest hvalue
    simp [hvalue]
  · rename_i hvalue
    simpa using hvalue

theorem isEmptyList_iff (field : ExtractedField) :
    isEmptyList field = true ↔ field.value = .list [] := by
  unfold isEmptyList
  split
  · rename_i hvalue
    simp [hvalue]
  · rename_i hvalue
    simpa using hvalue

theorem mem_arrayFields_iff {doc : DocumentTypeSpec}
    {groups : List ExtractedFieldGroup} {field : ExtractedField} :
    field ∈ arrayFields doc groups ↔ ∃ group ∈ groups, field ∈ group.fields ∧
      field.name ∈ arrayFieldNames doc := by
  simp only [arrayFields, List.mem_filter, List.mem_flatMap, decide_eq_true_eq]
  constructor
  · rintro ⟨⟨group, hgroup, hfield⟩, hname⟩
    exact ⟨group, hgroup, hfield, hname⟩
  · rintro ⟨group, hgroup, hfield, hname⟩
    exact ⟨⟨group, hgroup, hfield⟩, hname⟩

theorem suspiciousEmptyArrays_ne_nil_iff {doc : DocumentTypeSpec}
    {groups : List ExtractedFieldGroup} :
    suspiciousEmptyArrays doc groups ≠ [] ↔ AllArraysEmpty doc groups := by
  have hnames : suspiciousEmptyArrays doc groups ≠ [] ↔
      (∃ field ∈ arrayFields doc groups, isEmptyList field = true) ∧
      ∀ field ∈ arrayFields doc groups, isFilled field = false := by
    unfold suspiciousEmptyArrays
    split
    · rename_i hnone
      simp [mem_arrayFields_iff, hnone]
    · split
      · rename_i hfilled
        obtain ⟨field, hfield, hvalue⟩ := List.any_eq_true.mp hfilled
        simp only [ne_eq, not_true_eq_false, false_iff, not_and]
        intro _ hall
        simp [hall field hfield] at hvalue
      · rename_i hfilled
        simp only [Bool.not_eq_true, List.any_eq_false] at hfilled
        rw [ne_eq, List.map_eq_nil_iff, List.filter_eq_nil_iff]
        constructor
        · intro hsome
          refine ⟨?_, fun field hfield => by simpa using hfilled field hfield⟩
          by_contra hnone
          exact hsome fun field hfield hvalue => hnone ⟨field, hfield, hvalue⟩
        · rintro ⟨⟨field, hfield, hvalue⟩, -⟩ hnone
          exact hnone field hfield hvalue
  rw [hnames, AllArraysEmpty]
  refine and_congr ?_ ?_
  · simp only [mem_arrayFields_iff, isEmptyList_iff]
    constructor
    · rintro ⟨field, ⟨group, hgroup, hfield, hname⟩, hvalue⟩
      exact ⟨group, hgroup, field, hfield, hname, hvalue⟩
    · rintro ⟨group, hgroup, field, hfield, hname, hvalue⟩
      exact ⟨field, ⟨group, hgroup, hfield, hname⟩, hvalue⟩
  · simp only [mem_arrayFields_iff, ← Bool.not_eq_true, isFilled_iff]
    constructor
    · intro h group hgroup field hfield hname first rest hvalue
      exact h field ⟨group, hgroup, hfield, hname⟩ ⟨first, rest, hvalue⟩
    · rintro h field ⟨group, hgroup, hfield, hname⟩ ⟨first, rest, hvalue⟩
      exact h group hgroup field hfield hname first rest hvalue

/-! ## When the retry fails -/

variable {Raised : Type} (self : MultimodalExtractor Raised)
  (arguments : ExtractArguments)

def retryCall (prompt : RenderedPrompt) : AgentCall where
  model := self.modelId arguments
  instructions := prompt.system
  content := self.buildUserContent arguments (self.retryText arguments prompt)
  op := "extract.retry_arrays"

inductive RetryFails
    (template : List (String × String) → Except Raised RenderedPrompt)
    (emptyArrays : List String) : Prop
  | render {raised : Raised} :
      template (retryVariables arguments emptyArrays) = .error raised →
      RetryFails template emptyArrays
  | agent {prompt : RenderedPrompt} {raised : Raised} :
      template (retryVariables arguments emptyArrays) = .ok prompt →
      self.buildAgent (self.modelId arguments) prompt.system = .error raised →
      RetryFails template emptyArrays
  | answer {prompt : RenderedPrompt} {raised : Raised} :
      template (retryVariables arguments emptyArrays) = .ok prompt →
      self.answer arguments.doc (retryCall self arguments prompt) =
        .error raised →
      RetryFails template emptyArrays
  | normalise {prompt : RenderedPrompt} {json : JsonValue} {raised : PyError} :
      template (retryVariables arguments emptyArrays) = .ok prompt →
      self.answer arguments.doc (retryCall self arguments prompt) = .ok json →
      Postprocess.normalised self.runtime arguments.doc json = .error raised →
      RetryFails template emptyArrays

theorem run_eq_ok_iff {model instructions userText op : String}
    {groups : List ExtractedFieldGroup} :
    self.run arguments model instructions userText op = .ok groups ↔
      ∃ json, self.answer arguments.doc
        { model, instructions, op
          content := self.buildUserContent arguments userText } = .ok json ∧
        Postprocess.normalised self.runtime arguments.doc json =
          .ok groups := by
  simp only [run, bind_eq_ok_iff]
  refine exists_congr fun json => and_congr_right fun _ => ?_
  cases Postprocess.normalised self.runtime arguments.doc json <;>
    simp [pure, Except.pure, throw, throwThe, MonadExceptOf.throw]

theorem extractRetryArrays_eq_ok_iff
    {template : List (String × String) → Except Raised RenderedPrompt}
    {emptyArrays : List String}
    {result : List ExtractedFieldGroup × String} :
    self.extractRetryArrays arguments template emptyArrays = .ok result ↔
      ∃ prompt json groups,
        template (retryVariables arguments emptyArrays) = .ok prompt ∧
        self.buildAgent (self.modelId arguments) prompt.system = .ok () ∧
        self.answer arguments.doc (retryCall self arguments prompt) =
          .ok json ∧
        Postprocess.normalised self.runtime arguments.doc json = .ok groups ∧
        (groups, self.modelId arguments) = result := by
  simp only [extractRetryArrays, bind_eq_ok_iff, run_eq_ok_iff]
  constructor
  · rintro ⟨prompt, hrender, ⟨⟩, hagent, groups, ⟨json, hanswer, hgroups⟩, h⟩
    exact ⟨prompt, json, groups, hrender, hagent, hanswer, hgroups,
      Except.ok.inj h⟩
  · rintro ⟨prompt, json, groups, hrender, hagent, hanswer, hgroups, rfl⟩
    exact ⟨prompt, hrender, (), hagent, groups, ⟨json, hanswer, hgroups⟩, rfl⟩

theorem extractRetryArrays_fails_iff
    {template : List (String × String) → Except Raised RenderedPrompt}
    {emptyArrays : List String} :
    (∃ raised, self.extractRetryArrays arguments template emptyArrays =
      .error raised) ↔
      RetryFails self arguments template emptyArrays := by
  constructor
  · rintro ⟨raised, hraised⟩
    have hnot : ∀ result, self.extractRetryArrays arguments template
        emptyArrays ≠ .ok result := by
      intro result hresult
      rw [hraised] at hresult
      cases hresult
    cases hrender : template (retryVariables arguments emptyArrays) with
    | error raised => exact .render hrender
    | ok prompt =>
        cases hagent : self.buildAgent (self.modelId arguments)
            prompt.system with
        | error raised => exact .agent hrender hagent
        | ok built =>
            cases hanswer : self.answer arguments.doc
                (retryCall self arguments prompt) with
            | error raised => exact .answer hrender hanswer
            | ok json =>
                cases hgroups : Postprocess.normalised self.runtime
                    arguments.doc json with
                | error raised => exact .normalise hrender hanswer hgroups
                | ok groups =>
                    exact absurd ((extractRetryArrays_eq_ok_iff self
                      arguments).mpr ⟨prompt, json, groups, hrender, hagent,
                        hanswer, hgroups, rfl⟩) (hnot _)
  · intro hfails
    cases houtcome : self.extractRetryArrays arguments template emptyArrays with
    | error raised => exact ⟨raised, rfl⟩
    | ok result =>
        obtain ⟨prompt, json, groups, hrender, hagent, hanswer, hgroups, -⟩ :=
          (extractRetryArrays_eq_ok_iff self arguments).mp houtcome
        cases hfails <;> simp_all

/-! ## The first pass kept -/

def RetriesArrays (groups : List ExtractedFieldGroup)
    (template : List (String × String) → Except Raised RenderedPrompt) :
    Prop :=
  self.retryArraysTemplate = some template ∧
    arrayRetryMinPages ≤ arguments.pageCount ∧
    AllArraysEmpty arguments.doc groups

def RetrySucceeds (groups : List ExtractedFieldGroup) : Prop :=
  ∃ template, RetriesArrays self arguments groups template ∧
    ∃ retry, self.extractRetryArrays arguments template
      (suspiciousEmptyArrays arguments.doc groups) = .ok retry

/-- `extract` returns, and the groups of the first pass where no retry did. -/
def KeepsFirstPass (groups : List ExtractedFieldGroup) : Prop :=
  ∃ result, self.extract arguments = .ok result ∧
    (¬ RetrySucceeds self arguments groups → result.1 = groups)

variable {self arguments}

theorem extract_of_not_retried {groups : List ExtractedFieldGroup}
    {modelUsed : String}
    (hfirst : self.extractOnce arguments "extract" = .ok (groups, modelUsed))
    (h : ∀ template, ¬ RetriesArrays self arguments groups template) :
    self.extract arguments = .ok (groups, modelUsed) := by
  simp only [extract, hfirst, bind, Except.bind]
  cases htemplate : self.retryArraysTemplate with
  | none => rfl
  | some template =>
      by_cases hpages : arguments.pageCount < arrayRetryMinPages
      · simp only [if_pos hpages]
        rfl
      · have hquiet : suspiciousEmptyArrays arguments.doc groups = [] := by
          by_contra hne
          exact h template ⟨htemplate, by omega,
            suspiciousEmptyArrays_ne_nil_iff.mp hne⟩
        simp only [if_neg hpages, if_pos hquiet]
        rfl

theorem extract_of_retried {groups : List ExtractedFieldGroup}
    {modelUsed : String}
    {template : List (String × String) → Except Raised RenderedPrompt}
    (hfirst : self.extractOnce arguments "extract" = .ok (groups, modelUsed))
    (h : RetriesArrays self arguments groups template) :
    self.extract arguments =
      (self.extractRetryArrays arguments template
        (suspiciousEmptyArrays arguments.doc groups)).map fun retry =>
          (mergeAfterRetry groups retry.1
            (suspiciousEmptyArrays arguments.doc groups), retry.2) := by
  obtain ⟨htemplate, hpages, harrays⟩ := h
  have hne := suspiciousEmptyArrays_ne_nil_iff.mpr harrays
  simp only [extract, hfirst, htemplate, bind, Except.bind,
    if_neg (show ¬ arguments.pageCount < arrayRetryMinPages by omega),
    if_neg hne]
  cases self.extractRetryArrays arguments template
    (suspiciousEmptyArrays arguments.doc groups) <;> rfl

/--
After a successful first pass, `extract` keeps what that pass found exactly when
no retry is called for or all its steps go through.
-/
theorem keepsFirstPass_iff {groups : List ExtractedFieldGroup}
    {modelUsed : String}
    (hfirst : self.extractOnce arguments "extract" = .ok (groups, modelUsed)) :
    KeepsFirstPass self arguments groups ↔
      ¬ ∃ template, RetriesArrays self arguments groups template ∧
        RetryFails self arguments template
          (suspiciousEmptyArrays arguments.doc groups) := by
  by_cases hretries : ∃ template, RetriesArrays self arguments groups template
  · obtain ⟨template, hretries⟩ := hretries
    have hunique : ∀ other, RetriesArrays self arguments groups other →
        other = template := by
      intro other hother
      exact Option.some.inj (hother.1.symm.trans hretries.1)
    rw [KeepsFirstPass, extract_of_retried hfirst hretries]
    cases houtcome : self.extractRetryArrays arguments template
        (suspiciousEmptyArrays arguments.doc groups) with
    | error raised =>
        have hfails := (extractRetryArrays_fails_iff self arguments).mp
          ⟨raised, houtcome⟩
        constructor
        · rintro ⟨result, hresult, -⟩
          cases hresult
        · intro hno
          exact absurd ⟨template, hretries, hfails⟩ hno
    | ok retry =>
        constructor
        · rintro - ⟨other, hother, hfails⟩
          rw [hunique other hother] at hfails
          obtain ⟨raised, hraised⟩ :=
            (extractRetryArrays_fails_iff self arguments).mpr hfails
          rw [houtcome] at hraised
          cases hraised
        · intro _
          exact ⟨_, rfl, fun hno =>
            absurd ⟨template, hretries, retry, houtcome⟩ hno⟩
  · constructor
    · rintro - ⟨template, hother, -⟩
      exact hretries ⟨template, hother⟩
    · intro _
      refine ⟨(groups, modelUsed), extract_of_not_retried hfirst ?_,
        fun _ => rfl⟩
      intro template htemplate
      exact hretries ⟨template, htemplate⟩

/-! ## A retry that times out -/

def linesDoc : DocumentTypeSpec where
  id := "invoice"
  fieldGroups :=
    [{ name := "totals",
       fields :=
         [{ name := "lines", type := .array,
            items := some { name := "line", type := .object,
                            fields := some [{ name := "net" }] } }] }]

def timingOut : MultimodalExtractor String where
  template _ := .ok ⟨"", ""⟩
  retryArraysTemplate := some fun _ => .ok ⟨"", ""⟩
  model := "primary"
  anchor _ _ := none
  schemaPayload _ := ""
  buildAgent _ _ := .ok ()
  answer _ call :=
    if call.op = "extract.retry_arrays" then .error "timeout" else .ok (.obj [])
  runtime := .ofJson
  ofPyError _ := "invalid"

def threePages : ExtractArguments where
  documentBytes := []
  mediaType := "application/pdf"
  pageCount := 3
  doc := linesDoc
  intention := "Extract the lines."

def noLines : List ExtractedFieldGroup :=
  [{ name := "totals", fields := [{ name := "lines", value := .list [] }] }]

theorem extractOnce_timingOut :
    timingOut.extractOnce threePages "extract" = .ok (noLines, "primary") := by
  rfl

theorem keepsFirstPass_iff_timingOut :
    KeepsFirstPass timingOut threePages noLines ↔
      ¬ ∃ template, RetriesArrays timingOut threePages noLines template ∧
        RetryFails timingOut threePages template
          (suspiciousEmptyArrays threePages.doc noLines) :=
  keepsFirstPass_iff extractOnce_timingOut

theorem not_keepsFirstPass :
    ¬ ∀ (Raised : Type) (self : MultimodalExtractor Raised)
      (arguments : ExtractArguments) (groups : List ExtractedFieldGroup)
      (modelUsed : String),
      self.extractOnce arguments "extract" = .ok (groups, modelUsed) →
      KeepsFirstPass self arguments groups := by
  intro h
  obtain ⟨result, hresult, -⟩ :=
    h String timingOut threePages noLines "primary" extractOnce_timingOut
  have hraised : timingOut.extract threePages = .error "timeout" := by
    rfl
  rw [hraised] at hresult
  cases hresult

end MultimodalExtractor

end Flydocs
