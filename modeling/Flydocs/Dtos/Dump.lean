import Flydocs.Dtos.Codecs

/-!
# Codecs of the request classes

Every class dumps its attributes in their order and reads them back with its
own defaults and constraints, refusing members it does not know.
-/

namespace Flydocs

open Foundation

namespace Dtos

variable (scalars : Scalars)

/-! ## Fields -/

def ValidatorSpec.codec : Codec ValidatorSpec where
  dump spec := .obj
    [("name", ValidatorType.codec.dump spec.name),
      ("params", dictCodec.dump spec.params),
      ("severity", ValidatorSeverity.codec.dump spec.severity)]
  validate := Codec.closedObject ["name", "params", "severity"]
    fun members => do
      let name ← ValidatorType.codec.required "name" members
      let params ← dictCodec.withDefault [] "params" members
      let severity ←
        ValidatorSeverity.codec.withDefault .error "severity" members
      some { name, params, severity }
  valid _ := True
  validate_dump := by
    intro spec _
    rw [Codec.closedObject_obj (by simp [JsonValue.onlyKeys])]
    simp [Codec.required, Codec.withDefault, Codec.validate_dump]

@[simp] theorem ValidatorSpec.list_valid (specs : List ValidatorSpec) :
    ValidatorSpec.codec.list.valid specs := fun _ _ => trivial

namespace Field

def keys : List String :=
  ["name", "description", "type", "required", "pattern", "format", "enum",
    "minimum", "maximum", "items", "fields", "validators"]

mutual

def dump : Field → JsonValue
  | ⟨name, description, type, required, pattern, format, enum, minimum,
      maximum, items, fields, validators⟩ => .obj
      [("name", scalars.str.codec.dump name),
        ("description", scalars.str.nullable.dump description),
        ("type", FieldType.codec.dump type),
        ("required", scalars.bool.codec.dump required),
        ("pattern", scalars.str.nullable.dump pattern),
        ("format", StandardFormat.nullable.dump format),
        ("enum", anyListCodec.dump enum),
        ("minimum", scalars.float.nullable.dump minimum),
        ("maximum", scalars.float.nullable.dump maximum),
        ("items", dumpItems items),
        ("fields", dumpFields fields),
        ("validators", ValidatorSpec.codec.list.dump validators)]

def dumpItems : Option Field → JsonValue
  | none => .null
  | some row => dump row

def dumpFields : Option (List Field) → JsonValue
  | none => .null
  | some fields => .arr (dumpAll fields)

def dumpAll : List Field → List JsonValue
  | [] => []
  | field :: fields => dump field :: dumpAll fields

end

mutual

def validate (json : JsonValue) : Option Field :=
  match json with
  | .obj members =>
      if JsonValue.onlyKeys keys members then do
        let name ← scalars.str.codec.required "name" members
        let description ←
          scalars.str.nullable.withDefault none "description" members
        let type ← FieldType.codec.withDefault .string "type" members
        let required ←
          scalars.bool.codec.withDefault false "required" members
        let pattern ← scalars.str.nullable.withDefault none "pattern" members
        let format ← StandardFormat.nullable.withDefault none "format" members
        let enum ← anyListCodec.withDefault none "enum" members
        let minimum ←
          scalars.float.nullable.withDefault none "minimum" members
        let maximum ←
          scalars.float.nullable.withDefault none "maximum" members
        let items ←
          match _h : JsonValue.lookup "items" members with
          | none | some .null => some none
          | some row => (validate row).map some
        let fields ←
          match _h : JsonValue.lookup "fields" members with
          | none | some .null => some none
          | some (.arr items) => (validateAll items).map some
          | some _ => none
        let validators ←
          ValidatorSpec.codec.list.withDefault [] "validators" members
        let field : Field :=
          { name, description, type, required, pattern, format, enum, minimum,
            maximum, items, fields, validators }
        if field.name ≠ "" ∧ field.checkConstraints then some field else none
      else none
  | _ => none
termination_by sizeOf json
decreasing_by
  · have hlt := JsonValue.sizeOf_lt_of_lookup _h
    simp only [JsonValue.arr.sizeOf_spec] at hlt
    simp only [JsonValue.obj.sizeOf_spec]
    omega
  · have hlt := JsonValue.sizeOf_lt_of_lookup _h
    simp only [JsonValue.obj.sizeOf_spec]
    omega

def validateAll (items : List JsonValue) : Option (List Field) :=
  match items with
  | [] => some []
  | json :: rest => do
      let field ← validate json
      let fields ← validateAll rest
      some (field :: fields)
termination_by sizeOf items

end

theorem dump_eq_obj (field : Field) :
    ∃ members, dump scalars field = .obj members := by
  cases field
  exact ⟨_, rfl⟩

theorem validateAll_dumpAll {fields : List Field}
    (h : ∀ field ∈ fields, validate scalars (dump scalars field) = some field) :
    validateAll scalars (dumpAll scalars fields) = some fields := by
  induction fields with
  | nil => simp [dumpAll, validateAll]
  | cons field fields ih =>
      have hhead := h field (by simp)
      have htail := ih fun other hother => h other (by simp [hother])
      simp [dumpAll, validateAll, hhead, htail]

theorem validate_dump {field : Field} (h : field.WellFormed) :
    validate scalars (dump scalars field) = some field := by
  induction h with
  | @intro field hname hcheck _ _ hitems hfields =>
      obtain ⟨name, description, type, required, pattern, format, enum,
        minimum, maximum, items, fields, validators⟩ := field
      simp only at hname hitems hfields
      rw [dump, validate, if_pos (by simp [JsonValue.onlyKeys, keys])]
      cases items with
      | none =>
          cases fields with
          | none =>
              simp [Codec.required, Codec.withDefault, Codec.validate_dump,
                dumpItems, dumpFields, hname, hcheck]
          | some members =>
              have hall := validateAll_dumpAll scalars (hfields members rfl)
              simp [Codec.required, Codec.withDefault, Codec.validate_dump,
                dumpItems, dumpFields, hname, hcheck, hall]
      | some row =>
          have hrow := hitems row rfl
          obtain ⟨members, hdump⟩ := dump_eq_obj scalars row
          rw [hdump] at hrow
          cases fields with
          | none =>
              simp [Codec.required, Codec.withDefault, Codec.validate_dump,
                dumpItems, dumpFields, hname, hcheck, hdump, hrow]
          | some members =>
              have hall := validateAll_dumpAll scalars (hfields members rfl)
              simp [Codec.required, Codec.withDefault, Codec.validate_dump,
                dumpItems, dumpFields, hname, hcheck, hdump, hrow, hall]

def codec : Codec Field where
  dump := dump scalars
  validate := validate scalars
  valid := WellFormed
  validate_dump := validate_dump scalars

end Field

def FieldGroup.codec : Codec FieldGroup where
  dump group := .obj
    [("name", scalars.str.codec.dump group.name),
      ("description", scalars.str.nullable.dump group.description),
      ("fields", (Field.codec scalars).list.dump group.fields)]
  validate := Codec.closedObject ["name", "description", "fields"]
    fun members => do
      let name ← scalars.str.codec.required "name" members
      let description ←
        scalars.str.nullable.withDefault none "description" members
      let fields ← (Field.codec scalars).list.required "fields" members
      if name ≠ "" ∧ fields ≠ [] then some { name, description, fields }
      else none
  valid := WellFormed
  validate_dump := by
    rintro group ⟨hname, hne, hfields⟩
    have hlist := (Field.codec scalars).list.validate_dump hfields
    rw [Codec.closedObject_obj (by simp [JsonValue.onlyKeys])]
    simp [Codec.required, Codec.withDefault, hlist, hname, hne]

def VisualCheck.codec : Codec Interfaces.VisualCheck where
  dump check := .obj
    [("name", scalars.str.codec.dump check.name),
      ("description", scalars.str.codec.dump check.description)]
  validate := Codec.closedObject ["name", "description"] fun members => do
    let name ← scalars.str.codec.required "name" members
    let description ← scalars.str.codec.required "description" members
    if name ≠ "" then some { name, description } else none
  valid := WellFormed
  validate_dump := by
    intro check hname
    have hname : check.name ≠ "" := hname
    rw [Codec.closedObject_obj (by simp [JsonValue.onlyKeys])]
    simp [Codec.required, hname]

def DocumentTypeSpec.codec : Codec DocumentTypeSpec where
  dump spec := .obj
    [("id", scalars.str.codec.dump spec.id),
      ("description", scalars.str.nullable.dump spec.description),
      ("country", scalars.str.nullable.dump spec.country),
      ("field_groups", (FieldGroup.codec scalars).list.dump spec.fieldGroups),
      ("visual_checks",
        (VisualCheck.codec scalars).list.dump spec.visualChecks)]
  validate := Codec.closedObject
    ["id", "description", "country", "field_groups", "visual_checks"]
    fun members => do
      let id ← scalars.str.codec.required "id" members
      let description ←
        scalars.str.nullable.withDefault none "description" members
      let country ← scalars.str.nullable.withDefault none "country" members
      let fieldGroups ←
        (FieldGroup.codec scalars).list.required "field_groups" members
      let visualChecks ←
        (VisualCheck.codec scalars).list.withDefault [] "visual_checks" members
      if id ≠ "" ∧ fieldGroups ≠ [] then
        some { id, description, visualChecks, country, fieldGroups }
      else none
  valid := WellFormed
  validate_dump := by
    rintro spec ⟨hid, hne, hgroups, hchecks⟩
    have hgroups := (FieldGroup.codec scalars).list.validate_dump hgroups
    have hchecks := (VisualCheck.codec scalars).list.validate_dump hchecks
    rw [Codec.closedObject_obj (by simp [JsonValue.onlyKeys])]
    simp [Codec.required, Codec.withDefault, hgroups, hchecks, hid, hne]

/-! ## Rules -/

def RuleParent.codec : Codec RuleParent where
  dump
    | .field documentType fields => .obj
        [("kind", .str "field"),
          ("document_type", scalars.str.codec.dump documentType),
          ("fields", scalars.str.codec.list.dump fields)]
    | .validator documentType name => .obj
        [("kind", .str "validator"),
          ("document_type", scalars.str.codec.dump documentType),
          ("validator", scalars.str.codec.dump name)]
    | .rule id => .obj
        [("kind", .str "rule"), ("rule", scalars.str.codec.dump id)]
  validate
    | .obj members =>
        match JsonValue.lookup "kind" members with
        | some (.str "field") =>
            Codec.closedObject ["kind", "document_type", "fields"]
              (fun members => do
                let documentType ←
                  scalars.str.codec.required "document_type" members
                let fields ← scalars.str.codec.list.required "fields" members
                if fields ≠ [] then some (.field documentType fields)
                else none)
              (.obj members)
        | some (.str "validator") =>
            Codec.closedObject ["kind", "document_type", "validator"]
              (fun members => do
                let documentType ←
                  scalars.str.codec.required "document_type" members
                let name ← scalars.str.codec.required "validator" members
                some (.validator documentType name))
              (.obj members)
        | some (.str "rule") =>
            Codec.closedObject ["kind", "rule"]
              (fun members => do
                let id ← scalars.str.codec.required "rule" members
                some (.rule id))
              (.obj members)
        | _ => none
    | _ => none
  valid := WellFormed
  validate_dump := by
    intro parent hvalid
    cases parent with
    | field documentType fields =>
        have hne : fields ≠ [] := hvalid
        simp [Codec.closedObject, JsonValue.onlyKeys, Codec.required, hne]
    | validator documentType name | rule id =>
        simp [Codec.closedObject, JsonValue.onlyKeys, Codec.required]

def strListCodec : Codec (Option (List String)) :=
  scalars.str.codec.list.nullable fun _ _ h => nomatch h

theorem strListCodec_validate_dump (values : Option (List String)) :
    (strListCodec scalars).validate ((strListCodec scalars).dump values) =
      some values :=
  (strListCodec scalars).validate_dump fun _ _ _ _ => trivial

def RuleOutputSpec.codec : Codec RuleOutputSpec where
  dump spec := .obj
    [("type", scalars.str.codec.dump spec.type),
      ("valid_outputs", (strListCodec scalars).dump spec.validOutputs)]
  validate := Codec.closedObject ["type", "valid_outputs"] fun members => do
    let type ← scalars.str.codec.withDefault "boolean" "type" members
    let validOutputs ←
      (strListCodec scalars).withDefault none "valid_outputs" members
    some { type, validOutputs }
  valid _ := True
  validate_dump := by
    intro spec _
    rw [Codec.closedObject_obj (by simp [JsonValue.onlyKeys])]
    simp [Codec.withDefault, strListCodec_validate_dump]

def RuleSpec.codec : Codec RuleSpec where
  dump spec := .obj
    [("id", scalars.str.codec.dump spec.id),
      ("predicate", scalars.str.codec.dump spec.predicate),
      ("parents", (RuleParent.codec scalars).list.dump spec.parents),
      ("output", (RuleOutputSpec.codec scalars).dump spec.output)]
  validate := Codec.closedObject ["id", "predicate", "parents", "output"]
    fun members => do
      let id ← scalars.str.codec.required "id" members
      let predicate ← scalars.str.codec.required "predicate" members
      let parents ←
        (RuleParent.codec scalars).list.withDefault [] "parents" members
      let output ←
        (RuleOutputSpec.codec scalars).withDefault {} "output" members
      if id ≠ "" ∧ predicate ≠ "" then
        some { id, predicate, parents, output }
      else none
  valid := WellFormed
  validate_dump := by
    rintro spec ⟨hid, hpredicate, hparents⟩
    have hparents := (RuleParent.codec scalars).list.validate_dump hparents
    have houtput : (RuleOutputSpec.codec scalars).validate
        ((RuleOutputSpec.codec scalars).dump spec.output) = some spec.output :=
      (RuleOutputSpec.codec scalars).validate_dump trivial
    rw [Codec.closedObject_obj (by simp [JsonValue.onlyKeys])]
    simp [Codec.required, Codec.withDefault, hparents, houtput, hid,
      hpredicate]

/-! ## Transformations -/

def PartsOfWholeInvariant.codec : Codec PartsOfWholeInvariant where
  dump spec := .obj
    [("share_field", scalars.str.codec.dump spec.shareField),
      ("total", scalars.float.codec.dump spec.total),
      ("tolerance", scalars.float.codec.dump spec.tolerance),
      ("on_violation", OnViolation.codec.dump spec.onViolation)]
  validate := Codec.closedObject
    ["share_field", "total", "tolerance", "on_violation"]
    fun members => do
      let shareField ← scalars.str.codec.required "share_field" members
      let total ← scalars.float.codec.withDefault 100 "total" members
      let tolerance ←
        scalars.float.codec.withDefault (1 / 2) "tolerance" members
      let onViolation ←
        OnViolation.codec.withDefault .repair "on_violation" members
      if shareField ≠ "" ∧ 0 < total ∧ 0 ≤ tolerance then
        some { shareField, total, tolerance, onViolation }
      else none
  valid := WellFormed
  validate_dump := by
    rintro spec ⟨hshare, htotal, htolerance⟩
    rw [Codec.closedObject_obj (by simp [JsonValue.onlyKeys])]
    simp [Codec.required, Codec.withDefault, Codec.validate_dump, hshare,
      htotal, htolerance]

def invariantCodec : Codec (Option PartsOfWholeInvariant) :=
  (PartsOfWholeInvariant.codec scalars).nullable fun _ _ h => nomatch h

def BaseTransformation.dump (base : BaseTransformation) : JsonValue.Members :=
  [("id", scalars.str.codec.dump base.id),
    ("target_group", scalars.str.codec.dump base.targetGroup),
    ("output_group", scalars.str.nullable.dump base.outputGroup),
    ("scope", scopeCodec.dump base.scope)]

def BaseTransformation.validate (members : JsonValue.Members) :
    Option BaseTransformation := do
  let id ← scalars.str.codec.withDefault scalars.uuid4 "id" members
  let targetGroup ← scalars.str.codec.required "target_group" members
  let outputGroup ←
    scalars.str.nullable.withDefault none "output_group" members
  let scope ← scopeCodec.withDefault .task "scope" members
  if targetGroup ≠ "" then some { scope, id, targetGroup, outputGroup }
  else none

theorem BaseTransformation.validate_dump {base : BaseTransformation}
    (h : base.WellFormed) (rest : JsonValue.Members) :
    BaseTransformation.validate scalars (base.dump scalars ++ rest) =
      some base := by
  have htarget : base.targetGroup ≠ "" := h
  simp [BaseTransformation.validate, BaseTransformation.dump, Codec.required,
    Codec.withDefault, Codec.validate_dump, htarget]

def baseKeys : List String := ["id", "target_group", "output_group", "scope"]

def Transformation.codec : Codec Transformation where
  dump
    | .entityResolution spec => .obj
        (spec.toBaseTransformation.dump scalars ++
          [("type", .str "entity_resolution"),
            ("match_by", scalars.str.codec.list.dump spec.matchBy),
            ("min_shared_tokens",
              scalars.int.codec.dump spec.minSharedTokens)])
    | .llm spec => .obj
        (spec.toBaseTransformation.dump scalars ++
          [("type", .str "llm"),
            ("intention", scalars.str.codec.dump spec.intention),
            ("prompt_id", scalars.str.nullable.dump spec.promptId),
            ("include_provenance",
              scalars.bool.codec.dump spec.includeProvenance),
            ("invariant", (invariantCodec scalars).dump spec.invariant)])
  validate
    | .obj members =>
        match JsonValue.lookup "type" members with
        | some (.str "entity_resolution") =>
            Codec.closedObject
              (baseKeys ++ ["type", "match_by", "min_shared_tokens"])
              (fun members => do
                let base ← BaseTransformation.validate scalars members
                let matchBy ←
                  scalars.str.codec.list.required "match_by" members
                let minSharedTokens ←
                  scalars.int.codec.withDefault 2 "min_shared_tokens" members
                if matchBy ≠ [] ∧ 1 ≤ minSharedTokens then
                  some (.entityResolution
                    { toBaseTransformation := base, matchBy, minSharedTokens })
                else none)
              (.obj members)
        | some (.str "llm") =>
            Codec.closedObject
              (baseKeys ++ ["type", "intention", "prompt_id",
                "include_provenance", "invariant"])
              (fun members => do
                let base ← BaseTransformation.validate scalars members
                let intention ← scalars.str.codec.required "intention" members
                let promptId ←
                  scalars.str.nullable.withDefault none "prompt_id" members
                let includeProvenance ←
                  scalars.bool.codec.withDefault true "include_provenance"
                    members
                let invariant ←
                  (invariantCodec scalars).withDefault none "invariant" members
                if 10 ≤ intention.length then
                  some (.llm
                    { toBaseTransformation := base, intention, promptId,
                      includeProvenance, invariant })
                else none)
              (.obj members)
        | _ => none
    | _ => none
  valid := WellFormed
  validate_dump := by
    intro transformation hvalid
    cases transformation with
    | entityResolution spec =>
        obtain ⟨hbase, hmatch, hshared⟩ := hvalid
        have hbase := BaseTransformation.validate_dump scalars hbase
        simp only [BaseTransformation.dump, List.cons_append,
          List.nil_append] at hbase ⊢
        simp [Codec.closedObject, JsonValue.onlyKeys, baseKeys, hbase,
          Codec.required, Codec.withDefault, hmatch, hshared]
    | llm spec =>
        obtain ⟨hbase, hintention, hguard⟩ := hvalid
        have hbase := BaseTransformation.validate_dump scalars hbase
        have hguard := (invariantCodec scalars).validate_dump hguard
        simp only [BaseTransformation.dump, List.cons_append,
          List.nil_append] at hbase ⊢
        simp [Codec.closedObject, JsonValue.onlyKeys, baseKeys, hbase,
          Codec.required, Codec.withDefault, hguard, hintention]

/-! ## Options -/

def stagesCodec : Codec Interfaces.StageToggles where
  dump stages := .obj
    [("splitter", scalars.bool.codec.dump stages.splitter),
      ("classifier", scalars.bool.codec.dump stages.classifier),
      ("field_validation", scalars.bool.codec.dump stages.fieldValidation),
      ("visual_authenticity",
        scalars.bool.codec.dump stages.visualAuthenticity),
      ("content_authenticity",
        scalars.bool.codec.dump stages.contentAuthenticity),
      ("judge", scalars.bool.codec.dump stages.judge),
      ("judge_escalation", scalars.bool.codec.dump stages.judgeEscalation),
      ("repair", scalars.bool.codec.dump stages.repair),
      ("bbox_refine", scalars.bool.codec.dump stages.bboxRefine),
      ("transform", scalars.bool.codec.dump stages.transform),
      ("rule_engine", scalars.bool.codec.dump stages.ruleEngine)]
  validate := Codec.closedObject
    ["splitter", "classifier", "field_validation", "visual_authenticity",
      "content_authenticity", "judge", "judge_escalation", "repair",
      "bbox_refine", "transform", "rule_engine"]
    fun members => do
      let toggle := scalars.bool.codec.withDefault
      let splitter ← toggle false "splitter" members
      let classifier ← toggle true "classifier" members
      let fieldValidation ← toggle true "field_validation" members
      let visualAuthenticity ← toggle false "visual_authenticity" members
      let contentAuthenticity ← toggle false "content_authenticity" members
      let judge ← toggle false "judge" members
      let judgeEscalation ← toggle false "judge_escalation" members
      let repair ← toggle false "repair" members
      let bboxRefine ← toggle false "bbox_refine" members
      let transform ← toggle false "transform" members
      let ruleEngine ← toggle false "rule_engine" members
      some { splitter, classifier, fieldValidation, visualAuthenticity,
             contentAuthenticity, judge, judgeEscalation, repair, bboxRefine,
             transform, ruleEngine }
  valid _ := True
  validate_dump := by
    intro stages _
    rw [Codec.closedObject_obj (by simp [JsonValue.onlyKeys])]
    simp [Codec.withDefault]

def EscalationConfig.codec : Codec EscalationConfig where
  dump config := .obj
    [("threshold", scalars.float.codec.dump config.threshold),
      ("model", scalars.str.codec.dump config.model)]
  validate := Codec.closedObject ["threshold", "model"] fun members => do
    let threshold ← scalars.float.codec.required "threshold" members
    let model ← scalars.str.codec.required "model" members
    if 0 ≤ threshold ∧ threshold ≤ 1 ∧ model ≠ "" then
      some { threshold, model }
    else none
  valid := WellFormed
  validate_dump := by
    rintro config ⟨hlow, hhigh, hmodel⟩
    rw [Codec.closedObject_obj (by simp [JsonValue.onlyKeys])]
    simp [Codec.required, hlow, hhigh, hmodel]

def escalationCodec : Codec (Option EscalationConfig) :=
  (EscalationConfig.codec scalars).nullable fun _ _ h => nomatch h

def ExtractionOptions.codec : Codec ExtractionOptions where
  dump options := .obj
    [("model", scalars.str.nullable.dump options.model),
      ("language_hint", scalars.str.nullable.dump options.languageHint),
      ("return_bboxes", scalars.bool.codec.dump options.returnBboxes),
      ("declared_media_type",
        scalars.str.nullable.dump options.declaredMediaType),
      ("stages", (stagesCodec scalars).dump options.stages),
      ("escalation", (escalationCodec scalars).dump options.escalation),
      ("transformations",
        (Transformation.codec scalars).list.dump options.transformations)]
  validate := Codec.closedObject
    ["model", "language_hint", "return_bboxes", "declared_media_type",
      "stages", "escalation", "transformations"]
    fun members => do
      let model ← scalars.str.nullable.withDefault none "model" members
      let languageHint ←
        scalars.str.nullable.withDefault none "language_hint" members
      let returnBboxes ←
        scalars.bool.codec.withDefault true "return_bboxes" members
      let declaredMediaType ←
        scalars.str.nullable.withDefault none "declared_media_type" members
      let stages ← (stagesCodec scalars).withDefault {} "stages" members
      let escalation ←
        (escalationCodec scalars).withDefault none "escalation" members
      let transformations ←
        (Transformation.codec scalars).list.withDefault [] "transformations"
          members
      if ∀ hint ∈ languageHint, hint.length ≤ 16 then
        some { model, languageHint, returnBboxes, declaredMediaType, stages,
               escalation, transformations }
      else none
  valid := WellFormed
  validate_dump := by
    rintro options ⟨hhint, hescalation, htransformations⟩
    have hstages : (stagesCodec scalars).validate
        ((stagesCodec scalars).dump options.stages) = some options.stages :=
      (stagesCodec scalars).validate_dump trivial
    have hescalation := (escalationCodec scalars).validate_dump hescalation
    have htransformations :=
      (Transformation.codec scalars).list.validate_dump htransformations
    rw [Codec.closedObject_obj (by simp [JsonValue.onlyKeys])]
    simpa [Codec.withDefault, hstages, hescalation, htransformations]
      using hhint

end Dtos

end Flydocs
