import DubboAdmin.Rules.RuleSpecYaml

/-!
# The documents of rules

`EncodeRule` and `DecodeRule`, which convert between resources and the YAML documents of rules, and
`ValidateRule`, which both of them ask. Affinity routes and script routes have documents of their
own (`TypedCodec`): a flag of a document may be missing, and since the message has plain Booleans,
an annotation of the resource says that it was. All other kinds are written as their message, and
read into what the registered constructor of the kind returns, which has no mesh and no name, so
that their key is not read back (`decodeRule_encodeRule_iff`).
-/

namespace DubboAdmin.Rules

open Json Strings

variable {Text : Type}

/-! ## Messages and documents -/

/-- `AffinityAware`, in the message and in the document. -/
structure AffinityAware where
  key : String
  ratio : Int32
deriving DecidableEq

/-- An affinity route. -/
structure AffinityRoute where
  configVersion : String
  scope : String
  key : String
  runtime : Bool
  enabled : Bool
  affinity : Option AffinityAware
deriving DecidableEq

/-- A script route. -/
structure ScriptRoute where
  configVersion : String
  scope : String
  key : String
  enabled : Bool
  type : String
  script : String
deriving DecidableEq

/-- The document of an affinity route. -/
structure AffinityRouteYAML where
  configVersion : String
  scope : String
  key : String
  runtime : Option Bool
  enabled : Option Bool
  affinityAware : Option AffinityAware
deriving DecidableEq

/-- The document of a script route. -/
structure ScriptRouteYAML where
  configVersion : String
  scope : String
  key : String
  enabled : Option Bool
  type : String
  script : String
deriving DecidableEq

/-- A field without `omitempty`. -/
@[simp]
def always {α β : Type} (name : String) (t : JsonType β) (get : α → β) (set : β → α → α) :
    Json.Field α :=
  ⟨β, t, name, false, get, set⟩

/-- The fields of `affinityAwareYAML`. -/
def affinityAwareFields : List (Json.Field AffinityAware) :=
  [always "key" stringType (·.key) fun v x => { x with key := v },
   always "ratio" int32Type (·.ratio) fun v x => { x with ratio := v }]

/-- `affinityAwareYAML`, as it is written and read. -/
def affinityAwareType : JsonType AffinityAware := struct affinityAwareFields ⟨"", 0⟩ id

theorem struct_affinityAware : Struct affinityAwareFields ⟨"", 0⟩ id where
  names := by decide
  sound := by
    simp only [affinityAwareFields, List.forall_mem_cons, always]
    exact ⟨⟨lawful_stringType, rfl, fun _ _ => rfl⟩, ⟨lawful_int32Type, rfl, fun _ _ => rfl⟩, nofun⟩
  apart := by simp [affinityAwareFields, always, Json.Field.Apart]
  ext x z h := by
    simp only [affinityAwareFields, always, List.forall_mem_cons, Json.Field.kept] at h
    cases z
    simp_all

@[simp]
theorem lawful_affinityAwareType : affinityAwareType.Lawful := struct_affinityAware.lawful

@[simp]
theorem stored_affinityAwareType : affinityAwareType.stored = id := rfl

/-- The fields of `affinityRouteYAML`. -/
def affinityRouteYAMLFields : List (Json.Field AffinityRouteYAML) :=
  [always "configVersion" stringType (·.configVersion) fun v x => { x with configVersion := v },
   always "scope" stringType (·.scope) fun v x => { x with scope := v },
   always "key" stringType (·.key) fun v x => { x with key := v },
   tagged "runtime" (pointer boolType) (·.runtime) fun v x => { x with runtime := v },
   tagged "enabled" (pointer boolType) (·.enabled) fun v x => { x with enabled := v },
   always "affinityAware" (pointer affinityAwareType) (·.affinityAware) fun v x =>
     { x with affinityAware := v }]

/-- `affinityRouteYAML`, as it is written and read. -/
def affinityRouteYAMLType : JsonType AffinityRouteYAML :=
  struct affinityRouteYAMLFields ⟨"", "", "", none, none, none⟩ id

theorem struct_affinityRouteYAML :
    Struct affinityRouteYAMLFields ⟨"", "", "", none, none, none⟩ id where
  names := by decide
  sound := by
    simp [affinityRouteYAMLFields, lawful_pointer lawful_boolType fun _ => nofun,
      lawful_pointer lawful_affinityAwareType fun _ => nofun]
  apart := by simp [affinityRouteYAMLFields, Json.Field.Apart]
  ext x z h := by
    cases z
    simp_all [affinityRouteYAMLFields, Json.Field.kept]

/-- The fields of `scriptRouteYAML`. -/
def scriptRouteYAMLFields : List (Json.Field ScriptRouteYAML) :=
  [always "configVersion" stringType (·.configVersion) fun v x => { x with configVersion := v },
   always "scope" stringType (·.scope) fun v x => { x with scope := v },
   always "key" stringType (·.key) fun v x => { x with key := v },
   tagged "enabled" (pointer boolType) (·.enabled) fun v x => { x with enabled := v },
   always "type" stringType (·.type) fun v x => { x with type := v },
   always "script" stringType (·.script) fun v x => { x with script := v }]

/-- `scriptRouteYAML`, as it is written and read. -/
def scriptRouteYAMLType : JsonType ScriptRouteYAML :=
  struct scriptRouteYAMLFields ⟨"", "", "", none, "", ""⟩ id

theorem struct_scriptRouteYAML : Struct scriptRouteYAMLFields ⟨"", "", "", none, "", ""⟩ id where
  names := by decide
  sound := by simp [scriptRouteYAMLFields, lawful_pointer lawful_boolType fun _ => nofun]
  apart := by simp [scriptRouteYAMLFields, Json.Field.Apart]
  ext x z h := by
    cases z
    simp_all [scriptRouteYAMLFields, Json.Field.kept]

/-! ## Flags that may be missing -/

/-- `annotations[key]`. -/
def annotation (annotations : Option StringMap) (key : String) : String :=
  (annotations.getD Keyed.empty).value key

def optionalRuleBool (value : Bool) (annotations : Option StringMap) (key : String) :
    Option Bool :=
  if !value && annotation annotations key = "true" then none else some value

def markRuleBooleanOmitted (annotations : Option StringMap) (key : String) : Option StringMap :=
  some ((annotations.getD Keyed.empty).put (key, "true"))

def clearRuleBooleanOmitted (annotations : Option StringMap) (key : String) : Option StringMap :=
  nilIfEmptyMap (some ((annotations.getD Keyed.empty).erase key))

/-- What `DecodeRule` does to the annotations for a flag of a document. -/
def noteRuleBoolean (annotations : Option StringMap) (key : String) : Option Bool → Option StringMap
  | some _ => clearRuleBooleanOmitted annotations key
  | none => markRuleBooleanOmitted annotations key

theorem annotation_nilIfEmptyMap (m : StringMap) (key : String) :
    annotation (nilIfEmptyMap (some m)) key = m.value key := by
  unfold nilIfEmptyMap annotation
  dsimp only
  split_ifs with h
  · obtain ⟨items, nodup⟩ := m
    obtain rfl : items = [] := h
    rfl
  · rfl

theorem annotation_noteRuleBoolean_ne (annotations : Option StringMap) {key key' : String}
    (h : key' ≠ key) (flag : Option Bool) :
    annotation (noteRuleBoolean annotations key flag) key' = annotation annotations key' := by
  cases flag with
  | none =>
    show ((Keyed.put _ (key, "true")).get? key' |>.map Prod.snd).getD "" = _
    rw [Keyed.get?_put_ne _ h]
    rfl
  | some b =>
    rw [noteRuleBoolean, clearRuleBooleanOmitted, annotation_nilIfEmptyMap]
    unfold StringMap.value
    rw [Keyed.get?_erase_ne _ h]
    rfl

/-- A flag is written as it was read. -/
theorem optionalRuleBool_noteRuleBoolean (annotations : Option StringMap) (key : String)
    (flag : Option Bool) :
    optionalRuleBool (flag.getD false) (noteRuleBoolean annotations key flag) key = flag := by
  cases flag with
  | none =>
    have hmarked : annotation (noteRuleBoolean annotations key none) key = "true" := by
      show ((Keyed.put _ (key, "true")).get? key |>.map Prod.snd).getD "" = _
      rw [Keyed.get?_put_self]
      rfl
    unfold optionalRuleBool
    rw [hmarked]
    rfl
  | some b =>
    have hcleared : annotation (noteRuleBoolean annotations key (some b)) key = "" := by
      rw [noteRuleBoolean, clearRuleBooleanOmitted, annotation_nilIfEmptyMap]
      unfold StringMap.value
      rw [Keyed.get?_erase_self]
      rfl
    unfold optionalRuleBool
    rw [hcleared, decide_eq_false (by decide), Bool.and_false]
    rfl

theorem getD_optionalRuleBool (value : Bool) (annotations : Option StringMap) (key : String) :
    (optionalRuleBool value annotations key).getD false = value := by
  unfold optionalRuleBool
  cases value with
  | false => split_ifs <;> rfl
  | true => rfl

/-! ## Kinds with documents of their own -/

/-- How the messages of a kind are checked and converted to documents. -/
structure TypedCodec (σ D : Type) where
  kind : String
  message : σ
  type : JsonType D
  /-- The document of a message, with the annotations of the resource. -/
  document : σ → Option StringMap → D
  spec : D → σ
  /-- The annotations of a resource that was read from a document. -/
  annotations : D → Option StringMap
  /-- The checks of `ValidateRule`, with the name of the resource. -/
  validate : String → σ → Except Failure Unit

def invalidRule (message : String) : Failure := .err ("[InvalidArgument], " ++ message)

/-- `ruleYAMLError`, without the cause, which the library words. -/
def ruleYAMLError (name : String) : Failure := .err ("[YamlError], invalid rule YAML " ++ name)

def affinityRouteKind : String := "AffinityRoute"

def scriptRouteKind : String := "ScriptRoute"

def affinityRuntimeOmittedAnnotation : String := "dubbo.apache.org/affinity-runtime-omitted"

def affinityEnabledOmittedAnnotation : String := "dubbo.apache.org/affinity-enabled-omitted"

def scriptEnabledOmittedAnnotation : String := "dubbo.apache.org/script-enabled-omitted"

def configuratorVersionV3 : String := "v3.0"

def configuratorVersionV3x1 : String := "v3.1"

def scopeApplication : String := "application"

def scopeService : String := "service"

def affinityRuleDotSuffix : String := ".affinity-router"

def scriptRuleDotSuffix : String := ".script-router"

def scriptTypeJavaScript : String := "javascript"

def maxScriptRuleSize : ℕ := 64 * 1024

/-- The checks of `ValidateRule` on an affinity route. -/
def validateAffinityRoute (name : String) (spec : AffinityRoute) : Except Failure Unit :=
  if spec.configVersion ≠ configuratorVersionV3x1 then
    .error (invalidRule "affinity configVersion must be v3.1")
  else if spec.scope ≠ scopeApplication ∧ spec.scope ≠ scopeService then
    .error (invalidRule "affinity scope must be application or service")
  else if trimSpace spec.key = "" ∨ name ≠ spec.key ++ affinityRuleDotSuffix then
    .error (invalidRule "affinity rule name must be key.affinity-router")
  else match spec.affinity with
    | none => .error (invalidRule "affinityAware.key is required")
    | some affinity =>
      if trimSpace affinity.key = "" then .error (invalidRule "affinityAware.key is required")
      else if affinity.ratio < 0 ∨ affinity.ratio > 100 then
        .error (invalidRule "affinityAware.ratio must be in [0, 100]")
      else .ok ()

/-- The checks of `ValidateRule` on a script route. -/
def validateScriptRoute (name : String) (spec : ScriptRoute) : Except Failure Unit :=
  if spec.configVersion ≠ configuratorVersionV3 ∧ spec.configVersion ≠ configuratorVersionV3x1 then
    .error (invalidRule "script configVersion must be v3.0 or v3.1")
  else if spec.scope ≠ scopeApplication then
    .error (invalidRule "script rules only support application scope")
  else if trimSpace spec.key = "" ∨ name ≠ spec.key ++ scriptRuleDotSuffix then
    .error (invalidRule "script rule name must be key.script-router")
  else if spec.type ≠ scriptTypeJavaScript then
    .error (invalidRule "script type must be javascript")
  else if trimSpace spec.script = "" then .error (invalidRule "script must be non-empty")
  else if spec.script.utf8ByteSize > maxScriptRuleSize then
    .error (invalidRule ("script must not exceed " ++ toString maxScriptRuleSize ++ " bytes"))
  else .ok ()

/-- Affinity routes. -/
def affinityCodec : TypedCodec AffinityRoute AffinityRouteYAML where
  kind := affinityRouteKind
  message := ⟨"", "", "", false, false, none⟩
  type := affinityRouteYAMLType
  document spec annotations :=
    { configVersion := spec.configVersion
      scope := spec.scope
      key := spec.key
      runtime := optionalRuleBool spec.runtime annotations affinityRuntimeOmittedAnnotation
      enabled := optionalRuleBool spec.enabled annotations affinityEnabledOmittedAnnotation
      affinityAware := spec.affinity }
  spec external :=
    { configVersion := external.configVersion
      scope := external.scope
      key := external.key
      runtime := external.runtime.getD false
      enabled := external.enabled.getD false
      affinity := external.affinityAware }
  annotations external :=
    noteRuleBoolean (noteRuleBoolean none affinityRuntimeOmittedAnnotation external.runtime)
      affinityEnabledOmittedAnnotation external.enabled
  validate := validateAffinityRoute

/-- Script routes. -/
def scriptCodec : TypedCodec ScriptRoute ScriptRouteYAML where
  kind := scriptRouteKind
  message := ⟨"", "", "", false, "", ""⟩
  type := scriptRouteYAMLType
  document spec annotations :=
    { configVersion := spec.configVersion
      scope := spec.scope
      key := spec.key
      enabled := optionalRuleBool spec.enabled annotations scriptEnabledOmittedAnnotation
      type := spec.type
      script := spec.script }
  spec external :=
    { configVersion := external.configVersion
      scope := external.scope
      key := external.key
      enabled := external.enabled.getD false
      type := external.type
      script := external.script }
  annotations external := noteRuleBoolean none scriptEnabledOmittedAnnotation external.enabled
  validate := validateScriptRoute

/-! ## The codec -/

/-- A registered kind: its message, as it is written and read. -/
structure Schema where
  kind : String
  Spec : Type
  type : JsonType Spec

/-- A `coremodel.Resource` that the codec is called with. A resource may be a `nil` pointer. -/
inductive AnyRule where
  /-- `nil`. -/
  | absent
  | affinityRoute (r : Option (RuleResource AffinityRoute))
  | scriptRoute (r : Option (RuleResource ScriptRoute))
  /-- A resource of another kind. -/
  | generic (schema : Schema) (r : Option (RuleResource schema.Spec))

/-- The kinds of rules that have no document of their own. -/
def ruleSchemas : List Schema :=
  [⟨conditionRouteKind, ConditionRoute, conditionRouteType⟩,
   ⟨tagRouteKind, TagRoute, tagRouteType⟩,
   ⟨dynamicConfigKind, DynamicConfig, dynamicConfigType⟩]

/-- `ValidateRule` on a kind with documents of its own. -/
def TypedCodec.validateRule {σ D : Type} (c : TypedCodec σ D) (r : Option (RuleResource σ)) :
    Except Failure Unit :=
  match r with
  | none => .error (invalidRule "rule spec is required")
  | some r => match r.spec.spec with
    | none => .error (invalidRule "rule spec is required")
    | some spec => c.validate r.name spec

/-- `ValidateRule`. The spec of a resource of another kind is a pointer in an interface, which is
not `nil` even where the pointer is. -/
def validateRule : AnyRule → Except Failure Unit
  | .absent => .error (invalidRule "rule spec is required")
  | .affinityRoute r => affinityCodec.validateRule r
  | .scriptRoute r => scriptCodec.validateRule r
  | .generic _ none => .error nilDereference
  | .generic _ (some _) => .ok ()

/-- `EncodeRule` on a kind with documents of its own, after the validation. -/
def TypedCodec.encodeRule {σ D : Type} (c : TypedCodec σ D) (y : Yaml Text)
    (r : Option (RuleResource σ)) : Except Failure Text :=
  match r with
  | none => .error nilDereference
  | some r => match r.spec.spec with
    | none => .error nilDereference
    | some spec => .ok (y.marshal c.type (c.document spec r.spec.annotations))

def encodeRule (y : Yaml Text) (r : AnyRule) : Except Failure Text :=
  match validateRule r with
  | .error e => .error e
  | .ok () => match r with
    | .affinityRoute r => affinityCodec.encodeRule y r
    | .scriptRoute r => scriptCodec.encodeRule y r
    | .generic schema (some r) => .ok (y.marshal (pointer schema.type) r.spec.spec)
    | .absent | .generic _ none => .error (invalidRule "rule spec is required")

/-- The resource that is read from a document of a kind with documents of its own. -/
def TypedCodec.resource {σ D : Type} (c : TypedCodec σ D) (mesh name : String) (external : D) :
    RuleResource σ :=
  ⟨c.kind, mesh, name, c.annotations external, some (c.spec external)⟩

/-- `DecodeRule` on a kind with documents of its own. -/
def TypedCodec.decodeRule {σ D : Type} (c : TypedCodec σ D) (y : Yaml Text) (mesh name : String)
    (data : Text) : Except Failure (RuleResource σ) :=
  if y.isBlank data then .ok (newResourceWithAttributes c.kind c.message name mesh)
  else
    let external := y.unmarshal c.type data c.type.zero
    if external.ok then
      let res := c.resource mesh name external.value
      match c.validateRule (some res) with
      | .error e => .error e
      | .ok () => .ok res
    else .error (ruleYAMLError name)

/-- The constructor that a kind is registered with: a resource with an empty message, without a
mesh and a name. -/
def Schema.newResource (schema : Schema) : RuleResource schema.Spec :=
  ⟨schema.kind, "", "", none, some schema.type.zero⟩

/-- `DecodeRule` on another kind. -/
def Schema.decodeRule (schema : Schema) (y : Yaml Text) (name : String) (data : Text) :
    Except Failure (RuleResource schema.Spec) :=
  let r := schema.newResource
  let d := y.unmarshal schema.type data (r.spec.spec.getD schema.type.zero)
  if d.ok then .ok { r with spec := { r.spec with spec := some d.value } }
  else .error (ruleYAMLError name)

/-- `DecodeRule`. The kinds that are registered are those of rules and `others`. -/
def decodeRule (y : Yaml Text) (others : List Schema) (kind mesh name : String) (data : Text) :
    Except Failure AnyRule :=
  if kind = affinityRouteKind then
    (affinityCodec.decodeRule y mesh name data).map fun r => .affinityRoute (some r)
  else if kind = scriptRouteKind then
    (scriptCodec.decodeRule y mesh name data).map fun r => .scriptRoute (some r)
  else match (ruleSchemas ++ others).find? fun schema => schema.kind = kind with
    | none => .error (invalidRule ("unsupported rule kind " ++ kind))
    | some schema => (schema.decodeRule y name data).map fun r => .generic schema (some r)

/-! ## Documents of their own are read back -/

/-- What makes the documents of a kind be read back: documents and messages with annotations
determine each other. -/
structure TypedCodec.Lawful {σ D : Type} (c : TypedCodec σ D) : Prop where
  type : c.type.Lawful
  stored : c.type.stored = id
  spec_document : ∀ spec annotations, c.spec (c.document spec annotations) = spec
  /-- The document is that of the message and the annotations that are read from it. -/
  document_spec : ∀ external, c.document (c.spec external) (c.annotations external) = external

theorem optionalRuleBool_congr {annotations annotations' : Option StringMap} {key : String}
    (h : annotation annotations key = annotation annotations' key) (value : Bool) :
    optionalRuleBool value annotations key = optionalRuleBool value annotations' key := by
  unfold optionalRuleBool
  rw [h]

theorem lawful_affinityCodec : affinityCodec.Lawful where
  type := struct_affinityRouteYAML.lawful
  stored := rfl
  spec_document spec annotations := by
    simp only [affinityCodec, getD_optionalRuleBool]
  document_spec external := by
    -- The flag that is noted second does not touch the annotation of the first.
    have hruntime := optionalRuleBool_congr (annotation_noteRuleBoolean_ne
      (noteRuleBoolean none affinityRuntimeOmittedAnnotation external.runtime)
      (show affinityRuntimeOmittedAnnotation ≠ affinityEnabledOmittedAnnotation by decide)
      external.enabled) (external.runtime.getD false)
    simp only [affinityCodec, hruntime, optionalRuleBool_noteRuleBoolean]

theorem lawful_scriptCodec : scriptCodec.Lawful where
  type := struct_scriptRouteYAML.lawful
  stored := rfl
  spec_document spec annotations := by
    simp only [scriptCodec, getD_optionalRuleBool]
  document_spec external := by
    simp only [scriptCodec, optionalRuleBool_noteRuleBoolean]

section Typed

variable {σ D : Type} {c : TypedCodec σ D} {y : Yaml Text}

/-- A resource that the codec accepts, and what it writes. -/
def TypedCodec.Encodes (c : TypedCodec σ D) (y : Yaml Text) (r : RuleResource σ) (data : Text) :
    Prop :=
  c.validateRule (some r) = .ok () ∧ c.encodeRule y (some r) = .ok data

variable {r : RuleResource σ} {data : Text}

theorem TypedCodec.Encodes.exists_spec (h : c.Encodes y r data) :
    ∃ spec, r.spec.spec = some spec ∧ c.validate r.name spec = .ok () ∧
      data = y.marshal c.type (c.document spec r.spec.annotations) := by
  obtain ⟨hvalid, hencode⟩ := h
  unfold validateRule at hvalid
  unfold encodeRule at hencode
  dsimp only at hvalid hencode
  cases hspec : r.spec.spec with
  | none =>
    rw [hspec] at hvalid
    cases hvalid
  | some spec =>
    rw [hspec] at hvalid hencode
    exact ⟨spec, rfl, hvalid, (Except.ok.inj hencode).symm⟩

variable {mesh name : String}

theorem TypedCodec.Lawful.encodes_resource (hc : c.Lawful) {external : D}
    (hvalid : c.validate name (c.spec external) = .ok ()) :
    c.Encodes y (c.resource mesh name external) (y.marshal c.type external) := by
  refine ⟨hvalid, ?_⟩
  show Except.ok (y.marshal c.type (c.document (c.spec external) (c.annotations external))) = _
  rw [hc.document_spec]

theorem TypedCodec.Lawful.unmarshal_marshal (hc : c.Lawful) (external : D) :
    y.unmarshal c.type (y.marshal c.type external) c.type.zero = ⟨external, true⟩ := by
  rw [y.unmarshal_marshal hc.type, hc.stored]
  rfl

theorem TypedCodec.decodeRule_of_unmarshal {external : D} (hblank : y.isBlank data = false)
    (hread : y.unmarshal c.type data c.type.zero = ⟨external, true⟩)
    (hvalid : c.validate name (c.spec external) = .ok ()) :
    c.decodeRule y mesh name data = .ok (c.resource mesh name external) := by
  have hvalid' : c.validateRule (some (c.resource mesh name external)) = .ok () := hvalid
  unfold decodeRule
  rw [hblank, if_neg Bool.false_ne_true, hread]
  dsimp only
  rw [if_pos rfl, hvalid']

/-- A document that is read decodes into a valid message. -/
theorem TypedCodec.exists_of_decodeRule (hblank : y.isBlank data = false)
    (h : c.decodeRule y mesh name data = .ok r) :
    ∃ external, y.unmarshal c.type data c.type.zero = ⟨external, true⟩ ∧
      c.validate name (c.spec external) = .ok () ∧ r = c.resource mesh name external := by
  unfold decodeRule at h
  rw [hblank, if_neg Bool.false_ne_true] at h
  obtain ⟨⟨external, ok⟩, hread⟩ : ∃ d, y.unmarshal c.type data c.type.zero = d := ⟨_, rfl⟩
  rw [hread] at h
  dsimp only at h
  cases ok with
  | false => cases h
  | true =>
    rw [if_pos rfl] at h
    cases hvalid : c.validateRule (some (c.resource mesh name external)) with
    | error e =>
      rw [hvalid] at h
      cases h
    | ok _ =>
      rw [hvalid] at h
      exact ⟨external, hread, hvalid, (Except.ok.inj h).symm⟩

/-- What is encoded is read back, with the mesh, the name and the spec that it has, and is encoded
again as it was. -/
theorem TypedCodec.Lawful.decodeRule_of_encodes (hc : c.Lawful)
    (hblank : ∀ external, y.isBlank (y.marshal c.type external) = false) (h : c.Encodes y r data) :
    ∃ annotations, c.decodeRule y r.mesh r.name data =
        .ok ⟨c.kind, r.mesh, r.name, annotations, r.spec.spec⟩ ∧
      c.Encodes y ⟨c.kind, r.mesh, r.name, annotations, r.spec.spec⟩ data := by
  obtain ⟨spec, hspec, hvalid, rfl⟩ := h.exists_spec
  have hvalid' : c.validate r.name (c.spec (c.document spec r.spec.annotations)) = .ok () := by
    rw [hc.spec_document]
    exact hvalid
  have hresource : c.resource r.mesh r.name (c.document spec r.spec.annotations) =
      ⟨c.kind, r.mesh, r.name, c.annotations (c.document spec r.spec.annotations),
        r.spec.spec⟩ := by
    unfold resource
    rw [hc.spec_document, hspec]
  refine ⟨c.annotations (c.document spec r.spec.annotations), ?_, ?_⟩
  · rw [← hresource]
    exact decodeRule_of_unmarshal (hblank _) (hc.unmarshal_marshal _) hvalid'
  · rw [← hresource]
    exact hc.encodes_resource hvalid'

theorem TypedCodec.Lawful.encodes_of_decodeRule (hc : c.Lawful) (hblank : y.isBlank data = false)
    (h : c.decodeRule y mesh name data = .ok r) :
    ∃ data', c.Encodes y r data' ∧
      y.unmarshal c.type data' c.type.zero = y.unmarshal c.type data c.type.zero := by
  obtain ⟨external, hread, hvalid, rfl⟩ := exists_of_decodeRule hblank h
  refine ⟨y.marshal c.type external, hc.encodes_resource hvalid, ?_⟩
  rw [hread, hc.unmarshal_marshal]

end Typed

section Codec

variable {y : Yaml Text} {others : List Schema} {mesh name : String} {data : Text}

theorem encodeRule_affinityRoute {r : RuleResource AffinityRoute} :
    encodeRule y (.affinityRoute (some r)) = .ok data ↔ affinityCodec.Encodes y r data := by
  unfold encodeRule TypedCodec.Encodes validateRule
  dsimp only
  cases affinityCodec.validateRule (some r) with
  | error e => exact ⟨nofun, fun h => nomatch h.1⟩
  | ok _ => exact ⟨fun h => ⟨rfl, h⟩, And.right⟩

theorem encodeRule_scriptRoute {r : RuleResource ScriptRoute} :
    encodeRule y (.scriptRoute (some r)) = .ok data ↔ scriptCodec.Encodes y r data := by
  unfold encodeRule TypedCodec.Encodes validateRule
  dsimp only
  cases scriptCodec.validateRule (some r) with
  | error e => exact ⟨nofun, fun h => nomatch h.1⟩
  | ok _ => exact ⟨fun h => ⟨rfl, h⟩, And.right⟩

theorem decodeRule_affinityRoute : decodeRule y others affinityRouteKind mesh name data =
    (affinityCodec.decodeRule y mesh name data).map fun r => .affinityRoute (some r) :=
  if_pos rfl

theorem decodeRule_scriptRoute : decodeRule y others scriptRouteKind mesh name data =
    (scriptCodec.decodeRule y mesh name data).map fun r => .scriptRoute (some r) := by
  unfold decodeRule
  rw [if_neg (by decide), if_pos rfl]

theorem exists_of_map_eq_ok {α : Type} {β : Type 1} {x : Except Failure α} {f : α → β} {b : β}
    (h : x.map f = .ok b) : ∃ a, x = .ok a ∧ f a = b := by
  cases x with
  | error e => cases h
  | ok a => exact ⟨a, rfl, Except.ok.inj h⟩

/-- The flags that an affinity document has: `runtime` and `enabled`, or `none` where one is
missing. -/
def affinityFlags (y : Yaml Text) (data : Text) : Option Bool × Option Bool :=
  let external := (y.unmarshal affinityRouteYAMLType data affinityRouteYAMLType.zero).value
  (external.runtime, external.enabled)

/-- The flag that a script document has: `enabled`, or `none` where it is missing. -/
def scriptFlag (y : Yaml Text) (data : Text) : Option Bool :=
  (y.unmarshal scriptRouteYAMLType data scriptRouteYAMLType.zero).value.enabled

end Codec

/-- Affinity and script rules that are encoded are decoded with their mesh, name and spec, whatever
annotations they had, and encoded again as before; and a document that is decoded is encoded again
with the same flags missing, true and false. -/
theorem rule_document_roundTrip (y : Yaml Text) (others : List Schema) :
    (∀ (r : RuleResource AffinityRoute) (data : Text),
      encodeRule y (.affinityRoute (some r)) = .ok data →
      ∃ annotations,
        decodeRule y others affinityRouteKind r.mesh r.name data = .ok (.affinityRoute (some
          ⟨affinityRouteKind, r.mesh, r.name, annotations, r.spec.spec⟩)) ∧
        encodeRule y (.affinityRoute (some
          ⟨affinityRouteKind, r.mesh, r.name, annotations, r.spec.spec⟩)) = .ok data) ∧
    (∀ (r : RuleResource ScriptRoute) (data : Text),
      encodeRule y (.scriptRoute (some r)) = .ok data →
      ∃ annotations,
        decodeRule y others scriptRouteKind r.mesh r.name data = .ok (.scriptRoute (some
          ⟨scriptRouteKind, r.mesh, r.name, annotations, r.spec.spec⟩)) ∧
        encodeRule y (.scriptRoute (some
          ⟨scriptRouteKind, r.mesh, r.name, annotations, r.spec.spec⟩)) = .ok data) ∧
    (∀ (mesh name : String) (data : Text) (r : AnyRule), y.isBlank data = false →
      decodeRule y others affinityRouteKind mesh name data = .ok r →
      ∃ data', encodeRule y r = .ok data' ∧ affinityFlags y data' = affinityFlags y data) ∧
    ∀ (mesh name : String) (data : Text) (r : AnyRule), y.isBlank data = false →
      decodeRule y others scriptRouteKind mesh name data = .ok r →
      ∃ data', encodeRule y r = .ok data' ∧ scriptFlag y data' = scriptFlag y data := by
  refine ⟨fun r data h => ?_, fun r data h => ?_, fun mesh name data r hblank h => ?_,
    fun mesh name data r hblank h => ?_⟩
  · obtain ⟨annotations, hdecode, hencode⟩ := lawful_affinityCodec.decodeRule_of_encodes
      (fun _ => y.not_blank _) (encodeRule_affinityRoute.mp h)
    refine ⟨annotations, ?_, encodeRule_affinityRoute.mpr hencode⟩
    rw [decodeRule_affinityRoute, hdecode]
    rfl
  · obtain ⟨annotations, hdecode, hencode⟩ := lawful_scriptCodec.decodeRule_of_encodes
      (fun _ => y.not_blank _) (encodeRule_scriptRoute.mp h)
    refine ⟨annotations, ?_, encodeRule_scriptRoute.mpr hencode⟩
    rw [decodeRule_scriptRoute, hdecode]
    rfl
  · rw [decodeRule_affinityRoute] at h
    obtain ⟨res, hdecode, rfl⟩ := exists_of_map_eq_ok h
    obtain ⟨data', hencode, hsame⟩ := lawful_affinityCodec.encodes_of_decodeRule hblank hdecode
    refine ⟨data', encodeRule_affinityRoute.mpr hencode, ?_⟩
    exact congrArg (fun d => (d.value.runtime, d.value.enabled)) hsame
  · rw [decodeRule_scriptRoute] at h
    obtain ⟨res, hdecode, rfl⟩ := exists_of_map_eq_ok h
    obtain ⟨data', hencode, hsame⟩ := lawful_scriptCodec.encodes_of_decodeRule hblank hdecode
    refine ⟨data', encodeRule_scriptRoute.mpr hencode, ?_⟩
    exact congrArg (fun d => d.value.enabled) hsame

/-- An affinity route whose `runtime` was missing in the document it was read from, and which has
the annotation for `enabled` as well, although it is enabled. -/
def sampleAffinityRoute : RuleResource AffinityRoute :=
  ⟨affinityRouteKind, "default", "shop.affinity-router",
    some (Keyed.ofList [Prod.mk affinityRuntimeOmittedAnnotation "true",
      Prod.mk affinityEnabledOmittedAnnotation "true"]),
    some ⟨"v3.1", "application", "shop", false, true, some ⟨"region", 30⟩⟩⟩

/-- The document of `sampleAffinityRoute`. -/
def sampleAffinityDocument : Json :=
  .object [("configVersion", .string "v3.1"), ("scope", .string "application"),
    ("key", .string "shop"), ("enabled", .bool true),
    ("affinityAware", .object [("key", .string "region"), ("ratio", .number "30")])]

/-- The sample is encoded without `runtime`, and read back. -/
theorem rule_document_roundTrip_sample :
    encodeRule Yaml.plain (.affinityRoute (some sampleAffinityRoute)) =
      .ok sampleAffinityDocument ∧
    ∃ annotations,
      decodeRule Yaml.plain [] affinityRouteKind "default" "shop.affinity-router"
        sampleAffinityDocument = .ok (.affinityRoute (some ⟨affinityRouteKind, "default",
          "shop.affinity-router", annotations, sampleAffinityRoute.spec.spec⟩)) ∧
      encodeRule Yaml.plain (.affinityRoute (some ⟨affinityRouteKind, "default",
        "shop.affinity-router", annotations, sampleAffinityRoute.spec.spec⟩)) =
          .ok sampleAffinityDocument := by
  have hencode : encodeRule Yaml.plain (.affinityRoute (some sampleAffinityRoute)) =
      .ok sampleAffinityDocument := rfl
  exact ⟨hencode,
    (rule_document_roundTrip Yaml.plain []).1 sampleAffinityRoute sampleAffinityDocument hencode⟩

/-! ## Other kinds lose their key -/

theorem find?_ruleSchemas {schema : Schema} (h : schema ∈ ruleSchemas) (others : List Schema) :
    (ruleSchemas ++ others).find? (fun s => s.kind = schema.kind) = some schema := by
  have hfound : ruleSchemas.find? (fun s => s.kind = schema.kind) = some schema := by
    revert schema
    simp only [ruleSchemas, List.forall_mem_cons]
    exact ⟨rfl, rfl, rfl, nofun⟩
  rw [List.find?_append, hfound]
  rfl

theorem ruleSchemas_lawful : ∀ schema ∈ ruleSchemas, schema.type.Lawful := by
  simp only [ruleSchemas, List.forall_mem_cons]
  exact ⟨lawful_conditionRouteType.1, lawful_tagRouteType.1, lawful_dynamicConfigType.1, nofun⟩

theorem ruleSchemas_kind :
    ∀ schema ∈ ruleSchemas, schema.kind ≠ affinityRouteKind ∧ schema.kind ≠ scriptRouteKind := by
  simp only [ruleSchemas, List.forall_mem_cons]
  exact ⟨by decide, by decide, by decide, nofun⟩

/-- The document of a rule of another kind is read into a resource without a mesh and a name. -/
theorem decodeRule_generic {schema : Schema} (h : schema ∈ ruleSchemas) (y : Yaml Text)
    (others : List Schema) (mesh name : String) (spec : schema.Spec) :
    decodeRule y others schema.kind mesh name (y.marshal (pointer schema.type) (some spec)) =
      .ok (.generic schema (some
        ⟨schema.kind, "", "", none, some (schema.type.stored spec)⟩)) := by
  have hkind := ruleSchemas_kind schema h
  have hread : y.unmarshal schema.type (y.marshal (pointer schema.type) (some spec))
      schema.type.zero = ⟨schema.type.stored spec, true⟩ :=
    y.unmarshal_marshal (ruleSchemas_lawful schema h) spec
  have hdecode : schema.decodeRule y name (y.marshal (pointer schema.type) (some spec)) =
      .ok ⟨schema.kind, "", "", none, some (schema.type.stored spec)⟩ := by
    unfold Schema.decodeRule Schema.newResource
    dsimp only
    rw [Option.getD_some, hread, if_pos rfl]
  unfold decodeRule
  rw [if_neg hkind.1, if_neg hkind.2, find?_ruleSchemas h]
  dsimp only
  rw [hdecode]
  rfl

/-- A rule of another kind is decoded with its spec, up to empty and `nil`, but under the key that
was asked for only if mesh and name are empty. -/
theorem decodeRule_encodeRule_iff (y : Yaml Text) (others : List Schema) (schema : Schema)
    (h : schema ∈ ruleSchemas) (r : RuleResource schema.Spec) (spec : schema.Spec)
    (hspec : r.spec.spec = some spec) (mesh name : String) :
    ∃ data, encodeRule y (.generic schema (some r)) = .ok data ∧
      ((∃ r' : RuleResource schema.Spec,
        decodeRule y others schema.kind mesh name data = .ok (.generic schema (some r')) ∧
        r'.resourceKey = buildResourceKey mesh name ∧
        r'.spec.spec = some (schema.type.stored spec)) ↔ mesh = "" ∧ name = "") := by
  have hdecode := decodeRule_generic h y others mesh name spec
  refine ⟨y.marshal (pointer schema.type) (some spec), ?_, ?_, ?_⟩
  · show Except.ok (y.marshal (pointer schema.type) r.spec.spec) = _
    rw [hspec]
  · rintro ⟨r', hr', hkey, -⟩
    rw [hdecode] at hr'
    obtain ⟨rfl⟩ : r' = ⟨schema.kind, "", "", none, some (schema.type.stored spec)⟩ := by
      simpa [eq_comm] using hr'
    -- A key has one more character than mesh and name.
    have hslash : "/" = mesh ++ "/" ++ name := hkey
    have hlength := congrArg String.length hslash
    rw [String.length_append, String.length_append, show "/".length = 1 from rfl] at hlength
    exact ⟨String.length_eq_zero_iff.mp (by omega), String.length_eq_zero_iff.mp (by omega)⟩
  · rintro ⟨rfl, rfl⟩
    exact ⟨_, hdecode, rfl, rfl⟩

/-- The schema of condition routes. -/
def conditionRouteSchema : Schema := ⟨conditionRouteKind, ConditionRoute, conditionRouteType⟩

/-- Without a mesh and a name, a condition route is read back. -/
theorem decodeRule_encodeRule_no_key :
    ∃ data, encodeRule Yaml.plain (.generic conditionRouteSchema
        (some ⟨conditionRouteKind, "default", "shop.condition-router", none,
          some sampleConditionRoute⟩)) = .ok data ∧
      ∃ r' : RuleResource ConditionRoute,
        decodeRule Yaml.plain [] conditionRouteKind "" "" data =
          .ok (.generic conditionRouteSchema (some r')) ∧
        r'.resourceKey = buildResourceKey "" "" ∧
        r'.spec.spec = some sampleConditionRoute.stored := by
  obtain ⟨data, hencode, hiff⟩ := decodeRule_encodeRule_iff Yaml.plain [] conditionRouteSchema
    List.mem_cons_self ⟨conditionRouteKind, "default", "shop.condition-router", none,
      some sampleConditionRoute⟩ sampleConditionRoute rfl "" ""
  exact ⟨data, hencode, hiff.mpr ⟨rfl, rfl⟩⟩

/-- A condition route of a mesh is decoded into a resource whose key is `/`. -/
theorem decodeRule_loses_key :
    ∃ (data : Json) (r' : RuleResource ConditionRoute),
      encodeRule Yaml.plain (.generic conditionRouteSchema
        (some ⟨conditionRouteKind, "default", "shop.condition-router", none,
          some sampleConditionRoute⟩)) = .ok data ∧
      decodeRule Yaml.plain [] conditionRouteKind "default" "shop.condition-router" data =
        .ok (.generic conditionRouteSchema (some r')) ∧
      r'.resourceKey = "/" ∧
      r'.resourceKey ≠ buildResourceKey "default" "shop.condition-router" := by
  have hmem : conditionRouteSchema ∈ ruleSchemas := List.mem_cons_self
  have hdecode := decodeRule_generic hmem Yaml.plain [] "default" "shop.condition-router"
    sampleConditionRoute
  exact ⟨_, _, rfl, hdecode, rfl, by decide⟩

end DubboAdmin.Rules
