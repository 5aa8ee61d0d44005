import DubboAdmin.Resource
import DubboAdmin.Rules.Specs

/-!
# The text of a rule in a configuration center

`MarshalRuleSpec` writes the spec of a rule as YAML, and `ToConditionRouteResource`,
`ToTagRouteResource` and `ToDynamicConfigResource` read a resource from such a text. YAML is JSON by
struct tags, converted (`Yaml`). Condition routes and tag routes are written through a struct that
embeds the message and has the three flags `enabled`, `force` and `runtime` as fields of its own,
since the tags of the message leave out what is false.

What is written is read back, up to empty and `nil` (`marshalRuleSpec_roundTrip`).
-/

namespace DubboAdmin.Rules

open Json

variable {Text : Type}

/-- A `ResourceSpec` that holds a rule. A message may be a `nil` pointer. -/
inductive RuleSpec where
  | conditionRoute (rule : Option ConditionRoute)
  | tagRoute (rule : Option TagRoute)
  | dynamicConfig (rule : Option DynamicConfig)
  /-- A message of another kind, by the document that its tags give. -/
  | other (document : Json)

/-- What `MarshalRuleSpec` writes for the flags, which are never left out. -/
def explicitFlags (enabled force runtime : Bool) : List (String × Json) :=
  [("enabled", .bool enabled), ("force", .bool force), ("runtime", .bool runtime)]

def marshalRuleSpec (y : Yaml Text) : RuleSpec → Text
  | .conditionRoute (some rule) => y.toYAML (.object (embed (written conditionRouteFields rule)
      (explicitFlags rule.enabled rule.force rule.runtime)))
  | .tagRoute (some rule) => y.toYAML (.object (embed (written tagRouteFields rule)
      (explicitFlags rule.enabled rule.force rule.runtime)))
  | .conditionRoute none => y.marshal (pointer conditionRouteType) none
  | .tagRoute none => y.marshal (pointer tagRouteType) none
  | .dynamicConfig rule => y.marshal (pointer dynamicConfigType) rule
  | .other document => y.toYAML document

/-- What a resource of a rule kind carries: its annotations, and its spec or `nil`. -/
structure RuleObject (σ : Type) where
  annotations : Option StringMap
  spec : Option σ

/-- A resource of a rule kind. -/
abbrev RuleResource (σ : Type) := Resource (RuleObject σ)

/-- `New…ResourceWithAttributes`, with the message that becomes its spec. -/
def newResourceWithAttributes {σ : Type} (kind : String) (message : σ) (name mesh : String) :
    RuleResource σ :=
  ⟨kind, mesh, name, none, some message⟩

/-- `To…Resource`, with what is read into an empty message. An error is only logged, and what was
read up to it is kept. -/
def toRuleResource {σ : Type} (kind : String) (unmarshal : Text → σ) (mesh name : String)
    (data : Text) : RuleResource σ :=
  newResourceWithAttributes kind (unmarshal data) name mesh

/-- What is read from a text into an empty message. -/
def unmarshalled {σ : Type} (t : JsonType σ) (y : Yaml Text) (data : Text) : σ :=
  (y.unmarshal t data t.zero).value

def conditionRouteKind : String := "ConditionRoute"

def tagRouteKind : String := "TagRoute"

def dynamicConfigKind : String := "DynamicConfig"

def toConditionRouteResource (y : Yaml Text) :
    String → String → Text → RuleResource ConditionRoute :=
  toRuleResource conditionRouteKind (unmarshalled conditionRouteType y)

def toTagRouteResource (y : Yaml Text) : String → String → Text → RuleResource TagRoute :=
  toRuleResource tagRouteKind (unmarshalled tagRouteType y)

def toDynamicConfigResource (y : Yaml Text) : String → String → Text → RuleResource DynamicConfig :=
  toRuleResource dynamicConfigKind (unmarshalled dynamicConfigType y)

/-! ## Round trips -/

theorem toRuleResource_of_unmarshal {σ : Type} {kind : String} {t : JsonType σ} {y : Yaml Text}
    {data : Text} {spec : σ} (h : y.unmarshal t data t.zero = ⟨spec, true⟩) (mesh name : String) :
    toRuleResource kind (unmarshalled t y) mesh name data =
      ⟨kind, mesh, name, none, some spec⟩ := by
  unfold toRuleResource newResourceWithAttributes unmarshalled
  rw [h]

theorem nodup_explicitFlags (enabled force runtime : Bool) :
    ((explicitFlags enabled force runtime).map Prod.fst).Nodup := by
  show ["enabled", "force", "runtime"].Nodup
  decide

theorem conditionRoute_flags (rule : ConditionRoute) :
    ∀ e ∈ explicitFlags rule.enabled rule.force rule.runtime, ∃ f ∈ conditionRouteFields,
      e = f.entry rule ∧ f.kept rule = f.type.stored (f.get rule) := by
  simp only [explicitFlags, List.forall_mem_cons]
  exact ⟨⟨conditionRouteFields.get ⟨2, by decide⟩, List.get_mem _ _, rfl, kept_bool _⟩,
    ⟨conditionRouteFields.get ⟨3, by decide⟩, List.get_mem _ _, rfl, kept_bool _⟩,
    ⟨conditionRouteFields.get ⟨4, by decide⟩, List.get_mem _ _, rfl, kept_bool _⟩, nofun⟩

theorem tagRoute_flags (rule : TagRoute) :
    ∀ e ∈ explicitFlags rule.enabled rule.force rule.runtime, ∃ f ∈ tagRouteFields,
      e = f.entry rule ∧ f.kept rule = f.type.stored (f.get rule) := by
  simp only [explicitFlags, List.forall_mem_cons]
  exact ⟨⟨tagRouteFields.get ⟨1, by decide⟩, List.get_mem _ _, rfl, kept_bool _⟩,
    ⟨tagRouteFields.get ⟨5, by decide⟩, List.get_mem _ _, rfl, kept_bool _⟩,
    ⟨tagRouteFields.get ⟨2, by decide⟩, List.get_mem _ _, rfl, kept_bool _⟩, nofun⟩

/-- The text holds an object in which each flag has one entry, also where the flag is false. -/
def WritesFlags (y : Yaml Text) (text : Text) (enabled force runtime : Bool) : Prop :=
  ∃ entries, y.fromYAML text = some (.object entries) ∧
    entries.filter (fun e => e.1 = "enabled") = [("enabled", .bool enabled)] ∧
    entries.filter (fun e => e.1 = "force") = [("force", .bool force)] ∧
    entries.filter (fun e => e.1 = "runtime") = [("runtime", .bool runtime)]

theorem writesFlags_embed (y : Yaml Text) (embedded : List (String × Json))
    (enabled force runtime : Bool) :
    WritesFlags y (y.toYAML (.object (embed embedded (explicitFlags enabled force runtime))))
      enabled force runtime := by
  have hnodup := nodup_explicitFlags enabled force runtime
  refine ⟨_, y.fromYAML_toYAML _, ?_, ?_, ?_⟩
  · exact filter_embed hnodup (e := ("enabled", .bool enabled)) (by simp [explicitFlags])
  · exact filter_embed hnodup (e := ("force", .bool force)) (by simp [explicitFlags])
  · exact filter_embed hnodup (e := ("runtime", .bool runtime)) (by simp [explicitFlags])

/-- A rule is read back from its text, in the mesh and under the name that are given, up to empty
and `nil`; condition routes and tag routes are written with their flags. -/
theorem marshalRuleSpec_roundTrip (y : Yaml Text) (mesh name : String) :
    (∀ s : ConditionRoute,
      toConditionRouteResource y mesh name (marshalRuleSpec y (.conditionRoute (some s))) =
        ⟨conditionRouteKind, mesh, name, none, some s.stored⟩ ∧
      WritesFlags y (marshalRuleSpec y (.conditionRoute (some s))) s.enabled s.force s.runtime) ∧
    (∀ s : TagRoute,
      toTagRouteResource y mesh name (marshalRuleSpec y (.tagRoute (some s))) =
        ⟨tagRouteKind, mesh, name, none, some s.stored⟩ ∧
      WritesFlags y (marshalRuleSpec y (.tagRoute (some s))) s.enabled s.force s.runtime) ∧
    ∀ s : DynamicConfig,
      toDynamicConfigResource y mesh name (marshalRuleSpec y (.dynamicConfig (some s))) =
        ⟨dynamicConfigKind, mesh, name, none, some s.stored⟩ := by
  refine ⟨fun s => ⟨?_, writesFlags_embed y _ _ _ _⟩, fun s => ⟨?_, writesFlags_embed y _ _ _ _⟩,
    fun s => ?_⟩
  · refine toRuleResource_of_unmarshal ?_ mesh name
    rw [marshalRuleSpec, Yaml.unmarshal_toYAML]
    exact struct_conditionRoute.decode_embed s (nodup_explicitFlags _ _ _) (conditionRoute_flags s)
  · refine toRuleResource_of_unmarshal ?_ mesh name
    rw [marshalRuleSpec, Yaml.unmarshal_toYAML]
    exact struct_tagRoute.decode_embed s (nodup_explicitFlags _ _ _) (tagRoute_flags s)
  · exact toRuleResource_of_unmarshal (y.unmarshal_marshal lawful_dynamicConfigType.1 s) mesh name

/-- A condition route. -/
def sampleConditionRoute : ConditionRoute :=
  ⟨"v3.0", 0, true, false, true, "shop", "application", some ["method=pay => host=10.0.0.1"]⟩

/-- The route is read back as it was, and `force` is written although it is false. -/
theorem marshalRuleSpec_roundTrip_plain :
    toConditionRouteResource Yaml.plain "default" "shop.condition-router"
        (marshalRuleSpec Yaml.plain (.conditionRoute (some sampleConditionRoute))) =
        ⟨conditionRouteKind, "default", "shop.condition-router", none,
          some sampleConditionRoute⟩ ∧
      WritesFlags Yaml.plain
        (marshalRuleSpec Yaml.plain (.conditionRoute (some sampleConditionRoute)))
        true false true :=
  (marshalRuleSpec_roundTrip Yaml.plain "default" "shop.condition-router").1 sampleConditionRoute

end DubboAdmin.Rules
