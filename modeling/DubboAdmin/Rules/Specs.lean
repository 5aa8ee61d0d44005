import DubboAdmin.Lib.JsonTags

/-!
# The specs of rules

The messages of `api/mesh/v1alpha1` that rules hold: condition routes, tag routes and dynamic
configurations, with what they consist of. A repeated field may be `nil` (`none`), which the code
tells apart from an empty one in places; the elements of a repeated field are messages.

Every field has a JSON tag with `omitempty`, by which the messages are written and read
(`JsonType`). What is read back is the message, where empty lists and maps have become `nil`
(`stored`), and `nil` and empty are all that is lost.
-/

namespace DubboAdmin.Rules

open Json

/-- A repeated field, or `nil`. -/
abbrev Slice (α : Type) := Option (List α)

/-- The elements of a repeated field. -/
def Slice.elements {α : Type} (l : Slice α) : List α := l.getD []

/-! ## Matches -/

/-- A condition on a text, by one of its fields. -/
structure StringMatch where
  exact : String
  start : String
  regex : String
  noempty : String
  empty : String
  wildcard : String
deriving DecidableEq

/-- A condition on a parameter. -/
structure ParamMatch where
  key : String
  value : Option StringMatch
deriving DecidableEq

/-- A condition on an address. -/
structure AddressMatch where
  wildcard : String
  cird : String
  exact : String
deriving DecidableEq

/-- One of several conditions on a text. -/
structure ListStringMatch where
  oneof : Slice StringMatch
deriving DecidableEq

/-- The condition under which an override applies. -/
structure ConditionMatch where
  address : Option AddressMatch
  providerAddress : Option AddressMatch
  service : Option ListStringMatch
  application : Option ListStringMatch
  param : Slice ParamMatch
deriving DecidableEq

/-! ## Rules -/

/-- An override of parameters. -/
structure OverrideConfig where
  side : String
  addresses : Slice String
  providerAddresses : Slice String
  parameters : Option StringMap
  applications : Slice String
  services : Slice String
  type : String
  enabled : Bool
  cond : Option ConditionMatch
  xGenerateByCp : Bool

/-- A configurator. -/
structure DynamicConfig where
  key : String
  scope : String
  configVersion : String
  enabled : Bool
  configs : Slice OverrideConfig

/-- A tag with what it applies to. -/
structure Tag where
  name : String
  addresses : Slice String
  cond : Slice ParamMatch
  xGenerateByCp : Bool
deriving DecidableEq

/-- A tag route. -/
structure TagRoute where
  priority : Int32
  enabled : Bool
  runtime : Bool
  key : String
  configVersion : String
  force : Bool
  tags : Slice Tag
deriving DecidableEq

/-- A condition route. -/
structure ConditionRoute where
  configVersion : String
  priority : Int32
  enabled : Bool
  force : Bool
  runtime : Bool
  key : String
  scope : String
  conditions : Slice String
deriving DecidableEq

/-! ## What is read back -/

/-- The list match, with no empty list. -/
def ListStringMatch.stored (m : ListStringMatch) : ListStringMatch := ⟨nilIfEmpty m.oneof⟩

/-- The match, with no empty list. -/
def ConditionMatch.stored (m : ConditionMatch) : ConditionMatch :=
  { m with
    service := m.service.map ListStringMatch.stored
    application := m.application.map ListStringMatch.stored
    param := nilIfEmpty m.param }

/-- The configuration, with no empty list and no empty map. -/
def OverrideConfig.stored (conf : OverrideConfig) : OverrideConfig :=
  { conf with
    addresses := nilIfEmpty conf.addresses
    providerAddresses := nilIfEmpty conf.providerAddresses
    parameters := nilIfEmptyMap conf.parameters
    applications := nilIfEmpty conf.applications
    services := nilIfEmpty conf.services
    cond := conf.cond.map ConditionMatch.stored }

/-- The dynamic configuration, with no empty list and no empty map. -/
def DynamicConfig.stored (d : DynamicConfig) : DynamicConfig :=
  { d with configs := nilIfEmpty (d.configs.map (List.map OverrideConfig.stored)) }

/-- The tag, with no empty list. -/
def Tag.stored (tag : Tag) : Tag :=
  { tag with addresses := nilIfEmpty tag.addresses, cond := nilIfEmpty tag.cond }

/-- The tag route, with no empty list. -/
def TagRoute.stored (r : TagRoute) : TagRoute :=
  { r with tags := nilIfEmpty (r.tags.map (List.map Tag.stored)) }

/-- The condition route, with no empty list. -/
def ConditionRoute.stored (r : ConditionRoute) : ConditionRoute :=
  { r with conditions := nilIfEmpty r.conditions }

/-! ## Tags -/

/-- A field with `omitempty`. -/
@[simp]
def tagged {α β : Type} (name : String) (t : JsonType β) (get : α → β) (set : β → α → α) :
    Json.Field α :=
  ⟨β, t, name, true, get, set⟩

/-- The fields of `StringMatch`. -/
def stringMatchFields : List (Json.Field StringMatch) :=
  [tagged "exact" stringType (·.exact) fun v x => { x with exact := v },
   tagged "prefix" stringType (·.start) fun v x => { x with start := v },
   tagged "regex" stringType (·.regex) fun v x => { x with regex := v },
   tagged "noempty" stringType (·.noempty) fun v x => { x with noempty := v },
   tagged "empty" stringType (·.empty) fun v x => { x with empty := v },
   tagged "wildcard" stringType (·.wildcard) fun v x => { x with wildcard := v }]

/-- `StringMatch`, as it is written and read. -/
def stringMatchType : JsonType StringMatch := struct stringMatchFields ⟨"", "", "", "", "", ""⟩ id

/-- The tags of `StringMatch` are sound. -/
theorem struct_stringMatch : Struct stringMatchFields ⟨"", "", "", "", "", ""⟩ id where
  names := by decide
  sound := by simp [stringMatchFields]
  apart := by simp [stringMatchFields, Json.Field.Apart]
  ext x z h := by
    cases z
    simp_all [stringMatchFields, Json.Field.kept]

/-- `StringMatch` is read back. -/
@[simp]
theorem lawful_stringMatchType : stringMatchType.Lawful ∧ stringMatchType.stored = id :=
  ⟨struct_stringMatch.lawful, rfl⟩

/-- The fields of `ParamMatch`. -/
def paramMatchFields : List (Json.Field ParamMatch) :=
  [tagged "key" stringType (·.key) fun v x => { x with key := v },
   tagged "value" (pointer stringMatchType) (·.value) fun v x => { x with value := v }]

/-- `ParamMatch`, as it is written and read. -/
def paramMatchType : JsonType ParamMatch := struct paramMatchFields ⟨"", none⟩ id

/-- The tags of `ParamMatch` are sound. -/
theorem struct_paramMatch : Struct paramMatchFields ⟨"", none⟩ id where
  names := by decide
  sound := by simp [paramMatchFields, lawful_pointer lawful_stringMatchType.1 fun _ => nofun]
  apart := by simp [paramMatchFields, Json.Field.Apart]
  ext x z h := by
    cases z
    simp_all [paramMatchFields, Json.Field.kept]

/-- `ParamMatch` is read back. -/
@[simp]
theorem lawful_paramMatchType : paramMatchType.Lawful ∧ paramMatchType.stored = id :=
  ⟨struct_paramMatch.lawful, rfl⟩

/-- The fields of `AddressMatch`. -/
def addressMatchFields : List (Json.Field AddressMatch) :=
  [tagged "wildcard" stringType (·.wildcard) fun v x => { x with wildcard := v },
   tagged "cird" stringType (·.cird) fun v x => { x with cird := v },
   tagged "exact" stringType (·.exact) fun v x => { x with exact := v }]

/-- `AddressMatch`, as it is written and read. -/
def addressMatchType : JsonType AddressMatch := struct addressMatchFields ⟨"", "", ""⟩ id

/-- The tags of `AddressMatch` are sound. -/
theorem struct_addressMatch : Struct addressMatchFields ⟨"", "", ""⟩ id where
  names := by decide
  sound := by simp [addressMatchFields]
  apart := by simp [addressMatchFields, Json.Field.Apart]
  ext x z h := by
    cases z
    simp_all [addressMatchFields, Json.Field.kept]

/-- `AddressMatch` is read back. -/
@[simp]
theorem lawful_addressMatchType : addressMatchType.Lawful ∧ addressMatchType.stored = id :=
  ⟨struct_addressMatch.lawful, rfl⟩

/-- The fields of `ListStringMatch`. -/
def listStringMatchFields : List (Json.Field ListStringMatch) :=
  [tagged "oneof" (slice stringMatchType) (·.oneof) fun v x => { x with oneof := v }]

/-- `ListStringMatch`, as it is written and read. -/
def listStringMatchType : JsonType ListStringMatch :=
  struct listStringMatchFields ⟨none⟩ ListStringMatch.stored

/-- The tags of `ListStringMatch` are sound. -/
theorem struct_listStringMatch : Struct listStringMatchFields ⟨none⟩ ListStringMatch.stored where
  names := by decide
  sound := by simp [listStringMatchFields]
  apart := by simp [listStringMatchFields, Json.Field.Apart]
  ext x z h := by
    cases z
    simp_all [listStringMatchFields, Json.Field.kept, ListStringMatch.stored]

/-- `ListStringMatch` is read back. -/
@[simp]
theorem lawful_listStringMatchType :
    listStringMatchType.Lawful ∧ listStringMatchType.stored = ListStringMatch.stored :=
  ⟨struct_listStringMatch.lawful, rfl⟩

/-- The fields of `ConditionMatch`. -/
def conditionMatchFields : List (Json.Field ConditionMatch) :=
  [tagged "address" (pointer addressMatchType) (·.address) fun v x => { x with address := v },
   tagged "providerAddress" (pointer addressMatchType) (·.providerAddress) fun v x =>
     { x with providerAddress := v },
   tagged "service" (pointer listStringMatchType) (·.service) fun v x => { x with service := v },
   tagged "application" (pointer listStringMatchType) (·.application) fun v x =>
     { x with application := v },
   tagged "param" (slice paramMatchType) (·.param) fun v x => { x with param := v }]

/-- `ConditionMatch`, as it is written and read. -/
def conditionMatchType : JsonType ConditionMatch :=
  struct conditionMatchFields ⟨none, none, none, none, none⟩ ConditionMatch.stored

/-- The tags of `ConditionMatch` are sound. -/
theorem struct_conditionMatch :
    Struct conditionMatchFields ⟨none, none, none, none, none⟩ ConditionMatch.stored where
  names := by decide
  sound := by
    simp [conditionMatchFields, lawful_pointer lawful_addressMatchType.1 fun _ => nofun,
      lawful_pointer lawful_listStringMatchType.1 fun _ => nofun]
  apart := by simp [conditionMatchFields, Json.Field.Apart]
  ext x z h := by
    cases z
    simp_all [conditionMatchFields, Json.Field.kept, ConditionMatch.stored]

/-- `ConditionMatch` is read back. -/
@[simp]
theorem lawful_conditionMatchType :
    conditionMatchType.Lawful ∧ conditionMatchType.stored = ConditionMatch.stored :=
  ⟨struct_conditionMatch.lawful, rfl⟩

/-- The fields of `OverrideConfig`. -/
def overrideConfigFields : List (Json.Field OverrideConfig) :=
  [tagged "side" stringType (·.side) fun v x => { x with side := v },
   tagged "addresses" (slice stringType) (·.addresses) fun v x => { x with addresses := v },
   tagged "providerAddresses" (slice stringType) (·.providerAddresses) fun v x =>
     { x with providerAddresses := v },
   tagged "parameters" stringMap (·.parameters) fun v x => { x with parameters := v },
   tagged "applications" (slice stringType) (·.applications) fun v x =>
     { x with applications := v },
   tagged "services" (slice stringType) (·.services) fun v x => { x with services := v },
   tagged "type" stringType (·.type) fun v x => { x with type := v },
   tagged "enabled" boolType (·.enabled) fun v x => { x with enabled := v },
   tagged "match" (pointer conditionMatchType) (·.cond) fun v x => { x with cond := v },
   tagged "__generate_by_cp" boolType (·.xGenerateByCp) fun v x => { x with xGenerateByCp := v }]

/-- `OverrideConfig`, as it is written and read. -/
def overrideConfigType : JsonType OverrideConfig :=
  struct overrideConfigFields ⟨"", none, none, none, none, none, "", false, none, false⟩
    OverrideConfig.stored

/-- The tags of `OverrideConfig` are sound. -/
theorem struct_overrideConfig :
    Struct overrideConfigFields ⟨"", none, none, none, none, none, "", false, none, false⟩
      OverrideConfig.stored where
  names := by decide
  sound := by simp [overrideConfigFields, lawful_pointer lawful_conditionMatchType.1 fun _ => nofun]
  apart := by simp [overrideConfigFields, Json.Field.Apart]
  ext x z h := by
    cases z
    simp_all [overrideConfigFields, Json.Field.kept, OverrideConfig.stored]

/-- `OverrideConfig` is read back. -/
@[simp]
theorem lawful_overrideConfigType :
    overrideConfigType.Lawful ∧ overrideConfigType.stored = OverrideConfig.stored :=
  ⟨struct_overrideConfig.lawful, rfl⟩

/-- The fields of `DynamicConfig`. -/
def dynamicConfigFields : List (Json.Field DynamicConfig) :=
  [tagged "key" stringType (·.key) fun v x => { x with key := v },
   tagged "scope" stringType (·.scope) fun v x => { x with scope := v },
   tagged "configVersion" stringType (·.configVersion) fun v x => { x with configVersion := v },
   tagged "enabled" boolType (·.enabled) fun v x => { x with enabled := v },
   tagged "configs" (slice overrideConfigType) (·.configs) fun v x => { x with configs := v }]

/-- `DynamicConfig`, as it is written and read. -/
def dynamicConfigType : JsonType DynamicConfig :=
  struct dynamicConfigFields ⟨"", "", "", false, none⟩ DynamicConfig.stored

/-- The tags of `DynamicConfig` are sound. -/
theorem struct_dynamicConfig :
    Struct dynamicConfigFields ⟨"", "", "", false, none⟩ DynamicConfig.stored where
  names := by decide
  sound := by simp [dynamicConfigFields]
  apart := by simp [dynamicConfigFields, Json.Field.Apart]
  ext x z h := by
    cases z
    simp_all [dynamicConfigFields, Json.Field.kept, DynamicConfig.stored]

/-- `DynamicConfig` is read back. -/
@[simp]
theorem lawful_dynamicConfigType :
    dynamicConfigType.Lawful ∧ dynamicConfigType.stored = DynamicConfig.stored :=
  ⟨struct_dynamicConfig.lawful, rfl⟩

/-- The fields of `Tag`. -/
def tagFields : List (Json.Field Tag) :=
  [tagged "name" stringType (·.name) fun v x => { x with name := v },
   tagged "addresses" (slice stringType) (·.addresses) fun v x => { x with addresses := v },
   tagged "match" (slice paramMatchType) (·.cond) fun v x => { x with cond := v },
   tagged "__generate_by_cp" boolType (·.xGenerateByCp) fun v x => { x with xGenerateByCp := v }]

/-- `Tag`, as it is written and read. -/
def tagType : JsonType Tag := struct tagFields ⟨"", none, none, false⟩ Tag.stored

/-- The tags of `Tag` are sound. -/
theorem struct_tag : Struct tagFields ⟨"", none, none, false⟩ Tag.stored where
  names := by decide
  sound := by simp [tagFields]
  apart := by simp [tagFields, Json.Field.Apart]
  ext x z h := by
    cases z
    simp_all [tagFields, Json.Field.kept, Tag.stored]

/-- `Tag` is read back. -/
@[simp]
theorem lawful_tagType : tagType.Lawful ∧ tagType.stored = Tag.stored := ⟨struct_tag.lawful, rfl⟩

/-- The fields of `TagRoute`. -/
def tagRouteFields : List (Json.Field TagRoute) :=
  [tagged "priority" int32Type (·.priority) fun v x => { x with priority := v },
   tagged "enabled" boolType (·.enabled) fun v x => { x with enabled := v },
   tagged "runtime" boolType (·.runtime) fun v x => { x with runtime := v },
   tagged "key" stringType (·.key) fun v x => { x with key := v },
   tagged "configVersion" stringType (·.configVersion) fun v x => { x with configVersion := v },
   tagged "force" boolType (·.force) fun v x => { x with force := v },
   tagged "tags" (slice tagType) (·.tags) fun v x => { x with tags := v }]

/-- `TagRoute`, as it is written and read. -/
def tagRouteType : JsonType TagRoute :=
  struct tagRouteFields ⟨0, false, false, "", "", false, none⟩ TagRoute.stored

/-- The tags of `TagRoute` are sound. -/
theorem struct_tagRoute :
    Struct tagRouteFields ⟨0, false, false, "", "", false, none⟩ TagRoute.stored where
  names := by decide
  sound := by simp [tagRouteFields]
  apart := by simp [tagRouteFields, Json.Field.Apart]
  ext x z h := by
    cases z
    simp_all [tagRouteFields, Json.Field.kept, TagRoute.stored]

/-- `TagRoute` is read back. -/
@[simp]
theorem lawful_tagRouteType : tagRouteType.Lawful ∧ tagRouteType.stored = TagRoute.stored :=
  ⟨struct_tagRoute.lawful, rfl⟩

/-- The fields of `ConditionRoute`. -/
def conditionRouteFields : List (Json.Field ConditionRoute) :=
  [tagged "configVersion" stringType (·.configVersion) fun v x => { x with configVersion := v },
   tagged "priority" int32Type (·.priority) fun v x => { x with priority := v },
   tagged "enabled" boolType (·.enabled) fun v x => { x with enabled := v },
   tagged "force" boolType (·.force) fun v x => { x with force := v },
   tagged "runtime" boolType (·.runtime) fun v x => { x with runtime := v },
   tagged "key" stringType (·.key) fun v x => { x with key := v },
   tagged "scope" stringType (·.scope) fun v x => { x with scope := v },
   tagged "conditions" (slice stringType) (·.conditions) fun v x => { x with conditions := v }]

/-- `ConditionRoute`, as it is written and read. -/
def conditionRouteType : JsonType ConditionRoute :=
  struct conditionRouteFields ⟨"", 0, false, false, false, "", "", none⟩ ConditionRoute.stored

/-- The tags of `ConditionRoute` are sound. -/
theorem struct_conditionRoute :
    Struct conditionRouteFields ⟨"", 0, false, false, false, "", "", none⟩
      ConditionRoute.stored where
  names := by decide
  sound := by simp [conditionRouteFields]
  apart := by simp [conditionRouteFields, Json.Field.Apart]
  ext x z h := by
    cases z
    simp_all [conditionRouteFields, Json.Field.kept, ConditionRoute.stored]

/-- `ConditionRoute` is read back. -/
@[simp]
theorem lawful_conditionRouteType :
    conditionRouteType.Lawful ∧ conditionRouteType.stored = ConditionRoute.stored :=
  ⟨struct_conditionRoute.lawful, rfl⟩

end DubboAdmin.Rules
