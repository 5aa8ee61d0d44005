import DubboAdmin.Discovery.Metadata
import DubboAdmin.Rules.RuleSpecYaml

/-!
# Converters of nodes and configs

The converters by which the listers of `pkg/discovery/zk/factory.go` and `pkg/discovery/nacos2`
turn a node of ZooKeeper or a config of Nacos into a resource. ZooKeeper has one for a node that
comes or changes and one for a node that goes, which has its path only. Nacos has one, and a config
that goes is converted with an empty content.

An informer deletes what has the key of the converted resource, so that it has to be the key under
which the resource was stored. `delete_key_iff` says for which converters and inputs it is.
-/

namespace DubboAdmin.Discovery

open Instances (StringMap valueAt RPCInstanceResource rpcInstanceKind buildInstanceResName
  toRPCInstance Formats)
open Rules (toRuleResource dynamicConfigKind conditionRouteKind tagRouteKind)
open Strings (split isBlank parseInt64)

/-! ## Resources -/

/-- The applications of a service. -/
structure ServiceProviderMapping where
  serviceName : String := ""
  appNames : List String := []
deriving DecidableEq, Repr

/-- `ZKConfig`, with data of a type of its own. -/
structure ZKConfig (Text : Type) where
  nodeName : String
  nodeData : Text

/-- A config node. -/
abbrev ZKConfigResource (Text : Type) := Resource (Option (ZKConfig Text))

def zkConfigKind : String := "ZKConfig"

/-- A metadata node. -/
structure ZKMetadata where
  nodePath : String := ""
  nodeData : String := ""
deriving DecidableEq, Repr

def newServiceProviderMappingResourceWithAttributes (name mesh : String) :
    Resource ServiceProviderMapping :=
  ⟨"ServiceProviderMapping", mesh, name, {}⟩

def newZKMetadataResourceWithAttributes (name mesh : String) : Resource ZKMetadata :=
  ⟨"ZKMetadata", mesh, name, {}⟩

def newRPCInstanceResourceWithAttributes (name mesh : String) : RPCInstanceResource :=
  ⟨rpcInstanceKind, mesh, name, some ⟨"", "", "", 0, "", "", "", "", "", "", ∅⟩⟩

/-- `NewServiceProviderMetadataResourceWithAttributes`, with the spec that is set at once. -/
def newServiceProviderMetadataResourceWithAttributes (name mesh : String)
    (spec : ServiceProviderMetadata) : ServiceProviderMetadataResource :=
  ⟨serviceProviderMetadataKind, mesh, name, some spec⟩

/-! ## ZooKeeper -/

def toServiceProviderMappingResource (mesh name data : String) :
    Option (Resource ServiceProviderMapping) :=
  some { newServiceProviderMappingResourceWithAttributes name mesh with
    spec := ⟨name, split ',' data⟩ }

/-- The last part of a path of four parts. -/
def fourth (nodePath : String) : Option String :=
  match split '/' nodePath with
  | [_, _, _, last] => some last
  | _ => none

def toUpsertMappingResource (mesh nodePath nodeData : String) :
    Option (Resource ServiceProviderMapping) :=
  (fourth nodePath).bind fun serviceName =>
    toServiceProviderMappingResource mesh serviceName nodeData

def toDeleteMappingResource (mesh nodePath : String) : Option (Resource ServiceProviderMapping) :=
  (fourth nodePath).map fun serviceName =>
    newServiceProviderMappingResourceWithAttributes serviceName mesh

def toUpsertZKConfigResource {Text : Type} (mesh nodePath : String) (nodeData : Text) :
    Option (ZKConfigResource Text) :=
  (fourth nodePath).map fun configName =>
    ⟨zkConfigKind, mesh, configName, some ⟨configName, nodeData⟩⟩

/-- `toDeleteZKConfigResource`, which leaves the data empty. -/
def toDeleteZKConfigResource (mesh nodePath : String) : Option (ZKConfigResource String) :=
  toUpsertZKConfigResource mesh nodePath ""

def toUpsertZKMetadataResource (mesh nodePath nodeData : String) : Option (Resource ZKMetadata) :=
  if (split '/' nodePath).length < 5 then none
  else some { newZKMetadataResourceWithAttributes nodePath mesh with spec := ⟨nodePath, nodeData⟩ }

def toDeleteZKMetadataResource (mesh nodePath : String) : Option (Resource ZKMetadata) :=
  if (split '/' nodePath).length < 5 then none
  else some (newZKMetadataResourceWithAttributes nodePath mesh)

/-- What an instance node holds beside the address. -/
structure ZookeeperInstancePayload where
  metadata : Option StringMap

/-- An instance node. -/
structure ZooKeeperInstance where
  name : String
  address : String
  port : Int64
  payload : Option ZookeeperInstancePayload

/-- A `ServiceProviderMetadata` as it is read from JSON. -/
structure ProviderMetadataJSON where
  canonicalName : String
  methods : List (Option Method)
  parameters : StringMap
  types : List (Option MetadataType)

/-- The parsers that the converters rely on. The specs of the rules are of types of their own. -/
structure Decoders (D C T : Type) where
  formats : Formats
  /-- `json.Unmarshal` into a `ZooKeeperInstance`, or `none` for an error. -/
  zooKeeperInstance : String → Option ZooKeeperInstance
  /-- `json.Unmarshal` into a `ServiceProviderMetadata`, or `none` for an error. -/
  serviceProviderMetadata : String → Option ProviderMetadataJSON
  serviceProviderMetadata_empty : serviceProviderMetadata "" = none
  /-- What `yaml.Unmarshal` makes of an empty `DynamicConfig`, also where it ends in an error. -/
  dynamicConfig : String → D
  conditionRoute : String → C
  tagRoute : String → T

section Converters

variable {D C T : Type}

/-- `toUpsertRPCInstanceResource`, which does not read the path. -/
def toUpsertRPCInstanceResource (decoders : Decoders D C T) (mesh _nodePath nodeData : String) :
    Option RPCInstanceResource :=
  match decoders.zooKeeperInstance nodeData with
  | none => none
  | some zkInstance =>
    if isBlank zkInstance.name then none
    else if isBlank zkInstance.address then none
    else if zkInstance.port.toInt ≤ 0 then none
    else
      match zkInstance.payload with
      | none => none
      | some payload =>
        match payload.metadata with
        | none => none
        | some metadata => some (toRPCInstance decoders.formats mesh zkInstance.name
            zkInstance.address zkInstance.port.toInt metadata)

/-- The panic of an access behind the end of a slice of one element. -/
def indexOutOfRange : Failure := .panic "runtime error: index out of range [1] with length 1"

def toDeleteRPCInstanceResource (mesh nodePath : String) :
    Except Failure (Option RPCInstanceResource) :=
  match split '/' nodePath with
  | _ :: _ :: appName :: endpoint :: _ =>
    match split ':' endpoint with
    | ip :: port :: _ =>
      match parseInt64 port with
      | none => .ok none
      | some port => .ok (some (newRPCInstanceResourceWithAttributes
          (buildInstanceResName appName ip port) mesh))
    | _ => .error indexOutOfRange
  | _ => .ok none

/-! ## Nacos -/

/-- `ToServiceProviderMetadataResource`. The name is only logged. -/
def toServiceProviderMetadataResource (decoders : Decoders D C T) (mesh _name data : String) :
    Option ServiceProviderMetadataResource :=
  (decoders.serviceProviderMetadata data).map fun json =>
    let metadataSpec : ServiceProviderMetadata :=
      { serviceName := json.canonicalName
        providerAppName := valueAt json.parameters applicationKey
        version := valueAt json.parameters versionKey
        group := valueAt json.parameters groupKey
        methods := json.methods
        parameters := json.parameters
        types := json.types }
    newServiceProviderMetadataResourceWithAttributes
      (buildServiceKey metadataSpec.serviceName metadataSpec.version metadataSpec.group
        metadataSpec.providerAppName) mesh metadataSpec

/-- The converters of `NewListWatchers` and `initListerWatchers`. -/
inductive Converter where
  /-- `toUpsertMappingResource` and `toDeleteMappingResource`. -/
  | zkMapping
  /-- `toUpsertRPCInstanceResource` and `toDeleteRPCInstanceResource`. -/
  | zkRPCInstance
  /-- `toUpsertZKConfigResource` and `toDeleteZKConfigResource`. -/
  | zkConfig
  /-- `toUpsertZKMetadataResource` and `toDeleteZKMetadataResource`. -/
  | zkMetadata
  /-- `ToDynamicConfigResource`. -/
  | nacosDynamicConfig
  /-- `ToConditionRouteResource`. -/
  | nacosConditionRoute
  /-- `ToTagRouteResource`. -/
  | nacosTagRoute
  /-- `ToServiceProviderMetadataResource`. -/
  | nacosServiceProviderMetadata
  /-- `ToServiceProviderMappingResource`. -/
  | nacosServiceProviderMapping
deriving DecidableEq, Repr

/-- The `ResourceKey` of what a node or config is converted to, if it is. -/
def Converter.upsertKey (decoders : Decoders D C T) (mesh name content : String) :
    Converter → Option String
  | .zkMapping => (toUpsertMappingResource mesh name content).map Resource.resourceKey
  | .zkRPCInstance =>
    (toUpsertRPCInstanceResource decoders mesh name content).map Resource.resourceKey
  | .zkConfig => (toUpsertZKConfigResource mesh name content).map Resource.resourceKey
  | .zkMetadata => (toUpsertZKMetadataResource mesh name content).map Resource.resourceKey
  | .nacosDynamicConfig =>
    (toRuleResource dynamicConfigKind decoders.dynamicConfig mesh name content).resourceKey
  | .nacosConditionRoute =>
    (toRuleResource conditionRouteKind decoders.conditionRoute mesh name content).resourceKey
  | .nacosTagRoute => (toRuleResource tagRouteKind decoders.tagRoute mesh name content).resourceKey
  | .nacosServiceProviderMetadata =>
    (toServiceProviderMetadataResource decoders mesh name content).map Resource.resourceKey
  | .nacosServiceProviderMapping =>
    (toServiceProviderMappingResource mesh name content).map Resource.resourceKey

/-- The `ResourceKey` of what a node or config that goes is converted to, if it is. -/
def Converter.deleteKey (decoders : Decoders D C T) (mesh name : String) :
    Converter → Except Failure (Option String)
  | .zkMapping => .ok ((toDeleteMappingResource mesh name).map Resource.resourceKey)
  | .zkRPCInstance =>
    (toDeleteRPCInstanceResource mesh name).map fun res => res.map Resource.resourceKey
  | .zkConfig => .ok ((toDeleteZKConfigResource mesh name).map Resource.resourceKey)
  | .zkMetadata => .ok ((toDeleteZKMetadataResource mesh name).map Resource.resourceKey)
  -- `unsubscribeConfig` of a `ConfigListerWatcher` converts an empty content.
  | .nacosDynamicConfig => .ok (Converter.nacosDynamicConfig.upsertKey decoders mesh name "")
  | .nacosConditionRoute => .ok (Converter.nacosConditionRoute.upsertKey decoders mesh name "")
  | .nacosTagRoute => .ok (Converter.nacosTagRoute.upsertKey decoders mesh name "")
  | .nacosServiceProviderMetadata =>
    .ok (Converter.nacosServiceProviderMetadata.upsertKey decoders mesh name "")
  | .nacosServiceProviderMapping =>
    .ok (Converter.nacosServiceProviderMapping.upsertKey decoders mesh name "")

/-- The path of an instance's node. -/
def ZooKeeperInstance.path (zkInstance : ZooKeeperInstance) : String :=
  "/services/" ++ zkInstance.name ++ "/" ++ zkInstance.address ++ ":" ++
    toString zkInstance.port.toInt

/-- The node of an instance is at its path. Other nodes and configs may have any name. -/
def Converter.AtPath (decoders : Decoders D C T) (name content : String) : Converter → Prop
  | .zkRPCInstance => ∃ zkInstance, decoders.zooKeeperInstance content = some zkInstance ∧
      name = zkInstance.path
  | _ => True

/-- Where the two keys agree: an instance has no separators of its own, and metadata in Nacos never
does. -/
def Converter.Addressed (decoders : Decoders D C T) (content : String) : Converter → Prop
  | .zkRPCInstance => ∀ zkInstance, decoders.zooKeeperInstance content = some zkInstance →
      '/' ∉ zkInstance.name.toList ∧ '/' ∉ zkInstance.address.toList ∧
        ':' ∉ zkInstance.address.toList
  | .nacosServiceProviderMetadata => False
  | _ => True

/-! ## Keys of deletes -/

variable {mesh : String}

theorem buildResourceKey_right_inj {name name' : String} :
    buildResourceKey mesh name = buildResourceKey mesh name' ↔ name = name' :=
  String.append_right_inj _

variable {res : RPCInstanceResource}

/-- What an instance that is converted has. -/
theorem toUpsertRPCInstanceResource_eq_some {decoders : Decoders D C T} {path data : String}
    (h : toUpsertRPCInstanceResource decoders mesh path data = some res) :
    ∃ zkInstance, decoders.zooKeeperInstance data = some zkInstance ∧ 0 < zkInstance.port.toInt ∧
      res.resourceKey = buildResourceKey mesh (buildInstanceResName zkInstance.name
        zkInstance.address zkInstance.port.toInt) := by
  unfold toUpsertRPCInstanceResource at h
  cases hinstance : decoders.zooKeeperInstance data with
  | none =>
    rw [hinstance] at h
    cases h
  | some zkInstance =>
    rw [hinstance] at h
    dsimp only at h
    split_ifs at h with hname haddress hport
    cases hpayload : zkInstance.payload with
    | none =>
      rw [hpayload] at h
      cases h
    | some payload =>
      rw [hpayload] at h
      dsimp only at h
      cases hmetadata : payload.metadata with
      | none =>
        rw [hmetadata] at h
        cases h
      | some metadata =>
        rw [hmetadata] at h
        cases h
        exact ⟨zkInstance, rfl, not_le.mp hport, rfl⟩

theorem split_path (zkInstance : ZooKeeperInstance) :
    split '/' zkInstance.path = "" :: "services" :: (split '/' zkInstance.name ++
      split '/' (zkInstance.address ++ ":" ++ toString zkInstance.port.toInt)) := by
  have hpath : zkInstance.path = "" ++ String.singleton '/' ++ ("services" ++
      String.singleton '/' ++ (zkInstance.name ++ String.singleton '/' ++
        (zkInstance.address ++ ":" ++ toString zkInstance.port.toInt))) := by
    rw [← String.toList_inj]
    simp [ZooKeeperInstance.path, String.toList_append]
  rw [hpath, Strings.split_join (by decide), Strings.split_join (by decide),
    Strings.split_append]

/-- Without separators of its own, an instance is found by its path. -/
theorem toDeleteRPCInstanceResource_path {zkInstance : ZooKeeperInstance} (mesh : String)
    (hport : 0 < zkInstance.port.toInt) (hname : '/' ∉ zkInstance.name.toList)
    (haddress : '/' ∉ zkInstance.address.toList) (hcolon : ':' ∉ zkInstance.address.toList) :
    toDeleteRPCInstanceResource mesh zkInstance.path =
      .ok (some (newRPCInstanceResourceWithAttributes (buildInstanceResName zkInstance.name
        zkInstance.address zkInstance.port.toInt) mesh)) := by
  have hdigits : ∀ c : Char, c.isDigit = false → c ≠ '-' →
      c ∉ (toString zkInstance.port.toInt).toList :=
    fun c hc hsign => Strings.notMem_toString_int hc hsign _
  have hendpoint : '/' ∉ (zkInstance.address ++ ":" ++ toString zkInstance.port.toInt).toList := by
    simp only [String.toList_append, List.mem_append, not_or]
    exact ⟨⟨haddress, by decide⟩, hdigits '/' (by decide) (by decide)⟩
  have hsplit : split ':' (zkInstance.address ++ ":" ++ toString zkInstance.port.toInt) =
      [zkInstance.address, toString zkInstance.port.toInt] := by
    rw [show ":" = String.singleton ':' from rfl, Strings.split_join hcolon,
      Strings.split_eq_singleton (hdigits ':' (by decide) (by decide))]
  unfold toDeleteRPCInstanceResource
  rw [split_path, Strings.split_eq_singleton hname, Strings.split_eq_singleton hendpoint]
  dsimp only [List.cons_append, List.nil_append]
  rw [hsplit]
  dsimp only
  rw [Strings.parseInt64_toString (by omega) zkInstance.port.toInt_lt]

/-- What the parts of a path are where it is converted. -/
theorem toDeleteRPCInstanceResource_eq_ok {path : String}
    (h : toDeleteRPCInstanceResource mesh path = .ok (some res)) :
    ∃ first second appName endpoint rest ip port,
      split '/' path = first :: second :: appName :: endpoint :: rest ∧
      (∃ more, split ':' endpoint = ip :: more) ∧
      res.resourceKey = buildResourceKey mesh (buildInstanceResName appName ip port) := by
  unfold toDeleteRPCInstanceResource at h
  split at h
  · next first second appName endpoint rest hsplit =>
    split at h
    · next ip port more hendpoint =>
      cases hport : parseInt64 port with
      | none =>
        rw [hport] at h
        cases h
      | some port' =>
        rw [hport] at h
        obtain rfl := Option.some.inj (Except.ok.inj h)
        exact ⟨first, second, appName, endpoint, rest, ip, port', hsplit, ⟨_, hendpoint⟩, rfl⟩
    · cases h
  · cases h

/-- Names of instances tell apart what stands before the port. -/
theorem buildInstanceResName_inj {appName ip appName' ip' : String} {port port' : ℤ}
    (h : buildInstanceResName appName ip port = buildInstanceResName appName' ip' port') :
    appName.toList ++ ip.toList = appName'.toList ++ ip'.toList := by
  have hchars : (appName.toList ++ ip.toList) ++ ':' :: (toString port).toList =
      (appName'.toList ++ ip'.toList) ++ ':' :: (toString port').toList := by
    have hlist := congrArg String.toList h
    simpa [buildInstanceResName, String.toList_append] using hlist
  have hcolon : ∀ n : ℤ, ':' ∉ (toString n).toList :=
    fun n => Strings.notMem_toString_int (by decide) (by decide) n
  exact (Strings.join_inj_right (hcolon port) (hcolon port') hchars).1

/-- Where an instance is found by its path, it has no separators of its own. -/
theorem no_separators_of_deleted {zkInstance : ZooKeeperInstance}
    (h : toDeleteRPCInstanceResource mesh zkInstance.path = .ok (some res))
    (hkey : res.resourceKey = buildResourceKey mesh (buildInstanceResName zkInstance.name
      zkInstance.address zkInstance.port.toInt)) :
    '/' ∉ zkInstance.name.toList ∧ '/' ∉ zkInstance.address.toList ∧
      ':' ∉ zkInstance.address.toList := by
  obtain ⟨first, second, appName, endpoint, rest, ip, port, hsplit, ⟨more, hendpoint⟩, hres⟩ :=
    toDeleteRPCInstanceResource_eq_ok h
  have hchars := buildInstanceResName_inj (buildResourceKey_right_inj.mp (hres.symm.trans hkey))
  have hparts : ∀ part ∈ split '/' zkInstance.path, '/' ∉ part.toList :=
    fun part => Strings.notMem_of_mem_split
  have hip : ':' ∉ ip.toList := Strings.notMem_of_mem_split (hendpoint ▸ List.mem_cons_self)
  rw [hsplit] at hparts
  obtain ⟨-, -, happ, hend, -⟩ : _ ∧ _ ∧ '/' ∉ appName.toList ∧ '/' ∉ endpoint.toList ∧ _ := by
    simpa only [List.forall_mem_cons] using hparts
  -- What is found has no `/`, so the name and the address have none.
  have hslash : '/' ∉ zkInstance.name.toList ++ zkInstance.address.toList := by
    rw [← hchars, List.mem_append, not_or]
    exact ⟨happ, fun hmem => hend ((Strings.prefix_of_split_eq_cons hendpoint).subset hmem)⟩
  rw [List.mem_append, not_or] at hslash
  refine ⟨hslash.1, hslash.2, ?_⟩
  have hname : appName = zkInstance.name := by
    rw [split_path, Strings.split_eq_singleton hslash.1] at hsplit
    exact (List.cons.inj (List.cons.inj (List.cons.inj hsplit).2).2).1.symm
  rw [hname, List.append_cancel_left_eq] at hchars
  rwa [← hchars]

/-- The delete conversion of an instance panics where the fourth part of the path has no `:`. -/
theorem toDeleteRPCInstanceResource_eq_error {path : String} {e : Failure} :
    toDeleteRPCInstanceResource mesh path = .error e ↔ e = indexOutOfRange ∧
      ∃ endpoint, (split '/' path)[3]? = some endpoint ∧ ':' ∉ endpoint.toList := by
  unfold toDeleteRPCInstanceResource
  split
  · next first second appName endpoint rest hsplit =>
    rw [hsplit]
    have hfourth : (first :: second :: appName :: endpoint :: rest)[3]? = some endpoint := rfl
    split
    · next ip port more hendpoint =>
      have hcolon : ':' ∈ endpoint.toList := by
        by_contra hnot
        rw [Strings.split_eq_singleton hnot] at hendpoint
        cases hendpoint
      refine iff_of_false ?_ ?_
      · cases parseInt64 port with
        | none | some _ => exact fun h => nomatch h
      · rintro ⟨-, endpoint', hfourth', hnot⟩
        exact hnot (Option.some.inj (hfourth'.symm.trans hfourth) ▸ hcolon)
    · next hother =>
      have hcolon : ':' ∉ endpoint.toList := by
        rw [← Strings.split_eq_singleton_iff]
        cases hparts : split ':' endpoint with
        | nil => exact absurd hparts (Strings.split_ne_nil _ _)
        | cons part more =>
          cases more with
          | nil => exact ⟨part, rfl⟩
          | cons port more => exact (hother part port more hparts).elim
      constructor
      · intro h
        exact ⟨(Except.error.inj h).symm, endpoint, hfourth, hcolon⟩
      · rintro ⟨rfl, -⟩
        rfl
  · next hother =>
    -- There are fewer than four parts.
    refine iff_of_false (fun h => nomatch h) ?_
    rintro ⟨-, endpoint, hfourth, -⟩
    rcases hparts : split '/' path with _ | ⟨a, _ | ⟨b, _ | ⟨c, _ | ⟨d, rest⟩⟩⟩⟩
    · rw [hparts] at hfourth
      cases hfourth
    · rw [hparts] at hfourth
      cases hfourth
    · rw [hparts] at hfourth
      cases hfourth
    · rw [hparts] at hfourth
      cases hfourth
    · exact hother a b c d rest hparts

/-- Most converters take the key from the name. -/
theorem deleteKey_eq_upsertKey (decoders : Decoders D C T) {converter : Converter}
    (hinstance : converter ≠ .zkRPCInstance)
    (hmetadata : converter ≠ .nacosServiceProviderMetadata) (mesh name content : String) :
    converter.deleteKey decoders mesh name =
      .ok (converter.upsertKey decoders mesh name content) := by
  cases converter with
  | zkRPCInstance => exact absurd rfl hinstance
  | nacosServiceProviderMetadata => exact absurd rfl hmetadata
  | zkMapping =>
    unfold Converter.deleteKey Converter.upsertKey toDeleteMappingResource toUpsertMappingResource
    cases fourth name with
    | none => rfl
    | some serviceName => rfl
  | zkConfig =>
    unfold Converter.deleteKey Converter.upsertKey toDeleteZKConfigResource
      toUpsertZKConfigResource
    cases fourth name with
    | none => rfl
    | some configName => rfl
  | zkMetadata =>
    unfold Converter.deleteKey Converter.upsertKey toDeleteZKMetadataResource
      toUpsertZKMetadataResource
    split_ifs with hshort
    · rfl
    · rfl
  | nacosDynamicConfig | nacosConditionRoute | nacosTagRoute | nacosServiceProviderMapping => rfl

/-- The keys of an instance agree where it has no separators of its own. -/
theorem zkRPCInstance_deleteKey_iff {decoders : Decoders D C T} {path data key : String}
    (hupsert : Converter.zkRPCInstance.upsertKey decoders mesh path data = some key)
    (hpath : Converter.zkRPCInstance.AtPath decoders path data) :
    Converter.zkRPCInstance.deleteKey decoders mesh path = .ok (some key) ↔
      Converter.zkRPCInstance.Addressed decoders data := by
  obtain ⟨res, hres, rfl⟩ := Option.map_eq_some_iff.mp hupsert
  obtain ⟨zkInstance, hinstance, hport, hkey⟩ := toUpsertRPCInstanceResource_eq_some hres
  obtain ⟨zkInstance', hinstance', rfl⟩ := hpath
  obtain rfl : zkInstance = zkInstance' := Option.some.inj (hinstance.symm.trans hinstance')
  constructor
  · intro hdelete other hother
    obtain rfl : zkInstance = other := Option.some.inj (hinstance.symm.trans hother)
    -- What was found has the key.
    unfold Converter.deleteKey at hdelete
    cases hresult : toDeleteRPCInstanceResource mesh zkInstance.path with
    | error e =>
      rw [hresult] at hdelete
      cases hdelete
    | ok deleted =>
      rw [hresult] at hdelete
      obtain ⟨res', rfl, hkey'⟩ := Option.map_eq_some_iff.mp (Except.ok.inj hdelete)
      exact no_separators_of_deleted hresult (hkey'.trans hkey)
  · intro haddressed
    obtain ⟨hname, haddress, hcolon⟩ := haddressed zkInstance hinstance
    unfold Converter.deleteKey
    rw [toDeleteRPCInstanceResource_path mesh hport hname haddress hcolon, hkey]
    rfl

/-- For every converter and mesh, every node or config that is converted to a resource (that of an
instance at its path): what goes has the key of what was stored just where the converter is not that
of metadata in Nacos, and where neither the name nor the address of an instance has a `/` and the
address has no `:`. A delete conversion panics just where it is that of an instance, and the fourth
part of the path has no `:`. -/
theorem delete_key_iff (decoders : Decoders D C T) (converter : Converter) (mesh : String) :
    (∀ name content key, converter.upsertKey decoders mesh name content = some key →
      converter.AtPath decoders name content →
        (converter.deleteKey decoders mesh name = .ok (some key) ↔
          converter.Addressed decoders content)) ∧
    ∀ name, ((∃ text, converter.deleteKey decoders mesh name = .error (.panic text)) ↔
      converter = .zkRPCInstance ∧ ∃ endpoint, (split '/' name)[3]? = some endpoint ∧
        ':' ∉ endpoint.toList) := by
  by_cases hinstance : converter = .zkRPCInstance
  · subst hinstance
    refine ⟨fun name content key => zkRPCInstance_deleteKey_iff, fun name => ?_⟩
    have hpanic : (∃ text, toDeleteRPCInstanceResource mesh name = .error (.panic text)) ↔
        ∃ endpoint, (split '/' name)[3]? = some endpoint ∧ ':' ∉ endpoint.toList := by
      simp only [toDeleteRPCInstanceResource_eq_error]
      exact ⟨fun ⟨_, _, h⟩ => h, fun h => ⟨_, rfl, h⟩⟩
    refine Iff.trans (exists_congr fun text => ?_) (hpanic.trans (and_iff_right rfl).symm)
    show (toDeleteRPCInstanceResource mesh name).map _ = _ ↔ _
    cases toDeleteRPCInstanceResource mesh name with
    | error e => rw [Except.map, Except.error.injEq, Except.error.injEq]
    | ok res => exact iff_of_false (fun h => nomatch h) (fun h => nomatch h)
  by_cases hmetadata : converter = .nacosServiceProviderMetadata
  · subst hmetadata
    -- The conversion of an empty content fails.
    have hnone : ∀ name, Converter.nacosServiceProviderMetadata.deleteKey decoders mesh name =
        .ok none := by
      intro name
      unfold Converter.deleteKey Converter.upsertKey toServiceProviderMetadataResource
      rw [decoders.serviceProviderMetadata_empty]
      rfl
    refine ⟨fun name content key _ _ => ?_, fun name => ?_⟩
    · rw [hnone]
      exact iff_of_false (fun h => nomatch h) id
    · rw [hnone]
      exact iff_of_false (fun ⟨_, h⟩ => nomatch h) (fun h => nomatch h.1)
  · have hkeys := deleteKey_eq_upsertKey decoders hinstance hmetadata mesh
    have haddressed : ∀ content, converter.Addressed decoders content := by
      intro content
      cases converter with
      | zkRPCInstance => exact absurd rfl hinstance
      | nacosServiceProviderMetadata => exact absurd rfl hmetadata
      | _ => trivial
    refine ⟨fun name content key hupsert _ => iff_of_true ?_ (haddressed content), fun name => ?_⟩
    · rw [hkeys name content, hupsert]
    · refine iff_of_false ?_ fun h => hinstance h.1
      rintro ⟨text, hpanic⟩
      rw [hkeys name ""] at hpanic
      cases hpanic

end Converters

/-- The JSON text of an instance of `shop`. -/
def instanceText (address : String) : String :=
  "\x7b\"name\":\"shop\",\"address\":\"" ++ address ++ "\",\"port\":20880\x7d"

/-- The JSON text of the metadata of `greeter`. -/
def greeterText : String := "\x7b\"canonicalName\":\"greeter\"\x7d"

/-- Parsers of these texts, with two addresses. -/
def sampleDecoders : Decoders Unit Unit Unit where
  formats := ⟨fun _ => "2024-01-01 00:00:00", fun _ => by decide, fun _ => ∅⟩
  zooKeeperInstance text :=
    (["10.0.0.1", "fe80::1"].find? fun address => text = instanceText address).map fun address =>
      ⟨"shop", address, 20880, some ⟨some ∅⟩⟩
  serviceProviderMetadata text :=
    if text = greeterText then some ⟨"greeter", [], ∅, []⟩ else none
  serviceProviderMetadata_empty := rfl
  dynamicConfig _ := ()
  conditionRoute _ := ()
  tagRoute _ := ()

/-- An instance with an IPv4 address is found by its path. -/
theorem deleteKey_ipv4 :
    Converter.zkRPCInstance.deleteKey sampleDecoders "mesh" "/services/shop/10.0.0.1:20880" =
      .ok (some "mesh/shop10.0.0.1:20880") := by
  refine ((delete_key_iff sampleDecoders .zkRPCInstance "mesh").1 "/services/shop/10.0.0.1:20880"
    (instanceText "10.0.0.1") "mesh/shop10.0.0.1:20880" (by decide +kernel)
    ⟨_, rfl, by decide +kernel⟩).mpr ?_
  rintro zkInstance h
  cases h
  decide +kernel

/-- An instance with an IPv6 address is stored, and nothing is deleted when its node goes. Metadata
in Nacos is stored, and nothing is deleted when its config goes. A node of another form below that
of an application lets the conversion panic. -/
theorem deleteKey_missing :
    (Converter.zkRPCInstance.upsertKey sampleDecoders "mesh" "/services/shop/fe80::1:20880"
        (instanceText "fe80::1") = some "mesh/shopfe80::1:20880" ∧
      Converter.zkRPCInstance.AtPath sampleDecoders "/services/shop/fe80::1:20880"
        (instanceText "fe80::1") ∧
      Converter.zkRPCInstance.deleteKey sampleDecoders "mesh" "/services/shop/fe80::1:20880" =
        .ok none) ∧
    (Converter.nacosServiceProviderMetadata.upsertKey sampleDecoders "mesh" "greeter:provider:shop"
        greeterText = some "mesh/greeter:::" ∧
      Converter.nacosServiceProviderMetadata.deleteKey sampleDecoders "mesh"
        "greeter:provider:shop" = .ok none) ∧
    Converter.zkRPCInstance.deleteKey sampleDecoders "mesh" "/services/shop/leader" =
      .error indexOutOfRange := by
  refine ⟨⟨?_, ⟨_, rfl, ?_⟩, ?_⟩, ⟨?_, ?_⟩, ?_⟩
  all_goals decide +kernel

end DubboAdmin.Discovery
