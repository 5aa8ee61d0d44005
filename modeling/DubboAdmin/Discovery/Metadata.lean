import DubboAdmin.Instances.Resource

/-!
# Metadata of consumers and providers

The metadata that a consumer or a provider of a service publishes
(`pkg/core/resource/apis/mesh/v1alpha1`), the keys that are built from the service's interface,
version and group, and the stores of both kinds with their index functions
(`pkg/core/store/index`). A query by the mesh and by the interface lists exactly the consumers that
have them (`ConsumerStore.listOf`).
-/

namespace DubboAdmin.Discovery

open Instances (StringMap valueAt)

/-! ## Keys -/

def buildServiceKey (serviceName version group appName : String) : String :=
  serviceName ++ ":" ++ version ++ ":" ++ group ++ ":" ++ appName

/-- `bizerror.New` with the code `EventError`. -/
def eventError (msg : String) : Failure := .err ("[EventError], " ++ msg)

/-- `BuildServiceIdentityKey`, and the index functions' own functions of the same body. -/
def buildServiceIdentityKey (serviceName version group : String) : String :=
  serviceName ++ ":" ++ version ++ ":" ++ group

/-! ## Consumers -/

/-- A consumer of a service. -/
structure ServiceConsumerMetadata where
  serviceName : String
  consumerAppName : String
  version : String
  group : String
  metadata : StringMap
deriving DecidableEq

/-- A `ServiceConsumerMetadataResource`. Its `Spec` is not `nil`: two of the index functions read it
without a check, so that no store holds one that is. -/
abbrev ServiceConsumerMetadataResource := Resource ServiceConsumerMetadata

def serviceConsumerMetadataKind : String := "ServiceConsumerMetadata"

/-- `constants.Application`. -/
def applicationKey : String := "application"

def interfaceKey : String := "interface"

def versionKey : String := "version"

def groupKey : String := "group"

/-- `ToServiceConsumerMetadataByMap`: `nil` where there is no interface. A missing application is
only logged, and is the empty name. -/
def toServiceConsumerMetadataByMap (metadata : StringMap) (mesh : String) :
    Option ServiceConsumerMetadataResource :=
  let consumerAppName := valueAt metadata applicationKey
  match metadata.lookup interfaceKey with
  | none => none
  | some serviceName =>
    let version := valueAt metadata versionKey
    let group := valueAt metadata groupKey
    some {
      kind := serviceConsumerMetadataKind
      mesh := mesh
      name := buildServiceKey serviceName version group consumerAppName
      spec := ⟨serviceName, consumerAppName, version, group, metadata⟩ }

/-- `ByServiceConsumerAppName`. -/
def byServiceConsumerAppNameIndex : String := "idx_service_consumer_app_name"

/-- `ByServiceConsumerServiceKey`. -/
def byServiceConsumerServiceKeyIndex : String := "idx_service_consumer_service_key"

/-- `ByServiceConsumerServiceName`. -/
def byServiceConsumerServiceNameIndex : String := "idx_service_consumer_service_name"

def byServiceConsumerAppName : IndexFunc ServiceConsumerMetadata := fun obj =>
  some [obj.spec.consumerAppName]

def byServiceConsumerServiceName : IndexFunc ServiceConsumerMetadata := fun obj =>
  some [obj.spec.serviceName]

def byServiceConsumerServiceKey : IndexFunc ServiceConsumerMetadata := fun obj =>
  some [buildServiceIdentityKey obj.spec.serviceName obj.spec.version obj.spec.group]

/-- The index functions of consumer metadata. -/
def consumerIndexers : Indexers ServiceConsumerMetadata :=
  (((AList.singleton byServiceConsumerAppNameIndex byServiceConsumerAppName).insert
    byServiceConsumerServiceKeyIndex byServiceConsumerServiceKey).insert
    byMeshIndex byMesh).insert byServiceConsumerServiceNameIndex byServiceConsumerServiceName

/-- A store of consumer metadata. -/
structure ConsumerStore (S : Type) extends JoinStore ServiceConsumerMetadata S where
  kind_eq : kind = serviceConsumerMetadataKind
  indexers_eq : indexers = consumerIndexers

/-- The memory store of consumer metadata. -/
def memoryConsumerStore : ConsumerStore (Memory.ResourceStore ServiceConsumerMetadata) where
  toJoinStore := memoryJoinStore serviceConsumerMetadataKind consumerIndexers fun _ _ => rfl
  kind_eq := rfl
  indexers_eq := rfl

variable {S : Type}

/-- The query by mesh and interface. -/
theorem ConsumerStore.listOf (st : ConsumerStore S) {s : S} (hvalid : st.valid s)
    (hexact : st.exact s) (mesh serviceName : String) :
    ∃ found, st.listByIndexes s (equalsAll
        [(byMeshIndex, mesh), (byServiceConsumerServiceNameIndex, serviceName)]) = .ok found ∧
      Listing (st.stored s) (fun r => r.mesh = mesh ∧ r.spec.serviceName = serviceName) found := by
  obtain ⟨found, hfound, hlisting⟩ := st.listByIndexes_mesh hvalid hexact (st.indexers_eq ▸ rfl)
    (n := byServiceConsumerServiceNameIndex) (f := byServiceConsumerServiceName)
    (st.indexers_eq ▸ rfl) mesh serviceName
  refine ⟨found, hfound, fun r => (hlisting.mem_iff r).trans (and_congr_right fun _ => ?_),
    hlisting.ascending⟩
  rw [byServiceConsumerServiceName, Option.getD_some, List.mem_singleton, @eq_comm _ serviceName]

/-! ## Providers -/

/-- A parameter of a method. -/
structure Parameter where
  type : String
deriving DecidableEq, Repr

/-- A method with its types. -/
structure Method where
  name : String
  parameterTypes : List String
  parameters : List (Option Parameter)
  returnType : String
deriving DecidableEq, Repr

/-- `meshproto.Type`. -/
structure MetadataType where
  enums : List String
  items : List String
  /-- The entries of the map. -/
  properties : List (String × String)
  type : String
deriving DecidableEq

/-- A provider of a service. -/
structure ServiceProviderMetadata where
  serviceName : String
  providerAppName : String
  version : String
  group : String
  methods : List (Option Method)
  parameters : StringMap
  types : List (Option MetadataType)
deriving DecidableEq

/-- A `ServiceProviderMetadataResource`, whose `Spec` may be `nil`. -/
abbrev ServiceProviderMetadataResource := Resource (Option ServiceProviderMetadata)

def serviceProviderMetadataKind : String := "ServiceProviderMetadata"

/-- `ByServiceProviderAppName`. -/
def byServiceProviderAppNameIndex : String := "idx_service_provider_app_name"

/-- `ByServiceProviderServiceKey`. -/
def byServiceProviderServiceKeyIndex : String := "idx_service_provider_service_key"

/-- `ByServiceProviderServiceName`. -/
def byServiceProviderServiceNameIndex : String := "idx_service_provider_service_name"

/-- An index function on provider metadata, without a value where there is no spec. -/
def byProvider (field : ServiceProviderMetadata → String) :
    IndexFunc (Option ServiceProviderMetadata) := fun obj =>
  match obj.spec with
  | none => some []
  | some spec => some [field spec]

def byServiceProviderAppName : IndexFunc (Option ServiceProviderMetadata) :=
  byProvider ServiceProviderMetadata.providerAppName

def byServiceProviderServiceName : IndexFunc (Option ServiceProviderMetadata) :=
  byProvider ServiceProviderMetadata.serviceName

def byServiceProviderServiceKey : IndexFunc (Option ServiceProviderMetadata) :=
  byProvider fun spec => buildServiceIdentityKey spec.serviceName spec.version spec.group

/-- The index functions of provider metadata. -/
def providerIndexers : Indexers (Option ServiceProviderMetadata) :=
  (((AList.singleton byServiceProviderAppNameIndex byServiceProviderAppName).insert
    byServiceProviderServiceNameIndex byServiceProviderServiceName).insert
    byMeshIndex byMesh).insert byServiceProviderServiceKeyIndex byServiceProviderServiceKey

/-- A store of provider metadata. -/
structure ProviderStore (S : Type) extends JoinStore (Option ServiceProviderMetadata) S where
  kind_eq : kind = serviceProviderMetadataKind
  indexers_eq : indexers = providerIndexers

theorem isSome_byProvider (field : ServiceProviderMetadata → String)
    (r : ServiceProviderMetadataResource) : (byProvider field r).isSome = true := by
  unfold byProvider
  cases r.spec with
  | none => rfl
  | some spec => rfl

theorem indexable_provider (r : ServiceProviderMetadataResource) :
    Memory.Indexer.indexable providerIndexers r = true := by
  show ((byServiceProviderServiceKey r).isSome && (true &&
    ((byServiceProviderServiceName r).isSome && ((byServiceProviderAppName r).isSome && true)))) =
      true
  simp only [byServiceProviderServiceKey, byServiceProviderServiceName, byServiceProviderAppName,
    isSome_byProvider, Bool.and_self]

/-- The memory store of provider metadata. -/
def memoryProviderStore :
    ProviderStore (Memory.ResourceStore (Option ServiceProviderMetadata)) where
  toJoinStore := memoryJoinStore serviceProviderMetadataKind providerIndexers fun r _ =>
    indexable_provider r
  kind_eq := rfl
  indexers_eq := rfl

end DubboAdmin.Discovery
