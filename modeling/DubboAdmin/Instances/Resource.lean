import DubboAdmin.Store.Interface
import Mathlib

/-!
# Instances and their two sources

An instance resource (`pkg/core/resource/apis/mesh/v1alpha1`) joins what two sources know of one
running instance: the RPC instance of a registry, and the runtime instance of an engine. Merging
copies the fields of a source into the instance, clearing empties them again, and
`hasRPCInstanceSource` and `hasRuntimeInstanceSource` infer from the fields which source is there.

A merge sets the part of its source (`rpcFields`, `runtimeFields`) and keeps the other part, and so
does clearing; no function touches the fields that the stores index.
-/

namespace DubboAdmin.Instances

open Strings

/-! ## Resources -/

/-- `map[string]string`, where a nil map is an empty one. -/
abbrev StringMap := AList fun _ : String => String

/-- A probe of a container. -/
structure Probe where
  type : String
  port : ℤ
deriving DecidableEq, Repr

/-- A condition of a pod. -/
structure Condition where
  type : String
  status : String
  lastTransitionTime : String
  reason : String
  message : String
deriving DecidableEq, Repr

/-- `meshproto.Instance`, with Go's zero values for defaults. -/
structure Instance where
  name : String := ""
  appName : String := ""
  ip : String := ""
  rpcPort : ℤ := 0
  releaseVersion : String := ""
  registerTime : String := ""
  unregisterTime : String := ""
  protocol : String := ""
  serialization : String := ""
  preferSerialization : String := ""
  tags : StringMap := ∅
  image : String := ""
  createTime : String := ""
  startTime : String := ""
  readyTime : String := ""
  deployState : String := ""
  workloadType : String := ""
  workloadName : String := ""
  node : String := ""
  probes : List Probe := []
  conditions : List Condition := []
  sourceEngine : String := ""
deriving DecidableEq

/-- What a registry knows of an instance. -/
structure RPCInstance where
  name : String
  appName : String
  ip : String
  port : ℤ
  registerTime : String
  unregisterTime : String
  releaseVersion : String
  protocol : String
  serialization : String
  preferSerialization : String
  tags : StringMap
deriving DecidableEq

/-- What an engine knows of an instance. -/
structure RuntimeInstance where
  name : String
  appName : String
  ip : String
  rpcPort : ℤ
  image : String
  createTime : String
  startTime : String
  readyTime : String
  phase : String
  workloadType : String
  workloadName : String
  node : String
  probes : List Probe
  conditions : List Condition
  sourceEngine : String
  sourceEngineType : String
deriving DecidableEq

/-- The `Labels` of a resource, and its `Spec`, which may be `nil`. -/
structure Labelled (α : Type) where
  labels : StringMap
  spec : Option α
deriving DecidableEq

/-- The resource of an instance. -/
abbrev InstanceResource := Resource (Labelled Instance)

/-- The resource of an RPC instance. -/
abbrev RPCInstanceResource := Resource (Option RPCInstance)

/-- The resource of a runtime instance. -/
abbrev RuntimeInstanceResource := Resource (Labelled RuntimeInstance)

/-- The kind of instances. -/
def instanceKind : String := "Instance"

/-- The kind of RPC instances. -/
def rpcInstanceKind : String := "RPCInstance"

/-- The kind of runtime instances. -/
def runtimeInstanceKind : String := "RuntimeInstance"

/-- The mesh of a resource without one. -/
def defaultMesh : String := "default"

/-! ## Merging and clearing -/

/-- The name of an instance: its application, address and port. -/
def buildInstanceResName (appName ip : String) (rpcPort : ℤ) : String :=
  appName ++ ip ++ ":" ++ toString rpcPort

/-- `NewInstanceResourceWithAttributes`, with the fields that its callers set at once. -/
def newInstanceResourceWithAttributes (name mesh : String) (spec : Instance) : InstanceResource :=
  ⟨instanceKind, mesh, name, ⟨∅, some spec⟩⟩

/-- The assignments of `MergeRPCInstanceIntoInstance`. -/
def Instance.mergeRPC (inst : Instance) (rpc : RPCInstance) : Instance :=
  { inst with
    releaseVersion := rpc.releaseVersion
    registerTime := rpc.registerTime
    unregisterTime := rpc.unregisterTime
    protocol := rpc.protocol
    serialization := rpc.serialization
    preferSerialization := rpc.preferSerialization
    tags := rpc.tags }

/-- Copies the fields of an RPC instance. -/
def mergeRPCInstanceIntoInstance (rpcInstanceRes : RPCInstanceResource)
    (instanceRes : InstanceResource) : Except Failure InstanceResource :=
  match rpcInstanceRes.spec, instanceRes.spec.spec with
  | some rpc, some inst =>
    .ok { instanceRes with spec := { instanceRes.spec with spec := some (inst.mergeRPC rpc) } }
  | _, _ => .error nilDereference

/-- A new instance of an RPC instance. -/
def fromRPCInstance (rpcInstanceRes : RPCInstanceResource) : Except Failure InstanceResource :=
  match rpcInstanceRes.spec with
  | none => .error nilDereference
  | some rpc =>
    mergeRPCInstanceIntoInstance rpcInstanceRes
      (newInstanceResourceWithAttributes (buildInstanceResName rpc.appName rpc.ip rpc.port)
        rpcInstanceRes.mesh
        { name := rpc.name, appName := rpc.appName, ip := rpc.ip, rpcPort := rpc.port })

/-- The assignments to the spec in `MergeRuntimeInstanceIntoInstance`. -/
def Instance.mergeRuntime (inst : Instance) (rt : RuntimeInstance) : Instance :=
  { inst with
    image := rt.image
    createTime := rt.createTime
    startTime := rt.startTime
    readyTime := rt.readyTime
    deployState := rt.phase
    workloadType := rt.workloadType
    workloadName := rt.workloadName
    node := rt.node
    probes := rt.probes
    conditions := rt.conditions
    sourceEngine := rt.sourceEngine }

/-- Copies the fields of a runtime instance. -/
def mergeRuntimeInstanceIntoInstance (rtInstanceRes : RuntimeInstanceResource)
    (instanceRes : InstanceResource) : Except Failure InstanceResource :=
  match rtInstanceRes.spec.spec, instanceRes.spec.spec with
  | some rt, some inst =>
    .ok { instanceRes with spec := ⟨rtInstanceRes.spec.labels, some (inst.mergeRuntime rt)⟩ }
  | _, _ => .error nilDereference

/-- A new instance of a runtime instance. -/
def fromRuntimeInstance (rtInstanceRes : RuntimeInstanceResource) :
    Except Failure InstanceResource :=
  match rtInstanceRes.spec.spec with
  | none => .error nilDereference
  | some rt =>
    let resName := buildInstanceResName rt.appName rt.ip rt.rpcPort
    mergeRuntimeInstanceIntoInstance rtInstanceRes
      (newInstanceResourceWithAttributes resName rtInstanceRes.mesh
        { name := resName, appName := rt.appName, ip := rt.ip, rpcPort := rt.rpcPort })

/-- The assignments of `ClearRPCInstanceFromInstance` at the time `now`. -/
def Instance.clearRPC (inst : Instance) (now : String) : Instance :=
  { inst with
    releaseVersion := ""
    registerTime := ""
    unregisterTime := now
    protocol := ""
    serialization := ""
    preferSerialization := ""
    tags := ∅ }

/-- `ClearRPCInstanceFromInstance` at the time `now`. -/
def clearRPCInstanceFromInstance (now : String) (instanceRes : InstanceResource) :
    InstanceResource :=
  { instanceRes with
    spec := { instanceRes.spec with spec := instanceRes.spec.spec.map fun i => i.clearRPC now } }

/-- The assignments to the spec in `ClearRuntimeInstanceFromInstance`. -/
def Instance.clearRuntime (inst : Instance) : Instance :=
  { inst with
    image := ""
    createTime := ""
    startTime := ""
    readyTime := ""
    deployState := ""
    workloadType := ""
    workloadName := ""
    node := ""
    probes := []
    conditions := []
    sourceEngine := "" }

/-- `ClearRuntimeInstanceFromInstance`, which leaves a resource without a spec as it is. -/
def clearRuntimeInstanceFromInstance (instanceRes : InstanceResource) : InstanceResource :=
  match instanceRes.spec.spec with
  | none => instanceRes
  | some inst => { instanceRes with spec := ⟨∅, some inst.clearRuntime⟩ }

/-- Whether the fields show a runtime instance. -/
def hasRuntimeInstanceSource (instanceRes : InstanceResource) : Bool :=
  match instanceRes.spec.spec with
  | none => false
  | some inst =>
    inst.sourceEngine ≠ "" || inst.deployState ≠ "" || inst.workloadName ≠ "" || inst.node ≠ "" ||
      inst.image ≠ "" || inst.startTime ≠ "" || inst.readyTime ≠ "" || 0 < inst.conditions.length

/-- Whether the fields show an RPC instance. -/
def hasRPCInstanceSource (instanceRes : InstanceResource) : Bool :=
  match instanceRes.spec.spec with
  | none => false
  | some inst => inst.registerTime ≠ ""

/-- What a merge that succeeds has done. -/
theorem mergeRPCInstanceIntoInstance_eq_ok {rpcInstanceRes : RPCInstanceResource}
    {old inst : InstanceResource}
    (h : mergeRPCInstanceIntoInstance rpcInstanceRes old = .ok inst) :
    ∃ rpc spec, rpcInstanceRes.spec = some rpc ∧ old.spec.spec = some spec ∧
      inst = { old with spec := { old.spec with spec := some (spec.mergeRPC rpc) } } := by
  unfold mergeRPCInstanceIntoInstance at h
  split at h
  · next rpc spec hrpc hspec => exact ⟨rpc, spec, hrpc, hspec, (Except.ok.inj h).symm⟩
  · exact nomatch h

/-- What a merge that succeeds has done. -/
theorem mergeRuntimeInstanceIntoInstance_eq_ok {rtInstanceRes : RuntimeInstanceResource}
    {old inst : InstanceResource}
    (h : mergeRuntimeInstanceIntoInstance rtInstanceRes old = .ok inst) :
    ∃ rt spec, rtInstanceRes.spec.spec = some rt ∧ old.spec.spec = some spec ∧
      inst = { old with spec := ⟨rtInstanceRes.spec.labels, some (spec.mergeRuntime rt)⟩ } := by
  unfold mergeRuntimeInstanceIntoInstance at h
  split at h
  · next rt spec hrt hspec => exact ⟨rt, spec, hrt, hspec, (Except.ok.inj h).symm⟩
  · exact nomatch h

/-- A name holds at least its separators. -/
theorem isBlank_buildInstanceResName (appName ip : String) (rpcPort : ℤ) :
    isBlank (buildInstanceResName appName ip rpcPort) = false := by
  have hmem : ':' ∈ (buildInstanceResName appName ip rpcPort).toList := by
    simp [buildInstanceResName]
  exact isBlank_eq_false hmem (by decide)

/-! ## RPC instances from metadata -/

/-- The formatting of times and the parsing of JSON that `ToRPCInstance` relies on. -/
structure Formats where
  formatMilli : ℤ → String
  formatMilli_ne_empty : ∀ t, formatMilli t ≠ ""
  /-- `json.Unmarshal` into a `map[string]string`: the entries that it has set, also where it ends
  in an error. -/
  unmarshalParams : String → StringMap

/-- Where the metadata hold the time of registration. -/
def timestampKey : String := "timestamp"

/-- Where the metadata hold the parameters of the URL. -/
def urlParamsKey : String := "dubbo.metadata-service.url-params"

/-- The keys of the metadata that are no tags. -/
def knownKeys : List String :=
  [urlParamsKey, "dubbo.endpoints", "dubbo.metadata.revision", "dubbo.metadata.storage-type",
    timestampKey]

/-- The metadata under other keys. -/
def getRPCInstanceTags (metadata : StringMap) : StringMap :=
  knownKeys.foldl (fun tags key => tags.erase key) metadata

/-- `m[key]`, which is empty for a missing key. -/
def valueAt (m : StringMap) (key : String) : String := (m.lookup key).getD ""

/-- The `RegisterTime` of `ToRPCInstance`: empty where the timestamp is no number. -/
def registerTimeOf (formats : Formats) (metadata : StringMap) : String :=
  match parseInt64 (valueAt metadata timestampKey) with
  | none => ""
  | some timestamp => formats.formatMilli timestamp

/-- The RPC instance that the metadata describe. -/
def toRPCInstance (formats : Formats) (mesh appName ip : String) (port : ℤ)
    (metadata : StringMap) : RPCInstanceResource :=
  let resName := buildInstanceResName appName ip port
  let paramsMap := match metadata.lookup urlParamsKey with
    | none => ∅
    | some urlParams => formats.unmarshalParams urlParams
  { kind := rpcInstanceKind
    mesh := mesh
    name := resName
    spec := some {
      name := resName
      appName := appName
      ip := ip
      port := port
      registerTime := registerTimeOf formats metadata
      unregisterTime := ""
      releaseVersion := valueAt paramsMap "release"
      protocol := valueAt paramsMap "protocol"
      serialization := valueAt paramsMap "serialization"
      preferSerialization := valueAt paramsMap "prefer.serialization"
      tags := getRPCInstanceTags metadata } }

/-- There is a time of registration where the timestamp is a number. -/
theorem registerTimeOf_ne_empty_iff (formats : Formats) (metadata : StringMap) :
    registerTimeOf formats metadata ≠ "" ↔
      (parseInt64 (valueAt metadata timestampKey)).isSome = true := by
  unfold registerTimeOf
  cases parseInt64 (valueAt metadata timestampKey) with
  | none => simp
  | some timestamp => simp [formats.formatMilli_ne_empty]

/-! ## The two parts of an instance -/

/-- The fields that come from an RPC instance. -/
structure RPCFields where
  releaseVersion : String := ""
  registerTime : String := ""
  unregisterTime : String := ""
  protocol : String := ""
  serialization : String := ""
  preferSerialization : String := ""
  tags : StringMap := ∅
deriving DecidableEq

/-- The fields that come from a runtime instance. -/
structure RuntimeFields where
  labels : StringMap := ∅
  image : String := ""
  createTime : String := ""
  startTime : String := ""
  readyTime : String := ""
  deployState : String := ""
  workloadType : String := ""
  workloadName : String := ""
  node : String := ""
  probes : List Probe := []
  conditions : List Condition := []
  sourceEngine : String := ""
deriving DecidableEq

/-- The RPC fields of an RPC instance. -/
def RPCInstance.rpcFields (rpc : RPCInstance) : RPCFields :=
  ⟨rpc.releaseVersion, rpc.registerTime, rpc.unregisterTime, rpc.protocol, rpc.serialization,
    rpc.preferSerialization, rpc.tags⟩

/-- The RPC fields of an instance. -/
def Instance.rpcFields (inst : Instance) : RPCFields :=
  ⟨inst.releaseVersion, inst.registerTime, inst.unregisterTime, inst.protocol, inst.serialization,
    inst.preferSerialization, inst.tags⟩

/-- The runtime fields of a runtime instance with the given labels. -/
def RuntimeInstance.runtimeFields (rt : RuntimeInstance) (labels : StringMap) : RuntimeFields :=
  ⟨labels, rt.image, rt.createTime, rt.startTime, rt.readyTime, rt.phase, rt.workloadType,
    rt.workloadName, rt.node, rt.probes, rt.conditions, rt.sourceEngine⟩

/-- The runtime fields of an instance with the given labels. -/
def Instance.runtimeFields (inst : Instance) (labels : StringMap) : RuntimeFields :=
  ⟨labels, inst.image, inst.createTime, inst.startTime, inst.readyTime, inst.deployState,
    inst.workloadType, inst.workloadName, inst.node, inst.probes, inst.conditions,
    inst.sourceEngine⟩

/-- What identifies an instance: the fields that are set when it is created, and never again. -/
def Instance.ident (inst : Instance) : String × String × String × ℤ :=
  (inst.name, inst.appName, inst.ip, inst.rpcPort)

/-- A merge with a pod keeps who the instance is. -/
@[simp]
theorem ident_mergeRuntime (inst : Instance) (rt : RuntimeInstance) :
    (inst.mergeRuntime rt).ident = inst.ident := rfl

/-! ## Indices and stores -/

/-- An index function on a field of the spec, without a value where there is no spec or the field
is skipped. -/
def byField {α : Type} (skip : String → Bool) (field : α → String) : IndexFunc (Labelled α) :=
  fun obj => match obj.spec.spec with
    | none => some []
    | some spec => if skip (field spec) then some [] else some [field spec]

/-- Instances by application. -/
def byInstanceAppName : IndexFunc (Labelled Instance) := byField isBlank Instance.appName

/-- Instances by address. -/
def byInstanceIp : IndexFunc (Labelled Instance) := byField isBlank Instance.ip

/-- Instances by name. -/
def byInstanceName : IndexFunc (Labelled Instance) := byField isBlank Instance.name

/-- Runtime instances by address. -/
def byRuntimeInstanceIp : IndexFunc (Labelled RuntimeInstance) := byField isBlank RuntimeInstance.ip

/-- Runtime instances by name. -/
def byRuntimeInstanceName : IndexFunc (Labelled RuntimeInstance) :=
  byField (fun name => name = "") RuntimeInstance.name

def byInstanceAppNameIndex : String := "idx_instance_app_name"

def byInstanceIpIndex : String := "idx_instance_ip"

def byInstanceNameIndex : String := "idx_instance_name"

def byRuntimeInstanceIPIndex : String := "idx_rt_instance_ip"

def byRuntimeInstanceNameIndex : String := "idx_rt_instance_name"

/-- The index functions of instances. -/
def instanceIndexers : Indexers (Labelled Instance) :=
  (((AList.singleton byMeshIndex byMesh).insert byInstanceNameIndex byInstanceName).insert
    byInstanceIpIndex byInstanceIp).insert byInstanceAppNameIndex byInstanceAppName

/-- The index functions of runtime instances. -/
def runtimeInstanceIndexers : Indexers (Labelled RuntimeInstance) :=
  ((AList.singleton byMeshIndex byMesh).insert byRuntimeInstanceNameIndex
    byRuntimeInstanceName).insert byRuntimeInstanceIPIndex byRuntimeInstanceIp

/-- The value of the index is that of the field, unless it is left out. -/
theorem mem_byField {α : Type} {skip : String → Bool} {field : α → String}
    {r : Resource (Labelled α)} {v : String} :
    v ∈ (byField skip field r).getD [] ↔
      ∃ spec, r.spec.spec = some spec ∧ skip (field spec) = false ∧ field spec = v := by
  unfold byField
  cases r.spec.spec with
  | none => simp
  | some spec =>
    have hspec : ∀ P : α → Prop, (∃ spec', some spec = some spec' ∧ P spec') ↔ P spec := by simp
    rw [hspec]
    dsimp only
    split_ifs with hskip
    · simp [hskip]
    · simp [hskip, @eq_comm _ v]

/-- What an instance has under the index of names. -/
theorem mem_values_name {r : InstanceResource} {v : String} :
    v ∈ instanceIndexers.values byInstanceNameIndex r ↔
      ∃ spec, r.spec.spec = some spec ∧ isBlank spec.name = false ∧ spec.name = v :=
  mem_byField

/-- What an instance has under the index of addresses. -/
theorem mem_values_ip {r : InstanceResource} {v : String} :
    v ∈ instanceIndexers.values byInstanceIpIndex r ↔
      ∃ spec, r.spec.spec = some spec ∧ isBlank spec.ip = false ∧ spec.ip = v :=
  mem_byField

/-- What a runtime instance has under the index of addresses. -/
theorem mem_values_runtimeIP {r : RuntimeInstanceResource} {v : String} :
    v ∈ runtimeInstanceIndexers.values byRuntimeInstanceIPIndex r ↔
      ∃ spec, r.spec.spec = some spec ∧ isBlank spec.ip = false ∧ spec.ip = v :=
  mem_byField

/-- A store of the instances. -/
structure InstanceStore (S : Type) extends QueryStore (Labelled Instance) S where
  kind_eq : kind = instanceKind
  indexers_eq : indexers = instanceIndexers

/-- A store of the runtime instances. -/
structure RuntimeInstanceStore (R : Type) extends QueryStore (Labelled RuntimeInstance) R where
  kind_eq : kind = runtimeInstanceKind
  indexers_eq : indexers = runtimeInstanceIndexers

/-- The index functions do not fail. -/
theorem isSome_byField {α : Type} (skip : String → Bool) (field : α → String)
    (r : Resource (Labelled α)) : (byField skip field r).isSome = true := by
  unfold byField
  cases r.spec.spec with
  | none => rfl
  | some spec =>
    dsimp only
    split_ifs <;> rfl

/-- Every instance can be indexed. -/
theorem indexable_instance (r : InstanceResource) :
    Memory.Indexer.indexable instanceIndexers r = true := by
  show ((byInstanceAppName r).isSome && ((byInstanceIp r).isSome &&
    ((byInstanceName r).isSome && (true && true)))) = true
  simp only [byInstanceAppName, byInstanceIp, byInstanceName, isSome_byField, Bool.and_self]

/-- Every runtime instance can be indexed. -/
theorem indexable_runtimeInstance (r : RuntimeInstanceResource) :
    Memory.Indexer.indexable runtimeInstanceIndexers r = true := by
  show ((byRuntimeInstanceIp r).isSome && ((byRuntimeInstanceName r).isSome && (true && true))) =
    true
  simp only [byRuntimeInstanceIp, byRuntimeInstanceName, isSome_byField, Bool.and_self]

/-- The memory store of instances. -/
def memoryInstanceStore : InstanceStore (Memory.ResourceStore (Labelled Instance)) where
  toQueryStore := memoryQueryStore instanceKind instanceIndexers fun r _ => indexable_instance r
  kind_eq := rfl
  indexers_eq := rfl

/-- The memory store of runtime instances. -/
def memoryRuntimeInstanceStore :
    RuntimeInstanceStore (Memory.ResourceStore (Labelled RuntimeInstance)) where
  toQueryStore :=
    memoryQueryStore runtimeInstanceKind runtimeInstanceIndexers fun r _ =>
      indexable_runtimeInstance r
  kind_eq := rfl
  indexers_eq := rfl

end DubboAdmin.Instances
